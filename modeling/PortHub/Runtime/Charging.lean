import PortHub.Lib.Runs
import PortHub.Runtime.Balancing

/-! # What balancing is charged for

A call of `candidates` that balances by weight charges the binding it puts first.
Here the loop over the attempts also collects these charges; without them it is the
loop of `forwardWithSecurity`. The look-ahead after a failed response selects as
well, so it charges a binding that gets no request.
-/

namespace PortHub.Runtime

/-- The binding whose weighted score a call of `candidates` reduces by the total. -/
def Upstreams.charge (pool : Upstreams) (live : Live) (now : Nat) (excluded : List String)
    (sticky : Option String) : Option String :=
  let list := pool.bindings.filter (pool.usable live now excluded)
  if list.isEmpty || pool.config.mode != .balance || pool.config.strategy != .weightedRoundRobin then
    none
  else
    match sticky.bind fun id => list.findIdx? fun binding => binding.id == id with
    | some _ => none
    | none => list[(pool.pick live list).1]?.map Binding.id

section Charging

variable {β : Type} (bodies : Bodies β) (pool : Upstreams)

/-- The loop of `attempts`, with the bindings that its calls of `candidates` charge. -/
def charging (call : Call β) : Nat → Nat → List String → Option β → Live → Served β × List String
  | 0, _, _, _, live => (⟨.response (unavailable bodies), [], live⟩, [])
  | remaining + 1, attempt, excluded, body, live =>
      let first := (pool.charge live (call.clock.instant (4 * attempt)) excluded call.sticky).toList
      match pool.candidates live (call.clock.instant (4 * attempt)) excluded call.sticky with
      | ([], live) => (⟨.response (unavailable bodies), [], live⟩, first)
      | (binding :: _, live) =>
          let id := binding.id
          let excluded := id :: excluded
          let live := live.start id
          let started := call.clock.instant (4 * attempt + 1)
          let now := call.clock.instant (4 * attempt + 2)
          let latency := (now - started) / 1000000
          let wall := call.clock.wall attempt
          let replay := replayable bodies call.request
          match if replay then some bodies.empty else body with
          | none => (⟨.panicked, [], live⟩, first)
          | some taken =>
              let body := if replay then body else none
              let sent := (id, call.outgoing pool taken)
              match call.outcomes attempt with
              | .ok response =>
                  let live := settle pool live id response.status latency now wall
                  let instant := call.clock.instant (4 * attempt + 3)
                  let ahead :=
                    if failedStatus response.status && replay then
                      (pool.charge live instant excluded none).toList
                    else []
                  let (more, live) :=
                    if failedStatus response.status && replay then
                      let (list, live) := pool.candidates live instant excluded none
                      (!list.isEmpty, live)
                    else (false, live)
                  if more then
                    let (served, charged) :=
                      charging call remaining (attempt + 1) excluded body (live.release id)
                    (served.prepend sent, first ++ ahead ++ charged)
                  else (⟨.response (returned pool call.secure id response), [sent], live⟩, first ++ ahead)
              | .error error =>
                  let live := pool.outcome live id false none latency false (some error.reason) now wall
                  let live := live.release id
                  if !replay then (⟨.response (unavailable bodies), [sent], live⟩, first)
                  else
                    let excluded :=
                      if pool.passiveSingle && error == .transport && remaining != 0 then
                        excluded.filter (· != id)
                      else excluded
                    let (served, charged) := charging call remaining (attempt + 1) excluded body live
                    (served.prepend sent, first ++ charged)

/-- Without the charges this is the loop of the source. -/
theorem charging_served (call : Call β) (remaining attempt : Nat) (excluded : List String)
    (body : Option β) (live : Live) :
    (charging bodies pool call remaining attempt excluded body live).1 =
      attempts bodies pool call remaining attempt excluded body live := by
  induction remaining generalizing attempt excluded body live with
  | zero => rfl
  | succ remaining ih =>
      unfold charging attempts
      generalize pool.candidates live (call.clock.instant (4 * attempt)) excluded call.sticky = found
      obtain ⟨list, chosen⟩ := found
      cases list with
      | nil => rfl
      | cons binding others =>
          dsimp only
          cases given : if replayable bodies call.request = true then some bodies.empty else body with
          | none => rfl
          | some taken =>
              cases call.outcomes attempt with
              | ok response =>
                  dsimp only
                  generalize (if (failedStatus response.status && replayable bodies call.request) = true
                    then _ else (false, _) : Bool × Live) = look
                  obtain ⟨more, later⟩ := look
                  cases more with
                  | true => simp only [if_true, ih]
                  | false => rfl
              | error error =>
                  dsimp only
                  split
                  · rfl
                  · simp only [ih]

end Charging

section Selection

variable {pool : Upstreams} {live : Live} {list : List Binding}

/-- The index that balancing by weight picks is in the list. -/
theorem pick_listed (weighted : pool.config.strategy = .weightedRoundRobin)
    (distinct : (list.map Binding.id).Nodup) (nonempty : list ≠ []) :
    ∃ binding, list[(pool.pick live list).1]? = some binding := by
  have loop := Round.loop list distinct 0 (live.opening list)
  have index : (pool.pick live list).1 = (list.zipIdx.foldl
      (fun round entry => round.add entry.1 entry.2) (live.opening list)).best := by
    simp only [Upstreams.pick, weighted]
    rfl
  rw [index]
  rcases loop.best with ⟨first, _⟩ | ⟨index, binding, found, place, _⟩
  · rw [first]
    obtain ⟨binding, rest, rfl⟩ := List.exists_cons_of_ne_nil nonempty
    exact ⟨binding, rfl⟩
  · rw [place, Nat.zero_add]
    exact ⟨binding, found⟩

theorem pick_accounts (live : Live) (list : List Binding) :
    (pool.pick live list).2.requests = live.requests ∧
    (pool.pick live list).2.cursor =
      if pool.config.strategy = .weightedRoundRobin then live.cursor else increment live.cursor := by
  unfold Upstreams.pick
  cases pool.config.strategy <;> exact ⟨rfl, rfl⟩

/-- What a call of `candidates` without a sticky cookie finds, and what it pays. -/
inductive Selected (pool : Upstreams) (live : Live) (now : Nat) (excluded : List String) : Prop where
  | nobody (found : pool.candidates live now excluded none = ([], live))
      (free : pool.charge live now excluded none = none)
      (unusable : ∀ binding ∈ pool.bindings, pool.usable live now excluded binding = false)
  | somebody (binding : Binding) (others : List Binding) (next : Live)
      (found : pool.candidates live now excluded none = (binding :: others, next))
      (member : binding ∈ pool.bindings)
      (usable : pool.usable live now excluded binding = true)
      (charged : (pool.charge live now excluded none).toList =
        if pool.config.strategy = .weightedRoundRobin then [binding.id] else [])
      (cursor : next.cursor =
        if pool.config.strategy = .weightedRoundRobin then live.cursor else increment live.cursor)
      (requests : next.requests = live.requests)
      (health : next.health = live.health)

theorem candidates_selected (mode : pool.config.mode = .balance) (live : Live) (now : Nat)
    (excluded : List String) : Selected pool live now excluded := by
  obtain ⟨members, empty, health⟩ := candidates_spec pool live now excluded none
  by_cases none : pool.bindings.filter (pool.usable live now excluded) = []
  · refine .nobody ?_ ?_ ?_
    · simp [Upstreams.candidates, none]
    · simp [Upstreams.charge, none]
    · simpa using none
  · generalize eligible : pool.bindings.filter (pool.usable live now excluded) = list at none
    have distinct : (list.map Binding.id).Nodup :=
      pool.distinct.sublist ((eligible ▸ List.filter_sublist).map Binding.id)
    obtain ⟨requests, cursor⟩ := @pick_accounts pool live list
    have called := candidates_pick mode eligible none
    rw [called] at members health
    cases shape : swapFront list (pool.pick live list).1 with
    | nil => exact absurd (swapFront_eq_nil.mp shape) none
    | cons binding others =>
        rw [shape] at called members
        obtain ⟨member, usable⟩ := members binding List.mem_cons_self
        refine .somebody binding others _ called member usable ?_ cursor requests health
        unfold Upstreams.charge
        simp only [eligible, mode]
        split
        · rename_i skipped
          rw [if_neg]
          · rfl
          · simpa [none] using skipped
        · rename_i weighted
          simp only [bne_self_eq_false, Bool.or_false, Bool.or_eq_true, List.isEmpty_iff, none,
            false_or, bne_iff_ne, ne_eq, not_not] at weighted
          obtain ⟨first, found⟩ := @pick_listed pool live list weighted distinct none
          have head := swapFront_head? found
          rw [shape, List.head?_cons] at head
          cases head
          simp [found, weighted]

end Selection

/-- The cursor and the counters of requests stay. -/
structure Unpaid (before after : Live) : Prop where
  cursor : after.cursor = before.cursor
  requests : after.requests = before.requests

theorem Unpaid.release {before after} (unpaid : Unpaid before after) (id : String) :
    Unpaid before (after.release id) := ⟨unpaid.cursor, unpaid.requests⟩

theorem outcome_unpaid (pool : Upstreams) (live : Live) (id : String) (success : Bool)
    (status : Option Nat) (latency : Nat) (probe : Bool) (reason : Option String) (now : Nat)
    (wall : Int) : Unpaid live (pool.outcome live id success status latency probe reason now wall) := by
  cases success <;> exact ⟨rfl, rfl⟩

theorem settle_unpaid (pool : Upstreams) (live : Live) (id : String) (status latency now : Nat)
    (wall : Int) : Unpaid live (settle pool live id status latency now wall) := by
  unfold settle
  dsimp only
  split
  · exact ⟨rfl, rfl⟩
  · exact outcome_unpaid ..

/-- What a call did with the state: bindings are charged in the order of the requests,
    the cursor advances with each of them, and each is counted. -/
structure Accounts {β : Type} (pool : Upstreams) (live : Live) (served : Served β)
    (charged : List String) : Prop where
  charged : charged =
    if pool.config.strategy = .weightedRoundRobin then served.sent.map Prod.fst else []
  cursor : served.live.cursor =
    if pool.config.strategy = .weightedRoundRobin then live.cursor
    else increment^[served.sent.length] live.cursor
  requests : ∀ id, served.live.requests id =
    increment^[(served.sent.map Prod.fst).count id] (live.requests id)

section Accounts

variable {β : Type} {pool : Upstreams} {live chosen next : Live} {binding : Binding}
  {sent : String × Request β}

theorem Accounts.none (reply : Reply β) : Accounts pool live ⟨reply, [], live⟩ [] := by
  refine ⟨?_, ?_, fun id => rfl⟩
  · split <;> rfl
  · split <;> rfl

/-- One request after the call selected and before it goes on. -/
theorem Accounts.prepend {served charged} (cursor : chosen.cursor =
      if pool.config.strategy = .weightedRoundRobin then live.cursor else increment live.cursor)
    (requests : chosen.requests = live.requests) (unpaid : Unpaid (chosen.start binding.id) next)
    (target : sent.1 = binding.id) (accounts : Accounts pool next served charged) :
    Accounts pool live (served.prepend sent)
      ((if pool.config.strategy = .weightedRoundRobin then [binding.id] else []) ++ charged) := by
  refine ⟨?_, ?_, fun id => ?_⟩
  · rw [accounts.charged]
    split <;> simp [Served.prepend, target]
  · have paid : next.cursor = chosen.cursor := unpaid.cursor
    change served.live.cursor = _
    rw [accounts.cursor, paid, cursor]
    split
    · rfl
    · rfl
  · have counted : next.requests = Function.update chosen.requests binding.id
        (increment (chosen.requests binding.id)) := unpaid.requests
    change served.live.requests id = _
    rw [accounts.requests, counted, requests]
    by_cases same : id = binding.id
    · subst same
      simp [Served.prepend, target]
    · have other : (binding.id == id) = false := by simpa using Ne.symm same
      simp [Served.prepend, target, same, List.count_cons, other]

theorem Accounts.once (reply : Reply β)
    (cursor : chosen.cursor =
      if pool.config.strategy = .weightedRoundRobin then live.cursor else increment live.cursor)
    (requests : chosen.requests = live.requests) (unpaid : Unpaid (chosen.start binding.id) next)
    (target : sent.1 = binding.id) :
    Accounts pool live ⟨reply, [sent], next⟩
      (if pool.config.strategy = .weightedRoundRobin then [binding.id] else []) := by
  have accounts := Accounts.prepend cursor requests unpaid target (Accounts.none reply)
  rwa [List.append_nil] at accounts

end Accounts

section Quiet

variable {β : Type} {bodies : Bodies β} {pool : Upstreams} {call : Call β}

/-- Nobody is left for a look-ahead: when the upstreams before the last one could not
    answer and the last one answers a request that may be replayed with 502, 503 or 504,
    at most as many bindings are usable as were asked. -/
def Quiet (bodies : Bodies β) (pool : Upstreams) (call : Call β) (live : Live) : Prop :=
  replayable bodies call.request = true → ∀ k < budget pool,
    (∀ j < k, ∃ error, call.outcomes j = .error error) →
    ∀ response, call.outcomes k = .ok response → failedStatus response.status = true →
      (pool.bindings.filter (pool.usable live (call.clock.instant (4 * k + 3)) [])).length ≤ k + 1

/-- What the loop knows at an instant, if no binding is asked again. -/
structure Progress (pool : Upstreams) (start : Live) (now attempt : Nat) (excluded : List String)
    (live : Live) : Prop where
  health : ∀ id ∉ excluded, live.health id = start.health id
  distinct : excluded.Nodup
  counted : excluded.length = attempt
  usable : ∀ id ∈ excluded, ∃ binding ∈ pool.bindings, binding.id = id ∧
    pool.usable start now [] binding = true

/-- Usable bindings are usable for a call that has tried none. -/
theorem usable_start {start live : Live} {now later excluded binding}
    (health : ∀ id ∉ excluded, live.health id = start.health id) (order : now ≤ later)
    (usable : pool.usable live now excluded binding = true) :
    pool.usable start later [] binding = true := by
  obtain ⟨enabled, fresh, ready⟩ := usable_iff.mp usable
  refine @usable_later pool start start now later [] binding rfl order (usable_iff.mpr ?_)
  rw [health binding.id fresh] at ready
  exact ⟨enabled, List.not_mem_nil, ready⟩

theorem Progress.next {start live} {next : Live} {now later attempt excluded binding}
    (progress : Progress pool start now attempt excluded live) (order : now ≤ later)
    (member : binding ∈ pool.bindings) (usable : pool.usable live now excluded binding = true)
    (same : ∀ id, id ≠ binding.id → next.health id = live.health id) :
    Progress pool start later (attempt + 1) (binding.id :: excluded) next := by
  have fresh := (usable_iff.mp usable).2.1
  refine ⟨?_, List.nodup_cons.mpr ⟨fresh, progress.distinct⟩, ?_, ?_⟩
  · intro id missing
    rw [List.mem_cons, not_or] at missing
    rw [same id missing.1, progress.health id missing.2]
  · rw [List.length_cons, progress.counted]
  · rw [List.forall_mem_cons]
    refine ⟨⟨binding, member, rfl, usable_start progress.health order usable⟩, fun id inside => ?_⟩
    obtain ⟨other, listed, named, ready⟩ := progress.usable id inside
    exact ⟨other, listed, named, usable_later rfl order ready⟩

/-- If no more bindings are usable than were tried, a look-ahead finds nobody. -/
theorem Progress.alone {start live now attempt excluded}
    (progress : Progress pool start now attempt excluded live)
    (few : (pool.bindings.filter (pool.usable start now [])).length ≤ attempt) :
    ∀ other ∈ pool.bindings, pool.usable live now excluded other = false := by
  intro other member
  by_contra ready
  rw [Bool.not_eq_false] at ready
  have fresh := (usable_iff.mp ready).2.1
  have longer : (other.id :: excluded).Nodup := List.nodup_cons.mpr ⟨fresh, progress.distinct⟩
  have inside : other.id :: excluded ⊆
      (pool.bindings.filter (pool.usable start now [])).map Binding.id := by
    refine List.cons_subset.mpr ⟨?_, fun id tried => ?_⟩
    · exact List.mem_map.mpr ⟨other, List.mem_filter.mpr
        ⟨member, usable_start progress.health le_rfl ready⟩, rfl⟩
    · obtain ⟨binding, listed, named, usable⟩ := progress.usable id tried
      exact List.mem_map.mpr ⟨binding, List.mem_filter.mpr ⟨listed, usable⟩, named⟩
  have bound := (longer.subperm inside).length_le
  rw [List.length_cons, List.length_map, progress.counted] at bound
  omega

/-- The only binding of a passive route has no alternative. -/
theorem passive_alone (passive : pool.passiveSingle = true) {binding}
    (listed : binding ∈ pool.bindings) (enabled : binding.enabled = true) {excluded}
    (tried : binding.id ∈ excluded) (live : Live) (now : Nat) :
    ∀ other ∈ pool.bindings, pool.usable live now excluded other = false := by
  intro other member
  by_contra ready
  rw [Bool.not_eq_false] at ready
  obtain ⟨also, fresh, _⟩ := usable_iff.mp ready
  have single := passiveSingle_count passive
  have room := @untried_count pool [binding.id] other.id (List.nodup_singleton _)
    (List.cons_subset.mpr ⟨mem_enabledIds listed enabled, List.nil_subset _⟩)
    (mem_enabledIds member also) (by
      rw [List.mem_singleton]
      intro same
      exact fresh (same ▸ tried))
  rw [single] at room
  simp at room

/-- In a quiet call every charge is for a request. -/
theorem charging_accounts (mode : pool.config.mode = .balance) (unsticky : call.sticky = none)
    {start} (quiet : Quiet bodies pool call start) {remaining attempt}
    (budgeted : attempt + remaining = budget pool)
    (failures : ∀ j < attempt, ∃ error, call.outcomes j = .error error) {excluded live}
    (progress : pool.passiveSingle = false →
      Progress pool start (call.clock.instant (4 * attempt)) attempt excluded live) {body}
    (bodied : body = none → replayable bodies call.request = true) :
    Accounts pool live (charging bodies pool call remaining attempt excluded body live).1
      (charging bodies pool call remaining attempt excluded body live).2 := by
  induction remaining generalizing attempt excluded live body with
  | zero => exact .none _
  | succ remaining ih =>
      unfold charging
      rw [unsticky]
      cases candidates_selected mode live (call.clock.instant (4 * attempt)) excluded with
      | nobody found free _ =>
          rw [found, free]
          exact .none _
      | somebody binding others chosen found member usable charged cursor requests health =>
          rw [found, charged]
          dsimp only
          have started : (chosen.start binding.id).health = live.health := health
          cases given : if replayable bodies call.request = true then some bodies.empty else body with
          | none =>
              split at given
              · cases given
              · exact absurd (bodied given) ‹_›
          | some taken =>
              cases answer : call.outcomes attempt with
              | ok response =>
                  dsimp only
                  have unpaid := settle_unpaid pool (chosen.start binding.id) binding.id response.status
                    ((call.clock.instant (4 * attempt + 2) - call.clock.instant (4 * attempt + 1)) /
                      1000000) (call.clock.instant (4 * attempt + 2)) (call.clock.wall attempt)
                  have settled : ∀ id, id ≠ binding.id → (settle pool (chosen.start binding.id) binding.id
                      response.status ((call.clock.instant (4 * attempt + 2) -
                        call.clock.instant (4 * attempt + 1)) / 1000000)
                      (call.clock.instant (4 * attempt + 2)) (call.clock.wall attempt)).health id =
                      live.health id := by
                    intro id different
                    rw [settle_health different, started]
                  generalize settle pool (chosen.start binding.id) binding.id response.status _ _ _ =
                    after at unpaid settled
                  cases retry : failedStatus response.status && replayable bodies call.request with
                  | false =>
                      simp only [Bool.false_eq_true, if_false, List.append_nil]
                      exact .once _ cursor requests unpaid rfl
                  | true =>
                      obtain ⟨failed, replay⟩ := Bool.and_eq_true_iff.mp retry
                      have few := quiet replay attempt (by omega) failures response answer failed
                      have alone : ∀ other ∈ pool.bindings, pool.usable after
                          (call.clock.instant (4 * attempt + 3)) (binding.id :: excluded) other = false := by
                        cases passive : pool.passiveSingle with
                        | true =>
                            exact passive_alone passive member (usable_iff.mp usable).1
                              List.mem_cons_self after _
                        | false =>
                            exact ((progress passive).next (call.clock.monotone (by omega)) member usable
                              settled).alone few
                      cases candidates_selected mode after (call.clock.instant (4 * attempt + 3))
                          (binding.id :: excluded) with
                      | nobody found free _ =>
                          rw [found, free]
                          simp only [if_true, Option.toList_none, List.append_nil]
                          exact .once _ cursor requests unpaid rfl
                      | somebody other _ _ _ inside ready =>
                          rw [alone other inside] at ready
                          cases ready
              | error error =>
                  have unpaid := (outcome_unpaid pool (chosen.start binding.id) binding.id false none
                    ((call.clock.instant (4 * attempt + 2) - call.clock.instant (4 * attempt + 1)) /
                      1000000) false (some error.reason) (call.clock.instant (4 * attempt + 2))
                    (call.clock.wall attempt)).release binding.id
                  cases replay : replayable bodies call.request with
                  | false => exact .once _ cursor requests unpaid rfl
                  | true =>
                      simp only [Bool.not_true, Bool.false_eq_true, if_false]
                      refine .prepend cursor requests unpaid rfl
                        (@ih (attempt + 1) (by omega) ?_ _ _ ?_ _ fun _ => replay)
                      · intro j before
                        rcases Nat.lt_succ_iff_lt_or_eq.mp before with earlier | rfl
                        · exact failures j earlier
                        · exact ⟨error, answer⟩
                      · intro active
                        rw [active]
                        refine (progress active).next (call.clock.monotone (by omega)) member usable
                          fun id different => ?_
                        rw [release_health, outcome_health different, started]

end Quiet

/-- The inputs of one call of `forwardWithSecurity`. -/
structure Visit (β : Type) where
  gate : Option (Request β → Except (Response β) (Request β))
  request : Request β
  secure : Bool
  clock : Clock
  outcomes : Nat → Except ForwardError (Response β)

/-- The state after some calls, with the bindings charged and the requests sent so far. -/
structure Tally where
  live : Live
  charged : List String
  sent : List String

section Visits

variable {β : Type} (bodies : Bodies β) (pool : Upstreams)

/-- The call of a request that passed the gate. -/
def Visit.call (visit : Visit β) (request : Request β) : Call β :=
  ⟨request, visit.secure,
    if pool.config.stickySessions then stickyCookie request.headers pool.cookieName else none,
    visit.clock, visit.outcomes⟩

/-- `forwardWithSecurity` with its charges. -/
def Visit.forward (visit : Visit β) (live : Live) : Served β × List String :=
  match authorize visit.gate visit.request with
  | .error response => (⟨.response response, [], live⟩, [])
  | .ok request =>
      charging bodies pool (visit.call pool request) (budget pool) 0 [] (some request.body) live

theorem Visit.forward_served (visit : Visit β) (live : Live) :
    (visit.forward bodies pool live).1 = forwardWithSecurity bodies pool visit.gate visit.request
      visit.secure visit.clock visit.outcomes live := by
  unfold Visit.forward forwardWithSecurity
  cases authorize visit.gate visit.request with
  | error response => rfl
  | ok request => exact charging_served ..

def Tally.after (tally : Tally) (visit : Visit β) : Tally :=
  let (served, charged) := visit.forward bodies pool tally.live
  ⟨served.live, tally.charged ++ charged, tally.sent ++ served.sent.map Prod.fst⟩

/-- The request carries no sticky cookie, and no look-ahead of its call finds anybody. -/
def Visit.IsQuiet (visit : Visit β) (live : Live) : Prop :=
  ∀ request, authorize visit.gate visit.request = .ok request →
    (visit.call pool request).sticky = none ∧ Quiet bodies pool (visit.call pool request) live

/-- A call without a sticky cookie whose look-aheads find nobody. -/
def quietVisit (tally : Tally) (visit : Visit β) (next : Tally) : Prop :=
  visit.IsQuiet bodies pool tally.live ∧ next = tally.after bodies pool visit

variable {bodies pool}

theorem forward_accounts (mode : pool.config.mode = .balance) {visit : Visit β} {live}
    (quiet : visit.IsQuiet bodies pool live) :
    Accounts pool live (visit.forward bodies pool live).1 (visit.forward bodies pool live).2 := by
  unfold Visit.forward
  cases passed : authorize visit.gate visit.request with
  | error response => exact .none _
  | ok request =>
      obtain ⟨unsticky, quiet⟩ := quiet request passed
      refine charging_accounts mode unsticky quiet (Nat.zero_add _) ?_ ?_ ?_
      · intro j before
        exact absurd before (Nat.not_lt_zero j)
      · intro _
        exact ⟨fun _ _ => rfl, List.nodup_nil, rfl, fun _ tried => absurd tried List.not_mem_nil⟩
      · nofun

theorem iterate_increment (n : Nat) : increment^[n] 0 = n % 2 ^ 64 := by
  induction n with
  | zero => rfl
  | succ n ih =>
      rw [Function.iterate_succ_apply', ih, increment]
      omega

/-- The counters tell what was sent, and so do the charges. -/
structure Tally.Settled (pool : Upstreams) (tally : Tally) : Prop where
  charged : tally.charged = if pool.config.strategy = .weightedRoundRobin then tally.sent else []
  cursor : tally.live.cursor =
    if pool.config.strategy = .weightedRoundRobin then 0 else increment^[tally.sent.length] 0
  requests : ∀ id, tally.live.requests id = increment^[tally.sent.count id] 0

theorem quietVisit_settled (mode : pool.config.mode = .balance) {tally : Tally} {next visit}
    (settled : tally.Settled pool) (step : quietVisit bodies pool tally visit next) :
    next.Settled pool := by
  obtain ⟨quiet, rfl⟩ := step
  have accounts := forward_accounts mode quiet
  refine ⟨?_, ?_, fun id => ?_⟩
  · simp only [Tally.after, settled.charged, accounts.charged]
    split <;> rfl
  · simp only [Tally.after, settled.cursor, accounts.cursor]
    split
    · rfl
    · rw [← Function.iterate_add_apply, List.length_append, List.length_map, Nat.add_comm]
  · simp only [Tally.after, settled.requests, accounts.requests]
    rw [← Function.iterate_add_apply, List.count_append, Nat.add_comm]

/-- In every run of quiet calls from counters at zero, weighted balancing charged each
    binding as often as its requests were counted, and the other strategies advanced the
    cursor once for each request. -/
theorem charges_are_for_requests (mode : pool.config.mode = .balance) {origin : Live}
    (uncounted : ∀ id, origin.requests id = 0) (unmoved : origin.cursor = 0)
    {history : List (Visit β)} {tally : Tally}
    (run : Runs.Run (quietVisit bodies pool) ⟨origin, [], []⟩ history tally) :
    (∀ id, tally.live.requests id = tally.sent.count id % 2 ^ 64) ∧
    (pool.config.strategy = .weightedRoundRobin →
      ∀ id, tally.charged.count id % 2 ^ 64 = tally.live.requests id) ∧
    (pool.config.strategy ≠ .weightedRoundRobin →
      tally.live.cursor = tally.sent.length % 2 ^ 64) := by
  have initial : Tally.Settled pool ⟨origin, [], []⟩ := by
    refine ⟨?_, ?_, uncounted⟩
    · split <;> rfl
    · split <;> exact unmoved
  have settled : tally.Settled pool :=
    @Runs.Run.historyInvariant _ _ _ _ (fun _ tally => tally.Settled pool) initial
      (fun _ _ _ _ _ settled step => quietVisit_settled mode settled step) _ _ run
  refine ⟨fun id => ?_, fun weighted id => ?_, fun other => ?_⟩
  · rw [settled.requests, iterate_increment]
  · rw [settled.charged, if_pos weighted, settled.requests, iterate_increment]
  · rw [settled.cursor, if_neg other, iterate_increment]

/-- A request that may be replayed, with the status of each answer. -/
def sampleVisit (status : Nat → Nat) : Visit String :=
  ⟨none, ⟨.get, "/", [], ""⟩, false, .stopped, fun attempt => .ok ⟨status attempt, [], ""⟩⟩

/-- A request that is answered with 200 is charged once. -/
theorem answered_visit_is_charged_once :
    let tally := Tally.after textBodies weightedPool ⟨.fresh, [], []⟩ (sampleVisit fun _ => 200)
    tally.sent = ["large"] ∧ ∀ id, tally.charged.count id % 2 ^ 64 = tally.live.requests id := by
  intro tally
  have quiet : (sampleVisit fun _ => 200).IsQuiet textBodies weightedPool .fresh := by
    rintro request passed
    refine ⟨rfl, fun _ _ _ _ response answered failed => ?_⟩
    cases answered
    cases failed
  have run : Runs.Run (quietVisit textBodies weightedPool) ⟨.fresh, [], []⟩
      [sampleVisit fun _ => 200] tally := .single ⟨quiet, rfl⟩
  exact ⟨by decide, (charges_are_for_requests rfl (fun _ => rfl) rfl run).2.1 rfl⟩

/-- The pool that balances by turns without weights. -/
def robinPool : Upstreams :=
  { weightedPool with config := { weightedPool.config with strategy := .roundRobin } }

/-- The first answer is 502: the binding that answers then is charged for its request and
    for the look-ahead, and the cursor advances three times for two requests. -/
theorem lookahead_is_charged :
    let visit := sampleVisit fun attempt => if attempt = 0 then 502 else 200
    let weighted := Tally.after textBodies weightedPool ⟨.fresh, [], []⟩ visit
    let robin := Tally.after textBodies robinPool ⟨.fresh, [], []⟩ visit
    (weighted.charged.count "small" = 2 ∧ weighted.live.requests "small" = 1) ∧
      robin.live.cursor = 3 ∧ robin.sent.length = 2 := by
  decide

end Visits

end PortHub.Runtime
