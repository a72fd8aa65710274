import Mathlib.Data.List.Perm.Subperm
import PortHub.Runtime.Upstreams

/-! # What one forwarded request does

Candidates are enabled bindings that were not tried, and looking for them does not
change their health. From this the attempts of one call are bounded, and what the
last upstream answered is returned, as long as the budget does not end before the
candidates do.
-/

namespace PortHub.Runtime

section Selection

variable {pool : Upstreams}

theorem mem_swapFront {α : Type} {list : List α} {pick : Nat} {item : α}
    (member : item ∈ swapFront list pick) : item ∈ list := by
  unfold swapFront at member
  split at member
  · rename_i first chosen head found
    rcases List.mem_or_eq_of_mem_set member with inner | rfl
    · rcases List.mem_or_eq_of_mem_set inner with kept | rfl
      · exact kept
      · exact List.mem_of_getElem? head
    · exact List.mem_of_getElem? found
  · exact member

theorem swapFront_eq_nil {α : Type} {list : List α} {pick : Nat} :
    swapFront list pick = [] ↔ list = [] := by
  unfold swapFront
  split <;> simp

theorem pick_health (live : Live) (list : List Binding) :
    (pool.pick live list).2.health = live.health := by
  unfold Upstreams.pick
  split <;> rfl

/-- The candidates are among the usable bindings, there are some when one is
    usable, and nobody's health changes. -/
theorem candidates_spec (pool : Upstreams) (live : Live) (now : Nat) (excluded : List String)
    (sticky : Option String) :
    (∀ binding ∈ (pool.candidates live now excluded sticky).1,
      binding ∈ pool.bindings ∧ pool.usable live now excluded binding = true) ∧
    ((pool.candidates live now excluded sticky).1 = [] ↔
      ∀ binding ∈ pool.bindings, pool.usable live now excluded binding = false) ∧
    (pool.candidates live now excluded sticky).2.health = live.health := by
  have none : pool.bindings.filter (pool.usable live now excluded) = [] ↔
      ∀ binding ∈ pool.bindings, pool.usable live now excluded binding = false := by
    simp only [List.filter_eq_nil_iff, Bool.not_eq_true]
  have each : ∀ binding ∈ pool.bindings.filter (pool.usable live now excluded),
      binding ∈ pool.bindings ∧ pool.usable live now excluded binding = true :=
    fun _ => List.mem_filter.mp
  simp only [Upstreams.candidates]
  split
  · exact ⟨each, none, rfl⟩
  · cases pool.config.mode with
    | priority =>
        cases pool.config.priorityPolicy with
        | manual => exact ⟨each, none, rfl⟩
        | health =>
            refine ⟨fun binding member => each binding (List.mem_mergeSort.mp member), ?_, rfl⟩
            rw [← List.length_eq_zero_iff, List.length_mergeSort, List.length_eq_zero_iff, none]
    | balance =>
        dsimp only
        split
        · refine ⟨fun binding member => each binding (mem_swapFront member), ?_, rfl⟩
          rw [swapFront_eq_nil, none]
        · refine ⟨fun binding member => each binding (mem_swapFront member), ?_, pick_health _ _⟩
          rw [swapFront_eq_nil, none]

/-- A usable binding is enabled and was not tried. -/
theorem usable_iff {live now excluded binding} :
    pool.usable live now excluded binding = true ↔
      binding.enabled = true ∧ binding.id ∉ excluded ∧
      (pool.passiveSingle = true ∨ (live.health binding.id).down = false ∨
        (pool.config.health.enabled = false ∧ (live.health binding.id).retryAt ≤ now)) := by
  simp only [Upstreams.usable, Bool.and_eq_true, Bool.not_eq_true', List.contains_eq_mem,
    decide_eq_false_iff_not, Bool.or_eq_true, decide_eq_true_eq]
  tauto

/-- Time passing does not take a candidate away. -/
theorem usable_later {before after : Live} {now later excluded binding}
    (same : after.health = before.health) (order : now ≤ later)
    (usable : pool.usable before now excluded binding = true) :
    pool.usable after later excluded binding = true := by
  rw [usable_iff] at usable ⊢
  rw [same]
  obtain ⟨enabled, fresh, passive | up | ⟨unprobed, due⟩⟩ := usable
  · exact ⟨enabled, fresh, .inl passive⟩
  · exact ⟨enabled, fresh, .inr (.inl up)⟩
  · exact ⟨enabled, fresh, .inr (.inr ⟨unprobed, due.trans order⟩)⟩

/-- The ids of bindings that may be tried. -/
def Upstreams.enabledIds (pool : Upstreams) : List String :=
  (pool.bindings.filter Binding.enabled).map Binding.id

theorem enabledIds_length (pool : Upstreams) : pool.enabledIds.length = pool.enabledCount := by
  rw [Upstreams.enabledIds, List.length_map, Upstreams.enabledCount]

theorem enabledIds_nodup (pool : Upstreams) : pool.enabledIds.Nodup :=
  pool.distinct.sublist (List.filter_sublist.map Binding.id)

theorem mem_enabledIds {binding} (member : binding ∈ pool.bindings)
    (enabled : binding.enabled = true) : binding.id ∈ pool.enabledIds :=
  List.mem_map.mpr ⟨binding, List.mem_filter.mpr ⟨member, enabled⟩, rfl⟩

theorem passiveSingle_count (single : pool.passiveSingle = true) : pool.enabledCount = 1 := by
  simp only [Upstreams.passiveSingle, Bool.and_eq_true, beq_iff_eq, List.length_take] at single
  unfold Upstreams.enabledCount
  omega

/-- Bindings that were tried leave room for one that was not. -/
theorem untried_count {excluded : List String} {id} (distinct : excluded.Nodup)
    (tried : excluded ⊆ pool.enabledIds) (other : id ∈ pool.enabledIds) (fresh : id ∉ excluded) :
    excluded.length < pool.enabledCount := by
  have longer : (id :: excluded).Nodup := List.nodup_cons.mpr ⟨fresh, distinct⟩
  have inside : id :: excluded ⊆ pool.enabledIds := List.cons_subset.mpr ⟨other, tried⟩
  have bound := (longer.subperm inside).length_le
  rw [enabledIds_length, List.length_cons] at bound
  omega

theorem exists_untried {excluded : List String} (few : excluded.length < pool.enabledCount) :
    ∃ binding ∈ pool.bindings, binding.enabled = true ∧ binding.id ∉ excluded := by
  by_contra all
  push Not at all
  have inside : pool.enabledIds ⊆ excluded := by
    intro id member
    obtain ⟨binding, inside, rfl⟩ := List.mem_map.mp member
    obtain ⟨member, enabled⟩ := List.mem_filter.mp inside
    exact all binding member enabled
  have bound := ((enabledIds_nodup pool).subperm inside).length_le
  rw [enabledIds_length] at bound
  omega

end Selection

section Health

variable {pool : Upstreams} {live : Live} {id other : String} {now : Nat}

theorem usable_congr {before after : Live} {excluded} {binding : Binding}
    (same : after.health binding.id = before.health binding.id) :
    pool.usable after now excluded binding = pool.usable before now excluded binding := by
  simp only [Upstreams.usable, same]

theorem release_health (live : Live) (id : String) : (live.release id).health = live.health := rfl

theorem outcome_health (different : other ≠ id) {success probe status latency reason wall} :
    (pool.outcome live id success status latency probe reason now wall).health other =
      live.health other := by
  simp only [Upstreams.outcome]
  split
  · exact Function.update_of_ne different _ _
  · exact Function.update_of_ne different _ _

theorem settle_health (different : other ≠ id) {status latency wall} :
    (settle pool live id status latency now wall).health other = live.health other := by
  simp only [settle]
  split
  · exact Function.update_of_ne different _ _
  · exact outcome_health different

end Health

section Loop

variable {β : Type} {bodies : Bodies β} {pool : Upstreams} {call : Call β} {remaining attempt : Nat}
  {excluded : List String} {body : Option β} {live : Live} {binding : Binding}

/-- One attempt got a response that is returned. -/
structure Answered (bodies : Bodies β) (pool : Upstreams) (call : Call β) (attempt : Nat)
    (excluded : List String) (live : Live) (binding : Binding) (served : Served β) : Prop where
  reply : ∃ response, call.outcomes attempt = .ok response ∧
    served.reply = .response (returned pool call.secure binding.id response) ∧
    (failedStatus response.status = true → replayable bodies call.request = true →
      ∀ other ∈ pool.bindings, pool.usable live (call.clock.instant (4 * attempt + 3))
        (binding.id :: excluded) other = false)
  sent : ∃ request, served.sent = [(binding.id, request)]

/-- One attempt failed, and the call goes on with what it leaves. -/
structure Continued (bodies : Bodies β) (pool : Upstreams) (call : Call β)
    (remaining attempt : Nat) (excluded : List String) (body : Option β) (live : Live)
    (binding : Binding) (kept : List String) (next : Live) (served : Served β) : Prop where
  replay : replayable bodies call.request = true
  health : ∀ id, id ≠ binding.id → next.health id = live.health id
  rest : ∃ request, served =
    (attempts bodies pool call remaining (attempt + 1) kept body next).prepend (binding.id, request)
  reason :
    (kept = binding.id :: excluded ∧ ∃ response, call.outcomes attempt = .ok response ∧
      failedStatus response.status = true ∧
      ∃ other ∈ pool.bindings, pool.usable live (call.clock.instant (4 * attempt + 3))
        (binding.id :: excluded) other = true) ∨
    (∃ error, call.outcomes attempt = .error error ∧
      ((pool.passiveSingle = true ∧ error = .transport ∧
          kept = (binding.id :: excluded).filter (· != binding.id)) ∨
        kept = binding.id :: excluded))

/-- Everything that one attempt can do. -/
inductive Attempt (bodies : Bodies β) (pool : Upstreams) (call : Call β) (remaining attempt : Nat)
    (excluded : List String) (body : Option β) (live : Live) (served : Served β) : Prop where
  | exhausted (sent : served.sent = []) (reply : served.reply = .response (unavailable bodies))
      (nobody : ∀ binding ∈ pool.bindings,
        pool.usable live (call.clock.instant (4 * attempt)) excluded binding = false)
  | bodyless (replay : replayable bodies call.request = false) (missing : body = none)
      (sent : served.sent = [])
  | answered (binding : Binding) (member : binding ∈ pool.bindings)
      (usable : pool.usable live (call.clock.instant (4 * attempt)) excluded binding = true)
      (answered : Answered bodies pool call attempt excluded live binding served)
  | refused (binding : Binding) (member : binding ∈ pool.bindings)
      (usable : pool.usable live (call.clock.instant (4 * attempt)) excluded binding = true)
      (error : ForwardError) (outcome : call.outcomes attempt = .error error)
      (reply : served.reply = .response (unavailable bodies))
      (request : Request β) (sent : served.sent = [(binding.id, request)])
  | continued (binding : Binding) (member : binding ∈ pool.bindings)
      (usable : pool.usable live (call.clock.instant (4 * attempt)) excluded binding = true)
      (kept : List String) (next : Live)
      (continued : Continued bodies pool call remaining attempt excluded body live binding kept next
        served)

theorem attempts_cases (bodies : Bodies β) (pool : Upstreams) (call : Call β)
    (remaining attempt : Nat) (excluded : List String) (body : Option β) (live : Live) : Attempt bodies pool call remaining attempt excluded body live
      (attempts bodies pool call (remaining + 1) attempt excluded body live) := by
  generalize result :
    attempts bodies pool call (remaining + 1) attempt excluded body live = served
  obtain ⟨members, empty, health⟩ :=
    candidates_spec pool live (call.clock.instant (4 * attempt)) excluded call.sticky
  unfold attempts at result
  generalize pool.candidates live (call.clock.instant (4 * attempt)) excluded call.sticky = found
    at members empty health result
  obtain ⟨list, chosen⟩ := found
  cases list with
  | nil =>
      subst result
      exact .exhausted rfl rfl (empty.mp rfl)
  | cons binding others =>
      obtain ⟨member, usable⟩ := members binding List.mem_cons_self
      dsimp only at health result
      split at result
      · rename_i missing
        subst result
        cases replay : replayable bodies call.request with
        | true =>
            rw [replay] at missing
            cases missing
        | false =>
            rw [replay] at missing
            exact .bodyless replay missing rfl
      · rename_i taken given
        have started : (chosen.start binding.id).health = live.health := health
        cases answer : call.outcomes attempt with
        | ok response =>
            rw [answer] at result
            dsimp only at result
            have settled : ∀ id, id ≠ binding.id → (settle pool (chosen.start binding.id) binding.id
                response.status ((call.clock.instant (4 * attempt + 2) -
                  call.clock.instant (4 * attempt + 1)) / 1000000)
                (call.clock.instant (4 * attempt + 2)) (call.clock.wall attempt)).health id =
                live.health id := by
              intro id different
              rw [settle_health different, started]
            generalize settle pool (chosen.start binding.id) binding.id response.status _ _ _ = after
              at settled result
            cases retry : failedStatus response.status && replayable bodies call.request with
            | false =>
                rw [retry] at result
                subst result
                refine .answered binding member usable ⟨⟨response, answer, rfl, ?_⟩, ⟨_, rfl⟩⟩
                intro failed replay
                rw [failed, replay] at retry
                cases retry
            | true =>
                rw [retry] at result
                obtain ⟨failed, replay⟩ := Bool.and_eq_true_iff.mp retry
                -- the look-ahead reads the health of bindings that this attempt left alone
                obtain ⟨_, nobody, unchanged⟩ := candidates_spec pool after
                  (call.clock.instant (4 * attempt + 3)) (binding.id :: excluded) none
                have view : ∀ other, pool.usable after (call.clock.instant (4 * attempt + 3))
                    (binding.id :: excluded) other =
                    pool.usable live (call.clock.instant (4 * attempt + 3))
                      (binding.id :: excluded) other := by
                  intro other
                  by_cases same : other.id = binding.id
                  · simp [Upstreams.usable, same]
                  · exact usable_congr (settled other.id same)
                generalize pool.candidates after (call.clock.instant (4 * attempt + 3))
                  (binding.id :: excluded) none = look at nobody unchanged result
                obtain ⟨list, later⟩ := look
                cases list with
                | nil =>
                    subst result
                    refine .answered binding member usable
                      ⟨⟨response, answer, rfl, fun _ _ other inside => ?_⟩, ⟨_, rfl⟩⟩
                    rw [← view]
                    exact nobody.mp rfl other inside
                | cons other more =>
                    subst result
                    refine .continued binding member usable (binding.id :: excluded)
                      (later.release binding.id) ⟨replay, ?_, ⟨_, by rw [replay]; rfl⟩,
                        .inl ⟨rfl, response, answer, failed, ?_⟩⟩
                    · intro id different
                      rw [release_health, unchanged, settled id different]
                    · by_contra alone
                      push Not at alone
                      have empty : other :: more = [] := nobody.mpr fun other inside => by
                        rw [view]
                        exact Bool.eq_false_iff.mpr (alone other inside)
                      cases empty
        | error error =>
            rw [answer] at result
            cases replay : replayable bodies call.request with
            | false =>
                rw [replay] at result
                subst result
                exact .refused binding member usable error answer rfl _ rfl
            | true =>
                rw [replay] at result
                subst result
                refine .continued binding member usable _ _
                  ⟨replay, ?_, ⟨_, rfl⟩, .inr ⟨error, answer, ?_⟩⟩
                · intro id different
                  rw [release_health, outcome_health different, started]
                · split
                  · rename_i again
                    simp only [Bool.and_eq_true, beq_iff_eq] at again
                    exact .inl ⟨again.1.1, again.1.2, rfl⟩
                  · exact .inr rfl

/-- A binding that was excluded stays so, whatever an attempt did. -/
theorem Continued.keeps {kept next served}
    (continued : Continued bodies pool call remaining attempt excluded body live binding kept next
      served) (fresh : binding.id ∉ excluded) : excluded ⊆ kept := by
  intro id member
  rcases continued.reason with ⟨rfl, _⟩ | ⟨_, _, ⟨_, _, rfl⟩ | rfl⟩
  · exact List.mem_cons_of_mem _ member
  · refine List.mem_filter.mpr ⟨List.mem_cons_of_mem _ member, bne_iff_ne.mpr ?_⟩
    rintro rfl
    exact fresh member
  · exact List.mem_cons_of_mem _ member

/-- Requests go to enabled bindings that were not tried before. -/
theorem attempts_sent {sent}
    (member : sent ∈ (attempts bodies pool call remaining attempt excluded body live).sent) :
    sent.1 ∈ pool.enabledIds ∧ sent.1 ∉ excluded := by
  induction remaining generalizing attempt excluded live with
  | zero => cases member
  | succ remaining ih =>
      have tried {binding : Binding} (inside : binding ∈ pool.bindings) (usable : pool.usable live
          (call.clock.instant (4 * attempt)) excluded binding = true) :
          binding.id ∈ pool.enabledIds ∧ binding.id ∉ excluded := by
        obtain ⟨enabled, fresh, _⟩ := usable_iff.mp usable
        exact ⟨mem_enabledIds inside enabled, fresh⟩
      cases attempts_cases bodies pool call remaining attempt
          excluded body live with
      | exhausted empty | bodyless _ _ empty =>
          rw [empty] at member
          cases member
      | answered binding inside usable answered =>
          obtain ⟨request, once⟩ := answered.sent
          rw [once] at member
          obtain rfl := List.mem_singleton.mp member
          exact tried inside usable
      | refused binding inside usable _ _ _ _ once =>
          rw [once] at member
          obtain rfl := List.mem_singleton.mp member
          exact tried inside usable
      | continued binding inside usable kept next continued =>
          obtain ⟨known, fresh⟩ := tried inside usable
          obtain ⟨request, rest⟩ := continued.rest
          rw [rest] at member
          rcases List.mem_cons.mp member with rfl | later
          · exact ⟨known, fresh⟩
          · obtain ⟨known, new⟩ := ih later
            exact ⟨known, fun old => new (continued.keeps fresh old)⟩

theorem attempts_length (remaining attempt : Nat) (excluded : List String) (body : Option β)
    (live : Live) :
    (attempts bodies pool call remaining attempt excluded body live).sent.length ≤ remaining := by
  induction remaining generalizing attempt excluded live with
  | zero => exact Nat.le_refl 0
  | succ remaining ih =>
      cases attempts_cases bodies pool call remaining attempt
          excluded body live with
      | exhausted empty | bodyless _ _ empty => simp [empty]
      | answered _ _ _ answered =>
          obtain ⟨_, once⟩ := answered.sent
          simp [once]
      | refused _ _ _ _ _ _ _ once => simp [once]
      | continued _ _ _ kept next continued =>
          obtain ⟨_, rest⟩ := continued.rest
          rw [rest]
          exact Nat.succ_le_succ (ih _ kept next)

/-- A request that cannot be replayed is sent once. -/
theorem attempts_once (replay : replayable bodies call.request = false) (remaining attempt : Nat)
    (excluded : List String) (body : Option β) (live : Live) :
    (attempts bodies pool call remaining attempt excluded body live).sent.length ≤ 1 := by
  cases remaining with
  | zero => exact Nat.zero_le 1
  | succ remaining =>
      cases attempts_cases bodies pool call remaining attempt
          excluded body live with
      | exhausted empty | bodyless _ _ empty => simp [empty]
      | answered _ _ _ answered =>
          obtain ⟨_, once⟩ := answered.sent
          simp [once]
      | refused _ _ _ _ _ _ _ once => simp [once]
      | continued _ _ _ _ _ continued =>
          cases continued.replay.symm.trans replay

/-- The body is there whenever it is needed. -/
theorem attempts_returns (given : replayable bodies call.request = true ∨ body.isSome = true) :
    (attempts bodies pool call remaining attempt excluded body live).reply ≠ .panicked := by
  induction remaining generalizing attempt excluded live with
  | zero => exact nofun
  | succ remaining ih =>
      cases attempts_cases bodies pool call remaining attempt
          excluded body live with
      | exhausted _ reply => rw [reply]; exact nofun
      | bodyless replay missing => simp [replay, missing] at given
      | answered _ _ _ answered =>
          obtain ⟨_, _, reply, _⟩ := answered.reply
          rw [reply]
          exact nofun
      | refused _ _ _ _ _ reply => rw [reply]; exact nofun
      | continued _ _ _ _ _ continued =>
          obtain ⟨_, rest⟩ := continued.rest
          rw [rest]
          exact ih

/-- A binding gets the request again only as the one passive binding, after its
    connection failed. -/
theorem attempts_repeated {i j first second} (order : i < j)
    (earlier : (attempts bodies pool call remaining attempt excluded body live).sent[i]? = some first)
    (later : (attempts bodies pool call remaining attempt excluded body live).sent[j]? = some second)
    (same : first.1 = second.1) :
    pool.passiveSingle = true ∧ call.outcomes (attempt + i) = .error .transport := by
  induction remaining generalizing attempt excluded live i j with
  | zero => cases earlier
  | succ remaining ih =>
      have long : 1 < (attempts bodies pool call (remaining + 1) attempt excluded body
          live).sent.length := by
        have := (List.getElem?_eq_some_iff.mp later).1
        omega
      cases attempts_cases bodies pool call remaining attempt
          excluded body live with
      | exhausted empty | bodyless _ _ empty => simp [empty] at long
      | answered _ _ _ answered =>
          obtain ⟨_, once⟩ := answered.sent
          simp [once] at long
      | refused _ _ _ _ _ _ _ once => simp [once] at long
      | continued binding inside usable kept next continued =>
          obtain ⟨request, rest⟩ := continued.rest
          rw [rest] at earlier later
          obtain ⟨j, rfl⟩ := Nat.exists_eq_succ_of_ne_zero (Nat.ne_zero_of_lt order)
          cases i with
          | zero =>
              cases earlier
              -- the binding must have left the excluded ones
              have fresh := (attempts_sent (List.mem_of_getElem? later)).2
              rw [← same] at fresh
              rcases continued.reason with ⟨rfl, _⟩ | ⟨error, outcome, ⟨passive, rfl, _⟩ | rfl⟩
              · exact absurd List.mem_cons_self fresh
              · exact ⟨passive, outcome⟩
              · exact absurd List.mem_cons_self fresh
          | succ i =>
              have found := ih (Nat.lt_of_succ_lt_succ order) earlier later
              rwa [Nat.add_right_comm] at found

/-- With a usable binding and an attempt left, something is sent. -/
theorem attempts_nonempty (replay : replayable bodies call.request = true)
    (member : binding ∈ pool.bindings) (usable : pool.usable live
      (call.clock.instant (4 * attempt)) excluded binding = true) :
    (attempts bodies pool call (remaining + 1) attempt excluded body live).sent ≠ [] := by
  cases attempts_cases bodies pool call remaining attempt
      excluded body live with
  | exhausted _ _ nobody =>
      rw [nobody binding member] at usable
      cases usable
  | bodyless missing =>
      cases replay.symm.trans missing
  | answered _ _ _ answered =>
      obtain ⟨_, once⟩ := answered.sent
      simp [once]
  | refused _ _ _ _ _ _ _ once => simp [once]
  | continued _ _ _ _ _ continued =>
      obtain ⟨_, rest⟩ := continued.rest
      rw [rest]
      exact List.cons_ne_nil _ _

/-- What the loop knows about the bindings it tried. -/
structure Tried (pool : Upstreams) (attempt : Nat) (excluded : List String) : Prop where
  distinct : excluded.Nodup
  known : excluded ⊆ pool.enabledIds
  counted : pool.passiveSingle = true ∨ excluded.length = attempt

theorem Tried.add (tried : Tried pool attempt excluded) (member : binding ∈ pool.bindings)
    (enabled : binding.enabled = true) (fresh : binding.id ∉ excluded) :
    Tried pool (attempt + 1) (binding.id :: excluded) where
  distinct := List.nodup_cons.mpr ⟨fresh, tried.distinct⟩
  known := List.cons_subset.mpr ⟨mem_enabledIds member enabled, tried.known⟩
  counted := tried.counted.imp_right (congrArg (· + 1))

theorem Continued.tried {kept next served}
    (continued : Continued bodies pool call remaining attempt excluded body live binding kept next
      served) (added : Tried pool (attempt + 1) (binding.id :: excluded)) :
    Tried pool (attempt + 1) kept := by
  rcases continued.reason with ⟨rfl, _⟩ | ⟨_, _, ⟨passive, _, rfl⟩ | rfl⟩
  · exact added
  · exact ⟨added.distinct.filter _, fun _ member => added.known (List.mem_filter.mp member).1,
      .inl passive⟩
  · exact added

/-- A call that looks ahead and finds a binding has an attempt left for it. -/
theorem Tried.room {attempt excluded live now other} (tried : Tried pool attempt excluded)
    (nonempty : excluded ≠ []) (enough : pool.enabledCount ≤ pool.config.maxAttempts)
    (member : other ∈ pool.bindings) (usable : pool.usable live now excluded other = true) :
    attempt < budget pool := by
  obtain ⟨enabled, fresh, _⟩ := usable_iff.mp usable
  have few := untried_count tried.distinct tried.known (mem_enabledIds member enabled) fresh
  rcases tried.counted with passive | counted
  · have single := passiveSingle_count passive
    have := List.length_pos_iff.mpr nonempty
    omega
  · have all : pool.enabledCount ≤ pool.bindings.length := List.length_filter_le _ _
    have several : pool.passiveSingle = false := by
      cases passive : pool.passiveSingle with
      | false => rfl
      | true =>
          have := passiveSingle_count passive
          have := List.length_pos_iff.mpr nonempty
          omega
    simp only [budget, several, Bool.false_eq_true, if_false]
    omega

/-- The last upstream that answered is the one whose response is returned. -/
theorem attempts_answered (enough : replayable bodies call.request = true →
      pool.enabledCount ≤ pool.config.maxAttempts) (total : attempt + remaining = budget pool)
    (tried : Tried pool attempt excluded) {last response}
    (length : (attempts bodies pool call remaining attempt excluded body live).sent.length = last + 1)
    (outcome : call.outcomes (attempt + last) = .ok response) :
    ∃ reply, (attempts bodies pool call remaining attempt excluded body live).reply =
      .response reply ∧ reply.status = response.status ∧ reply.body = response.body := by
  induction remaining generalizing attempt excluded live last with
  | zero => cases length
  | succ remaining ih =>
      cases attempts_cases bodies pool call remaining attempt
          excluded body live with
      | exhausted empty | bodyless _ _ empty => simp [empty] at length
      | answered binding _ _ answered =>
          obtain ⟨_, once⟩ := answered.sent
          obtain ⟨given, received, reply, _⟩ := answered.reply
          rw [once] at length
          obtain rfl : last = 0 := by simpa using length.symm
          obtain rfl := Except.ok.inj (received.symm.trans outcome)
          refine ⟨_, reply, ?_⟩
          unfold returned
          split <;> exact ⟨rfl, rfl⟩
      | refused _ _ _ error failed _ _ once =>
          rw [once] at length
          obtain rfl : last = 0 := by simpa using length.symm
          rw [Nat.add_zero, failed] at outcome
          cases outcome
      | continued binding member usable kept next continued =>
          obtain ⟨enabled, fresh, _⟩ := usable_iff.mp usable
          have added := tried.add member enabled fresh
          obtain ⟨request, rest⟩ := continued.rest
          rw [rest] at length ⊢
          have rest : (attempts bodies pool call remaining (attempt + 1) kept body next).sent.length =
              last := by simpa [Served.prepend] using length
          cases last with
          | succ last =>
              exact ih (by omega) (continued.tried added) rest
                (by rwa [Nat.add_right_comm attempt 1 last, Nat.add_assoc])
          | zero =>
              -- the response to this attempt was dropped, but another one follows
              exfalso
              rcases continued.reason with ⟨rfl, _, _, _, other, inside, ready⟩ | ⟨_, failed, _⟩
              · have room := added.room (List.cons_ne_nil _ _) (enough continued.replay) inside ready
                obtain ⟨remaining, rfl⟩ := Nat.exists_eq_succ_of_ne_zero (n := remaining) (by omega)
                have different : other.id ≠ binding.id := fun same =>
                  (usable_iff.mp ready).2.1 (same ▸ List.mem_cons_self)
                have later : pool.usable next (call.clock.instant (4 * (attempt + 1)))
                    (binding.id :: excluded) other = true := by
                  rw [usable_congr (continued.health other.id different)]
                  exact usable_later rfl (call.clock.monotone (by omega)) ready
                exact attempts_nonempty continued.replay inside later
                  (List.length_eq_zero_iff.mp rest)
              · rw [Nat.add_zero, failed] at outcome
                cases outcome

/-- When every upstream answers 502 and there are more of them than attempts, the
    call answers by itself. -/
theorem attempts_all_failed (pool : Upstreams) (call : Call β) (remaining attempt : Nat)
    (excluded : List String) (body : Option β) (live : Live) (replay : replayable bodies call.request = true)
    (failing : ∀ n, ∃ response, call.outcomes n = .ok response ∧ response.status = 502)
    (up : ∀ binding ∈ pool.bindings, binding.id ∉ excluded →
      (live.health binding.id).down = false)
    (few : excluded.length + remaining < pool.enabledCount) :
    (attempts bodies pool call remaining attempt excluded body live).sent.length = remaining ∧
    (attempts bodies pool call remaining attempt excluded body live).reply =
      .response (unavailable bodies) := by
  induction remaining generalizing attempt excluded live with
  | zero => exact ⟨rfl, rfl⟩
  | succ remaining ih =>
      have ready (tried : List String) (now : Nat) (contained : excluded ⊆ tried)
          (room : tried.length < pool.enabledCount) :
          ∃ other ∈ pool.bindings, pool.usable live now tried other = true := by
        obtain ⟨other, member, enabled, fresh⟩ := exists_untried room
        exact ⟨other, member, usable_iff.mpr ⟨enabled, fresh,
          .inr (.inl (up other member fun old => fresh (contained old)))⟩⟩
      obtain ⟨response, received, status⟩ := failing attempt
      cases attempts_cases bodies pool call remaining attempt
          excluded body live with
      | exhausted _ _ nobody =>
          obtain ⟨other, member, usable⟩ := ready excluded (call.clock.instant (4 * attempt))
            (List.Subset.refl excluded) (by omega)
          rw [nobody other member] at usable
          cases usable
      | bodyless missing =>
          cases replay.symm.trans missing
      | answered binding _ _ answered =>
          obtain ⟨given, same, _, nobody⟩ := answered.reply
          obtain rfl := Except.ok.inj (same.symm.trans received)
          obtain ⟨other, member, usable⟩ := ready (binding.id :: excluded)
            (call.clock.instant (4 * attempt + 3))
            (List.subset_cons_self _ _) (by rw [List.length_cons]; omega)
          rw [nobody (by rw [status]; rfl) replay other member] at usable
          cases usable
      | refused _ _ _ error failed =>
          cases failed.symm.trans received
      | continued binding member _ kept next continued =>
          rcases continued.reason with ⟨rfl, _⟩ | ⟨_, failed, _⟩
          · obtain ⟨request, rest⟩ := continued.rest
            have next := ih (attempt + 1) (binding.id :: excluded) next (fun other inside fresh => by
                obtain ⟨different, fresh⟩ := not_or.mp (fun h => fresh (List.mem_cons.mpr h))
                rw [continued.health other.id different]
                exact up other inside fresh) (by rw [List.length_cons]; omega)
            rw [rest]
            exact ⟨congrArg (· + 1) next.1, next.2⟩
          · cases failed.symm.trans received

end Loop

section Contract

variable {β : Type} (bodies : Bodies β) (pool : Upstreams)

/-- What a call promises about the request it forwards. -/
structure Contract (authorized : Except (Response β) (Request β))
    (outcomes : Nat → Except ForwardError (Response β)) (served : Served β) : Prop where
  /-- A body that was taken is not needed again. -/
  returns : served.reply ≠ .panicked
  once : ∀ request, authorized = .ok request → replayable bodies request = false →
    served.sent.length ≤ 1
  bounded : served.sent.length ≤ budget pool
  enabled : ∀ sent ∈ served.sent,
    ∃ binding ∈ pool.bindings, binding.enabled = true ∧ binding.id = sent.1
  repeated : ∀ i j first second, i < j → served.sent[i]? = some first →
    served.sent[j]? = some second → first.1 = second.1 →
    pool.passiveSingle = true ∧ outcomes i = .error .transport
  /-- The response of the last upstream is the one that is returned. -/
  answered : ∀ last response, served.sent.length = last + 1 → outcomes last = .ok response →
    ∃ reply, served.reply = .response reply ∧ reply.status = response.status ∧
      reply.body = response.body

variable {bodies pool}

theorem enough_contract {gate : Option (Request β → Except (Response β) (Request β))} {request}
    (enough : ∀ sent, authorize gate request = .ok sent →
      replayable bodies sent = true → pool.enabledCount ≤ pool.config.maxAttempts) (secure : Bool)
    (clock : Clock) (outcomes : Nat → Except ForwardError (Response β)) (live : Live) :
    Contract bodies pool (authorize gate request) outcomes
      (forwardWithSecurity bodies pool gate request secure clock outcomes live) := by
  unfold forwardWithSecurity
  cases passed : authorize gate request with
  | error response =>
      refine ⟨nofun, nofun, Nat.zero_le _, nofun, ?_, nofun⟩
      intro i j first second _ found
      cases found
  | ok sent =>
      constructor
      · exact attempts_returns (.inr rfl)
      · intro request same replay
        cases same
        exact attempts_once replay _ _ _ _ _
      · exact attempts_length _ _ _ _ _
      · intro sent member
        obtain ⟨binding, inside, same⟩ := List.mem_map.mp (attempts_sent member).1
        obtain ⟨member, enabled⟩ := List.mem_filter.mp inside
        exact ⟨binding, member, enabled, same⟩
      · intro i j first second order earlier later same
        have found := attempts_repeated order earlier later same
        rwa [Nat.zero_add] at found
      · intro last response length outcome
        refine attempts_answered (fun replay => enough sent passed replay) (Nat.zero_add _)
          ⟨List.nodup_nil, List.nil_subset _, .inr rfl⟩ length ?_
        rwa [Nat.zero_add]

/-- The state of a pool in which every binding is up. -/
def Live.fresh : Live :=
  ⟨fun _ => ⟨false, 0, 0, false, 0, none, none, none, none⟩, fun _ => 0, fun _ => 0, fun _ => 0, 0,
    .empty⟩

def Clock.stopped : Clock := ⟨fun _ => 0, fun _ => 0, fun _ => Nat.le_refl 0⟩

/-- The contract holds in every state and for every answer exactly when a request
    that may be replayed has an attempt for every enabled binding. -/
theorem contract_iff (gate : Option (Request β → Except (Response β) (Request β)))
    (request : Request β) :
    (∀ secure clock outcomes live, Contract bodies pool (authorize gate request) outcomes
      (forwardWithSecurity bodies pool gate request secure clock outcomes live)) ↔
    ∀ sent, authorize gate request = .ok sent → replayable bodies sent = true →
      pool.enabledCount ≤ pool.config.maxAttempts := by
  refine ⟨?_, enough_contract⟩
  intro contract sent passed replay
  by_contra few
  -- every upstream answers 502 while all of them are up
  have failing := contract false .stopped (fun _ => .ok ⟨502, [], bodies.empty⟩) .fresh
  have attempts := pool.attempts
  have small : pool.enabledCount ≤ pool.bindings.length := List.length_filter_le _ _
  have several : pool.passiveSingle = false := by
    cases passive : pool.passiveSingle with
    | false => rfl
    | true =>
        have := passiveSingle_count passive
        omega
  have limit : budget pool = pool.config.maxAttempts := by
    simp only [budget, several, Bool.false_eq_true, if_false]
    omega
  unfold forwardWithSecurity at failing
  rw [passed] at failing
  obtain ⟨length, reply⟩ := attempts_all_failed pool ⟨sent, false, if pool.config.stickySessions then stickyCookie sent.headers pool.cookieName
      else none, .stopped, fun _ => .ok ⟨502, [], bodies.empty⟩⟩
    (budget pool) 0 [] (some sent.body) .fresh replay (fun _ => ⟨_, rfl, rfl⟩) (fun _ _ _ => rfl)
    (by rw [limit, List.length_nil]; omega)
  obtain ⟨last, shape⟩ := Nat.exists_eq_succ_of_ne_zero (n := budget pool) (by omega)
  obtain ⟨given, same, status, _⟩ := failing.answered last _ (length.trans shape) rfl
  rw [reply] at same
  obtain rfl := Reply.response.inj same
  cases status

def textBodies : Bodies String := ⟨"", (· == ""), id⟩

/-- Two bindings and one attempt. -/
def samplePool : Upstreams where
  config := ⟨.priority, .manual, .roundRobin, 1, false, ⟨true, 2, 2, 10⟩⟩
  bindings := [⟨"first", true, 1, 1⟩, ⟨"second", true, 2, 1⟩]
  cookieName := "ph_upstream_site"
  attempts := by decide
  sized := by decide
  distinct := by decide

/-- The only attempt is answered with 502, which is dropped for a response of the
    proxy's own. -/
theorem last_response_is_dropped :
    ¬Contract textBodies samplePool
      (authorize none (⟨.get, "/", [], ""⟩ : Request String)) (fun _ => .ok ⟨502, [], "bad gateway"⟩)
      (forwardWithSecurity textBodies samplePool none ⟨.get, "/", [], ""⟩ false .stopped
        (fun _ => .ok ⟨502, [], "bad gateway"⟩) .fresh) := by
  intro contract
  obtain ⟨reply, same, status, _⟩ := contract.answered 0 ⟨502, [], "bad gateway"⟩ rfl rfl
  obtain rfl := Reply.response.inj same
  cases status

end Contract

end PortHub.Runtime
