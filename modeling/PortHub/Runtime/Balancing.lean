import PortHub.Lib.WeightedTurns
import PortHub.Runtime.Retries

/-! # Weighted balancing

A call of `candidates` that balances by weight takes one turn among the eligible
bindings. As long as the list of eligible bindings stays the same, requests are
spread exactly by weight.
-/

namespace PortHub.Runtime

open WeightedTurns

/-- The weighted score of a binding. -/
def Live.score (live : Live) (binding : Binding) : Int := (live.weighted.get? binding.id).getD 0

namespace Round

def gained (round : Round) (binding : Binding) : Int :=
  (round.scores.get? binding.id).getD 0 + binding.weight

/-- What a loop over bindings makes of a round. -/
structure Loop (list : List Binding) (start : Nat) (before after : Round) : Prop where
  scores : ∀ binding ∈ list, after.scores.get? binding.id = some (before.gained binding)
  others : ∀ id ∉ list.map Binding.id, after.scores.get? id = before.scores.get? id
  total : after.total = before.total + (list.map fun binding => (binding.weight : Int)).sum
  least : before.bestScore ≤ after.bestScore
  greatest : ∀ binding ∈ list, before.gained binding ≤ after.bestScore
  best : (after.best = before.best ∧ after.bestScore = before.bestScore) ∨
    ∃ index binding, list[index]? = some binding ∧ after.best = start + index ∧
      after.bestScore = before.gained binding

theorem add_scores (round : Round) (binding : Binding) (index : Nat) :
    (round.add binding index).scores = round.scores.insert binding.id (round.gained binding) := by
  simp only [add]
  split <;> rfl

theorem add_total (round : Round) (binding : Binding) (index : Nat) :
    (round.add binding index).total = round.total + binding.weight := by
  simp only [add]
  split <;> rfl

/-- The better of the best so far and the binding. -/
theorem add_best (round : Round) (binding : Binding) (index : Nat) :
    (round.bestScore < round.gained binding ∧ (round.add binding index).best = index ∧
      (round.add binding index).bestScore = round.gained binding) ∨
    (round.gained binding ≤ round.bestScore ∧ (round.add binding index).best = round.best ∧
      (round.add binding index).bestScore = round.bestScore) := by
  simp only [add]
  split
  · exact .inl ⟨‹_›, rfl, rfl⟩
  · exact .inr ⟨not_lt.mp ‹_›, rfl, rfl⟩

theorem gained_add {round : Round} {binding other : Binding} (different : other.id ≠ binding.id)
    (index : Nat) : (round.add binding index).gained other = round.gained other := by
  rw [gained, add_scores, Dict.get?_insert_ne _ _ different, gained]

theorem loop (list : List Binding) (distinct : (list.map Binding.id).Nodup) (start : Nat)
    (round : Round) :
    Loop list start round
      ((list.zipIdx start).foldl (fun round entry => round.add entry.1 entry.2) round) := by
  induction list generalizing start round with
  | nil => exact ⟨by simp, by simp, by simp, le_rfl, by simp, .inl ⟨rfl, rfl⟩⟩
  | cons binding rest ih =>
      rw [List.map_cons, List.nodup_cons] at distinct
      have apart : ∀ other ∈ rest, other.id ≠ binding.id := fun other member same =>
        distinct.1 (same ▸ List.mem_map_of_mem member)
      have later := ih distinct.2 (start + 1) (round.add binding start)
      rw [List.zipIdx_cons, List.foldl_cons]
      generalize (rest.zipIdx (start + 1)).foldl (fun round entry => round.add entry.1 entry.2)
        (round.add binding start) = after at later
      have better := add_best round binding start
      refine ⟨?_, ?_, ?_, ?_, ?_, ?_⟩
      · rw [List.forall_mem_cons]
        constructor
        · rw [later.others _ distinct.1, add_scores, Dict.get?_insert_self]
        · intro other member
          rw [later.scores other member, gained_add (apart other member)]
      · intro id missing
        rw [List.map_cons, List.mem_cons, not_or] at missing
        rw [later.others id missing.2, add_scores, Dict.get?_insert_ne _ _ missing.1]
      · rw [later.total, add_total, List.map_cons, List.sum_cons, add_assoc]
      · have least := later.least
        omega
      · rw [List.forall_mem_cons]
        constructor
        · have least := later.least
          omega
        · intro other member
          rw [← gained_add (apart other member) start]
          exact later.greatest other member
      · rcases later.best with ⟨kept, same⟩ | ⟨index, other, found, place, score⟩
        · rcases better with ⟨_, first, score⟩ | ⟨_, first, score⟩
          · exact .inr ⟨0, binding, rfl, kept.trans first, same.trans score⟩
          · exact .inl ⟨kept.trans first, same.trans score⟩
        · refine .inr ⟨index + 1, other, found, by omega, ?_⟩
          rw [score, gained_add (apart other (List.mem_of_getElem? found))]

end Round

theorem swapFront_head? {α : Type} {list : List α} {pick : Nat} {item : α}
    (found : list[pick]? = some item) : (swapFront list pick).head? = some item := by
  cases list with
  | nil => simp at found
  | cons first rest => simp [swapFront, found, List.head?_eq_getElem?]

section Turns

variable {pool : Upstreams} {live : Live} {list : List Binding}

/-- The least score that a loop could miss is far below any debt. -/
theorem debts_are_small (few : list.length ≤ 128) (light : ∀ binding ∈ list, binding.weight < 2 ^ 32) :
    (list.map fun binding => (binding.weight : Int)).sum ≤ 2 ^ 39 := by
  have bound := List.sum_le_card_nsmul (list.map fun binding => (binding.weight : Int)) (2 ^ 32) (by
    intro weight member
    obtain ⟨binding, inside, rfl⟩ := List.mem_map.mp member
    have := light binding inside
    omega)
  simp only [List.length_map, nsmul_eq_mul] at bound
  omega

/-- The round before its loop: scores of bindings that are not listed are dropped. -/
def Live.opening (live : Live) (list : List Binding) : Round :=
  ⟨live.weighted.retain fun id _ => list.any fun binding => binding.id == id, 0, 0, -(2 ^ 63)⟩

theorem opening_gained {binding} (member : binding ∈ list) :
    (live.opening list).gained binding = live.score binding + binding.weight := by
  have listed : (list.any fun other => other.id == binding.id) = true :=
    List.any_eq_true.mpr ⟨binding, member, by simp⟩
  rw [Round.gained, Live.opening, Dict.get?_retain, listed, Live.score]
  cases live.weighted.get? binding.id <;> rfl

theorem opening_missing {id} (missing : id ∉ list.map Binding.id) :
    (live.opening list).scores.get? id = none := by
  have unlisted : (list.any fun other => other.id == id) = false := by
    rw [List.any_eq_false]
    intro other member same
    exact missing (List.mem_map.mpr ⟨other, member, by simpa using same⟩)
  rw [Live.opening, Dict.get?_retain, unlisted]
  cases live.weighted.get? id <;> simp

/-- The scores after the best of the list paid for its turn. -/
def Round.paid (round : Round) (list : List Binding) : Dict String Int :=
  match list[round.best]? with
  | some binding =>
      round.scores.insert binding.id ((round.scores.get? binding.id).getD 0 - round.total)
  | none => round.scores

/-- A pick by weight, after the loop found the best of the list. -/
theorem pick_weighted (weighted : pool.config.strategy = .weightedRoundRobin)
    (distinct : (list.map Binding.id).Nodup)
    (eager : ∀ binding ∈ list, -(2 ^ 63) < live.score binding + binding.weight)
    (nonempty : list ≠ []) :
    ∃ index binding round, list[index]? = some binding ∧
      Round.Loop list 0 (live.opening list) round ∧
      round.bestScore = live.score binding + binding.weight ∧
      pool.pick live list = (index, { live with
        weighted := round.scores.insert binding.id
          (live.score binding + binding.weight - round.total) }) := by
  have loop := Round.loop list distinct 0 (live.opening list)
  have picked : pool.pick live list =
      let round := list.zipIdx.foldl (fun round entry => round.add entry.1 entry.2) (live.opening list)
      (round.best, { live with weighted := round.paid list }) := by
    rw [Upstreams.pick, weighted]
    rfl
  rw [picked]
  generalize list.zipIdx.foldl (fun round entry => round.add entry.1 entry.2) (live.opening list) =
    round at loop
  rcases loop.best with ⟨_, least⟩ | ⟨index, binding, found, place, score⟩
  · -- some binding has more than the score that the loop starts with
    obtain ⟨binding, member⟩ := List.exists_mem_of_ne_nil list nonempty
    have greatest := loop.greatest binding member
    have more := eager binding member
    rw [least, opening_gained member] at greatest
    exact absurd more (not_lt.mpr greatest)
  · have member := List.mem_of_getElem? found
    rw [Nat.zero_add] at place
    rw [opening_gained member] at score
    refine ⟨index, binding, round, found, loop, score, ?_⟩
    simp only [Round.paid, place, found, loop.scores binding member, opening_gained member, Option.getD_some]

/-- A pick by weight is a turn among the bindings of the list. -/
theorem pick_turn (weighted : pool.config.strategy = .weightedRoundRobin)
    (distinct : (list.map Binding.id).Nodup) (nonempty : list ≠ []) (few : list.length ≤ 128)
    (light : ∀ binding ∈ list, binding.weight < 2 ^ 32)
    (balanced : Balanced list.toFinset (fun binding => (binding.weight : Int)) live.score) :
    ∃ binding, list[(pool.pick live list).1]? = some binding ∧
      Turn list.toFinset (fun binding => (binding.weight : Int)) live.score binding
        (pool.pick live list).2.score ∧
      ∀ id ∉ list.map Binding.id, (pool.pick live list).2.weighted.get? id = none := by
  have total : ∑ binding ∈ list.toFinset, (binding.weight : Int) =
      (list.map fun binding => (binding.weight : Int)).sum :=
    List.sum_toFinset _ (List.Nodup.of_map _ distinct)
  have debts := debts_are_small few light
  have eager : ∀ binding ∈ list, -(2 ^ 63) < live.score binding + binding.weight := by
    intro binding member
    have above := balanced.above binding (List.mem_toFinset.mpr member)
    omega
  obtain ⟨index, binding, round, found, loop, score, picked⟩ :=
    @pick_weighted pool live list weighted distinct eager nonempty
  have member := List.mem_of_getElem? found
  rw [picked]
  refine ⟨binding, found, ⟨List.mem_toFinset.mpr member, ?_, ?_⟩, ?_⟩
  · intro other inside
    rw [List.mem_toFinset] at inside
    rw [← score, ← opening_gained inside]
    exact loop.greatest other inside
  · intro other inside
    rw [List.mem_toFinset] at inside
    rw [total]
    split
    · rename_i same
      subst same
      simp [Live.score, loop.total, Live.opening]
    · rename_i different
      have apart : other.id ≠ binding.id := fun same =>
        different (List.inj_on_of_nodup_map distinct inside member same)
      rw [Live.score, Dict.get?_insert_ne _ _ apart, loop.scores other inside, opening_gained inside]
      simp
  · intro id missing
    have apart : id ≠ binding.id := fun same => missing (same ▸ List.mem_map_of_mem member)
    rw [Dict.get?_insert_ne _ _ apart, loop.others id missing, opening_missing missing]

/-- Without a sticky cookie the strategy picks one of the eligible bindings. -/
theorem candidates_pick (mode : pool.config.mode = .balance) {now excluded}
    (eligible : pool.bindings.filter (pool.usable live now excluded) = list)
    (nonempty : list ≠ []) :
    pool.candidates live now excluded none =
      (swapFront list (pool.pick live list).1, (pool.pick live list).2) := by
  simp only [Upstreams.candidates, eligible, mode, List.isEmpty_iff, nonempty, if_false,
    Option.bind_none]

/-- Without a sticky cookie, one call of `candidates` is a turn. -/
theorem candidates_turn (mode : pool.config.mode = .balance)
    (weighted : pool.config.strategy = .weightedRoundRobin) {now : Nat} {excluded : List String}
    (eligible : pool.bindings.filter (pool.usable live now excluded) = list) (nonempty : list ≠ [])
    (light : ∀ binding ∈ list, binding.weight < 2 ^ 32)
    (balanced : Balanced list.toFinset (fun binding => (binding.weight : Int)) live.score) :
    ∃ binding, (pool.candidates live now excluded none).1.head? = some binding ∧
      Turn list.toFinset (fun binding => (binding.weight : Int)) live.score binding
        (pool.candidates live now excluded none).2.score ∧
      ∀ id ∉ list.map Binding.id,
        (pool.candidates live now excluded none).2.weighted.get? id = none := by
  have part : list.Sublist pool.bindings := eligible ▸ List.filter_sublist
  have distinct := pool.distinct.sublist (part.map Binding.id)
  have few := part.length_le.trans pool.sized.2
  obtain ⟨binding, found, turn, others⟩ := pick_turn weighted distinct nonempty few light balanced
  rw [candidates_pick mode eligible nonempty]
  exact ⟨binding, swapFront_head? found, turn, others⟩

end Turns

/-- Calls of `candidates` at the given instants, without exclusion or sticky cookie: the
    first binding of each, and the state in the end. -/
def Upstreams.turns (pool : Upstreams) : Live → List Nat → List (Option Binding) × Live
  | live, [] => ([], live)
  | live, now :: rest =>
      let (list, live) := pool.candidates live now [] none
      let (firsts, last) := pool.turns live rest
      (list.head? :: firsts, last)

section Exact

variable {pool : Upstreams} {live : Live} {list : List Binding} {instants : List Nat}

theorem turns_spec (mode : pool.config.mode = .balance)
    (weighted : pool.config.strategy = .weightedRoundRobin)
    (eligible : ∀ now ∈ instants, pool.bindings.filter (pool.usable live now []) = list)
    (nonempty : list ≠ []) (weights : ∀ binding ∈ list, 1 ≤ binding.weight ∧ binding.weight < 2 ^ 32)
    (balanced : Balanced list.toFinset (fun binding => (binding.weight : Int)) live.score) :
    ∃ picks, (pool.turns live instants).1 = picks.map some ∧
      Turns list.toFinset (fun binding => (binding.weight : Int)) live.score picks
        (pool.turns live instants).2.score ∧
      (instants ≠ [] → ∀ id ∉ list.map Binding.id,
        (pool.turns live instants).2.weighted.get? id = none) := by
  induction instants generalizing live with
  | nil => exact ⟨[], rfl, .none fun _ _ => rfl, fun some => absurd rfl some⟩
  | cons now rest ih =>
      rw [List.forall_mem_cons] at eligible
      obtain ⟨binding, head, turn, others⟩ := candidates_turn mode weighted eligible.1 nonempty
        (fun binding member => (weights binding member).2) balanced
      have health := (candidates_spec pool live now [] none).2.2
      have positive : ∀ binding ∈ list.toFinset, (0 : Int) < binding.weight := by
        intro binding member
        have := (weights binding (List.mem_toFinset.mp member)).1
        omega
      have same : ∀ later, pool.usable (pool.candidates live now [] none).2 later [] =
          pool.usable live later [] := by
        intro later
        funext other
        simp only [Upstreams.usable, health]
      obtain ⟨picks, firsts, turns, missing⟩ := ih (fun later member => by rw [same, eligible.2 later member])
        (turn.balanced positive balanced)
      refine ⟨binding :: picks, by rw [List.map_cons, ← head, ← firsts]; rfl, .more turn turns, ?_⟩
      intro _
      cases rest with
      | nil => exact others
      | cons => exact missing (List.cons_ne_nil _ _)

/-- The total weight of a list of bindings. -/
def totalWeight (list : List Binding) : Nat := (list.map Binding.weight).sum

theorem totalWeight_pos (nonempty : list ≠ []) (weights : ∀ binding ∈ list, 1 ≤ binding.weight) :
    0 < totalWeight list := by
  cases list with
  | nil => exact absurd rfl nonempty
  | cons binding rest =>
      have first := weights binding List.mem_cons_self
      rw [totalWeight, List.map_cons, List.sum_cons]
      omega

theorem turns_length (pool : Upstreams) (live : Live) (instants : List Nat) :
    (pool.turns live instants).1.length = instants.length := by
  induction instants generalizing live with
  | nil => rfl
  | cons now rest ih => exact congrArg (· + 1) (ih _)

/-- As long as the same bindings are eligible, weighted balancing from zero scores is
    exact: after each call the scores sum to zero and none is as low as the negative
    total, and in `k` times the total calls a binding is first `k` times its weight. -/
theorem weighted_turns_are_exact (mode : pool.config.mode = .balance)
    (weighted : pool.config.strategy = .weightedRoundRobin)
    (eligible : ∀ now ∈ instants, pool.bindings.filter (pool.usable live now []) = list)
    (weights : ∀ binding ∈ list, 1 ≤ binding.weight ∧ binding.weight < 2 ^ 32)
    (zero : ∀ binding ∈ list, live.score binding = 0) :
    (∀ n, let after := (pool.turns live (instants.take n)).2
      (list.map after.score).sum = 0 ∧
      (∀ binding ∈ list, -(totalWeight list : Int) < after.score binding) ∧
      (list ≠ [] → instants.take n ≠ [] →
        ∀ id, after.weighted.contains id = true → id ∈ list.map Binding.id)) ∧
    ∀ k, instants.length = k * totalWeight list → ∀ binding ∈ list,
      (pool.turns live instants).1.count (some binding) = k * binding.weight := by
  by_cases nonempty : list = []
  · subst nonempty
    simp
  have heavy : 0 < totalWeight list := totalWeight_pos nonempty fun binding member =>
    (weights binding member).1
  by_cases called : instants = []
  · -- without a call nothing has changed
    subst called
    refine ⟨fun n => ?_, fun k rounds binding member => ?_⟩
    · rw [List.take_nil]
      refine ⟨List.sum_eq_zero fun score member => ?_, fun binding member => ?_, ?_⟩
      · obtain ⟨binding, inside, rfl⟩ := List.mem_map.mp member
        exact zero binding inside
      · have : live.score binding = 0 := zero binding member
        change -(totalWeight list : Int) < live.score binding
        omega
      · exact fun _ some => absurd rfl some
    · have none : k = 0 := by
        rcases Nat.mul_eq_zero.mp rounds.symm with none | none
        · exact none
        · omega
      rw [none, Nat.zero_mul]
      rfl
  obtain ⟨now, member⟩ := List.exists_mem_of_ne_nil instants called
  have part : list.Sublist pool.bindings := eligible now member ▸ List.filter_sublist
  have distinct : list.Nodup := .of_map _ (pool.distinct.sublist (part.map Binding.id))
  have total : ∑ binding ∈ list.toFinset, (binding.weight : Int) = totalWeight list := by
    rw [List.sum_toFinset _ distinct, totalWeight, Nat.cast_list_sum, List.map_map]
    rfl
  have positive : ∀ binding ∈ list.toFinset, (0 : Int) < binding.weight := by
    intro binding member
    have := (weights binding (List.mem_toFinset.mp member)).1
    omega
  have balanced : Balanced list.toFinset (fun binding => (binding.weight : Int)) live.score := by
    refine ⟨Finset.sum_eq_zero fun binding member => zero binding (List.mem_toFinset.mp member), ?_⟩
    intro binding member
    rw [total, zero binding (List.mem_toFinset.mp member)]
    omega
  refine ⟨fun n => ?_, fun k rounds binding member => ?_⟩
  · obtain ⟨picks, _, turns, missing⟩ := turns_spec mode weighted
      (fun now member => eligible now (List.mem_of_mem_take member)) nonempty weights balanced
    have after := turns.balanced positive balanced
    refine ⟨?_, fun binding member => ?_, fun _ some id held => ?_⟩
    · rw [← List.sum_toFinset _ distinct]
      exact after.zero
    · rw [← total]
      exact after.above binding (List.mem_toFinset.mpr member)
    · by_contra other
      rw [Dict.contains, missing some id other] at held
      cases held
  · obtain ⟨picks, firsts, turns, _⟩ := turns_spec mode weighted eligible nonempty weights balanced
    have length : picks.length = instants.length := by
      rw [← turns_length pool live instants, firsts, List.length_map]
    have exact := turns.exact positive (fun binding member => zero binding (List.mem_toFinset.mp member))
      (k := k) (by rw [total, length, rounds]; push_cast; rfl) (List.mem_toFinset.mpr member)
    rw [firsts, List.count_map_of_injective _ _ (Option.some_injective _)]
    exact_mod_cast exact

/-- Weighted balancing is smooth: after any number of calls, not only after whole rounds,
    no binding has been first a whole turn more often than its share. -/
theorem weighted_turns_are_smooth (mode : pool.config.mode = .balance)
    (weighted : pool.config.strategy = .weightedRoundRobin)
    (eligible : ∀ now ∈ instants, pool.bindings.filter (pool.usable live now []) = list)
    (weights : ∀ binding ∈ list, 1 ≤ binding.weight ∧ binding.weight < 2 ^ 32)
    (zero : ∀ binding ∈ list, live.score binding = 0) {binding} (member : binding ∈ list) :
    (pool.turns live instants).1.count (some binding) * totalWeight list <
      instants.length * binding.weight + totalWeight list := by
  have nonempty : list ≠ [] := List.ne_nil_of_mem member
  have heavy := totalWeight_pos nonempty fun other inside => (weights other inside).1
  cases instants with
  | nil => simp [Upstreams.turns, heavy]
  | cons now rest =>
      have part : list.Sublist pool.bindings := eligible now List.mem_cons_self ▸ List.filter_sublist
      have distinct : list.Nodup := .of_map _ (pool.distinct.sublist (part.map Binding.id))
      have total : ∑ other ∈ list.toFinset, (other.weight : Int) = totalWeight list := by
        rw [List.sum_toFinset _ distinct, totalWeight, Nat.cast_list_sum, List.map_map]
        rfl
      have positive : ∀ other ∈ list.toFinset, (0 : Int) < other.weight := by
        intro other inside
        have := (weights other (List.mem_toFinset.mp inside)).1
        omega
      have none : ∀ other ∈ list.toFinset, live.score other = 0 := fun other inside =>
        zero other (List.mem_toFinset.mp inside)
      have balanced : Balanced list.toFinset (fun other => (other.weight : Int)) live.score :=
        ⟨Finset.sum_eq_zero none, fun other inside => by rw [total, none other inside]; omega⟩
      obtain ⟨picks, firsts, turns, _⟩ := turns_spec mode weighted eligible nonempty weights balanced
      have close := turns.close positive balanced (List.mem_toFinset.mpr member) (zero _ member)
      rw [← turns_length pool live, firsts, List.length_map,
        List.count_map_of_injective _ _ (Option.some_injective _)]
      rw [total] at close
      exact_mod_cast close

end Exact

/-- A pool of two bindings that balances by weight. -/
def weightedPool : Upstreams where
  config := ⟨.balance, .manual, .weightedRoundRobin, 4, false, ⟨true, 2, 2, 10⟩⟩
  bindings := [⟨"large", true, 1, 2⟩, ⟨"small", true, 1, 1⟩]
  cookieName := "ph_upstream_route"
  attempts := by decide
  sized := by decide
  distinct := by decide

/-- In three calls the binding of weight two is first twice. -/
theorem two_of_three_are_large :
    (weightedPool.turns Live.fresh [0, 5, 9]).1.count (some ⟨"large", true, 1, 2⟩) = 2 :=
  (@weighted_turns_are_exact weightedPool Live.fresh weightedPool.bindings [0, 5, 9] rfl rfl
    (by decide) (by decide) (by decide)).2 1 rfl ⟨"large", true, 1, 2⟩ List.mem_cons_self

/-- In two calls the binding of weight one is first at most once. -/
theorem one_of_two_is_small :
    (weightedPool.turns Live.fresh [0, 5]).1.count (some ⟨"small", true, 1, 1⟩) ≤ 1 := by
  have smooth : _ * 3 < 2 * 1 + 3 := @weighted_turns_are_smooth weightedPool Live.fresh
    weightedPool.bindings [0, 5] rfl rfl (by decide) (by decide) (by decide)
    ⟨"small", true, 1, 1⟩ (.tail _ (.head _))
  omega

end PortHub.Runtime
