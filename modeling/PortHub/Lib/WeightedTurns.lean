import Mathlib.Algebra.Order.BigOperators.Group.Finset
import Mathlib.Algebra.BigOperators.Ring.Finset
import Mathlib.Tactic.Linarith
import Mathlib.Tactic.Ring

/-! # Smooth weighted turns

In every turn each member gains its weight, and a member of the greatest score is
picked and pays the total weight. The scores stay balanced: they sum to zero and no
debt reaches the total. So after a whole number of rounds every member was picked
exactly as often as its weight says.
-/

namespace WeightedTurns

open Finset

variable {ι : Type} [DecidableEq ι] {members : Finset ι} {weight : ι → ℤ} {score next : ι → ℤ}

/-- One turn picks a member of the greatest score. -/
structure Turn (members : Finset ι) (weight : ι → ℤ) (score : ι → ℤ) (pick : ι) (next : ι → ℤ) :
    Prop where
  member : pick ∈ members
  greatest : ∀ i ∈ members, score i + weight i ≤ score pick + weight pick
  charged : ∀ i ∈ members,
    next i = score i + weight i - if i = pick then ∑ j ∈ members, weight j else 0

/-- Turn after turn, with the picks in order. -/
inductive Turns (members : Finset ι) (weight : ι → ℤ) : (ι → ℤ) → List ι → (ι → ℤ) → Prop
  | none {score next : ι → ℤ} (same : ∀ i ∈ members, next i = score i) :
      Turns members weight score [] next
  | more {score middle next : ι → ℤ} {pick : ι} {picks : List ι}
      (first : Turn members weight score pick middle) (rest : Turns members weight middle picks next) :
      Turns members weight score (pick :: picks) next

/-- The scores sum to zero, and none is as low as the total weight below zero. -/
structure Balanced (members : Finset ι) (weight : ι → ℤ) (score : ι → ℤ) : Prop where
  zero : ∑ i ∈ members, score i = 0
  above : ∀ i ∈ members, -∑ j ∈ members, weight j < score i

omit [DecidableEq ι] in
theorem Balanced.congr (balanced : Balanced members weight score)
    (same : ∀ i ∈ members, next i = score i) : Balanced members weight next :=
  ⟨(sum_congr rfl same).trans balanced.zero, fun i member => same i member ▸ balanced.above i member⟩

variable (positive : ∀ i ∈ members, 0 < weight i) {picks : List ι}

include positive

/-- The member that is picked has a score above zero before it pays. -/
theorem Turn.gains {pick} (turn : Turn members weight score pick next)
    (balanced : Balanced members weight score) : 0 < score pick + weight pick := by
  by_contra low
  have none : ∀ i ∈ members, score i + weight i ≤ 0 := fun i member =>
    (turn.greatest i member).trans (not_lt.mp low)
  have sum := sum_nonpos none
  rw [sum_add_distrib, balanced.zero, zero_add] at sum
  have gained := sum_pos positive ⟨pick, turn.member⟩
  linarith

theorem Turn.balanced {pick} (turn : Turn members weight score pick next)
    (before : Balanced members weight score) : Balanced members weight next := by
  constructor
  · rw [sum_congr rfl turn.charged, sum_sub_distrib, sum_add_distrib, before.zero,
      sum_ite_eq' members pick, if_pos turn.member]
    ring
  · intro i member
    rw [turn.charged i member]
    split
    · rename_i picked
      have gains := turn.gains positive before
      rw [picked]
      linarith
    · have above := before.above i member
      have gained := positive i member
      linarith

theorem Turns.balanced (turns : Turns members weight score picks next)
    (before : Balanced members weight score) :
    Balanced members weight next := by
  induction turns with
  | none same => exact before.congr same
  | more first _ ih => exact ih (first.balanced positive before)

omit positive

theorem Turns.picks_members (turns : Turns members weight score picks next) :
    ∀ pick ∈ picks, pick ∈ members := by
  induction turns with
  | none => exact fun _ member => absurd member List.not_mem_nil
  | more first _ ih => exact List.forall_mem_cons.mpr ⟨first.member, ih⟩

/-- A score counts the turns and the picks. -/
theorem Turns.score_eq (turns : Turns members weight score picks next) {i} (member : i ∈ members) :
    next i = score i + picks.length * weight i - picks.count i * ∑ j ∈ members, weight j := by
  induction turns with
  | none same => simp [same i member]
  | more first _ ih =>
      rw [ih, first.charged i member, List.length_cons, List.count_cons]
      split <;> rename_i picked
      · rw [if_pos (by simp [picked])]
        push_cast
        ring
      · rw [if_neg (by simpa using Ne.symm picked)]
        push_cast
        ring

include positive

/-- From balanced scores of zero no member gets a whole turn ahead of its share. -/
theorem Turns.close (turns : Turns members weight score picks next)
    (balanced : Balanced members weight score) {i} (member : i ∈ members) (zero : score i = 0) :
    picks.count i * ∑ j ∈ members, weight j < picks.length * weight i + ∑ j ∈ members, weight j := by
  have above := (turns.balanced positive balanced).above i member
  rw [turns.score_eq member, zero] at above
  linarith

/-- After `k` rounds of turns from zero scores, every member was picked `k` times for
    each unit of its weight. -/
theorem Turns.exact (turns : Turns members weight score picks next)
    (zero : ∀ i ∈ members, score i = 0) {k}
    (rounds : (picks.length : ℤ) = k * ∑ j ∈ members, weight j) {i} (member : i ∈ members) :
    (picks.count i : ℤ) = k * weight i := by
  have total : 0 < ∑ j ∈ members, weight j := sum_pos positive ⟨i, member⟩
  have balanced : Balanced members weight score :=
    ⟨sum_eq_zero zero, fun j inside => by rw [zero j inside]; linarith⟩
  have after := turns.balanced positive balanced
  -- nobody was picked too often, for its debt would reach the total
  have atMost : ∀ j ∈ members, (picks.count j : ℤ) ≤ k * weight j := by
    intro j inside
    have above := after.above j inside
    rw [turns.score_eq inside, zero j inside, rounds] at above
    by_contra more
    have excess : k * weight j + 1 ≤ (picks.count j : ℤ) := by omega
    have paid := mul_le_mul_of_nonneg_right excess total.le
    linarith
  -- and as the picks add up, nobody too rarely either
  have counted : ∑ j ∈ members, (picks.count j : ℤ) = ∑ j ∈ members, k * weight j := by
    have all := Multiset.sum_count_eq_card (s := members) (m := (picks : Multiset ι)) turns.picks_members
    simp only [Multiset.coe_count, Multiset.coe_card] at all
    rw [← mul_sum, ← rounds]
    exact_mod_cast all
  exact (sum_eq_sum_iff_of_le atMost).mp counted i member

end WeightedTurns
