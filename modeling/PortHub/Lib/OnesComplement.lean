import Mathlib.Data.Nat.ModEq

/-! # Ones' complement sums

In ones' complement a carry out of the highest digit is added back at the lowest.
A sum may carry after every addition or only at the end: both give the number
below the base that is congruent to the sum modulo the base less one, and zero
only for a sum that is zero.
-/

namespace OnesComplement

variable (base : Nat)

/-- Addition with an end-around carry. -/
def add (a b : Nat) : Nat := if a + b < base then a + b else a + b - (base - 1)

/-- The sum of some words, carried after every addition. -/
def sum (words : List Nat) : Nat := words.foldr (add base) 0

/-- Carries added back until there are none; at most `rounds` times. -/
def fold : Nat → Nat → Nat
  | 0, total => total
  | rounds + 1, total =>
      if base ≤ total then fold rounds (total % base + total / base) else total

/-- The value that stands for a sum. -/
structure Represents (total value : Nat) : Prop where
  bounded : value < base
  congruent : value ≡ total [MOD base - 1]
  zero : value = 0 ↔ total = 0

variable {base} {total value other : Nat}

theorem Represents.unique (first : Represents base total value) (second : Represents base total other) :
    value = other := by
  obtain ⟨below, same, zero⟩ := first
  obtain ⟨under, also, none⟩ := second
  by_cases empty : total = 0
  · rw [zero.mpr empty, none.mpr empty]
  · have positive : value ≠ 0 := fun nothing => empty (zero.mp nothing)
    have present : other ≠ 0 := fun nothing => empty (none.mp nothing)
    have shifted : value - 1 ≡ other - 1 [MOD base - 1] := by
      refine Nat.ModEq.add_right_cancel' 1 ?_
      rw [Nat.sub_add_cancel (by omega), Nat.sub_add_cancel (by omega)]
      exact same.trans also.symm
    have equal := shifted.eq_of_lt_of_lt (by omega) (by omega)
    omega

theorem represents_zero (positive : 0 < base) : Represents base 0 0 := ⟨positive, rfl, by simp⟩

/-- Subtracting the base less one does not change what a sum is congruent to. -/
theorem congruent_of_carry {total carried} (gain : total = carried + (base - 1) * other) :
    carried ≡ total [MOD base - 1] := by
  rw [gain]
  exact (Nat.add_mul_mod_self_left _ _ _).symm

theorem represents_add {word} (positive : 0 < base) (small : word < base)
    (represents : Represents base total value) :
    Represents base (word + total) (add base word value) := by
  obtain ⟨bounded, congruent, zero⟩ := represents
  unfold add
  split
  · exact ⟨by assumption, congruent.add_left word, by omega⟩
  · rename_i long
    refine ⟨by omega, ?_, by omega⟩
    have carried : word + value - (base - 1) ≡ word + value [MOD base - 1] :=
      congruent_of_carry (show word + value = word + value - (base - 1) + (base - 1) * 1 by omega)
    exact carried.trans (congruent.add_left word)

theorem sum_represents (positive : 0 < base) {words} (small : ∀ word ∈ words, word < base) :
    Represents base words.sum (sum base words) := by
  induction words with
  | nil => exact represents_zero positive
  | cons word rest ih =>
      obtain ⟨first, others⟩ := List.forall_mem_cons.mp small
      exact represents_add positive first (ih others)

/-- Every round lowers a sum that does not fit. -/
theorem carry_lt (wide : 2 ≤ base) (long : base ≤ total) : total % base + total / base < total := by
  have split := Nat.div_add_mod total base
  have quotient : 0 < total / base := Nat.div_pos long (by omega)
  have smaller : 2 * (total / base) ≤ base * (total / base) := Nat.mul_le_mul_right _ wide
  omega

theorem carry_congruent (wide : 2 ≤ base) :
    total % base + total / base ≡ total [MOD base - 1] := by
  refine congruent_of_carry (show total = total % base + total / base + (base - 1) * (total / base) from ?_)
  have split := Nat.div_add_mod total base
  have carried : base * (total / base) = (base - 1) * (total / base) + total / base := by
    obtain ⟨pred, rfl⟩ : ∃ pred, base = pred + 1 := ⟨base - 1, by omega⟩
    rw [Nat.add_sub_cancel, Nat.succ_mul]
  omega

theorem fold_represents (wide : 2 ≤ base) {rounds} (enough : total ≤ rounds) :
    Represents base total (fold base rounds total) := by
  induction rounds generalizing total with
  | zero =>
      obtain rfl : total = 0 := by omega
      exact represents_zero (by omega)
  | succ rounds ih =>
      unfold fold
      split
      · rename_i long
        have lower := carry_lt wide long
        obtain ⟨bounded, congruent, zero⟩ := @ih (total % base + total / base) (by omega)
        have quotient : 0 < total / base := Nat.div_pos long (by omega)
        exact ⟨bounded, congruent.trans (carry_congruent wide), zero.trans (by omega)⟩
      · exact ⟨by omega, rfl, Iff.rfl⟩

/-- Carrying at the end is carrying after every addition. -/
theorem fold_eq_sum (wide : 2 ≤ base) {words} (small : ∀ word ∈ words, word < base) {rounds}
    (enough : words.sum ≤ rounds) : fold base rounds words.sum = sum base words :=
  (fold_represents wide enough).unique (sum_represents (by omega) small)

/-- Adding the complement of a sum makes every digit a one. -/
theorem fold_complement (wide : 2 ≤ base) {rounds more} (enough : total ≤ rounds)
    (complement : more = base - 1 - fold base rounds total) {later} (also : total + more ≤ later) :
    fold base later (total + more) = base - 1 := by
  obtain ⟨bounded, congruent, zero⟩ := fold_represents wide enough
  refine (fold_represents wide also).unique ⟨by omega, ?_, by omega⟩
  have filled : fold base rounds total + more = base - 1 := by omega
  calc base - 1 = fold base rounds total + more := filled.symm
    _ ≡ total + more [MOD base - 1] := congruent.add_right more

end OnesComplement
