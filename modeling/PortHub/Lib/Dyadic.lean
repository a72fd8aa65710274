import Mathlib.Algebra.Ring.Nat
import Mathlib.Order.Basic

/-! # Aligned blocks of powers of two

The block of order `k` around `a` holds the numbers that agree with it above the
lowest `k` bits. Two blocks are nested or have nothing in common.
-/

namespace Dyadic

/-- The number lies in the block of order `k` around `a`. -/
def Block (k a x : Nat) : Prop := x / 2 ^ k = a / 2 ^ k

theorem block_self (k a : Nat) : Block k a a := rfl

/-- A block of a higher order around a member is the block around the centre. -/
theorem Block.widen {i j a x} (order : i ≤ j) (inside : Block i a x) : Block j a x := by
  obtain ⟨d, rfl⟩ := Nat.exists_eq_add_of_le order
  unfold Block at inside ⊢
  rw [Nat.pow_add, ← Nat.div_div_eq_div_mul, ← Nat.div_div_eq_div_mul, inside]

theorem Block.symm {k a b} (inside : Block k a b) : Block k b a := Eq.symm inside

theorem Block.trans {k a b c} (first : Block k a b) (second : Block k b c) : Block k a c :=
  Eq.trans second first

/-- Two blocks meet exactly when one of them holds the centre of the other. -/
theorem meet_iff {i j a b} :
    (∃ x, Block i a x ∧ Block j b x) ↔ Block i a b ∨ Block j b a := by
  constructor
  · rintro ⟨x, left, right⟩
    rcases le_total i j with order | order
    · exact .inr (right.trans (left.widen order).symm)
    · exact .inl (left.trans (right.widen order).symm)
  · rintro (left | right)
    · exact ⟨b, left, block_self j b⟩
    · exact ⟨a, block_self i a, right⟩

/-- The mask of `width` bits whose lowest `k` are clear keeps the rest. -/
theorem and_mask {width k x} (bounded : x < 2 ^ width) :
    x &&& ((2 ^ width - 1) <<< k % 2 ^ width) = x / 2 ^ k * 2 ^ k := by
  rw [← Nat.shiftRight_eq_div_pow, ← Nat.shiftLeft_eq]
  apply Nat.eq_of_testBit_eq
  intro i
  simp only [Nat.testBit_and, Nat.testBit_mod_two_pow, Nat.testBit_shiftLeft,
    Nat.testBit_two_pow_sub_one, Nat.testBit_shiftRight]
  by_cases low : k ≤ i
  · have place : k + (i - k) = i := by omega
    by_cases high : i < width
    · have : i - k < width := by omega
      simp [low, high, this, place]
    · have clear : x.testBit i = false :=
        Nat.testBit_lt_two_pow (lt_of_lt_of_le bounded (Nat.pow_le_pow_right (by decide) (by omega)))
      simp [clear, place]
  · simp [low]

/-- An aligned number is the first of its block. -/
theorem block_iff {k a x} (aligned : a / 2 ^ k * 2 ^ k = a) :
    Block k a x ↔ x / 2 ^ k * 2 ^ k = a := by
  have positive : 0 < 2 ^ k := Nat.two_pow_pos k
  unfold Block
  constructor
  · intro same
    rw [same, aligned]
  · intro same
    rw [← same, Nat.mul_div_cancel _ positive]

end Dyadic
