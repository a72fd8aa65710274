import Mathlib.Data.Nat.Digits.Lemmas

/-! # Decimal numerals

The shortest decimal text of a number, and the number a decimal text stands for.
-/

namespace Decimal

def digit (n : Nat) : Char := Char.ofNat (48 + n)

def render (n : Nat) : List Char :=
  if n = 0 then ['0'] else ((Nat.digits 10 n).map digit).reverse

def value (text : List Char) : Nat := text.foldl (fun total c => total * 10 + (c.toNat - 48)) 0

variable {n : Nat} {c : Char}

theorem digit_toNat (small : n < 10) : (digit n).toNat = 48 + n := by
  interval_cases n <;> rfl

theorem digit_isDigit (small : n < 10) : (digit n).isDigit = true := by
  interval_cases n <;> rfl

/-- Every character is the digit of a number below ten. -/
theorem mem_render (member : c ∈ render n) : ∃ d < 10, c = digit d := by
  unfold render at member
  split at member
  · exact ⟨0, by decide, List.mem_singleton.mp member⟩
  · obtain ⟨d, inside, rfl⟩ := List.mem_map.mp (List.mem_reverse.mp member)
    exact ⟨d, Nat.digits_lt_base (by decide) inside, rfl⟩

theorem render_isDigit (member : c ∈ render n) : c.isDigit = true := by
  obtain ⟨d, small, rfl⟩ := mem_render member
  exact digit_isDigit small

theorem render_ne_nil (n : Nat) : render n ≠ [] := by
  unfold render
  split
  · simp
  · rename_i positive
    rw [Ne, List.reverse_eq_nil_iff, List.map_eq_nil_iff]
    exact Nat.digits_ne_nil_iff_ne_zero.mpr positive

/-- The value of a text is that of its digits, the last one first. -/
theorem value_digits {digits} (small : ∀ d ∈ digits, d < 10) :
    value (digits.map digit).reverse = Nat.ofDigits 10 digits := by
  induction digits with
  | nil => rfl
  | cons d rest ih =>
      have tail := ih fun other member => small other (List.mem_cons_of_mem d member)
      have head := digit_toNat (small d List.mem_cons_self)
      simp only [value, List.map_cons, List.reverse_cons, List.foldl_append, List.foldl_cons,
        List.foldl_nil, Nat.ofDigits_cons] at tail ⊢
      omega

theorem value_render (n : Nat) : value (render n) = n := by
  unfold render
  split
  · rename_i zero
    exact zero.symm
  · rw [value_digits fun d member => Nat.digits_lt_base (by decide) member, Nat.ofDigits_digits]

theorem render_injective {m} (same : render m = render n) : m = n := by
  rw [← value_render m, same, value_render]

theorem render_length_le {k} (positive : 0 < k) (bounded : n < 10 ^ k) :
    (render n).length ≤ k := by
  unfold render
  split
  · exact positive
  · rw [List.length_reverse, List.length_map]
    exact (Nat.digits_length_le_iff (by decide) n).mpr bounded

/-- Only zero is written with a leading zero. -/
theorem render_head (leading : (render n).head? = some '0') : n = 0 := by
  unfold render at leading
  split at leading
  · assumption
  · rename_i positive
    have nonempty : Nat.digits 10 n ≠ [] := Nat.digits_ne_nil_iff_ne_zero.mpr positive
    have last := Nat.getLast_digit_ne_zero 10 positive
    have small := Nat.digits_lt_base (by decide : 1 < 10) (List.getLast_mem nonempty)
    rw [List.head?_reverse, List.getLast?_map, List.getLast?_eq_some_getLast nonempty] at leading
    have zero := congrArg Char.toNat (Option.some.inj leading)
    rw [digit_toNat small] at zero
    have : ('0' : Char).toNat = 48 := rfl
    omega

end Decimal
