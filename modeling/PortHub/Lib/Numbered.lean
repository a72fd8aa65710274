import Mathlib.Data.List.Basic

/-! # Consecutively numbered lists

The items of a log carry their own position. An item is then determined by its
number, the items past a cursor are a suffix, and skipping everything up to a
number drops a known count.
-/

/-- The items carry the numbers `first`, `first + 1` and so on. -/
def Numbered {α : Type} (number : α → Nat) (first : Nat) (items : List α) : Prop :=
  ∀ i item, items[i]? = some item → number item = first + i

namespace Numbered

variable {α : Type} {number : α → Nat} {first : Nat} {items : List α}

theorem nil : Numbered number first [] := by
  intro i item found
  simp at found

section

variable (numbered : Numbered number first items)

include numbered

theorem append {item}
    (next : number item = first + items.length) : Numbered number first (items ++ [item]) := by
  intro i other found
  rw [List.getElem?_append] at found
  split at found
  · exact numbered i other found
  · rw [List.getElem?_singleton] at found
    split at found
    · cases found
      omega
    · cases found

theorem drop (count : Nat) :
    Numbered number (first + count) (items.drop count) := by
  intro i item found
  rw [List.getElem?_drop] at found
  rw [numbered _ _ found, Nat.add_assoc]

/-- The position of an item is read off its number. -/
theorem getElem?_of_mem {item} (member : item ∈ items) :
    first ≤ number item ∧ number item < first + items.length ∧
      items[number item - first]? = some item := by
  obtain ⟨i, bounded, found⟩ := List.mem_iff_getElem.mp member
  have place : items[i]? = some item := List.getElem?_eq_some_iff.mpr ⟨bounded, found⟩
  have position := numbered i item place
  refine ⟨by omega, by omega, ?_⟩
  rwa [position, Nat.add_sub_cancel_left]

theorem unique {item other} (member : item ∈ items)
    (another : other ∈ items) (same : number item = number other) : item = other := by
  have left := (numbered.getElem?_of_mem member).2.2
  have right := (numbered.getElem?_of_mem another).2.2
  rw [same, right] at left
  exact (Option.some.inj left).symm

theorem mem_drop {item} (member : item ∈ items) {count}
    (past : first + count ≤ number item) : item ∈ items.drop count := by
  obtain ⟨_, _, found⟩ := numbered.getElem?_of_mem member
  apply List.mem_of_getElem? (i := number item - first - count)
  rw [List.getElem?_drop, ← found]
  congr 1
  omega

theorem map_number : items.map number = List.range' first items.length := by
  apply List.ext_getElem (by simp)
  intro i left _
  rw [List.length_map] at left
  rw [List.getElem_map, List.getElem_range', Nat.one_mul]
  exact numbered i _ (List.getElem?_eq_getElem left)

/-- Skipping the items up to a number leaves the items after it. -/
theorem dropWhile_le (limit : Nat) :
    items.dropWhile (fun item => decide (number item ≤ limit)) = items.drop (limit + 1 - first) := by
  induction items generalizing first with
  | nil => simp
  | cons item rest ih =>
      have head : number item = first := numbered 0 item rfl
      have tail : Numbered number (first + 1) rest := numbered.drop 1
      by_cases passed : first ≤ limit
      · rw [List.dropWhile_cons_of_pos (by simpa [head] using passed), ih tail]
        obtain ⟨count, exact⟩ : ∃ count, limit + 1 - first = count + 1 := ⟨limit - first, by omega⟩
        rw [exact, List.drop_succ_cons]
        congr 1
        omega
      · rw [List.dropWhile_cons_of_neg (by simpa [head] using passed),
          show limit + 1 - first = 0 by omega, List.drop_zero]

end

end Numbered
