import Mathlib.Data.List.Basic

/-! # Splitting a list into pieces

`chunks size` cuts a list into consecutive pieces of `size` items, the last one
possibly shorter. The pieces are never empty and put together give the list.
-/

namespace Chunks

variable {α : Type} {size fuel : Nat} {items : List α}

/-- At most `fuel` pieces from the front of the list. -/
def chunksWithin (size : Nat) : Nat → List α → List (List α)
  | 0, _ => []
  | fuel + 1, items =>
      if items.isEmpty then [] else items.take size :: chunksWithin size fuel (items.drop size)

def chunks (size : Nat) (items : List α) : List (List α) := chunksWithin size items.length items

theorem chunksWithin_flatten (positive : 0 < size) (enough : items.length ≤ fuel) :
    (chunksWithin size fuel items).flatten = items := by
  induction fuel generalizing items with
  | zero =>
      obtain rfl : items = [] := List.eq_nil_of_length_eq_zero (by omega)
      rfl
  | succ fuel ih =>
      unfold chunksWithin
      split
      · rename_i empty
        exact (List.isEmpty_iff.mp empty).symm
      · have rest : (items.drop size).length ≤ fuel := by
          rw [List.length_drop]
          omega
        rw [List.flatten_cons, ih rest, List.take_append_drop]

theorem chunks_flatten (positive : 0 < size) (items : List α) :
    (chunks size items).flatten = items :=
  chunksWithin_flatten positive (Nat.le_refl _)

theorem chunksWithin_sized {piece} (positive : 0 < size)
    (member : piece ∈ chunksWithin size fuel items) : 1 ≤ piece.length ∧ piece.length ≤ size := by
  induction fuel generalizing items with
  | zero => cases member
  | succ fuel ih =>
      unfold chunksWithin at member
      split at member
      · cases member
      · rename_i nonempty
        rcases List.mem_cons.mp member with rfl | later
        · have some := List.length_pos_iff.mpr (mt List.isEmpty_iff.mpr nonempty)
          rw [List.length_take]
          omega
        · exact ih later

theorem chunks_sized {piece} (positive : 0 < size) (member : piece ∈ chunks size items) :
    1 ≤ piece.length ∧ piece.length ≤ size :=
  chunksWithin_sized positive member

/-- Every piece but the last is full, so a bound on the list bounds the count. -/
theorem chunksWithin_length_le {count} (bounded : items.length ≤ count * size) :
    (chunksWithin size fuel items).length ≤ count := by
  induction fuel generalizing items count with
  | zero => exact Nat.zero_le count
  | succ fuel ih =>
      unfold chunksWithin
      split
      · exact Nat.zero_le count
      · rename_i nonempty
        have some := List.length_pos_iff.mpr (mt List.isEmpty_iff.mpr nonempty)
        cases count with
        | zero => omega
        | succ count =>
            have rest : (items.drop size).length ≤ count * size := by
              rw [Nat.succ_mul] at bounded
              rw [List.length_drop]
              omega
            exact Nat.succ_le_succ (ih rest)

theorem chunks_length_le {count} (bounded : items.length ≤ count * size) :
    (chunks size items).length ≤ count :=
  chunksWithin_length_le bounded

theorem chunks_length_pos (nonempty : items ≠ []) :
    0 < (chunks size items).length := by
  cases items with
  | nil => exact absurd rfl nonempty
  | cons item rest => simp [chunks, chunksWithin]

end Chunks
