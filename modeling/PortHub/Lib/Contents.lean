import Mathlib.Data.List.Basic

/-! # Contents of files

A file is a list of bytes. A write at an offset replaces what is there and
extends the file; a gap before the offset is filled.
-/

namespace Contents

variable {α : Type}

/-- Write `data` at `offset`, filling a gap with `zero`. -/
def writeAt (zero : α) (content : List α) (offset : Nat) (data : List α) : List α :=
  content.take offset ++ List.replicate (offset - content.length) zero ++ data ++
    content.drop (offset + data.length)

/-- A write at the end of a file appends. -/
theorem writeAt_end (zero : α) (content data : List α) :
    writeAt zero content content.length data = content ++ data := by
  unfold writeAt
  rw [List.take_length, Nat.sub_self, List.replicate_zero, List.append_nil,
    List.drop_eq_nil_of_le (Nat.le_add_right _ _), List.append_nil]

/-- Reading on from a position. -/
theorem take_read (content : List α) (position count : Nat) :
    content.take (position + ((content.drop position).take count).length) =
      content.take position ++ (content.drop position).take count := by
  rw [List.take_add, List.length_take, ← List.take_take, List.take_length]

end Contents
