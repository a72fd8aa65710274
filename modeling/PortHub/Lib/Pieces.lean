import Mathlib.Data.List.Basic

/-! # Pieces of a list between separators

What `List.splitOn` returns, and how it reads back pieces that were joined with a
separator followed by padding.
-/

namespace Pieces

variable {α : Type} [DecidableEq α] {separator : α}

/-- A piece has no separator, and nothing that the list did not have. -/
theorem mem_splitOn {list : List α} {piece} (member : piece ∈ list.splitOn separator) :
    separator ∉ piece ∧ piece.Sublist list := by
  induction list generalizing piece with
  | nil =>
      rw [List.splitOn_nil, List.mem_singleton] at member
      subst member
      exact ⟨List.not_mem_nil, List.nil_sublist _⟩
  | cons head rest ih =>
      rw [List.splitOn_cons_eq_if_modifyHead] at member
      split at member
      · rcases List.mem_cons.mp member with rfl | member
        · exact ⟨List.not_mem_nil, List.nil_sublist _⟩
        · exact ⟨(ih member).1, (ih member).2.cons head⟩
      · rename_i other
        rw [beq_iff_eq] at other
        cases pieces : rest.splitOn separator with
        | nil => exact absurd pieces (List.splitOn_ne_nil separator rest)
        | cons first others =>
            rw [pieces, List.modifyHead_cons] at member
            rcases List.mem_cons.mp member with rfl | member
            · obtain ⟨clear, sub⟩ := ih (pieces ▸ List.mem_cons_self)
              refine ⟨?_, sub.cons_cons head⟩
              intro inside
              rcases List.mem_cons.mp inside with same | inside
              · exact other same.symm
              · exact clear inside
            · obtain ⟨clear, sub⟩ := ih (pieces ▸ List.mem_cons_of_mem _ member)
              exact ⟨clear, sub.cons head⟩

/-- After a trailing separator there is an empty piece, besides the first one. -/
theorem splitOn_concat (list : List α) :
    ∃ first others, (list ++ [separator]).splitOn separator = first :: others ∧ [] ∈ others := by
  induction list with
  | nil => exact ⟨[], [[]], by simp [List.splitOn_cons_eq_if_modifyHead], List.mem_singleton.mpr rfl⟩
  | cons head rest ih =>
      obtain ⟨first, others, pieces, empty⟩ := ih
      rw [List.cons_append, List.splitOn_cons_eq_if_modifyHead, pieces]
      split
      · exact ⟨[], first :: others, rfl, List.mem_cons_of_mem _ empty⟩
      · exact ⟨head :: first, others, rfl, empty⟩

theorem splitOn_append_of_not_mem {front} (clear : separator ∉ front) (list : List α) :
    (front ++ list).splitOn separator = (list.splitOn separator).modifyHead (front ++ ·) := by
  induction front with
  | nil =>
      rw [List.nil_append]
      cases list.splitOn separator <;> rfl
  | cons head rest ih =>
      rw [List.mem_cons, not_or] at clear
      have other : (head == separator) = false := beq_eq_false_iff_ne.mpr (Ne.symm clear.1)
      rw [List.cons_append, List.splitOn_cons_eq_if_modifyHead, other, ih clear.2]
      cases list.splitOn separator <;> rfl

/-- The pieces that a separator ends. -/
def complete (separator : α) (list : List α) : List (List α) := (list.splitOn separator).dropLast

/-- What follows the last separator. -/
def leftover (separator : α) (list : List α) : List α := (list.splitOn separator).getLastD []

theorem complete_append_cons (front list : List α) :
    complete separator (front ++ separator :: list) = front.splitOn separator ++ complete separator list := by
  rw [complete, List.splitOn_append_cons_self, List.dropLast_append_of_ne_nil (List.splitOn_ne_nil _ _)]
  rfl

theorem leftover_append_cons (front list : List α) :
    leftover separator (front ++ separator :: list) = leftover separator list := by
  unfold leftover
  rw [List.splitOn_append_cons_self, List.getLastD_eq_getLast?, List.getLastD_eq_getLast?,
    List.getLast?_append_of_ne_nil _ (List.splitOn_ne_nil _ _)]

theorem complete_of_not_mem {list} (clear : separator ∉ list) : complete separator list = [] := by
  rw [complete, ← List.append_nil list, splitOn_append_of_not_mem clear]
  rfl

theorem leftover_of_not_mem {list} (clear : separator ∉ list) : leftover separator list = list := by
  have pieces := splitOn_append_of_not_mem clear []
  rw [List.append_nil] at pieces
  rw [leftover, pieces]
  simp

/-- A map that keeps separators apart from everything else keeps the pieces. -/
theorem splitOn_map {f : α → α} (own : f separator = separator)
    (apart : ∀ a, f a = separator → a = separator) (list : List α) :
    (list.map f).splitOn separator = (list.splitOn separator).map (List.map f) := by
  induction list with
  | nil => simp
  | cons head rest ih =>
      have same : (f head == separator) = (head == separator) := by
        rw [Bool.eq_iff_iff, beq_iff_eq, beq_iff_eq]
        exact ⟨apart head, fun equal => equal ▸ own⟩
      rw [List.map_cons, List.splitOn_cons_eq_if_modifyHead, List.splitOn_cons_eq_if_modifyHead, same,
        ih]
      split
      · simp
      · cases rest.splitOn separator <;> simp

omit [DecidableEq α] in
theorem intercalate_cons_cons (join first second : List α) (others : List (List α)) :
    join.intercalate (first :: second :: others) =
      first ++ join ++ join.intercalate (second :: others) := by
  simp [List.intercalate, List.intersperse]

omit [DecidableEq α] in
theorem intercalate_append_head (join front head : List α) (others : List (List α)) :
    join.intercalate ((front ++ head) :: others) = front ++ join.intercalate (head :: others) := by
  cases others with
  | nil => simp [List.intercalate]
  | cons next rest => simp [List.intercalate, List.intersperse]

omit [DecidableEq α] in
theorem intercalate_append {join : List α} {front back} (nonempty : front ≠ [])
    (filled : back ≠ []) :
    join.intercalate (front ++ back) = join.intercalate front ++ join ++ join.intercalate back := by
  induction front with
  | nil => exact absurd rfl nonempty
  | cons first others ih =>
      cases others with
      | nil =>
          cases back with
          | nil => exact absurd rfl filled
          | cons next rest => simp [List.intercalate, List.intersperse]
      | cons next rest =>
          rw [List.cons_append, List.cons_append, intercalate_cons_cons, intercalate_cons_cons,
            ← List.cons_append, ih (by simp)]
          simp

omit [DecidableEq α] in
theorem mem_intercalate {join : List α} {pieces a} (member : a ∈ join.intercalate pieces) :
    a ∈ join ∨ ∃ piece ∈ pieces, a ∈ piece := by
  induction pieces with
  | nil => exact absurd member List.not_mem_nil
  | cons first others ih =>
      cases others with
      | nil => exact .inr ⟨first, List.mem_cons_self, by simpa [List.intercalate] using member⟩
      | cons next rest =>
          rw [intercalate_cons_cons, List.mem_append, List.mem_append] at member
          rcases member with (inside | joined) | later
          · exact .inr ⟨first, List.mem_cons_self, inside⟩
          · exact .inl joined
          · rcases ih later with joined | ⟨piece, listed, inside⟩
            · exact .inl joined
            · exact .inr ⟨piece, List.mem_cons_of_mem _ listed, inside⟩

omit [DecidableEq α] in
/-- Padding after a separator belongs to the next piece. -/
theorem intercalate_pad (padding first : List α) (others : List (List α)) :
    (separator :: padding).intercalate (first :: others) =
      [separator].intercalate (first :: others.map (padding ++ ·)) := by
  induction others generalizing first with
  | nil => rfl
  | cons next rest ih =>
      rw [intercalate_cons_cons, List.map_cons, intercalate_cons_cons, intercalate_append_head, ih next]
      simp

/-- Pieces that were joined with padding are read back with it. -/
theorem splitOn_join {padding first others} (plain : separator ∉ padding)
    (clear : ∀ piece ∈ first :: others, separator ∉ piece) :
    ((separator :: padding).intercalate (first :: others)).splitOn separator =
      first :: others.map (padding ++ ·) := by
  rw [intercalate_pad, List.splitOn_intercalate]
  · intro piece member
    rcases List.mem_cons.mp member with rfl | member
    · exact clear _ List.mem_cons_self
    · obtain ⟨other, listed, rfl⟩ := List.mem_map.mp member
      intro inside
      rcases List.mem_append.mp inside with padded | inside
      · exact plain padded
      · exact clear other (List.mem_cons_of_mem _ listed) inside
  · simp

end Pieces
