import Mathlib.Data.List.Basic

/-! # Lines

A list is cut after every item that ends a line; what follows the last of them is
a line too. The places where the lines begin, and where the last one ends, let
any run of lines be cut out of the list.
-/

namespace Lines

variable {α : Type} (ends : α → Bool)

def lines : List α → List (List α)
  | [] => []
  | item :: rest =>
      if ends item then [item] :: lines rest
      else
        match lines rest with
        | [] => [[item]]
        | first :: others => (item :: first) :: others

theorem lines_flatten (items : List α) : (lines ends items).flatten = items := by
  induction items with
  | nil => rfl
  | cons item rest ih =>
      unfold lines
      split
      · rw [List.flatten_cons, ih, List.singleton_append]
      · split
        · rename_i empty
          rw [empty] at ih
          rw [← ih]
          rfl
        · rename_i first others found
          rw [found, List.flatten_cons] at ih
          rw [List.flatten_cons, List.cons_append, ih]

theorem lines_eq_nil {items} : lines ends items = [] ↔ items = [] := by
  constructor
  · intro empty
    rw [← lines_flatten ends items, empty]
    rfl
  · rintro rfl
    rfl

/-- There is a line for every item that ends one, and one more if the list does
    not end with such an item. -/
theorem lines_length (items : List α) :
    (lines ends items).length = items.countP ends + if items.getLast?.all ends then 0 else 1 := by
  induction items with
  | nil => rfl
  | cons item rest ih =>
      unfold lines
      split
      · rename_i closes
        rw [List.length_cons, ih, List.countP_cons_of_pos closes]
        cases rest with
        | nil => simp [closes]
        | cons next others =>
            rw [List.getLast?_cons_cons]
            omega
      · rename_i continues
        rw [List.countP_cons_of_neg continues]
        split
        · rename_i empty
          obtain rfl := (lines_eq_nil ends).mp empty
          simp [continues]
        · rename_i first others found
          rw [found] at ih
          rw [List.length_cons, ← List.length_cons (a := first), ih]
          cases rest with
          | nil => cases found
          | cons next more => rw [List.getLast?_cons_cons]

/-- Where the lines begin, and where the last one ends. -/
def bounds : Nat → List (List α) → List Nat
  | start, [] => [start]
  | start, line :: rest => start :: bounds (start + line.length) rest

variable {ends}

theorem bounds_length (start : Nat) (lines : List (List α)) :
    (bounds start lines).length = lines.length + 1 := by
  induction lines generalizing start with
  | nil => rfl
  | cons line rest ih => rw [bounds, List.length_cons, ih, List.length_cons]

theorem bounds_get (start : Nat) (lines : List (List α)) {count} (inside : count ≤ lines.length) :
    (bounds start lines)[count]? = some (start + (lines.take count).flatten.length) := by
  induction lines generalizing start count with
  | nil =>
      obtain rfl : count = 0 := Nat.le_zero.mp inside
      rfl
  | cons line rest ih =>
      cases count with
      | zero => rfl
      | succ count =>
          rw [bounds, List.getElem?_cons_succ, ih _ (Nat.le_of_succ_le_succ inside), List.take_succ_cons,
            List.flatten_cons, List.length_append, Nat.add_assoc]

/-- Some lines, cut out of the list at their bounds. -/
theorem flatten_slice (lines : List (List α)) {first last} (ordered : first ≤ last) :
    (lines.flatten.take (lines.take last).flatten.length).drop (lines.take first).flatten.length =
      ((lines.take last).drop first).flatten := by
  have front : lines.flatten = (lines.take last).flatten ++ (lines.drop last).flatten := by
    rw [← List.flatten_append, List.take_append_drop]
  have earlier : (lines.take last).flatten =
      (lines.take first).flatten ++ ((lines.take last).drop first).flatten := by
    rw [← Nat.min_eq_left ordered, ← List.take_take, Nat.min_eq_left ordered, ← List.flatten_append,
      List.take_append_drop]
  rw [front, List.take_left, earlier, List.drop_left]

end Lines
