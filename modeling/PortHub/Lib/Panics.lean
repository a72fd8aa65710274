import PortHub.Lib.Dict

/-! # Computations that may panic

Indexing, slicing, unsigned arithmetic and map lookups of the source stop the
program when they are out of bounds. Here each is a partial operation with one
lemma that says when it succeeds, so that a program written with them is shown
to be total by discharging the bounds.
-/

namespace Panics

inductive Panic where
  | outOfRange (index length : Nat)
  | underflow (a b : Nat)
  | overflow (value : Nat)
  | missingKey
  /-- A loop that did not end within the rounds it was given. -/
  | diverged
  deriving DecidableEq, Repr

abbrev Guarded (α : Type) := Except Panic α

variable {α K V : Type} {items : List α} {keep : α → Guarded Bool}

/-- `xs[i]`. -/
def index (xs : List α) (i : Nat) : Guarded α :=
  match xs[i]? with
  | some x => .ok x
  | none => .error (.outOfRange i xs.length)

/-- `&xs[start..stop]`. -/
def slice (xs : List α) (start stop : Nat) : Guarded (List α) :=
  if start ≤ stop ∧ stop ≤ xs.length then .ok ((xs.take stop).drop start)
  else .error (.outOfRange stop xs.length)

/-- `a - b` of unsigned integers. -/
def sub (a b : Nat) : Guarded Nat := if b ≤ a then .ok (a - b) else .error (.underflow a b)

/-- `a + b` of unsigned integers of the given width. -/
def add (width a b : Nat) : Guarded Nat :=
  if a + b < 2 ^ width then .ok (a + b) else .error (.overflow (a + b))

/-- `map[&key]`. -/
def lookup [DecidableEq K] (m : Dict K V) (key : K) : Guarded V :=
  match m.get? key with
  | some value => .ok value
  | none => .error .missingKey

/-- `items.iter().any(test)`, which stops at the first hit. -/
def anyOf (test : α → Guarded Bool) : List α → Guarded Bool
  | [] => .ok false
  | item :: rest => do if ← test item then return true else anyOf test rest

/-- `items.into_iter().filter(keep).collect()`. -/
def keeping (keep : α → Guarded Bool) : List α → Guarded (List α)
  | [] => .ok []
  | item :: rest => do
      let kept ← keep item
      let others ← keeping keep rest
      return if kept then item :: others else others

theorem index_ok {xs : List α} {i} (default : α) (inside : i < xs.length) :
    index xs i = .ok (xs.getD i default) := by
  simp [index, List.getD, inside]

theorem slice_ok {xs : List α} {start stop} (ordered : start ≤ stop) (inside : stop ≤ xs.length) :
    slice xs start stop = .ok ((xs.take stop).drop start) := by
  simp [slice, ordered, inside]

theorem sub_ok {a b} (below : b ≤ a) : sub a b = .ok (a - b) := by simp [sub, below]

theorem add_ok {width a b} (fits : a + b < 2 ^ width) : add width a b = .ok (a + b) := by
  simp [add, fits]

theorem lookup_ok [DecidableEq K] {m : Dict K V} {key value} (present : m.get? key = some value) :
    lookup m key = .ok value := by simp [lookup, present]

/-- A test that never panics on the items is an ordinary test. -/
theorem anyOf_ok {test : α → Guarded Bool} {pure : α → Bool}
    (total : ∀ item ∈ items, test item = .ok (pure item)) :
    anyOf test items = .ok (items.any pure) := by
  induction items with
  | nil => rfl
  | cons item rest ih =>
      have later := ih fun other member => total other (List.mem_cons_of_mem _ member)
      rw [anyOf, total item List.mem_cons_self, later, List.any_cons]
      cases pure item <;> rfl

theorem mapM_ok {β : Type} {f : α → Guarded β} {pure : α → β}
    (total : ∀ item ∈ items, f item = .ok (pure item)) : items.mapM f = .ok (items.map pure) := by
  induction items with
  | nil => rfl
  | cons item rest ih =>
      have later := ih fun other member => total other (List.mem_cons_of_mem _ member)
      rw [List.mapM_cons, total item List.mem_cons_self, later]
      rfl

theorem keeping_ok {pure : α → Bool} (total : ∀ item ∈ items, keep item = .ok (pure item)) :
    keeping keep items = .ok (items.filter pure) := by
  induction items with
  | nil => rfl
  | cons item rest ih =>
      have later := ih fun other member => total other (List.mem_cons_of_mem _ member)
      rw [keeping, total item List.mem_cons_self, later, List.filter_cons]
      rfl

/-- Whatever a filter keeps was there. -/
theorem keeping_sublist {kept} (result : keeping keep items = .ok kept) :
    kept.Sublist items := by
  induction items generalizing kept with
  | nil => simp [keeping] at result; simp [result]
  | cons item rest ih =>
      simp only [keeping] at result
      cases first : keep item with
      | error panic => simp [first, bind, Except.bind] at result
      | ok hit =>
          cases others : keeping keep rest with
          | error panic => simp [first, others, bind, Except.bind] at result
          | ok tail =>
              have tail := ih others
              simp only [first, others, bind, Except.bind, pure, Except.pure, Except.ok.injEq] at result
              subst result
              cases hit
              · exact tail.cons item
              · exact tail.cons_cons item

/-- `map.into_iter().filter(keep).collect()`. -/
def retain (m : Dict K V) (keep : K → V → Guarded Bool) : Guarded (Dict K V) :=
  match result : keeping (fun entry => keep entry.1 entry.2) m.entries with
  | .ok entries => .ok ⟨entries, m.distinct.sublist ((keeping_sublist result).map _)⟩
  | .error panic => .error panic

theorem retain_ok {m} {keep : K → V → Guarded Bool} {pure : K → V → Bool}
    (total : ∀ key value, keep key value = .ok (pure key value)) :
    retain m keep = .ok (m.retain pure) := by
  have filtered := keeping_ok (fun (entry : K × V) (_ : entry ∈ m.entries) => total entry.1 entry.2)
  unfold retain
  split
  · rename_i entries result
    obtain rfl := Except.ok.inj (result.symm.trans filtered)
    rfl
  · rename_i panic result
    cases result.symm.trans filtered

end Panics
