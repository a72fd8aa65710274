import Mathlib.Data.List.Destutter
import Mathlib.Data.List.Sort

/-! # Ordered sets as sorted lists

A list sorted and freed of repetitions holds the same elements, and bisection
finds exactly its members.
-/

namespace Sorted

variable {α : Type} [LinearOrder α] {x : α} {xs : List α}

/-- Sort, then drop every element equal to the one before it. -/
def arrange (xs : List α) : List α := (xs.insertionSort (· ≤ ·)).destutter (· ≠ ·)

theorem mem_destutter' (x first : α) (rest : List α) :
    x ∈ rest.destutter' (· ≠ ·) first ↔ x = first ∨ x ∈ rest := by
  induction rest generalizing first with
  | nil => simp
  | cons next rest ih =>
      by_cases same : first = next
      · subst same
        simp [List.destutter'_cons_neg, ih]
      · simp [List.destutter'_cons_pos, same, ih]

@[simp] theorem mem_arrange : x ∈ arrange xs ↔ x ∈ xs := by
  have same : x ∈ xs.insertionSort (· ≤ ·) ↔ x ∈ xs := List.mem_insertionSort (· ≤ ·)
  unfold arrange
  cases sorted : xs.insertionSort (· ≤ ·) with
  | nil => simpa [sorted] using same
  | cons first rest => simpa [sorted, List.destutter, mem_destutter'] using same

theorem arrange_sorted (xs : List α) : (arrange xs).Pairwise (· ≤ ·) :=
  (List.pairwise_insertionSort (· ≤ ·) xs).sublist (List.destutter_sublist _ _)

theorem arrange_nodup (xs : List α) : (arrange xs).Nodup := by
  have distinct : (arrange xs).IsChain (· ≠ ·) := List.isChain_destutter _ _
  have increasing : (arrange xs).IsChain (· < ·) :=
    List.isChain_iff_getElem.mpr fun i inside => lt_of_le_of_ne
      ((arrange_sorted xs).isChain.getElem i inside) (distinct.getElem i inside)
  exact increasing.pairwise.imp fun less => less.ne

theorem arrange_idem (xs : List α) : arrange (arrange xs) = arrange xs := by
  have sorted := (arrange_sorted xs).insertionSort_eq
  calc
    arrange (arrange xs) = (arrange xs).destutter (· ≠ ·) := by rw [arrange, sorted]
    _ = arrange xs := List.destutter_idem ..

theorem arrange_length_le (xs : List α) : (arrange xs).length ≤ xs.length :=
  (List.destutter_sublist _ _).length_le.trans_eq (List.length_insertionSort _ _)

/-- Bisection of the window from `lo` up to `hi`. -/
def bisect (xs : List α) (x : α) : Nat → Nat → Nat → Option Nat
  | 0, _, _ => none
  | fuel + 1, lo, hi =>
      let mid := lo + (hi - lo) / 2
      match xs[mid]? with
      | none => none
      | some y =>
          if hi ≤ lo then none
          else if y = x then some mid
          else if y < x then bisect xs x fuel (mid + 1) hi
          else bisect xs x fuel lo mid

def binarySearch (xs : List α) (x : α) : Option Nat := bisect xs x xs.length 0 xs.length

theorem bisect_sound {fuel lo hi i} (found : bisect xs x fuel lo hi = some i) :
    xs[i]? = some x := by
  induction fuel generalizing lo hi with
  | zero => cases found
  | succ fuel ih =>
      simp only [bisect] at found
      split at found
      · cases found
      · rename_i y shown
        split at found
        · cases found
        · split at found
          · rename_i same
            cases found
            rw [shown, same]
          · split at found
            · exact ih found
            · exact ih found

theorem bisect_complete (sorted : xs.Pairwise (· ≤ ·)) {fuel lo hi i} (enough : hi - lo ≤ fuel)
    (left : lo ≤ i) (right : i < hi) (bounded : hi ≤ xs.length) (member : xs[i]? = some x) :
    (bisect xs x fuel lo hi).isSome = true := by
  have ordered : ∀ {j k : Nat} {a b : α}, xs[j]? = some a → xs[k]? = some b → j ≤ k → a ≤ b := by
    intro j k a b first second before
    obtain ⟨_, rfl⟩ := List.getElem?_eq_some_iff.mp first
    obtain ⟨_, rfl⟩ := List.getElem?_eq_some_iff.mp second
    rcases before.lt_or_eq with less | rfl
    · exact List.pairwise_iff_getElem.mp sorted _ _ _ _ less
    · exact le_rfl
  induction fuel generalizing lo hi with
  | zero => omega
  | succ fuel ih =>
      have inside : lo + (hi - lo) / 2 < xs.length := by omega
      have shown := List.getElem?_eq_getElem inside
      simp only [bisect, shown]
      rw [if_neg (by omega)]
      split
      · rfl
      · rename_i different
        split
        · rename_i less
          apply ih (by omega) ?_ right bounded
          by_contra before
          exact absurd (ordered member shown (by omega)) (not_le.mpr less)
        · rename_i greater
          apply ih (by omega) left ?_ (by omega)
          by_contra before
          exact different (le_antisymm (ordered shown member (by omega)) (not_lt.mp greater))

theorem mem_of_binarySearch (found : (binarySearch xs x).isSome = true) :
    x ∈ xs := by
  obtain ⟨i, found⟩ := Option.isSome_iff_exists.mp found
  exact List.mem_of_getElem? (bisect_sound found)

/-- Bisection of a sorted list finds exactly its members. -/
theorem binarySearch_isSome (sorted : xs.Pairwise (· ≤ ·)) (x : α) :
    (binarySearch xs x).isSome = true ↔ x ∈ xs := by
  constructor
  · exact mem_of_binarySearch
  · intro member
    obtain ⟨i, bounded, rfl⟩ := List.mem_iff_getElem.mp member
    exact bisect_complete sorted (by omega) (Nat.zero_le i) bounded le_rfl
      (List.getElem?_eq_getElem bounded)

end Sorted
