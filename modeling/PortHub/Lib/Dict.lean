import Mathlib.Algebra.Ring.Nat
import Mathlib.Data.List.Nodup

/-! # Finite maps with one entry per key

An unordered map is represented by an association list whose keys are distinct.
Reading a key is therefore the same as membership of its pair, and every
operation is specified by what it does to `get?`. Nothing observes the order of
the list.
-/

/-- A finite map. The field `distinct` makes a duplicated key unrepresentable. -/
structure Dict (K V : Type) where
  entries : List (K × V)
  distinct : (entries.map Prod.fst).Nodup

namespace Dict

variable {K V : Type}

/-- The map without entries. -/
def empty : Dict K V := ⟨[], List.nodup_nil⟩

instance : Inhabited (Dict K V) := ⟨empty⟩

/-- Number of entries. -/
def len (m : Dict K V) : Nat := m.entries.length

def values (m : Dict K V) : List V := m.entries.map Prod.snd

/-- Keep exactly the entries that satisfy the test. -/
def retain (keep : K → V → Bool) (m : Dict K V) : Dict K V where
  entries := m.entries.filter fun entry => keep entry.1 entry.2
  distinct := m.distinct.sublist (List.filter_sublist.map Prod.fst)

/-- Replace or drop every value. -/
def filterMap {W : Type} (f : K → V → Option W) (m : Dict K V) : Dict K W where
  entries := m.entries.filterMap fun entry => (f entry.1 entry.2).map (entry.1, ·)
  distinct := by
    refine m.distinct.sublist ?_
    induction m.entries with
    | nil => simp
    | cons entry rest ih =>
        cases found : f entry.1 entry.2 with
        | none => simpa [found] using ih.cons entry.1
        | some value => simpa [found] using ih

/-- Replace every value. -/
def map {W : Type} (f : K → V → W) (m : Dict K V) : Dict K W where
  entries := m.entries.map fun entry => (entry.1, f entry.1 entry.2)
  distinct := by simpa [Function.comp_def] using m.distinct

/-- The values of a map, counted by a measure. -/
def weight (measure : V → Nat) (m : Dict K V) : Nat := (m.values.map measure).sum

/-- A map whose values only get lighter gets lighter. -/
theorem weight_filterMap_le {W : Type} {measure : V → Nat} {lighter : W → Nat}
    {f : K → V → Option W} (m : Dict K V)
    (shrinks : ∀ key old value, f key old = some value → lighter value ≤ measure old) :
    (m.filterMap f).weight lighter ≤ m.weight measure := by
  obtain ⟨entries, distinct⟩ := m
  simp only [weight, values, filterMap]
  clear distinct
  induction entries with
  | nil => simp
  | cons entry rest ih =>
      cases found : f entry.1 entry.2 with
      | none =>
          simp only [List.filterMap_cons, found, Option.map_none, List.map_cons, List.sum_cons]
          omega
      | some value =>
          have less := shrinks entry.1 entry.2 value found
          simp only [List.filterMap_cons, found, Option.map_some, List.map_cons, List.sum_cons]
          omega

theorem values_map {W : Type} (m : Dict K V) (f : V → W) :
    (m.map fun _ => f).values = m.values.map f := by
  simp [values, map, Function.comp_def]

theorem weight_map_le {W : Type} {measure : V → Nat} {lighter : W → Nat} {f : V → W} (m : Dict K V)
    (shrinks : ∀ value, lighter (f value) ≤ measure value) :
    (m.map fun _ => f).weight lighter ≤ m.weight measure := by
  simp only [weight, values_map, List.map_map]
  induction m.values with
  | nil => simp
  | cons value rest ih =>
      have less := shrinks value
      simp only [List.map_cons, List.sum_cons, Function.comp_apply]
      omega

theorem len_eq_weight (m : Dict K V) : m.len = m.weight fun _ => 1 := by
  simp [len, weight, values, Function.comp_def]

theorem len_retain_le (m : Dict K V) (keep : K → V → Bool) : (m.retain keep).len ≤ m.len :=
  List.length_filter_le _ _

variable [DecidableEq K] {m : Dict K V} {key other : K} {value old : V}

def get? (m : Dict K V) (key : K) : Option V := m.entries.lookup key

def contains (m : Dict K V) (key : K) : Bool := (m.get? key).isSome

def erase (m : Dict K V) (key : K) : Dict K V := m.retain fun k _ => decide (k ≠ key)

/-- Bind the key, replacing an earlier binding. -/
def insert (m : Dict K V) (key : K) (value : V) : Dict K V where
  entries := (key, value) :: (m.erase key).entries
  distinct := by
    refine List.nodup_cons.mpr ⟨?_, (m.erase key).distinct⟩
    simp [erase, retain]

theorem get?_eq_some_iff :
    m.get? key = some value ↔ (key, value) ∈ m.entries := by
  obtain ⟨entries, distinct⟩ := m
  induction entries with
  | nil => simp [get?]
  | cons entry rest ih =>
      obtain ⟨absent, restDistinct⟩ := List.nodup_cons.mp distinct
      obtain ⟨k, v⟩ := entry
      by_cases same : key = k
      · subst same
        have outside : (key, value) ∉ rest := fun member =>
          absent (List.mem_map.mpr ⟨_, member, rfl⟩)
        simp [get?, outside, eq_comm]
      · have missed : (key == k) = false := by simpa using same
        simpa [get?, List.lookup_cons, missed, same] using ih restDistinct

theorem get?_eq_none_iff :
    m.get? key = none ↔ key ∉ m.entries.map Prod.fst := by
  simp only [Option.eq_none_iff_forall_ne_some, ne_eq, get?_eq_some_iff, List.mem_map, Prod.exists,
    exists_eq_right, exists_and_right, not_exists]

/-- Maps that answer every key alike have as many entries. -/
theorem len_eq_of_get? {n : Dict K V} (same : ∀ key, m.get? key = n.get? key) : m.len = n.len := by
  have nodup (o : Dict K V) : o.entries.Nodup := o.distinct.of_map Prod.fst
  refine (List.perm_ext_iff_of_nodup (nodup m) (nodup n)).mpr ?_ |>.length_eq
  rintro ⟨key, value⟩
  rw [← get?_eq_some_iff, ← get?_eq_some_iff, same]

@[simp] theorem get?_empty (key : K) : (empty : Dict K V).get? key = none := rfl

/-- Reading after `retain` reads the old binding and repeats the test. -/
@[simp] theorem get?_retain_eq_some {keep : K → V → Bool} :
    (m.retain keep).get? key = some value ↔ m.get? key = some value ∧ keep key value = true := by
  simp only [get?_eq_some_iff, retain, List.mem_filter]

/-- Nothing is dropped when every entry passes the test. -/
theorem retain_eq_self {keep : K → V → Bool}
    (all : ∀ key value, m.get? key = some value → keep key value = true) : m.retain keep = m := by
  have entries : m.entries.filter (fun entry => keep entry.1 entry.2) = m.entries := by
    rw [List.filter_eq_self]
    intro entry member
    exact all entry.1 entry.2 (get?_eq_some_iff.mpr member)
  unfold retain
  simp only [entries]

theorem get?_retain (m : Dict K V) (keep : K → V → Bool) (key : K) :
    (m.retain keep).get? key = (m.get? key).filter (keep key) := by
  ext value
  simp only [get?_retain_eq_some, Option.filter_eq_some_iff]

@[simp] theorem get?_erase_self (m : Dict K V) (key : K) : (m.erase key).get? key = none := by
  simp only [erase, get?_retain]
  cases m.get? key <;> simp

@[simp] theorem get?_erase_ne (m : Dict K V) (different : other ≠ key) :
    (m.erase key).get? other = m.get? other := by
  simp only [erase, get?_retain]
  cases m.get? other <;> simp [different]

@[simp] theorem get?_insert_self (m : Dict K V) (key : K) (value : V) :
    (m.insert key value).get? key = some value := by
  simp [get?, insert]

@[simp] theorem get?_insert_ne (m : Dict K V) (value : V) (different : other ≠ key) :
    (m.insert key value).get? other = m.get? other := by
  have missed : (other == key) = false := by simpa using different
  calc
    (m.insert key value).get? other = (m.erase key).get? other := by
      simp [get?, insert, List.lookup_cons, missed]
    _ = m.get? other := get?_erase_ne m different

/-- Entries present after an erasure were present before it. -/
theorem get?_of_erase (found : (m.erase key).get? other = some value) :
    other ≠ key ∧ m.get? other = some value := by
  by_cases same : other = key
  · subst same
    simp at found
  · exact ⟨same, by simpa [same] using found⟩

/-- Entries present after an insertion are the new pair or older ones. -/
theorem get?_of_insert {bound} (found : (m.insert key value).get? other = some bound) :
    (other = key ∧ bound = value) ∨ (other ≠ key ∧ m.get? other = some bound) := by
  by_cases same : other = key
  · subst same
    exact .inl ⟨rfl, by simpa using found.symm⟩
  · exact .inr ⟨same, by simpa [same] using found⟩

@[simp] theorem erase_erase (m : Dict K V) (key : K) : (m.erase key).erase key = m.erase key := by
  refine retain_eq_self fun other value found => ?_
  simpa using (get?_of_erase found).1

@[simp] theorem insert_erase (m : Dict K V) (key : K) (value : V) :
    (m.erase key).insert key value = m.insert key value := by
  simp only [insert, erase_erase]

/-- Every binding of the first map is one of the second. -/
def Sub (m n : Dict K V) : Prop := ∀ key value, m.get? key = some value → n.get? key = some value

theorem Sub.refl (m : Dict K V) : m.Sub m := fun _ _ found => found

theorem Sub.trans {n o} (first : m.Sub n) (second : n.Sub o) : m.Sub o :=
  fun key value found => second key value (first key value found)

theorem retain_sub (m : Dict K V) (keep : K → V → Bool) : (m.retain keep).Sub m :=
  fun _ _ found => (get?_retain_eq_some.mp found).1

theorem erase_sub (m : Dict K V) (key : K) : (m.erase key).Sub m := m.retain_sub _

theorem contains_iff :
    m.contains key = true ↔ ∃ value, m.get? key = some value := by
  simp only [contains, Option.isSome_iff_exists]

theorem mem_values_iff :
    value ∈ m.values ↔ ∃ key, m.get? key = some value := by
  simp only [values, List.mem_map, Prod.exists, get?_eq_some_iff, exists_eq_right]

theorem get?_filterMap_eq_some {W : Type} {f : K → V → Option W} {value} :
    (m.filterMap f).get? key = some value ↔
      ∃ old, m.get? key = some old ∧ f key old = some value := by
  simp only [get?_eq_some_iff, filterMap, List.mem_filterMap, Option.map_eq_some_iff, Prod.exists,
    Prod.mk.injEq]
  constructor
  · rintro ⟨_, old, member, _, found, rfl, rfl⟩
    exact ⟨old, member, found⟩
  · rintro ⟨old, member, found⟩
    exact ⟨key, old, member, value, found, rfl, rfl⟩

@[simp] theorem get?_map {W : Type} (m : Dict K V) (f : K → V → W) (key : K) :
    (m.map f).get? key = (m.get? key).map (f key) := by
  ext value
  simp only [get?_eq_some_iff, map, List.mem_map, Prod.exists, Prod.mk.injEq, Option.map_eq_some_iff]
  constructor
  · rintro ⟨_, old, member, rfl, rfl⟩
    exact ⟨old, member, rfl⟩
  · rintro ⟨old, member, rfl⟩
    exact ⟨key, old, member, rfl, rfl⟩

theorem weight_erase (measure : V → Nat) (m : Dict K V) (key : K) :
    (m.erase key).weight measure + ((m.get? key).map measure).getD 0 = m.weight measure := by
  obtain ⟨entries, distinct⟩ := m
  induction entries with
  | nil => simp [erase, retain, weight, values, get?]
  | cons entry rest ih =>
      obtain ⟨k, v⟩ := entry
      obtain ⟨absent, restDistinct⟩ := List.nodup_cons.mp distinct
      have tail := ih restDistinct
      simp only [erase, retain, weight, values, get?, List.lookup_cons, ne_eq, decide_not] at tail ⊢
      by_cases same : key = k
      · subst same
        have whole : rest.filter (fun entry => !decide (entry.1 = key)) = rest := by
          rw [List.filter_eq_self]
          intro entry member
          simp only [Bool.not_eq_true', decide_eq_false_iff_not]
          intro equal
          exact absent (List.mem_map.mpr ⟨entry, member, equal⟩)
        rw [List.filter_cons_of_neg (by simp), whole]
        simp [Nat.add_comm]
      · have missed : (key == k) = false := by simpa using same
        rw [List.filter_cons_of_pos (by simpa using Ne.symm same), missed]
        simp only [List.map_cons, List.sum_cons]
        omega

theorem weight_insert (measure : V → Nat) (m : Dict K V) (key : K) (value : V) :
    (m.insert key value).weight measure = measure value + (m.erase key).weight measure := rfl

theorem weight_remove (measure : V → Nat) (found : m.get? key = some old) :
    (m.erase key).weight measure + measure old = m.weight measure := by
  simpa only [found, Option.map_some, Option.getD_some] using weight_erase measure m key

theorem weight_replace (measure : V → Nat) (found : m.get? key = some old) (new : V) :
    (m.insert key new).weight measure + measure old = m.weight measure + measure new := by
  have removed := weight_remove measure found
  rw [weight_insert]
  omega

theorem weight_add (measure : V → Nat) (absent : m.get? key = none) (new : V) :
    (m.insert key new).weight measure = m.weight measure + measure new := by
  have kept := weight_erase measure m key
  simp only [absent, Option.map_none, Option.getD_none] at kept
  rw [weight_insert]
  omega

theorem len_erase_le (m : Dict K V) (key : K) : (m.erase key).len ≤ m.len := m.len_retain_le _

theorem len_insert_le (m : Dict K V) (key : K) (value : V) : (m.insert key value).len ≤ m.len + 1 :=
  Nat.succ_le_succ (m.len_erase_le key)

/-- A key that is bound is bound again. -/
theorem len_insert_bound (found : m.get? key = some old) (value : V) :
    (m.insert key value).len = m.len := by
  rw [len_eq_weight, len_eq_weight]
  exact Nat.add_right_cancel (weight_replace (fun _ => 1) found value)

/-- Something is bound in a map that has entries. -/
theorem len_pos_of_get? (found : m.get? key = some value) :
    0 < m.len :=
  List.length_pos_of_mem (get?_eq_some_iff.mp found)

end Dict
