import Mathlib.Data.List.Basic

/-! # Documents, filters and collections

A document is a list of named fields; a repeated name is shadowed by its first
field. Filters look for scalars, in a field or in the array that it holds. A
database gives every collection its documents, and each operation changes one
collection.
-/

namespace Documents

inductive Scalar (α : Type) where
  | objectId (id : α)
  | text (text : String)
  | bool (value : Bool)
  | int (value : Int)
  | null
  deriving DecidableEq, Repr

inductive Bson (α : Type) where
  | scalar (value : Scalar α)
  | array (items : List (Bson α))
  | document (fields : List (String × Bson α))

abbrev Doc (α : Type) := List (String × Bson α)

variable {κ α : Type}

namespace Bson

def scalar? : Bson α → Option (Scalar α)
  | .scalar value => some value
  | _ => none

def array? : Bson α → Option (List (Bson α))
  | .array items => some items
  | _ => none

def document? : Bson α → Option (Doc α)
  | .document fields => some fields
  | _ => none

def ofScalars (values : List (Scalar α)) : Bson α := .array (values.map .scalar)

section Membership

variable [DecidableEq α]

/-- The value is one of the scalars. -/
def among (ids : List (Scalar α)) : Bson α → Bool
  | .scalar value => ids.contains value
  | _ => false

/-- `$in` on a value: an array has it when one of its items has. -/
def inAny (ids : List (Scalar α)) : Bson α → Bool
  | .array items => items.any (among ids)
  | value => value.among ids

end Membership

end Bson

namespace Doc

def get? (doc : Doc α) (key : String) : Option (Bson α) :=
  (doc.find? fun field => field.1 == key).map Prod.snd

def unset (key : String) (doc : Doc α) : Doc α := doc.filter fun field => field.1 != key

def set (key : String) (value : Bson α) (doc : Doc α) : Doc α := (key, value) :: unset key doc

@[simp] theorem get?_unset_self (key : String) (doc : Doc α) : get? (unset key doc) key = none := by
  simp [get?, unset, List.find?_filter]

theorem get?_unset_ne {key other} (doc : Doc α) (different : other ≠ key) :
    get? (unset key doc) other = get? doc other := by
  unfold get? unset
  rw [List.find?_filter]
  congr 2
  funext field
  by_cases named : field.1 = other
  · simp [named, different]
  · simp [named]

@[simp] theorem get?_set_self (key : String) (value : Bson α) (doc : Doc α) :
    get? (set key value doc) key = some value := by simp [get?, set]

theorem get?_set_ne {key other} (value : Bson α) (doc : Doc α) (different : other ≠ key) :
    get? (set key value doc) other = get? doc other := by
  rw [← get?_unset_ne doc different]
  simp [get?, set, different.symm]

/-- The array of a field, empty when it holds something else. -/
def items (doc : Doc α) (key : String) : List (Bson α) := ((doc.get? key).bind Bson.array?).getD []

/-- The text of a field, empty when it holds something else. -/
def string (doc : Doc α) (key : String) : String :=
  match doc.get? key with
  | some (.scalar (.text text)) => text
  | _ => ""

/-- The field is `false`. -/
def isFalse (doc : Doc α) (key : String) : Bool :=
  match doc.get? key with
  | some (.scalar (.bool false)) => true
  | _ => false

/-- The field is `true`. -/
def isTrue (doc : Doc α) (key : String) : Bool :=
  match doc.get? key with
  | some (.scalar (.bool true)) => true
  | _ => false

def int (doc : Doc α) (key : String) : Int :=
  match doc.get? key with
  | some (.scalar (.int n)) => n
  | _ => 0

section Filters

variable [DecidableEq α]

/-- `$in` on a field. -/
def hasIn (key : String) (ids : List (Scalar α)) (doc : Doc α) : Bool := (doc.get? key).any (·.inAny ids)

/-- `$or` of `$in` on some fields. -/
def anyIn (fields : List (String × List (Scalar α))) (doc : Doc α) : Bool :=
  fields.any fun field => hasIn field.1 field.2 doc

/-- `$pull` of the items that are among the scalars. -/
def pull (key : String) (ids : List (Scalar α)) (doc : Doc α) : Doc α :=
  match doc.get? key with
  | some (.array items) => doc.set key (.array (items.filter fun item => !item.among ids))
  | _ => doc

theorem get?_pull_ne {key other} (ids : List (Scalar α)) (doc : Doc α) (different : other ≠ key) :
    get? (pull key ids doc) other = get? doc other := by
  unfold pull
  split
  · exact get?_set_ne _ _ different
  · rfl

/-- Documents with the same fields under some names are told apart by none of them. -/
theorem anyIn_congr {fields} {doc other : Doc α}
    (same : ∀ field ∈ fields, doc.get? field.1 = other.get? field.1) :
    anyIn fields doc = anyIn fields other := by
  unfold anyIn hasIn
  rw [Bool.eq_iff_iff, List.any_eq_true, List.any_eq_true]
  constructor
  · rintro ⟨field, member, found⟩
    exact ⟨field, member, by rw [← same field member]; exact found⟩
  · rintro ⟨field, member, found⟩
    exact ⟨field, member, by rw [same field member]; exact found⟩

end Filters

end Doc

/-- Every collection with its documents. -/
abbrev Db (κ α : Type) := κ → List (Doc α)

namespace Db

variable [DecidableEq κ]

def change (collection : κ) (f : List (Doc α) → List (Doc α)) (db : Db κ α) : Db κ α :=
  fun other => if other = collection then f (db other) else db other

def deleteMany (collection : κ) (filter : Doc α → Bool) : Db κ α → Db κ α :=
  change collection fun docs => docs.filter fun doc => !filter doc

def updateMany (collection : κ) (filter : Doc α → Bool) (update : Doc α → Doc α) : Db κ α → Db κ α :=
  change collection fun docs => docs.map fun doc => if filter doc then update doc else doc

@[simp] theorem change_self (collection : κ) (f : List (Doc α) → List (Doc α)) (db : Db κ α) :
    change collection f db collection = f (db collection) := by simp [change]

@[simp] theorem change_ne {collection other} (f : List (Doc α) → List (Doc α)) (db : Db κ α)
    (different : other ≠ collection) : change collection f db other = db other := by
  simp [change, different]

end Db

end Documents
