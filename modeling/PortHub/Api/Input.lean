import PortHub.Api.Json

/-! # Validation of request objects

A `Model` reads the fields of one object in declared order and collects every
error with its location. The checks run in a state monad, so a definition reads
like the sequence of calls it stands for. Errors are only ever added.
-/

namespace PortHub.Api

inductive Loc where
  | key (name : String)
  | index (position : Nat)
  deriving DecidableEq, Repr

structure FieldError where
  loc : List Loc
  msg : String
  type : String
  ctx : Option Fields

/-- A response that refuses a request. -/
inductive ApiError where
  | status (code : Nat) (detail : String)
  | validation (errors : List FieldError)

abbrev ApiResult (α : Type) := Except ApiError α

def ApiError.badRequest (detail : String) : ApiError := .status 400 detail

structure Model where
  object : Fields
  location : List Loc
  errors : List FieldError

/-- A step of a validation. -/
abbrev Check (α : Type) := StateM Model α

namespace Model

/-- `Model::new`: only objects are read. -/
def new : Value → ApiResult Model
  | .object fields => .ok ⟨fields, [.key "body"], []⟩
  | .null => .error (.validation [⟨[.key "body"], "field required", "value_error.missing", none⟩])
  | _ => .error (.validation [⟨[.key "body"], "value is not a valid dict", "type_error.dict", none⟩])

def isValid (model : Model) : Bool := model.errors.isEmpty

/-- No error names the field. -/
def fieldValid (model : Model) (key : String) : Bool :=
  !model.errors.any fun error => error.loc[model.location.length]? == some (.key key)

def field (model : Model) (key : String) : Option Value := model.object.lookup key

def finish (model : Model) : ApiResult Unit :=
  if model.errors.isEmpty then .ok () else .error (.validation model.errors)

/-- The text of a value that is accepted as a string. -/
def stringOf (numbers : Numbers) : Value → Option String
  | .string text => some text
  | .number text => some (numbers.text text)
  | .bool true => some "True"
  | .bool false => some "False"
  | _ => none

/-- The values that count as booleans. -/
def boolOf (numbers : Numbers) : Value → Option Bool
  | .bool value => some value
  | .number text =>
      if numbers.isZero text then some false else if numbers.isOne text then some true else none
  | .string text =>
      let lower := String.ofList (Text.toAsciiLowercase text.toList)
      if ["1", "true", "t", "on", "yes", "y"].contains lower then some true
      else if ["0", "false", "f", "off", "no", "n"].contains lower then some false
      else none
  | _ => none

end Model

namespace Check

open Model

theorem bind_run {α β : Type} (first : Check α) (next : α → Check β) (before : Model) :
    (first >>= next).run before = (next (first.run before).1).run (first.run before).2 := by
  rfl

theorem get_run (before : Model) : (get : Check Model).run before = (before, before) := rfl

/-- `add_at` without an index: record an error at a field. -/
def addAt (key msg type : String) (ctx : Option Fields) : Check Unit :=
  modify fun model =>
    { model with errors := model.errors ++ [⟨model.location ++ [.key key], msg, type, ctx⟩] }

def add (key msg type : String) : Check Unit := addAt key msg type none

def missing (key : String) : Check Unit := add key "field required" "value_error.missing"

def null (key : String) : Check Unit :=
  add key "none is not an allowed value" "type_error.none.not_allowed"

def requiredString (numbers : Numbers) (key : String) : Check String := do
  match (← get).field key with
  | none =>
      missing key
      return ""
  | some .null =>
      null key
      return ""
  | some value =>
      match stringOf numbers value with
      | some text => return text
      | none =>
          add key "str type expected" "type_error.str"
          return ""

def stringLength (key value : String) (minimum maximum : Nat) : Check Unit := do
  if (← get).fieldValid key then
    let size := value.length
    if size < minimum then
      addAt key s!"ensure this value has at least {minimum} characters"
        "value_error.any_str.min_length" (some [("limit_value", .number (toString minimum))])
    else if maximum < size then
      addAt key s!"ensure this value has at most {maximum} characters"
        "value_error.any_str.max_length" (some [("limit_value", .number (toString maximum))])

def requiredBool (numbers : Numbers) (key : String) : Check Bool := do
  match (← get).field key with
  | none =>
      missing key
      return false
  | some .null =>
      null key
      return false
  | some value =>
      match boolOf numbers value with
      | some parsed => return parsed
      | none =>
          add key "value could not be parsed to a boolean" "type_error.bool"
          return false

def list (key : String) : Check (List Value) := do
  match (← get).field key with
  | none => return []
  | some (.array values) => return values
  | some .null =>
      null key
      return []
  | some _ =>
      add key "value is not a valid list" "type_error.list"
      return []

def boundedList (key : String) (required : Bool) (minimum maximum : Nat) : Check (List Value) := do
  if ((← get).field key).isNone && required then
    missing key
    return []
  else
    let values ← list key
    if !(← get).fieldValid key then return []
    else if values.length < minimum then
      addAt key s!"ensure this value has at least {minimum} items" "value_error.list.min_items"
        (some [("limit_value", .number (toString minimum))])
      return []
    else if maximum < values.length then
      addAt key s!"ensure this value has at most {maximum} items" "value_error.list.max_items"
        (some [("limit_value", .number (toString maximum))])
      return []
    else return values

/-- The model of one item of a list of objects. -/
def child (key : String) (location : List Loc) (value : Value) (index : Nat) : Model :=
  let location := location ++ [.key key, .index index]
  match dictionary value with
  | some object => ⟨object, location, []⟩
  | none =>
      if value.isNull then
        ⟨[], location, [⟨location, "none is not an allowed value", "type_error.none.not_allowed", none⟩]⟩
      else ⟨[], location, [⟨location, "value is not a valid dict", "type_error.dict", none⟩]⟩

def objects (key : String) (required : Bool) (minimum maximum : Nat) : Check (List Model) := do
  let values ← boundedList key required minimum maximum
  let location := (← get).location
  return values.zipIdx.map fun (value, index) => child key location value index

def merge (child : Model) : Check Unit :=
  modify fun model => { model with errors := model.errors ++ child.errors }

def literal (key default : String) (permitted : List String) : Check String := do
  match (← get).field key with
  | none => return default
  | some .null =>
      null key
      return ""
  | some value =>
      match value.asStr.filter permitted.contains with
      | some text => return text
      | none =>
          let names := ", ".intercalate (permitted.map fun name => "'" ++ name ++ "'")
          addAt key s!"unexpected value; permitted: {names}" "value_error.const"
            (some [("given", value), ("permitted", .array (permitted.map .string))])
          return ""

end Check

end PortHub.Api
