import PortHub.Rust

/-! # JSON values and the legacy coercions

Documents and request bodies are JSON. An object keeps its fields in order and a
number keeps its text, so what a number is as a float, and how it is printed, is
given by `Numbers`.
-/

namespace PortHub.Api

inductive Value where
  | null
  | bool (value : Bool)
  | number (text : String)
  | string (text : String)
  | array (items : List Value)
  | object (fields : List (String × Value))

/-- The fields of an object. -/
abbrev Fields := List (String × Value)

/-- What the number reader makes of the text of a number: whether its float is
    zero or one, and the text the coercions print for it. -/
structure Numbers where
  isZero : String → Bool
  isOne : String → Bool
  text : String → String

/-- Integers in their shortest form, which print as they are written. -/
def Numbers.plain : Numbers := ⟨(· == "0"), (· == "1"), id⟩

namespace Value

mutual

/-- Equality of values, where the order of fields does not count. -/
def same : Value → Value → Bool
  | .null, .null => true
  | .bool a, .bool b => a == b
  | .number a, .number b => a == b
  | .string a, .string b => a == b
  | .array xs, .array ys => sameItems xs ys
  | .object xs, .object ys => xs.length == ys.length && sameFields xs ys
  | _, _ => false
termination_by structural value => value

def sameItems : List Value → List Value → Bool
  | [], [] => true
  | x :: xs, y :: ys => same x y && sameItems xs ys
  | _, _ => false

def sameFields : Fields → Fields → Bool
  | [], _ => true
  | x :: xs, ys => sameField x ys && sameFields xs ys

def sameField : String × Value → Fields → Bool
  | (key, value), ys =>
      match ys.lookup key with
      | some other => same value other
      | none => false

end

/-- `value.get(key)`. -/
def get? (value : Value) (key : String) : Option Value :=
  match value with
  | .object fields => fields.lookup key
  | _ => none

/-- `value[key]`, which is null where there is nothing. -/
def at_ (value : Value) (key : String) : Value := (value.get? key).getD .null

def isNull : Value → Bool
  | .null => true
  | _ => false

/-- `value == false`. -/
def isFalse : Value → Bool
  | .bool false => true
  | _ => false

def asStr : Value → Option String
  | .string text => some text
  | _ => none

/-- `as_array().into_iter().flatten()`. -/
def items : Value → List Value
  | .array items => items
  | _ => []

def truthy (numbers : Numbers) : Value → Bool
  | .null => false
  | .bool value => value
  | .number text => !numbers.isZero text
  | .string text => !text.isEmpty
  | .array items => !items.isEmpty
  | .object fields => !fields.isEmpty

def hexDigits (width n : Nat) : List Char :=
  let digits := Nat.toDigits 16 n
  List.replicate (width - digits.length) '0' ++ digits

def isControl (c : Char) : Bool := c.toNat < 32 || (127 ≤ c.toNat && c.toNat < 160)

/-- One character between quotes. -/
def reprChar (quote c : Char) : List Char :=
  if c = '\n' then ['\\', 'n']
  else if c = '\r' then ['\\', 'r']
  else if c = '\t' then ['\\', 't']
  else if c = quote ∨ c = '\\' then ['\\', c]
  else if isControl c then
    if c.toNat ≤ 255 then '\\' :: 'x' :: hexDigits 2 c.toNat else '\\' :: 'u' :: hexDigits 4 c.toNat
  else [c]

def reprString (text : String) : String :=
  let chars := text.toList
  let quote := if chars.contains '\'' && !chars.contains '"' then '"' else '\''
  String.ofList (quote :: chars.flatMap (reprChar quote) ++ [quote])

mutual

def repr (numbers : Numbers) : Value → String
  | .null => "None"
  | .bool true => "True"
  | .bool false => "False"
  | .number text => numbers.text text
  | .string text => reprString text
  | .array items => "[" ++ ", ".intercalate (reprItems numbers items) ++ "]"
  | .object fields => "\x7b" ++ ", ".intercalate (reprFields numbers fields) ++ "\x7d"
termination_by structural value => value

def reprItems (numbers : Numbers) : List Value → List String
  | [] => []
  | item :: rest => repr numbers item :: reprItems numbers rest

def reprFields (numbers : Numbers) : Fields → List String
  | [] => []
  | field :: rest => reprField numbers field :: reprFields numbers rest

def reprField (numbers : Numbers) : String × Value → String
  | (key, value) => reprString key ++ ": " ++ repr numbers value

end

/-- The text a value is coerced to; strings stay as they are. -/
def text (numbers : Numbers) : Value → String
  | .string text => text
  | other => repr numbers other

end Value

/-- `Map::insert`: an existing key keeps its place. -/
def Fields.insert (fields : Fields) (key : String) (value : Value) : Fields :=
  if fields.any fun field => field.1 == key then
    fields.map fun field => if field.1 == key then (key, value) else field
  else fields ++ [(key, value)]

/-- One item of a list that is read as an object. -/
def pair? : Value → Option (String × Value)
  | .array [.string key, value] => some (key, value)
  | .string text =>
      match text.toList with
      | [key, value] => some (key.toString, .string value.toString)
      | _ => none
  | _ => none

def pairs : Fields → List Value → Option Fields
  | fields, [] => some fields
  | fields, item :: rest => do
      let (key, value) ← pair? item
      pairs (fields.insert key value) rest

/-- `dictionary`: an object, or a list of key and value pairs. -/
def dictionary : Value → Option Fields
  | .object fields => some fields
  | .array items => pairs [] items
  | _ => none

/-- `strip`: white space and the information separators at both ends. -/
def isStripped (c : Char) : Bool :=
  Text.isWhiteSpace c || (0x1c ≤ c.toNat && c.toNat ≤ 0x1f)

def strip (text : List Char) : List Char := (text.dropWhile isStripped).rdropWhile isStripped

end PortHub.Api
