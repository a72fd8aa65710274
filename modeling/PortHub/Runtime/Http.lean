import PortHub.Rust

/-! # Requests and responses of the reverse proxy

Header names are lower case, and a header map is the list of its entries: only
the order of the values under one name is observed. A value is readable as text
when its bytes are visible ASCII. Bodies are a parameter.
-/

namespace PortHub.Runtime

inductive Method where
  | get
  | head
  | other (name : String)
  deriving DecidableEq, Repr

abbrev HeaderValue := List UInt8

/-- `HeaderValue::to_str`. -/
def HeaderValue.toStr (value : HeaderValue) : Option (List Char) :=
  if value.all fun byte => byte == 9 || (32 ≤ byte && byte < 127) then
    some (value.map fun byte => Char.ofNat byte.toNat)
  else none

/-- The value of a text in ASCII. -/
def HeaderValue.ofText (text : List Char) : HeaderValue := text.map fun c => UInt8.ofNat c.toNat

abbrev Headers := List (String × HeaderValue)

namespace Headers

def getAll (headers : Headers) (name : String) : List HeaderValue :=
  (headers.filter fun entry => entry.1 == name).map Prod.snd

def get? (headers : Headers) (name : String) : Option HeaderValue := (headers.getAll name).head?

def containsKey (headers : Headers) (name : String) : Bool := headers.any fun entry => entry.1 == name

def remove (headers : Headers) (name : String) : Headers := headers.filter fun entry => entry.1 != name

def insert (headers : Headers) (name : String) (value : HeaderValue) : Headers :=
  headers.remove name ++ [(name, value)]

def append (headers : Headers) (name : String) (value : HeaderValue) : Headers :=
  headers ++ [(name, value)]

end Headers

/-- What the proxy uses of a body. -/
structure Bodies (β : Type) where
  empty : β
  isEndStream : β → Bool
  text : String → β

structure Request (β : Type) where
  method : Method
  uri : String
  headers : Headers
  body : β

structure Response (β : Type) where
  status : Nat
  headers : Headers
  body : β

end PortHub.Runtime
