import PortHub.Egress.Proxy

/-! # HTTP requests on a byte stream

What a client sends and what an upstream reads: heads of CRLF-terminated lines,
each followed by a body whose length the reader derives from the head. A plain
message is read back by the upstream, and the proxy reads exactly its head.
-/

namespace PortHub.Egress

open Bytes

/-- A request as its sender writes it. The value of a field is everything behind
    the colon. -/
structure Message where
  method : Bytes
  target : Bytes
  version : Bytes
  fields : List (Bytes × Bytes)
  body : Bytes
  deriving DecidableEq, Repr

/-- A request head as a reader sees it. -/
structure Head where
  method : Bytes
  target : Bytes
  version : Bytes
  fields : List (Bytes × Bytes)
  deriving DecidableEq, Repr

def fieldLine (field : Bytes × Bytes) : Bytes := field.1 ++ 58 :: field.2

namespace Message

def requestLine (message : Message) : Bytes :=
  message.method ++ [32] ++ message.target ++ [32] ++ message.version

def lines (message : Message) : List Bytes := message.requestLine :: message.fields.map fieldLine

def head (message : Message) : Bytes := (message.lines.flatMap fun line => line ++ crlf) ++ crlf

def bytes (message : Message) : Bytes := message.head ++ message.body

def parsed (message : Message) : Head :=
  ⟨message.method, message.target, message.version, message.fields⟩

end Message

def visible (byte : UInt8) : Bool := decide (32 < byte) && decide (byte < 127)

/-- The grammar of a head: visible words, and field lines without line breaks. -/
structure Message.Plain (message : Message) : Prop where
  method : message.method ≠ [] ∧ ∀ byte ∈ message.method, visible byte = true
  target : message.target ≠ [] ∧ ∀ byte ∈ message.target, visible byte = true
  version : message.version = utf8 "HTTP/1.1" ∨ message.version = utf8 "HTTP/1.0"
  fields : ∀ field ∈ message.fields, 58 ∉ field.1 ∧ 13 ∉ fieldLine field ∧ 10 ∉ fieldLine field

/-- The next line of a stream. -/
def readLine : Bytes → Option (Bytes × Bytes)
  | 13 :: 10 :: rest => some ([], rest)
  | byte :: rest => (readLine rest).map fun result => (byte :: result.1, result.2)
  | [] => none

/-- The fields up to the empty line. -/
def readFields : Nat → Bytes → Option (List (Bytes × Bytes) × Bytes)
  | 0, _ => none
  | rounds + 1, stream => do
      let (line, rest) ← readLine stream
      if line.isEmpty then some ([], rest)
      else
        let field ← splitOnce 58 line
        let (others, rest) ← readFields rounds rest
        some (field :: others, rest)

def readHead (stream : Bytes) : Option (Head × Bytes) := do
  let (line, rest) ← readLine stream
  let (method, line) ← splitOnce 32 line
  let (target, version) ← splitOnce 32 line
  let (fields, rest) ← readFields stream.length rest
  some (⟨method, target, version, fields⟩, rest)

def named (name : String) (field : Bytes × Bytes) : Bool := eqIgnoreAsciiCase field.1 (utf8 name)

/-- Fields that concern the message and not the connection to the proxy. -/
def endToEnd (field : Bytes × Bytes) : Bool :=
  !named "proxy-authorization" field && !named "proxy-connection" field && !named "connection" field

/-- How a reader finds the end of a body: a function of the head and the bytes
    behind it, unaffected by fields that concern the connection only. -/
structure Framing where
  bodyLength : Head → Bytes → Option Nat
  ignores : ∀ head other : Head, head.method = other.method → head.version = other.version →
    head.fields.filter endToEnd = other.fields.filter endToEnd → bodyLength head = bodyLength other

/-- The heads of the requests that a reader finds on a stream. -/
def requests (framing : Framing) : Nat → Bytes → List Head
  | 0, _ => []
  | rounds + 1, stream =>
      match readHead stream with
      | none => []
      | some (head, rest) =>
          match framing.bodyLength head rest with
          | none => [head]
          | some length => head :: requests framing rounds (rest.drop length)

/-- The body ends where its reader thinks. -/
structure Message.Framed (framing : Framing) (message : Message) : Prop where
  whole : ∀ rest, framing.bodyLength message.parsed (message.body ++ rest) = some message.body.length
  part : ∀ front, front <+: message.body → front ≠ message.body →
    framing.bodyLength message.parsed front = none

section Lines

variable {line rest : Bytes}

theorem readLine_plain (clear : 13 ∉ line) : readLine (line ++ (crlf ++ rest)) = some (line, rest) := by
  induction line with
  | nil => rfl
  | cons byte line ih =>
      have other : byte ≠ 13 := fun same => clear (same ▸ List.mem_cons_self)
      rw [List.cons_append, readLine, ih fun member => clear (List.mem_cons_of_mem _ member)]
      · rfl
      · intro rest same
        exact absurd same other

theorem splitOnce_plain {separator first second} (clear : separator ∉ first) :
    splitOnce separator (first ++ separator :: second) = some (first, second) := by
  have stays : ∀ byte ∈ first, (byte != separator) = true := by
    intro byte member
    simp only [bne_iff_ne]
    rintro rfl
    exact clear member
  unfold splitOnce
  rw [if_pos (by simp), List.takeWhile_append_of_pos stays, List.dropWhile_append_of_pos stays]
  simp

end Lines

section Words

variable {word rest : Bytes}

theorem visible_ne {byte other} (seen : visible byte = true) (unseen : visible other = false) :
    byte ≠ other := by
  rintro rfl
  simp [seen] at unseen

end Words

namespace Message

variable {message : Message} {rest : Bytes}

theorem Plain.version_visible (plain : message.Plain) :
    message.version ≠ [] ∧ ∀ byte ∈ message.version, visible byte = true := by
  rcases plain.version with same | same <;> rw [same] <;> decide +kernel

theorem visible_clear {word : Bytes} (seen : ∀ byte ∈ word, visible byte = true) {other : UInt8}
    (unseen : visible other = false) : other ∉ word :=
  fun member => visible_ne (seen other member) unseen rfl

/-- No line of a plain head has a line break, and none is empty. -/
theorem Plain.lines (plain : message.Plain) :
    ∀ line ∈ message.lines, 13 ∉ line ∧ 10 ∉ line ∧ line ≠ [] := by
  intro line member
  rcases List.mem_cons.mp member with rfl | member
  · have unbroken : ∀ byte ∈ message.requestLine, byte ≠ 13 ∧ byte ≠ 10 := by
      have word {w : Bytes} (seen : ∀ byte ∈ w, visible byte = true) :
          ∀ byte ∈ w, byte ≠ 13 ∧ byte ≠ 10 :=
        fun byte inside => ⟨visible_ne (seen byte inside) rfl, visible_ne (seen byte inside) rfl⟩
      intro byte inside
      simp only [requestLine, List.mem_append, List.mem_singleton] at inside
      rcases inside with (((inside | rfl) | inside) | rfl) | inside
      · exact word plain.method.2 byte inside
      · decide
      · exact word plain.target.2 byte inside
      · decide
      · exact word plain.version_visible.2 byte inside
    refine ⟨fun inside => (unbroken 13 inside).1 rfl, fun inside => (unbroken 10 inside).2 rfl, ?_⟩
    simp [requestLine]
  · obtain ⟨field, inside, rfl⟩ := List.mem_map.mp member
    obtain ⟨_, noReturn, noFeed⟩ := plain.fields field inside
    exact ⟨noReturn, noFeed, by simp [fieldLine]⟩

theorem readFields_fields {fields rounds}
    (clear : ∀ field ∈ fields, 58 ∉ field.1 ∧ 13 ∉ fieldLine field)
    (enough : fields.length < rounds) :
    readFields rounds ((fields.map fieldLine).flatMap (fun line => line ++ crlf) ++ (crlf ++ rest)) =
      some (fields, rest) := by
  induction fields generalizing rounds with
  | nil =>
      obtain ⟨rounds, rfl⟩ : ∃ r, rounds = r + 1 := ⟨rounds - 1, by simp at enough; omega⟩
      simp only [List.map_nil, List.flatMap_nil, List.nil_append, readFields]
      rw [show crlf ++ rest = [] ++ (crlf ++ rest) from rfl, readLine_plain (by simp)]
      rfl
  | cons field fields ih =>
      obtain ⟨rounds, rfl⟩ : ∃ r, rounds = r + 1 := ⟨rounds - 1, by simp at enough; omega⟩
      obtain ⟨colon, noReturn⟩ := clear field List.mem_cons_self
      have room : fields.length < rounds := by simpa using enough
      have later := ih (fun other member => clear other (List.mem_cons_of_mem _ member)) room
      simp only [List.map_cons, List.flatMap_cons, List.append_assoc, readFields]
      rw [readLine_plain noReturn]
      have some : (fieldLine field).isEmpty = false := by simp [fieldLine]
      simp only [Option.bind_eq_bind, Option.bind_some, some, Bool.false_eq_true, if_false]
      rw [fieldLine, splitOnce_plain colon]
      simp only [Option.bind_some]
      rw [later]
      rfl

theorem head_eq (message : Message) : message.head =
    message.requestLine ++ (crlf ++
      ((message.fields.map fieldLine).flatMap (fun line => line ++ crlf) ++ crlf)) := by
  simp [head, lines, List.append_assoc]

theorem fields_length_le (fields : List (Bytes × Bytes)) :
    fields.length ≤ ((fields.map fieldLine).flatMap fun line => line ++ crlf).length := by
  induction fields with
  | nil => simp
  | cons field fields ih =>
      simp only [List.map_cons, List.flatMap_cons, List.length_append, List.length_cons, crlf,
        List.length_nil] at ih ⊢
      omega

/-- The upstream reads back a plain head. -/
theorem Plain.read (plain : message.Plain) (rest : Bytes) :
    readHead (message.head ++ rest) = some (message.parsed, rest) := by
  have lines := plain.lines message.requestLine List.mem_cons_self
  have bound := fields_length_le message.fields
  have whole : message.head ++ rest = message.requestLine ++ (crlf ++
      ((message.fields.map fieldLine).flatMap (fun line => line ++ crlf) ++ (crlf ++ rest))) := by
    simp [head_eq, List.append_assoc]
  have enough : message.fields.length < (message.head ++ rest).length := by
    rw [whole]
    simp only [List.length_append, crlf, List.length_cons, List.length_nil] at bound ⊢
    omega
  have line : message.requestLine =
      message.method ++ 32 :: (message.target ++ 32 :: message.version) := by
    simp [requestLine]
  unfold readHead
  rw [whole, readLine_plain lines.1, ← whole]
  simp only [Option.bind_eq_bind, Option.bind_some]
  rw [line, splitOnce_plain (visible_clear plain.method.2 rfl)]
  simp only [Option.bind_some]
  rw [splitOnce_plain (visible_clear plain.target.2 rfl)]
  simp only [Option.bind_some]
  rw [readFields_fields (fun field member =>
    ⟨(plain.fields field member).1, (plain.fields field member).2.1⟩) enough]
  rfl

end Message

end PortHub.Egress
