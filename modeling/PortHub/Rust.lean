import Mathlib.Algebra.Ring.Nat
import Mathlib.Data.List.DropRight
import Mathlib.Data.List.Forall2

/-! # Standard-library values shared by the components

Instants and durations are nanoseconds counted by natural numbers. IPv4
addresses keep their four octets, and the address classes are those of the
standard library. Text that is taken apart is a list of characters. Fallible
calls return the text of their error.
-/

namespace PortHub

/-- `Duration::from_secs`, in nanoseconds. -/
def seconds (n : Nat) : Nat := n * 1000000000

/-- A fallible call that carries the message of its error. -/
abbrev Result (α : Type) := Except String α

/-- `ensure!(condition, message)`. -/
def ensure (condition : Bool) (message : String) : Result Unit :=
  if condition then .ok () else .error message

@[simp] theorem ensure_eq_ok {condition message u} :
    ensure condition message = .ok u ↔ condition = true := by
  cases condition <;> simp [ensure]

/-- A sequence of checks succeeds when the first one does and the rest follow. -/
theorem bind_eq_ok {ε α β : Type} {first} {rest : α → Except ε β} {value} :
    (first >>= rest) = .ok value ↔ ∃ a, first = .ok a ∧ rest a = .ok value := by
  cases first with
  | error message => simp [bind, Except.bind]
  | ok a => simp [bind, Except.bind]

/-- What follows a check that passed. -/
theorem ok_of_then {ε α β : Type} {check : Except ε α} {rest : Except ε β} {value}
    (passed : (check >>= fun _ => rest) = .ok value) : rest = .ok value := by
  obtain ⟨_, _, followed⟩ := bind_eq_ok.mp passed
  exact followed

theorem bind_eq_error {ε α β : Type} {first} {rest : α → Except ε β} {error} :
    (first >>= rest) = .error error ↔
      first = .error error ∨ ∃ a, first = .ok a ∧ rest a = .error error := by
  cases first with
  | error message => simp [bind, Except.bind]
  | ok a => simp [bind, Except.bind]

theorem pure_eq_ok {ε α : Type} {a b} : (pure a : Except ε α) = .ok b ↔ a = b := by
  simp [pure, Except.pure]

/-- What a sequence of calls returns comes from one of them. -/
theorem mem_mapM_ok_iff {ε β γ : Type} {f : β → Except ε γ} {items : List β} {result}
    (read : items.mapM f = .ok result) {value} :
    value ∈ result ↔ ∃ item ∈ items, f item = .ok value := by
  induction items generalizing result with
  | nil =>
      obtain rfl : result = [] := (Except.ok.inj read).symm
      simp
  | cons item rest ih =>
      rw [List.mapM_cons] at read
      obtain ⟨head, first, read⟩ := bind_eq_ok.mp read
      obtain ⟨tail, others, read⟩ := bind_eq_ok.mp read
      obtain rfl := pure_eq_ok.mp read
      simp [ih others, first, eq_comm]

theorem mapM_ok_all {ε β γ : Type} {f : β → Except ε γ} {items : List β} {result}
    (read : items.mapM f = .ok result) : ∀ item ∈ items, ∃ value, f item = .ok value := by
  induction items generalizing result with
  | nil => simp
  | cons item rest ih =>
      rw [List.mapM_cons] at read
      obtain ⟨head, first, read⟩ := bind_eq_ok.mp read
      obtain ⟨tail, others, _⟩ := bind_eq_ok.mp read
      intro other member
      rcases List.mem_cons.mp member with rfl | later
      · exact ⟨head, first⟩
      · exact ih others other later

theorem mapM_error {ε β γ : Type} {f : β → Except ε γ} {items : List β} {error}
    (failed : items.mapM f = .error error) : ∃ item ∈ items, f item = .error error := by
  induction items with
  | nil => cases failed
  | cons item rest ih =>
      rw [List.mapM_cons] at failed
      rcases bind_eq_error.mp failed with first | ⟨_, _, failed⟩
      · exact ⟨item, List.mem_cons_self, first⟩
      · rcases bind_eq_error.mp failed with later | ⟨_, _, failed⟩
        · obtain ⟨other, inside, refused⟩ := ih later
          exact ⟨other, List.mem_cons_of_mem _ inside, refused⟩
        · cases failed

theorem forall₂_of_mapM {β γ : Type} {f : β → Option γ} {items : List β} {result}
    (made : items.mapM f = some result) :
    List.Forall₂ (fun item value => f item = some value) items result := by
  induction items generalizing result with
  | nil =>
      obtain rfl : [] = result := by simpa using made
      exact .nil
  | cons item rest ih =>
      simp only [List.mapM_cons, Option.bind_eq_bind, Option.bind_eq_some_iff, Option.pure_def,
        Option.some.injEq] at made
      obtain ⟨value, first, others, later, rfl⟩ := made
      exact .cons first (ih later)

theorem mem_of_mapM {β γ : Type} {f : β → Option γ} {items : List β} {result}
    (made : items.mapM f = some result) {value} (member : value ∈ result) :
    ∃ item ∈ items, f item = some value := by
  have related := forall₂_of_mapM made
  clear made
  induction related with
  | nil => cases member
  | cons first _ ih =>
      rcases List.mem_cons.mp member with rfl | later
      · exact ⟨_, List.mem_cons_self, first⟩
      · obtain ⟨item, inside, same⟩ := ih later
        exact ⟨item, List.mem_cons_of_mem _ inside, same⟩

/-- `a - b` of two 64-bit `usize` values, which wraps around below zero. -/
def usizeSub (a b : Nat) : Nat := (a + 2 ^ 64 - b) % 2 ^ 64

theorem usizeSub_eq {a b} (below : b ≤ a) (bounded : a < 2 ^ 64) : usizeSub a b = a - b := by
  unfold usizeSub
  omega

/-- `u16::from_be_bytes`. -/
def be16 (high low : UInt8) : UInt16 := UInt16.ofNat (high.toNat * 256 + low.toNat)

/-- `u32::from_be_bytes`. -/
def be32 (a b c d : UInt8) : UInt32 :=
  UInt32.ofNat (((a.toNat * 256 + b.toNat) * 256 + c.toNat) * 256 + d.toNat)

/-- `u64::to_be_bytes`. -/
def u64BeBytes (n : Nat) : List UInt8 :=
  [56, 48, 40, 32, 24, 16, 8, 0].map fun shift => UInt8.ofNat (n >>> shift)

/-- `u16::to_be_bytes`. -/
def u16BeBytes (n : Nat) : List UInt8 := [UInt8.ofNat (n / 256), UInt8.ofNat n]

theorem be16_toNat (high low : UInt8) : (be16 high low).toNat = high.toNat * 256 + low.toNat := by
  have := high.toNat_lt
  have := low.toNat_lt
  simp only [be16, UInt16.toNat_ofNat']
  omega

theorem be16_u16BeBytes {n} (bounded : n < 65536) :
    (be16 (UInt8.ofNat (n / 256)) (UInt8.ofNat n)).toNat = n := by
  simp only [be16_toNat, UInt8.toNat_ofNat']
  omega

/-- `str::as_bytes`. -/
def utf8 (text : String) : List UInt8 := text.toByteArray.data.toList

/-- `str::from_utf8`. -/
def fromUtf8 (bytes : List UInt8) : Option String := String.fromUTF8? ⟨bytes.toArray⟩

@[simp] theorem fromUtf8_utf8 (text : String) : fromUtf8 (utf8 text) = some text := by
  simp [fromUtf8, utf8, String.fromUTF8?, text.isValidUTF8, String.fromUTF8]

/-- `Ipv4Addr`, by its octets. -/
structure Ipv4Addr where
  a : UInt8
  b : UInt8
  c : UInt8
  d : UInt8
  deriving DecidableEq, Repr

namespace Ipv4Addr

def octets (ip : Ipv4Addr) : List UInt8 := [ip.a, ip.b, ip.c, ip.d]

def isUnspecified (ip : Ipv4Addr) : Bool := ip == ⟨0, 0, 0, 0⟩

def isLoopback (ip : Ipv4Addr) : Bool := ip.a == 127

/-- The RFC 1918 ranges 10/8, 172.16/12 and 192.168/16. -/
def isPrivate (ip : Ipv4Addr) : Bool :=
  ip.a == 10 || (ip.a == 172 && 16 ≤ ip.b && ip.b ≤ 31) || (ip.a == 192 && ip.b == 168)

def isLinkLocal (ip : Ipv4Addr) : Bool := ip.a == 169 && ip.b == 254

def isMulticast (ip : Ipv4Addr) : Bool := 224 ≤ ip.a && ip.a ≤ 239

def isBroadcast (ip : Ipv4Addr) : Bool := ip == ⟨255, 255, 255, 255⟩

end Ipv4Addr

namespace Text

/-- `str::len`, in UTF-8 bytes. -/
def byteLen (text : List Char) : Nat := (text.map Char.utf8Size).sum

def trimEnd (c : Char) (text : List Char) : List Char := text.rdropWhile (· == c)

def trimMatches (c : Char) (text : List Char) : List Char :=
  trimEnd c (text.dropWhile (· == c))

/-- The Unicode `White_Space` property, as used by `str::trim`. -/
def isWhiteSpace (c : Char) : Bool :=
  let n := c.toNat
  (0x9 ≤ n && n ≤ 0xD) || n == 0x20 || n == 0x85 || n == 0xA0 || n == 0x1680
    || (0x2000 ≤ n && n ≤ 0x200A) || n == 0x2028 || n == 0x2029 || n == 0x202F || n == 0x205F
    || n == 0x3000

def trim (text : List Char) : List Char := (text.dropWhile isWhiteSpace).rdropWhile isWhiteSpace

/-- `to_ascii_lowercase`; characters outside A-Z stay as they are. -/
def toAsciiLowercase (text : List Char) : List Char := text.map Char.toLower

def isAsciiAlphanumeric (c : Char) : Bool := c.isAlphanum

def endsWith (text tail : List Char) : Bool := decide (tail <:+ text)

def stripPrefix (text head : List Char) : Option (List Char) :=
  if head <+: text then some (text.drop head.length) else none

def stripSuffix (text tail : List Char) : Option (List Char) :=
  if tail <:+ text then some (text.take (text.length - tail.length)) else none

/-- `str::split_once`. -/
def splitOnce (c : Char) (text : List Char) : Option (List Char × List Char) :=
  if text.contains c then some (text.takeWhile (· != c), (text.dropWhile (· != c)).tail) else none

variable {c : Char} {tail text : List Char}

theorem splitOnce_append {head} (clear : c ∉ head) :
    splitOnce c (head ++ c :: tail) = some (head, tail) := by
  have stays : ∀ x ∈ head, (x != c) = true := by
    intro x member
    simp only [bne_iff_ne]
    rintro rfl
    exact clear member
  unfold splitOnce
  rw [if_pos (by simp), List.takeWhile_append_of_pos stays, List.dropWhile_append_of_pos stays]
  simp

theorem mem_trim (member : c ∈ trim text) : c ∈ text :=
  (List.dropWhile_suffix _).subset ((List.rdropWhile_prefix _ _).subset member)

/-- What was cut at both ends starts with a character that stays. -/
theorem dropWhile_ends (p : Char → Bool) (text : List Char) :
    ((text.dropWhile p).rdropWhile p).dropWhile p = (text.dropWhile p).rdropWhile p := by
  have front : (text.dropWhile p).rdropWhile p <+: text.dropWhile p := List.rdropWhile_prefix _ _
  have head := List.head?_dropWhile_not p text
  cases kept : (text.dropWhile p).rdropWhile p with
  | nil => rfl
  | cons c rest =>
      rw [kept] at front
      obtain ⟨tail, whole⟩ := front
      rw [← whole, List.cons_append, List.head?_cons] at head
      rw [List.dropWhile_cons_of_neg (by simpa using head)]

/-- Cutting both ends again changes nothing. -/
theorem ends_ends (p : Char → Bool) (text : List Char) :
    (((text.dropWhile p).rdropWhile p).dropWhile p).rdropWhile p =
      (text.dropWhile p).rdropWhile p := by
  rw [dropWhile_ends, List.rdropWhile_idempotent]

theorem trim_trim (text : List Char) : trim (trim text) = trim text := ends_ends _ text

theorem trim_space (text : List Char) : trim (' ' :: text) = trim text := rfl

/-- A text between two characters that stay is left alone. -/
theorem ends_eq_self {p : Char → Bool} (first : ∀ c, text.head? = some c → p c = false)
    (last : ∀ c, text.getLast? = some c → p c = false) :
    (text.dropWhile p).rdropWhile p = text := by
  have front : text.dropWhile p = text := by
    cases text with
    | nil => rfl
    | cons c rest => rw [List.dropWhile_cons_of_neg (by simp [first c rfl])]
  rw [front, List.rdropWhile_eq_self_iff]
  intro nonempty
  simp [last _ (List.getLast?_eq_some_getLast nonempty)]

theorem digit_not_space (digit : c.isDigit = true) : isWhiteSpace c = false := by
  simp only [Char.isDigit, ge_iff_le, Bool.and_eq_true, decide_eq_true_eq, UInt32.le_iff_toNat_le]
    at digit
  have low : 48 ≤ c.toNat := digit.1
  have high : c.toNat ≤ 57 := digit.2
  simp only [isWhiteSpace, Bool.or_eq_false_iff, Bool.and_eq_false_iff, decide_eq_false_iff_not,
    beq_eq_false_iff_ne]
  omega

theorem toLower_eq_dot (c : Char) : c.toLower = '.' ↔ c = '.' := by
  unfold Char.toLower
  split
  · rename_i upper
    have high : 65 ≤ c.val.toNat := UInt32.le_iff_toNat_le.mp upper.1
    have low : c.val.toNat ≤ 90 := UInt32.le_iff_toNat_le.mp upper.2
    have different : c ≠ '.' := by
      rintro rfl
      revert high
      decide
    simp only [different, iff_false]
    intro same
    have value := congrArg (fun d : Char => d.val.toNat) same
    simp only [UInt32.toNat_add] at value
    have : ('a'.val - 'A'.val).toNat = 32 := by decide
    have : '.'.val.toNat = 46 := by decide
    omega
  · rfl

theorem toAsciiLowercase_trimEnd (text : List Char) :
    toAsciiLowercase (trimEnd '.' text) = trimEnd '.' (toAsciiLowercase text) := by
  simp only [toAsciiLowercase, trimEnd, List.rdropWhile, ← List.map_reverse, List.dropWhile_map]
  congr 3
  funext c
  simp [toLower_eq_dot]

theorem trimEnd_trimEnd (c : Char) (text : List Char) :
    trimEnd c (trimEnd c text) = trimEnd c text :=
  List.rdropWhile_idempotent _ _

theorem trimEnd_append (c : Char) (text : List Char) : trimEnd c (text ++ [c]) = trimEnd c text :=
  List.rdropWhile_concat_pos _ _ _ (by simp)

theorem suffix_append_dot :
    tail ++ [c] <:+ text ++ [c] ↔ tail <:+ text := by
  constructor
  · rintro ⟨head, same⟩
    exact ⟨head, by simpa [← List.append_assoc] using same⟩
  · rintro ⟨head, rfl⟩
    exact ⟨head, by simp⟩

/-- A tail stripped behind a dot is a suffix on a label boundary. -/
theorem stripSuffix_dot :
    ((stripSuffix text tail).any fun head => endsWith head ['.']) = true ↔ '.' :: tail <:+ text := by
  unfold stripSuffix endsWith
  constructor
  · intro found
    split at found
    · rename_i inside
      obtain ⟨head, rfl⟩ := inside
      simp only [List.length_append, Nat.add_sub_cancel, List.take_left', Option.any_some,
        decide_eq_true_eq] at found
      obtain ⟨front, rfl⟩ := found
      exact ⟨front, by simp⟩
    · cases found
  · rintro ⟨front, rfl⟩
    have inside : tail <:+ front ++ '.' :: tail := ⟨front ++ ['.'], by simp⟩
    rw [if_pos inside]
    have cut : (front ++ '.' :: tail).take ((front ++ '.' :: tail).length - tail.length) =
        front ++ ['.'] := by
      rw [show front ++ '.' :: tail = (front ++ ['.']) ++ tail by simp]
      exact List.take_left' (by simp only [List.length_append]; omega)
    rw [cut]
    simp

end Text

namespace IpText

def digit (radix : Nat) (c : Char) : Option Nat :=
  let value :=
    if c.isDigit then some (c.toNat - 48)
    else if 'a' ≤ c ∧ c ≤ 'f' then some (c.toNat - 87)
    else if 'A' ≤ c ∧ c ≤ 'F' then some (c.toNat - 55)
    else none
  value.filter (· < radix)

/-- A number of one to `most` digits that is at most `limit`. -/
def readNumber (radix most limit : Nat) (zeros : Bool) (text : List Char) : Option (List Char) :=
  let digits := text.takeWhile fun c => (digit radix c).isSome
  let value := digits.foldl (fun value c => value * radix + (digit radix c).getD 0) 0
  if digits.length = 0 ∨ digits.length > most ∨ value > limit then none
  else if !zeros && text.head? == some '0' && digits.length > 1 then none
  else some (text.drop digits.length)

def readChar (c : Char) (text : List Char) : Option (List Char) :=
  if text.head? = some c then some text.tail else none

def readIpv4 (text : List Char) : Option (List Char) := do
  let octet := readNumber 10 3 255 false
  let text ← octet text
  let text ← octet (← readChar '.' text)
  let text ← octet (← readChar '.' text)
  octet (← readChar '.' text)

/-- Up to `limit` colon-separated groups from index `i` on: how many were read,
    whether the last two are an embedded IPv4 address, and what is left. -/
def readGroups (limit : Nat) : Nat → Nat → List Char → Nat × Bool × List Char
  | 0, i, text => (i, false, text)
  | remaining + 1, i, text =>
      let inner := if i > 0 then readChar ':' text else some text
      match if i < limit - 1 then inner.bind readIpv4 else none with
      | some rest => (i + 2, true, rest)
      | none =>
          match inner.bind (readNumber 16 4 65535 true) with
          | none => (i, false, text)
          | some rest => readGroups limit remaining (i + 1) rest

def readIpv6 (text : List Char) : Option (List Char) :=
  let (head, embedded, rest) := readGroups 8 8 0 text
  if head = 8 then some rest
  else if embedded then none
  else do
    let rest ← readChar ':' rest
    let rest ← readChar ':' rest
    let limit := 8 - (head + 1)
    some (readGroups limit limit 0 rest).2.2

/-- `text.parse::<IpAddr>().is_ok()`. -/
def isIpAddr (text : List Char) : Bool := (readIpv4 text <|> readIpv6 text) == some []

end IpText

namespace Hex

/-- A byte as two lower-case digits. -/
def lower (byte : UInt8) : List Char := [Nat.digitChar (byte.toNat / 16), Nat.digitChar (byte.toNat % 16)]

/-- A byte as two upper-case digits. -/
def upper (byte : UInt8) : List Char := (lower byte).map Char.toUpper

/-- The digit loop of `u8::from_str_radix`. -/
def readDigits (digits : List Char) : Option UInt8 :=
  if digits.isEmpty then none
  else
    digits.foldl (fun value c => do
      let value ← value
      let digit ← IpText.digit 16 c
      return value * 16 + UInt8.ofNat digit) (some 0)

/-- `u8::from_str_radix(part, 16)` of a part of two bytes. -/
def readByte (part : List Char) : Option UInt8 :=
  readDigits (if part.head? = some '+' ∧ 1 < part.length then part.tail else part)

end Hex

end PortHub
