import Mathlib.Algebra.Ring.Nat
import Mathlib.Data.List.Basic

/-! # Base64 with the standard alphabet

Three bytes become four symbols; a shorter last group is padded. Decoding
insists on the padding and on unused bits that are zero, so a text has at most
one encoding and what was encoded is read back.
-/

namespace Base64

def alphabet : List Char :=
  ['A', 'B', 'C', 'D', 'E', 'F', 'G', 'H', 'I', 'J', 'K', 'L', 'M',
   'N', 'O', 'P', 'Q', 'R', 'S', 'T', 'U', 'V', 'W', 'X', 'Y', 'Z',
   'a', 'b', 'c', 'd', 'e', 'f', 'g', 'h', 'i', 'j', 'k', 'l', 'm',
   'n', 'o', 'p', 'q', 'r', 's', 't', 'u', 'v', 'w', 'x', 'y', 'z',
   '0', '1', '2', '3', '4', '5', '6', '7', '8', '9', '+', '/']

def symbol (digit : Nat) : Char := alphabet.getD digit '='

def digit (c : Char) : Option Nat := alphabet.idxOf? c

def encode : List UInt8 → List Char
  | [] => []
  | [a] =>
      let bits := a.toNat * 16
      [symbol (bits / 64), symbol (bits % 64), '=', '=']
  | [a, b] =>
      let bits := (a.toNat * 256 + b.toNat) * 4
      [symbol (bits / 4096), symbol (bits / 64 % 64), symbol (bits % 64), '=']
  | a :: b :: c :: rest =>
      let bits := (a.toNat * 256 + b.toNat) * 256 + c.toNat
      symbol (bits / 262144) :: symbol (bits / 4096 % 64) :: symbol (bits / 64 % 64) ::
        symbol (bits % 64) :: encode rest

/-- The last group, without its final padding. -/
def decodeLast (w x y : Char) : Option (List UInt8) := do
  let bits := (← digit w) * 64 + (← digit x)
  if y = '=' then
    if bits % 16 = 0 then some [UInt8.ofNat (bits / 16)] else none
  else
    let bits := bits * 64 + (← digit y)
    if bits % 4 = 0 then some [UInt8.ofNat (bits / 1024), UInt8.ofNat (bits / 4)] else none

def decode : List Char → Option (List UInt8)
  | [] => some []
  | w :: x :: y :: z :: rest =>
      if z = '=' then if rest.isEmpty then decodeLast w x y else none
      else do
        let bits := (((← digit w) * 64 + (← digit x)) * 64 + (← digit y)) * 64 + (← digit z)
        let tail ← decode rest
        some (UInt8.ofNat (bits / 65536) :: UInt8.ofNat (bits / 256) :: UInt8.ofNat bits :: tail)
  | _ => none

theorem symbol_facts {n} (bounded : n < 64) :
    digit (symbol n) = some n ∧ symbol n ≠ '=' ∧ (symbol n).utf8Size = 1 := by
  decide +revert +kernel

theorem digit_symbol {n} (bounded : n < 64) : digit (symbol n) = some n := (symbol_facts bounded).1

theorem symbol_ne_padding {n} (bounded : n < 64) : symbol n ≠ '=' := (symbol_facts bounded).2.1

theorem symbol_utf8Size {n} (bounded : n < 64) : (symbol n).utf8Size = 1 := (symbol_facts bounded).2.2

theorem padding_utf8Size : '='.utf8Size = 1 := rfl

theorem ofNat_eq (byte : UInt8) {n} (low : n % 256 = byte.toNat) : UInt8.ofNat n = byte := by
  apply UInt8.toNat_inj.mp
  rw [UInt8.toNat_ofNat', low]

/-- What was encoded is read back. -/
@[simp] theorem decode_encode (bytes : List UInt8) : decode (encode bytes) = some bytes := by
  fun_induction encode bytes with
  | case1 => rfl
  | case2 a bits =>
      have small := a.toNat_lt
      have whole : bits / 64 * 64 + bits % 64 = bits := by omega
      simp only [decode, decodeLast, if_true, List.isEmpty_nil, Option.bind_eq_bind,
        digit_symbol (show bits / 64 < 64 by omega), digit_symbol (show bits % 64 < 64 by omega),
        Option.bind_some, whole]
      rw [if_pos (by omega), ofNat_eq a (by omega)]
  | case3 a b bits =>
      have := a.toNat_lt
      have := b.toNat_lt
      have whole : (bits / 4096 * 64 + bits / 64 % 64) * 64 + bits % 64 = bits := by omega
      simp only [decode, decodeLast, if_true, List.isEmpty_nil, Option.bind_eq_bind,
        digit_symbol (show bits / 4096 < 64 by omega),
        digit_symbol (show bits / 64 % 64 < 64 by omega),
        digit_symbol (show bits % 64 < 64 by omega), Option.bind_some, whole,
        if_neg (symbol_ne_padding (show bits % 64 < 64 by omega))]
      rw [if_pos (by omega), ofNat_eq a (by omega), ofNat_eq b (by omega)]
  | case4 a b c rest bits ih =>
      have := a.toNat_lt
      have := b.toNat_lt
      have := c.toNat_lt
      have whole : ((bits / 262144 * 64 + bits / 4096 % 64) * 64 + bits / 64 % 64) * 64
          + bits % 64 = bits := by omega
      simp only [decode, if_neg (symbol_ne_padding (show bits % 64 < 64 by omega)),
        Option.bind_eq_bind, digit_symbol (show bits / 262144 < 64 by omega),
        digit_symbol (show bits / 4096 % 64 < 64 by omega),
        digit_symbol (show bits / 64 % 64 < 64 by omega),
        digit_symbol (show bits % 64 < 64 by omega), Option.bind_some, whole, ih]
      rw [ofNat_eq a (by omega), ofNat_eq b (by omega),
        ofNat_eq c (by omega)]

/-- Four symbols for every three bytes begun, each of one byte in UTF-8. -/
theorem encode_utf8Size (bytes : List UInt8) :
    ((encode bytes).map Char.utf8Size).sum = (bytes.length + 2) / 3 * 4 := by
  fun_induction encode bytes with
  | case1 => rfl
  | case2 a bits =>
      have := a.toNat_lt
      simp only [List.map_cons, List.map_nil, List.sum_cons, List.sum_nil,
        symbol_utf8Size (show bits / 64 < 64 by omega),
        symbol_utf8Size (show bits % 64 < 64 by omega), padding_utf8Size, List.length_cons,
        List.length_nil]
      omega
  | case3 a b bits =>
      have := a.toNat_lt
      have := b.toNat_lt
      simp only [List.map_cons, List.map_nil, List.sum_cons, List.sum_nil,
        symbol_utf8Size (show bits / 4096 < 64 by omega),
        symbol_utf8Size (show bits / 64 % 64 < 64 by omega),
        symbol_utf8Size (show bits % 64 < 64 by omega), padding_utf8Size, List.length_cons,
        List.length_nil]
      omega
  | case4 a b c rest bits ih =>
      have := a.toNat_lt
      have := b.toNat_lt
      have := c.toNat_lt
      simp only [List.map_cons, List.sum_cons, ih, List.length_cons,
        symbol_utf8Size (show bits / 262144 < 64 by omega),
        symbol_utf8Size (show bits / 4096 % 64 < 64 by omega),
        symbol_utf8Size (show bits / 64 % 64 < 64 by omega),
        symbol_utf8Size (show bits % 64 < 64 by omega)]
      omega

end Base64
