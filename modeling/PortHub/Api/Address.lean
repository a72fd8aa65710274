import PortHub.Lib.Decimal
import PortHub.Lib.Dyadic
import PortHub.Rust

/-! # Private IPv4 ranges

A `Network` is a range of private addresses that `parse` accepted: its base is
aligned and its length is between 16 and 28. The text of a range reads back as
the range, and two ranges overlap exactly when they share an address.
-/

namespace PortHub

namespace Ipv4Addr

/-- `u32::from(address)`. -/
def toBits (ip : Ipv4Addr) : Nat :=
  ((ip.a.toNat * 256 + ip.b.toNat) * 256 + ip.c.toNat) * 256 + ip.d.toNat

/-- `Ipv4Addr::from` a `u32`. -/
def ofBits (n : Nat) : Ipv4Addr :=
  ⟨UInt8.ofNat (n / 256 / 256 / 256), UInt8.ofNat (n / 256 / 256), UInt8.ofNat (n / 256),
    UInt8.ofNat n⟩

/-- One octet of an address: up to three digits without a leading zero. -/
def octet (part : List Char) : Option UInt8 :=
  if part.isEmpty || 3 < part.length || !part.all Char.isDigit then none
  else if part.head? = some '0' ∧ 1 < part.length then none
  else if 255 < Decimal.value part then none
  else some (UInt8.ofNat (Decimal.value part))

/-- `text.parse::<Ipv4Addr>()`. -/
def parse (text : List Char) : Option Ipv4Addr :=
  match text.splitOn '.' with
  | [a, b, c, d] => do return ⟨← octet a, ← octet b, ← octet c, ← octet d⟩
  | _ => none

def render (ip : Ipv4Addr) : List Char :=
  ['.'].intercalate [Decimal.render ip.a.toNat, Decimal.render ip.b.toNat,
    Decimal.render ip.c.toNat, Decimal.render ip.d.toNat]

theorem toBits_lt (ip : Ipv4Addr) : ip.toBits < 2 ^ 32 := by
  have := ip.a.toNat_lt
  have := ip.b.toNat_lt
  have := ip.c.toNat_lt
  have := ip.d.toNat_lt
  unfold toBits
  omega

theorem toBits_ofBits {n} (bounded : n < 2 ^ 32) : (ofBits n).toBits = n := by
  simp only [toBits, ofBits, UInt8.toNat_ofNat']
  omega

theorem ofBits_toBits (ip : Ipv4Addr) : ofBits ip.toBits = ip := by
  obtain ⟨a, b, c, d⟩ := ip
  have := a.toNat_lt
  have := b.toNat_lt
  have := c.toNat_lt
  have := d.toNat_lt
  simp only [toBits, ofBits, mk.injEq]
  refine ⟨?_, ?_, ?_, ?_⟩ <;> apply UInt8.toNat_inj.mp <;> rw [UInt8.toNat_ofNat'] <;> omega

theorem octet_render (n : UInt8) : octet (Decimal.render n.toNat) = some n := by
  have small := n.toNat_lt
  have nonempty := Decimal.render_ne_nil n.toNat
  have length := Decimal.render_length_le (k := 3) (by decide) (show n.toNat < 10 ^ 3 by omega)
  have digits : (Decimal.render n.toNat).all Char.isDigit = true :=
    List.all_eq_true.mpr fun _ => Decimal.render_isDigit
  have leading : ¬((Decimal.render n.toNat).head? = some '0' ∧ 1 < (Decimal.render n.toNat).length) := by
    rintro ⟨zero, long⟩
    rw [Decimal.render_head zero] at long
    exact absurd long (by decide)
  unfold octet
  rw [if_neg (by simp [nonempty, digits, length]), if_neg leading, Decimal.value_render,
    if_neg (by omega), UInt8.ofNat_toNat]

theorem render_no_dot (n : Nat) : '.' ∉ Decimal.render n :=
  fun member => absurd (Decimal.render_isDigit member) (by decide)

/-- The text of an address reads back as the address. -/
theorem parse_render (ip : Ipv4Addr) : parse ip.render = some ip := by
  unfold parse render
  rw [List.splitOn_intercalate _ (by simp [render_no_dot]) (by simp)]
  simp [octet_render]

/-- The text of an address is made of digits and dots. -/
theorem mem_render {ip : Ipv4Addr} {c} (member : c ∈ ip.render) :
    c.isDigit = true ∨ c = '.' := by
  simp only [render, List.intercalate, List.intersperse, List.flatten_cons, List.flatten_nil,
    List.mem_append, List.mem_singleton, List.not_mem_nil, or_false] at member
  rcases member with digit | rfl | digit | rfl | digit | rfl | digit
  all_goals first
    | exact .inl (Decimal.render_isDigit digit)
    | exact .inr rfl

end Ipv4Addr

namespace Api

/-- `u32::MAX.checked_shl(32 - bits).unwrap_or(0)`. -/
def mask (bits : Nat) : Nat := (2 ^ 32 - 1) <<< (32 - bits) % 2 ^ 32

/-- `u32::leading_ones`. -/
def leadingOnes (n : Nat) : Nat := ((List.range 32).reverse.takeWhile n.testBit).length

/-- `u32::trailing_zeros`. -/
def trailingZeros (n : Nat) : Nat := ((List.range 32).takeWhile fun i => !n.testBit i).length

structure Network where
  base : Nat
  bits : Nat
  sized : 16 ≤ bits ∧ bits ≤ 28
  bounded : base < 2 ^ 32
  aligned : base &&& mask bits = base
  reserved : (Ipv4Addr.ofBits base).isPrivate = true
  deriving DecidableEq

namespace Network

def invalid : String := "Enter a network CIDR such as 10.203.0.0/24"

def unsupported : String := "Choose an RFC1918 IPv4 range between /16 and /28"

/-- Every IPv6 range is refused; the message depends on whether it is one. -/
def refuseIpv6 (ipv6 : List Char → Option Nat) (slash : Bool) (address suffix : List Char) : String :=
  match ipv6 (((Text.splitOnce '%' address).map Prod.fst).getD address) with
  | none => invalid
  | some address =>
      let suffix := if slash then suffix else "128".toList
      if suffix.isEmpty || !suffix.all Char.isDigit || 128 < Decimal.value suffix then invalid
      else
        let mask := (2 ^ 128 - 1) <<< (128 - Decimal.value suffix) % 2 ^ 128
        if address &&& mask ≠ address then invalid else unsupported

/-- The length of a range: a number, or a netmask in either polarity. -/
def length (suffix : List Char) : Except String Nat :=
  if suffix.contains '.' then
    match Ipv4Addr.parse suffix with
    | none => .error invalid
    | some mask =>
        let mask := mask.toBits
        let mask := if leadingOnes mask + trailingZeros mask ≠ 32 then 2 ^ 32 - 1 - mask else mask
        if leadingOnes mask + trailingZeros mask ≠ 32 then .error invalid
        else .ok (leadingOnes mask)
  else if suffix.isEmpty || !suffix.all Char.isDigit || 255 < Decimal.value suffix then
    .error invalid
  else .ok (Decimal.value suffix)

/-- The checks on an address and a length. -/
def new (address : Ipv4Addr) (bits : Nat) : Except String Network :=
  if 32 < bits then .error invalid
  else if aligned : address.toBits &&& mask bits ≠ address.toBits then .error invalid
  else if fits : ¬(16 ≤ bits ∧ bits ≤ 28) ∨ address.isPrivate = false then .error unsupported
  else
    .ok ⟨address.toBits, bits, Decidable.of_not_not fun small => fits (.inl small),
      address.toBits_lt, Decidable.of_not_not aligned, by
        rw [Ipv4Addr.ofBits_toBits]
        exact Bool.eq_true_of_not_eq_false fun outside => fits (.inr outside)⟩

def parse (ipv6 : List Char → Option Nat) (value : List Char) : Except String Network := do
  let (address, suffix) := (Text.splitOnce '/' value).getD (value, "32".toList)
  if address.contains ':' then throw (refuseIpv6 ipv6 (value.contains '/') address suffix)
  else
    let some address := Ipv4Addr.parse address | throw invalid
    let bits ← length suffix
    new address bits

def cidr (network : Network) : List Char :=
  (Ipv4Addr.ofBits network.base).render ++ '/' :: Decimal.render network.bits

def contains (network : Network) (ip : Ipv4Addr) : Bool :=
  ip.toBits &&& mask network.bits == network.base

def overlaps (network other : Network) : Bool :=
  network.contains (.ofBits other.base) || other.contains (.ofBits network.base)

/-- A network is rebuilt from its base and its length. -/
theorem new_base (network : Network) : new (.ofBits network.base) network.bits = .ok network := by
  have base := Ipv4Addr.toBits_ofBits network.bounded
  have sized := network.sized
  have fits : ¬(¬(16 ≤ network.bits ∧ network.bits ≤ 28) ∨
      (Ipv4Addr.ofBits network.base).isPrivate = false) := by
    rw [network.reserved]
    simp [sized]
  unfold new
  rw [if_neg (by omega), dif_neg (by rw [base]; simp [network.aligned]), dif_neg fits]
  congr 1
  simp only [base]

theorem length_render {bits} (small : bits ≤ 255) : length (Decimal.render bits) = .ok bits := by
  have digits : (Decimal.render bits).all Char.isDigit = true :=
    List.all_eq_true.mpr fun _ => Decimal.render_isDigit
  unfold length
  rw [if_neg (by simp [Ipv4Addr.render_no_dot]), if_neg, Decimal.value_render]
  simp [Decimal.render_ne_nil, digits, Decimal.value_render, small]

/-- The text of a range reads back as the range. -/
theorem parse_cidr (ipv6 : List Char → Option Nat) (network : Network) :
    parse ipv6 network.cidr = .ok network := by
  have clear {c : Char} (digit : c.isDigit = false) (dot : c ≠ '.') :
      c ∉ (Ipv4Addr.ofBits network.base).render := by
    intro member
    rcases Ipv4Addr.mem_render member with isDigit | isDot
    · cases digit.symm.trans isDigit
    · exact dot isDot
  have size := network.sized
  unfold parse cidr
  rw [Text.splitOnce_append (clear rfl (by decide))]
  simp only [Option.getD_some, List.contains_eq_mem]
  rw [if_neg (by simpa using clear rfl (by decide)), Ipv4Addr.parse_render,
    length_render (by omega)]
  exact new_base network

theorem cidr_injective {first second : Network} (same : first.cidr = second.cidr) :
    first = second := by
  have left := parse_cidr (fun _ => none) first
  rw [same, parse_cidr] at left
  exact (Except.ok.inj left).symm

/-- A range is the aligned block around its base. -/
theorem contains_iff {network : Network} {ip} :
    network.contains ip = true ↔ Dyadic.Block (32 - network.bits) network.base ip.toBits := by
  have aligned : network.base / 2 ^ (32 - network.bits) * 2 ^ (32 - network.bits) = network.base := by
    have := network.aligned
    rwa [mask, Dyadic.and_mask network.bounded] at this
  rw [Dyadic.block_iff aligned, contains, beq_iff_eq, mask, Dyadic.and_mask ip.toBits_lt]

/-- Ranges overlap when some address is in both. -/
theorem overlaps_iff {network : Network} {other} :
    network.overlaps other = true ↔
      ∃ ip, network.contains ip = true ∧ other.contains ip = true := by
  simp only [overlaps, Bool.or_eq_true, contains_iff, Ipv4Addr.toBits_ofBits network.bounded,
    Ipv4Addr.toBits_ofBits other.bounded]
  constructor
  · rintro (inside | inside)
    · refine ⟨.ofBits other.base, ?_⟩
      rw [Ipv4Addr.toBits_ofBits other.bounded]
      exact ⟨inside, Dyadic.block_self _ _⟩
    · refine ⟨.ofBits network.base, ?_⟩
      rw [Ipv4Addr.toBits_ofBits network.bounded]
      exact ⟨Dyadic.block_self _ _, inside⟩
  · rintro ⟨ip, left, right⟩
    exact Dyadic.meet_iff.mp ⟨ip.toBits, left, right⟩

end Network

end Api

end PortHub
