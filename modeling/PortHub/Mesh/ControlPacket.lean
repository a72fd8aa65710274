import PortHub.Lib.OnesComplement
import PortHub.Lib.Panics
import PortHub.Network.Packet

/-! # Private control envelopes

Exit, stream and probe traffic between peers travels in IPv4 packets with a
protocol number of its own. The header carries the ordinary checksum. What one
peer encodes the other decodes, and the packet engine takes none of it for data.
-/

namespace PortHub.Mesh.ControlPacket

open Panics OnesComplement PortHub.Network

def maxPacket : Nat := 1380

def exit : UInt8 := 252

def stream : UInt8 := 253

def probe : UInt8 := 254

/-- `matches!(protocol, EXIT | STREAM | PROBE)`. -/
def isControl (protocol : UInt8) : Bool := protocol == exit || protocol == stream || protocol == probe

structure Envelope where
  source : Ipv4Addr
  destination : Ipv4Addr
  payload : List UInt8
  deriving DecidableEq

/-- The big-endian words of some bytes; an odd last byte is dropped. -/
def words : List UInt8 → List Nat
  | high :: low :: rest => (be16 high low).toNat :: words rest
  | _ => []

/-- `!(sum as u16)` of the folded sum. Every round of the loop lowers the sum,
    which therefore bounds the rounds. -/
def checksum (bytes : List UInt8) : UInt16 :=
  let sum := (words bytes).sum
  ~~~UInt16.ofNat (fold 65536 sum sum)

/-- The twenty bytes before the payload. -/
def header (protocol : UInt8) (source destination : Ipv4Addr) (length : Nat) (check : UInt16) :
    List UInt8 :=
  [0x45, 0] ++ u16BeBytes length ++ [0, 0, 0x40, 0, 64, protocol] ++ u16BeBytes check.toNat
    ++ [source.a, source.b, source.c, source.d]
    ++ [destination.a, destination.b, destination.c, destination.d]

/-- The checksum is computed while its own field is zero. -/
def encode (protocol : UInt8) (source destination : Ipv4Addr) (payload : List UInt8) :
    Result (List UInt8) := do
  ensure (isControl protocol && source.isPrivate && destination.isPrivate
    && decide (source ≠ destination) && !payload.isEmpty
    && decide (payload.length ≤ maxPacket - 20)) "invalid private control envelope"
  let header := header protocol source destination (20 + payload.length)
  return header (checksum (header 0)) ++ payload

/-- The checks are made in this order, and the first that fails ends them. -/
def decode (protocol : UInt8) (packet : List UInt8) : Guarded (Option Envelope) := do
  if !isControl protocol then return none
  if packet.length < 21 ∨ maxPacket < packet.length then return none
  if (← index packet 0) ≠ 0x45 then return none
  if (← index packet 9) ≠ protocol then return none
  if (← index packet 6) &&& 0x3f ≠ 0 then return none
  if (← index packet 7) ≠ 0 then return none
  if (be16 (← index packet 2) (← index packet 3)).toNat ≠ packet.length then return none
  if checksum (← slice packet 0 20) ≠ 0 then return none
  let source : Ipv4Addr :=
    ⟨← index packet 12, ← index packet 13, ← index packet 14, ← index packet 15⟩
  let destination : Ipv4Addr :=
    ⟨← index packet 16, ← index packet 17, ← index packet 18, ← index packet 19⟩
  if !source.isPrivate || !destination.isPrivate || source == destination then return none
  return some ⟨source, destination, ← slice packet 20 packet.length⟩

section Checksum

variable {bytes : List UInt8}

theorem words_small (bytes : List UInt8) : ∀ word ∈ words bytes, word < 65536 := by
  induction bytes using words.induct with
  | case1 high low rest ih =>
      exact List.forall_mem_cons.mpr ⟨(be16 high low).toNat_lt, ih⟩
  | case2 => simp [words]

theorem fold_lt (total : Nat) : fold 65536 total total < 65536 :=
  (fold_represents (by decide) (Nat.le_refl _)).bounded

theorem checksum_toNat (bytes : List UInt8) :
    (checksum bytes).toNat = 65535 - fold 65536 (words bytes).sum (words bytes).sum := by
  have bounded := fold_lt (words bytes).sum
  unfold checksum
  rw [UInt16.toNat_not, UInt16.toNat_ofNat', Nat.mod_eq_of_lt bounded]
  simp [UInt16.size]

/-- The checksum of a header that carries one is zero when the words add up to
    all ones. -/
theorem checksum_eq_zero_iff : checksum bytes = 0 ↔ sum 65536 (words bytes) = 65535 := by
  rw [← fold_eq_sum (by decide) (words_small bytes) (Nat.le_refl _), ← UInt16.toNat_inj, checksum_toNat]
  have bounded := fold_lt (words bytes).sum
  simp only [UInt16.toNat_zero]
  omega

end Checksum

section Decode

variable {protocol : UInt8} {packet : List UInt8} {rest : Guarded (Option Envelope)}

def sourceOf (packet : List UInt8) : Ipv4Addr :=
  ⟨packet.getD 12 0, packet.getD 13 0, packet.getD 14 0, packet.getD 15 0⟩

def destinationOf (packet : List UInt8) : Ipv4Addr :=
  ⟨packet.getD 16 0, packet.getD 17 0, packet.getD 18 0, packet.getD 19 0⟩

/-- Everything that is checked of a packet. -/
structure Acceptable (protocol : UInt8) (packet : List UInt8) : Prop where
  control : isControl protocol = true
  sized : ¬(packet.length < 21 ∨ maxPacket < packet.length)
  version : packet.getD 0 0 = 0x45
  carried : packet.getD 9 0 = protocol
  flags : packet.getD 6 0 &&& 0x3f = 0
  offset : packet.getD 7 0 = 0
  length : (be16 (packet.getD 2 0) (packet.getD 3 0)).toNat = packet.length
  summed : sum 65536 (words (packet.take 20)) = 65535
  endpoints : (sourceOf packet).isPrivate = true ∧ (destinationOf packet).isPrivate = true ∧
    sourceOf packet ≠ destinationOf packet

/-- A check that ends the function. -/
theorem unless_eq_some {check : Prop} [Decidable check] {envelope} :
    (if check then .ok none else rest) = (.ok (some envelope) : Guarded (Option Envelope)) ↔
      ¬check ∧ rest = .ok (some envelope) := by
  by_cases failed : check
  · simp [failed]
  · simp [failed]

theorem unless_total {check : Prop} [Decidable check] (total : ∃ result, rest = .ok result) :
    ∃ result, (if check then .ok none else rest : Guarded (Option Envelope)) = .ok result := by
  by_cases failed : check
  · exact ⟨none, if_pos failed⟩
  · rw [if_neg failed]
    exact total

/-- Once its length was checked, the packet is long enough for everything that is
    read of it. -/
theorem decode_reads (sized : ¬(packet.length < 21 ∨ maxPacket < packet.length)) :
    decode protocol packet =
      if !isControl protocol then .ok none
      else if packet.getD 0 0 ≠ 0x45 then .ok none
      else if packet.getD 9 0 ≠ protocol then .ok none
      else if packet.getD 6 0 &&& 0x3f ≠ 0 then .ok none
      else if packet.getD 7 0 ≠ 0 then .ok none
      else if (be16 (packet.getD 2 0) (packet.getD 3 0)).toNat ≠ packet.length then .ok none
      else if checksum (packet.take 20) ≠ 0 then .ok none
      else if !(sourceOf packet).isPrivate || !(destinationOf packet).isPrivate
          || sourceOf packet == destinationOf packet then .ok none
      else .ok (some ⟨sourceOf packet, destinationOf packet, packet.drop 20⟩) := by
  have byte : ∀ i, i < 20 → index packet i = .ok (packet.getD i 0) := fun i room =>
    index_ok 0 (by omega)
  have front : slice packet 0 20 = .ok (packet.take 20) := slice_ok (by omega) (by omega)
  have back : slice packet 20 packet.length = .ok (packet.drop 20) := by
    rw [slice_ok (by omega) (Nat.le_refl _), List.take_length]
  unfold decode
  simp only [sized, byte 0 (by omega), byte 2 (by omega), byte 3 (by omega),
    byte 6 (by omega), byte 7 (by omega), byte 9 (by omega), byte 12 (by omega), byte 13 (by omega),
    byte 14 (by omega), byte 15 (by omega), byte 16 (by omega), byte 17 (by omega),
    byte 18 (by omega), byte 19 (by omega), front, back, bind, Except.bind, pure, Except.pure,
    if_false]
  rfl

theorem decode_unsized (unsized : packet.length < 21 ∨ maxPacket < packet.length) :
    decode protocol packet = .ok none := by
  unfold decode
  rw [if_pos unsized, ite_self]
  rfl

theorem decode_total (protocol : UInt8) (packet : List UInt8) :
    ∃ result, decode protocol packet = .ok result := by
  by_cases sized : packet.length < 21 ∨ maxPacket < packet.length
  · exact ⟨none, decode_unsized sized⟩
  · rw [decode_reads sized]
    iterate 8 refine unless_total ?_
    exact ⟨_, rfl⟩

theorem decode_eq_some {envelope} :
    decode protocol packet = .ok (some envelope) ↔
      Acceptable protocol packet ∧
        envelope = ⟨sourceOf packet, destinationOf packet, packet.drop 20⟩ := by
  by_cases sized : packet.length < 21 ∨ maxPacket < packet.length
  · rw [decode_unsized sized]
    constructor
    · nofun
    · intro accepted
      exact absurd sized accepted.1.sized
  · rw [decode_reads sized]
    simp only [unless_eq_some, ne_eq, not_not, checksum_eq_zero_iff, Except.ok.injEq, Option.some.injEq,
      Bool.or_eq_true, Bool.not_eq_true', Bool.not_eq_false, beq_iff_eq, not_or]
    constructor
    · rintro ⟨control, version, carried, flags, offset, length, summed, ⟨⟨first, second⟩, apart⟩, rfl⟩
      exact ⟨⟨control, sized, version, carried, flags, offset, length, summed, first, second, apart⟩, rfl⟩
    · rintro ⟨⟨control, _, version, carried, flags, offset, length, summed, first, second, apart⟩, rfl⟩
      exact ⟨control, version, carried, flags, offset, length, summed, ⟨⟨first, second⟩, apart⟩, rfl⟩

end Decode

section Encode

variable {protocol : UInt8} {source destination : Ipv4Addr} {payload : List UInt8}

theorem header_length (length : Nat) (check : UInt16) :
    (header protocol source destination length check).length = 20 := rfl

/-- The field of the checksum is one word of the header. -/
theorem words_header (length : Nat) (check : UInt16) :
    (words (header protocol source destination length check)).sum =
      (words (header protocol source destination length 0)).sum + check.toNat := by
  have field : (be16 (UInt8.ofNat (check.toNat / 256)) (UInt8.ofNat check.toNat)).toNat = check.toNat :=
    be16_u16BeBytes check.toNat_lt
  have empty : (be16 (UInt8.ofNat ((0 : UInt16).toNat / 256)) (UInt8.ofNat (0 : UInt16).toNat)).toNat = 0 :=
    rfl
  simp only [header, u16BeBytes, List.cons_append, List.nil_append, words, List.sum_cons, List.sum_nil,
    field, empty]
  omega

/-- With its checksum in place the header adds up to all ones. -/
theorem header_summed (length : Nat) :
    sum 65536 (words (header protocol source destination length
      (checksum (header protocol source destination length 0)))) = 65535 := by
  rw [← fold_eq_sum (by decide) (words_small _) (Nat.le_refl _), words_header]
  exact fold_complement (by decide) (Nat.le_refl _) (checksum_toNat _) (Nat.le_refl _)

section

variable (control : isControl protocol = true) (first : source.isPrivate = true)
  (second : destination.isPrivate = true) (apart : source ≠ destination) (filled : 1 ≤ payload.length)
  (bounded : payload.length ≤ maxPacket - 20)

include control first second apart filled bounded

theorem header_acceptable : Acceptable protocol (header protocol source destination (20 + payload.length)
      (checksum (header protocol source destination (20 + payload.length) 0)) ++ payload) := by
  have short : 20 + payload.length < 65536 := by
    have packet : maxPacket = 1380 := rfl
    omega
  have flags : (0x40 : UInt8) &&& 0x3f = 0 := by decide
  refine ⟨control, ?_, rfl, rfl, flags, rfl, ?_, ?_, first, second, apart⟩
  · rw [List.length_append, header_length]
    have packet : maxPacket = 1380 := rfl
    omega
  · rw [List.length_append, header_length]
    exact be16_u16BeBytes short
  · rw [List.take_left' (header_length _ _)]
    exact header_summed _

theorem decode_encoded : ∃ packet, encode protocol source destination payload = .ok packet ∧
      Acceptable protocol packet ∧
      decode protocol packet = .ok (some ⟨source, destination, payload⟩) := by
  have passes : (isControl protocol && source.isPrivate && destination.isPrivate
      && decide (source ≠ destination) && !payload.isEmpty
      && decide (payload.length ≤ maxPacket - 20)) = true := by
    have present : payload.isEmpty = false := by
      rw [List.isEmpty_eq_false_iff]
      exact List.ne_nil_of_length_pos filled
    simp [control, first, second, apart, present, bounded]
  have acceptable := header_acceptable control first second apart filled bounded
  refine ⟨_, ?_, acceptable, decode_eq_some.mpr ⟨acceptable, ?_⟩⟩
  · unfold encode
    rw [passes]
    rfl
  · rw [List.drop_left' (header_length _ _)]
    rfl

end

end Encode

/-- Nothing that is decoded is taken for data. -/
theorem Acceptable.not_data {protocol packet} (acceptable : Acceptable protocol packet) :
    Packet.parse packet = none := by
  have control := acceptable.control
  rw [← acceptable.carried] at control
  have other : Packet.byteAt packet 9 ≠ 6 ∧ Packet.byteAt packet 9 ≠ 17 ∧ Packet.byteAt packet 9 ≠ 1 := by
    refine ⟨?_, ?_, ?_⟩ <;>
    · intro same
      rw [Packet.byteAt] at same
      rw [same] at control
      exact absurd control (by decide)
  have refused (h n : Nat) (data : Packet) : Packet.parseTransport packet h n data = none := by
    simp [Packet.parseTransport, other]
  unfold Packet.parse
  simp [refused]

/-- Every envelope comes back as it was sent, under its own protocol only and
    never as data; whatever is decoded is between two private addresses under a
    valid header, and no byte outside the packet is read. -/
theorem control_envelopes : (∀ (protocol : UInt8) (source destination : Ipv4Addr) (payload : List UInt8),
      protocol = exit ∨ protocol = stream ∨ protocol = probe → source.isPrivate = true →
      destination.isPrivate = true → source ≠ destination → 1 ≤ payload.length →
      payload.length ≤ maxPacket - 20 →
      ∃ packet, encode protocol source destination payload = .ok packet ∧
        decode protocol packet = .ok (some ⟨source, destination, payload⟩) ∧
        (∀ other, other ≠ protocol → decode other packet = .ok none) ∧ Packet.parse packet = none) ∧
    ∀ (protocol : UInt8) (packet : List UInt8),
      ∃ result, decode protocol packet = .ok result ∧
        ∀ envelope, result = some envelope →
          envelope.source.isPrivate = true ∧ envelope.destination.isPrivate = true ∧
          envelope.source ≠ envelope.destination ∧ sum 65536 (words (packet.take 20)) = 65535 := by
  constructor
  · intro protocol source destination payload named first second apart filled bounded
    have control : isControl protocol = true := by
      rcases named with rfl | rfl | rfl
      · decide
      · decide
      · decide
    obtain ⟨packet, encoded, acceptable, decoded⟩ :=
      decode_encoded control first second apart filled bounded
    refine ⟨packet, encoded, decoded, ?_, acceptable.not_data⟩
    intro other different
    obtain ⟨result, total⟩ := decode_total other packet
    cases result with
    | none => exact total
    | some envelope =>
        have carried := (decode_eq_some.mp total).1.carried
        exact absurd (carried.symm.trans acceptable.carried) different
  · intro protocol packet
    obtain ⟨result, total⟩ := decode_total protocol packet
    refine ⟨result, total, ?_⟩
    rintro envelope rfl
    obtain ⟨acceptable, rfl⟩ := decode_eq_some.mp total
    obtain ⟨first, second, apart⟩ := acceptable.endpoints
    exact ⟨first, second, apart, acceptable.summed⟩

theorem probe_comes_back : ∃ packet, encode probe ⟨10, 0, 0, 1⟩ ⟨192, 168, 0, 2⟩ [1, 2, 3] = .ok packet ∧
      decode probe packet = .ok (some ⟨⟨10, 0, 0, 1⟩, ⟨192, 168, 0, 2⟩, [1, 2, 3]⟩) ∧
      decode exit packet = .ok none := by
  obtain ⟨packet, encoded, decoded, others, _⟩ := control_envelopes.1 probe ⟨10, 0, 0, 1⟩
    ⟨192, 168, 0, 2⟩ [1, 2, 3] (by decide) (by decide) (by decide) (by decide) (by decide) (by decide)
  exact ⟨packet, encoded, decoded, others exit (by decide)⟩

end PortHub.Mesh.ControlPacket
