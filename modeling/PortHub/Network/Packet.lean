import PortHub.Rust

/-! # IPv4 packets as the private policy sees them

`Packet.parse` accepts an unfragmented IPv4 packet whose declared length and
header checksum are right and whose transport is TCP, UDP or ICMP echo. Only
the tuple, the TCP flags, the opening sequence and the echo type survive.
-/

namespace PortHub.Network

/-- The tuple that identifies a conversation in one direction. -/
structure Key where
  src : Ipv4Addr
  dst : Ipv4Addr
  protocol : UInt8
  sport : UInt16
  dport : UInt16
  icmp : UInt16
  deriving DecidableEq, Repr

/-- The tuple of a packet in the other direction. -/
def Key.reverse (key : Key) : Key :=
  { key with src := key.dst, dst := key.src, sport := key.dport, dport := key.sport }

@[simp] theorem Key.reverse_reverse (key : Key) : key.reverse.reverse = key := rfl

structure Packet where
  key : Key
  syn : Bool
  ack : Bool
  rst : Bool
  fin : Bool
  icmpType : UInt8
  tcpSequence : UInt32
  deriving DecidableEq, Repr

namespace Packet

def source (packet : Packet) : Ipv4Addr := packet.key.src

def destination (packet : Packet) : Ipv4Addr := packet.key.dst

/-- The sequence number of a pure TCP SYN. -/
def openingSequence (packet : Packet) : Option UInt32 :=
  if packet.key.protocol == 6 && packet.syn && !packet.ack && !packet.fin && !packet.rst then
    some packet.tcpSequence
  else none

/-- Sum of the big-endian 16-bit words; an odd last byte is dropped. -/
def sumWords : List UInt8 → Nat
  | high :: low :: rest => (be16 high low).toNat + sumWords rest
  | _ => 0

/-- The carry loop of the header checksum. Every round lowers a sum of more
    than sixteen bits, so the sum itself bounds the number of rounds. -/
def foldCarries : Nat → Nat → Nat
  | 0, sum => sum
  | rounds + 1, sum =>
      if sum >>> 16 ≠ 0 then foldCarries rounds ((sum &&& 65535) + (sum >>> 16)) else sum

def byteAt (bytes : List UInt8) (index : Nat) : UInt8 := bytes.getD index 0

/-- Flags, sequence and echo identity, read behind an IP header of `h` bytes in
    a packet of `n` bytes. -/
def parseTransport (bytes : List UInt8) (h n : Nat) (packet : Packet) : Option Packet :=
  let byte := byteAt bytes
  if byte 9 = 6 then
    if n - h < 20 then none
    else
      let header := (byte (h + 12) >>> 4).toNat * 4
      if header < 20 ∨ header > n - h then none
      else some { packet with
        tcpSequence := be32 (byte (h + 4)) (byte (h + 5)) (byte (h + 6)) (byte (h + 7))
        syn := byte (h + 13) &&& 2 != 0
        ack := byte (h + 13) &&& 16 != 0
        rst := byte (h + 13) &&& 4 != 0
        fin := byte (h + 13) &&& 1 != 0 }
  else if byte 9 = 17 then
    if n - h < 8 ∨ (be16 (byte (h + 4)) (byte (h + 5))).toNat ≠ n - h then none
    else some packet
  else if byte 9 = 1 then
    if n - h < 8 ∨ ¬ (byte h = 0 ∨ byte h = 8) then none
    else some { packet with
      icmpType := byte h
      key := { packet.key with icmp := be16 (byte (h + 4)) (byte (h + 5)) } }
  else none

/-- Ports of TCP and UDP; a zero port is refused. -/
def parsePorts (bytes : List UInt8) (h : Nat) (packet : Packet) : Option Packet :=
  let byte := byteAt bytes
  if byte 9 ≠ 1 then
    let sport := be16 (byte h) (byte (h + 1))
    let dport := be16 (byte (h + 2)) (byte (h + 3))
    if sport = 0 ∨ dport = 0 then none
    else some { packet with key := { packet.key with sport := sport, dport := dport } }
  else some packet

def parse (bytes : List UInt8) : Option Packet :=
  let byte := byteAt bytes
  if bytes.length < 20 ∨ byte 0 >>> 4 ≠ 4 then none
  else
    let h := (byte 0 &&& 15).toNat * 4
    let n := (be16 (byte 2) (byte 3)).toNat
    if h < 20 ∨ h > bytes.length ∨ n ≠ bytes.length ∨ be16 (byte 6) (byte 7) &&& 0x3fff ≠ 0 then
      none
    else
      let sum := sumWords (bytes.take h)
      if foldCarries sum sum ≠ 65535 then none
      else
        let packet : Packet :=
          { key :=
              { src := ⟨byte 12, byte 13, byte 14, byte 15⟩
                dst := ⟨byte 16, byte 17, byte 18, byte 19⟩
                protocol := byte 9
                sport := 0
                dport := 0
                icmp := 0 }
            syn := false
            ack := false
            rst := false
            fin := false
            icmpType := 0
            tcpSequence := 0 }
        (parseTransport bytes h n packet).bind (parsePorts bytes h)

end Packet

end PortHub.Network
