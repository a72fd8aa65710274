import PortHub.Agent.Relay
import PortHub.Mesh.ControlPacket

/-! # Carrier affinity

Packets of one flow should stay on one lane, or they are reordered. A packet in
an exit envelope is hashed with the ports that its own header leads to. A plain
packet is hashed with the four bytes behind the first twenty, which are the ports
only if the header has no options.
-/

namespace PortHub.Agent.Relay

open Network Mesh

/-- The bytes that the hasher is fed: a text ends in `0xff`, and a slice follows
    its length. -/
def Hashed.bytes : Hashed → Bytes
  | .text value => utf8 value ++ [0xff]
  | .slice value =>
      (List.range 8).map (fun place => UInt8.ofNat (value.length >>> (8 * place))) ++ value
  | .byte value => [value]

/-- A hasher is a function of the bytes it was fed. -/
def hasher (digest : Bytes → UInt64) (parts : List Hashed) : UInt64 := digest (parts.flatMap Hashed.bytes)

/-- The same addresses, protocol and ports. -/
structure SameFlow (first second : Packet) : Prop where
  src : first.key.src = second.key.src
  dst : first.key.dst = second.key.dst
  protocol : first.key.protocol = second.key.protocol
  sport : first.key.sport = second.key.sport
  dport : first.key.dport = second.key.dport

/-- Two packets take the same lane, plainly and in exit envelopes; the lane is a
    ready one, and there is one unless none is ready. -/
structure Affine (first second : Bytes) : Prop where
  plain : ∀ digest (sender : Sender) peer,
    sender.packetLane (hasher digest) peer first = sender.packetLane (hasher digest) peer second
  wrapped : ∀ digest (sender : Sender) peer source destination source' destination' outer outer',
    ControlPacket.encode ControlPacket.exit source destination first = .ok outer →
    ControlPacket.encode ControlPacket.exit source' destination' second = .ok outer' →
    sender.packetLane (hasher digest) peer outer = sender.packetLane (hasher digest) peer outer'
  ready : ∀ digest (sender : Sender) peer packet lane,
    sender.packetLane (hasher digest) peer packet = .ok lane → (sender.lanes lane).ready = true
  refused : ∀ digest (sender : Sender) peer packet message,
    sender.packetLane (hasher digest) peer packet = .error message →
      ∀ lane, (sender.lanes lane).ready = false

section Headers

variable {bytes : Bytes} {packet : Packet}

/-- Where the ports are. -/
def headerLength (bytes : Bytes) : Nat := (bytes.getD 0 0 &&& 15).toNat * 4

/-- What an accepted packet says about its bytes. -/
structure Read (bytes : Bytes) (packet : Packet) : Prop where
  header : 20 ≤ headerLength bytes
  room : headerLength bytes + 8 ≤ bytes.length
  protocol : packet.key.protocol = bytes.getD 9 0
  known : bytes.getD 9 0 = 6 ∨ bytes.getD 9 0 = 17 ∨ bytes.getD 9 0 = 1
  src : packet.key.src = ⟨bytes.getD 12 0, bytes.getD 13 0, bytes.getD 14 0, bytes.getD 15 0⟩
  dst : packet.key.dst = ⟨bytes.getD 16 0, bytes.getD 17 0, bytes.getD 18 0, bytes.getD 19 0⟩
  ports : bytes.getD 9 0 ≠ 1 →
    packet.key.sport = be16 (bytes.getD (headerLength bytes) 0) (bytes.getD (headerLength bytes + 1) 0) ∧
    packet.key.dport = be16 (bytes.getD (headerLength bytes + 2) 0) (bytes.getD (headerLength bytes + 3) 0)

theorem parseTransport_read {h n next} (read : Packet.parseTransport bytes h n packet = some next) :
    h + 8 ≤ n ∧ next.key.src = packet.key.src ∧ next.key.dst = packet.key.dst ∧
      next.key.protocol = packet.key.protocol ∧
      (bytes.getD 9 0 = 6 ∨ bytes.getD 9 0 = 17 ∨ bytes.getD 9 0 = 1) := by
  unfold Packet.parseTransport Packet.byteAt at read
  dsimp only at read
  split at read
  · rename_i tcp
    split at read
    · cases read
    · split at read
      · cases read
      · cases read
        exact ⟨by omega, rfl, rfl, rfl, .inl tcp⟩
  · split at read
    · rename_i udp
      split at read
      · cases read
      · cases read
        exact ⟨by omega, rfl, rfl, rfl, .inr (.inl udp)⟩
    · split at read
      · rename_i icmp
        split at read
        · cases read
        · cases read
          exact ⟨by omega, rfl, rfl, rfl, .inr (.inr icmp)⟩
      · cases read

theorem parse_read (read : Packet.parse bytes = some packet) : Read bytes packet := by
  unfold Packet.parse Packet.byteAt at read
  dsimp only at read
  split at read
  · cases read
  · split at read
    · cases read
    · rename_i shape
      simp only [not_or, Nat.not_lt, ne_eq, not_not] at shape
      obtain ⟨header, _, whole, _⟩ := shape
      split at read
      · cases read
      · obtain ⟨between, transport, ports⟩ := Option.bind_eq_some_iff.mp read
        obtain ⟨room, src, dst, protocol, known⟩ := parseTransport_read transport
        rw [whole] at room
        unfold Packet.parsePorts Packet.byteAt at ports
        dsimp only at ports
        split at ports
        · split at ports
          · cases ports
          · cases ports
            exact ⟨header, room, protocol, known, src, dst, fun _ => ⟨rfl, rfl⟩⟩
        · rename_i echo
          cases ports
          exact ⟨header, room, protocol, known, src, dst, fun other => absurd other echo⟩

/-- The bytes of a range, one by one. -/
theorem range_eq_map {start count} (inside : start + count ≤ bytes.length) :
    (bytes.drop start).take count = (List.range count).map fun place => bytes.getD (start + place) 0 := by
  refine List.ext_getElem (by simp; omega) ?_
  intro place first second
  have here : start + place < bytes.length := by
    simp at second
    omega
  simp [List.getD, List.getElem?_eq_getElem here]

theorem be16_inj {a b c d} (same : be16 a b = be16 c d) : a = c ∧ b = d := by
  have value := congrArg UInt16.toNat same
  rw [be16_toNat, be16_toNat] at value
  have := b.toNat_lt
  have := d.toNat_lt
  exact ⟨UInt8.toNat_inj.mp (by omega), UInt8.toNat_inj.mp (by omega)⟩

end Headers

section Flows

variable {first second : Bytes} {a b : Packet} {packet : Bytes} {hash : List Hashed → UInt64}
  {sender : Sender} {peer : String}

/-- Two packets of one flow, and what their bytes then have in common. -/
structure OneFlow (first second : Bytes) : Prop where
  long : 28 ≤ first.length ∧ 28 ≤ second.length
  protocol : first.getD 9 0 = second.getD 9 0
  known : second.getD 9 0 = 6 ∨ second.getD 9 0 = 17 ∨ second.getD 9 0 = 1
  addresses : (first.drop 12).take 8 = (second.drop 12).take 8
  headers : 20 ≤ headerLength first ∧ 20 ≤ headerLength second
  ports : second.getD 9 0 ≠ 1 →
    getRange first (headerLength first) 4 = getRange second (headerLength second) 4

theorem Read.oneFlow (left : Read first a) (right : Read second b) (same : SameFlow a b) :
    OneFlow first second := by
  have protocol : first.getD 9 0 = second.getD 9 0 := by
    rw [← left.protocol, ← right.protocol, same.protocol]
  have leftHeader := left.header
  have rightHeader := right.header
  have leftRoom := left.room
  have rightRoom := right.room
  refine ⟨⟨by omega, by omega⟩, protocol, right.known, ?_, ⟨leftHeader, rightHeader⟩, ?_⟩
  · have src := left.src.symm.trans (same.src.trans right.src)
    have dst := left.dst.symm.trans (same.dst.trans right.dst)
    simp only [Ipv4Addr.mk.injEq] at src dst
    obtain ⟨s0, s1, s2, s3⟩ := src
    obtain ⟨d0, d1, d2, d3⟩ := dst
    rw [range_eq_map (by omega), range_eq_map (by omega)]
    simp only [show List.range 8 = [0, 1, 2, 3, 4, 5, 6, 7] from rfl, List.map_cons, List.map_nil,
      Nat.reduceAdd, s0, s1, s2, s3, d0, d1, d2, d3]
  · intro other
    obtain ⟨leftSource, leftTarget⟩ := left.ports (protocol ▸ other)
    obtain ⟨rightSource, rightTarget⟩ := right.ports other
    obtain ⟨p0, p1⟩ := be16_inj (leftSource.symm.trans (same.sport.trans rightSource))
    obtain ⟨p2, p3⟩ := be16_inj (leftTarget.symm.trans (same.dport.trans rightTarget))
    unfold getRange
    rw [if_pos (by omega), if_pos (by omega), range_eq_map (by omega), range_eq_map (by omega)]
    simp only [show List.range 4 = [0, 1, 2, 3] from rfl, List.map_cons, List.map_nil, Nat.add_zero,
      p0, p1, p2, p3]

/-- The bytes that a plain packet of TCP or UDP is hashed with besides its
    addresses. -/
def portBytes (packet : Bytes) : Bytes := (packet.drop 20).take 4

theorem plain_parts (long : 28 ≤ packet.length)
    (known : packet.getD 9 0 = 6 ∨ packet.getD 9 0 = 17 ∨ packet.getD 9 0 = 1) (peer : String) :
    hashedParts peer packet =
      [.text peer, .byte (packet.getD 9 0), .slice ((packet.drop 12).take 8)] ++
        if packet.getD 9 0 = 1 then [] else [.slice (portBytes packet)] := by
  have header : 20 ≤ packet.length := by omega
  have ports : 24 ≤ packet.length := by omega
  unfold hashedParts packetParts streamProtocol exitProtocol portBytes
  rcases known with tcp | udp | icmp
  · simp only [tcp, header, ports]
    simp
  · simp only [udp, header, ports]
    simp
  · simp only [icmp, header]
    simp

/-- Inside an exit envelope the packet itself is hashed. -/
theorem wrapped_parts {source destination} {inner : Bytes} {outer} (long : 28 ≤ inner.length)
    (encoded : ControlPacket.encode ControlPacket.exit source destination inner = .ok outer)
    (peer : String) : hashedParts peer outer = .text peer :: exitParts inner := by
  obtain ⟨_, _, encoded⟩ := bind_eq_ok.mp encoded
  obtain rfl := pure_eq_ok.mp encoded
  generalize ControlPacket.checksum _ = check
  have size : (ControlPacket.header ControlPacket.exit source destination (20 + inner.length)
      check).length = 20 := ControlPacket.header_length _ _
  have carried : (ControlPacket.header ControlPacket.exit source destination (20 + inner.length) check ++
      inner).getD 9 0 = exitProtocol := rfl
  have enough : 40 ≤ (ControlPacket.header ControlPacket.exit source destination (20 + inner.length) check ++
      inner).length := by
    rw [List.length_append, size]
    omega
  have other : ¬(exitProtocol == streamProtocol) = true := by decide
  unfold hashedParts
  rw [carried, List.drop_left' size, if_neg (by simp [other]), if_pos (by simp only [enough]; rfl)]

theorem OneFlow.wrapped (flow : OneFlow first second) : exitParts first = exitParts second := by
  unfold exitParts
  have left := flow.headers.1
  have right := flow.headers.2
  unfold headerLength at left right
  simp only [flow.protocol, flow.addresses, left, right, decide_true, Bool.and_true]
  split
  · rename_i named
    have other : second.getD 9 0 ≠ 1 := by
      intro echo
      rw [echo] at named
      exact absurd named (by decide)
    have ports := flow.ports other
    unfold headerLength at ports
    rw [ports]
  · rfl

theorem lane_of_parts (same : hashedParts peer first = hashedParts peer second) :
    sender.packetLane hash peer first = sender.packetLane hash peer second := by
  simp only [Sender.packetLane, same]

theorem lane_ready {lane} (chosen : sender.packetLane hash peer packet = .ok lane) :
    (sender.lanes lane).ready = true := by
  unfold Sender.packetLane at chosen
  dsimp only at chosen
  split at chosen
  · rename_i found
    cases chosen
    exact @List.find?_some _ (fun lane => (sender.lanes lane).ready) _ _ found
  · cases chosen

/-- The four lanes are tried in turn from any start. -/
theorem lane_refused {message} (refused : sender.packetLane hash peer packet = .error message)
    (lane : Fin relayLanes) :
    (sender.lanes lane).ready = false := by
  unfold Sender.packetLane at refused
  dsimp only at refused
  split at refused
  · cases refused
  · rename_i none
    rw [List.find?_eq_none] at none
    let start := (hash (hashedParts peer packet)).toNat % relayLanes
    have tried : lane ∈ (List.range relayLanes).map fun offset =>
        (⟨(start + offset) % relayLanes, Nat.mod_lt _ (by decide)⟩ : Fin relayLanes) := by
      refine List.mem_map.mpr ⟨(lane + relayLanes - start) % relayLanes, ?_, ?_⟩
      · exact List.mem_range.mpr (Nat.mod_lt _ (by decide))
      · have small := lane.isLt
        have begun : start < relayLanes := Nat.mod_lt _ (by decide)
        refine Fin.ext ?_
        simp only [relayLanes] at small begun ⊢
        omega
    simpa using none lane tried

/-- A hasher that tells the bytes of one packet from all others. -/
def spotting (known : Bytes) (bytes : Bytes) : UInt64 := if bytes = known then 0 else 1

def allReady : Sender := ⟨fun _ => ⟨true, true, []⟩, 0⟩

/-- Whatever is hashed differently is sent apart by some hasher. -/
theorem parts_of_lanes (agree : ∀ digest, allReady.packetLane (hasher digest) peer first =
      allReady.packetLane (hasher digest) peer second) :
    (hashedParts peer second).flatMap Hashed.bytes = (hashedParts peer first).flatMap Hashed.bytes := by
  by_contra apart
  have same := agree (spotting ((hashedParts peer first).flatMap Hashed.bytes))
  have values := congrArg Fin.val (Except.ok.inj same)
  simp only [hasher, spotting, if_true, if_neg apart] at values
  exact absurd values (by decide)

theorem OneFlow.plain_bytes (flow : OneFlow first second) (named : second.getD 9 0 ≠ 1)
    (same : (hashedParts peer second).flatMap Hashed.bytes = (hashedParts peer first).flatMap Hashed.bytes) :
    portBytes first = portBytes second := by
  have known : first.getD 9 0 = 6 ∨ first.getD 9 0 = 17 ∨ first.getD 9 0 = 1 := flow.protocol ▸ flow.known
  rw [plain_parts flow.long.1 known, plain_parts flow.long.2 flow.known, flow.protocol, flow.addresses,
    if_neg named, if_neg named, List.flatMap_append, List.flatMap_append, List.append_cancel_left_eq] at same
  have sizes : (portBytes first).length = 4 ∧ (portBytes second).length = 4 := by
    obtain ⟨left, right⟩ := flow.long
    simp only [portBytes, List.length_take, List.length_drop]
    omega
  simp only [List.flatMap_cons, List.flatMap_nil, List.append_nil, Hashed.bytes, sizes] at same
  exact (List.append_cancel_left same).symm

theorem OneFlow.plain_parts_eq (flow : OneFlow first second)
    (same : second.getD 9 0 = 1 ∨ portBytes first = portBytes second) (peer : String) :
    hashedParts peer first = hashedParts peer second := by
  have known : first.getD 9 0 = 6 ∨ first.getD 9 0 = 17 ∨ first.getD 9 0 = 1 := flow.protocol ▸ flow.known
  rw [plain_parts flow.long.1 known, plain_parts flow.long.2 flow.known, flow.protocol, flow.addresses]
  rcases same with echo | ports
  · rw [if_pos echo, if_pos echo]
  · rw [ports]

end Flows

/-- Packets of one flow keep their lane exactly when they are echoes or the four
    bytes behind the first twenty are the same. -/
theorem affine_iff {first second : Bytes} {a b : Packet} (left : Packet.parse first = some a)
    (right : Packet.parse second = some b) (same : SameFlow a b) :
    Affine first second ↔ (a.key.protocol = 1 ∨ portBytes first = portBytes second) := by
  have reads := parse_read right
  have flow := (parse_read left).oneFlow reads same
  have protocol : a.key.protocol = second.getD 9 0 := same.protocol.trans reads.protocol
  rw [protocol]
  constructor
  · intro affine
    by_cases echo : second.getD 9 0 = 1
    · exact .inl echo
    · have hashed := parts_of_lanes fun digest => affine.plain digest allReady ""
      exact .inr (flow.plain_bytes echo hashed)
  · intro condition
    refine ⟨?_, ?_, ?_, ?_⟩
    · intro digest sender peer
      exact lane_of_parts (flow.plain_parts_eq condition peer)
    · intro digest sender peer source destination source' destination' outer outer' one other
      refine lane_of_parts ?_
      rw [wrapped_parts flow.long.1 one, wrapped_parts flow.long.2 other, flow.wrapped]
    · intro digest sender peer packet lane chosen
      exact lane_ready chosen
    · intro digest sender peer packet message refused lane
      exact lane_refused refused lane

/-- A TCP packet from port 40000 of 10.0.0.1 to port 443 of 10.0.0.2. -/
def examplePlain : Bytes :=
  [69, 0, 0, 40, 0, 0, 64, 0, 64, 6, 38, 206, 10, 0, 0, 1, 10, 0, 0, 2, 156, 64, 1, 187, 0, 0, 0, 0, 0,
    0, 0, 0, 80, 16, 0, 0, 0, 0, 0, 0]

/-- The same with four options that do nothing. -/
def exampleOptions : Bytes :=
  [70, 0, 0, 44, 0, 0, 64, 0, 64, 6, 35, 200, 10, 0, 0, 1, 10, 0, 0, 2, 1, 1, 1, 1, 156, 64, 1, 187, 0,
    0, 0, 0, 0, 0, 0, 0, 80, 16, 0, 0, 0, 0, 0, 0]

/-- The same with another payload. -/
def examplePayload : Bytes :=
  [69, 0, 0, 41, 0, 0, 64, 0, 64, 6, 38, 205, 10, 0, 0, 1, 10, 0, 0, 2, 156, 64, 1, 187, 0, 0, 0, 0, 0,
    0, 0, 0, 80, 16, 0, 0, 0, 0, 0, 0, 7]

def exampleKey : Key := ⟨⟨10, 0, 0, 1⟩, ⟨10, 0, 0, 2⟩, 6, 40000, 443, 0⟩

def examplePacket : Packet := ⟨exampleKey, false, true, false, false, 0, 0⟩

theorem payload_keeps_lane : Affine examplePlain examplePayload :=
  (affine_iff (show Packet.parse examplePlain = some examplePacket by decide)
    (show Packet.parse examplePayload = some examplePacket by decide)
    ⟨rfl, rfl, rfl, rfl, rfl⟩).mpr (.inr (by decide))

/-- Options move a packet to another lane, here with the last byte as the hash. -/
theorem options_change_lane :
    Packet.parse examplePlain = some examplePacket ∧ Packet.parse exampleOptions = some examplePacket ∧
      ¬Affine examplePlain exampleOptions := by
  refine ⟨by decide, by decide, fun affine => ?_⟩
  have same := affine.plain (fun bytes => (bytes.getLastD 0).toUInt64) allReady "peer"
  have lanes := congrArg Fin.val (Except.ok.inj same)
  exact absurd lanes (by decide)

end PortHub.Agent.Relay
