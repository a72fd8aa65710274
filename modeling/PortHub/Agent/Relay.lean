import PortHub.Mesh.Batch
import Mathlib.Data.Fintype.Basic

/-! # The packet relay of an agent

`Sender::send` frames a packet for a peer and queues it on one of four lanes.
A lane sends its records one by one, or in batches when the gateway negotiated
them; the far end takes the frame apart and dispatches every record. The lane
is chosen by a hash, which is a parameter.
-/

namespace PortHub.Agent.Relay

open Mesh

abbrev Bytes := List UInt8

def relayLanes : Nat := 4

def relayQueuePackets : Nat := 2048

/-- The bounded queue of a lane; `attached` while its receiver exists. -/
structure Lane where
  ready : Bool
  attached : Bool
  queue : List Bytes
  deriving DecidableEq, Repr

structure Sender where
  lanes : Fin relayLanes → Lane
  droppedPackets : UInt64

/-- What `packet_lane` feeds to its hasher. -/
inductive Hashed where
  | text (value : String)
  | slice (value : Bytes)
  | byte (value : UInt8)
  deriving DecidableEq, Repr

/-- `slice::get(start..start + length)`. -/
def getRange (bytes : Bytes) (start length : Nat) : Option Bytes :=
  if start + length ≤ bytes.length then some ((bytes.drop start).take length) else none

/-- `control_packet::EXIT` and `control_packet::STREAM`. -/
def exitProtocol : UInt8 := 252

def streamProtocol : UInt8 := 253

def streamParts (payload : Bytes) : List Hashed :=
  if payload.getD 0 0 &&& 0x80 == 0 then [.slice ((payload.drop 1).take 8)]
  else if 6 ≤ payload.length then
    ((getRange payload 6 (payload.getD 5 0).toNat).map Hashed.slice).toList
  else []

def exitParts (inner : Bytes) : List Hashed :=
  let protocol := inner.getD 9 0
  let header := (inner.getD 0 0 &&& 15).toNat * 4
  [.byte protocol, .slice ((inner.drop 12).take 8)] ++
    if (protocol == 6 || protocol == 17) && decide (20 ≤ header) then
      ((getRange inner header 4).map Hashed.slice).toList
    else []

def packetParts (packet : Bytes) : List Hashed :=
  let protocol := packet.getD 9 0
  [.byte protocol, .slice ((packet.drop 12).take 8)] ++
    if (protocol == 6 || protocol == 17) && decide (24 ≤ packet.length) then
      [.slice ((packet.drop 20).take 4)]
    else []

def hashedParts (peer : String) (packet : Bytes) : List Hashed :=
  .text peer ::
    if decide (29 ≤ packet.length) && packet.getD 9 0 == streamProtocol then
      streamParts (packet.drop 20)
    else if decide (40 ≤ packet.length) && packet.getD 9 0 == exitProtocol then
      exitParts (packet.drop 20)
    else if 20 ≤ packet.length then packetParts packet
    else []

/-- A record: the length of the peer id, the id and the packet. -/
def record (peer : String) (packet : Bytes) : Bytes :=
  UInt8.ofNat (utf8 peer).length :: (utf8 peer ++ packet)

namespace Sender

def isReady (sender : Sender) : Bool :=
  (List.finRange relayLanes).any fun lane => (sender.lanes lane).ready

/-- The first ready lane from the hashed one on. -/
def packetLane (hash : List Hashed → UInt64) (sender : Sender) (peer : String) (packet : Bytes) :
    Result (Fin relayLanes) :=
  let start := (hash (hashedParts peer packet)).toNat % relayLanes
  let lanes : List (Fin relayLanes) := (List.range relayLanes).map fun offset =>
    ⟨(start + offset) % relayLanes, Nat.mod_lt _ (by decide)⟩
  match lanes.find? fun lane => (sender.lanes lane).ready with
  | some lane => .ok lane
  | none => .error "private relay is not ready"

/-- `try_send` on the channel of a lane. -/
def trySend (lane : Lane) (bytes : Bytes) : Option Lane :=
  if lane.attached && decide (lane.queue.length < relayQueuePackets / relayLanes) then
    some { lane with queue := lane.queue ++ [bytes] }
  else none

def send (hash : List Hashed → UInt64) (sender : Sender) (peer : String) (packet : Bytes) :
    Sender × Result Unit :=
  if !sender.isReady then (sender, .error "private relay is not ready")
  else if !(!peer.isEmpty && decide ((utf8 peer).length ≤ 60)
      && decide (20 ≤ packet.length) && decide (packet.length ≤ 1380)) then
    (sender, .error "invalid private relay packet")
  else
    match sender.packetLane hash peer packet with
    | .error message => (sender, .error message)
    | .ok lane =>
        match trySend (sender.lanes lane) (record peer packet) with
        | some queued => ({ sender with lanes := Function.update sender.lanes lane queued }, .ok ())
        | none =>
            ({ sender with droppedPackets := sender.droppedPackets + 1 },
              .error "private relay queue unavailable")

end Sender

/-- The packet event of a record; malformed records are ignored. -/
def dispatchRecord (frame : Bytes) : Option (String × Bytes) :=
  match frame with
  | [] => none
  | length :: rest =>
      let length := length.toNat
      if 0 < length ∧ length ≤ 60 ∧ length + 20 ≤ rest.length ∧ rest.length ≤ length + 1380 then
        (fromUtf8 (rest.take length)).map fun peer => (peer, rest.drop length)
      else none

def dispatchFrame (frame : Bytes) : List (String × Bytes) :=
  match Batch.decode frame with
  | some (.ok records) => records.filterMap dispatchRecord
  | _ => []

/-- The next frame of a lane whose first record was received, and what stays
    queued. -/
def outgoingFrame (first : Bytes) (batch prefixes : Bool) (packets : List Bytes) :
    Result Bytes × List Bytes :=
  if !batch then (.ok first, packets)
  else (Batch.encode (first :: packets.take 31) prefixes, packets.drop 31)

/-- The packet was accepted by a sender, which queued the record on a lane. -/
def Queues (hash : List Hashed → UInt64) (pair : String × Bytes) (queued : Bytes) : Prop :=
  ∃ sender : Sender, (sender.send hash pair.1 pair.2).2 = .ok () ∧ ∃ lane,
    ((sender.send hash pair.1 pair.2).1.lanes lane).queue =
      (sender.lanes lane).queue ++ [queued]

/-- The sizes that `send` checks. -/
structure Sendable (pair : String × Bytes) : Prop where
  named : 1 ≤ (utf8 pair.1).length
  short : (utf8 pair.1).length ≤ 60
  header : 20 ≤ pair.2.length
  bounded : pair.2.length ≤ 1380

theorem utf8_nonempty {peer} (nonempty : peer ≠ "") : 1 ≤ (utf8 peer).length := by
  have size : (utf8 peer).length = peer.utf8ByteSize := by simp [utf8]
  rw [size, Nat.one_le_iff_ne_zero, ne_eq, String.utf8ByteSize_eq_zero_iff]
  exact nonempty

theorem Sender.trySend_queue {lane next bytes} (pushed : trySend lane bytes = some next) :
    next.queue = lane.queue ++ [bytes] := by
  unfold trySend at pushed
  split at pushed
  · cases pushed
    rfl
  · cases pushed

variable {hash : List Hashed → UInt64} {pair : String × Bytes} {pairs : List (String × Bytes)}

/-- An accepted packet has the sizes of a record and is queued on one lane. -/
theorem Sender.send_ok {sender : Sender} (sent : (sender.send hash pair.1 pair.2).2 = .ok ()) :
    Sendable pair ∧ ∃ lane queued,
      (sender.send hash pair.1 pair.2).1.lanes = Function.update sender.lanes lane queued ∧
      queued.queue = (sender.lanes lane).queue ++ [record pair.1 pair.2] := by
  unfold send at sent ⊢
  split at sent
  · cases sent
  · rename_i ready
    rw [if_neg ready]
    split at sent
    · cases sent
    · rename_i sizes
      rw [if_neg sizes]
      have sendable : Sendable pair := by
        simp only [Bool.not_eq_true', Bool.not_eq_false, Bool.and_eq_true,
          decide_eq_true_eq, String.isEmpty_eq_false_iff] at sizes
        obtain ⟨⟨⟨named, short⟩, header⟩, bounded⟩ := sizes
        exact ⟨utf8_nonempty named, short, header, bounded⟩
      refine ⟨sendable, ?_⟩
      cases chosen : sender.packetLane hash pair.1 pair.2 with
      | error message => simp [chosen] at sent
      | ok lane =>
          rw [chosen] at sent
          dsimp only at sent ⊢
          cases pushed : trySend (sender.lanes lane) (record pair.1 pair.2) with
          | none => simp [pushed] at sent
          | some queued => exact ⟨lane, queued, rfl, trySend_queue pushed⟩

/-- What `send` queues is the record of a packet it accepts. -/
theorem Queues.sendable {queued} (queues : Queues hash pair queued) :
    Sendable pair ∧ queued = record pair.1 pair.2 := by
  obtain ⟨sender, sent, lane, grown⟩ := queues
  obtain ⟨sendable, target, next, updated, pushed⟩ := Sender.send_ok sent
  refine ⟨sendable, ?_⟩
  rw [updated] at grown
  by_cases same : lane = target
  · subst same
    rw [Function.update_self, pushed] at grown
    simpa using grown.symm
  · rw [Function.update_of_ne same] at grown
    simp at grown

namespace Sendable

variable {pair : String × Bytes}

theorem length_toNat (sendable : Sendable pair) :
    (UInt8.ofNat (utf8 pair.1).length).toNat = (utf8 pair.1).length :=
  Nat.mod_eq_of_lt (Nat.lt_of_le_of_lt sendable.short (by decide))

theorem fits (sendable : Sendable pair) : Batch.Fits (record pair.1 pair.2) := by
  obtain ⟨named, short, header, bounded⟩ := sendable
  simp only [Batch.Fits, Batch.maxRecord, record, List.length_cons, List.length_append]
  omega

/-- The first byte of a record is no letter, so a record is never a batch. -/
theorem unbatched (sendable : Sendable pair) : Batch.batched (record pair.1 pair.2) = none := by
  have first : UInt8.ofNat (utf8 pair.1).length ≠ 0x50 := by
    intro same
    have size := congrArg UInt8.toNat same
    have short := sendable.short
    simp at size
    omega
  simp [Batch.batched, Batch.compact, Batch.legacy, record, List.isPrefixOf, Ne.symm first]

theorem decoded (sendable : Sendable pair) :
    Batch.decode (record pair.1 pair.2) = some (.ok [record pair.1 pair.2]) := by
  simp only [Batch.decode, Batch.decodeWithin, sendable.unbatched]

theorem dispatched (sendable : Sendable pair) :
    dispatchRecord (record pair.1 pair.2) = some pair := by
  obtain ⟨named, short, header, bounded⟩ := id sendable
  simp only [dispatchRecord, record, sendable.length_toNat]
  rw [if_pos (by simp only [List.length_append]; omega), List.take_left' rfl, List.drop_left' rfl]
  simp

end Sendable

theorem dispatch_records (sendable : ∀ pair ∈ pairs, Sendable pair) :
    (pairs.map fun pair => record pair.1 pair.2).filterMap dispatchRecord = pairs := by
  induction pairs with
  | nil => rfl
  | cons pair pairs ih =>
      rw [List.map_cons, List.filterMap_cons, (sendable pair (.head _)).dispatched,
        ih fun other member => sendable other (.tail _ member)]

/-- The records that `send` queued for some pairs. -/
theorem queued_records {records} (queues : List.Forall₂ (Queues hash) pairs records) :
    (∀ pair ∈ pairs, Sendable pair) ∧ records = pairs.map fun pair => record pair.1 pair.2 := by
  induction queues with
  | nil => simp
  | cons first _ ih =>
      obtain ⟨sendable, rfl⟩ := first.sendable
      obtain ⟨others, rfl⟩ := ih
      exact ⟨List.forall_mem_cons.mpr ⟨sendable, others⟩, rfl⟩

/-- A frame delivers exactly the packets whose records it was built from. -/
theorem dispatch_outgoing {first packets batch prefixes} (sendable : ∀ pair ∈ pairs, Sendable pair)
    (records : (pairs.map fun pair => record pair.1 pair.2) = first :: packets)
    (bounded : if batch then pairs.length ≤ 32 else pairs.length = 1) :
    ∃ frame, outgoingFrame first batch prefixes packets = (.ok frame, []) ∧
      dispatchFrame frame = pairs := by
  have size : pairs.length = packets.length + 1 := by
    simpa using congrArg List.length records
  have dispatched := dispatch_records sendable
  cases batch with
  | false =>
      obtain rfl : packets = [] := by
        apply List.eq_nil_of_length_eq_zero
        simp only [Bool.false_eq_true, if_false] at bounded
        omega
      obtain ⟨pair, inside, rfl⟩ := List.mem_map.mp (records ▸ List.mem_singleton_self first)
      refine ⟨_, rfl, ?_⟩
      rw [dispatchFrame, (sendable pair inside).decoded, ← records]
      exact dispatched
  | true =>
      have room : (first :: packets).length ≤ Batch.maxRecords := by
        simp only [if_true] at bounded
        simp only [List.length_cons, Batch.maxRecords]
        omega
      have valid : ∀ bytes ∈ first :: packets, Batch.Fits bytes := by
        rw [← records]
        intro bytes member
        obtain ⟨pair, inside, rfl⟩ := List.mem_map.mp member
        exact (sendable pair inside).fits
      obtain ⟨frame, encoded, decoded⟩ :=
        Batch.decode_encode prefixes (List.cons_ne_nil first packets) room valid
      refine ⟨frame, ?_, ?_⟩
      · simp only [List.length_cons, Batch.maxRecords] at room
        simp only [outgoingFrame, Bool.not_true, Bool.false_eq_true, if_false,
          List.take_of_length_le (show packets.length ≤ 31 by omega), encoded,
          List.drop_of_length_le (show packets.length ≤ 31 by omega)]
      · rw [dispatchFrame, decoded, ← records]
        exact dispatched

/-- The relay delivers what was sent, batched or not, and every batch that
    decodes is one that could have been encoded. -/
theorem relay_framing_round_trip (hash : List Hashed → UInt64) :
    (∀ (pairs : List (String × Bytes)) (first : Bytes) (packets : List Bytes)
      (batch prefixes : Bool), List.Forall₂ (Queues hash) pairs (first :: packets) →
      (if batch then pairs.length ≤ 32 else pairs.length = 1) →
      ∃ frame, outgoingFrame first batch prefixes packets = (.ok frame, []) ∧
        dispatchFrame frame = pairs) ∧
    (∀ pair bytes, Queues hash pair bytes →
      Batch.batched bytes = none ∧ Batch.decode bytes = some (.ok [bytes])) ∧
    (∀ frame, ∃ result, Batch.decode frame = some result) ∧
    ∀ frame prefixes records, Batch.batched frame = some prefixes →
      Batch.decode frame = some (.ok records) →
      1 ≤ records.length ∧ records.length ≤ 32 ∧
      (∀ bytes ∈ records, 1 ≤ bytes.length ∧ bytes.length ≤ 1441) ∧
      ∀ again, ∃ encoded, Batch.encode records again = .ok encoded ∧
        Batch.decode encoded = some (.ok records) := by
  refine ⟨?_, ?_, Batch.decode_total, ?_⟩
  · intro pairs first packets batch prefixes queues bounded
    obtain ⟨sendable, records⟩ := queued_records queues
    exact dispatch_outgoing sendable records.symm bounded
  · intro pair bytes queues
    obtain ⟨sendable, rfl⟩ := queues.sendable
    exact ⟨sendable.unbatched, sendable.decoded⟩
  · intro frame prefixes records isBatch decoded
    obtain ⟨nonempty, bounded, valid⟩ := Batch.decode_fits isBatch decoded
    exact ⟨List.length_pos_of_ne_nil nonempty, bounded, valid,
      fun again => Batch.decode_encode again nonempty bounded valid⟩

/-- A sender with every lane ready and empty. -/
def idleSender : Sender := ⟨fun _ => ⟨true, true, []⟩, 0⟩

theorem idle_sender_queues (fill : UInt8) :
    Queues (fun _ => 0) ("b", List.replicate 20 fill) (record "b" (List.replicate 20 fill)) :=
  ⟨idleSender, rfl, ⟨0, by decide⟩, rfl⟩

theorem repeated_packet_round_trip : ∃ frame,
    outgoingFrame (record "b" (List.replicate 20 7)) true true
      [record "b" (List.replicate 20 7), record "b" (List.replicate 20 9)] = (.ok frame, []) ∧
    dispatchFrame frame =
      [("b", List.replicate 20 7), ("b", List.replicate 20 7), ("b", List.replicate 20 9)] :=
  (relay_framing_round_trip fun _ => 0).1 _ _ _ true true
    (.cons (idle_sender_queues 7) (.cons (idle_sender_queues 7) (.cons (idle_sender_queues 9) .nil)))
    (by decide)

end PortHub.Agent.Relay
