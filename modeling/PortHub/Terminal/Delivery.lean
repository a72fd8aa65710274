import PortHub.Lib.Dict
import PortHub.Lib.Numbered
import PortHub.Terminal.Protocol
import Mathlib.Algebra.Order.BigOperators.Group.List
import Mathlib.Algebra.Order.Group.Nat
import Mathlib.Data.List.Perm.Subperm

/-! # The data journals of one attachment epoch

A sender numbers its frames and retains them until they are acknowledged; a
receiver stages frames that arrive early and commits them in order. Both are
bounded in bytes and in frames. Every call is specified by what it does to its
journal, and a call that fails leaves the journal as it was.
-/

namespace PortHub.Terminal.Delivery

def maxPayload : Nat := 16 * 1024

def maxBytes : Nat := 64 * 1024

def maxFrames : Nat := 256

def maxSequence : Nat := 2 ^ 53 - 1

/-- A frame passed the checks of `Frame::new`, its only constructor. -/
structure Frame where
  epoch : String
  sequence : Nat
  payload : List UInt8
  named : token epoch 32 = true
  numbered : 1 ≤ sequence ∧ sequence ≤ maxSequence
  sized : 1 ≤ payload.length ∧ payload.length ≤ maxPayload
  deriving DecidableEq

def validEpoch (epoch : String) : Result Unit :=
  ensure (token epoch 32) "invalid terminal attachment epoch"

def Frame.new (epoch : String) (sequence : Nat) (payload : List UInt8) : Result Frame :=
  if named : token epoch 32 = true then
    if numbered : 1 ≤ sequence ∧ sequence ≤ maxSequence then
      if sized : 1 ≤ payload.length ∧ payload.length ≤ maxPayload then
        .ok ⟨epoch, sequence, payload, named, numbered, sized⟩
      else .error "invalid terminal payload"
    else .error "invalid terminal sequence"
  else .error "invalid terminal attachment epoch"

/-- The payloads of some frames, put together. -/
def payloads (frames : List Frame) : List UInt8 := frames.flatMap Frame.payload

/-- The payload bytes of some frames. -/
def total (frames : List Frame) : Nat := (frames.map fun frame => frame.payload.length).sum

structure Sender where
  epoch : String
  last : Nat
  acknowledged : Nat
  pending : List Frame
  bytes : Nat
  deriving DecidableEq

namespace Sender

def new (epoch : String) : Result Sender := do
  validEpoch epoch
  return ⟨epoch, 0, 0, [], 0⟩

def enqueue (sender : Sender) (payload : List UInt8) : Sender × Result Frame :=
  if sender.pending.length < maxFrames ∧ sender.bytes + payload.length ≤ maxBytes then
    let sequence := sender.last + 1
    if sequence ≤ maxSequence then
      match Frame.new sender.epoch sequence payload with
      | .error message => (sender, .error message)
      | .ok frame =>
          ({ sender with
              bytes := sender.bytes + payload.length
              last := sequence
              pending := sender.pending ++ [frame] },
            .ok frame)
    else (sender, .error "terminal sequence exhausted")
  else (sender, .error "terminal replay journal is full")

/-- The loop of `acknowledge` over the retained frames and their byte counter. -/
def release (sequence : Nat) : List Frame → Nat → List Frame × Nat
  | [], bytes => ([], bytes)
  | frame :: rest, bytes =>
      if frame.sequence ≤ sequence then
        release sequence rest (usizeSub bytes frame.payload.length)
      else (frame :: rest, bytes)

def acknowledge (sender : Sender) (epoch : String) (sequence : Nat) : Sender × Result Unit :=
  if epoch = sender.epoch then
    if sequence ≤ sender.last then
      if sequence ≤ sender.acknowledged then (sender, .ok ())
      else
        let (pending, bytes) := release sequence sender.pending sender.bytes
        ({ sender with pending, bytes, acknowledged := sequence }, .ok ())
    else (sender, .error "terminal acknowledgement exceeds sent data")
  else (sender, .error "terminal acknowledgement epoch mismatch")

def replay (sender : Sender) : List Frame := sender.pending

def canEnqueue (sender : Sender) (bytes : Nat) : Bool :=
  decide (bytes ≤ maxPayload) && decide (sender.pending.length < maxFrames)
    && decide (sender.bytes + bytes ≤ maxBytes)

def canEnqueueBatch (sender : Sender) (bytes frames : Nat) : Bool :=
  decide (0 < bytes) && decide (0 < frames)
    && decide (sender.bytes + bytes ≤ maxBytes)
    && decide (sender.pending.length + frames ≤ maxFrames)
    && decide (sender.last + frames ≤ maxSequence)

def availableInputBytes (sender : Sender) : Nat :=
  if maxFrames ≤ sender.pending.length ∨ maxSequence ≤ sender.last then 0
  else min (usizeSub maxBytes sender.bytes) maxPayload

end Sender

structure Receiver where
  epoch : String
  committed : Nat
  pending : Dict Nat Frame
  bytes : Nat

namespace Receiver

def new (epoch : String) : Result Receiver := do
  validEpoch epoch
  return ⟨epoch, 0, .empty, 0⟩

def stage (receiver : Receiver) (frame : Frame) : Receiver × Result Bool :=
  if frame.epoch = receiver.epoch then
    if frame.sequence ≤ receiver.committed then (receiver, .ok false)
    else if frame.sequence - receiver.committed ≤ maxFrames then
      match receiver.pending.get? frame.sequence with
      | some previous =>
          if previous.payload = frame.payload then (receiver, .ok false)
          else (receiver, .error "conflicting terminal replay")
      | none =>
          if receiver.pending.len < maxFrames ∧
              receiver.bytes + frame.payload.length ≤ maxBytes then
            ({ receiver with
                bytes := receiver.bytes + frame.payload.length
                pending := receiver.pending.insert frame.sequence frame },
              .ok true)
          else (receiver, .error "terminal receive journal is full")
    else (receiver, .error "terminal receive sequence exceeds window")
  else (receiver, .error "terminal data epoch mismatch")

def next (receiver : Receiver) : Option Frame := receiver.pending.get? (receiver.committed + 1)

def commit (receiver : Receiver) (sequence : Nat) : Receiver × Result Unit :=
  if sequence = receiver.committed + 1 then
    match receiver.pending.get? sequence with
    | some frame =>
        ({ receiver with
            bytes := usizeSub receiver.bytes frame.payload.length
            pending := receiver.pending.erase sequence
            committed := sequence },
          .ok ())
    | none => (receiver, .error "terminal commit is not the next queued frame")
  else (receiver, .error "terminal commit is not the next queued frame")

def acknowledged (receiver : Receiver) : Nat := receiver.committed

end Receiver

/-- The envelope of a carrier. -/
inductive Message where
  | data (frame : Frame)
  | ack (epoch : String) (sequence : Nat)
  deriving DecidableEq

def header : Nat := 25

def maxWire : Nat := header + maxPayload

/-- Bytes as lower-case hexadecimal text. -/
def hexText (bytes : List UInt8) : String := String.ofList (bytes.flatMap Hex.lower)

/-- `u64::from_be_bytes`. -/
def be64 (bytes : List UInt8) : Nat := bytes.foldl (fun n byte => n * 256 + byte.toNat) 0

def Message.parse (bytes : List UInt8) : Result Message := do
  ensure (decide (header ≤ bytes.length) && decide (bytes.length ≤ header + maxPayload))
    "invalid terminal envelope size"
  let epoch := hexText ((bytes.drop 1).take 16)
  let sequence := be64 ((bytes.drop 17).take 8)
  ensure (decide (sequence ≤ maxSequence)) "invalid terminal sequence"
  if bytes.head? = some 1 then
    return .data (← Frame.new epoch sequence (bytes.drop header))
  else if bytes.head? = some 2 then
    ensure (bytes.length == header) "terminal acknowledgement contains unexpected data"
    return .ack epoch sequence
  else throw "unknown terminal transport envelope"

/-- `DeliveryPacket::decode`, of a relayed envelope. -/
def decodePacket (packet : List Char) : Result Message := do
  ensure (decide (Text.byteLen packet ≤ (maxWire + 2) / 3 * 4))
    "terminal delivery envelope exceeds limit"
  match Base64.decode packet with
  | none => throw "invalid terminal delivery encoding"
  | some bytes => Message.parse bytes

@[simp] theorem total_nil : total [] = 0 := rfl

@[simp] theorem total_cons (frame : Frame) (frames : List Frame) :
    total (frame :: frames) = frame.payload.length + total frames := by
  simp [total]

theorem total_append (frames others : List Frame) :
    total (frames ++ others) = total frames + total others := by
  simp [total]

theorem total_le_of_sublist {frames : List Frame} {others} (sub : frames.Sublist others) :
    total frames ≤ total others :=
  (sub.map _).sum_le_sum fun _ _ => Nat.zero_le _

/-- Distinct frames that all occur in a list weigh no more than it. -/
theorem total_le_of_subset {frames : List Frame} {others} (distinct : frames.Nodup)
    (inside : ∀ frame ∈ frames, frame ∈ others) :
    frames.length ≤ others.length ∧ total frames ≤ total others := by
  have within : frames.Subperm others := distinct.subperm inside
  obtain ⟨arranged, permuted, sub⟩ := within
  refine ⟨permuted.length_eq ▸ sub.length_le, ?_⟩
  calc
    total frames = total arranged := (permuted.map _).sum_eq.symm
    _ ≤ total others := total_le_of_sublist sub

theorem Frame.new_ok {epoch sequence payload frame}
    (made : Frame.new epoch sequence payload = .ok frame) :
    frame.epoch = epoch ∧ frame.sequence = sequence ∧ frame.payload = payload := by
  unfold Frame.new at made
  split at made
  · split at made
    · split at made
      · cases made
        exact ⟨rfl, rfl, rfl⟩
      · cases made
    · cases made
  · cases made

theorem Frame.new_eq_ok {epoch sequence} {payload : List UInt8} (named : token epoch 32 = true)
    (numbered : 1 ≤ sequence ∧ sequence ≤ maxSequence)
    (sized : 1 ≤ payload.length ∧ payload.length ≤ maxPayload) :
    Frame.new epoch sequence payload = .ok ⟨epoch, sequence, payload, named, numbered, sized⟩ := by
  simp only [Frame.new, named, numbered, sized, dite_true, and_self]

namespace Sender

/-- Everything `enqueue` can do. -/
inductive Enqueues (sender : Sender) (payload : List UInt8) : Sender × Result Frame → Prop where
  | refused (message : String) : Enqueues sender payload (sender, .error message)
  | accepted (frame : Frame) (epoch : frame.epoch = sender.epoch)
      (sequence : frame.sequence = sender.last + 1) (same : frame.payload = payload)
      (frames : sender.pending.length < maxFrames)
      (bytes : sender.bytes + payload.length ≤ maxBytes) :
      Enqueues sender payload
        ({ sender with
            bytes := sender.bytes + payload.length
            last := sender.last + 1
            pending := sender.pending ++ [frame] },
          .ok frame)

theorem enqueue_enqueues (sender : Sender) (payload : List UInt8) :
    Enqueues sender payload (sender.enqueue payload) := by
  unfold enqueue
  split
  · rename_i room
    dsimp only
    split
    · cases made : Frame.new sender.epoch (sender.last + 1) payload with
      | error message => exact .refused message
      | ok frame =>
          obtain ⟨epoch, sequence, same⟩ := Frame.new_ok made
          exact .accepted frame epoch sequence same room.1 room.2
    · exact .refused _
  · exact .refused _

/-- A frame is accepted when it fits, its number exists and its size is legal. -/
theorem enqueue_eq_ok {sender : Sender} {payload : List UInt8} (named : token sender.epoch 32 = true)
    (frames : sender.pending.length < maxFrames) (bytes : sender.bytes + payload.length ≤ maxBytes)
    (sequence : sender.last + 1 ≤ maxSequence)
    (sized : 1 ≤ payload.length ∧ payload.length ≤ maxPayload) :
    ∃ frame, (sender.enqueue payload).2 = .ok frame := by
  have numbered : 1 ≤ sender.last + 1 ∧ sender.last + 1 ≤ maxSequence := ⟨by omega, sequence⟩
  unfold enqueue
  rw [if_pos ⟨frames, bytes⟩]
  rw [if_pos sequence, Frame.new_eq_ok named numbered sized]
  exact ⟨_, rfl⟩

/-- The loop drops the frames up to the sequence and counts down without
    wrapping. -/
theorem release_eq (sequence : Nat) {frames} (bounded : total frames < 2 ^ 64) :
    release sequence frames (total frames) =
      (frames.dropWhile fun frame => decide (frame.sequence ≤ sequence),
        total (frames.dropWhile fun frame => decide (frame.sequence ≤ sequence))) := by
  induction frames with
  | nil => rfl
  | cons frame rest ih =>
      rw [total_cons] at bounded
      unfold release
      split
      · rename_i passed
        rw [total_cons, usizeSub_eq (by omega) bounded, Nat.add_sub_cancel_left, ih (by omega),
          List.dropWhile_cons_of_pos (by simpa using passed)]
      · rename_i kept
        rw [List.dropWhile_cons_of_neg (by simpa using kept)]

/-- The sender has sent exactly these frames and retains the unacknowledged
    ones, counted and within the limits. -/
structure Sent (sender : Sender) (frames : List Frame) : Prop where
  named : token sender.epoch 32 = true
  stamped : ∀ frame ∈ frames, frame.epoch = sender.epoch
  numbered : Numbered Frame.sequence 1 frames
  length : frames.length = sender.last
  behind : sender.acknowledged ≤ sender.last
  retained : sender.pending = frames.drop sender.acknowledged
  counted : sender.bytes = total sender.pending
  withinBytes : sender.bytes ≤ maxBytes
  withinFrames : sender.pending.length ≤ maxFrames

theorem new_eq_ok {epoch} (named : token epoch 32 = true) :
    new epoch = .ok ⟨epoch, 0, 0, [], 0⟩ := by
  simp only [new, validEpoch, bind_eq_ok, ensure_eq_ok, pure_eq_ok]
  exact ⟨(), named, trivial⟩

theorem new_sent {epoch sender} (made : new epoch = .ok sender) :
    sender.Sent [] := by
  simp only [new, validEpoch, bind_eq_ok, ensure_eq_ok, pure_eq_ok] at made
  obtain ⟨_, named, rfl⟩ := made
  exact ⟨named, by simp, .nil, rfl, le_rfl, rfl, rfl, Nat.zero_le _, Nat.zero_le _⟩

/-- Everything `acknowledge` can do. -/
inductive Acknowledges (sender : Sender) (epoch : String) (sequence : Nat) :
    Sender × Result Unit → Prop where
  | refused (message : String) (foreign : epoch ≠ sender.epoch ∨ sender.last < sequence) :
      Acknowledges sender epoch sequence (sender, .error message)
  | repeated (known : sequence ≤ sender.acknowledged) :
      Acknowledges sender epoch sequence (sender, .ok ())
  | advanced (within : sequence ≤ sender.last) (ahead : sender.acknowledged < sequence) :
      Acknowledges sender epoch sequence
        ({ sender with
            pending := (release sequence sender.pending sender.bytes).1
            bytes := (release sequence sender.pending sender.bytes).2
            acknowledged := sequence },
          .ok ())

theorem acknowledge_acknowledges (sender : Sender) (epoch : String) (sequence : Nat) :
    Acknowledges sender epoch sequence (sender.acknowledge epoch sequence) := by
  unfold acknowledge
  split
  · split
    · rename_i within
      split
      · rename_i known
        exact .repeated known
      · rename_i ahead
        exact .advanced within (not_le.mp ahead)
    · rename_i beyond
      exact .refused _ (.inr (not_le.mp beyond))
  · rename_i foreign
    exact .refused _ (.inl foreign)

namespace Sent

variable {sender : Sender} {frames : List Frame}

theorem bytes_lt (sent : sender.Sent frames) : total sender.pending < 2 ^ 64 := by
  have := sent.withinBytes
  rw [sent.counted, maxBytes] at this
  omega

/-- A frame that was accepted is the next one sent. -/
theorem enqueue (sent : sender.Sent frames) (payload : List UInt8) :
    (sender.enqueue payload).1.Sent (frames ++ (sender.enqueue payload).2.toOption.toList) := by
  have call := sender.enqueue_enqueues payload
  generalize sender.enqueue payload = result at call ⊢
  cases call with
  | refused message => simpa [Except.toOption] using sent
  | accepted frame epoch sequence same room bytes =>
      have position : frame.sequence = 1 + frames.length := by rw [sent.length, sequence]; omega
      refine ⟨sent.named, ?_, sent.numbered.append position, ?_, ?_, ?_, ?_, bytes, ?_⟩
      · intro other member
        rcases List.mem_append.mp member with earlier | new
        · exact sent.stamped other earlier
        · obtain rfl : other = frame := by simpa [Except.toOption] using new
          exact epoch
      · simp [Except.toOption, sent.length]
      · exact sent.behind.trans (Nat.le_succ _)
      · rw [List.drop_append_of_le_length (sent.length ▸ sent.behind), ← sent.retained]
        rfl
      · simp only [total_append, total_cons, total_nil, sent.counted, same, Nat.add_zero]
      · simpa [Nat.succ_le_iff] using room

/-- An acknowledgement drops exactly the frames it covers. -/
theorem acknowledge (sent : sender.Sent frames) (epoch : String) (sequence : Nat) :
    (sender.acknowledge epoch sequence).1.Sent frames := by
  have call := sender.acknowledge_acknowledges epoch sequence
  generalize sender.acknowledge epoch sequence = result at call ⊢
  cases call with
  | refused => exact sent
  | repeated => exact sent
  | advanced within ahead =>
      have numbered := sent.numbered.drop sender.acknowledged
      have rest : (sender.pending.dropWhile fun frame => decide (frame.sequence ≤ sequence)) =
          frames.drop sequence := by
        rw [sent.retained, numbered.dropWhile_le sequence, List.drop_drop]
        congr 1
        omega
      have fewer : total (frames.drop sequence) ≤ total sender.pending := by
        rw [← rest]
        exact total_le_of_sublist (List.dropWhile_sublist _)
      have shorter : (frames.drop sequence).length ≤ sender.pending.length := by
        rw [← rest]
        exact (List.dropWhile_sublist _).length_le
      rw [sent.counted, release_eq sequence sent.bytes_lt, rest]
      exact ⟨sent.named, sent.stamped, sent.numbered, sent.length, within, rfl, rfl,
        fewer.trans (sent.counted ▸ sent.withinBytes), shorter.trans sent.withinFrames⟩

end Sent

end Sender

namespace Receiver

/-- Everything `stage` can do. -/
inductive Stages (receiver : Receiver) (frame : Frame) : Receiver × Result Bool → Prop where
  | foreign (message : String) (other : frame.epoch ≠ receiver.epoch) :
      Stages receiver frame (receiver, .error message)
  | beyond (message : String) (window : receiver.committed + maxFrames < frame.sequence) :
      Stages receiver frame (receiver, .error message)
  | conflicting (message : String) {previous : Frame}
      (found : receiver.pending.get? frame.sequence = some previous)
      (differs : previous.payload ≠ frame.payload) :
      Stages receiver frame (receiver, .error message)
  | full (message : String) (ahead : receiver.committed < frame.sequence)
      (absent : receiver.pending.get? frame.sequence = none)
      (room : ¬ (receiver.pending.len < maxFrames ∧
        receiver.bytes + frame.payload.length ≤ maxBytes)) :
      Stages receiver frame (receiver, .error message)
  | duplicate : Stages receiver frame (receiver, .ok false)
  | inserted (ahead : receiver.committed < frame.sequence)
      (absent : receiver.pending.get? frame.sequence = none) :
      Stages receiver frame
        ({ receiver with
            bytes := receiver.bytes + frame.payload.length
            pending := receiver.pending.insert frame.sequence frame },
          .ok true)

theorem stage_stages (receiver : Receiver) (frame : Frame) :
    Stages receiver frame (receiver.stage frame) := by
  unfold stage
  split
  · split
    · exact .duplicate
    · rename_i ahead
      split
      · cases found : receiver.pending.get? frame.sequence with
        | some previous =>
            dsimp only
            split
            · exact .duplicate
            · rename_i differs
              exact .conflicting _ found differs
        | none =>
            dsimp only
            split
            · exact .inserted (not_le.mp ahead) found
            · rename_i room
              exact .full _ (not_le.mp ahead) found room
      · rename_i window
        exact .beyond _ (by omega)
  · rename_i foreign
    exact .foreign _ foreign

/-- A frame that is not refused is staged or committed. -/
theorem stage_holds {receiver : Receiver} {frame fresh} (ahead : receiver.committed < frame.sequence)
    (fine : (receiver.stage frame).2 = .ok fresh) :
    ((receiver.stage frame).1.pending.get? frame.sequence).isSome = true := by
  unfold stage at fine ⊢
  grind [Dict.get?_insert_self]

theorem stage_epoch (receiver : Receiver) (frame : Frame) :
    (receiver.stage frame).1.epoch = receiver.epoch := by
  have call := receiver.stage_stages frame
  generalize receiver.stage frame = result at call ⊢
  cases call with
  | foreign | beyond | conflicting | full | duplicate | inserted => rfl

/-- Everything `commit` can do. -/
inductive Commits (receiver : Receiver) (sequence : Nat) : Receiver × Result Unit → Prop where
  | refused (message : String) (unready : receiver.next.isNone ∨ sequence ≠ receiver.committed + 1) :
      Commits receiver sequence (receiver, .error message)
  | applied (frame : Frame) (next : receiver.next = some frame)
      (exactly : sequence = receiver.committed + 1) :
      Commits receiver sequence
        ({ receiver with
            bytes := usizeSub receiver.bytes frame.payload.length
            pending := receiver.pending.erase (receiver.committed + 1)
            committed := receiver.committed + 1 },
          .ok ())

theorem commit_commits (receiver : Receiver) (sequence : Nat) :
    Commits receiver sequence (receiver.commit sequence) := by
  unfold commit
  split
  · rename_i exactly
    subst exactly
    cases found : receiver.pending.get? (receiver.committed + 1) with
    | none => exact .refused _ (.inl (by simp [next, found]))
    | some frame => exact .applied frame found rfl
  · rename_i other
    exact .refused _ (.inr other)

theorem commit_epoch (receiver : Receiver) (sequence : Nat) :
    (receiver.commit sequence).1.epoch = receiver.epoch := by
  have call := receiver.commit_commits sequence
  generalize receiver.commit sequence = result at call ⊢
  cases call with
  | refused | applied => rfl

/-- The receiver committed a prefix of these frames and stages some later ones,
    counted. -/
structure Follows (receiver : Receiver) (frames : List Frame) : Prop where
  stamped : ∀ frame ∈ frames, frame.epoch = receiver.epoch
  behind : receiver.committed ≤ frames.length
  staged : ∀ sequence frame, receiver.pending.get? sequence = some frame →
    frame.sequence = sequence ∧ receiver.committed < sequence ∧ frame ∈ frames
  counted : receiver.bytes = receiver.pending.weight fun frame => frame.payload.length

theorem new_eq_ok {epoch} (named : token epoch 32 = true) :
    new epoch = .ok ⟨epoch, 0, .empty, 0⟩ := by
  simp only [new, validEpoch, bind_eq_ok, ensure_eq_ok, pure_eq_ok]
  exact ⟨(), named, trivial⟩

theorem new_follows {epoch receiver} (made : new epoch = .ok receiver) :
    receiver.Follows [] := by
  simp only [new, validEpoch, bind_eq_ok, ensure_eq_ok, pure_eq_ok] at made
  obtain ⟨_, _, rfl⟩ := made
  exact ⟨by simp, le_rfl, by simp, rfl⟩

namespace Follows

variable {receiver : Receiver} {frames : List Frame} {frame : Frame}

theorem values_distinct (follows : receiver.Follows frames) : receiver.pending.values.Nodup := by
  have keys : receiver.pending.values.map Frame.sequence = receiver.pending.entries.map Prod.fst := by
    rw [Dict.values, List.map_map]
    apply List.map_congr_left
    intro entry member
    exact (follows.staged _ _ (Dict.get?_eq_some_iff.mpr member)).1
  exact .of_map Frame.sequence (keys ▸ receiver.pending.distinct)

/-- Staged frames are among those the receiver has not committed. -/
theorem values_uncommitted (follows : receiver.Follows frames)
    (numbered : Numbered Frame.sequence 1 frames) (member : frame ∈ receiver.pending.values) :
    frame ∈ frames.drop receiver.committed := by
  obtain ⟨sequence, found⟩ := Dict.mem_values_iff.mp member
  obtain ⟨rfl, ahead, inside⟩ := follows.staged sequence frame found
  exact numbered.mem_drop inside (by omega)

theorem bounded (follows : receiver.Follows frames) (numbered : Numbered Frame.sequence 1 frames) :
    receiver.pending.len ≤ (frames.drop receiver.committed).length ∧
      receiver.bytes ≤ total (frames.drop receiver.committed) := by
  obtain ⟨fewer, lighter⟩ := total_le_of_subset follows.values_distinct
    fun _ member => follows.values_uncommitted numbered member
  rw [Dict.values, List.length_map] at fewer
  exact ⟨fewer, follows.counted ▸ lighter⟩

/-- There is room for a frame that is neither committed nor staged. -/
theorem room (follows : receiver.Follows frames) (numbered : Numbered Frame.sequence 1 frames)
    {frame} (member : frame ∈ frames) (ahead : receiver.committed < frame.sequence)
    (absent : receiver.pending.get? frame.sequence = none) :
    receiver.pending.len < (frames.drop receiver.committed).length ∧
      receiver.bytes + frame.payload.length ≤ total (frames.drop receiver.committed) := by
  have fresh : frame ∉ receiver.pending.values := by
    intro staged
    obtain ⟨sequence, found⟩ := Dict.mem_values_iff.mp staged
    obtain ⟨rfl, _, _⟩ := follows.staged sequence frame found
    simp [absent] at found
  have inside : ∀ other ∈ frame :: receiver.pending.values,
      other ∈ frames.drop receiver.committed := by
    intro other listed
    rcases List.mem_cons.mp listed with rfl | staged
    · exact numbered.mem_drop member (by omega)
    · exact follows.values_uncommitted numbered staged
  obtain ⟨fewer, lighter⟩ :=
    total_le_of_subset (List.nodup_cons.mpr ⟨fresh, follows.values_distinct⟩) inside
  have count : receiver.pending.values.length = receiver.pending.len := List.length_map _
  have weighed : receiver.bytes = total receiver.pending.values := follows.counted
  rw [List.length_cons] at fewer
  rw [total_cons] at lighter
  omega

section

variable (follows : receiver.Follows frames)

include follows

/-- More frames sent change nothing for the receiver. -/
theorem later {others}
    (stamped : ∀ frame ∈ others, frame.epoch = receiver.epoch) :
    receiver.Follows (frames ++ others) where
  stamped frame member := by
    rcases List.mem_append.mp member with earlier | new
    · exact follows.stamped frame earlier
    · exact stamped frame new
  behind := follows.behind.trans (by simp)
  staged sequence frame found := by
    obtain ⟨same, ahead, member⟩ := follows.staged sequence frame found
    exact ⟨same, ahead, List.mem_append_left _ member⟩
  counted := follows.counted

/-- Staging a sent frame never fails while the uncommitted frames fit, and
    keeps the receiver on the track of the sender. -/
theorem stage (numbered : Numbered Frame.sequence 1 frames)
    (window : (frames.drop receiver.committed).length ≤ maxFrames)
    (budget : total (frames.drop receiver.committed) ≤ maxBytes) (member : frame ∈ frames) :
    (receiver.stage frame).1.Follows frames ∧
      (receiver.stage frame).1.committed = receiver.committed ∧
      ∃ fresh, (receiver.stage frame).2 = .ok fresh := by
  have call := receiver.stage_stages frame
  generalize receiver.stage frame = result at call ⊢
  cases call with
  | foreign message other => exact absurd (follows.stamped frame member) other
  | beyond message far =>
      obtain ⟨_, last, _⟩ := numbered.getElem?_of_mem member
      rw [List.length_drop] at window
      omega
  | conflicting message found differs =>
      obtain ⟨same, _, inside⟩ := follows.staged _ _ found
      exact absurd (numbered.unique inside member same ▸ rfl) differs
  | full message ahead absent room =>
      obtain ⟨fewer, lighter⟩ := follows.room numbered member ahead absent
      exact absurd ⟨by omega, by omega⟩ room
  | duplicate => exact ⟨follows, rfl, _, rfl⟩
  | inserted ahead absent =>
      refine ⟨⟨follows.stamped, follows.behind, ?_, ?_⟩, rfl, _, rfl⟩
      · intro sequence other found
        rcases Dict.get?_of_insert found with ⟨rfl, rfl⟩ | ⟨_, earlier⟩
        · exact ⟨rfl, ahead, member⟩
        · exact follows.staged sequence other earlier
      · have weight := receiver.pending.weight_erase (fun frame => frame.payload.length)
          frame.sequence
        simp only [absent, Option.map_none, Option.getD_none] at weight
        simp only [Dict.weight_insert, follows.counted]
        omega

/-- The next frame is the one after the committed prefix. -/
theorem next_eq (numbered : Numbered Frame.sequence 1 frames)
    (next : receiver.next = some frame) :
    frame.sequence = receiver.committed + 1 ∧ frames[receiver.committed]? = some frame := by
  obtain ⟨same, _, member⟩ := follows.staged _ _ next
  obtain ⟨_, _, found⟩ := numbered.getElem?_of_mem member
  rw [same] at found
  exact ⟨same, found⟩

theorem next_length_le (next : receiver.next = some frame) :
    frame.payload.length ≤ receiver.bytes := by
  have weight := receiver.pending.weight_erase (fun frame => frame.payload.length)
    (receiver.committed + 1)
  unfold Receiver.next at next
  simp only [next, Option.map_some, Option.getD_some] at weight
  rw [follows.counted]
  omega

/-- Committing the next frame succeeds and extends the committed prefix by it. -/
theorem commit (numbered : Numbered Frame.sequence 1 frames)
    (budget : receiver.bytes < 2 ^ 64) (next : receiver.next = some frame) :
    (receiver.commit frame.sequence).1.Follows frames ∧
      (receiver.commit frame.sequence).1.committed = receiver.committed + 1 ∧
      (receiver.commit frame.sequence).2 = .ok () := by
  obtain ⟨position, found⟩ := follows.next_eq numbered next
  have call := receiver.commit_commits frame.sequence
  generalize receiver.commit frame.sequence = result at call ⊢
  cases call with
  | refused message unready =>
      rcases unready with absent | other
      · simp [next] at absent
      · exact absurd position other
  | applied other same exactly =>
      obtain rfl : frame = other := Option.mem_unique next same
      refine ⟨⟨follows.stamped, ?_, ?_, ?_⟩, rfl, rfl⟩
      · exact (List.getElem?_eq_some_iff.mp found).1
      · intro sequence staged present
        obtain ⟨different, earlier⟩ := Dict.get?_of_erase present
        obtain ⟨same, ahead, member⟩ := follows.staged sequence staged earlier
        exact ⟨same, by dsimp only; omega, member⟩
      · have weight := receiver.pending.weight_erase (fun frame => frame.payload.length)
          (receiver.committed + 1)
        have lighter := follows.next_length_le next
        unfold Receiver.next at next
        simp only [next, Option.map_some, Option.getD_some] at weight
        dsimp only
        rw [usizeSub_eq lighter budget, follows.counted]
        omega

end

end Follows

end Receiver

end PortHub.Terminal.Delivery
