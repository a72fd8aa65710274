import PortHub.Terminal.Delivery

/-! # Room in the journal of a sender

Callers ask for room before they hand over input: for one frame, for a batch, or
for the bytes that the next frame may have. A batch that was promised is taken
piece by piece. The question for one frame does not look at the sequence numbers,
so it differs from the others exactly when only they are used up.
-/

namespace PortHub.Terminal.Delivery.Sender

/-- Enqueue some pieces one after the other, with the result of each. -/
def enqueueEach (sender : Sender) : List (List UInt8) → Sender × List (Result Frame)
  | [] => (sender, [])
  | piece :: rest =>
      let (next, result) := sender.enqueue piece
      let (last, results) := next.enqueueEach rest
      (last, result :: results)

/-- The counters of a sender are within its limits. -/
structure Counted (sender : Sender) : Prop where
  named : token sender.epoch 32 = true
  numbered : sender.last ≤ maxSequence
  counted : sender.bytes = total sender.pending
  withinBytes : sender.bytes ≤ maxBytes
  withinFrames : sender.pending.length ≤ maxFrames

def Accepts (sender : Sender) (payload : List UInt8) : Prop :=
  ∃ frame, (sender.enqueue payload).2 = .ok frame

/-- Every way to ask for `n` bytes gives the answer that `enqueue` gives. -/
def Agrees (sender : Sender) (n : Nat) : Prop :=
  ∀ payload : List UInt8, payload.length = n →
    (sender.Accepts payload ↔ sender.canEnqueue n = true) ∧
      (sender.Accepts payload ↔ sender.canEnqueueBatch n 1 = true) ∧
      (sender.Accepts payload ↔ n ≤ sender.availableInputBytes)

/-- A batch that there is room for is taken, however it is cut. -/
def TakesBatches (sender : Sender) : Prop :=
  ∀ bytes frames, sender.canEnqueueBatch bytes frames = true → ∀ pieces : List (List UInt8),
    pieces.length = frames → (∀ piece ∈ pieces, 1 ≤ piece.length ∧ piece.length ≤ maxPayload) →
    (pieces.map List.length).sum = bytes →
    ∀ result ∈ (sender.enqueueEach pieces).2, ∃ frame, result = .ok frame

section Room

variable {sender : Sender} {payload : List UInt8}

/-- What an accepted frame finds. -/
theorem Accepts.room (accepted : sender.Accepts payload) :
    sender.pending.length < maxFrames ∧ sender.bytes + payload.length ≤ maxBytes ∧
      sender.last < maxSequence := by
  obtain ⟨frame, taken⟩ := accepted
  unfold enqueue at taken
  split at taken
  · rename_i room
    dsimp only at taken
    split at taken
    · rename_i sequence
      exact ⟨room.1, room.2, sequence⟩
    · cases taken
  · cases taken

theorem accepts_iff (named : token sender.epoch 32 = true)
    (sized : 1 ≤ payload.length ∧ payload.length ≤ maxPayload) :
    sender.Accepts payload ↔ sender.pending.length < maxFrames ∧
      sender.bytes + payload.length ≤ maxBytes ∧ sender.last < maxSequence := by
  constructor
  · exact Accepts.room
  · rintro ⟨frames, bytes, sequence⟩
    exact enqueue_eq_ok named frames bytes sequence sized

/-- An accepted piece is counted. -/
theorem enqueue_counts (accepted : sender.Accepts payload) :
    (sender.enqueue payload).1.epoch = sender.epoch ∧
      (sender.enqueue payload).1.last = sender.last + 1 ∧
      (sender.enqueue payload).1.bytes = sender.bytes + payload.length ∧
      (sender.enqueue payload).1.pending.length = sender.pending.length + 1 := by
  obtain ⟨frame, taken⟩ := accepted
  cases outcome : sender.enqueue payload with
  | mk next result =>
      have done := sender.enqueue_enqueues payload
      rw [outcome] at done taken
      cases done with
      | refused message => cases taken
      | accepted frame epoch sequence same frames bytes => simp

theorem canEnqueueBatch_iff {bytes frames} :
    sender.canEnqueueBatch bytes frames = true ↔ 0 < bytes ∧ 0 < frames ∧
      sender.bytes + bytes ≤ maxBytes ∧ sender.pending.length + frames ≤ maxFrames ∧
      sender.last + frames ≤ maxSequence := by
  simp only [canEnqueueBatch, Bool.and_eq_true, decide_eq_true_eq, and_assoc]

theorem le_availableInputBytes_iff (counted : sender.Counted) {n} (nonempty : 1 ≤ n)
    (bounded : n ≤ maxPayload) : n ≤ sender.availableInputBytes ↔
      sender.pending.length < maxFrames ∧ sender.bytes + n ≤ maxBytes ∧ sender.last < maxSequence := by
  have within := counted.withinBytes
  unfold availableInputBytes
  split
  · omega
  · rw [usizeSub_eq within (by decide), le_min_iff]
    omega

/-- The pieces of a batch are taken one by one; what is left of the room is for the others. -/
theorem enqueueEach_accepts {pieces} (named : token sender.epoch 32 = true)
    (sized : ∀ piece ∈ pieces, 1 ≤ piece.length ∧ piece.length ≤ maxPayload)
    (bytes : sender.bytes + (pieces.map List.length).sum ≤ maxBytes)
    (frames : sender.pending.length + pieces.length ≤ maxFrames)
    (sequence : sender.last + pieces.length ≤ maxSequence) :
    ∀ result ∈ (sender.enqueueEach pieces).2, ∃ frame, result = .ok frame := by
  induction pieces generalizing sender with
  | nil => simp [enqueueEach]
  | cons piece rest ih =>
      simp only [List.map_cons, List.sum_cons, List.length_cons] at bytes frames sequence
      have accepted : sender.Accepts piece :=
        (accepts_iff named (sized piece List.mem_cons_self)).mpr ⟨by omega, by omega, by omega⟩
      obtain ⟨epoch, last, held, pending⟩ := enqueue_counts accepted
      have others := @ih (sender.enqueue piece).1 (by rw [epoch]; exact named)
        (fun other member => sized other (List.mem_cons_of_mem piece member)) (by omega) (by omega)
        (by omega)
      intro result member
      rcases List.mem_cons.mp member with rfl | later
      · exact accepted
      · exact others result later

theorem takesBatches (counted : sender.Counted) : sender.TakesBatches := by
  rintro bytes frames room pieces rfl sized rfl
  obtain ⟨_, _, held, pending, sequence⟩ := canEnqueueBatch_iff.mp room
  exact enqueueEach_accepts counted.named sized held pending sequence

/-- The preflights are exact until the sequence numbers alone are used up. -/
theorem capacity_preflights_agree (counted : sender.Counted) {n : Nat} (nonempty : 1 ≤ n)
    (bounded : n ≤ maxPayload) :
    (sender.Agrees n ∧ sender.TakesBatches) ↔
      (sender.last < maxSequence ∨ maxFrames ≤ sender.pending.length ∨ maxBytes < sender.bytes + n) := by
  have accepts (payload : List UInt8) (size : payload.length = n) : sender.Accepts payload ↔
      sender.pending.length < maxFrames ∧ sender.bytes + n ≤ maxBytes ∧ sender.last < maxSequence := by
    subst size
    exact accepts_iff counted.named ⟨nonempty, bounded⟩
  have one : sender.canEnqueue n = true ↔
      sender.pending.length < maxFrames ∧ sender.bytes + n ≤ maxBytes := by
    simp only [canEnqueue, Bool.and_eq_true, decide_eq_true_eq]
    omega
  constructor
  · rintro ⟨agrees, _⟩
    have first := (agrees (List.replicate n 0) List.length_replicate).1
    rw [accepts _ List.length_replicate, one] at first
    omega
  · intro condition
    refine ⟨fun payload size => ?_, takesBatches counted⟩
    rw [accepts payload size, one, canEnqueueBatch_iff, le_availableInputBytes_iff counted nonempty bounded]
    omega

end Room

/-- A sender whose frames were all acknowledged. -/
def settled (last : Nat) : Sender := ⟨"aaaaaaaaaaaaaaaaaaaaaaaaaaaaaaaa", last, last, [], 0⟩

theorem settled_counted {last} (numbered : last ≤ maxSequence) : (settled last).Counted :=
  have named : token "aaaaaaaaaaaaaaaaaaaaaaaaaaaaaaaa" 32 = true := by decide
  ⟨named, numbered, rfl, Nat.zero_le _, Nat.zero_le _⟩

/-- At the last number but one the preflights agree. -/
theorem settled_agrees : (settled (maxSequence - 1)).Agrees 1 ∧ (settled (maxSequence - 1)).TakesBatches :=
  (capacity_preflights_agree (settled_counted (by decide)) (by decide) (by decide)).mpr (.inl (by decide))

/-- Past the last number there is room for a byte, and no number for it. -/
theorem exhausted_disagrees : (settled maxSequence).Counted ∧
    (settled maxSequence).canEnqueue 1 = true ∧ ¬ (settled maxSequence).Accepts [0] ∧
    ¬ ((settled maxSequence).Agrees 1 ∧ (settled maxSequence).TakesBatches) := by
  have refused : ¬ (settled maxSequence).Accepts [0] := fun accepted =>
    absurd accepted.room.2.2 (by decide)
  refine ⟨settled_counted (by decide), by decide, refused, ?_⟩
  rintro ⟨agrees, _⟩
  exact refused ((agrees [0] rfl).1.mpr (by decide))

end PortHub.Terminal.Delivery.Sender
