import PortHub.Lib.Chunks
import PortHub.Terminal.Delivery

/-! # The delivery state of a guest

Input goes to the gateway unsequenced until a direct path is negotiated. While
an offer is pending it is queued; the answer opens the journals and the queue is
submitted again, now as sequenced frames. A repeated offer keeps the journals.
Each call is specified by everything it can do to the queue and the journals.
-/

namespace PortHub.Terminal

open Delivery Chunks

/-- `enqueue` on piece after piece, up to the first failure. -/
def Delivery.Sender.enqueueAll (sender : Sender) : List (List UInt8) → Sender × Result (List Frame)
  | [] => (sender, .ok [])
  | piece :: rest =>
      match sender.enqueue piece with
      | (next, .error message) => (next, .error message)
      | (next, .ok frame) =>
          match next.enqueueAll rest with
          | (final, .error message) => (final, .error message)
          | (final, .ok frames) => (final, .ok (frame :: frames))

inductive Outbound where
  | gateway (input : ViewerInput)
  | packet (message : Message)

inductive Incoming where
  | inputAcknowledged
  | output
  deriving DecidableEq, Repr

structure Journals where
  input : Sender
  output : Receiver
  inputEpoch : String
  outputEpoch : String

structure Viewer where
  readOnly : Bool
  pending : Option UInt32
  lastRequest : UInt32
  queued : List UInt8
  journals : Option Journals

namespace Viewer

def new (readOnly : Bool) : Viewer := ⟨readOnly, none, 0, [], none⟩

def beginOffer (parse : String → Option Description) (viewer : Viewer) (request : UInt32)
    (description : DirectDescription) : Viewer × Result ViewerInput :=
  if viewer.pending.isNone && decide (viewer.lastRequest < request) then
    match description.validate parse "offer" with
    | .error message => (viewer, .error message)
    | .ok _ =>
        ({ viewer with pending := some request, lastRequest := request },
          .ok (.directOffer request description))
  else (viewer, .error "terminal negotiation is pending or stale")

/-- The packets of some frames. -/
def packets (frames : List Frame) : List Outbound := frames.map fun frame => .packet (.data frame)

/-- The unsequenced inputs of some pieces. -/
def legacyInputs (pieces : List (List UInt8)) : List Outbound :=
  pieces.map fun piece => .gateway (.input (encodeData piece))

def input (viewer : Viewer) (bytes : List UInt8) : Viewer × Result (List Outbound) :=
  if viewer.readOnly then (viewer, .error "terminal participant is read-only")
  else if bytes.isEmpty || decide (maxBytes < bytes.length) then
    (viewer, .error "terminal input exceeds limit")
  else
    match viewer.journals with
    | some journals =>
        let pieces := chunks maxPayload bytes
        if journals.input.canEnqueueBatch bytes.length pieces.length then
          let (sender, result) := journals.input.enqueueAll pieces
          ({ viewer with journals := some { journals with input := sender } }, result.map packets)
        else (viewer, .error "terminal input is awaiting acknowledgement")
    | none =>
        if viewer.pending.isSome then
          if viewer.queued.length + bytes.length ≤ maxBytes then
            ({ viewer with queued := viewer.queued ++ bytes }, .ok [])
          else (viewer, .error "terminal negotiation input is full")
        else (viewer, .ok (legacyInputs (chunks maxPayload bytes)))

def flushQueued (viewer : Viewer) : Viewer × Result (List Outbound) :=
  if viewer.queued.isEmpty then (viewer, .ok [])
  else { viewer with queued := [] }.input viewer.queued

def acceptAnswer (parse : String → Option Description) (viewer : Viewer) (answer : DirectAnswer) :
    Viewer × Result (List Outbound) :=
  if viewer.pending = some answer.request then
    match answer.validate parse with
    | .error message => (viewer, .error message)
    | .ok _ =>
        match viewer.journals with
        | some journals =>
            if journals.inputEpoch = answer.inputEpoch ∧
                journals.outputEpoch = answer.outputEpoch then
              { viewer with pending := none }.flushQueued
            else
              (viewer, .error
                "terminal attachment epochs changed; reconnect without replaying old input")
        | none =>
            match Sender.new answer.inputEpoch, Receiver.new answer.outputEpoch with
            | .error message, _ => (viewer, .error message)
            | .ok _, .error message => (viewer, .error message)
            | .ok input, .ok output =>
                { viewer with
                  journals := some ⟨input, output, answer.inputEpoch, answer.outputEpoch⟩
                  pending := none }.flushQueued
  else (viewer, .error "unexpected terminal answer")

def replayInput (viewer : Viewer) : List Outbound :=
  match viewer.journals with
  | some journals => packets journals.input.replay
  | none => []

def unavailable (viewer : Viewer) (request : UInt32) : Viewer × Result (List Outbound) :=
  if viewer.pending = some request then
    let cleared := { viewer with pending := none }
    if cleared.journals.isSome then (cleared, .ok cleared.replayInput) else cleared.flushQueued
  else (viewer, .error "unexpected terminal negotiation response")

def inputCapacity (viewer : Viewer) : Nat :=
  if viewer.readOnly then 0
  else
    match viewer.journals with
    | some journals => journals.input.availableInputBytes
    | none => min (usizeSub maxBytes viewer.queued.length) maxPayload

def receive (viewer : Viewer) (message : Message) : Viewer × Result Incoming :=
  match viewer.journals with
  | none => (viewer, .error "terminal data arrived before negotiation")
  | some journals =>
      match message with
      | .ack epoch sequence =>
          let (sender, result) := journals.input.acknowledge epoch sequence
          ({ viewer with journals := some { journals with input := sender } },
            result.map fun _ => .inputAcknowledged)
      | .data frame =>
          let (receiver, result) := journals.output.stage frame
          ({ viewer with journals := some { journals with output := receiver } },
            result.map fun _ => .output)

def commitOutput (viewer : Viewer) (sequence : Nat) : Viewer × Result Unit :=
  match viewer.journals with
  | none => (viewer, .error "terminal output is not negotiated")
  | some journals =>
      let (receiver, result) := journals.output.commit sequence
      ({ viewer with journals := some { journals with output := receiver } }, result)

end Viewer

namespace Delivery.Sender

/-- A batch that was preflighted is accepted piece by piece. -/
theorem Sent.enqueueAll {sender : Sender} {frames} (sent : sender.Sent frames) {pieces}
    (sized : ∀ piece ∈ pieces, 1 ≤ piece.length ∧ piece.length ≤ maxPayload)
    (bytes : sender.bytes + pieces.flatten.length ≤ maxBytes)
    (room : sender.pending.length + pieces.length ≤ maxFrames)
    (numbers : sender.last + pieces.length ≤ maxSequence) :
    ∃ next fresh, sender.enqueueAll pieces = (next, .ok fresh) ∧ next.Sent (frames ++ fresh) ∧
      payloads fresh = pieces.flatten := by
  induction pieces generalizing sender frames with
  | nil => exact ⟨sender, [], rfl, by simpa using sent, rfl⟩
  | cons piece rest ih =>
      simp only [List.length_cons, List.flatten_cons, List.length_append] at bytes room numbers
      obtain ⟨frame, accepted⟩ : ∃ frame, (sender.enqueue piece).2 = .ok frame :=
        enqueue_eq_ok sent.named (by omega) (by omega) (by omega) (sized piece (.head _))
      have one := sent.enqueue piece
      have call := sender.enqueue_enqueues piece
      unfold Sender.enqueueAll
      generalize sender.enqueue piece = result at accepted one call ⊢
      cases call with
      | refused message => cases accepted
      | accepted other _ _ same _ _ =>
          obtain ⟨final, fresh, passed, all, carried⟩ := ih one
            (fun other member => sized other (.tail _ member)) (by dsimp only; omega)
            (by simp only [List.length_append, List.length_singleton]; omega)
            (by dsimp only; omega)
          refine ⟨final, other :: fresh, ?_, ?_, ?_⟩
          · simp only [passed]
          · simpa [Except.toOption] using all
          · rw [List.flatten_cons, ← carried, ← same]
            rfl

end Delivery.Sender

namespace Viewer

/-- What the calls of a viewer rely on and keep. -/
structure Settled (viewer : Viewer) : Prop where
  journal : ∀ journals, viewer.journals = some journals → ∃ frames, journals.input.Sent frames
  waiting : viewer.queued ≠ [] → viewer.pending.isSome = true ∧ viewer.journals = none
  bounded : viewer.queued.length ≤ maxBytes
  silent : viewer.readOnly = true → viewer.queued = []

/-- Everything `input` can do. -/
inductive Inputs (viewer : Viewer) (bytes : List UInt8) : Viewer × Result (List Outbound) → Prop where
  | forbidden (message : String) (readOnly : viewer.readOnly = true) :
      Inputs viewer bytes (viewer, .error message)
  | illegal (message : String) (size : bytes = [] ∨ maxBytes < bytes.length) :
      Inputs viewer bytes (viewer, .error message)
  | awaiting (message : String) {journals : Journals} (found : viewer.journals = some journals)
      (full : ¬ (journals.input.bytes + bytes.length ≤ maxBytes ∧
        journals.input.pending.length + (chunks maxPayload bytes).length ≤ maxFrames ∧
        journals.input.last + (chunks maxPayload bytes).length ≤ maxSequence)) :
      Inputs viewer bytes (viewer, .error message)
  | full (message : String) (unopened : viewer.journals = none)
      (room : maxBytes < viewer.queued.length + bytes.length) :
      Inputs viewer bytes (viewer, .error message)
  | sequenced {journals : Journals} {next : Sender} {fresh : List Frame}
      (writable : viewer.readOnly = false) (found : viewer.journals = some journals)
      (sent : ∀ frames, journals.input.Sent frames → next.Sent (frames ++ fresh))
      (carried : payloads fresh = bytes) :
      Inputs viewer bytes
        ({ viewer with journals := some { journals with input := next } }, .ok (packets fresh))
  | queued (writable : viewer.readOnly = false) (unopened : viewer.journals = none)
      (offered : viewer.pending.isSome = true)
      (fits : viewer.queued.length + bytes.length ≤ maxBytes) :
      Inputs viewer bytes ({ viewer with queued := viewer.queued ++ bytes }, .ok [])
  | legacy (writable : viewer.readOnly = false) (unopened : viewer.journals = none)
      (idle : viewer.pending = none) :
      Inputs viewer bytes (viewer, .ok (legacyInputs (chunks maxPayload bytes)))

theorem maxPayload_pos : 0 < maxPayload := by decide

/-- A preflighted input becomes new frames of whatever the sender has sent. -/
theorem enqueueAll_chunks {sender : Sender} {sent} (known : sender.Sent sent) {bytes : List UInt8}
    (fits : sender.bytes + bytes.length ≤ maxBytes)
    (room : sender.pending.length + (chunks maxPayload bytes).length ≤ maxFrames)
    (numbers : sender.last + (chunks maxPayload bytes).length ≤ maxSequence) :
    ∃ next fresh, sender.enqueueAll (chunks maxPayload bytes) = (next, .ok fresh) ∧
      (∀ frames, sender.Sent frames → next.Sent (frames ++ fresh)) ∧ payloads fresh = bytes := by
  have whole := chunks_flatten maxPayload_pos bytes
  have accepted : ∀ frames, sender.Sent frames → _ := fun _ sent => sent.enqueueAll
    (fun _ member => chunks_sized maxPayload_pos member) (whole.symm ▸ fits) room numbers
  obtain ⟨next, fresh, passed, _, carried⟩ := accepted sent known
  refine ⟨next, fresh, passed, ?_, carried.trans whole⟩
  intro frames sent
  obtain ⟨_, _, again, extended, _⟩ := accepted frames sent
  obtain ⟨rfl, same⟩ := Prod.mk.inj (passed.symm.trans again)
  cases same
  exact extended

theorem input_inputs (viewer : Viewer)
    (kept : ∀ journals, viewer.journals = some journals → ∃ frames, journals.input.Sent frames)
    (bytes : List UInt8) : Inputs viewer bytes (viewer.input bytes) := by
  obtain ⟨readOnly, pending, lastRequest, queued, journals⟩ := viewer
  unfold input
  split
  · rename_i forbidden
    exact .forbidden _ forbidden
  · rename_i writable
    have allowed : readOnly = false := by simpa using writable
    split
    · rename_i size
      exact .illegal _ (by simpa using size)
    · rename_i size
      simp only [Bool.or_eq_true, List.isEmpty_iff, decide_eq_true_eq, not_or, not_lt] at size
      cases journals with
      | none =>
          dsimp only
          split
          · rename_i offered
            split
            · rename_i fits
              exact .queued allowed rfl offered fits
            · rename_i room
              exact .full _ rfl (not_le.mp room)
          · rename_i idle
            exact .legacy allowed rfl (by simpa using idle)
      | some journals =>
          have length := List.length_pos_of_ne_nil size.1
          have pieces : 0 < (chunks maxPayload bytes).length := chunks_length_pos size.1
          simp only [Sender.canEnqueueBatch, length, pieces, decide_true, Bool.true_and,
            Bool.and_eq_true, decide_eq_true_eq, and_assoc]
          split
          · rename_i promised
            obtain ⟨fits, room, numbers⟩ := promised
            obtain ⟨frames, sent⟩ := kept journals rfl
            obtain ⟨next, fresh, passed, grows, carried⟩ := enqueueAll_chunks sent fits room numbers
            rw [passed]
            exact .sequenced allowed rfl grows carried
          · rename_i full
            exact .awaiting _ rfl full

theorem inputCapacity_le (viewer : Viewer) : viewer.inputCapacity ≤ maxPayload := by
  unfold inputCapacity
  split
  · exact Nat.zero_le _
  · split
    · unfold Sender.availableInputBytes
      split
      · exact Nat.zero_le _
      · exact Nat.min_le_right _ _
    · exact Nat.min_le_right _ _

variable {viewer : Viewer}

/-- Input within the announced capacity is accepted. -/
theorem input_within_capacity (settled : viewer.Settled) {bytes : List UInt8}
    (some : 1 ≤ bytes.length) (within : bytes.length ≤ viewer.inputCapacity) :
    ∃ out, (viewer.input bytes).2 = .ok out := by
  have small := within.trans viewer.inputCapacity_le
  have call := viewer.input_inputs settled.journal bytes
  generalize viewer.input bytes = result at call ⊢
  cases call with
  | forbidden message readOnly =>
      simp only [inputCapacity, readOnly, if_true] at within
      omega
  | illegal message size =>
      rcases size with rfl | large
      · simp at some
      · simp only [maxPayload, maxBytes] at small large
        omega
  | @awaiting message journals found full =>
      obtain ⟨frames, sent⟩ := settled.journal journals found
      have pieces : (chunks maxPayload bytes).length ≤ 1 := chunks_length_le (by omega)
      have counted := usizeSub_eq sent.withinBytes (by decide)
      simp only [inputCapacity, found] at within
      split at within
      · omega
      · simp only [Sender.availableInputBytes] at within
        split at within
        · omega
        · rename_i space
          have bounded := sent.withinBytes
          exact absurd ⟨by omega, by omega, by omega⟩ full
  | full message unopened room =>
      have counted := usizeSub_eq settled.bounded (by decide)
      simp only [inputCapacity, unopened] at within
      split at within
      · omega
      · rw [counted, Nat.le_min] at within
        omega
  | sequenced | queued | legacy => exact ⟨_, rfl⟩

/-- Everything an answer can do: journals that exist are kept, and new ones take
    over the queue. -/
inductive Accepts (viewer : Viewer) : Viewer × Result (List Outbound) → Prop where
  | refused (message : String) : Accepts viewer (viewer, .error message)
  | reopened {journals : Journals} (found : viewer.journals = some journals) :
      Accepts viewer ({ viewer with pending := none }, .ok [])
  | opened {journals : Journals} {fresh : List Frame} (unopened : viewer.journals = none)
      (sent : journals.input.Sent fresh) (carried : payloads fresh = viewer.queued) :
      Accepts viewer
        ({ viewer with pending := none, queued := [], journals := some journals },
          .ok (packets fresh))

/-- The queue of a fresh journal goes out in at most four frames. -/
theorem flush_opened (settled : viewer.Settled) (unopened : viewer.journals = none)
    {journals : Journals} (fresh : journals.input.Sent []) :
    Accepts viewer { viewer with pending := none, journals := some journals }.flushQueued := by
  unfold flushQueued
  split
  · rename_i empty
    have nothing : viewer.queued = [] := List.isEmpty_iff.mp empty
    have same : ({ viewer with pending := none, journals := some journals } : Viewer) =
        { viewer with pending := none, queued := [], journals := some journals } := by
      rw [nothing]
    rw [same]
    exact .opened unopened fresh nothing.symm
  · rename_i waiting
    have nonempty : viewer.queued ≠ [] := mt List.isEmpty_iff.mpr waiting
    have bounded := settled.bounded
    have call :=
      { viewer with pending := none, queued := [], journals := some journals }.input_inputs
        (fun _ found => ⟨[], Option.some.inj found ▸ fresh⟩) viewer.queued
    generalize Viewer.input _ viewer.queued = result at call ⊢
    cases call with
    | forbidden message readOnly => exact absurd (settled.silent readOnly) nonempty
    | illegal message size =>
        rcases size with empty | large
        · exact absurd empty nonempty
        · omega
    | awaiting message found full =>
        cases found
        have pieces : (chunks maxPayload viewer.queued).length ≤ 4 := chunks_length_le bounded
        have empty : journals.input.pending = [] := fresh.retained.trans List.drop_nil
        have unused : journals.input.bytes = 0 := by rw [fresh.counted, empty, total_nil]
        have unsent : journals.input.last = 0 := fresh.length.symm
        simp only [empty, unused, unsent, List.length_nil, Nat.zero_add] at full
        refine absurd ⟨bounded, ?_, ?_⟩ full
        · exact pieces.trans (by decide)
        · exact pieces.trans (by decide)
    | full message unopened room | queued writable unopened | legacy writable unopened =>
        cases unopened
    | sequenced writable found sent carried =>
        cases found
        exact .opened unopened (sent [] fresh) carried

theorem acceptAnswer_accepts (parse : String → Option Description) (settled : viewer.Settled)
    (answer : DirectAnswer) :
    Accepts viewer (viewer.acceptAnswer parse answer) := by
  unfold acceptAnswer
  split
  · cases valid : answer.validate parse with
    | error message => exact .refused message
    | ok _ =>
        dsimp only
        split
        · rename_i journals found
          split
          · have nothing : viewer.queued = [] := by
              by_contra waiting
              rw [(settled.waiting waiting).2] at found
              cases found
            unfold flushQueued
            rw [if_pos (List.isEmpty_iff.mpr nothing)]
            exact .reopened found
          · exact .refused _
        · rename_i unopened
          obtain ⟨input, output⟩ := answer.validate_ok valid
          rw [Sender.new_eq_ok input, Receiver.new_eq_ok output]
          exact flush_opened settled unopened (Sender.new_sent (Sender.new_eq_ok input))
  · exact .refused _

/-- Everything a refusal of the host can do: retained frames are replayed, or
    the queue goes out unsequenced. -/
inductive Withdraws (viewer : Viewer) : Viewer × Result (List Outbound) → Prop where
  | refused (message : String) : Withdraws viewer (viewer, .error message)
  | replayed {journals : Journals} (found : viewer.journals = some journals) :
      Withdraws viewer ({ viewer with pending := none }, .ok (packets journals.input.pending))
  | released (unopened : viewer.journals = none) :
      Withdraws viewer ({ viewer with pending := none, queued := [] },
        .ok (legacyInputs (chunks maxPayload viewer.queued)))

/-- A queue without journals goes out as it would have without the offer. -/
theorem flush_released (settled : viewer.Settled) (unopened : viewer.journals = none) :
    Withdraws viewer { viewer with pending := none }.flushQueued := by
  unfold flushQueued
  split
  · rename_i empty
    have nothing : viewer.queued = [] := List.isEmpty_iff.mp empty
    have same : ({ viewer with pending := none } : Viewer) =
        { viewer with pending := none, queued := [] } := by
      rw [nothing]
    rw [same]
    have released := Withdraws.released unopened
    rwa [nothing] at released
  · rename_i waiting
    have nonempty : viewer.queued ≠ [] := mt List.isEmpty_iff.mpr waiting
    have bounded := settled.bounded
    have call :=
      { viewer with pending := none, queued := [] }.input_inputs settled.journal viewer.queued
    generalize Viewer.input _ viewer.queued = result at call ⊢
    cases call with
    | forbidden message readOnly => exact absurd (settled.silent readOnly) nonempty
    | illegal message size =>
        rcases size with empty | large
        · exact absurd empty nonempty
        · omega
    | awaiting message found | sequenced writable found => cases unopened.symm.trans found
    | full message _ room =>
        simp only [List.length_nil, Nat.zero_add] at room
        omega
    | queued writable _ offered => cases offered
    | legacy writable _ idle => exact .released unopened

theorem unavailable_withdraws (settled : viewer.Settled) (request : UInt32) :
    Withdraws viewer (viewer.unavailable request) := by
  unfold unavailable
  split
  · dsimp only
    split
    · rename_i opened
      obtain ⟨journals, found⟩ := Option.isSome_iff_exists.mp opened
      have replayed : { viewer with pending := none }.replayInput =
          packets journals.input.pending := by
        simp only [replayInput, found, Sender.replay]
      rw [replayed]
      exact .replayed found
    · rename_i unopened
      exact flush_released settled (by simpa using unopened)
  · exact .refused _

end Viewer

end PortHub.Terminal
