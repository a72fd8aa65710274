import PortHub.Lib.Runs
import PortHub.Terminal.Viewer

/-! # Guest input across negotiations

Runs of a viewer under every operation, failing calls included. The bytes of the
accepted inputs are, in this order, what was sent to the gateway unsequenced,
the payloads of the frames that were numbered, and what is still queued.
-/

namespace PortHub.Terminal

open Runs Delivery Chunks

namespace Viewer

inductive Op where
  | beginOffer (request : UInt32) (description : DirectDescription)
  | input (bytes : List UInt8)
  | acceptAnswer (answer : DirectAnswer)
  | unavailable (request : UInt32)
  | replayInput
  | receive (message : Message)
  | commitOutput (sequence : Nat)

inductive Answer where
  | offered (result : Result ViewerInput)
  | sent (result : Result (List Outbound))
  | received (result : Result Incoming)
  | committed (result : Result Unit)

abbrev Event := Op × Answer

def step (parse : String → Option Description) (viewer : Viewer) : Op → Viewer × Answer
  | .beginOffer request description =>
      let (next, result) := viewer.beginOffer parse request description
      (next, .offered result)
  | .input bytes =>
      let (next, result) := viewer.input bytes
      (next, .sent result)
  | .acceptAnswer answer =>
      let (next, result) := viewer.acceptAnswer parse answer
      (next, .sent result)
  | .unavailable request =>
      let (next, result) := viewer.unavailable request
      (next, .sent result)
  | .replayInput => (viewer, .sent (.ok viewer.replayInput))
  | .receive message =>
      let (next, result) := viewer.receive message
      (next, .received result)
  | .commitOutput sequence =>
      let (next, result) := viewer.commitOutput sequence
      (next, .committed result)

/-- The bytes of the inputs that were accepted. -/
def submitted (history : List Event) : List UInt8 :=
  history.flatMap fun event =>
    match event with
    | (.input bytes, .sent (.ok _)) => bytes
    | _ => []

/-- Everything a call returned for sending. -/
def emitted (event : Event) : List Outbound :=
  match event.2 with
  | .sent (.ok out) => out
  | _ => []

def outbound (history : List Event) : List Outbound := history.flatMap emitted

/-- The bytes of an unsequenced input, as the host decodes them. -/
def legacyBytes : Outbound → List UInt8
  | .gateway (.input data) => (decodeData data).toOption.getD []
  | _ => []

def legacy (history : List Event) : List UInt8 := (outbound history).flatMap legacyBytes

def frame? : Outbound → Option Frame
  | .packet (.data frame) => some frame
  | _ => none

/-- The frames that inputs and answers returned; the other calls only replay. -/
def sequenced (history : List Event) : List Frame :=
  history.flatMap fun event =>
    match event.1 with
    | .input _ | .acceptAnswer _ => (emitted event).filterMap frame?
    | _ => []

section

variable (history : List Event) (event : Event)

include history event

theorem submitted_append : submitted (history ++ [event]) = submitted history ++ submitted [event] := by
  simp [submitted]

theorem outbound_append : outbound (history ++ [event]) = outbound history ++ emitted event := by
  simp [outbound]

theorem legacy_append :
    legacy (history ++ [event]) = legacy history ++ (emitted event).flatMap legacyBytes := by
  simp [legacy, outbound_append]

theorem sequenced_append : sequenced (history ++ [event]) = sequenced history ++ sequenced [event] := by
  simp [sequenced]

end

theorem packets_frames (frames : List Frame) : (packets frames).filterMap frame? = frames := by
  simp [packets, List.filterMap_map, Function.comp_def, frame?]

theorem packets_legacy (frames : List Frame) : (packets frames).flatMap legacyBytes = [] := by
  simp [packets, legacyBytes]

/-- What goes out unsequenced is what the host decodes. -/
theorem legacyInputs_legacy (bytes : List UInt8) :
    (legacyInputs (chunks maxPayload bytes)).flatMap legacyBytes = bytes := by
  have whole := chunks_flatten maxPayload_pos bytes
  have each : ∀ piece ∈ chunks maxPayload bytes,
      legacyBytes (.gateway (.input (encodeData piece))) = piece := by
    intro piece member
    have sized := chunks_sized maxPayload_pos member
    simp only [legacyBytes, decodeData_encodeData sized.2, Except.toOption, Option.getD_some]
  calc
    (legacyInputs (chunks maxPayload bytes)).flatMap legacyBytes
      = (chunks maxPayload bytes).flatMap id := by
        rw [legacyInputs, List.flatMap_map]
        exact List.flatMap_congr each
    _ = bytes := by rw [List.flatMap_id, whole]

/-- The input journal, once it exists, has sent exactly these frames. -/
def Tracks : Option Journals → List Frame → Prop
  | none, frames => frames = []
  | some journals, frames => journals.input.Sent frames

/-- What holds after every run of a viewer. -/
structure Conserves (readOnly : Bool) (history : List Event) (viewer : Viewer) : Prop where
  role : viewer.readOnly = readOnly
  tracks : Tracks viewer.journals (sequenced history)
  waiting : viewer.queued ≠ [] → viewer.pending.isSome = true ∧ viewer.journals = none
  bounded : viewer.queued.length ≤ maxBytes
  conserved : submitted history = legacy history ++ payloads (sequenced history) ++ viewer.queued
  forbidden : readOnly = true → submitted history = []
  genuine : ∀ out ∈ outbound history,
    (∃ frame ∈ sequenced history, out = .packet (.data frame)) ∨
    ∃ piece, 1 ≤ piece.length ∧ piece.length ≤ maxPayload ∧
      out = .gateway (.input (encodeData piece))

namespace Conserves

variable {readOnly : Bool} {history : List Event} {viewer next : Viewer} {journals : Journals}

theorem start (readOnly : Bool) : Conserves readOnly [] (.new readOnly) :=
  ⟨rfl, rfl, by simp [new], Nat.zero_le _, rfl, fun _ => rfl, by simp [outbound]⟩

theorem sent (conserves : Conserves readOnly history viewer) {journals}
    (found : viewer.journals = some journals) : journals.input.Sent (sequenced history) := by
  have tracks := conserves.tracks
  rwa [found] at tracks

section

variable (conserves : Conserves readOnly history viewer)

include conserves

theorem unsequenced (unopened : viewer.journals = none) :
    sequenced history = [] := by
  have tracks := conserves.tracks
  rwa [unopened] at tracks

theorem settled : viewer.Settled where
  journal _ found := ⟨_, conserves.sent found⟩
  __ := conserves
  silent forbidden := by
    have nothing := conserves.conserved
    rw [conserves.forbidden (conserves.role.symm.trans forbidden)] at nothing
    exact (List.append_eq_nil_iff.mp nothing.symm).2

/-- Nothing is queued once the journals exist. -/
theorem unqueued (found : viewer.journals = some journals) : viewer.queued = [] := by
  by_contra waiting
  rw [(conserves.waiting waiting).2] at found
  cases found

/-- Retained frames were numbered. -/
theorem retained (found : viewer.journals = some journals) :
    ∀ frame ∈ journals.input.pending, frame ∈ sequenced history := by
  intro frame member
  rw [(conserves.sent found).retained] at member
  exact List.mem_of_mem_drop member

/-- An offer that ended leaves the journals as they were. -/
theorem cleared (found : viewer.journals = some journals) :
    Conserves readOnly history { viewer with pending := none } :=
  { conserves with waiting := fun waiting => absurd (conserves.unqueued found) waiting }

/-- An event that accepts no input and numbers no frame may only repeat frames. -/
theorem quiet (event : Event)
    (noInput : submitted [event] = []) (noFrame : sequenced [event] = [])
    (replays : ∃ frames, (∀ frame ∈ frames, frame ∈ sequenced history) ∧
      emitted event = packets frames) :
    Conserves readOnly (history ++ [event]) viewer := by
  obtain ⟨frames, known, repeated⟩ := replays
  have same : sequenced (history ++ [event]) = sequenced history := by
    rw [sequenced_append, noFrame, List.append_nil]
  refine ⟨conserves.role, same ▸ conserves.tracks, conserves.waiting, conserves.bounded, ?_, ?_, ?_⟩
  · rw [submitted_append, noInput, legacy_append, repeated, packets_legacy, same, List.append_nil,
      List.append_nil, conserves.conserved]
  · intro forbidden
    rw [submitted_append, noInput, conserves.forbidden forbidden, List.append_nil]
  · intro out member
    rw [outbound_append, repeated, List.mem_append] at member
    rw [same]
    rcases member with earlier | now
    · exact conserves.genuine out earlier
    · obtain ⟨frame, listed, rfl⟩ := List.mem_map.mp now
      exact .inl ⟨frame, known frame listed, rfl⟩

/-- An event without emissions. -/
theorem silent (event : Event)
    (noInput : submitted [event] = []) (nothing : emitted event = []) :
    Conserves readOnly (history ++ [event]) viewer := by
  refine conserves.quiet event noInput ?_ ⟨[], by simp, nothing⟩
  simp only [sequenced, List.flatMap_cons, List.flatMap_nil, List.append_nil, nothing,
    List.filterMap_nil]
  cases event.1 <;> rfl

/-- Frames that were numbered now carry new input, or the queue. -/
theorem number (event : Event) (fresh : List Frame)
    (tracks : Tracks next.journals (sequenced history ++ fresh)) (empty : next.queued = [])
    (role : next.readOnly = viewer.readOnly) (emits : emitted event = packets fresh)
    (numbers : sequenced [event] = fresh)
    (carried : payloads fresh = viewer.queued ++ submitted [event])
    (allowed : readOnly = true → submitted [event] = []) :
    Conserves readOnly (history ++ [event]) next := by
  refine ⟨role.trans conserves.role, ?_, by simp [empty], by simp [empty], ?_, ?_, ?_⟩
  · rw [sequenced_append, numbers]
    exact tracks
  · rw [submitted_append, legacy_append, sequenced_append, numbers, emits, packets_legacy, empty,
      conserves.conserved]
    simp [payloads] at carried ⊢
    exact carried.symm
  · intro forbidden
    rw [submitted_append, conserves.forbidden forbidden, allowed forbidden, List.append_nil]
  · intro out member
    rw [outbound_append, emits, List.mem_append] at member
    rw [sequenced_append, numbers]
    rcases member with earlier | now
    · rcases conserves.genuine out earlier with ⟨frame, listed, rfl⟩ | legacy
      · exact .inl ⟨frame, List.mem_append_left _ listed, rfl⟩
      · exact .inr legacy
    · obtain ⟨frame, listed, rfl⟩ := List.mem_map.mp now
      exact .inl ⟨frame, List.mem_append_right _ listed, rfl⟩

/-- New input, or the queue, went to the gateway before any frame was numbered. -/
theorem unnumber (event : Event) {bytes}
    (unopened : viewer.journals = none) (same : next.journals = none) (empty : next.queued = [])
    (role : next.readOnly = viewer.readOnly)
    (emits : emitted event = legacyInputs (chunks maxPayload bytes))
    (carried : bytes = viewer.queued ++ submitted [event])
    (allowed : readOnly = true → submitted [event] = []) :
    Conserves readOnly (history ++ [event]) next := by
  have noFrame : sequenced [event] = [] := by
    have none : (emitted event).filterMap frame? = [] := by
      rw [emits]
      simp [legacyInputs, frame?]
    simp only [sequenced, List.flatMap_cons, List.flatMap_nil, List.append_nil, none]
    cases event.1 <;> rfl
  have unsequenced : sequenced (history ++ [event]) = [] := by
    rw [sequenced_append, conserves.unsequenced unopened, noFrame, List.append_nil]
  refine ⟨role.trans conserves.role, ?_, by simp [empty], by simp [empty], ?_, ?_, ?_⟩
  · rw [unsequenced, same]
    rfl
  · rw [submitted_append, legacy_append, unsequenced, emits, legacyInputs_legacy, empty,
      conserves.conserved, conserves.unsequenced unopened, carried]
    simp [payloads]
  · intro forbidden
    rw [submitted_append, conserves.forbidden forbidden, allowed forbidden, List.append_nil]
  · intro out member
    rw [outbound_append, emits, List.mem_append] at member
    rw [unsequenced]
    rcases member with earlier | now
    · have known := conserves.genuine out earlier
      rwa [conserves.unsequenced unopened] at known
    · obtain ⟨piece, listed, rfl⟩ := List.mem_map.mp now
      obtain ⟨some, bounded⟩ := chunks_sized maxPayload_pos listed
      exact .inr ⟨piece, some, bounded, rfl⟩

theorem input (bytes : List UInt8) :
    Conserves readOnly (history ++ [(.input bytes, .sent (viewer.input bytes).2)]) (viewer.input bytes).1 := by
  have call := viewer.input_inputs conserves.settled.journal bytes
  generalize viewer.input bytes = result at call ⊢
  cases call with
  | forbidden | illegal | awaiting | full => exact conserves.silent _ rfl rfl
  | @sequenced journals after fresh writable found sent carried =>
      have empty := conserves.unqueued found
      refine conserves.number _ fresh (sent _ (conserves.sent found)) empty rfl rfl ?_ ?_
        (by simp [← conserves.role, writable])
      · simp [Viewer.sequenced, emitted, packets_frames]
      · simp [submitted, empty, carried]
  | queued writable unopened offered fits =>
      have none := conserves.unsequenced unopened
      have silent : sequenced [(.input bytes, .sent (.ok []))] = [] := rfl
      have same : sequenced (history ++ [(.input bytes, .sent (.ok []))]) = [] := by
        rw [sequenced_append, none, silent, List.append_nil]
      refine ⟨conserves.role, ?_, fun _ => ⟨offered, unopened⟩, by simpa using fits, ?_,
        by simp [← conserves.role, writable], ?_⟩
      · rw [same, unopened]
        rfl
      · rw [submitted_append, legacy_append, same, conserves.conserved, none]
        simp [submitted, emitted, payloads]
      · intro out member
        rw [outbound_append, show emitted (.input bytes, .sent (.ok [])) = [] from rfl,
          List.append_nil] at member
        have known := conserves.genuine out member
        rwa [none, ← same] at known
  | legacy writable unopened idle =>
      have empty : viewer.queued = [] := by
        by_contra waiting
        simpa [idle] using (conserves.waiting waiting).1
      refine conserves.unnumber _ unopened unopened empty rfl rfl ?_
        (by simp [← conserves.role, writable])
      simp [submitted, empty]

theorem acceptAnswer (parse : String → Option Description)
    (answer : DirectAnswer) :
    Conserves readOnly (history ++ [(.acceptAnswer answer, .sent (viewer.acceptAnswer parse answer).2)])
      (viewer.acceptAnswer parse answer).1 := by
  have call := acceptAnswer_accepts parse conserves.settled answer
  generalize viewer.acceptAnswer parse answer = result at call ⊢
  cases call with
  | refused message => exact conserves.silent _ rfl rfl
  | reopened found => exact (conserves.cleared found).silent _ rfl rfl
  | @opened journals fresh unopened sent carried =>
      refine conserves.number _ fresh ?_ rfl rfl rfl ?_ ?_ fun _ => rfl
      · rw [conserves.unsequenced unopened]
        exact sent
      · simp [Viewer.sequenced, emitted, packets_frames]
      · simp [submitted, carried]

theorem unavailable (request : UInt32) :
    Conserves readOnly (history ++ [(.unavailable request, .sent (viewer.unavailable request).2)])
      (viewer.unavailable request).1 := by
  have call := unavailable_withdraws conserves.settled request
  generalize viewer.unavailable request = result at call ⊢
  cases call with
  | refused message => exact conserves.silent _ rfl rfl
  | replayed found =>
      exact (conserves.cleared found).quiet _ rfl rfl ⟨_, conserves.retained found, rfl⟩
  | released unopened =>
      refine conserves.unnumber _ unopened unopened rfl rfl rfl ?_ fun _ => rfl
      simp [submitted]

theorem replayInput :
    Conserves readOnly (history ++ [(.replayInput, .sent (.ok viewer.replayInput))]) viewer := by
  cases found : viewer.journals with
  | none =>
      refine conserves.silent _ rfl ?_
      simp only [emitted, Viewer.replayInput, found]
  | some journals =>
      refine conserves.quiet _ rfl rfl ⟨journals.input.pending, conserves.retained found, ?_⟩
      simp only [emitted, Viewer.replayInput, found, Sender.replay]

/-- Journals that have sent the same frames, with the same offer pending. -/
theorem rejournal (found : viewer.journals = some journals) {other : Journals}
    (sent : other.input.Sent (sequenced history)) :
    Conserves readOnly history { viewer with journals := some other } :=
  ⟨conserves.role, sent, fun waiting => absurd (conserves.unqueued found) waiting, conserves.bounded,
    conserves.conserved, conserves.forbidden, conserves.genuine⟩

theorem receive (message : Message) :
    Conserves readOnly (history ++ [(.receive message, .received (viewer.receive message).2)])
      (viewer.receive message).1 := by
  refine silent ?_ _ rfl rfl
  unfold Viewer.receive
  split
  · exact conserves
  · rename_i journals found
    have sent := conserves.sent found
    cases message with
    | ack epoch sequence => exact conserves.rejournal found (sent.acknowledge epoch sequence)
    | data frame => exact conserves.rejournal found sent

theorem commitOutput (sequence : Nat) :
    Conserves readOnly (history ++ [(.commitOutput sequence, .committed (viewer.commitOutput sequence).2)])
      (viewer.commitOutput sequence).1 := by
  refine silent ?_ _ rfl rfl
  unfold Viewer.commitOutput
  split
  · exact conserves
  · rename_i journals found
    have sent := conserves.sent found
    exact conserves.rejournal found sent

theorem beginOffer (parse : String → Option Description)
    (request : UInt32) (description : DirectDescription) :
    Conserves readOnly (history ++ [(.beginOffer request description,
        .offered (viewer.beginOffer parse request description).2)])
      (viewer.beginOffer parse request description).1 := by
  refine silent ?_ _ rfl rfl
  unfold Viewer.beginOffer
  split
  · cases description.validate parse "offer" with
    | error message => exact conserves
    | ok _ =>
        exact ⟨conserves.role, conserves.tracks, fun waiting => ⟨rfl, (conserves.waiting waiting).2⟩,
          conserves.bounded, conserves.conserved, conserves.forbidden, conserves.genuine⟩
  · exact conserves

end

/-- Every step conserves the input. -/
theorem step {parse : String → Option Description} (conserves : Conserves readOnly history viewer)
    {event} (taken : answers (Viewer.step parse) viewer event next) :
    Conserves readOnly (history ++ [event]) next := by
  obtain ⟨op, answer⟩ := event
  obtain ⟨rfl, rfl⟩ : (viewer.step parse op).1 = next ∧ (viewer.step parse op).2 = answer :=
    Prod.ext_iff.mp taken
  cases op with
  | beginOffer request description => exact conserves.beginOffer parse request description
  | input bytes => exact conserves.input bytes
  | acceptAnswer answer => exact conserves.acceptAnswer parse answer
  | unavailable request => exact conserves.unavailable request
  | replayInput => exact conserves.replayInput
  | receive message => exact conserves.receive message
  | commitOutput sequence => exact conserves.commitOutput sequence

theorem run {parse : String → Option Description}
    (run : Run (answers (Viewer.step parse)) (.new readOnly) history viewer) :
    Conserves readOnly history viewer :=
  run.historyInvariant (start readOnly) fun _ _ _ _ _ conserves taken => conserves.step taken

/-- Journals stay, and with them nothing is sent unsequenced. -/
theorem opened {parse : String → Option Description} (conserves : Conserves readOnly history viewer)
    {event} (taken : answers (Viewer.step parse) viewer event next)
    (exist : viewer.journals.isSome = true) :
    next.journals.isSome = true ∧ ∃ frames, emitted event = packets frames := by
  obtain ⟨journals, found⟩ := Option.isSome_iff_exists.mp exist
  obtain ⟨op, answer⟩ := event
  obtain ⟨rfl, rfl⟩ : (viewer.step parse op).1 = next ∧ (viewer.step parse op).2 = answer :=
    Prod.ext_iff.mp taken
  cases op with
  | beginOffer request description =>
      refine ⟨?_, [], rfl⟩
      dsimp only [Viewer.step, Viewer.beginOffer]
      split
      · cases description.validate parse "offer" <;> exact exist
      · exact exist
  | input bytes =>
      have call := viewer.input_inputs conserves.settled.journal bytes
      dsimp only [Viewer.step]
      generalize viewer.input bytes = result at call ⊢
      cases call with
      | forbidden | illegal | awaiting => exact ⟨exist, [], rfl⟩
      | full message unopened | queued writable unopened | legacy writable unopened =>
          cases unopened.symm.trans found
      | @sequenced _ _ fresh => exact ⟨rfl, fresh, rfl⟩
  | acceptAnswer answer =>
      have call := acceptAnswer_accepts parse conserves.settled answer
      dsimp only [Viewer.step]
      generalize viewer.acceptAnswer parse answer = result at call ⊢
      cases call with
      | refused | reopened => exact ⟨exist, [], rfl⟩
      | opened unopened => cases unopened.symm.trans found
  | unavailable request =>
      have call := unavailable_withdraws conserves.settled request
      dsimp only [Viewer.step]
      generalize viewer.unavailable request = result at call ⊢
      cases call with
      | refused => exact ⟨exist, [], rfl⟩
      | replayed => exact ⟨exist, _, rfl⟩
      | released unopened => cases unopened.symm.trans found
  | replayInput =>
      refine ⟨exist, journals.input.pending, ?_⟩
      simp only [Viewer.step, emitted, Viewer.replayInput, found, Sender.replay]
  | receive message =>
      refine ⟨?_, [], rfl⟩
      cases message <;> simp only [Viewer.step, Viewer.receive, found, Option.isSome_some]
  | commitOutput sequence =>
      refine ⟨?_, [], rfl⟩
      simp only [Viewer.step, Viewer.commitOutput, found, Option.isSome_some]

theorem numbers (conserves : Conserves readOnly history viewer) :
    (sequenced history).map Frame.sequence =
      List.range' 1 ((viewer.journals.map fun journals => journals.input.last).getD 0) := by
  cases found : viewer.journals with
  | none =>
      rw [conserves.unsequenced found]
      rfl
  | some journals =>
      have sent := conserves.sent found
      rw [sent.numbered.map_number, sent.length]
      rfl

/-- A viewer that accepts no input has nothing to send. -/
theorem mute (conserves : Conserves true history viewer) : outbound history = [] := by
  have nothing := conserves.conserved
  rw [conserves.forbidden rfl] at nothing
  obtain ⟨sent, _⟩ := List.append_eq_nil_iff.mp nothing.symm
  obtain ⟨legacyEmpty, framesEmpty⟩ := List.append_eq_nil_iff.mp sent
  rw [List.eq_nil_iff_forall_not_mem]
  intro out member
  rcases conserves.genuine out member with ⟨frame, listed, rfl⟩ | ⟨piece, some, bounded, rfl⟩
  · have empty := List.flatMap_eq_nil_iff.mp framesEmpty frame listed
    have sized := frame.sized.1
    simp [empty] at sized
  · have empty := List.flatMap_eq_nil_iff.mp legacyEmpty _ member
    simp only [legacyBytes, decodeData_encodeData bounded, Except.toOption, Option.getD_some] at empty
    simp [empty] at some

end Conserves

/-- After the journals exist, every later run keeps them and sends only packets. -/
theorem opened_run {parse : String → Option Description} {readOnly history later viewer next}
    (first : Run (answers (Viewer.step parse)) (.new readOnly) history viewer)
    (exist : viewer.journals.isSome = true)
    (second : Run (answers (Viewer.step parse)) viewer later next) :
    next.journals.isSome = true ∧ ∀ data, .gateway (.input data) ∉ outbound later := by
  induction second with
  | start => exact ⟨exist, by simp [outbound]⟩
  | snoc prior taken ih =>
      obtain ⟨kept, silent⟩ := ih
      obtain ⟨still, frames, emits⟩ := (Conserves.run (first.trans prior)).opened taken kept
      refine ⟨still, ?_⟩
      intro data member
      rw [outbound_append, emits, List.mem_append] at member
      rcases member with earlier | now
      · exact silent data earlier
      · simp [packets] at now

/-- Negotiation neither loses nor repeats input, and a guest that may only read
    never sends any. -/
theorem guest_input_is_conserved (parse : String → Option Description) :
    (∀ history viewer, Run (answers (step parse)) (.new false) history viewer →
      submitted history = legacy history ++ payloads (sequenced history) ++ viewer.queued ∧
      (sequenced history).map Frame.sequence =
        List.range' 1 ((viewer.journals.map fun journals => journals.input.last).getD 0) ∧
      (∀ frame, .packet (.data frame) ∈ outbound history → frame ∈ sequenced history) ∧
      (∀ later next, viewer.journals.isSome = true →
        Run (answers (step parse)) viewer later next →
        next.journals.isSome = true ∧ next.queued = [] ∧
          ∀ data, .gateway (.input data) ∉ outbound later) ∧
      (viewer.queued ≠ [] → viewer.pending.isSome = true) ∧
      (∀ answer message, (viewer.acceptAnswer parse answer).2 = .error message →
        (viewer.acceptAnswer parse answer).1 = viewer) ∧
      (∀ request message, (viewer.unavailable request).2 = .error message →
        (viewer.unavailable request).1 = viewer) ∧
      ∀ bytes, 1 ≤ bytes.length → bytes.length ≤ viewer.inputCapacity →
        ∃ out, (viewer.input bytes).2 = .ok out) ∧
    ∀ history viewer, Run (answers (step parse)) (.new true) history viewer →
      ∀ out ∈ outbound history,
        (∀ data, out ≠ .gateway (.input data)) ∧ ∀ frame, out ≠ .packet (.data frame) := by
  constructor
  · intro history viewer run
    have conserves := Conserves.run run
    refine ⟨conserves.conserved, conserves.numbers, ?_, ?_, ?_, ?_, ?_, ?_⟩
    · intro frame member
      rcases conserves.genuine _ member with ⟨other, listed, same⟩ | ⟨_, _, _, same⟩
      · cases same
        exact listed
      · cases same
    · intro later next exist second
      obtain ⟨kept, silent⟩ := opened_run run exist second
      obtain ⟨journals, found⟩ := Option.isSome_iff_exists.mp kept
      exact ⟨kept, (Conserves.run (run.trans second)).unqueued found, silent⟩
    · exact fun waiting => (conserves.waiting waiting).1
    · intro answer message failed
      have call := acceptAnswer_accepts parse conserves.settled answer
      generalize viewer.acceptAnswer parse answer = result at call failed ⊢
      cases call with
      | refused => rfl
      | reopened | opened => cases failed
    · intro request message failed
      have call := unavailable_withdraws conserves.settled request
      generalize viewer.unavailable request = result at call failed ⊢
      cases call with
      | refused => rfl
      | replayed | released => cases failed
    · exact fun bytes some within => input_within_capacity conserves.settled some within
  · intro history viewer run out member
    rw [(Conserves.run run).mute] at member
    cases member

/-- The JSON object of a description with one application section. -/
def exampleDescription (kind : String) : DirectDescription :=
  ⟨"\x7b\"type\":\"" ++ kind ++ "\",\"sdp\":\"m=application 9\"\x7d"⟩

/-- Reads the descriptions above. -/
def exampleParse (text : String) : Option Description :=
  ["offer", "answer"].findSome? fun kind =>
    if text = (exampleDescription kind).text then some ⟨kind, "m=application 9".toList⟩ else none

def exampleAnswer : DirectAnswer where
  request := 1
  description := exampleDescription "answer"
  inputEpoch := "aaaaaaaaaaaaaaaaaaaaaaaaaaaaaaaa"
  outputEpoch := "bbbbbbbbbbbbbbbbbbbbbbbbbbbbbbbb"

theorem queued_input_is_numbered :
    let run := feed (step exampleParse) (.new false)
      [.input [1], .beginOffer 1 (exampleDescription "offer"), .input [2, 3],
        .acceptAnswer exampleAnswer, .input [4]]
    submitted run.1 = [1, 2, 3, 4] ∧ legacy run.1 = [1] ∧
      payloads (sequenced run.1) = [2, 3, 4] ∧
      submitted run.1 = legacy run.1 ++ payloads (sequenced run.1) ++ run.2.queued := by
  intro run
  have conserved := ((guest_input_is_conserved exampleParse).1 run.1 run.2 (feed_run _ _ _)).1
  exact ⟨by decide, by decide, by decide, conserved⟩

end Viewer

end PortHub.Terminal
