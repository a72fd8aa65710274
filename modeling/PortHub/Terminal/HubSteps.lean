import PortHub.Terminal.Hub

/-! # What the calls of a session do

Most calls only queue events, drop viewers and touch what a viewer is waiting
for. They are all of one kind: the invitations stay, no viewer appears, and no
viewer changes its role.
-/

namespace PortHub.Terminal.Hub

/-- The parts of a session that most calls leave alone. -/
def State.core (state : State) : Bool × Nat × Int × String × String × UInt64 × Nat :=
  (state.invitationsRevoked, state.invitationRevision, state.invitationExpiresAt,
    state.invitationWriteHash, state.invitationReadHash, state.generation, state.nextClient)

/-- The viewer has its role and identity still, and its epochs or none. -/
structure Viewer.Stays (old new : Viewer) : Prop where
  role : new.readOnly = old.readOnly
  epochs : new.directEpochs = old.directEpochs ∨ new.directEpochs = none
  identity : new.identity = old.identity

theorem Viewer.Stays.refl (viewer : Viewer) : viewer.Stays viewer := ⟨rfl, .inl rfl, rfl⟩

theorem Viewer.Stays.trans {a : Viewer} {b c} (first : a.Stays b) (second : b.Stays c) :
    a.Stays c where
  role := second.role.trans first.role
  epochs := by
    rcases second.epochs with same | gone
    · rw [same]
      exact first.epochs
    · exact .inr gone
  identity := second.identity.trans first.identity

/-- The change queues allowed events only, and lets viewers only go. -/
structure Quiet (allowed : Sent → Prop) (before after : State) : Prop where
  core : after.core = before.core
  viewers : ∀ client viewer, after.viewers.get? client = some viewer →
    ∃ old, before.viewers.get? client = some old ∧ old.Stays viewer
  fewer : after.viewers.len ≤ before.viewers.len
  sent : ∃ queued, after.sent = before.sent ++ queued ∧ ∀ event ∈ queued, allowed event

namespace Quiet

variable {allowed : Sent → Prop} {a b c : State}

theorem same (core : b.core = a.core) (viewers : b.viewers = a.viewers) (sent : b.sent = a.sent) :
    Quiet allowed a b where
  core
  viewers client viewer found := ⟨viewer, viewers ▸ found, .refl viewer⟩
  fewer := viewers ▸ Nat.le_refl _
  sent := ⟨[], by rw [sent, List.append_nil], by simp⟩

theorem refl (state : State) : Quiet allowed state state := same rfl rfl rfl

theorem trans (first : Quiet allowed a b) (second : Quiet allowed b c) : Quiet allowed a c where
  core := second.core.trans first.core
  viewers client viewer found := by
    obtain ⟨middle, present, later⟩ := second.viewers client viewer found
    obtain ⟨old, known, earlier⟩ := first.viewers client middle present
    exact ⟨old, known, earlier.trans later⟩
  fewer := second.fewer.trans first.fewer
  sent := by
    obtain ⟨early, whole, fine⟩ := first.sent
    obtain ⟨late, more, good⟩ := second.sent
    refine ⟨early ++ late, by rw [more, whole, List.append_assoc], ?_⟩
    intro event member
    rcases List.mem_append.mp member with inside | inside
    · exact fine event inside
    · exact good event inside

theorem mono {wider : Sent → Prop} (quiet : Quiet allowed a b)
    (more : ∀ event, allowed event → wider event) : Quiet wider a b where
  __ := quiet
  sent := by
    obtain ⟨queued, whole, fine⟩ := quiet.sent
    exact ⟨queued, whole, fun event member => more event (fine event member)⟩

theorem record {events} (fine : ∀ event ∈ events, allowed event) :
    Quiet allowed a (a.record events) where
  core := rfl
  viewers _ viewer found := ⟨viewer, found, .refl viewer⟩
  fewer := Nat.le_refl _
  sent := ⟨events, rfl, fine⟩

theorem setViewer {client old new} (found : a.viewers.get? client = some old)
    (stays : old.Stays new) : Quiet allowed a (a.setViewer client new) where
  core := rfl
  viewers other viewer present := by
    rcases Dict.get?_of_insert present with ⟨rfl, rfl⟩ | ⟨_, kept⟩
    · exact ⟨old, found, stays⟩
    · exact ⟨viewer, kept, .refl viewer⟩
  fewer := Nat.le_of_eq (Dict.len_insert_bound found new)
  sent := ⟨[], by simp [State.setViewer], by simp⟩

/-- A viewer is added before or after a change that leaves the viewers alone. -/
theorem place (quiet : Quiet allowed a b) (same : b.viewers = a.viewers) (client : Nat)
    (viewer : Viewer) : Quiet allowed (a.setViewer client viewer) (b.setViewer client viewer) where
  __ := quiet
  viewers _ other found := ⟨other, by simpa [State.setViewer, same] using found, .refl other⟩
  fewer := by simp only [State.setViewer, same, Nat.le_refl]

theorem erase (client : Nat) : Quiet allowed a { a with viewers := a.viewers.erase client } where
  core := rfl
  viewers other viewer present := ⟨viewer, (Dict.get?_of_erase present).2, .refl viewer⟩
  fewer := Dict.len_erase_le _ _
  sent := ⟨[], by simp, by simp⟩

theorem setHost (host : Option (Channel HostEvent)) : Quiet allowed a { a with host } :=
  same rfl rfl rfl

theorem setActivity (activity : Nat) : Quiet allowed a { a with activity } := same rfl rfl rfl

theorem foldl {β : Type} {step : State → β → State}
    (quiet : ∀ state item, Quiet allowed state (step state item)) (items : List β) (state : State) : Quiet allowed state (items.foldl step state) := by
  induction items generalizing state with
  | nil => exact .refl state
  | cons item rest ih => exact (quiet state item).trans (ih (step state item))

end Quiet

/-- The events that carry nothing from a viewer, and no page of history. -/
def Sent.plain : Sent → Prop
  | .host (.input _ _) => False
  | .host (.delivery _ _) => False
  | .viewer _ (.history _) => False
  | _ => True

/-- The page tells a viewer that the one it waits for is lost with its host. -/
def Lost (state : State) (client : Nat) (page : HistoryChunk) : Prop :=
  ∃ viewer request, state.viewers.get? client = some viewer ∧
    viewer.historyPending = some request ∧
    page = historyFailure request 0 "Host reconnected; refresh this history page."

/-- What a session queues when it takes a new host. -/
def Sent.renews (state : State) : Sent → Prop
  | .viewer client (.history page) => Lost state client page
  | sent => sent.plain

theorem Sent.renews_of_plain {state : State} (sent : Sent) (plain : sent.plain) :
    sent.renews state := by
  cases sent with
  | host event => exact plain
  | viewer client event =>
      cases event with
      | history page => exact plain.elim
      | _ => trivial

theorem Sent.plain_of_renews {state : State} {sent : Sent} (nobody : state.viewers = .empty)
    (renews : sent.renews state) : sent.plain := by
  cases sent with
  | host event => exact renews
  | viewer client event =>
      cases event with
      | history page =>
          obtain ⟨viewer, _, found, _⟩ := renews
          rw [nobody] at found
          cases found
      | _ => trivial

section Calls

variable {allowed : Sent → Prop} (call : Call) (state : State) {event : ViewerEvent}

theorem trySend_stays {viewer : Viewer} {sent} (accepted : viewer.trySend call event = .ok sent) :
    viewer.Stays sent := by
  unfold Viewer.trySend at accepted
  cases queued : viewer.events.trySend call.charge event with
  | error message =>
      rw [queued] at accepted
      cases accepted
  | ok events =>
      rw [queued] at accepted
      cases accepted
      exact ⟨rfl, .inl rfl, rfl⟩

theorem tryHost_quiet {event} (missing : String) (fine : allowed (.host event)) :
    Quiet allowed state (state.tryHost event missing).1 := by
  unfold State.tryHost
  split
  · exact .refl state
  · split
    · exact .refl state
    · exact (Quiet.setHost _).trans (.record (by simpa using fine))

theorem tryHost_viewers (event : HostEvent) (missing : String) :
    (state.tryHost event missing).1.viewers = state.viewers := by
  unfold State.tryHost
  split
  · rfl
  · split
    · rfl
    · rfl

theorem notifyHost_quiet (event : HostEvent) (fine : allowed (.host event)) :
    Quiet allowed state (state.notifyHost event) := tryHost_quiet state "" fine

theorem notifyViewer_quiet (client : Nat) (fine : allowed (.viewer client event)) :
    Quiet allowed state (state.notifyViewer call event client) := by
  unfold State.notifyViewer
  split
  · exact .refl state
  · rename_i viewer found
    split
    · exact .refl state
    · rename_i accepted
      exact (Quiet.setViewer found (trySend_stays call accepted)).trans (.record (by simpa using fine))

theorem farewell_quiet (event : ViewerEvent) (entry : Nat × Viewer)
    (fine : allowed (.viewer entry.1 event)) : Quiet allowed state (state.farewell call event entry) := by
  unfold State.farewell
  split
  · exact .refl state
  · exact .record (by simpa using fine)

theorem presence_quiet : Quiet Sent.plain state (state.presence call) := by
  refine (notifyHost_quiet state _ trivial).trans (Quiet.foldl ?_ _ _)
  intro state client
  exact notifyViewer_quiet call state client trivial

theorem drop_quiet (client : Nat) : Quiet Sent.plain state (state.drop call client) :=
  ((Quiet.erase client).trans (notifyHost_quiet _ (.detach client) trivial)).trans (presence_quiet call _)

theorem removeParticipant_quiet (identity : Nat) :
    Quiet Sent.plain state (state.removeParticipant call identity) := by
  unfold State.removeParticipant
  split
  · exact .refl state
  · rename_i entry _
    have taken : Quiet Sent.plain state { state with viewers := state.viewers.erase entry.1 } :=
      .erase entry.1
    have told := taken.trans
      (farewell_quiet call _ (.closed "removed by the host" false) entry trivial)
    exact (told.trans (notifyHost_quiet _ (.detach entry.1) trivial)).trans (presence_quiet call _)

theorem forward_quiet {client old viewer} (found : state.viewers.get? client = some old)
    (stays : old.Stays viewer) (plain : ∀ event, Sent.plain event → allowed event)
    (fine : allowed (.viewer client event)) :
    Quiet allowed state (state.forward call client viewer event) := by
  unfold State.forward
  have placed : Quiet allowed state (state.setViewer client viewer) := .setViewer found stays
  split
  · exact placed.trans ((drop_quiet call _ client).mono plain)
  · rename_i accepted
    have sent : Quiet allowed state (state.setViewer client _) :=
      .setViewer found (stays.trans (trySend_stays call accepted))
    exact sent.trans (.record (by simpa using fine))

theorem directReply_quiet (client : Nat) (request : UInt32) (event : ViewerEvent)
    (fine : Sent.plain (.viewer client event)) :
    Quiet Sent.plain state (state.directReply call client request event) := by
  unfold State.directReply
  split
  · exact .refl state
  · rename_i viewer found
    split
    · exact forward_quiet call state found ⟨rfl, .inl rfl, rfl⟩ (fun _ => id) fine
    · exact .refl state

theorem relay_quiet (client : Nat) (packet : List Char) :
    Quiet Sent.plain state (state.relay call client packet).1 := by
  have sent {viewer : Viewer} (found : state.viewers.get? client = some viewer) :
      Quiet Sent.plain state (state.forward call client viewer (.delivery packet)) :=
    forward_quiet call state found (.refl viewer) (fun _ => id) trivial
  unfold State.relay
  split
  · exact .refl state
  · rename_i viewer found
    split
    · exact .refl state
    · split
      · exact .refl state
      · split
        · exact sent found
        · exact .refl state
      · split
        · exact sent found
        · exact .refl state

theorem outputData_quiet (client : Nat) (data : List Char) :
    Quiet Sent.plain state (state.outputData call client data).1 := by
  unfold State.outputData
  split
  · exact .refl state
  · split
    · exact .refl state
    · rename_i viewer found
      exact forward_quiet call state found (.refl viewer) (fun _ => id) trivial

theorem detach_quiet (client : Nat) : Quiet Sent.plain state (state.detach call client) := by
  unfold State.detach
  split
  · exact drop_quiet call state client
  · exact .refl state

theorem offline_quiet (generation : UInt64) :
    Quiet Sent.plain state (state.offline call generation) := by
  unfold State.offline
  split
  · exact .same rfl rfl rfl
  · exact .refl state

theorem viewerTakes_quiet (client : Nat) : Quiet Sent.plain state (state.viewerTakes client) := by
  unfold State.viewerTakes
  split
  · exact .refl state
  · rename_i viewer found
    exact .setViewer found ⟨rfl, .inl rfl, rfl⟩

end Calls

section Messages

/-- The message fits the epochs of the viewer, and data its role. -/
def Carried (viewer : Viewer) (epochs : String × String) : Delivery.Message → Prop
  | .data frame => viewer.readOnly = false ∧ frame.epoch = epochs.1
  | .ack epoch _ => epoch = epochs.2

/-- The snapshot of a page fits the anchor of the request. -/
def Fits : Option (Option String) → Option String → Prop
  | none, snapshot => snapshot = none
  | some none, snapshot => snapshot.isSome = true
  | some (some id), snapshot => snapshot = some id

/-- Why a call on a session sends a page of history to a client: its host sent
    the page, and the client waits for it, or the client is turned away. -/
inductive Paged (state : State) (client : Nat) (page : HistoryChunk) : SessionOp → Prop where
  | forwarded {viewer : Viewer} (found : state.viewers.get? client = some viewer)
      (pending : viewer.historyPending = some page.request)
      (fits : page.error = none → Fits viewer.historyAnchor page.snapshot) :
      Paged state client page (.output state.generation (.history client page))
  | refused {freeze : Bool} {snapshot : Option String} {request : UInt32} {pane : String}
      {before : UInt32} {lines : UInt16} {error : String}
      (made : page = historyFailure request before error) :
      Paged state client page (.input client (.history freeze snapshot request pane before lines))

/-- What a queued event shows about the session and the call. -/
def Justified (state : State) (op : SessionOp) : Sent → Prop
  | .host (.input client _) =>
      ∃ viewer, state.viewers.get? client = some viewer ∧ viewer.readOnly = false
  | .host (.delivery client packet) =>
      ∃ viewer epochs message, state.viewers.get? client = some viewer ∧
        viewer.directEpochs = some epochs ∧ Delivery.decodePacket packet = .ok message ∧
          Carried viewer epochs message
  | .viewer client (.history page) => Paged state client page op
  | _ => True

variable {parse : String → Option Description} {call : Call} {state : State} {op : SessionOp}
  {result : State × Result Unit}

theorem justified_of_plain (event : Sent) (plain : event.plain) :
    Justified state op event := by
  cases event with
  | host event =>
      cases event with
      | input | delivery => exact plain.elim
      | _ => trivial
  | viewer client event =>
      cases event with
      | history page => exact plain.elim
      | _ => trivial

/-- What the message of a viewer comes to. -/
inductive Accepts (state : State) (client : Nat) (viewer : Viewer) (message : ViewerInput) :
    Verdict → Prop where
  | refused (reason : String) : Accepts state client viewer message (.refused reason)
  | answered {next : Viewer} {event : Option ViewerEvent} (stays : viewer.Stays next)
      (fine : ∀ told ∈ event, Justified state (.input client message) (.viewer client told)) :
      Accepts state client viewer message (.answered next event)
  | plain {next : Viewer} {event : HostEvent} {publish : Bool} (stays : viewer.Stays next)
      (plain : Sent.plain (.host event)) : Accepts state client viewer message (.routed next event publish)
  | input {next : Viewer} {data : List Char} {publish : Bool} (stays : viewer.Stays next)
      (writable : viewer.readOnly = false) :
      Accepts state client viewer message (.routed next (.input client data) publish)
  | delivery {next : Viewer} {packet : List Char} {publish : Bool} {epochs : String × String}
      {carriage : Delivery.Message} (stays : viewer.Stays next)
      (negotiated : viewer.directEpochs = some epochs)
      (decoded : Delivery.decodePacket packet = .ok carriage) (carried : Carried viewer epochs carriage) :
      Accepts state client viewer message (.routed next (.delivery client packet) publish)

theorem reply_accepts {message} (client : Nat) (viewer : Viewer) {event}
    (fine : Justified state (.input client message) (.viewer client event)) :
    Accepts state client viewer message (viewer.reply call event) := by
  unfold Viewer.reply
  split
  · exact .refused _
  · rename_i accepted
    exact .answered (trySend_stays call accepted) (by simpa using fine)

theorem delivery_accepts (client : Nat) (transport : Bool) (viewer : Viewer) (packet : List Char) :
    Accepts state client viewer (.delivery packet)
      (viewer.delivery call client transport packet) := by
  unfold Viewer.delivery
  split
  · split
    · exact .refused _
    · rename_i inputEpoch outputEpoch negotiated
      split
      · exact .refused _
      · rename_i frame decoded
        split
        · exact .refused _
        · rename_i writable
          split
          · rename_i same
            exact .delivery ⟨rfl, .inl rfl, rfl⟩ negotiated decoded ⟨Bool.eq_false_iff.mpr writable, same⟩
          · exact .refused _
      · rename_i epoch sequence decoded
        split
        · rename_i same
          exact .delivery (.refl viewer) negotiated decoded same
        · exact .refused _
  · exact .refused _

theorem directOffer_accepts (client : Nat) (transport : Bool) (viewer : Viewer) (request : UInt32)
    (description : DirectDescription) :
    Accepts state client viewer (.directOffer request description)
      (viewer.directOffer parse call client transport request description) := by
  unfold Viewer.directOffer
  split
  · split
    · exact .refused _
    · split
      · split
        · exact .plain ⟨rfl, .inl rfl, rfl⟩ trivial
        · exact .refused _
      · exact .refused _
  · exact reply_accepts client viewer trivial

theorem history_accepts (client : Nat) (snapshots : Bool) (viewer : Viewer) (freeze : Bool)
    (snapshot : Option String) (request : UInt32) (pane : String) (before : UInt32)
    (lines : UInt16) :
    Accepts state client viewer (.history freeze snapshot request pane before lines)
      (viewer.history call client snapshots freeze snapshot request pane before lines) := by
  unfold Viewer.history
  split
  · exact .refused _
  · split
    · split
      · exact reply_accepts client viewer (.refused rfl)
      · split
        · exact reply_accepts client viewer (.refused rfl)
        · exact .plain ⟨rfl, .inl rfl, rfl⟩ trivial
    · exact .refused _

theorem input_accepts (client : Nat) (viewer : Viewer) (data : List Char) :
    Accepts state client viewer (.input data) (viewer.input call client data) := by
  unfold Viewer.input
  split
  · exact .refused _
  · rename_i writable
    split
    · exact .refused _
    · exact .input ⟨rfl, .inl rfl, rfl⟩ (Bool.eq_false_iff.mpr writable)

theorem accept_accepts (client : Nat) (transport snapshots : Bool) (viewer : Viewer)
    (message : ViewerInput) :
    Accepts state client viewer message
      (viewer.accept parse call client transport snapshots message) := by
  cases message with
  | delivery packet => exact delivery_accepts client transport viewer packet
  | directOffer request description =>
      exact directOffer_accepts client transport viewer request description
  | redraw =>
      simp only [Viewer.accept, Viewer.redraw]
      split
      · exact .answered (.refl viewer) (by simp)
      · exact .plain ⟨rfl, .inl rfl, rfl⟩ trivial
  | history freeze snapshot request pane before lines =>
      exact history_accepts client snapshots viewer freeze snapshot request pane before lines
  | input data => exact input_accepts client viewer data
  | resize cols rows =>
      simp only [Viewer.accept, Viewer.resize]
      split
      · exact .refused _
      · exact .plain ⟨rfl, .inl rfl, rfl⟩ trivial
  | pong => exact .answered (.refl viewer) (by simp)

theorem route_quiet {client viewer next event publish}
    (found : state.viewers.get? client = some viewer) (stays : viewer.Stays next)
    (fine : Justified state op (.host event)) :
    Quiet (Justified state op) state (state.route call client next event publish).1 := by
  have placed : Quiet (Justified state op) state (state.setViewer client next) :=
    .setViewer found stays
  have queued := (placed.trans (.setActivity (call.instant 3))).trans
    (tryHost_quiet _ "terminal host is reconnecting" fine)
  unfold State.route
  dsimp only
  split
  · exact queued
  · split
    · exact queued.trans ((presence_quiet call _).mono justified_of_plain)
    · exact queued

theorem input_quiet (client : Nat) (message : ViewerInput) :
    Quiet (Justified state (.input client message)) state
      (state.input parse call client message).1 := by
  unfold State.input
  split
  · exact .refl state
  · rename_i viewer found
    have verdict : Accepts state client viewer message (viewer.accept parse call client
        state.directTransport state.historySnapshots message) := accept_accepts _ _ _ viewer message
    generalize viewer.accept parse call client state.directTransport state.historySnapshots message =
      result at verdict
    have routed {next : Viewer} {event : HostEvent} {publish : Bool} (stays : viewer.Stays next)
        (fine : Justified state (.input client message) (.host event)) :
        Quiet (Justified state (.input client message)) state
          (state.route call client next event publish).1 :=
      route_quiet found stays fine
    cases verdict with
    | refused reason => exact .refl state
    | answered stays fine =>
        refine (Quiet.setViewer found stays).trans (.record ?_)
        intro event member
        obtain ⟨told, inside, rfl⟩ := List.mem_map.mp member
        exact fine told (Option.mem_toList.mp inside)
    | plain stays plain => exact routed stays (justified_of_plain _ plain)
    | input stays writable => exact routed stays ⟨viewer, found, writable⟩
    | delivery stays negotiated decoded carried =>
        exact routed stays ⟨viewer, _, _, found, negotiated, decoded, carried⟩

theorem fits_of_anchored {anchor next page} (kept : State.anchored anchor page = .ok next)
    (page_ok : page.error = none) :
    Fits anchor page.snapshot := by
  unfold State.anchored at kept
  rw [if_neg (by simp [page_ok])] at kept
  cases anchor with
  | none =>
      dsimp only at kept
      split at kept
      · rename_i missing
        exact Option.isNone_iff_eq_none.mp missing
      · cases kept
  | some anchor =>
      dsimp only at kept
      split at kept
      · rename_i present
        split at kept
        · rename_i same
          cases anchor with
          | none => exact present
          | some id => simpa [Fits] using same
        · cases kept
      · cases kept

theorem page_quiet (client : Nat) (page : HistoryChunk) :
    Quiet (Justified state (.output state.generation (.history client page))) state
      (state.page call client page).1 := by
  unfold State.page
  split
  · exact .refl state
  · split
    · exact .refl state
    · rename_i viewer found
      split
      · rename_i pending
        split
        · exact .refl state
        · rename_i kept
          exact forward_quiet call state found ⟨rfl, .inl rfl, rfl⟩ justified_of_plain
            (.forwarded found pending (fits_of_anchored kept))
      · exact .refl state

/-- What a call changes besides what every call may do. -/
inductive Shifts (state : State) : SessionOp → State → Result Unit → Prop where
  | calm {op : SessionOp} {result : Result Unit} : Shifts state op state result
  | revoked : Shifts state .revoke { state with invitationsRevoked := true } (.ok ())
  | negotiated {client : Nat} {viewer : Viewer} {answer : DirectAnswer}
      (found : state.viewers.get? client = some viewer)
      (pending : viewer.directPending = some answer.request) :
      Shifts state (.output state.generation (.directAnswer client answer))
        (state.setViewer client
          { viewer with directEpochs := some (answer.inputEpoch, answer.outputEpoch) })
        (.ok ())

/-- The call changes one thing and is quiet otherwise. -/
def Performs (state : State) (op : SessionOp) (result : State × Result Unit) : Prop :=
  ∃ middle, Shifts state op middle result.2 ∧ Quiet (Justified state op) middle result.1

theorem Performs.quiet (quiet : Quiet (Justified state op) state result.1) :
    Performs state op result :=
  ⟨state, .calm, quiet⟩

theorem Performs.plain (quiet : Quiet Sent.plain state result.1) : Performs state op result :=
  .quiet (quiet.mono justified_of_plain)

theorem answer_performs (client : Nat) (answer : DirectAnswer) :
    Performs state (.output state.generation (.directAnswer client answer))
      (state.answer parse call client answer) := by
  unfold State.answer
  split
  · exact .quiet (.refl state)
  · rename_i viewer found
    split
    · rename_i pending
      split
      · split
        · exact .quiet (.refl state)
        · exact ⟨_, .negotiated found pending,
            (directReply_quiet call _ client answer.request (.directAnswer answer) trivial).mono justified_of_plain⟩
      · exact .quiet (.refl state)
    · exact .quiet (.refl state)

theorem output_performs (stopped : Bool) (generation : UInt64) (message : HostOutput) :
    Performs state (.output generation message)
      (state.output parse call stopped generation message) := by
  unfold State.output
  split
  · rename_i current
    obtain ⟨rfl, _⟩ := current
    cases message with
    | delivery client packet => exact .plain (relay_quiet call state client packet)
    | directAnswer client answer => exact answer_performs client answer
    | directUnavailable client request =>
        exact .plain (directReply_quiet call state client request _ trivial)
    | rotateInvitations | revokeInvitations | pong | end' => exact .plain (.refl state)
    | history client page => exact .quiet (page_quiet client page)
    | kick client => exact .plain (removeParticipant_quiet call state client)
    | output client data => exact .plain (outputData_quiet call state client data)
    | closed client => exact .plain ((Quiet.erase client).trans (presence_quiet call _))
    | activity => exact .plain (.same rfl rfl rfl)
  · exact .plain (.refl state)

/-- Everything a call on a session can do. -/
theorem perform_performs (parse : String → Option Description) (call : Call) (shared : Shared) (op : SessionOp) :
    Performs shared.state op (shared.perform parse call op) := by
  cases op with
  | revoke =>
      exact ⟨_, .revoked, (notifyHost_quiet _ .invitationsRevoked trivial).mono justified_of_plain⟩
  | kick identity =>
      simp only [Shared.perform]
      split
      · exact .plain (.refl _)
      · exact .plain (removeParticipant_quiet call _ identity)
  | offline generation => exact .plain (offline_quiet call _ generation)
  | input client message =>
      simp only [Shared.perform]
      split
      · exact .plain (.refl _)
      · exact .quiet (input_quiet client message)
  | output generation message => exact output_performs shared.stop generation message
  | detach client => exact .plain (detach_quiet call _ client)
  | hostTakes | hostGone => exact .plain (.same rfl rfl rfl)
  | viewerTakes client => exact .plain (viewerTakes_quiet _ client)

end Messages

section Hosts

variable {call : Call} {state : State} {entries : List (Nat × Viewer)} {allowed : Sent → Prop}

theorem tell_keeps {viewer : Viewer} {client : Nat} {events : List ViewerEvent}
    (plain : ∀ event ∈ events, allowed (.viewer client event))
    {told : Viewer × List ViewerEvent} (stays : viewer.Stays told.1)
    (cleared : told.1.directEpochs = none)
    (fine : ∀ event ∈ told.2, allowed (.viewer client event)) :
    let after := events.foldl (Viewer.reconnected.tell call) told
    viewer.Stays after.1 ∧ after.1.directEpochs = none ∧
      ∀ event ∈ after.2, allowed (.viewer client event) := by
  induction events generalizing told with
  | nil => exact ⟨stays, cleared, fine⟩
  | cons event rest ih =>
      simp only [List.mem_cons, forall_eq_or_imp] at plain
      refine ih plain.2 ?_ ?_ ?_
      all_goals
        unfold Viewer.reconnected.tell
        split
      · exact stays
      · rename_i accepted
        exact stays.trans (trySend_stays call accepted)
      · exact cleared
      · rename_i accepted
        rcases (trySend_stays call accepted).epochs with same | gone
        · exact same.trans cleared
        · exact gone
      · exact fine
      · intro other member
        rcases List.mem_append.mp member with inside | inside
        · exact fine other inside
        · rw [List.mem_singleton.mp inside]
          exact plain.1

theorem reconnected_keeps (call : Call) (client : Nat) (viewer : Viewer) :
    viewer.Stays (viewer.reconnected call).1 ∧ (viewer.reconnected call).1.directEpochs = none ∧
      ∀ event ∈ (viewer.reconnected call).2, ∀ state : State,
        state.viewers.get? client = some viewer → Sent.renews state (.viewer client event) := by
  let renews (sent : Sent) : Prop :=
    ∀ state : State, state.viewers.get? client = some viewer → sent.renews state
  refine @tell_keeps call renews viewer client _ ?_ _ ⟨rfl, .inr rfl, rfl⟩ rfl (by simp)
  intro event member
  simp only [List.mem_append, Option.mem_toList, Option.map_eq_some_iff] at member
  rcases member with ⟨_, _, rfl⟩ | ⟨request, pending, rfl⟩
  · exact fun _ _ => trivial
  · exact fun _ known => ⟨viewer, request, known, pending, rfl⟩

theorem reattach_quiet (call : Call) {base : State} (distinct : (entries.map Prod.fst).Nodup)
    (known : ∀ entry ∈ entries, base.viewers.get? entry.1 = some entry.2)
    (present : ∀ entry ∈ entries, state.viewers.get? entry.1 = some entry.2)
    (send : Channel HostEvent) :
    Quiet (Sent.renews base) state (State.reattach call entries state send).1 := by
  induction entries generalizing state send with
  | nil => exact .refl state
  | cons entry rest ih =>
      obtain ⟨client, viewer⟩ := entry
      obtain ⟨absent, restDistinct⟩ := List.nodup_cons.mp distinct
      have found := present _ List.mem_cons_self
      obtain ⟨stays, _, renews⟩ := reconnected_keeps call client viewer
      have placed : Quiet (Sent.renews base) state
          (state.setViewer client (viewer.reconnected call).1) :=
        .setViewer found stays
      have fine : ∀ event ∈ (viewer.reconnected call).2.map (Sent.viewer client),
          event.renews base := by
        intro event member
        obtain ⟨told, inside, rfl⟩ := List.mem_map.mp member
        exact renews told inside base (known _ List.mem_cons_self)
      have told := placed.trans (Quiet.record fine)
      unfold State.reattach
      dsimp only
      split
      · exact told
      · refine (told.trans (.record (by simp [Sent.renews, Sent.plain]))).trans
          (ih restDistinct (fun other inside => known other (List.mem_cons_of_mem _ inside)) ?_ _)
        intro other inside
        have apart : other.1 ≠ client := by
          intro same
          exact absent (List.mem_map.mpr ⟨other, inside, same⟩)
        simpa [State.record, State.setViewer, apart] using present other (List.mem_cons_of_mem _ inside)

theorem trySend_ok {α : Type} {channel : Channel α} (item : α) (live : channel.closed = false)
    (room : channel.queue.length < channel.capacity) :
    channel.trySend item = .ok { channel with queue := channel.queue ++ [item] } := by
  rw [Channel.trySend, if_neg (by simp [live]), if_pos room]

/-- A new queue has room for as many viewers as a session may have. -/
theorem reattach_ok (call : Call) (entries : List (Nat × Viewer)) (state : State) (send : Channel HostEvent)
    (live : send.closed = false) (room : send.queue.length + entries.length ≤ send.capacity) :
    ∃ filled : Channel HostEvent, (State.reattach call entries state send).2 = .ok filled ∧
      filled.closed = false ∧ filled.capacity = send.capacity ∧
        filled.queue.length = send.queue.length + entries.length := by
  induction entries generalizing state send with
  | nil => exact ⟨send, rfl, live, rfl, rfl⟩
  | cons entry rest ih =>
      obtain ⟨client, viewer⟩ := entry
      rw [List.length_cons] at room
      unfold State.reattach
      dsimp only
      generalize HostEvent.attach client _ _ _ _ = event
      rw [trySend_ok event live (by omega)]
      have grown : (send.queue ++ [event]).length + rest.length ≤ send.capacity := by
        rw [List.length_append, List.length_singleton]
        omega
      obtain ⟨filled, done, stillLive, sized, counted⟩ :=
        ih _ ⟨send.queue ++ [event], send.capacity, send.closed⟩ live grown
      refine ⟨filled, done, stillLive, sized, ?_⟩
      rw [counted, List.length_append, List.length_singleton, List.length_cons]
      omega

theorem reattach_cleared {send filled}
    (done : (State.reattach call entries state send).2 = .ok filled) {client viewer}
    (found : (State.reattach call entries state send).1.viewers.get? client = some viewer) :
    viewer.directEpochs = none ∨
      client ∉ entries.map Prod.fst ∧ state.viewers.get? client = some viewer := by
  induction entries generalizing state send with
  | nil => exact .inr ⟨by simp, found⟩
  | cons entry rest ih =>
      obtain ⟨first, old⟩ := entry
      unfold State.reattach at done found
      dsimp only at done found
      split at done
      · cases done
      · rename_i accepted
        rw [accepted] at found
        rcases ih done found with cleared | ⟨outside, kept⟩
        · exact .inl cleared
        · rcases Dict.get?_of_insert kept with ⟨rfl, rfl⟩ | ⟨apart, older⟩
          · exact .inl (reconnected_keeps call client old).2.1
          · exact .inr ⟨by simp [apart, outside], older⟩

/-- The session as a new host finds it. -/
def State.renewed (state : State) (revoked : Bool) : State :=
  { state with
    invitationsRevoked := state.invitationsRevoked || revoked
    generation := state.generation + 1 }

theorem replaceHost_quiet (state : State) : Quiet Sent.plain state state.replaceHost := by
  have told : Quiet Sent.plain state (state.notifyHost (.reconnect "host connection replaced")) :=
    notifyHost_quiet state _ trivial
  exact told.trans (.same rfl rfl rfl)

theorem renew_viewers (hello : HostHello) (revoked : Bool) :
    (state.renew hello revoked).viewers = state.viewers :=
  tryHost_viewers _ (.reconnect "host connection replaced") ""

theorem renew_quiet (hello : HostHello) (revoked : Bool) :
    Quiet Sent.plain (state.renewed revoked) (state.renew hello revoked) := by
  obtain ⟨core, viewers, fewer, sent⟩ := replaceHost_quiet { state with
    directTransport := hello.directTransport
    historySnapshots := hello.historySnapshots
    invitationsRevoked := state.invitationsRevoked || revoked }
  simp only [State.core, Prod.mk.injEq] at core
  obtain ⟨flag, revision, expiry, write, read, generation, client⟩ := core
  refine ⟨?_, viewers, fewer, sent⟩
  simp only [State.core, State.renew, State.renewed, flag, revision, expiry, write, read, generation,
    client]

/-- A session takes a new host, and its viewers negotiate anew. -/
theorem connect_connects (call : Call) (hello : HostHello) (revoked : Bool) (bounded : state.viewers.len ≤ 32) :
    Quiet (Sent.renews state) (state.renewed revoked) (state.connect call hello revoked).1 ∧
      (state.connect call hello revoked).2 = .ok (state.generation + 1) ∧
      ∀ client viewer, (state.connect call hello revoked).1.viewers.get? client = some viewer →
        viewer.directEpochs = none := by
  have renewed : Quiet (Sent.renews state) (state.renewed revoked) (state.renew hello revoked) :=
    (renew_quiet hello revoked).mono Sent.renews_of_plain
  have few : (state.renew hello revoked).viewers.entries.length ≤ 32 := renewed.fewer.trans bounded
  obtain ⟨filled, done, live, sized, counted⟩ := reattach_ok call
    (state.renew hello revoked).viewers.entries (state.renew hello revoked) ⟨[], 128, false⟩ rfl
      (by simp only [List.length_nil]; omega)
  have present : ∀ entry ∈ (state.renew hello revoked).viewers.entries,
      (state.renew hello revoked).viewers.get? entry.1 = some entry.2 :=
    fun entry member => Dict.get?_eq_some_iff.mpr member
  have known : ∀ entry ∈ (state.renew hello revoked).viewers.entries,
      state.viewers.get? entry.1 = some entry.2 := by
    intro entry member
    rw [← renew_viewers hello revoked]
    exact present entry member
  have attached := reattach_quiet call (state.renew hello revoked).viewers.distinct known present
    ⟨[], 128, false⟩
  have cleared : ∀ client viewer, (State.reattach call (state.renew hello revoked).viewers.entries
      (state.renew hello revoked) ⟨[], 128, false⟩).1.viewers.get? client = some viewer →
        viewer.directEpochs = none := by
    intro client viewer found
    rcases reattach_cleared done found with gone | ⟨outside, present⟩
    · exact gone
    · exact absurd (List.mem_map_of_mem (Dict.get?_eq_some_iff.mp present)) outside
  unfold State.connect
  dsimp only
  generalize State.reattach call (state.renew hello revoked).viewers.entries
    (state.renew hello revoked) ⟨[], 128, false⟩ = result at done attached cleared ⊢
  obtain ⟨after, outcome⟩ := result
  obtain rfl : outcome = .ok filled := done
  have joined := renewed.trans attached
  have generation : after.generation = state.generation + 1 := by
    have core := joined.core
    simp only [State.core, Prod.mk.injEq] at core
    exact core.2.2.2.2.2.1
  dsimp only
  -- every viewer that is still there after the presence events was there before
  have finish {ready : State} (quiet : Quiet (Sent.renews state) after ready)
      (same : ready.generation = after.generation) :
      Quiet (Sent.renews state) (state.renewed revoked) (ready.presence call) ∧
        (.ok ready.generation : Result UInt64) = .ok (state.generation + 1) ∧
        ∀ client viewer, (ready.presence call).viewers.get? client = some viewer →
          viewer.directEpochs = none := by
    have final := quiet.trans ((presence_quiet call ready).mono Sent.renews_of_plain)
    refine ⟨joined.trans final, by rw [same, generation], ?_⟩
    intro client viewer found
    obtain ⟨old, present, stays⟩ := final.viewers client viewer found
    rcases stays.epochs with kept | gone
    · exact kept.trans (cleared client old present)
    · exact gone
  split
  · rw [trySend_ok _ live (by simp only [sized, counted, List.length_nil]; omega)]
    exact finish ((Quiet.setHost _).trans (.record (by simp [Sent.renews, Sent.plain]))) rfl
  · exact finish (.setHost _) rfl

end Hosts

section Viewers

variable {call : Call} {state : State}

theorem replace_quiet (identity : Option Nat) :
    Quiet Sent.plain state (state.replace call identity).1 := by
  cases identity with
  | none => exact .refl state
  | some identity =>
      simp only [State.replace]
      split
      · split
        · split
          · exact .refl state
          · rename_i entry _
            have taken : Quiet Sent.plain state
                { state with viewers := state.viewers.erase entry.1 } := .erase entry.1
            have told := taken.trans (farewell_quiet call _
              (.closed "participant reconnected elsewhere" false) entry trivial)
            exact told.trans (tryHost_quiet _ "" trivial)
        · exact .refl state
      · exact .refl state

/-- Everything `join` can do. A number is used up even when its viewer is
    turned away afterwards. -/
inductive Joins (identity : Option Nat) (readOnly : Bool) (state : State) :
    State × Result Nat → Prop where
  | refused {message : String} : Joins identity readOnly state (state, .error message)
  | numbered {after : State} {message : String}
      (quiet : Quiet Sent.plain { state with nextClient := state.nextClient + 1 } after) :
      Joins identity readOnly state (after, .error message)
  | joined {after : State} {viewer : Viewer} (room : state.viewers.len < 32)
      (role : viewer.readOnly = readOnly) (epochs : viewer.directEpochs = none)
      (named : viewer.identity = identity.getD state.nextClient)
      (quiet : Quiet Sent.plain
        ({ state with nextClient := state.nextClient + 1 }.setViewer state.nextClient viewer) after) :
      Joins identity readOnly state (after, .ok state.nextClient)

theorem join_joins (call : Call) (state : State) (options : Options) (identity : Option Nat)
    (readOnly : Bool) (screen : Screen) :
    Joins identity readOnly state (state.join call options identity readOnly screen) := by
  unfold State.join
  split
  · rename_i room
    dsimp only
    split
    · let numbered : State := { state with nextClient := state.nextClient + 1 }
      have queued : Quiet Sent.plain numbered (numbered.tryHost (.attach state.nextClient readOnly
          screen.cols screen.rows screen.term) "terminal host unavailable").1 :=
        tryHost_quiet numbered _ trivial
      have same := tryHost_viewers numbered (.attach state.nextClient readOnly screen.cols screen.rows
        screen.term) "terminal host unavailable"
      generalize numbered.tryHost (.attach state.nextClient readOnly screen.cols screen.rows
        screen.term) "terminal host unavailable" = told at queued same ⊢
      obtain ⟨ready, outcome⟩ := told
      cases outcome with
      | error message => exact .numbered queued
      | ok =>
          dsimp only
          split
          · exact .numbered queued
          · rename_i events _
            let viewer := State.newViewer call (identity.getD state.nextClient) readOnly screen events
            have placed := queued.place same state.nextClient viewer
            have fine : ∀ event ∈ [Sent.viewer state.nextClient (ready.welcome options.name readOnly)],
                event.plain := by
              intro event member
              rw [List.mem_singleton.mp member]
              trivial
            have welcomed := placed.trans (.record fine)
            have timed := welcomed.trans (.setActivity (call.instant 0))
            exact .joined (Nat.lt_of_lt_of_le room (Nat.min_le_right _ _)) rfl rfl rfl
              (timed.trans (presence_quiet call _))
    · exact .refused
  · exact .refused

theorem close_quiet (shared : Shared) (reason : String) (revoked : Bool) :
    Quiet Sent.plain shared.state (shared.close call reason revoked).state := by
  unfold Shared.close
  dsimp only
  have told : Quiet Sent.plain shared.state
      (shared.state.notifyHost (if revoked then HostEvent.stop reason else .reconnect reason)) := by
    refine notifyHost_quiet _ _ ?_
    cases revoked
    · trivial
    · trivial
  generalize shared.state.notifyHost _ = parted at told ⊢
  have cut : Quiet Sent.plain parted { parted with
      closeEvent := some (if revoked then HostEvent.stop reason else .reconnect reason)
      host := none } := .same rfl rfl rfl
  have closed := (told.trans cut).trans (Quiet.foldl
    (fun state entry => farewell_quiet call state (.closed reason !revoked) entry trivial)
    parted.viewers.entries _)
  refine closed.trans ⟨rfl, ?_, Nat.zero_le _, [], by simp, by simp⟩
  intro client viewer found
  cases found

end Viewers

end PortHub.Terminal.Hub
