import PortHub.Terminal.Delivery
import Mathlib.Data.List.Sort

/-! # Routing between hosts and viewers

The hub keeps the sessions it routes and a table of invitation digests. A
session outlives its removal for as long as a connection holds it, so sessions
are numbered and the hub refers to them by number. Everything a session queues
for its host or for a viewer is also recorded, in order.
-/

namespace PortHub.Terminal.Hub

/-- `Duration::from_millis`, in nanoseconds. -/
def millis (n : Nat) : Nat := n * 1000000

/-- A bounded channel. It is closed once its receiver is gone. -/
structure Channel (α : Type) where
  queue : List α
  capacity : Nat
  closed : Bool

def Channel.trySend {α : Type} (channel : Channel α) (item : α) : Result (Channel α) :=
  if channel.closed then .error "channel closed"
  else if channel.queue.length < channel.capacity then
    .ok { channel with queue := channel.queue ++ [item] }
  else .error "no available capacity"

def messages : Nat := Delivery.maxFrames * 2 + 64

def quotaBytes : Nat := 1024 * 1024

structure Queued where
  event : ViewerEvent
  permit : Nat

/-- The sender of a viewer's queue, which is also bounded in bytes. -/
structure Sender where
  inner : Channel Queued
  quota : Nat

def Sender.new : Sender := ⟨⟨[], messages, false⟩, quotaBytes⟩

def Sender.trySend (sender : Sender) (charge : ViewerEvent → Nat) (event : ViewerEvent) :
    Result Sender :=
  if sender.inner.closed then .error "channel closed"
  else
    let amount := min (charge event) (2 ^ 32 - 1)
    if sender.quota < amount then .error "no available capacity"
    else
      match sender.inner.trySend ⟨event, amount⟩ with
      | .error message => .error message
      | .ok inner => .ok ⟨inner, sender.quota - amount⟩

/-- The receiver takes the oldest event and releases its bytes. -/
def Sender.recv (sender : Sender) : Sender :=
  match sender.inner.queue with
  | [] => sender
  | first :: rest => ⟨{ sender.inner with queue := rest }, sender.quota + first.permit⟩

/-- What one call reads besides its arguments: the clocks, reading by reading,
    the memory that an event takes beyond its contents (the spare capacity of its
    buffers and its place in the queue), the participant id that was drawn, and
    the choice among several entries of a hash map. -/
structure Call where
  now : Nat → Int
  instant : Nat → Nat
  spare : ViewerEvent → Nat
  participantId : Nat
  choice : Nat

/-- The bytes of the texts and lists that an event holds. A participant takes
    four words. -/
def heap : ViewerEvent → Nat
  | .delivery packet => Text.byteLen packet
  | .directAnswer answer =>
      answer.description.text.utf8ByteSize + answer.inputEpoch.utf8ByteSize
        + answer.outputEpoch.utf8ByteSize
  | .history page =>
      Text.byteLen page.data + (page.pane.map String.utf8ByteSize).getD 0
        + (page.snapshot.map String.utf8ByteSize).getD 0
        + (page.error.map String.utf8ByteSize).getD 0
  | .welcome _ _ name _ _ _ => name.utf8ByteSize
  | .output data => Text.byteLen data
  | .presence _ members => members.length * 32
  | .closed reason _ => reason.utf8ByteSize
  | .directUnavailable _ => 0

/-- `charge`, the bytes of its queue that an event takes. -/
def Call.charge (call : Call) (event : ViewerEvent) : Nat :=
  min (heap event + call.spare event + 32) (2 ^ 64 - 1)

structure Viewer where
  identity : Nat
  directEpochs : Option (String × String)
  directPending : Option UInt32
  directStarted : Option Nat
  directLast : Option UInt32
  historyPending : Option UInt32
  /-- Absent for legacy history; present and empty before the first frozen
      chunk. -/
  historyAnchor : Option (Option String)
  historyStarted : Option Nat
  lastRedraw : Option Nat
  joinedAt : Int
  lastActiveAt : Int
  activityPublishedAt : Int
  readOnly : Bool
  cols : UInt16
  rows : UInt16
  term : String
  events : Sender

/-- An event that was queued. -/
inductive Sent where
  | host (event : HostEvent)
  | viewer (client : Nat) (event : ViewerEvent)
  deriving DecidableEq

structure State where
  directTransport : Bool
  historySnapshots : Bool
  host : Option (Channel HostEvent)
  generation : UInt64
  offlineAt : Option Nat
  activity : Nat
  nextClient : Nat
  viewers : Dict Nat Viewer
  closeEvent : Option HostEvent
  invitationsRevoked : Bool
  invitationRevision : Nat
  invitationExpiresAt : Int
  invitationWriteHash : String
  invitationReadHash : String
  /-- Everything queued so far. -/
  sent : List Sent

structure Shared where
  id : String
  owner : String
  options : Options
  stop : Bool
  secretHash : String
  state : State

/-- The tables of the hub, and every session it ever created. -/
structure System where
  sessions : Dict String Nat
  tokens : Dict String (String × Bool)
  shared : Dict Nat Shared
  nextShared : Nat

def System.new : System := ⟨.empty, .empty, .empty, 0⟩

namespace Viewer

def trySend (viewer : Viewer) (call : Call) (event : ViewerEvent) : Result Viewer :=
  (viewer.events.trySend call.charge event).map fun events => { viewer with events }

/-- The viewer typed something; whether the others are told. -/
def active (viewer : Viewer) (timestamp : Int) : Viewer × Bool :=
  let publish := decide (5 ≤ timestamp - viewer.activityPublishedAt)
  ({ viewer with
      lastActiveAt := timestamp
      activityPublishedAt := if publish then timestamp else viewer.activityPublishedAt },
    publish)

end Viewer

namespace State

def setViewer (state : State) (client : Nat) (viewer : Viewer) : State :=
  { state with viewers := state.viewers.insert client viewer }

def record (state : State) (events : List Sent) : State := { state with sent := state.sent ++ events }

/-- Queue an event for the host that is connected. -/
def tryHost (state : State) (event : HostEvent) (missing : String) : State × Result Unit :=
  match state.host with
  | none => (state, .error missing)
  | some host =>
      match host.trySend event with
      | .error message => (state, .error message)
      | .ok host => ({ state with host := some host }.record [.host event], .ok ())

/-- Queue an event for the host if that is possible. -/
def notifyHost (state : State) (event : HostEvent) : State := (state.tryHost event "").1

/-- Queue an event for an attached viewer if that is possible. -/
def notifyViewer (call : Call) (event : ViewerEvent) (state : State) (client : Nat) : State :=
  match state.viewers.get? client with
  | none => state
  | some viewer =>
      match viewer.trySend call event with
      | .error _ => state
      | .ok viewer => (state.setViewer client viewer).record [.viewer client event]

/-- Queue the last event of a viewer that was taken out. -/
def farewell (call : Call) (event : ViewerEvent) (state : State) (entry : Nat × Viewer) : State :=
  match entry.2.trySend call event with
  | .error _ => state
  | .ok _ => state.record [.viewer entry.1 event]

def participantList (state : State) : List Participant :=
  (state.viewers.entries.map fun entry =>
    ⟨entry.2.identity, entry.2.readOnly, entry.2.joinedAt, entry.2.lastActiveAt⟩).insertionSort
    fun a b => a.id ≤ b.id

def presence (call : Call) (state : State) : State :=
  let members := state.participantList
  let told := state.notifyHost (.presence members)
  (state.viewers.entries.map Prod.fst).foldl
    (notifyViewer call (.presence state.viewers.len members)) told

/-- One of the viewers with that identity. -/
def find (call : Call) (state : State) (identity : Nat) : Option (Nat × Viewer) :=
  let found := state.viewers.entries.filter fun entry => entry.2.identity == identity
  found[call.choice % found.length]?

def drop (call : Call) (state : State) (client : Nat) : State :=
  presence call ({ state with viewers := state.viewers.erase client }.notifyHost (.detach client))

def removeParticipant (call : Call) (state : State) (identity : Nat) : State :=
  match state.find call identity with
  | none => state
  | some entry =>
      let state := { state with viewers := state.viewers.erase entry.1 }
      let state := state.farewell call (.closed "removed by the host" false) entry
      presence call (state.notifyHost (.detach entry.1))

end State

section Input

variable (parse : String → Option Description)

/-- What a viewer's message comes to. An answered message goes no further. -/
inductive Verdict where
  | refused (message : String)
  | answered (viewer : Viewer) (event : Option ViewerEvent)
  | routed (viewer : Viewer) (event : HostEvent) (publish : Bool)

def Viewer.reply (viewer : Viewer) (call : Call) (event : ViewerEvent) : Verdict :=
  match viewer.trySend call event with
  | .error message => .refused message
  | .ok viewer => .answered viewer (some event)

/-- The chunk that ends a history request without a page. -/
def historyFailure (request : UInt32) (before : UInt32) (error : String) : HistoryChunk :=
  ⟨none, request, none, [], true, 0, before, 0, false, some error⟩

def Viewer.delivery (call : Call) (client : Nat) (directTransport : Bool) (viewer : Viewer)
    (packet : List Char) : Verdict :=
  if directTransport then
    match viewer.directEpochs with
    | none => .refused "terminal delivery is not negotiated"
    | some (inputEpoch, outputEpoch) =>
        match Delivery.decodePacket packet with
        | .error message => .refused message
        | .ok (.data frame) =>
            if viewer.readOnly then .refused "this invitation is read-only"
            else if frame.epoch = inputEpoch then
              let (viewer, publish) := viewer.active (call.now 0)
              .routed viewer (.delivery client packet) publish
            else .refused "terminal input epoch mismatch"
        | .ok (.ack epoch _) =>
            if epoch = outputEpoch then .routed viewer (.delivery client packet) false
            else .refused "terminal output acknowledgement epoch mismatch"
  else .refused "terminal delivery is unavailable"

/-- How long an offer keeps the next one away. -/
def Viewer.directWait (viewer : Viewer) : Nat :=
  seconds (if viewer.directPending.isSome then 15 else 5)

def Viewer.directOffer (call : Call) (client : Nat) (directTransport : Bool) (viewer : Viewer)
    (request : UInt32) (description : DirectDescription) : Verdict :=
  if directTransport then
    match description.validate parse "offer" with
    | .error message => .refused message
    | .ok () =>
        if viewer.directLast.all fun last => decide (last < request) then
          if viewer.directStarted.all fun started =>
              decide (viewer.directWait ≤ call.instant 0 - started) then
            .routed
              { viewer with
                directPending := some request
                directLast := some request
                directStarted := some (call.instant 1) }
              (.directOffer client request description) false
          else .refused "terminal direct negotiation is busy"
        else .refused "terminal direct request is stale"
  else viewer.reply call (.directUnavailable request)

def Viewer.redraw (call : Call) (client : Nat) (viewer : Viewer) : Verdict :=
  if viewer.lastRedraw.any fun at_ => decide (call.instant 0 - at_ < millis 250) then
    .answered viewer none
  else .routed { viewer with lastRedraw := some (call.instant 1) } (.redraw client) false

def Viewer.history (call : Call) (client : Nat) (historySnapshots : Bool) (viewer : Viewer)
    (freeze : Bool) (snapshot : Option String) (request : UInt32) (pane : String) (before : UInt32)
    (lines : UInt16) : Verdict :=
  match historyRequest pane before lines with
  | .error message => .refused message
  | .ok () =>
      if snapshot.all fun id => freeze && token id 32 then
        if snapshot.isSome && !historySnapshots then
          viewer.reply call (.history
            (historyFailure request before "History snapshot unavailable; refresh history."))
        else if viewer.historyStarted.any fun started =>
            decide (call.instant 0 - started < millis 500)
              || (viewer.historyPending.isSome && decide (call.instant 1 - started < seconds 3)) then
          viewer.reply call (.history
            (historyFailure request before "History is busy; try again shortly."))
        else
          .routed
            { viewer with
              historyStarted := some (call.instant 2)
              historyPending := some request
              historyAnchor := if freeze && historySnapshots then some snapshot else none }
            (.history (freeze && historySnapshots) snapshot client request pane before lines) false
      else .refused "invalid history snapshot request"

def Viewer.input (call : Call) (client : Nat) (viewer : Viewer) (data : List Char) : Verdict :=
  if viewer.readOnly then .refused "this invitation is read-only"
  else
    match decodeData data with
    | .error message => .refused message
    | .ok _ =>
        let (viewer, publish) := viewer.active (call.now 0)
        .routed viewer (.input client data) publish

def Viewer.resize (client : Nat) (viewer : Viewer) (cols rows : UInt16) : Verdict :=
  match dimensions cols rows with
  | .error message => .refused message
  | .ok () => .routed { viewer with cols, rows } (.resize client cols rows) false

/-- The message of an attached viewer. -/
def Viewer.accept (call : Call) (client : Nat) (directTransport historySnapshots : Bool)
    (viewer : Viewer) : ViewerInput → Verdict
  | .delivery packet => viewer.delivery call client directTransport packet
  | .directOffer request description =>
      viewer.directOffer parse call client directTransport request description
  | .redraw => viewer.redraw call client
  | .history freeze snapshot request pane before lines =>
      viewer.history call client historySnapshots freeze snapshot request pane before lines
  | .input data => viewer.input call client data
  | .resize cols rows => viewer.resize client cols rows
  | .pong => .answered viewer none

/-- Queue what a viewer sent for the host. -/
def State.route (call : Call) (state : State) (client : Nat) (viewer : Viewer) (event : HostEvent)
    (publish : Bool) : State × Result Unit :=
  let state := { state.setViewer client viewer with activity := call.instant 3 }
  let (state, result) := state.tryHost event "terminal host is reconnecting"
  match result with
  | .error message => (state, .error message)
  | .ok () => (if publish then state.presence call else state, .ok ())

/-- `Shared::input` on a session that was not stopped. -/
def State.input (call : Call) (state : State) (client : Nat) (message : ViewerInput) :
    State × Result Unit :=
  match state.viewers.get? client with
  | none => (state, .error "terminal participant detached")
  | some viewer =>
      match viewer.accept parse call client state.directTransport state.historySnapshots message with
      | .refused message => (state, .error message)
      | .answered viewer event =>
          ((state.setViewer client viewer).record (event.toList.map (.viewer client)), .ok ())
      | .routed viewer event publish => state.route call client viewer event publish

end Input

namespace State

/-- Forward an event to a viewer, or detach the viewer that cannot keep up. -/
def forward (call : Call) (state : State) (client : Nat) (viewer : Viewer) (event : ViewerEvent) :
    State :=
  match viewer.trySend call event with
  | .error _ => (state.setViewer client viewer).drop call client
  | .ok viewer => (state.setViewer client viewer).record [.viewer client event]

def directReply (call : Call) (state : State) (client : Nat) (request : UInt32)
    (event : ViewerEvent) : State :=
  match state.viewers.get? client with
  | none => state
  | some viewer =>
      if viewer.directPending = some request then
        state.forward call client { viewer with directPending := none } event
      else state

def relay (call : Call) (state : State) (client : Nat) (packet : List Char) : State × Result Unit :=
  match state.viewers.get? client with
  | none => (state, .ok ())
  | some viewer =>
      match viewer.directEpochs with
      | none => (state, .error "terminal delivery is not negotiated")
      | some (inputEpoch, outputEpoch) =>
          match Delivery.decodePacket packet with
          | .error message => (state, .error message)
          | .ok (.data frame) =>
              if frame.epoch = outputEpoch then
                (state.forward call client viewer (.delivery packet), .ok ())
              else (state, .error "terminal output epoch mismatch")
          | .ok (.ack epoch _) =>
              if epoch = inputEpoch then
                (state.forward call client viewer (.delivery packet), .ok ())
              else (state, .error "terminal input acknowledgement epoch mismatch")

def answer (parse : String → Option Description) (call : Call) (state : State) (client : Nat)
    (answer : DirectAnswer) : State × Result Unit :=
  match state.viewers.get? client with
  | none => (state, .ok ())
  | some viewer =>
      if viewer.directPending = some answer.request then
        if state.directTransport then
          match answer.validate parse with
          | .error message => (state, .error message)
          | .ok () =>
              let epochs := (answer.inputEpoch, answer.outputEpoch)
              let state := state.setViewer client { viewer with directEpochs := some epochs }
              (state.directReply call client answer.request (.directAnswer answer), .ok ())
        else (state, .error "terminal direct transport is unavailable")
      else (state, .ok ())

/-- The anchor of a pending history request after a page, which has to agree
    with it. -/
def anchored (anchor : Option (Option String)) (page : HistoryChunk) :
    Result (Option (Option String)) :=
  if page.error.isSome then .ok anchor
  else
    match anchor with
    | none =>
        if page.snapshot.isNone then .ok none else .error "unexpected history snapshot"
    | some anchor =>
        if page.snapshot.isSome then
          if anchor.all fun id => decide (page.snapshot = some id) then .ok (some page.snapshot)
          else .error "history snapshot changed"
        else .error "history snapshot missing"

def page (call : Call) (state : State) (client : Nat) (page : HistoryChunk) : State × Result Unit :=
  match page.validate with
  | .error message => (state, .error message)
  | .ok () =>
      match state.viewers.get? client with
      | none => (state, .ok ())
      | some viewer =>
          if viewer.historyPending = some page.request then
            match anchored viewer.historyAnchor page with
            | .error message => (state, .error message)
            | .ok historyAnchor =>
                let historyPending := if page.done then none else viewer.historyPending
                (state.forward call client { viewer with historyAnchor, historyPending }
                    (.history page),
                  .ok ())
          else (state, .ok ())

def outputData (call : Call) (state : State) (client : Nat) (data : List Char) : State × Result Unit :=
  match decodeData data with
  | .error message => (state, .error message)
  | .ok _ =>
      match state.viewers.get? client with
      | none => (state, .ok ())
      | some viewer => (state.forward call client viewer (.output data), .ok ())

/-- `Shared::output`. -/
def output (parse : String → Option Description) (call : Call) (stopped : Bool) (state : State)
    (generation : UInt64) (message : HostOutput) : State × Result Unit :=
  if generation = state.generation ∧ stopped = false then
    match message with
    | .delivery client packet => state.relay call client packet
    | .directAnswer client answer => state.answer parse call client answer
    | .directUnavailable client request =>
        (state.directReply call client request (.directUnavailable request), .ok ())
    | .revokeInvitations | .rotateInvitations _ =>
        (state, .error "invitation revocation must be persisted by the gateway")
    | .history client page => state.page call client page
    | .kick client => (state.removeParticipant call client, .ok ())
    | .output client data => state.outputData call client data
    | .closed client =>
        (presence call { state with viewers := state.viewers.erase client }, .ok ())
    | .pong => (state, .ok ())
    | .activity => ({ state with activity := call.instant 0 }, .ok ())
    | .end' => (state, .error "terminal host ended the session")
  else (state, .error "stale terminal host connection")

def detach (call : Call) (state : State) (client : Nat) : State :=
  if state.viewers.contains client then state.drop call client else state

def offline (call : Call) (state : State) (generation : UInt64) : State :=
  if generation = state.generation then
    { state with host := none, offlineAt := some (call.instant 0) }
  else state

def revokeInvitations (state : State) : State :=
  { state with invitationsRevoked := true }.notifyHost .invitationsRevoked

end State

section Register

namespace Viewer

/-- A viewer whose host was replaced starts over with the new one. What it
    waited for is answered, each answer if the queue takes it. -/
def reconnected (call : Call) (viewer : Viewer) : Viewer × List ViewerEvent :=
  let direct := viewer.directPending.map ViewerEvent.directUnavailable
  let history := viewer.historyPending.map fun request =>
    ViewerEvent.history (historyFailure request 0 "Host reconnected; refresh this history page.")
  (direct.toList ++ history.toList).foldl tell
    ({ viewer with directEpochs := none, directPending := none, historyPending := none }, [])
where
  tell (told : Viewer × List ViewerEvent) (event : ViewerEvent) : Viewer × List ViewerEvent :=
    match told.1.trySend call event with
    | .error _ => told
    | .ok viewer => (viewer, told.2 ++ [event])

end Viewer

namespace State

/-- Announce the attached viewers to a new host. -/
def reattach (call : Call) : List (Nat × Viewer) → State → Channel HostEvent →
    State × Result (Channel HostEvent)
  | [], state, send => (state, .ok send)
  | (client, viewer) :: rest, state, send =>
      let (viewer, events) := viewer.reconnected call
      let state := (state.setViewer client viewer).record (events.map (.viewer client))
      let attach := HostEvent.attach client viewer.readOnly viewer.cols viewer.rows viewer.term
      match send.trySend attach with
      | .error message => (state, .error message)
      | .ok send => reattach call rest (state.record [.host attach]) send

/-- Tell the host that is being replaced. -/
def replaceHost (state : State) : State :=
  { state.notifyHost (.reconnect "host connection replaced") with host := none }

/-- The session between two hosts. -/
def renew (hello : HostHello) (revoked : Bool) (state : State) : State :=
  let state := State.replaceHost { state with
    directTransport := hello.directTransport
    historySnapshots := hello.historySnapshots
    invitationsRevoked := state.invitationsRevoked || revoked }
  { state with generation := state.generation + 1, offlineAt := none }

/-- A new host for the session. -/
def connect (call : Call) (hello : HostHello) (revoked : Bool) (state : State) :
    State × Result UInt64 :=
  let state := state.renew hello revoked
  match reattach call state.viewers.entries state ⟨[], 128, false⟩ with
  | (state, .error message) => (state, .error message)
  | (state, .ok send) =>
      if state.invitationsRevoked then
        match send.trySend .invitationsRevoked with
        | .error message => (state, .error message)
        | .ok send =>
            let state := { state with host := some send }.record [.host .invitationsRevoked]
            (state.presence call, .ok state.generation)
      else (State.presence call { state with host := some send }, .ok state.generation)

/-- New invitations for a session. -/
def install (state : State) (revision : Nat) (expiresAt : Int) (writeHash readHash : String)
    (revoked : Bool) : State :=
  { state with
    invitationRevision := revision
    invitationExpiresAt := expiresAt
    invitationWriteHash := writeHash
    invitationReadHash := readHash
    invitationsRevoked := revoked }

end State

/-- Replace the capabilities of a session. -/
def install (tokens : Dict String (String × Bool)) (id : String) (readOnly : Bool)
    (writeHash readHash : String) : Dict String (String × Bool) :=
  ((tokens.retain fun _ entry => decide (entry.1 ≠ id)).insert writeHash (id, readOnly)).insert
    readHash (id, true)

def Shared.expired (shared : Shared) (now : Int) : Bool :=
  shared.options.sessionExpiresAt.any fun at_ => decide (at_ ≤ now)

/-- The persisted invitations of a session that is already routed. -/
def restore (tokens : Dict String (String × Bool)) (hello : HostHello) (state : State)
    (persisted : PersistedInvitations) : Result (Dict String (String × Bool) × State) :=
  if state.invitationRevision ≤ persisted.revision then
    if persisted.revision = state.invitationRevision then
      if state.invitationWriteHash = persisted.writeHash
          ∧ state.invitationReadHash = persisted.readHash
          ∧ state.invitationExpiresAt = persisted.expiresAt then
        .ok (tokens,
          { state with invitationsRevoked := state.invitationsRevoked || persisted.revoked })
      else .error "persisted invitation revision conflicts"
    else if [persisted.writeHash, persisted.readHash].all fun hash =>
        (tokens.get? hash).all fun entry => entry.1 == hello.id then
      .ok (install tokens hello.id hello.options.readOnly persisted.writeHash persisted.readHash,
        state.install persisted.revision persisted.expiresAt persisted.writeHash
          persisted.readHash persisted.revoked)
    else .error "persisted capability collision"
  else .error "stale persisted invitation revision"

namespace System

def session (system : System) (id : String) : Option (Nat × Shared) :=
  (system.sessions.get? id).bind fun number => (system.shared.get? number).map (number, ·)

def setShared (system : System) (number : Nat) (shared : Shared) : System :=
  { system with shared := system.shared.insert number shared }

/-- How many sessions of the owner are routed. -/
def owned (system : System) (owner : String) : Nat :=
  (system.sessions.values.filter fun number =>
    (system.shared.get? number).any fun shared => shared.owner == owner).length

/-- The host takes over a session. -/
def lease (call : Call) (hello : HostHello) (revoked : Bool) (system : System) (number : Nat)
    (shared : Shared) : System × Result (Nat × UInt64) :=
  let (state, result) := shared.state.connect call hello revoked
  (system.setShared number { shared with state }, result.map (number, ·))

/-- The session of a host that is not routed yet. -/
def create (digest : String → String) (call : Call) (owner : String) (hello : HostHello)
    (revoked : Bool) (persisted : Option PersistedInvitations) (writeHash readHash : String) :
    Shared where
  id := hello.id
  owner
  options := hello.options
  stop := false
  secretHash := digest hello.secret
  state :=
    { directTransport := hello.directTransport
      historySnapshots := hello.historySnapshots
      host := none
      generation := 0
      offlineAt := none
      activity := call.instant 0
      nextClient := call.participantId
      viewers := .empty
      closeEvent := none
      invitationsRevoked := revoked || persisted.any (·.revoked)
      invitationRevision := (persisted.map (·.revision)).getD 0
      invitationExpiresAt := (persisted.map (·.expiresAt)).getD hello.options.expiresAt
      invitationWriteHash := writeHash
      invitationReadHash := readHash
      sent := [] }

/-- `Hub::register_authorized`. -/
def registerAuthorized (digest : String → String) (call : Call) (system : System) (owner : String)
    (hello : HostHello) (now : Int) (revoked : Bool) (persisted : Option PersistedInvitations) :
    System × Result (Nat × UInt64) :=
  match hello.validate now, (persisted.map (·.validate)).getD (.ok ()) with
  | .error message, _ => (system, .error message)
  | .ok (), .error message => (system, .error message)
  | .ok (), .ok () =>
      let writeHash := (persisted.map (·.writeHash)).getD (digest hello.writeToken)
      let readHash := (persisted.map (·.readHash)).getD (digest hello.readToken)
      match system.session hello.id with
      | some (number, shared) =>
          if shared.owner = owner ∧ shared.secretHash = digest hello.secret
              ∧ shared.options = hello.options ∧ shared.stop = false then
            match persisted with
            | none => system.lease call hello revoked number shared
            | some persisted =>
                match restore system.tokens hello shared.state persisted with
                | .error message => (system, .error message)
                | .ok (tokens, state) =>
                    { system with tokens }.lease call hello revoked number { shared with state }
          else (system, .error "terminal host identity does not match")
      | none =>
          if system.sessions.len < 64 ∧ system.owned owner < 8 then
            if system.tokens.contains writeHash = false
                ∧ system.tokens.contains readHash = false then
              let shared := create digest call owner hello revoked persisted writeHash readHash
              let tokens := (system.tokens.insert writeHash (hello.id, hello.options.readOnly)).insert
                readHash (hello.id, true)
              let number := system.nextShared
              let system :=
                { system with
                  tokens
                  sessions := system.sessions.insert hello.id number
                  nextShared := number + 1 }
              system.lease call hello revoked number shared
            else (system, .error "terminal capability already registered")
          else (system, .error "terminal session capacity reached")

/-- `Hub::rotate_invitations`. -/
def rotateInvitations (digest : String → String) (call : Call) (system : System) (id : String)
    (generation : UInt64) (update : InvitationUpdate) : System × Result Unit :=
  match update.validate (call.now 0) with
  | .error message => (system, .error message)
  | .ok () =>
      match system.session id with
      | none => (system, .error "terminal host unavailable")
      | some (number, shared) =>
          let state := shared.state
          if shared.stop = false ∧ shared.expired (call.now 1) = false
              ∧ state.generation = generation ∧ state.host.isSome then
            let writeHash := digest update.writeToken
            let readHash := digest update.readToken
            if update.revision = state.invitationRevision then
              if state.invitationWriteHash = writeHash ∧ state.invitationReadHash = readHash
                  ∧ state.invitationExpiresAt = update.expiresAt then
                -- a retry must not undo a later revocation
                (system, .ok ())
              else (system, .error "invitation revision conflicts")
            else if state.invitationRevision < update.revision then
              if system.tokens.contains writeHash = false
                  ∧ system.tokens.contains readHash = false then
                let state :=
                  state.install update.revision update.expiresAt writeHash readHash false
                let tokens := install system.tokens id shared.options.readOnly writeHash readHash
                ({ system with tokens }.setShared number { shared with state }, .ok ())
              else (system, .error "replacement capabilities must be fresh")
            else (system, .error "stale invitation revision")
          else (system, .error "terminal host replaced or unavailable")

/-- `Hub::resolve`. -/
def resolve (digest : String → String) (call : Call) (system : System) (capability : String) :
    Result (Nat × Bool) :=
  if token capability 64 then
    match system.tokens.get? (digest capability) with
    | none => .error "invalid or expired terminal invitation"
    | some (id, readOnly) =>
        match system.session id with
        | none => .error "invalid or expired terminal invitation"
        | some (number, shared) =>
            let expiresAt := shared.state.invitationExpiresAt
            if expiresAt = 0 ∨ call.now 0 < expiresAt then
              if shared.stop = false ∧ shared.expired (call.now 1) = false
                  ∧ shared.state.host.isSome then
                if shared.state.invitationsRevoked then .error "terminal invitation revoked"
                else .ok (number, readOnly)
              else .error "terminal host is reconnecting or unavailable"
            else .error "terminal invitation expired"
  else .error "invalid or expired terminal invitation"

end System

end Register

section Attach

/-- The terminal a viewer asks for. -/
structure Screen where
  cols : UInt16
  rows : UInt16
  term : String

def Screen.validate (screen : Screen) : Result Unit := do
  dimensions screen.cols screen.rows
  let term := utf8 screen.term
  ensure (!term.isEmpty && decide (term.length ≤ 64)
    && term.all fun b => isAsciiAlphanumeric b || [45, 95, 46, 43].contains b)
    "invalid terminal type"

namespace State

/-- The previous attachment of a participant that joins again is closed. -/
def replace (call : Call) (state : State) : Option Nat → State × Result Unit
  | none => (state, .ok ())
  | some identity =>
      if 0 < identity ∧ identity < 2 ^ 53 then
        if state.host.isSome then
          match state.find call identity with
          | none => (state, .ok ())
          | some entry =>
              let state := { state with viewers := state.viewers.erase entry.1 }
              let state :=
                state.farewell call (.closed "participant reconnected elsewhere" false) entry
              state.tryHost (.detach entry.1) ""
        else (state, .error "terminal host reconnecting")
      else (state, .error "invalid participant identity")

def welcome (state : State) (name : String) (readOnly : Bool) : ViewerEvent :=
  .welcome state.directTransport state.historySnapshots name readOnly state.invitationExpiresAt
    (state.viewers.len + 1)

def newViewer (call : Call) (identity : Nat) (readOnly : Bool) (screen : Screen)
    (events : Sender) : Viewer where
  identity
  directEpochs := none
  directPending := none
  directStarted := none
  directLast := none
  historyPending := none
  historyAnchor := none
  historyStarted := none
  lastRedraw := none
  joinedAt := call.now 2
  lastActiveAt := call.now 3
  activityPublishedAt := call.now 4
  readOnly
  cols := screen.cols
  rows := screen.rows
  term := screen.term
  events

/-- A new viewer takes the next client number. -/
def join (call : Call) (options : Options) (identity : Option Nat) (readOnly : Bool)
    (screen : Screen) (state : State) : State × Result Nat :=
  if state.viewers.len < min options.maxViewers.toNat maxViewers then
    let id := state.nextClient
    if id + 1 < 2 ^ 53 then
      let state := { state with nextClient := id + 1 }
      let attach := HostEvent.attach id readOnly screen.cols screen.rows screen.term
      match state.tryHost attach "terminal host unavailable" with
      | (state, .error message) => (state, .error message)
      | (state, .ok ()) =>
          let welcome := state.welcome options.name readOnly
          match Sender.new.trySend call.charge welcome with
          | .error message => (state, .error message)
          | .ok events =>
              let viewer := newViewer call (identity.getD id) readOnly screen events
              let state := (state.setViewer id viewer).record [.viewer id welcome]
              (presence call { state with activity := call.instant 0 }, .ok id)
    else (state, .error "terminal client identity exhausted")
  else (state, .error "terminal participant limit reached")

/-- The invitation is still the one that was resolved. -/
def invited (call : Call) (tokens : Dict String (String × Bool)) (id : String) (readOnly : Bool)
    (state : State) : Option String → Result Unit
  | none => .ok ()
  | some hash => do
      ensure (tokens.get? hash == some (id, readOnly)) "terminal invitation replaced"
      ensure (!state.invitationsRevoked && (decide (state.invitationExpiresAt = 0)
        || decide (call.now 1 < state.invitationExpiresAt)))
        "terminal invitation expired or revoked"

end State

namespace System

/-- The viewers of all routed sessions. -/
def total (system : System) : Nat :=
  (system.sessions.values.map fun number =>
    ((system.shared.get? number).map (·.state.viewers.len)).getD 0).sum

/-- `Hub::attach_inner`. An invitation is resolved in a call of its own, so
    that what it resolved to may have changed; `attach_authorized` passes none. -/
def attachInner (call : Call) (system : System) (id : String) (identity : Option Nat)
    (readOnly : Bool) (screen : Screen) (invitation : Option String) :
    System × Result (Nat × Nat) :=
  match screen.validate with
  | .error message => (system, .error message)
  | .ok () =>
      match system.session id with
      | none => (system, .error "terminal host unavailable")
      | some (number, shared) =>
          if shared.stop = false ∧ shared.expired (call.now 0) = false then
            match shared.state.invited call system.tokens id readOnly invitation with
            | .error message => (system, .error message)
            | .ok () =>
                if system.total < 128 ∨ identity.any fun identity =>
                    shared.state.viewers.values.any fun viewer => viewer.identity == identity then
                  match shared.state.replace call identity with
                  | (state, .error message) =>
                      (system.setShared number { shared with state }, .error message)
                  | (state, .ok ()) =>
                      let (state, result) :=
                        state.join call shared.options identity readOnly screen
                      (system.setShared number { shared with state }, result.map (number, ·))
                else (system, .error "terminal gateway participant capacity reached")
          else (system, .error "terminal session ended")

end System

end Attach

/-- A session that ends closes its host and its viewers. -/
def Shared.close (call : Call) (reason : String) (revoked : Bool) (shared : Shared) : Shared :=
  let event := if revoked then HostEvent.stop reason else .reconnect reason
  let state := { shared.state.notifyHost event with closeEvent := some event, host := none }
  let state := state.viewers.entries.foldl (State.farewell call (.closed reason !revoked)) state
  { shared with stop := true, state := { state with viewers := .empty } }

namespace System

/-- `Hub::remove`, behind `end` and `disconnect`. -/
def remove (call : Call) (system : System) (id : String) (reason : String) (revoked : Bool) :
    System :=
  let tokens := system.tokens.retain fun _ entry => decide (entry.1 ≠ id)
  match system.session id with
  | none => { system with sessions := system.sessions.erase id, tokens }
  | some (number, shared) =>
      { system with sessions := system.sessions.erase id, tokens }.setShared number
        (shared.close call reason revoked)

end System

/-- A call that the holder of a session makes on it. The last three are the
    receivers of the two queues. -/
inductive SessionOp where
  | revoke
  | kick (identity : Nat)
  | offline (generation : UInt64)
  | input (client : Nat) (message : ViewerInput)
  | output (generation : UInt64) (message : HostOutput)
  | detach (client : Nat)
  | hostTakes
  | hostGone
  | viewerTakes (client : Nat)

/-- A call of the hub, or of a session that some connection holds. -/
inductive Op where
  | register (owner : String) (hello : HostHello) (now : Int) (revoked : Bool)
      (persisted : Option PersistedInvitations)
  | rotate (id : String) (generation : UInt64) (update : InvitationUpdate)
  | resolve (capability : String)
  | attach (id : String) (identity : Option Nat) (readOnly : Bool) (screen : Screen)
      (invitation : Option String)
  | remove (id : String) (reason : String) (revoked : Bool)
  | session (number : Nat) (op : SessionOp)

inductive Answer where
  | lease (session : Nat) (generation : UInt64)
  | attachment (session client : Nat)
  | resolved (session : Nat) (readOnly : Bool)
  | done
  | failed (message : String)
  deriving DecidableEq

def Answer.ofResult {α : Type} (answer : α → Answer) : Result α → Answer
  | .ok value => answer value
  | .error message => .failed message

namespace State

def hostTakes (state : State) : State :=
  { state with host := state.host.map fun host => { host with queue := host.queue.tail } }

def hostGone (state : State) : State :=
  { state with host := state.host.map fun host => { host with closed := true } }

def viewerTakes (state : State) (client : Nat) : State :=
  match state.viewers.get? client with
  | none => state
  | some viewer => state.setViewer client { viewer with events := viewer.events.recv }

end State

/-- The calls on a session. `input` reads the flag before it takes the lock;
    once the flag is set no viewer is attached. -/
def Shared.perform (parse : String → Option Description) (call : Call) (shared : Shared) :
    SessionOp → State × Result Unit
  | .revoke => (shared.state.revokeInvitations, .ok ())
  | .kick identity =>
      if shared.stop then (shared.state, .error "terminal session ended")
      else (shared.state.removeParticipant call identity, .ok ())
  | .offline generation => (shared.state.offline call generation, .ok ())
  | .input client message =>
      if shared.stop then (shared.state, .error "terminal session ended")
      else shared.state.input parse call client message
  | .output generation message => shared.state.output parse call shared.stop generation message
  | .detach client => (shared.state.detach call client, .ok ())
  | .hostTakes => (shared.state.hostTakes, .ok ())
  | .hostGone => (shared.state.hostGone, .ok ())
  | .viewerTakes client => (shared.state.viewerTakes client, .ok ())

namespace System

def perform (parse : String → Option Description) (call : Call) (system : System) (number : Nat)
    (op : SessionOp) : System × Result Unit :=
  match system.shared.get? number with
  | none => (system, .error "no such session")
  | some shared =>
      let (state, result) := shared.perform parse call op
      (system.setShared number { shared with state }, result)

/-- One call. -/
def step (digest : String → String) (parse : String → Option Description) (system : System)
    (input : Op × Call) : System × Answer :=
  let call := input.2
  match input.1 with
  | .register owner hello now revoked persisted =>
      let (system, result) :=
        system.registerAuthorized digest call owner hello now revoked persisted
      (system, .ofResult (fun lease => .lease lease.1 lease.2) result)
  | .rotate id generation update =>
      let (system, result) := system.rotateInvitations digest call id generation update
      (system, .ofResult (fun _ => .done) result)
  | .resolve capability =>
      (system, .ofResult (fun found => .resolved found.1 found.2)
        (system.resolve digest call capability))
  | .attach id identity readOnly screen invitation =>
      let (system, result) := system.attachInner call id identity readOnly screen invitation
      (system, .ofResult (fun made => .attachment made.1 made.2) result)
  | .remove id reason revoked => (system.remove call id reason revoked, .done)
  | .session number op =>
      let (system, result) := system.perform parse call number op
      (system, .ofResult (fun _ => .done) result)

end System

end PortHub.Terminal.Hub
