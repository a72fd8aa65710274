import PortHub.Lib.Dict
import PortHub.Lib.Runs
import PortHub.Terminal.Protocol
import Mathlib.Data.Finset.Basic
import Mathlib.Data.List.Sort

/-! # Attachments of one host connection

A host keeps a pseudo terminal for every participant. What the terminals, the
direct transports and the history jobs report is queued with the number of the
attachment it belongs to, so that a late report of an earlier attachment cannot
reach a later one of the same participant. Everything outside (terminals,
transports, the snapshot cache) answers through the outcome of a call.
-/

namespace PortHub.Terminal.Host

structure Queued where
  scope : Option (Nat × Nat)
  output : HostOutput
  deriving DecidableEq

/-- The participant that an output is about. -/
def participant : HostOutput → Option Nat
  | .delivery client _ | .directAnswer client _ | .directUnavailable client _ | .history client _
  | .kick client | .output client _ | .closed client => some client
  | .rotateInvitations _ | .revokeInvitations | .end' | .pong | .activity => none

/-- The events of a host, including those that the gateway sends by itself. -/
inductive Incoming where
  | routed (event : HostEvent)
  | ready (historySnapshots directTransport : Bool)
  | invitationsRotated
  | ping

/-- A pseudo terminal. -/
structure Client where
  readOnly : Bool
  cols : UInt16
  rows : UInt16
  term : String

/-- A history job that was started, with what it was asked for. -/
structure Job where
  client : Nat
  generation : Nat
  request : UInt32
  before : UInt32
  deriving DecidableEq

/-- `live` and `history` are the two bounded queues, `tasks` the forwarders that
    were started, by client and generation. A task that is aborted may still be
    in the middle of a send. -/
structure Attachments where
  direct : Finset Nat
  directConfigured : Bool
  directEnabled : Bool
  historySnapshots : Bool
  clients : Dict Nat Client
  live : List Queued
  generations : Dict Nat Nat
  generation : Nat
  forwarders : Dict Nat Nat
  maxViewers : Nat
  history : List Queued
  pendingRedraw : List Nat
  liveBurst : Nat
  tasks : List (Nat × Nat)
  jobs : List Job

/-- What the parts outside answer: a transport takes a message, a terminal could
    be opened, the snapshot cache takes the participant, the terminal takes input
    and sizes, and a history job may be started. -/
structure Outcome where
  relayed : Bool
  opened : Bool
  cached : Result Unit
  typed : Bool
  resized : Result Unit
  permitted : Bool

def liveCapacity : Nat := 128

def historyCapacity : Nat := 8

namespace Attachments

def new (limit : Nat) : Result Attachments := do
  ensure (decide (1 ≤ limit) && decide (limit ≤ Terminal.maxViewers)) "invalid terminal participant limit"
  return ⟨∅, false, false, false, .empty, [], .empty, 0, .empty, limit, [], [], 0, [], []⟩

def configureDirect (valid : Result Unit) (host : Attachments) : Attachments × Result Unit :=
  if host.clients.len = 0 then
    match valid with
    | .error message => (host, .error message)
    | .ok () => ({ host with directConfigured := true }, .ok ())
  else (host, .error "configure terminal direct transport before attaching guests")

def queued (host : Attachments) (output : HostOutput) : Result Queued :=
  match participant output with
  | none => .ok ⟨none, output⟩
  | some client =>
      match host.generations.get? client with
      | none => .error "terminal participant generation missing"
      | some generation => .ok ⟨some (client, generation), output⟩

def emit (host : Attachments) (output : HostOutput) : Attachments × Result Unit :=
  match host.queued output with
  | .error message => (host, .error message)
  | .ok item =>
      if host.live.length < liveCapacity then ({ host with live := host.live ++ [item] }, .ok ())
      else (host, .error "no available capacity")

/-- `emit`, after which `apply` goes on. -/
def tell (host : Attachments) (output : HostOutput) : Attachments × Result Bool :=
  ((host.emit output).1, (host.emit output).2.map fun _ => true)

def admitGeneration (host : Attachments) (client : Nat) : Attachments × Result Nat :=
  if host.generation + 1 < 2 ^ 64 then
    ({ host with
        generation := host.generation + 1
        generations := host.generations.insert client (host.generation + 1) },
      .ok (host.generation + 1))
  else (host, .error "terminal attachment generations exhausted")

/-- The parts of an attachment that are removed with its terminal. -/
def release (host : Attachments) (client : Nat) : Attachments :=
  { host with
    clients := host.clients.erase client
    forwarders := host.forwarders.erase client
    direct := host.direct.erase client }

def delivery (outcome : Outcome) (host : Attachments) (client : Nat) : Attachments × Result Bool :=
  if decide (client ∈ host.direct) && outcome.relayed then (host, .ok true)
  else if host.clients.contains client then
    { host.release client with pendingRedraw := host.pendingRedraw.erase client }.tell (.closed client)
  else (host, .ok true)

def directOffer (outcome : Outcome) (host : Attachments) (client : Nat) (request : UInt32) :
    Attachments × Result Bool :=
  if decide (client ∈ host.direct) && outcome.relayed then (host, .ok true)
  else if host.clients.contains client then host.tell (.directUnavailable client request)
  else (host, .ok true)

def redraw (host : Attachments) (client : Nat) : Attachments × Result Bool :=
  if host.clients.contains client && !host.pendingRedraw.contains client then
    ({ host with pendingRedraw := host.pendingRedraw.orderedInsert (· ≤ ·) client }, .ok true)
  else (host, .ok true)

/-- The answer to a request that no job was started for. -/
def busyPage (request before : UInt32) : HistoryChunk :=
  ⟨none, request, none, [], true, 0, before, 0, false, some "History is busy; try again shortly."⟩

/-- The page of a request that is turned away is dropped if its queue is full. -/
def requestHistory (outcome : Outcome) (host : Attachments) (freeze : Bool) (snapshot : Option String)
    (client : Nat) (request : UInt32) (pane : String) (before : UInt32) (lines : UInt16) :
    Attachments × Result Bool :=
  match historyRequest pane before lines with
  | .error message => (host, .error message)
  | .ok () =>
      if !host.clients.contains client then (host, .ok true)
      else if !(snapshot.all fun id => freeze && token id 32) then
        (host, .error "invalid history snapshot reference")
      else
        match host.generations.get? client with
        | none => (host, .error "terminal participant generation missing")
        | some generation =>
            if outcome.permitted then
              ({ host with jobs := host.jobs ++ [⟨client, generation, request, before⟩] }, .ok true)
            else
              match host.queued (.history client (busyPage request before)) with
              | .error message => (host, .error message)
              | .ok item =>
                  if host.history.length < historyCapacity then
                    ({ host with history := host.history ++ [item] }, .ok true)
                  else (host, .ok true)

def attach (outcome : Outcome) (host : Attachments) (client : Nat) (pty : Client) :
    Attachments × Result Bool :=
  if host.clients.contains client then (host, .error "duplicate terminal participant identity")
  else
    match host.admitGeneration client with
    | (host, .error message) => (host, .error message)
    | (host, .ok generation) =>
        if host.maxViewers ≤ host.clients.len then host.tell (.closed client)
        else if outcome.opened then
          let host :=
            { host with
              direct :=
                if host.directEnabled && host.directConfigured then insert client host.direct
                else host.direct
              forwarders := host.forwarders.insert client generation
              tasks := host.tasks ++ [(client, generation)] }
          match outcome.cached with
          | .error message => (host, .error message)
          | .ok () => ({ host with clients := host.clients.insert client pty }, .ok true)
        else host.tell (.closed client)

def input (outcome : Outcome) (host : Attachments) (client : Nat) : Attachments × Result Bool :=
  if host.clients.contains client && !outcome.typed then
    (host.release client).tell (.closed client)
  else (host, .ok true)

def resize (outcome : Outcome) (host : Attachments) (client : Nat) (cols rows : UInt16) :
    Attachments × Result Bool :=
  match host.clients.get? client with
  | none => (host, .ok true)
  | some pty =>
      match outcome.resized with
      | .error message => (host, .error message)
      | .ok () => ({ host with clients := host.clients.insert client { pty with cols, rows } }, .ok true)

def detach (host : Attachments) (client : Nat) : Attachments :=
  { host.release client with
    generations := host.generations.erase client
    pendingRedraw := host.pendingRedraw.erase client }

def stop (host : Attachments) : Attachments :=
  { host with generations := .empty, forwarders := .empty, clients := .empty, direct := ∅ }

/-- `apply`. A false result ends the connection. -/
def apply (outcome : Outcome) (host : Attachments) : Incoming → Attachments × Result Bool
  | .routed (.delivery client _) => host.delivery outcome client
  | .routed (.directOffer client request _) => host.directOffer outcome client request
  | .routed (.redraw client) => host.redraw client
  | .routed (.history freeze snapshot client request pane before lines) =>
      host.requestHistory outcome freeze snapshot client request pane before lines
  | .routed (.attach client readOnly cols rows term) =>
      host.attach outcome client ⟨readOnly, cols, rows, term⟩
  | .routed (.input client _) => host.input outcome client
  | .routed (.resize client cols rows) => host.resize outcome client cols rows
  | .routed (.detach client) => (host.detach client, .ok true)
  | .routed (.stop _) | .routed (.reconnect _) => (host.stop, .ok false)
  | .ready historySnapshots directTransport =>
      ({ host with historySnapshots, directEnabled := directTransport }, .ok true)
  | .ping => host.tell .pong
  | .routed .invitationsRevoked | .routed (.presence _) | .invitationsRotated => (host, .ok true)

/-- What a turn of `next` comes to. -/
inductive Turn where
  | pending
  | skipped
  | returned (item : Queued)
  deriving DecidableEq

/-- An item that was taken from a queue. -/
def settle (host : Attachments) (item : Queued) : Attachments × Turn :=
  if item.scope.any fun (client, generation) =>
      decide (host.generations.get? client ≠ some generation) then (host, .skipped)
  else
    match item.output with
    | .closed client =>
        ({ host.release client with generations := host.generations.erase client }, .returned item)
    | _ => (host, .returned item)

/-- One round of the loop of `next`, which serves some of the redraws. Live output
    comes first, but after eight live messages a page has its turn. -/
def next (redraws : Nat) (host : Attachments) : Attachments × Turn :=
  match (if 8 ≤ host.liveBurst then host.history else []) with
  | item :: rest => { host with history := rest, liveBurst := 0 }.settle item
  | [] =>
      let host := { host with pendingRedraw := host.pendingRedraw.drop redraws }
      match host.live with
      | item :: rest => { host with live := rest, liveBurst := min (host.liveBurst + 1) 255 }.settle item
      | [] =>
          match host.history with
          | item :: rest => { host with history := rest, liveBurst := 0 }.settle item
          | [] => (host, .pending)

/-- `forward_participant` reads an output of its worker, or its end. A worker may
    report only its own attachment, and the task ends with it. -/
def forward (host : Attachments) (client generation : Nat) (read : Option HostOutput) :
    Attachments × Option Queued :=
  if (client, generation) ∈ host.tasks ∧ host.live.length < liveCapacity then
    let own := read.filter fun output =>
      decide (participant output = some client) || decide (output = .activity)
    let item : Queued := ⟨some (client, generation), own.getD (.closed client)⟩
    let tasks := if item.output = .closed client then host.tasks.erase (client, generation) else host.tasks
    ({ host with live := host.live ++ [item], tasks }, some item)
  else (host, none)

/-- A history job sends a part of its page. -/
def chunk (host : Attachments) (job : Job) (page : HistoryChunk) : Attachments × Option Queued :=
  if job ∈ host.jobs ∧ host.history.length < historyCapacity then
    let item : Queued := ⟨some (job.client, job.generation),
      .history job.client { page with request := job.request, before := job.before }⟩
    ({ host with history := host.history ++ [item] }, some item)
  else (host, none)

end Attachments

inductive Event where
  | configureDirect (valid : Result Unit)
  | apply (event : Incoming) (outcome : Outcome)
  | forward (client generation : Nat) (read : Option HostOutput)
  | chunk (job : Job) (page : HistoryChunk)
  | next (redraws : Nat)

inductive Answer where
  | configured (result : Result Unit)
  | applied (result : Result Bool) (admitted : Bool)
  | sent (item : Option Queued)
  | turned (turn : Attachments.Turn)

/-- The event begins a new attachment. -/
def Attachments.admits (host : Attachments) : Incoming → Bool
  | .routed (.attach client _ _ _ _) =>
      !host.clients.contains client && decide (host.generation + 1 < 2 ^ 64)
  | _ => false

def step (host : Attachments) : Event → Attachments × Answer
  | .configureDirect valid =>
      ((host.configureDirect valid).1, .configured (host.configureDirect valid).2)
  | .apply event outcome =>
      ((host.apply outcome event).1, .applied (host.apply outcome event).2 (host.admits event))
  | .forward client generation read =>
      ((host.forward client generation read).1, .sent (host.forward client generation read).2)
  | .chunk job page => ((host.chunk job page).1, .sent (host.chunk job page).2)
  | .next redraws => ((host.next redraws).1, .turned (host.next redraws).2)

end PortHub.Terminal.Host
