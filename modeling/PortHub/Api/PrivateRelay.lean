import PortHub.Lib.Dict
import PortHub.Lib.Runs
import PortHub.Mesh.Batch

/-! # The private relay of the gateway

Leases say which peers may talk; connections are the lanes that a peer has open.
A frame is routed record by record: a call validates the record, waits for a slot
in the queue of the target, takes a permit of the global budget, validates again
and commits. All of it runs concurrently, so a `System` holds every call in
progress and every connection task, and one action is one critical section.
The digest of a token is a parameter, and time only moves forward.
-/

namespace PortHub.Api.PrivateRelay

abbrev Bytes := List UInt8

def maxRelayLanes : Nat := 4

def maxRelayPeers : Nat := 4096

def maxRelayConnections : Nat := maxRelayPeers * maxRelayLanes

def maxLeases : Nat := 16384

def minRelayQueuePackets : Nat := 128

def maxRelayQueuePackets : Nat := 2048

def maxRelayQueueBudget : Nat := 4096 * minRelayQueuePackets

def relayQueueCapacity (activeConnections : Nat) : Nat :=
  min maxRelayQueuePackets
    (max minRelayQueuePackets (maxRelayQueueBudget / max activeConnections 1))

structure Lease where
  credentialHash : String
  hash : String
  relayToken : String
  instance' : String
  ip : Ipv4Addr
  allowed : List String
  expires : Nat
  deriving DecidableEq, Repr

/-- A lane of a peer; the sending half of its queue is known by the number of the
    task that receives from it. -/
structure Connection where
  instance' : String
  generation : Nat
  channel : Nat
  deriving DecidableEq, Repr

structure Forward where
  packet : Bytes
  channel : Nat
  generation : Nat
  expires : Nat
  deriving DecidableEq, Repr

/-- What the lock protects. -/
structure Inner where
  leases : Dict String Lease
  revoked : Dict String Nat
  revokedCleanupAt : Option Nat
  connections : Dict String (Dict Nat Connection)
  generation : Nat
  droppedPackets : Nat

/-- A running `serve`: what it registered, and the queue it reads from. -/
structure Task where
  peer : String
  lane : Nat
  generation : Nat
  free : Nat
  queue : List Bytes
  /-- Its teardown has not run. -/
  registered : Bool
  /-- The receiving half exists. -/
  attached : Bool

/-- Where a call stands with the record it works on. -/
inductive Phase where
  | ready
  | waiting (record : Bytes) (route : Forward)
  | reserved (record : Bytes) (route : Forward)
  | budgeted (record : Bytes) (route : Forward)

/-- A running `route`. -/
structure Call where
  source : String
  hash : String
  instance' : String
  lane : Nat
  phase : Phase
  rest : List Bytes

structure System where
  inner : Inner
  budget : Nat
  tasks : Dict Nat Task
  nextTask : Nat
  calls : Dict Nat Call
  nextCall : Nat
  /-- Permits of packets that were taken and are being written. -/
  writing : Nat
  time : Nat

def System.initial : System :=
  ⟨⟨.empty, .empty, none, .empty, 0, 0⟩, maxRelayQueueBudget, .empty, 0, .empty, 0, 0, 0⟩

section Leases

variable (tokenDigest : String → String)

namespace Inner

/-- One round of the loop of `revoke`: the peer stays out for a minute. -/
def retire (inner : Inner) (id : String) (reading : Nat) : Inner :=
  { inner with
    leases := inner.leases.erase id
    connections := inner.connections.erase id
    revoked := inner.revoked.insert id (reading + seconds 60) }

/-- `ids` with the reading of the clock at each of them. -/
def revoke (inner : Inner) (now : Nat) (ids : List (String × Nat)) : Inner :=
  let cleanup := inner.revokedCleanupAt.getD (now + seconds 60)
  ids.foldl (fun inner entry => inner.retire entry.1 entry.2)
    { inner with revokedCleanupAt := some cleanup }

/-- Forget the fences that are over, once a minute. -/
def cleanup (inner : Inner) (now : Nat) : Inner :=
  if inner.revokedCleanupAt.any (· ≤ now) then
    let revoked := inner.revoked.retain fun _ expires => now < expires
    { inner with
      revoked
      revokedCleanupAt := if revoked.entries.isEmpty then none else some (now + seconds 60) }
  else inner

def publish (inner : Inner) (now : Nat) (id hash instance' : String) (ip : Ipv4Addr)
    (allowed : List String) (fresh : String) : Inner × String :=
  let inner := inner.cleanup now
  if (inner.revoked.get? id).any (now < ·) then (inner, "")
  else
    let leases := inner.leases.retain fun _ lease => now < lease.expires
    if maxLeases ≤ leases.len ∧ !leases.contains id then ({ inner with leases }, "")
    else
      let live := (leases.get? id).filter fun lease =>
        now < lease.expires && lease.credentialHash == hash && lease.instance' == instance'
      let relayToken := (live.map Lease.relayToken).getD fresh
      let lease : Lease :=
        ⟨hash, tokenDigest relayToken, relayToken, instance', ip, allowed, now + seconds 15⟩
      ({ inner with leases := leases.insert id lease }, relayToken)

/-- The credentials that open a connection or route a record. -/
def accepts (lease : Lease) (now : Nat) (hash instance' : String) : Bool :=
  now < lease.expires && (lease.hash == hash || lease.credentialHash == hash)
    && lease.instance' == instance'

def authorized (inner : Inner) (now : Nat) (id hash instance' : String) : Bool :=
  (inner.leases.get? id).any fun lease => accepts lease now hash instance'

/-- The lane of the record, the first lane, or any other. -/
def lookup (connections : Dict Nat Connection) (lane choice : Nat) : Option Connection :=
  (connections.get? lane).or ((connections.get? 0).or
    connections.values[choice % connections.len]?)

def routeRecord (inner : Inner) (source hash instance' : String) (lane : Nat) (frame : Bytes)
    (now choice : Nat) : Option Forward :=
  match frame with
  | [] => none
  | length :: rest =>
      let length := length.toNat
      if length = 0 ∨ 60 < length ∨ rest.length < length + 20 ∨ length + 1380 < rest.length then none
      else do
        let target ← fromUtf8 (rest.take length)
        let packet := rest.drop length
        if packet.getD 0 0 >>> 4 ≠ 4
            ∨ (be16 (packet.getD 2 0) (packet.getD 3 0)).toNat ≠ packet.length then none
        else do
          let a ← (inner.leases.get? source).filter fun a =>
            accepts a now hash instance' && a.allowed.contains target
          let b ← (inner.leases.get? target).filter fun b =>
            now < b.expires && b.allowed.contains source
          if (packet.drop 12).take 4 ≠ a.ip.octets ∨ (packet.drop 16).take 4 ≠ b.ip.octets then none
          else do
            let connections ← (inner.connections.get? target).filter fun lanes => 0 < lanes.len
            let connection ← (lookup connections lane choice).filter fun connection =>
              connection.instance' == b.instance'
            return ⟨packet, connection.channel, connection.generation, min a.expires b.expires⟩

/-- The number of connections of all peers. -/
def active (inner : Inner) : Nat := inner.connections.weight Dict.len

/-- The lanes of a peer that a connection of the instance joins. -/
def lanes (inner : Inner) (id instance' : String) : Dict Nat Connection :=
  let channels := (inner.connections.get? id).getD .empty
  if channels.values.any fun connection => connection.instance' != instance' then .empty else channels

/-- The start of `serve` under the lock: the connection that was added. -/
def register (inner : Inner) (now : Nat) (id hash instance' : String) (lane channel : Nat) :
    Option (Inner × Connection) :=
  if !inner.authorized now id hash instance' then none
  else if maxRelayPeers ≤ inner.connections.len ∧ !inner.connections.contains id then none
  else if maxRelayConnections ≤ inner.active
      ∧ !(inner.connections.get? id).any fun peer => peer.contains lane then none
  else
    let generation := (inner.generation + 1) % 2 ^ 64
    let connection : Connection := ⟨instance', generation, channel⟩
    let channels := (inner.lanes id instance').insert lane connection
    some ({ inner with generation, connections := inner.connections.insert id channels }, connection)

/-- The end of `serve`. -/
def teardown (inner : Inner) (id : String) (lane generation : Nat) : Inner :=
  match inner.connections.get? id with
  | none => inner
  | some channels =>
      let channels :=
        if (channels.get? lane).any fun connection => connection.generation == generation then
          channels.erase lane
        else channels
      { inner with
        connections :=
          if channels.entries.isEmpty then inner.connections.erase id
          else inner.connections.insert id channels }

end Inner

end Leases

/-- The record that is queued: the name of the source and the packet. -/
def forwarded (source : String) (packet : Bytes) : Bytes :=
  let name := utf8 source
  UInt8.ofNat name.length :: name ++ packet

inductive Action where
  | publish (elapsed : Nat) (id hash instance' : String) (ip : Ipv4Addr) (allowed : List String)
      (fresh : String)
  | revoke (elapsed : Nat) (ids : List (String × Nat))
  | authorized (elapsed : Nat) (id hash instance' : String)
  | register (elapsed : Nat) (id hash instance' : String) (lane lanes : Nat)
  | teardown (task : Nat)
  | close (task : Nat)
  | take (task : Nat)
  | release
  | start (source hash instance' : String) (lane : Nat) (frame : Bytes)
  | validate (call elapsed choice : Nat)
  | reserve (call : Nat)
  | giveUp (call : Nat)
  | acquire (call : Nat)
  | commit (call elapsed choice : Nat)
  | abort (call : Nat)

inductive Output where
  | none
  | token (token : String)
  | authorized (answer : Bool)
  | registered (task : Nat)
  | taken (packet : Bytes)
  | started (call : Nat) (records : List Bytes)
  | queued (call task : Nat) (record packet : Bytes)

namespace System

/-- Each delay counts from the previous reading. -/
def readings (now : Nat) : List (String × Nat) → List (String × Nat)
  | [] => []
  | (id, delay) :: rest => (id, now + delay) :: readings (now + delay) rest

def tick (system : System) (elapsed : Nat) : System := { system with time := system.time + elapsed }

def setTask (system : System) (number : Nat) (task : Task) : System :=
  { system with tasks := system.tasks.insert number task }

def setCall (system : System) (number : Nat) (call : Call) : System :=
  { system with calls := system.calls.insert number call }

/-- A call goes on with its next record. -/
def skip (system : System) (number : Nat) (call : Call) : System :=
  system.setCall number { call with phase := .ready }

/-- A slot that was reserved is given back. -/
def freeSlot (system : System) (channel : Nat) : System :=
  match system.tasks.get? channel with
  | some task => system.setTask channel { task with free := task.free + 1 }
  | none => system

def drop (system : System) : System :=
  { system with
    inner := { system.inner with droppedPackets := (system.inner.droppedPackets + 1) % 2 ^ 64 } }

/-- The number of slots of a new queue. -/
def capacity (system : System) (lanes : Nat) : Nat :=
  max (relayQueueCapacity (system.inner.active + 1) / lanes) 16

def register (system : System) (id hash instance' : String) (lane lanes : Nat) : System × Output :=
  if lanes = 0 ∨ maxRelayLanes < lanes ∨ lanes ≤ lane then (system, .none)
  else
    match system.inner.register system.time id hash instance' lane system.nextTask with
    | none => (system, .none)
    | some (inner, connection) =>
        ({ system with
            inner
            tasks := system.tasks.insert system.nextTask
              ⟨id, lane, connection.generation, system.capacity lanes, [], true, true⟩
            nextTask := system.nextTask + 1 },
          .registered system.nextTask)

def teardown (system : System) (number : Nat) : System :=
  match system.tasks.get? number with
  | some task =>
      if task.registered then
        { system with
          inner := system.inner.teardown task.peer task.lane task.generation
          tasks := system.tasks.insert number { task with registered := false } }
      else system
  | none => system

/-- The receiver is dropped after the teardown, and its packets with it. -/
def close (system : System) (number : Nat) : System :=
  match system.tasks.get? number with
  | some task =>
      if task.registered then system
      else
        { system with
          budget := system.budget + task.queue.length
          tasks := system.tasks.insert number { task with queue := [], attached := false } }
  | none => system

def take (system : System) (number : Nat) : System × Output :=
  match system.tasks.get? number with
  | some task =>
      match task.queue with
      | packet :: queue =>
          ({ system with
              writing := system.writing + 1
              tasks := system.tasks.insert number { task with queue, free := task.free + 1 } },
            .taken packet)
      | [] => (system, .none)
  | none => (system, .none)

def release (system : System) : System :=
  if system.writing = 0 then system
  else { system with writing := system.writing - 1, budget := system.budget + 1 }

def start (system : System) (source hash instance' : String) (lane : Nat) (frame : Bytes) :
    System × Output :=
  match Mesh.Batch.decode frame with
  | some (.ok records) =>
      ({ system with
          calls := system.calls.insert system.nextCall ⟨source, hash, instance', lane, .ready, records⟩
          nextCall := system.nextCall + 1 },
        .started system.nextCall records)
  | _ => (system, .none)

/-- The first validation of the next record. -/
def validate (system : System) (number : Nat) (choice : Nat) : System :=
  match system.calls.get? number with
  | some call =>
      match call.phase, call.rest with
      | .ready, record :: rest =>
          match system.inner.routeRecord call.source call.hash call.instance' call.lane record
              system.time choice with
          | some route => system.setCall number { call with phase := .waiting record route, rest }
          | none => system.setCall number { call with rest }
      | _, _ => system
  | none => system

/-- A slot in the queue of the target. -/
def reserve (system : System) (number : Nat) : System :=
  match system.calls.get? number with
  | some call =>
      match call.phase with
      | .waiting record route =>
          match system.tasks.get? route.channel with
          | some task =>
              if task.attached && 0 < task.free then
                (system.setTask route.channel { task with free := task.free - 1 }).setCall number
                  { call with phase := .reserved record route }
              else system
          | none => system
      | _ => system
  | none => system

/-- There is no slot: the queue is full or closed, or the deadline passed. -/
def giveUp (system : System) (number : Nat) : System :=
  match system.calls.get? number with
  | some call =>
      match call.phase with
      | .waiting _ _ => (system.skip number call).drop
      | _ => system
  | none => system

/-- A permit of the global budget, without waiting. -/
def acquire (system : System) (number : Nat) : System :=
  match system.calls.get? number with
  | some call =>
      match call.phase with
      | .reserved record route =>
          if system.budget = 0 then ((system.freeSlot route.channel).skip number call).drop
          else
            { system with budget := system.budget - 1 }.setCall number
              { call with phase := .budgeted record route }
      | _ => system
  | none => system

/-- The second validation, and the packet is queued. -/
def commit (system : System) (number : Nat) (choice : Nat) : System × Output :=
  match system.calls.get? number with
  | some call =>
      match call.phase with
      | .budgeted record route =>
          let refused := { (system.freeSlot route.channel).skip number call with
            budget := system.budget + 1 }
          match system.inner.routeRecord call.source call.hash call.instance' call.lane record
              system.time choice with
          | none => (refused, .none)
          | some current =>
              if current.generation ≠ route.generation ∨ current.channel ≠ route.channel then
                (refused, .none)
              else
                match system.tasks.get? route.channel with
                | some task =>
                    let packet := forwarded call.source current.packet
                    if task.attached then
                      ((system.setTask route.channel { task with queue := task.queue ++ [packet] }).skip
                          number call,
                        .queued number route.channel record packet)
                    else
                      -- nobody receives: the packet is dropped with its permit
                      ({ system.skip number call with budget := system.budget + 1 }, .none)
                | none => (refused, .none)
      | _ => (system, .none)
  | none => (system, .none)

/-- A reader that stops drops the call where it waits. -/
def abort (system : System) (number : Nat) : System :=
  match system.calls.get? number with
  | some call =>
      match call.phase with
      | .waiting _ _ | .ready => { system with calls := system.calls.erase number }
      | _ => system
  | none => system

def step (tokenDigest : String → String) (system : System) : Action → System × Output
  | .publish elapsed id hash instance' ip allowed fresh =>
      let system := system.tick elapsed
      let (inner, token) :=
        system.inner.publish tokenDigest system.time id hash instance' ip allowed fresh
      ({ system with inner }, .token token)
  | .revoke elapsed ids =>
      let system := system.tick elapsed
      let ids := readings system.time ids
      ({ system with
          inner := system.inner.revoke system.time ids
          time := (ids.getLast?.map Prod.snd).getD system.time }, .none)
  | .authorized elapsed id hash instance' =>
      let system := system.tick elapsed
      (system, .authorized (system.inner.authorized system.time id hash instance'))
  | .register elapsed id hash instance' lane lanes =>
      (system.tick elapsed).register id hash instance' lane lanes
  | .teardown task => (system.teardown task, .none)
  | .close task => (system.close task, .none)
  | .take task => system.take task
  | .release => (system.release, .none)
  | .start source hash instance' lane frame => system.start source hash instance' lane frame
  | .validate call elapsed choice => ((system.tick elapsed).validate call choice, .none)
  | .reserve call => (system.reserve call, .none)
  | .giveUp call => (system.giveUp call, .none)
  | .acquire call => (system.acquire call, .none)
  | .commit call elapsed choice => (system.tick elapsed).commit call choice
  | .abort call => (system.abort call, .none)

end System

end PortHub.Api.PrivateRelay
