import PortHub.Mesh.DnsPolicy
import PortHub.Network.Tracking

/-! # Lease-bound private policies

An `Engine` holds the last accepted snapshot, the addresses it binds, the
deadline of its lease and two flow tables: one for private conversations, one
for exit traffic. `apply` validates a whole snapshot before it touches anything;
any failure revokes the lease.
-/

namespace PortHub.Network

structure PeerInfo where
  id : String
  ip : Ipv4Addr
  fingerprint : String
  instanceId : String
  streamTransport : String
  hostname : List Char
  aliases : List (List Char)
  deriving DecidableEq, Repr

structure Port where
  start : UInt16
  stop : UInt16
  deriving DecidableEq, Repr

structure Grant where
  source : String
  destination : String
  protocol : String
  ports : List Port
  deriving DecidableEq, Repr

inductive TrafficMode where
  | all
  | internetOnly
  | lanOnly
  deriving DecidableEq, Repr

namespace TrafficMode

def internet (mode : TrafficMode) : Bool := mode != .lanOnly

def lan (mode : TrafficMode) : Bool := mode != .internetOnly

def permits (mode : TrafficMode) (destination : Ipv4Addr) : Bool :=
  if destination.isPrivate then mode.lan else mode.internet

end TrafficMode

structure ExitRoute where
  id : String
  routingPeers : List String
  torEnabled : Bool
  torCircuitGroups : Nat
  clients : List String
  trafficMode : TrafficMode
  deriving DecidableEq, Repr

/-- A published policy. `expiresAt` is wall-clock time in nanoseconds. -/
structure Snapshot where
  workspace : String
  self_ : String
  revision : Nat
  expiresAt : Int
  peers : List PeerInfo
  dnsSuffixes : List (List Char)
  grants : List Grant
  exitRoutes : List ExitRoute
  dnsRules : List Mesh.DnsPolicy.Rule
  deriving DecidableEq, Repr

/-- The three clock readings of `apply`: wall clock, deadline and flow expiry. -/
structure ApplyClock where
  utc : Int
  lease : Nat
  flows : Nat
  deriving DecidableEq, Repr

structure Engine where
  snapshot : Option Snapshot
  ips : Dict String Ipv4Addr
  flows : Flows
  exitFlows : Flows
  deadline : Option Nat

/-- `to_std` of the time left: negative durations have none. -/
def leaseRemaining (snapshot : Snapshot) (utc : Int) : Result Nat :=
  if snapshot.expiresAt - utc < 0 then
    .error "private policy lease expired; check host clock synchronization and gateway connectivity"
  else .ok (snapshot.expiresAt - utc).toNat

/-- The peer loop: every id and every address is bound once. -/
def bindPeers : List PeerInfo → Dict String Ipv4Addr → List Ipv4Addr →
    Result (Dict String Ipv4Addr)
  | [], ips, _ => .ok ips
  | peer :: rest, ips, addresses => do
      ensure (peer.ip.isPrivate && !peer.id.isEmpty && !addresses.contains peer.ip
        && !ips.contains peer.id) "invalid private peer address binding"
      bindPeers rest (ips.insert peer.id peer.ip) (peer.ip :: addresses)

/-- Every member is a bound peer and not yet in the set it joins. -/
def joinMembers (ips : Dict String Ipv4Addr) (message : String) :
    List String → List String → Result (List String)
  | [], joined => .ok joined
  | id :: rest, joined => do
      ensure (ips.contains id && !joined.contains id) message
      joinMembers ips message rest (id :: joined)

structure RouteSets where
  ids : List String
  clients : List String
  peers : List String

def checkRoute (ips : Dict String Ipv4Addr) (sets : RouteSets) (route : ExitRoute) :
    Result RouteSets := do
  ensure (!route.id.isEmpty && !sets.ids.contains route.id
    && (!route.routingPeers.isEmpty || route.torEnabled) && !route.clients.isEmpty
    && (route.trafficMode.internet || (!route.routingPeers.isEmpty && !route.torEnabled))
    && decide (1 ≤ route.torCircuitGroups ∧ route.torCircuitGroups ≤ 16)
    && decide (route.routingPeers.length ≤ 4096) && decide (route.clients.length ≤ 4096))
    "invalid exit route"
  let unique ← joinMembers ips "invalid exit peer" route.routingPeers []
  let clients ← joinMembers ips "ambiguous exit assignment" route.clients sets.clients
  return { ids := route.id :: sets.ids, clients := clients, peers := unique ++ sets.peers }

def checkRoutes (ips : Dict String Ipv4Addr) : List ExitRoute → RouteSets → Result RouteSets
  | [], sets => .ok sets
  | route :: rest, sets => do checkRoutes ips rest (← checkRoute ips sets route)

def checkGrant (ips : Dict String Ipv4Addr) (grant : Grant) : Result Unit := do
  ensure (ips.contains grant.source && ips.contains grant.destination
    && ["tcp", "udp", "icmp", "any"].contains grant.protocol) "invalid private grant"
  ensure (grant.ports.isEmpty || ["tcp", "udp"].contains grant.protocol)
    "invalid private port restrictions"
  ensure (grant.ports.all fun port => decide (0 < port.start) && decide (port.start ≤ port.stop))
    "invalid private port range"

def checkGrants (ips : Dict String Ipv4Addr) : List Grant → Result Unit
  | [] => .ok ()
  | grant :: rest => do
      checkGrant ips grant
      checkGrants ips rest

/-- Addresses of peers that an update removes, renumbers or re-identifies, with
    the new address of those that stay. -/
def changedAddresses (old new : Snapshot) : List Ipv4Addr :=
  old.peers.flatMap fun peer =>
    match new.peers.reverse.find? (fun next => next.id == peer.id) with
    | none => [peer.ip]
    | some next =>
        if next.ip != peer.ip || next.instanceId != peer.instanceId
            || next.fingerprint != peer.fingerprint then
          [peer.ip, next.ip]
        else []

def exitTarget (ip : Ipv4Addr) (blockLan : Bool) : Bool :=
  !ip.isUnspecified && !ip.isLoopback && !ip.isLinkLocal && !ip.isMulticast && !ip.isBroadcast
    && ip.a != 0 && decide (ip.a < 240)
    && !(ip.a == 100 && decide (64 ≤ ip.b) && decide (ip.b ≤ 127)) && !(blockLan && ip.isPrivate)

def protocolName (protocol : UInt8) : Option String :=
  if protocol = 6 then some "tcp"
  else if protocol = 17 then some "udp"
  else if protocol = 1 then some "icmp"
  else none

def Port.admits (port : Port) (dport : UInt16) : Bool :=
  decide (port.start ≤ dport) && decide (dport ≤ port.stop)

namespace Engine

/-- `Engine::default()`. -/
def default : Engine where
  snapshot := none
  ips := .empty
  flows := .empty
  exitFlows := .empty
  deadline := none

def revoke (engine : Engine) : Engine :=
  { engine with deadline := none, flows := .empty, exitFlows := .empty }

def allowed (engine : Engine) (packet : Packet) : Bool :=
  match engine.snapshot, protocolName packet.key.protocol with
  | some snapshot, some protocol =>
      snapshot.grants.any fun grant =>
        engine.ips.get? grant.source == some packet.key.src
          && engine.ips.get? grant.destination == some packet.key.dst
          && (grant.protocol == "any" || grant.protocol == protocol)
          && (grant.ports.isEmpty || grant.ports.any fun port => port.admits packet.key.dport)
  | _, _ => false

/-- What one exit route says: nothing when it is not between the two peers,
    otherwise whether the packet is a request and whether the client is local. -/
def routePermits (engine : Engine) (snapshot : Snapshot) (packet : Packet) (remote : String)
    (route : ExitRoute) : Option (Option (Bool × Bool)) :=
  let localIsClient := route.clients.contains snapshot.self_ && route.routingPeers.contains remote
  let localIsExit := route.routingPeers.contains snapshot.self_ && route.clients.contains remote
  if !localIsClient && !localIsExit then none
  else
    match engine.ips.get? (if localIsClient then snapshot.self_ else remote) with
    | none => some none
    | some clientIp =>
        let request := packet.source == clientIp
        if !request && packet.destination != clientIp then some none
        else
          let target := if request then packet.destination else packet.source
          if engine.ips.values.contains target || !route.trafficMode.permits target
              || !exitTarget target false then
            some none
          else some (some (request, localIsClient))

def exitPermitted (engine : Engine) (packet : Packet) (remote : String) : Option (Bool × Bool) :=
  match engine.snapshot with
  | none => none
  | some snapshot =>
      (snapshot.exitRoutes.findSome? (engine.routePermits snapshot packet remote)).join

/-- Every check of `apply`, before any change: the lease time and the bindings. -/
def validate (engine : Engine) (snapshot : Snapshot) (utc : Int) :
    Result (Nat × Dict String Ipv4Addr) := do
  let remaining ← leaseRemaining snapshot utc
  ensure (remaining != 0 && decide (remaining ≤ seconds 60) && decide (0 < snapshot.revision))
    "invalid private policy lease"
  ensure (engine.snapshot.all fun old => snapshot.workspace == old.workspace
    && snapshot.self_ == old.self_ && decide (old.revision ≤ snapshot.revision))
    "private identity or policy revision changed"
  ensure (decide (snapshot.peers.length ≤ 4096) && decide (snapshot.grants.length ≤ 65536))
    "private policy exceeds size limit"
  let ips ← bindPeers snapshot.peers .empty []
  ensure (ips.contains snapshot.self_) "private policy omits local identity"
  ensure (decide (snapshot.exitRoutes.length ≤ 256)) "too many exit routes"
  let sets ← checkRoutes ips snapshot.exitRoutes ⟨[], [], []⟩
  ensure (sets.peers.all fun peer => !sets.clients.contains peer)
    "recursive exit routing is not supported"
  checkGrants ips snapshot.grants
  return (remaining, ips)

/-- Entries of both tables that involve no changed peer. -/
def dropChanged (engine : Engine) (snapshot : Snapshot) : Engine :=
  match engine.snapshot with
  | none => engine
  | some old =>
      let changed := changedAddresses old snapshot
      { engine with
        exitFlows := engine.exitFlows.retain fun key flow =>
          !changed.contains key.src && !changed.contains key.dst
            && (engine.ips.get? flow.remote).all fun ip => !changed.contains ip
        flows := engine.flows.retain fun key _ =>
          !changed.contains key.src && !changed.contains key.dst }

/-- The successful end of `apply`: entries are filtered again, now by the new
    policy. -/
def install (engine : Engine) (snapshot : Snapshot) (remaining : Nat)
    (ips : Dict String Ipv4Addr) (clock : ApplyClock) : Engine :=
  let engine := engine.dropChanged snapshot
  let engine :=
    { engine with ips := ips, snapshot := some snapshot, deadline := some (clock.lease + remaining) }
  { engine with
    flows := engine.flows.retain fun _ flow =>
      decide (clock.flows < flow.expires) && engine.allowed flow.opening
    exitFlows := engine.exitFlows.retain fun _ flow =>
      decide (clock.flows < flow.expires) && (engine.exitPermitted flow.opening flow.remote).isSome }

def apply (engine : Engine) (snapshot : Snapshot) (clock : ApplyClock) : Engine × Result Unit :=
  match engine.validate snapshot clock.utc with
  | .error message => (engine.revoke, .error message)
  | .ok (remaining, ips) => (engine.install snapshot remaining ips clock, .ok ())

def check (engine : Engine) (bytes : List UInt8) (remote : String) (inbound : Bool) (now : Nat) :
    Engine × Bool :=
  match Packet.parse bytes with
  | none => (engine, false)
  | some packet =>
      if engine.deadline.all (· ≤ now) then ({ engine with flows := .empty }, false)
      else
        match engine.snapshot with
        | none => (engine, false)
        | some snapshot =>
            let source := if inbound then remote else snapshot.self_
            let destination := if inbound then snapshot.self_ else remote
            if engine.ips.get? source ≠ some packet.key.src
                ∨ engine.ips.get? destination ≠ some packet.key.dst then
              (engine, false)
            else
              let (flows, accepted) :=
                trackPacket engine.flows packet "" (engine.allowed packet) now
              ({ engine with flows := flows }, accepted)

def checkExit (engine : Engine) (bytes : List UInt8) (remote : String) (inbound : Bool)
    (now : Nat) : Engine × Bool :=
  if engine.deadline.all (· ≤ now) then ({ engine with exitFlows := .empty }, false)
  else if !(engine.snapshot.any fun snapshot => snapshot.peers.any fun peer =>
      peer.id == remote && !peer.fingerprint.isEmpty && !peer.instanceId.isEmpty) then
    (engine, false)
  else
    match Packet.parse bytes with
    | none => (engine, false)
    | some packet =>
        match engine.exitPermitted packet remote with
        | none => (engine, false)
        | some (request, localIsClient) =>
            if request != (inbound != localIsClient) then (engine, false)
            else
              let (flows, accepted) := trackPacket engine.exitFlows packet remote request now
              ({ engine with exitFlows := flows }, accepted)

end Engine

end PortHub.Network
