import PortHub.Lib.Dict
import PortHub.Lib.Runs
import PortHub.Rust

/-! # Private stream connections

An `Endpoint` keeps the trusted peers by address and, under each address, the
connections registered for it. Both maps change only in the locked section of an
operation, so every operation is one step. A connection carries what the
transport reports about it; whether it is closed is part of the state, because
it may close at any time on its own.
-/

namespace PortHub.Mesh.Streams

abbrev Bytes := List UInt8

def maxPeers : Nat := 4096

def maxConnections : Nat := 512

def maxConnectionsPerPeer : Nat := 8

structure Peer where
  id : String
  ip : Ipv4Addr
  fingerprint : List Char
  instanceId : String
  deriving DecidableEq, Repr

/-- The remote address when it is an IPv4 one, and the peer certificates when
    the transport has them. -/
structure Connection where
  id : Nat
  remoteAddress : Option Ipv4Addr
  peerIdentity : Option (List Bytes)
  deriving DecidableEq, Repr

structure Endpoint where
  localAddress : Ipv4Addr
  identity : List Char
  peers : Dict Ipv4Addr Peer
  connections : Dict Ipv4Addr (List Connection)
  nextConnection : UInt64
  closed : List Nat

/-- The text of a digest: colon-separated bytes. -/
def formatted (digest : Bytes) : List Char := List.intercalate [':'] (digest.map Hex.upper)

def fingerprint (sha256 : Bytes → Bytes) (der : Bytes) : List Char := formatted (sha256 der)

def pinParts : List (List Char) → Result Bytes
  | [] => .ok []
  | part :: rest => do
      ensure (Text.byteLen part == 2) "invalid enrolled certificate fingerprint"
      match Hex.readByte part with
      | none => .error "invalid enrolled certificate fingerprint"
      | some byte => return byte :: (← pinParts rest)

/-- `pin`: the 32 bytes of a fingerprint. -/
def pin (value : List Char) : Result Bytes := do
  let parts := value.splitOn ':'
  ensure (parts.length == 32) "invalid enrolled certificate fingerprint"
  pinParts parts

/-- The peers an update has accepted so far. -/
structure Admitted where
  next : Dict Ipv4Addr Peer
  ids : List String
  fingerprints : List Bytes

namespace Endpoint

/-- An endpoint without peers, as `Endpoint::new` leaves it. -/
def new (localAddress : Ipv4Addr) (identity : List Char) : Endpoint where
  localAddress := localAddress
  identity := identity
  peers := .empty
  connections := .empty
  nextConnection := 0
  closed := []

/-- `close_reason().is_none()`. -/
def isOpen (endpoint : Endpoint) (connection : Connection) : Bool :=
  !endpoint.closed.contains connection.id

def admitPeer (endpoint : Endpoint) (admitted : Admitted) (peer : Peer) : Result Admitted := do
  ensure (peer.ip.isPrivate && peer.ip != endpoint.localAddress && !peer.id.isEmpty
    && decide (peer.id.utf8ByteSize ≤ 60) && !peer.instanceId.isEmpty
    && decide (peer.instanceId.utf8ByteSize ≤ 64)) "invalid private stream peer"
  let hash ← pin peer.fingerprint
  let peer := { peer with fingerprint := peer.fingerprint.map Char.toUpper }
  ensure (peer.fingerprint != endpoint.identity && !admitted.ids.contains peer.id
    && !admitted.fingerprints.contains hash) "ambiguous private stream identity"
  ensure (!admitted.next.contains peer.ip) "ambiguous private stream peer address"
  return ⟨admitted.next.insert peer.ip peer, peer.id :: admitted.ids, hash :: admitted.fingerprints⟩

def admitPeers (endpoint : Endpoint) : List Peer → Admitted → Result (Dict Ipv4Addr Peer)
  | [], admitted => .ok admitted.next
  | peer :: rest, admitted => do admitPeers endpoint rest (← endpoint.admitPeer admitted peer)

/-- Keep some connections and drop the addresses left without any. -/
def retainConnections (keep : Ipv4Addr → Connection → Bool)
    (connections : Dict Ipv4Addr (List Connection)) : Dict Ipv4Addr (List Connection) :=
  connections.filterMap fun ip stored =>
    let kept := stored.filter (keep ip)
    if kept.isEmpty then none else some kept

/-- The end of `update_peers`: connections of changed addresses are closed and
    dropped, then the new peers are trusted. -/
def trust (endpoint : Endpoint) (next : Dict Ipv4Addr Peer) : Endpoint :=
  let allowed := fun ip => endpoint.peers.get? ip == next.get? ip
  let revoked := endpoint.connections.entries.flatMap fun (ip, stored) =>
    if allowed ip then [] else stored.map Connection.id
  { endpoint with
    connections := retainConnections
      (fun ip connection => endpoint.isOpen connection && allowed ip) endpoint.connections
    closed := revoked ++ endpoint.closed
    peers := next }

def updatePeers (endpoint : Endpoint) (peers : List Peer) : Endpoint × Result Unit :=
  if peers.length ≤ maxPeers then
    match endpoint.admitPeers peers ⟨.empty, [], []⟩ with
    | .error message => (endpoint, .error message)
    | .ok next => (endpoint.trust next, .ok ())
  else (endpoint, .error "too many private stream peers")

/-- The checks of `register`, before the connection map is locked. -/
def authenticate (sha256 : Bytes → Bytes) (endpoint : Endpoint) (connection : Connection)
    (expected : Option Peer) : Result (Ipv4Addr × Peer) :=
  match connection.remoteAddress with
  | none => .error "invalid private stream address"
  | some ip =>
      match endpoint.peers.get? ip with
      | none => .error "private stream peer revoked"
      | some peer => do
          ensure (expected.all fun expected => expected == peer)
            "private stream peer changed during handshake"
          match connection.peerIdentity with
          | none => .error "private stream certificate unavailable"
          | some certificates =>
              ensure (certificates.head?.any fun certificate =>
                fingerprint sha256 certificate == peer.fingerprint)
                "private stream peer identity mismatch"
              return (ip, peer)

def connectionTotal (connections : Dict Ipv4Addr (List Connection)) : Nat :=
  connections.weight List.length

def register (sha256 : Bytes → Bytes) (endpoint : Endpoint) (connection : Connection)
    (expected : Option Peer) : Endpoint × Result (Peer × Connection) :=
  match endpoint.authenticate sha256 connection expected with
  | .error message => (endpoint, .error message)
  | .ok (ip, peer) =>
      let endpoint := { endpoint with
        connections := retainConnections (fun _ => endpoint.isOpen) endpoint.connections }
      if connectionTotal endpoint.connections < maxConnections * maxConnectionsPerPeer then
        let stored := (endpoint.connections.get? ip).getD []
        if maxConnectionsPerPeer ≤ stored.length then
          ({ endpoint with closed := connection.id :: endpoint.closed },
            .error "private stream connection limit reached")
        else
          ({ endpoint with connections := endpoint.connections.insert ip (stored ++ [connection]) },
            .ok (peer, connection))
      else (endpoint, .error "private stream connection limit reached")

/-- The open connections of an expected peer; closed ones are dropped. -/
def openConnections (endpoint : Endpoint) (expected : Peer) : Endpoint × List Connection :=
  if endpoint.peers.get? expected.ip ≠ some expected then (endpoint, [])
  else
    match endpoint.connections.get? expected.ip with
    | none => (endpoint, [])
    | some stored =>
        let kept := stored.filter endpoint.isOpen
        if kept.isEmpty then
          ({ endpoint with connections := endpoint.connections.erase expected.ip }, [])
        else ({ endpoint with connections := endpoint.connections.insert expected.ip kept }, kept)

def prepared (endpoint : Endpoint) (expected : Peer) : Endpoint × Option Connection :=
  match endpoint.openConnections expected with
  | (endpoint, []) => (endpoint, none)
  | (endpoint, kept) =>
      ({ endpoint with nextConnection := endpoint.nextConnection + 1 },
        kept[endpoint.nextConnection.toNat % kept.length]?)

def connectionCount (endpoint : Endpoint) (expected : Peer) : Endpoint × Nat :=
  let (endpoint, kept) := endpoint.openConnections expected
  (endpoint, kept.length)

/-- `connection_stats`; the statistics of a connection are a parameter. -/
def connectionStats {Stats : Type} (stats : Connection → Stats) (endpoint : Endpoint)
    (expected : Peer) : Endpoint × List Stats :=
  let (endpoint, kept) := endpoint.openConnections expected
  (endpoint, kept.map stats)

end Endpoint

end PortHub.Mesh.Streams
