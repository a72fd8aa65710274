import PortHub.Lib.Dict
import PortHub.Lib.Runs

/-! # Enrolling private clients

A peer gets its credential from an install ticket. Tickets come from `enroll`,
which runs under two locks, and from `pending_private_install`, which does not;
`bootstrap` redeems them, and `revoke_peer` and `change_peer` run beside both. Each
database operation is a step of its own and the requests interleave freely. What
other collections answer, and whether a unique index refuses an address or a
name, is part of the input of a step.
-/

namespace PortHub.Api.PrivateEnrollment

/-- A record of `private_peers`. -/
structure Peer where
  workspaceId : String
  machineId : String
  ownerId : String
  enabled : Bool
  credentialHash : Option String
  enrollmentGeneration : Option String
  deriving DecidableEq, Repr

/-- A record of `private_install_tickets`, stored under the digest of the ticket. -/
structure Ticket where
  peerId : String
  createdBy : String
  generation : Option String
  consumedAt : Option Nat
  expiresAt : Nat
  deriving DecidableEq, Repr

/-- The two collections. -/
structure Store where
  peers : Dict String Peer
  tickets : Dict String Ticket

/-- What a step reads outside the two collections. -/
structure Reading where
  now : Nat
  /-- The random value that the step draws, if it needs one. -/
  token : String
  /-- The owner of the machine, when the caller may enroll it now. -/
  enrollable : Option String
  /-- A unique index refuses the address or the name. -/
  duplicate : Bool
  /-- The user is an admin or member of the workspace. -/
  member : String → String → Bool
  /-- The machine of this owner is enabled, kept and not revoked. -/
  machine : String → String → Bool

inductive EnrollStage where
  /-- Waiting for the locks. -/
  | lock
  | machine
  | existing (ownerId : String)
  /-- One round of the loop that saves the peer. -/
  | save (ownerId generation : String) (rounds : Nat)
  /-- Behind a refused save: is the enrollment already completed? -/
  | completed (ownerId generation : String) (rounds : Nat)
  | consume (generation : String)
  | insert (generation ticket : String) (now : Nat)
  | respond (generation ticket : String)
  deriving DecidableEq

inductive PendingStage where
  | peers
  | membership (peerId : String) (peer : Peer)
  | consume (peerId : String) (peer : Peer)
  | insert (peerId : String) (peer : Peer) (ticket : String) (now : Nat)
  deriving DecidableEq

inductive BootstrapStage where
  | claim
  | peer (claim : Ticket)
  | issuer (claim : Ticket) (peer : Peer)
  | owner (claim : Ticket) (peer : Peer)
  | machine (claim : Ticket) (peer : Peer)
  | take (claim : Ticket) (peer : Peer)
  | issue (claim : Ticket) (peer : Peer)
  deriving DecidableEq

inductive RevokeStage where
  | peer
  | tickets
  | signals
  deriving DecidableEq

/-- A request and the operation it does next. -/
inductive Work where
  | enroll (workspaceId machineId userId : String) (stage : EnrollStage)
  | pending (machineId ownerId : String) (stage : PendingStage)
  /-- The digest of the ticket that was presented. -/
  | bootstrap (digest : String) (stage : BootstrapStage)
  /-- A member may revoke only its own peers. -/
  | revoke (peerId workspaceId : String) (ownerId : Option String) (stage : RevokeStage)
  deriving DecidableEq

inductive Output where
  | quiet
  | refused (message : String)
  /-- The peer has a new generation and is enabled. -/
  | generated (peerId generation : String)
  /-- `enroll` returns. -/
  | enrolled (peerId generation ticket : String)
  /-- `pending_private_install` returns. -/
  | pendingInstall (ticket : String)
  /-- `bootstrap` returns the credential for a ticket. -/
  | issued (digest peerId credential : String)
  /-- The credential of the peer is invalid. -/
  | revoking (peerId : String)
  /-- `revoke_peer` returns. -/
  | revoked (peerId : String)
  | switched (peerId : String) (enabled : Bool)
  deriving DecidableEq, Repr

def peerKey (workspaceId machineId : String) : String := workspaceId ++ ":" ++ machineId

namespace Store

/-- `update_many` that consumes the tickets of a peer, those already consumed too
    when `again` is set. -/
def consumeTickets (store : Store) (peerId : String) (again : Bool) (now : Nat) : Store :=
  { store with
    tickets := store.tickets.map fun _ ticket =>
      if ticket.peerId = peerId ∧ (again = true ∨ ticket.consumedAt = none) then
        { ticket with consumedAt := some now }
      else ticket }

/-- The pending peers of a machine. -/
def pendingPeers (store : Store) (machineId ownerId : String) : List (String × Peer) :=
  store.peers.entries.filter fun entry =>
    entry.2.machineId == machineId && entry.2.ownerId == ownerId && entry.2.enabled
      && entry.2.credentialHash.isNone

end Store

def denied : String := "Installer ticket is invalid, expired or already used"

section Steps

variable (digest : String → String)

/-- `enroll` behind its locks, one operation. -/
def enrollStep (workspaceId machineId userId : String) (store : Store) (reading : Reading) :
    EnrollStage → Store × Option EnrollStage × Output
  | .lock => (store, some .lock, .quiet)
  | .machine =>
      match reading.enrollable with
      | none => (store, none, .refused "You cannot enroll this machine")
      | some ownerId => (store, some (.existing ownerId), .quiet)
  | .existing ownerId =>
      if (store.peers.get? (peerKey workspaceId machineId)).any fun peer =>
          peer.credentialHash.isSome then
        (store, none, .refused
          "This machine already has a private client; revoke it before reinstalling")
      else (store, some (.save ownerId reading.token 8), .quiet)
  | .save ownerId generation rounds =>
      match rounds with
      | 0 => (store, none, .refused "Address allocation changed; retry enrollment")
      | rounds + 1 =>
          let id := peerKey workspaceId machineId
          -- the filter does not match a peer with a credential, and inserting it again fails
          if reading.duplicate || (store.peers.get? id).any fun peer => peer.credentialHash.isSome then
            (store, some (.completed ownerId generation rounds), .quiet)
          else
            let peer : Peer :=
              { workspaceId := workspaceId
                machineId := machineId
                ownerId := ownerId
                enabled := true
                credentialHash := none
                enrollmentGeneration := some generation }
            ({ store with peers := store.peers.insert id peer }, some (.consume generation),
              .generated id generation)
  | .completed ownerId generation rounds =>
      if (store.peers.get? (peerKey workspaceId machineId)).any fun peer =>
          peer.credentialHash.isSome then
        (store, none, .refused "Enrollment was already completed")
      else (store, some (.save ownerId generation rounds), .quiet)
  | .consume generation =>
      (store.consumeTickets (peerKey workspaceId machineId) false reading.now,
        some (.insert generation reading.token reading.now), .quiet)
  | .insert generation ticket now =>
      if store.tickets.contains (digest ticket) then (store, none, .refused "duplicate key")
      else
        let claim : Ticket :=
          { peerId := peerKey workspaceId machineId
            createdBy := userId
            generation := some generation
            consumedAt := none
            expiresAt := now + 600000 }
        ({ store with tickets := store.tickets.insert (digest ticket) claim },
          some (.respond generation ticket), .quiet)
  | .respond generation ticket =>
      (store, none, .enrolled (peerKey workspaceId machineId) generation ticket)

/-- `pending_private_install` of an authenticated machine. -/
def pendingStep (machineId ownerId : String) (store : Store) (reading : Reading) :
    PendingStage → Store × Option PendingStage × Output
  | .peers =>
      match store.pendingPeers machineId ownerId with
      | [] => (store, none, .quiet)
      | [(peerId, peer)] => (store, some (.membership peerId peer), .quiet)
      | _ => (store, none, .refused "Choose which pending private workspace to install")
  | .membership peerId peer =>
      if peer.workspaceId = ownerId ∨ reading.member peer.workspaceId ownerId = true then
        (store, some (.consume peerId peer), .quiet)
      else (store, none, .refused "Machine owner no longer belongs to the private workspace")
  | .consume peerId peer =>
      (store.consumeTickets peerId false reading.now,
        some (.insert peerId peer reading.token reading.now), .quiet)
  | .insert peerId peer ticket now =>
      if store.tickets.contains (digest ticket) then (store, none, .refused "duplicate key")
      else
        let claim : Ticket :=
          { peerId := peerId
            createdBy := ownerId
            generation := peer.enrollmentGeneration
            consumedAt := none
            expiresAt := now + 600000 }
        ({ store with tickets := store.tickets.insert (digest ticket) claim }, none,
          .pendingInstall ticket)

/-- `bootstrap`, with the reads of `resolve`. -/
def bootstrapStep (key : String) (store : Store) (reading : Reading) :
    BootstrapStage → Store × Option BootstrapStage × Output
  | .claim =>
      match store.tickets.get? key with
      | some claim =>
          if claim.consumedAt = none ∧ reading.now < claim.expiresAt then
            (store, some (.peer claim), .quiet)
          else (store, none, .refused denied)
      | none => (store, none, .refused denied)
  | .peer claim =>
      match store.peers.get? claim.peerId with
      | some peer =>
          if peer.enabled = true ∧ peer.credentialHash = none ∧
              claim.generation = peer.enrollmentGeneration then
            (store, some (.issuer claim peer), .quiet)
          else (store, none, .refused denied)
      | none => (store, none, .refused denied)
  | .issuer claim peer =>
      if claim.createdBy = peer.workspaceId ∨
          reading.member peer.workspaceId claim.createdBy = true then
        (store, some (.owner claim peer), .quiet)
      else (store, none, .refused denied)
  | .owner claim peer =>
      if peer.ownerId = peer.workspaceId ∨ reading.member peer.workspaceId peer.ownerId = true then
        (store, some (.machine claim peer), .quiet)
      else (store, none, .refused denied)
  | .machine claim peer =>
      if reading.machine peer.machineId peer.ownerId then (store, some (.take claim peer), .quiet)
      else (store, none, .refused denied)
  | .take claim peer =>
      match store.tickets.get? key with
      | some current =>
          if current.consumedAt = none ∧ reading.now < current.expiresAt then
            let taken := { current with consumedAt := some reading.now }
            ({ store with tickets := store.tickets.insert key taken }, some (.issue claim peer), .quiet)
          else (store, none, .refused denied)
      | none => (store, none, .refused denied)
  | .issue claim peer =>
      match store.peers.get? claim.peerId with
      | some current =>
          if current.enabled = true ∧ current.credentialHash = none ∧
              current.enrollmentGeneration = peer.enrollmentGeneration then
            let enrolled := { current with credentialHash := some (digest reading.token) }
            ({ store with peers := store.peers.insert claim.peerId enrolled }, none,
              .issued key claim.peerId reading.token)
          else (store, none, .refused "Enrollment was already completed or superseded")
      | none => (store, none, .refused "Enrollment was already completed or superseded")

def revokeStep (peerId workspaceId : String) (ownerId : Option String) (store : Store)
    (reading : Reading) : RevokeStage → Store × Option RevokeStage × Output
  | .peer =>
      match store.peers.get? peerId with
      | some peer =>
          if peer.workspaceId = workspaceId ∧ ownerId.all (· == peer.ownerId) then
            let revoked := { peer with enabled := false, credentialHash := none }
            ({ store with peers := store.peers.insert peerId revoked }, some .tickets, .revoking peerId)
          else (store, none, .refused "Private peer not found")
      | none => (store, none, .refused "Private peer not found")
  | .tickets => (store.consumeTickets peerId true reading.now, some .signals, .quiet)
  | .signals => (store, none, .revoked peerId)

/-- One operation of a request: the collections, what it does next, its output. -/
def Work.step (store : Store) (reading : Reading) : Work → Store × Option Work × Output
  | .enroll workspaceId machineId userId stage =>
      let (store, next, output) := enrollStep digest workspaceId machineId userId store reading stage
      (store, next.map (.enroll workspaceId machineId userId), output)
  | .pending machineId ownerId stage =>
      let (store, next, output) := pendingStep digest machineId ownerId store reading stage
      (store, next.map (.pending machineId ownerId), output)
  | .bootstrap key stage =>
      let (store, next, output) := bootstrapStep digest key store reading stage
      (store, next.map (.bootstrap key), output)
  | .revoke peerId workspaceId ownerId stage =>
      let (store, next, output) := revokeStep peerId workspaceId ownerId store reading stage
      (store, next.map (.revoke peerId workspaceId ownerId), output)

/-- `change_peer`, a single operation. -/
def changePeer (store : Store) (peerId workspaceId : String) (enabled : Bool) : Store × Output :=
  match store.peers.get? peerId with
  | some peer =>
      if peer.workspaceId = workspaceId then
        let changed := { peer with enabled := enabled }
        ({ store with peers := store.peers.insert peerId changed }, .switched peerId enabled)
      else (store, .refused "Private peer not found")
  | none => (store, .refused "Private peer not found")

end Steps

/-- The server. `drawn` records every random value, which the code never sees. -/
structure Gateway where
  store : Store
  requests : Dict Nat Work
  /-- The enrollment that holds the locks. -/
  locked : Option Nat
  drawn : List String

inductive Event where
  | enroll (id : Nat) (workspaceId machineId userId : String)
  | pending (id : Nat) (machineId ownerId : String)
  | bootstrap (id : Nat) (ticket : String)
  | revoke (id : Nat) (peerId workspaceId : String) (ownerId : Option String)
  | change (peerId workspaceId : String) (enabled : Bool)
  | step (id : Nat) (reading : Reading)
  /-- The request fails, in a read of another collection or an operation that had
      no effect. -/
  | fail (id : Nat)

namespace Gateway

variable (digest : String → String)

def begin_ (gateway : Gateway) (id : Nat) (work : Work) : Gateway × Output :=
  if gateway.requests.contains id then (gateway, .quiet)
  else ({ gateway with requests := gateway.requests.insert id work }, .quiet)

/-- The request ends and gives back the locks it holds. -/
def stop (gateway : Gateway) (id : Nat) : Gateway :=
  { gateway with
    requests := gateway.requests.erase id
    locked := if gateway.locked = some id then none else gateway.locked }

/-- One operation of a request. An enrollment first waits for the locks. -/
def advance (gateway : Gateway) (id : Nat) (reading : Reading) : Gateway × Output :=
  match gateway.requests.get? id with
  | none => (gateway, .quiet)
  | some (.enroll workspaceId machineId userId .lock) =>
      if gateway.locked = none then
        ({ gateway with
            locked := some id
            requests := gateway.requests.insert id (.enroll workspaceId machineId userId .machine) },
          .quiet)
      else (gateway, .quiet)
  | some work =>
      let (store, next, output) := work.step digest gateway.store reading
      let gateway := { gateway with store := store, drawn := reading.token :: gateway.drawn }
      match next with
      | some work => ({ gateway with requests := gateway.requests.insert id work }, output)
      | none => (gateway.stop id, output)

def step (gateway : Gateway) : Event → Gateway × Output
  | .enroll id workspaceId machineId userId =>
      gateway.begin_ id (.enroll workspaceId machineId userId .lock)
  | .pending id machineId ownerId => gateway.begin_ id (.pending machineId ownerId .peers)
  | .bootstrap id ticket => gateway.begin_ id (.bootstrap (digest ticket) .claim)
  | .revoke id peerId workspaceId ownerId =>
      gateway.begin_ id (.revoke peerId workspaceId ownerId .peer)
  | .change peerId workspaceId enabled =>
      let (store, output) := changePeer gateway.store peerId workspaceId enabled
      ({ gateway with store := store }, output)
  | .step id reading => gateway.advance digest id reading
  | .fail id => (gateway.stop id, .quiet)

end Gateway

end PortHub.Api.PrivateEnrollment
