import PortHub.Terminal.HubViewers

/-! # Terminal sessions of the gateway

A session lives in the database, in the hub of the running process, and, once it
was ended, in a journal of markers. Registrations, ends, rotations and
revocations hold `terminal_lifecycle`, so that at most one of them is under way;
everything else interleaves with their steps. A database operation whose future
was dropped may still take effect at any later time, also after the process is
gone. Blocking jobs on the journal go on when the task that waits for them is
aborted.
-/

namespace PortHub.Api.TerminalSessions

open PortHub.Terminal

/-! ## The database -/

/-- A document of `terminal_sessions`. An upserted one has a state only. -/
structure Record where
  machineId : String
  secretHash : String
  writeHash : String
  readHash : String
  options : Option Options
  /-- The state is `active`, not `ended`. -/
  active : Bool
  invitationRevision : Option Nat
  invitationWriteHash : String
  invitationReadHash : String
  invitationExpiresAt : Option Int
  invitationsRevoked : Bool
deriving DecidableEq

/-- The record of a session that was ended before it was stored. -/
def Record.upserted : Record := ⟨"", "", "", "", none, false, none, "", "", none, false⟩

/-- The current revision; zero are the invitations the session started with. -/
def Record.revision (record : Record) : Nat := record.invitationRevision.getD 0

/-- What a rotation stores. -/
structure Rotation where
  revision : Nat
  writeHash : String
  readHash : String
  expiresAt : Int
deriving DecidableEq

def Record.rotate (record : Record) (rotation : Rotation) : Record :=
  { record with
    invitationRevision := some rotation.revision
    invitationWriteHash := rotation.writeHash
    invitationReadHash := rotation.readHash
    invitationExpiresAt := some rotation.expiresAt
    invitationsRevoked := false }

/-- The operations that change `terminal_sessions`. -/
inductive Write where
  | insert (id : String) (record : Record)
  | finish (id : String)
  | rotate (id : String) (current : Nat) (rotation : Rotation)
  | revoke (id : String)
deriving DecidableEq

abbrev Database := Dict String Record

/-- One operation, with the number of documents it matched or inserted. -/
def Write.apply (db : Database) : Write → Database × Nat
  | .insert id record => if db.contains id then (db, 0) else (db.insert id record, 1)
  | .finish id =>
      match db.get? id with
      | none => (db.insert id .upserted, 1)
      | some record => (db.insert id { record with active := false }, 1)
  | .rotate id current rotation =>
      match db.get? id with
      | none => (db, 0)
      | some record =>
          if record.active ∧
              (record.invitationRevision = some current ∨ record.invitationRevision = none) then
            (db.insert id (record.rotate rotation), 1)
          else (db, 0)
  | .revoke id =>
      match db.get? id with
      | none => (db, 0)
      | some record =>
          if record.active then (db.insert id { record with invitationsRevoked := true }, 1)
          else (db, 0)

/-- An operation whose future was dropped. It is overtaken once a registration
    of its session has read the record. -/
structure Late where
  write : Write
  overtaken : Bool

/-! ## Work that holds `terminal_lifecycle` -/

inductive RegisterStage where
  | start
  | admitted
  | cleared
  | found (record : Option Record)
  | inserting (record : Record)
  | ready (revoked : Bool) (persisted : Option PersistedInvitations)

/-- `finish`, and `reconcile_ends` from `recorded` on. -/
inductive FinishStage where
  | start
  | recording (job : Nat)
  | recorded
  | granting
  | updating
  | updated
  | removing (job : Nat)

inductive RotateStage where
  | start
  | finding
  | found (record : Option Record)
  | updating (current : Nat)
  | matched

inductive RevokeStage where
  | start
  | updating
  | matched (revision : Nat)

inductive Work where
  | register (machine : String) (hello : HostHello) (stage : RegisterStage)
  | finish (id reason : String) (stage : FinishStage)
  | rotate (host : Nat) (update : InvitationUpdate) (stage : RotateStage)
  | revoke (id : String) (host : Option Nat) (stage : RevokeStage)

/-- A job on the journal. Recording creates the marker and then syncs it. -/
inductive JobStage where
  | queued
  | created
  | done (ok : Bool)
deriving DecidableEq

structure Job where
  records : Bool
  id : String
  stage : JobStage

/-- The connection of a registered host. It takes one message at a time and is
    closed for good by the first failure. -/
structure Host where
  id : String
  number : Nat
  generation : UInt64
  isOpen : Bool

structure Gateway where
  sessions : Database
  late : Dict Nat Late
  /-- The journal, with whether a marker was synced. -/
  markers : Dict String Bool
  hub : Hub.System
  /-- `terminal_admission_fault`. -/
  fault : Bool
  current : Option Work
  jobs : Dict Nat Job
  hosts : Dict Nat Host
  /-- What `reconcile_ends` read from the journal. -/
  pending : List String

def Gateway.new : Gateway := ⟨.empty, .empty, .empty, .new, false, none, .empty, .empty, []⟩

/-- What a step reads: the clock, what the hub reads, and the number for a job
    that is spawned or a host that is connected. -/
structure Reading where
  now : Nat → Int
  call : Hub.Call
  fresh : Nat

inductive Event where
  | register (machine : String) (hello : HostHello)
  | finish (id reason : String)
  | scan (ids : List String)
  | reconcile (id : String)
  | rotate (host : Nat) (update : InvitationUpdate)
  | revoke (id : String) (host : Option Nat)
  | advance (reading : Reading)
  | fail
  | drop (ticket : Nat)
  | work (job : Nat) (ok : Bool)
  | land (ticket : Nat)
  | hub (op : Hub.Op) (call : Hub.Call)
  | close (host : Nat)
  | crash (ticket : Nat) (keep : List String)

inductive Output where
  | done
  | failed
  | answered (answer : Hub.Answer)
  | registered (id : String)
  | recorded (id : String)
  | recordFailed (id : String)
  | removed (id : String)
  | rotated (id : String) (revision : Nat) (revoked : Bool)
  | revoked (id : String) (revision : Nat)
  | crashed
deriving DecidableEq

section Register

variable (digest : String → String)

/-- The record that a first registration stores. -/
def newRecord (machine : String) (hello : HostHello) : Record :=
  ⟨machine, digest hello.secret, digest hello.writeToken, digest hello.readToken,
    some hello.options, true, none, "", "", none, false⟩

/-- The invitations that a record holds besides the first ones. -/
def Record.persisted (record : Record) : Result (Option PersistedInvitations) :=
  match record.invitationRevision with
  | none => .ok none
  | some 0 => .ok none
  | some revision =>
      match record.invitationExpiresAt with
      | none => .error "invalid invitation state"
      | some expiresAt =>
          let state : PersistedInvitations := ⟨revision, record.invitationWriteHash,
            record.invitationReadHash, expiresAt, record.invitationsRevoked⟩
          match state.validate with
          | .ok () => .ok (some state)
          | .error _ => .error "invalid invitation state"

/-- The checks of `register` on the record of a session that is known. -/
def Record.admits (record : Record) (machine : String) (hello : HostHello) :
    Result (Option PersistedInvitations) := do
  let persisted ← record.persisted
  match record.options with
  | none => throw "terminal state unavailable"
  | some options =>
      ensure (record.machineId == machine && record.secretHash == digest hello.secret
        && record.writeHash == digest hello.writeToken
        && record.readHash == digest hello.readToken && record.active
        && decide (options = hello.options)) "terminal session expired or revoked"
      return persisted

end Register

section Rotate

variable (digest : String → String)

/-- What `persist_invitation_rotation` makes of the record it found: an answer
    to a retry, or the revision that the update is conditional on. -/
inductive Decision where
  | refused (message : String)
  | repeated (revoked : Bool)
  | replace (current : Nat)

def rotation (update : InvitationUpdate) : Rotation :=
  ⟨update.revision, digest update.writeToken, digest update.readToken, update.expiresAt⟩

def Record.decide (record : Option Record) (update : InvitationUpdate) (now : Int) : Decision :=
  match record with
  | none => .refused "terminal session unavailable"
  | some record =>
      if record.active then
        let current := record.revision
        if update.revision < 2 ^ 63 then
          if update.revision = current ∧ 0 < current then
            if record.invitationWriteHash = digest update.writeToken
                ∧ record.invitationReadHash = digest update.readToken
                ∧ record.invitationExpiresAt = some update.expiresAt then
              .repeated record.invitationsRevoked
            else .refused "invitation revision conflicts"
          else
            match update.validate now with
            | .error _ => .refused "invalid replacement invitations"
            | .ok () =>
                if update.revision = min (current + 1) (2 ^ 63 - 1) then .replace current
                else .refused "stale invitation revision"
        else .refused "invalid invitation revision"
      else .refused "terminal session unavailable"

end Rotate

namespace Gateway

variable (digest : String → String) (parse : String → Option Description)

/-- The operation that the current work waits for. -/
def awaited : Option Work → Option Write
  | some (.register _ hello (.inserting record)) => some (.insert hello.id record)
  | some (.finish id _ .updating) => some (.finish id)
  | some (.revoke id _ .updating) => some (.revoke id)
  | _ => none

/-- The operation of a rotation needs the host's session. -/
def inFlight (gateway : Gateway) : Option Write :=
  match gateway.current with
  | some (.rotate host update (.updating current)) =>
      (gateway.hosts.get? host).map fun host =>
        .rotate host.id current (rotation digest update)
  | current => awaited current

/-- The current work ends; its operation may take effect later. -/
def dropped (gateway : Gateway) (ticket : Nat) : Gateway :=
  match gateway.inFlight digest with
  | none => { gateway with current := none }
  | some write =>
      if gateway.late.contains ticket then gateway
      else { gateway with current := none, late := gateway.late.insert ticket ⟨write, false⟩ }

def stop (gateway : Gateway) : Gateway := { gateway with current := none }

def go (gateway : Gateway) (work : Work) : Gateway := { gateway with current := some work }

/-- A registration reads the record of its session. -/
def read (gateway : Gateway) (id : String) : Gateway :=
  { gateway with
    late := gateway.late.map fun _ late =>
      match late.write with
      | .rotate target _ _ => if target = id then { late with overtaken := true } else late
      | _ => late }

/-- One step of a registration. -/
def register (gateway : Gateway) (machine : String) (hello : HostHello) (reading : Reading) :
    RegisterStage → Gateway × Output
  | .start =>
      match hello.validate (reading.now 0) with
      | .error _ => (gateway.stop, .failed)
      | .ok () =>
          if gateway.fault then (gateway.stop, .failed)
          else (gateway.go (.register machine hello .admitted), .done)
  | .admitted =>
      if gateway.markers.contains hello.id then (gateway.stop, .failed)
      else (gateway.go (.register machine hello .cleared), .done)
  | .cleared =>
      ((gateway.read hello.id).go
        (.register machine hello (.found (gateway.sessions.get? hello.id))), .done)
  | .found (some record) =>
      match record.admits digest machine hello with
      | .error _ => (gateway.stop, .failed)
      | .ok persisted =>
          (gateway.go (.register machine hello (.ready record.invitationsRevoked persisted)), .done)
  | .found none =>
      if hello.options.expiresAt ≠ 0 ∧ hello.options.expiresAt ≤ reading.now 0 then
        (gateway.stop, .failed)
      else (gateway.go (.register machine hello (.inserting (newRecord digest machine hello))), .done)
  | .inserting record =>
      match Write.apply gateway.sessions (.insert hello.id record) with
      | (_, 0) => (gateway.stop, .failed)
      | (sessions, _) =>
          ({ gateway with sessions }.go (.register machine hello (.ready false none)), .done)
  | .ready revoked persisted =>
      match gateway.hub.step digest parse
          (.register machine hello (reading.now 0) revoked persisted, reading.call) with
      | (hub, .lease number generation) =>
          let hosts := gateway.hosts.insert reading.fresh ⟨hello.id, number, generation, true⟩
          ({ gateway with hub, hosts, current := none }, .registered hello.id)
      | (hub, _) => ({ gateway with hub, current := none }, .failed)

/-- A job is handed to the blocking pool. -/
def spawn (gateway : Gateway) (number : Nat) (job : Job) (work : Work) : Gateway × Output :=
  if gateway.jobs.contains number then (gateway, .failed)
  else ({ gateway with jobs := gateway.jobs.insert number job, current := some work }, .done)

/-- One step of `finish`. -/
def finish (gateway : Gateway) (id reason : String) (reading : Reading) :
    FinishStage → Gateway × Output
  | .start =>
      gateway.spawn reading.fresh ⟨true, id, .queued⟩ (.finish id reason (.recording reading.fresh))
  | .recording job =>
      match gateway.jobs.get? job with
      | some ⟨_, _, .done true⟩ => (gateway.go (.finish id reason .recorded), .done)
      | some ⟨_, _, .done false⟩ =>
          -- no more admissions when an end cannot be recorded
          ({ gateway with fault := true }.go (.finish id reason .recorded), .done)
      | _ => (gateway, .failed)
  | .recorded =>
      let (hub, _) := gateway.hub.step digest parse (.remove id reason true, reading.call)
      ({ gateway with hub }.go (.finish id reason .granting), .done)
  | .granting => (gateway.go (.finish id reason .updating), .done)
  | .updating =>
      let (sessions, _) := Write.apply gateway.sessions (.finish id)
      ({ gateway with sessions }.go (.finish id reason .updated), .done)
  | .updated =>
      gateway.spawn reading.fresh ⟨false, id, .queued⟩ (.finish id reason (.removing reading.fresh))
  | .removing job =>
      match gateway.jobs.get? job with
      | some ⟨_, _, .done _⟩ => (gateway.stop, .done)
      | _ => (gateway, .failed)

/-- The host's connection still has the session. -/
def leads (gateway : Gateway) (host : Host) (call : Hub.Call) : Bool :=
  (gateway.hub.step digest parse (.session host.number (.output host.generation .pong), call)).2
    == .done

/-- The host goes on with its next message. -/
def reopen (gateway : Gateway) (number : Nat) (host : Host) : Gateway :=
  { gateway with hosts := gateway.hosts.insert number { host with isOpen := true } }

/-- One step of a rotation. -/
def rotate (gateway : Gateway) (number : Nat) (host : Host) (update : InvitationUpdate)
    (reading : Reading) : RotateStage → Gateway × Output
  | .start =>
      if gateway.leads digest parse host reading.call then
        (gateway.go (.rotate number update .finding), .done)
      else (gateway.stop, .failed)
  | .finding =>
      (gateway.go (.rotate number update (.found (gateway.sessions.get? host.id))), .done)
  | .found record =>
      match Record.decide digest record update (reading.now 0) with
      | .refused _ => (gateway.stop, .failed)
      | .repeated revoked =>
          ((gateway.reopen number host).stop, .rotated host.id update.revision revoked)
      | .replace current => (gateway.go (.rotate number update (.updating current)), .done)
  | .updating current =>
      match Write.apply gateway.sessions (.rotate host.id current (rotation digest update)) with
      | (_, 0) => (gateway.stop, .failed)
      | (sessions, _) => ({ gateway with sessions }.go (.rotate number update .matched), .done)
  | .matched =>
      match gateway.hub.step digest parse
          (.rotate host.id host.generation update, reading.call) with
      | (hub, .done) =>
          (({ gateway with hub }.reopen number host).stop, .rotated host.id update.revision false)
      | (hub, _) => ({ gateway with hub }.stop, .failed)

/-- The session that is routed under an id refuses its invitations. -/
def refuse (gateway : Gateway) (id : String) (call : Hub.Call) : Gateway :=
  match gateway.hub.sessions.get? id with
  | none => gateway
  | some number =>
      { gateway with
        hub := (gateway.hub.step digest parse (.session number .revoke, call)).1 }

/-- One step of a revocation, by the host or by a manager. -/
def revoke (gateway : Gateway) (id : String) (host : Option Nat) (reading : Reading) :
    RevokeStage → Gateway × Output
  | .start =>
      match host with
      | none => (gateway.go (.revoke id host .updating), .done)
      | some number =>
          match gateway.hosts.get? number with
          | none => (gateway.stop, .failed)
          | some lease =>
              if gateway.leads digest parse lease reading.call then
                (gateway.go (.revoke id host .updating), .done)
              else (gateway.stop, .failed)
  | .updating =>
      match Write.apply gateway.sessions (.revoke id), gateway.sessions.get? id with
      | (_, 0), _ => (gateway.stop, .failed)
      | (sessions, _), record =>
          ({ gateway with sessions }.go
            (.revoke id host (.matched ((record.map Record.revision).getD 0))), .done)
  | .matched revision =>
      let gateway := gateway.refuse digest parse id reading.call
      match host.bind gateway.hosts.get? with
      | none => (gateway.stop, .revoked id revision)
      | some lease =>
          ((gateway.reopen (host.getD 0) lease).stop, .revoked id revision)

/-- One step of the work that holds the lock. -/
def advance (gateway : Gateway) (reading : Reading) : Gateway × Output :=
  match gateway.current with
  | none => (gateway, .failed)
  | some (.register machine hello stage) => gateway.register digest parse machine hello reading stage
  | some (.finish id reason stage) => gateway.finish digest parse id reason reading stage
  | some (.rotate number update stage) =>
      match gateway.hosts.get? number with
      | none => (gateway.stop, .failed)
      | some host => gateway.rotate digest parse number host update reading stage
  | some (.revoke id host stage) => gateway.revoke digest parse id host reading stage

/-- A blocking job makes its next step. -/
def work (gateway : Gateway) (number : Nat) (job : Job) (ok : Bool) : Gateway × Output :=
  let finished (ok : Bool) := gateway.jobs.insert number { job with stage := .done ok }
  match job.records, job.stage with
  | true, .queued =>
      if ok && token job.id 32 then
        let markers := if gateway.markers.contains job.id then gateway.markers
          else gateway.markers.insert job.id false
        ({ gateway with
            markers, jobs := gateway.jobs.insert number { job with stage := .created } }, .done)
      else ({ gateway with jobs := finished false }, .recordFailed job.id)
  | true, .created =>
      if ok then
        let markers := if gateway.markers.contains job.id then gateway.markers.insert job.id true
          else gateway.markers
        ({ gateway with markers, jobs := finished true }, .recorded job.id)
      else ({ gateway with jobs := finished false }, .recordFailed job.id)
  | false, .queued =>
      if ok then
        ({ gateway with markers := gateway.markers.erase job.id, jobs := finished true },
          .removed job.id)
      else ({ gateway with jobs := finished false }, .done)
  | _, _ => (gateway, .failed)

/-- A host takes its next message, with the lock. -/
def occupy (gateway : Gateway) (number : Nat) (work : Host → Work) : Gateway × Output :=
  match gateway.hosts.get? number with
  | none => (gateway, .failed)
  | some host =>
      if host.isOpen then
        ({ gateway with
            hosts := gateway.hosts.insert number { host with isOpen := false }
            current := some (work host) }, .done)
      else (gateway, .failed)

/-- Calls of the hub that are made without the lock. -/
def foreign : Hub.Op → Bool
  | .register _ _ _ _ _ | .rotate _ _ _ | .session _ .revoke => false
  | _ => true

/-- One step of the gateway. -/
def step (gateway : Gateway) : Event → Gateway × Output
  | .register machine hello =>
      if gateway.current.isSome then (gateway, .failed)
      else (gateway.go (.register machine hello .start), .done)
  | .finish id reason =>
      if gateway.current.isSome then (gateway, .failed)
      else (gateway.go (.finish id reason .start), .done)
  | .scan ids =>
      if ids.all gateway.markers.contains && decide (ids.length ≤ 64) then
        ({ gateway with pending := ids }, .done)
      else (gateway, .failed)
  | .reconcile id =>
      if gateway.current.isSome || !gateway.pending.contains id then (gateway, .failed)
      else (gateway.go (.finish id "session previously ended" .recorded), .done)
  | .rotate host update =>
      if gateway.current.isSome then (gateway, .failed)
      else gateway.occupy host fun _ => .rotate host update .start
  | .revoke id none =>
      if gateway.current.isSome then (gateway, .failed)
      else (gateway.go (.revoke id none .start), .done)
  | .revoke _ (some host) =>
      if gateway.current.isSome then (gateway, .failed)
      else gateway.occupy host fun lease => .revoke lease.id (some host) .start
  | .advance reading => gateway.advance digest parse reading
  | .fail =>
      match gateway.current with
      | some (.finish _ _ (.recording _)) => (gateway, .failed)
      | _ => (gateway.stop, .done)
  | .drop ticket => (gateway.dropped digest ticket, .done)
  | .work number ok =>
      match gateway.jobs.get? number with
      | none => (gateway, .failed)
      | some job => gateway.work number job ok
  | .land ticket =>
      match gateway.late.get? ticket with
      | none => (gateway, .failed)
      | some late =>
          ({ gateway with
              sessions := (Write.apply gateway.sessions late.write).1
              late := gateway.late.erase ticket }, .done)
  | .hub op call =>
      if foreign op then
        let (hub, answer) := gateway.hub.step digest parse (op, call)
        ({ gateway with hub }, .answered answer)
      else (gateway, .failed)
  | .close number =>
      match gateway.hosts.get? number with
      | none => (gateway, .failed)
      | some host =>
          ({ gateway with hosts := gateway.hosts.insert number { host with isOpen := false } },
            .done)
  | .crash ticket keep =>
      let gateway := gateway.dropped digest ticket
      ({ Gateway.new with
          sessions := gateway.sessions
          late := gateway.late
          markers := gateway.markers.retain fun id synced => synced || keep.contains id },
        .crashed)

end Gateway

end PortHub.Api.TerminalSessions
