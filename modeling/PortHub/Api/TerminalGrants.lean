import PortHub.Terminal.HubRouting

/-! # Recovery grants of browser guests

A guest is admitted in steps: the grant is created or its lease taken over, the
viewer is attached to the hub, and the lease is checked once more. A kick revokes
the grant and then removes the participant. Every database operation and every
call of the hub is one step, so that admissions, heartbeats, releases and kicks
interleave freely. The documents of `terminal_grants` are kept by their `_id`;
what the other collection answers is read with each step.
-/

namespace PortHub.Api.TerminalGrants

open PortHub.Terminal

/-- A document of `terminal_grants`. -/
structure Record where
  session : String
  identity : Nat
  readOnly : Bool
  lease : String
  grace : Nat
  active : Bool
  /-- Milliseconds. -/
  validUntil : Int
deriving DecidableEq

structure Grant where
  hash : String
  session : String
  identity : Nat
  readOnly : Bool
  lease : String
  grace : Nat
deriving DecidableEq

def deadline (now : Int) (seconds : Nat) : Int := now + seconds * 1000

/-- `Grant::filter`, on the document with its hash. -/
def Grant.filter (grant : Grant) (now : Int) (record : Record) : Bool :=
  record.session == grant.session && record.lease == grant.lease && record.active
    && decide (now < record.validUntil)

namespace Record

/-- The checks of `create` on the session and its grace. -/
def grantable (session : String) (grace : Nat) : Bool :=
  decide (10 ≤ grace) && decide (grace ≤ 300) && token session 32

/-- The checks of `resume` on the document it found. -/
def resumable (record : Record) : Bool :=
  token record.session 32 && decide (1 ≤ record.identity) && decide (record.identity < 2 ^ 53)
    && decide (10 ≤ record.grace) && decide (record.grace ≤ 300)

def valid (record : Record) (now : Int) : Bool := record.active && decide (now < record.validUntil)

/-- A revoked document is kept for a while, so that its identity stays taken. -/
def revoked (record : Record) (now : Int) : Record :=
  { record with active := false, validUntil := deadline now 300 }

end Record

abbrev Grants := Dict String Record

namespace Grants

/-- How many recoverable guests a session has. -/
def count (grants : Grants) (session : String) (now : Int) : Nat :=
  (grants.values.filter fun record => record.session == session && record.valid now).length

/-- `insert_one`: `_id` is unique, and so is the pair of session and identity. -/
def insertOne (grants : Grants) (hash : String) (record : Record) : Option Grants :=
  if grants.contains hash then none
  else if grants.values.any fun other =>
      other.session == record.session && other.identity == record.identity then none
  else some (grants.insert hash record)

/-- Update the document that a grant's filter matches. -/
def update (grants : Grants) (grant : Grant) (now validUntil : Int) : Option Grants :=
  match grants.get? grant.hash with
  | none => none
  | some record =>
      if grant.filter now record then some (grants.insert grant.hash { record with validUntil })
      else none

def renew (grants : Grants) (grant : Grant) (now : Nat → Int) : Option Grants :=
  grants.update grant (now 0) (deadline (now 1) (grant.grace + 30))

/-- A stale socket must never shorten the replacement connection's lease. -/
def release (grants : Grants) (grant : Grant) (now : Nat → Int) : Grants :=
  (grants.update grant (now 0) (deadline (now 1) grant.grace)).getD grants

/-- `revoke`. At most one document has the session and the identity. -/
def revoke (grants : Grants) (session : String) (identity : Nat) (now : Int) : Grants :=
  grants.map fun _ record =>
    if record.session = session ∧ record.identity = identity then record.revoked now else record

def end' (grants : Grants) (session : String) (now : Int) : Grants :=
  grants.map fun _ record => if record.session = session then record.revoked now else record

/-- The update of `resume`: the lease that was read is replaced. -/
def takeOver (grants : Grants) (hash old lease : String) (now validUntil : Int) : Option Grants :=
  match grants.get? hash with
  | none => none
  | some record =>
      if record.valid now ∧ record.lease = old then
        some (grants.insert hash { record with lease, validUntil })
      else none

/-- Mongo removes documents some time after they expired. -/
def sweep (grants : Grants) (hash : String) (now : Int) : Grants :=
  match grants.get? hash with
  | none => grants
  | some record => if record.validUntil ≤ now then grants.erase hash else grants

end Grants

structure JoinHello where
  token : String
  resumeToken : Option String
  screen : Hub.Screen

/-- How far `viewer_socket` has got. -/
inductive Stage where
  | hello
  | invited (session : String) (readOnly : Bool) (grace : Nat)
  | listed (session : String) (readOnly : Bool) (grace : Nat)
  | counted (session : String) (readOnly : Bool) (grace : Nat)
  | found (hash : String) (previous : Record)
  | checked (hash : String) (previous : Record)
  | granted (grant : Grant)
  | resolved (grant : Grant) (session : String) (readOnly : Bool)
  | attached (grant : Grant) (number client : Nat)
  | admitted (grant : Grant) (number client : Nat)
  | gone

structure Task where
  hello : JoinHello
  stage : Stage

/-- How far a kick has got. -/
inductive KickStage where
  | checked
  | revoked
  | done
deriving DecidableEq

/-- A kick by a manager, or by the host whose generation is given. -/
structure Kick where
  session : String
  number : Nat
  identity : Nat
  host : Option UInt64
  stage : KickStage

structure Gateway where
  hub : Hub.System
  grants : Grants
  tasks : Dict Nat Task
  kicks : Dict Nat Kick

def Gateway.new : Gateway := ⟨.new, .empty, .empty, .empty⟩

/-- What one step reads: the clock, reading by reading, what the hub reads,
    whether `terminal_sessions` holds the session as active, and what is drawn. -/
structure Reading where
  now : Nat → Int
  call : Hub.Call
  active : Bool
  raw : String
  identity : Nat
  lease : String

inductive Event where
  | hub (op : Hub.Op) (call : Hub.Call)
  | join (task : Nat) (hello : JoinHello)
  | advance (task : Nat) (reading : Reading)
  | heartbeat (task : Nat) (now : Nat → Int)
  | release (task : Nat) (now : Nat → Int)
  | abandon (task : Nat)
  | kick (kick : Nat) (session : String) (identity : Nat)
  | hostKick (kick : Nat) (number : Nat) (generation : UInt64) (identity : Nat)
  | revoke (kick : Nat) (now : Int)
  | remove (kick : Nat) (call : Hub.Call)
  | finish (session : String) (now : Int)
  | sweep (hash : String) (now : Int)

inductive Output where
  | done
  | failed
  | hub (answer : Hub.Answer)
  | created (hash : String) (session : String) (identity : Nat) (readOnly : Bool)
  | admitted (grant : Grant) (number client : Nat)
  | kicked (session : String) (identity : Nat)
deriving DecidableEq

section Steps

variable (digest : String → String) (parse : String → Option Description)

/-- Admissions attach with the identity of their grant; nobody else names one. -/
def named : Hub.Op → Bool
  | .attach _ identity _ _ _ => identity.isSome
  | _ => false

/-- The first step of an admission. -/
def Gateway.begin (gateway : Gateway) (hello : JoinHello) (reading : Reading) : Stage :=
  match hello.resumeToken with
  | some raw =>
      if hello.token.isEmpty ∧ token raw 64 then
        match gateway.grants.get? (digest raw) with
        | none => .gone
        | some previous =>
            if previous.valid (reading.now 0) ∧ previous.resumable then
              .found (digest raw) previous
            else .gone
      else .gone
  | none =>
      match gateway.hub.resolve digest reading.call hello.token with
      | .error _ => .gone
      | .ok (number, readOnly) =>
          match gateway.hub.shared.get? number with
          | none => .gone
          | some shared =>
              let grace := shared.options.reconnectTimeout.toNat
              if shared.options.access ≠ .ssh ∧ Record.grantable shared.id grace then
                .invited shared.id readOnly grace
              else .gone

/-- `resume` takes the lease over, if it is still the one that was read. -/
def Gateway.resume (gateway : Gateway) (hash : String) (previous : Record) (reading : Reading) :
    Gateway × Stage :=
  match gateway.grants.takeOver hash previous.lease reading.lease (reading.now 0)
      (deadline (reading.now 1) (previous.grace + 30)) with
  | none => (gateway, .gone)
  | some grants =>
      ({ gateway with grants },
        .granted ⟨hash, previous.session, previous.identity, previous.readOnly, reading.lease,
          previous.grace⟩)

/-- `create` stores a grant with what was drawn for it. -/
def Gateway.create (gateway : Gateway) (session : String) (readOnly : Bool) (grace : Nat)
    (reading : Reading) : Gateway × Stage × Output :=
  let hash := digest reading.raw
  let record : Record := ⟨session, reading.identity, readOnly, reading.lease, grace, true,
    deadline (reading.now 0) (grace + 30)⟩
  match gateway.grants.insertOne hash record with
  | none => (gateway, .gone, .failed)
  | some grants =>
      ({ gateway with grants },
        .granted ⟨hash, session, reading.identity, readOnly, reading.lease, grace⟩,
        .created hash session reading.identity readOnly)

/-- Attach the viewer of a grant. -/
def Gateway.attach (gateway : Gateway) (grant : Grant) (session : String) (readOnly : Bool)
    (screen : Hub.Screen) (invitation : Option String) (call : Hub.Call) : Gateway × Stage :=
  match gateway.hub.step digest parse
      (.attach session (some grant.identity) readOnly screen invitation, call) with
  | (hub, .attachment number client) => ({ gateway with hub }, .attached grant number client)
  | (hub, _) => ({ gateway with hub }, .gone)

/-- `attach_invitation` resolves the capability again, `attach_authorized` goes
    by the grant. -/
def Gateway.authorize (gateway : Gateway) (hello : JoinHello) (grant : Grant) (call : Hub.Call) :
    Gateway × Stage :=
  match hello.resumeToken with
  | some _ => gateway.attach digest parse grant grant.session grant.readOnly hello.screen none call
  | none =>
      match gateway.hub.resolve digest call hello.token with
      | .error _ => (gateway, .gone)
      | .ok (number, readOnly) =>
          match gateway.hub.shared.get? number with
          | none => (gateway, .gone)
          | some shared => (gateway, .resolved grant shared.id readOnly)

/-- The second check of the lease, before any terminal frame is shown. -/
def Gateway.confirm (gateway : Gateway) (grant : Grant) (number client : Nat)
    (now : Nat → Int) : Gateway × Stage × Output :=
  match gateway.grants.renew grant now, gateway.hub.shared.get? number with
  | some grants, some shared =>
      if shared.options.access = .ssh then ({ gateway with grants }, .gone, .failed)
      else ({ gateway with grants }, .admitted grant number client, .admitted grant number client)
  | some grants, none => ({ gateway with grants }, .gone, .failed)
  | none, _ => (gateway, .gone, .failed)

/-- One step of an admission. -/
def Gateway.advance (gateway : Gateway) (task : Task) (reading : Reading) :
    Gateway × Stage × Output :=
  match task.stage with
  | .hello => (gateway, gateway.begin digest task.hello reading, .done)
  | .invited session readOnly grace =>
      (gateway, if reading.active then .listed session readOnly grace else .gone, .done)
  | .listed session readOnly grace =>
      (gateway, if gateway.grants.count session (reading.now 0) < 128 then
        .counted session readOnly grace else .gone, .done)
  | .counted session readOnly grace => gateway.create digest session readOnly grace reading
  | .found hash previous =>
      (gateway, if reading.active ∧ token previous.lease 32 then .checked hash previous
        else .gone, .done)
  | .checked hash previous =>
      let (gateway, stage) := gateway.resume hash previous reading
      (gateway, stage, .done)
  | .granted grant =>
      let (gateway, stage) := gateway.authorize digest parse task.hello grant reading.call
      (gateway, stage, .done)
  | .resolved grant session readOnly =>
      let (gateway, stage) := gateway.attach digest parse grant session readOnly task.hello.screen
        (some (digest task.hello.token)) reading.call
      (gateway, stage, .done)
  | .attached grant number client => gateway.confirm grant number client reading.now
  | .admitted grant number client => (gateway, .admitted grant number client, .done)
  | .gone => (gateway, .gone, .done)

def Gateway.setStage (gateway : Gateway) (id : Nat) (task : Task) (stage : Stage) : Gateway :=
  { gateway with tasks := gateway.tasks.insert id { task with stage } }

/-- The heartbeat of an admitted viewer renews its lease, or the viewer goes. -/
def Gateway.heartbeat (gateway : Gateway) (task : Task) (now : Nat → Int) : Gateway × Stage :=
  match task.stage with
  | .admitted grant number client =>
      match gateway.grants.renew grant now with
      | some grants => ({ gateway with grants }, .admitted grant number client)
      | none => (gateway, .gone)
  | stage => (gateway, stage)

/-- An admitted viewer that goes releases its lease. -/
def Gateway.leave (gateway : Gateway) (task : Task) (now : Nat → Int) : Gateway :=
  match task.stage with
  | .admitted grant _ _ => { gateway with grants := gateway.grants.release grant now }
  | _ => gateway

/-- A manager names a participant of the routed session. -/
def Gateway.kick (gateway : Gateway) (session : String) (identity : Nat) : Option Kick :=
  match gateway.hub.session session with
  | none => none
  | some (number, shared) =>
      if shared.state.participantList.any fun member => member.id == identity then
        some ⟨session, number, identity, none, .checked⟩
      else none

/-- The host of a session names a participant. -/
def Gateway.hostKick (gateway : Gateway) (number : Nat) (generation : UInt64) (identity : Nat) :
    Option Kick :=
  match gateway.hub.shared.get? number with
  | none => none
  | some shared =>
      if generation = shared.state.generation ∧ shared.stop = false then
        some ⟨shared.id, number, identity, some generation, .checked⟩
      else none

/-- The call that removes the participant. -/
def Kick.op (kick : Kick) : Hub.SessionOp :=
  match kick.host with
  | none => .kick kick.identity
  | some generation => .output generation (.kick kick.identity)

def Gateway.start (gateway : Gateway) (id : Nat) (kick : Option Kick) : Gateway × Output :=
  match kick with
  | none => (gateway, .failed)
  | some kick =>
      if gateway.kicks.contains id then (gateway, .failed)
      else ({ gateway with kicks := gateway.kicks.insert id kick }, .done)

def Gateway.revoke (gateway : Gateway) (id : Nat) (kick : Kick) (now : Int) : Gateway :=
  if kick.stage = .checked then
    { gateway with
      grants := gateway.grants.revoke kick.session kick.identity now
      kicks := gateway.kicks.insert id { kick with stage := .revoked } }
  else gateway

/-- The last step of a kick, with its success. -/
def Gateway.remove (gateway : Gateway) (id : Nat) (kick : Kick) (call : Hub.Call) :
    Gateway × Output :=
  if kick.stage = .revoked then
    let kicks := gateway.kicks.insert id { kick with stage := .done }
    match gateway.hub.step digest parse (.session kick.number kick.op, call) with
    | (hub, .done) => ({ gateway with hub, kicks }, .kicked kick.session kick.identity)
    | (hub, _) => ({ gateway with hub, kicks }, .failed)
  else (gateway, .failed)

/-- One step of the gateway. -/
def Gateway.step (gateway : Gateway) : Event → Gateway × Output
  | .hub op call =>
      if named op then (gateway, .failed)
      else
        let (hub, answer) := gateway.hub.step digest parse (op, call)
        ({ gateway with hub }, .hub answer)
  | .join id hello =>
      if gateway.tasks.contains id then (gateway, .failed)
      else ({ gateway with tasks := gateway.tasks.insert id ⟨hello, .hello⟩ }, .done)
  | .advance id reading =>
      match gateway.tasks.get? id with
      | none => (gateway, .failed)
      | some task =>
          let (gateway, stage, output) := gateway.advance digest parse task reading
          (gateway.setStage id task stage, output)
  | .heartbeat id now =>
      match gateway.tasks.get? id with
      | none => (gateway, .failed)
      | some task =>
          let (gateway, stage) := gateway.heartbeat task now
          (gateway.setStage id task stage, .done)
  | .release id now =>
      match gateway.tasks.get? id with
      | none => (gateway, .failed)
      | some task => ((gateway.leave task now).setStage id task .gone, .done)
  | .abandon id =>
      match gateway.tasks.get? id with
      | none => (gateway, .failed)
      | some task => (gateway.setStage id task .gone, .done)
  | .kick id session identity => gateway.start id (gateway.kick session identity)
  | .hostKick id number generation identity =>
      gateway.start id (gateway.hostKick number generation identity)
  | .revoke id now =>
      match gateway.kicks.get? id with
      | none => (gateway, .failed)
      | some kick => (gateway.revoke id kick now, .done)
  | .remove id call =>
      match gateway.kicks.get? id with
      | none => (gateway, .failed)
      | some kick => gateway.remove digest parse id kick call
  | .finish session now => ({ gateway with grants := gateway.grants.end' session now }, .done)
  | .sweep hash now => ({ gateway with grants := gateway.grants.sweep hash now }, .done)

end Steps

end PortHub.Api.TerminalGrants
