import PortHub.Api.SessionEnds
import PortHub.Terminal.HubSessions

/-! # Replaced and revoked invitations stay dead

The database and the hub hold the invitations of a session side by side. The hub
never runs ahead of the database, and it is level with it for every host that is
served: a rotation that is cut off closes its host, and the next registration
reads the database anew. What breaks this is an update that was cut off and
takes effect after that read. The host is told that its retry succeeded, and the
hub goes on with the old invitations. The main result holds for all runs without
it.
-/

namespace PortHub.Api.TerminalSessions

open PortHub.Terminal Runs

/-! ## Records -/

/-- The revision of the invitations of a record, with the digests of the two. -/
def Record.invitation (record : Record) : Nat × String × String :=
  if record.revision = 0 then (0, record.writeHash, record.readHash)
  else (record.revision, record.invitationWriteHash, record.invitationReadHash)

/-- The two records hold the same invitations. -/
structure Record.Agrees (before after : Record) : Prop where
  revision : after.revision = before.revision
  hashes : after.writeHash = before.writeHash ∧ after.readHash = before.readHash ∧
    after.invitationWriteHash = before.invitationWriteHash ∧
    after.invitationReadHash = before.invitationReadHash
  expiry : after.invitationExpiresAt = before.invitationExpiresAt

/-- The invitations stay, and what was revoked remains so. -/
structure Record.Stays (before after : Record) : Prop where
  agrees : before.Agrees after
  revoked : before.invitationsRevoked = true → after.invitationsRevoked = true

theorem Record.Agrees.refl (record : Record) : record.Agrees record :=
  ⟨rfl, ⟨rfl, rfl, rfl, rfl⟩, rfl⟩

theorem Record.Agrees.trans {a : Record} {b c} (first : a.Agrees b) (second : b.Agrees c) :
    a.Agrees c where
  revision := second.revision.trans first.revision
  hashes := ⟨second.hashes.1.trans first.hashes.1, second.hashes.2.1.trans first.hashes.2.1,
    second.hashes.2.2.1.trans first.hashes.2.2.1, second.hashes.2.2.2.trans first.hashes.2.2.2⟩
  expiry := second.expiry.trans first.expiry

theorem Record.Stays.refl (record : Record) : record.Stays record := ⟨.refl record, id⟩

theorem Record.Agrees.invitation {before : Record} {after} (agrees : before.Agrees after) :
    after.invitation = before.invitation := by
  obtain ⟨write, read, newWrite, newRead⟩ := agrees.hashes
  simp only [Record.invitation, agrees.revision, write, read, newWrite, newRead]

theorem Record.invitation_revision (record : Record) : record.invitation.1 = record.revision := by
  unfold Record.invitation
  split
  · rename_i zero
    exact zero.symm
  · rfl

theorem Record.rotate_invitation (record : Record) {rotation : Rotation}
    (positive : 0 < rotation.revision) : (record.rotate rotation).invitation =
      (rotation.revision, rotation.writeHash, rotation.readHash) := by
  have revision : (record.rotate rotation).revision = rotation.revision := rfl
  rw [Record.invitation, revision, if_neg (Nat.ne_of_gt positive)]
  rfl

/-- A rotation steps on from a revision that the session has reached. -/
def Write.Steps (sessions : Database) : Write → Prop
  | .rotate id current rotation => rotation.revision = current + 1 ∧ rotation.revision < 2 ^ 63 ∧
      ∃ record, sessions.get? id = some record ∧ current ≤ record.revision
  | .insert _ record => record.revision = 0
  | _ => True

variable {sessions : Database} {id : String}

/-- The record stays, or is rotated by one step. -/
def Write.Turns (write : Write) (id : String) (record after : Record) : Prop :=
  record.Stays after ∨ ∃ current rotation, write = .rotate id current rotation ∧
    after = record.rotate rotation ∧ rotation.revision = record.revision + 1

/-- What one operation does to the record of a session. -/
theorem Write.stays {write : Write} {record} (steps : write.Steps sessions)
    (found : sessions.get? id = some record) :
    ∃ after, (write.apply sessions).1.get? id = some after ∧ write.Turns id record after := by
  obtain same | ⟨other, next, puts, same⟩ := write.apply_puts sessions
  · rw [same]
    exact ⟨record, found, .inl (.refl record)⟩
  · rw [same]
    by_cases here : id = other
    · subst here
      refine ⟨next, Dict.get?_insert_self _ _ _, ?_⟩
      cases puts with
      | insert absent | upsert absent => cases found.symm.trans absent
      | finish known =>
          obtain rfl := Option.mem_unique found known
          exact .inl ⟨⟨rfl, ⟨rfl, rfl, rfl, rfl⟩, rfl⟩, fun set => set⟩
      | revoke known =>
          obtain rfl := Option.mem_unique found known
          exact .inl ⟨⟨rfl, ⟨rfl, rfl, rfl, rfl⟩, rfl⟩, fun _ => rfl⟩
      | rotate known allowed =>
          obtain rfl := Option.mem_unique found known
          refine .inr ⟨_, _, rfl, rfl, ?_⟩
          obtain ⟨next, _, reached, knownToo, least⟩ := steps
          obtain rfl := Option.mem_unique found knownToo
          rw [next]
          rcases allowed with same | none
          · rw [Record.revision, same]
            rfl
          · rw [Record.revision, none, Option.getD_none] at least ⊢
            omega
    · exact ⟨record, (Dict.get?_insert_ne _ _ here).trans found, .inl (.refl record)⟩

theorem Write.rotates {current rotation record} (found : sessions.get? id = some record)
    (matched : (Write.apply sessions (.rotate id current rotation)).2 ≠ 0) :
    (Write.apply sessions (.rotate id current rotation)).1.get? id =
      some (record.rotate rotation) := by
  simp only [Write.apply, found] at matched ⊢
  split at matched
  · rename_i allowed
    rw [if_pos allowed]
    exact Dict.get?_insert_self _ _ _
  · exact absurd rfl matched

/-- A record that was not there has its first invitations. -/
theorem Write.adds {write : Write} {after} (steps : write.Steps sessions)
    (absent : sessions.get? id = none) (found : (write.apply sessions).1.get? id = some after) :
    after.revision = 0 := by
  obtain same | ⟨other, next, puts, same⟩ := write.apply_puts sessions
  · rw [same] at found
    cases absent.symm.trans found
  · rw [same] at found
    rcases Dict.get?_of_insert found with ⟨rfl, rfl⟩ | ⟨_, kept⟩
    · cases puts with
      | insert => exact steps
      | upsert => rfl
      | finish known | rotate known | revoke known => cases absent.symm.trans known
    · cases absent.symm.trans kept

/-! ## The invariant -/

/-- What happened so far: the invitations that the database held, the rotations
    that the host was told of, and the revocations that succeeded. -/
structure Past where
  held : String → Nat × String × String → Prop
  rotated : String → Nat → Prop
  revoked : String → Nat → Prop

/-- What the database holds now was held. -/
def Past.Covers (past : Past) (sessions : Database) : Prop :=
  ∀ id record, sessions.get? id = some record → past.held id record.invitation

/-- The session has a newer revision, or this one and it is revoked. -/
def Dead (sessions : Database) (id : String) (revision : Nat) : Prop :=
  ∃ record, sessions.get? id = some record ∧ (revision < record.revision ∨
    (record.revision = revision ∧ record.invitationsRevoked = true))

/-- Nothing that was cut off can still change the revision in time. -/
def Calm (late : Dict Nat Late) (id : String) : Prop :=
  ∀ ticket current rotation overtaken,
    late.get? ticket = some ⟨.rotate id current rotation, overtaken⟩ → overtaken = true

/-- The session is routed with the revision of its record. -/
def Even (sessions : Database) (hub : Hub.System) (id : String) : Prop :=
  ∀ number shared, hub.session id = some (number, shared) →
    ∃ record, sessions.get? id = some record ∧ shared.state.invitationRevision = record.revision

/-- The session is routed with this host. -/
def Leads (hub : Hub.System) (host : Host) : Prop :=
  ∃ shared, hub.session host.id = some (host.number, shared) ∧
    shared.state.generation = host.generation

/-- If the session is routed, then with this host. -/
def Led (hub : Hub.System) (host : Host) : Prop :=
  ∀ number shared, hub.session host.id = some (number, shared) →
    number = host.number ∧ shared.state.generation = host.generation

/-- What the database holds. -/
structure Holds (past : Past) (sessions : Database) (late : Dict Nat Late) : Prop where
  bounded : ∀ id record, sessions.get? id = some record → record.revision < 2 ^ 63
  rotated : ∀ id revision, past.rotated id revision →
    ∃ record, sessions.get? id = some record ∧ revision ≤ record.revision
  revoked : ∀ id revision, past.revoked id revision → Dead sessions id revision
  late : ∀ ticket late', late.get? ticket = some late' → late'.write.Steps sessions

/-- What a routed session may admit. -/
structure Routed (past : Past) (sessions : Database) (id : String) (state : Hub.State) : Prop where
  behind : ∃ record, sessions.get? id = some record ∧ state.invitationRevision ≤ record.revision
  held : past.held id state.invitation
  rotated : ∀ revision, past.rotated id revision → revision ≤ state.invitationRevision
  revoked : ∀ revision, past.revoked id revision →
    revision < state.invitationRevision ∨ state.invitationsRevoked = true

/-- What a rotation has established about its host. -/
def Turning (digest : String → String) (past : Past) (gateway : Gateway) (host : Host)
    (update : InvitationUpdate) : RotateStage → Prop
  | .start => Leads gateway.hub host →
      Calm gateway.late host.id ∧ Even gateway.sessions gateway.hub host.id
  | .finding => Led gateway.hub host ∧ Calm gateway.late host.id ∧
      Even gateway.sessions gateway.hub host.id
  | .found record => Led gateway.hub host ∧ Calm gateway.late host.id ∧
      Even gateway.sessions gateway.hub host.id ∧ ∀ known, record = some known →
        ∃ now, gateway.sessions.get? host.id = some now ∧ now.revision = known.revision
  | .updating current => Led gateway.hub host ∧ Calm gateway.late host.id ∧
      Even gateway.sessions gateway.hub host.id ∧ update.revision = current + 1 ∧
      update.revision < 2 ^ 63 ∧
      ∃ now, gateway.sessions.get? host.id = some now ∧ now.revision = current
  | .matched => Led gateway.hub host ∧ Calm gateway.late host.id ∧
      (∃ now, gateway.sessions.get? host.id = some now ∧ now.invitation =
        (update.revision, digest update.writeToken, digest update.readToken)) ∧
      ∀ revision, past.revoked host.id revision → revision < update.revision

/-- What a registration has established about its session. -/
def Admitting (digest : String → String) (past : Past) (gateway : Gateway) (hello : HostHello) :
    RegisterStage → Prop
  | .found record => Calm gateway.late hello.id ∧
      (record = none → ∀ revision, ¬ past.revoked hello.id revision) ∧
      ∀ known, record = some known →
        (∃ now, gateway.sessions.get? hello.id = some now ∧ known.Agrees now) ∧
        ∀ revision, past.revoked hello.id revision →
          revision < known.revision ∨ known.invitationsRevoked = true
  | .inserting record => Calm gateway.late hello.id ∧ record.revision = 0 ∧
      record.invitation = (0, digest hello.writeToken, digest hello.readToken) ∧
      ∀ revision, ¬ past.revoked hello.id revision
  | .ready revoked persisted => Calm gateway.late hello.id ∧
      (∃ now, gateway.sessions.get? hello.id = some now ∧ now.invitation =
        (persisted.map Hub.persistedInvitation).getD
          (0, digest hello.writeToken, digest hello.readToken)) ∧
      ∀ revision, past.revoked hello.id revision →
        revision < (persisted.map (·.revision)).getD 0 ∨ revoked = true
  | _ => True

/-- What the work that holds the lock has established. -/
def Ready (digest : String → String) (past : Past) (gateway : Gateway) : Option Work → Prop
  | some (.register _ hello stage) => Admitting digest past gateway hello stage
  | some (.rotate number update stage) => ∀ host, gateway.hosts.get? number = some host →
      host.isOpen = false ∧ Turning digest past gateway host update stage
  | some (.revoke id _ (.matched revision)) => Dead gateway.sessions id revision
  | _ => True

/-- A host that takes messages, or will after the revocation it waits for. -/
def Gateway.Serves (gateway : Gateway) (number : Nat) (host : Host) : Prop :=
  host.isOpen = true ∨ ∃ id stage, gateway.current = some (.revoke id (some number) stage)

structure Level (digest : String → String) (past : Past) (gateway : Gateway) : Prop where
  table : Hub.Table gateway.hub
  running : gateway.hub.Running
  holds : Holds past gateway.sessions gateway.late
  routed : ∀ id number shared, gateway.hub.session id = some (number, shared) →
    Routed past gateway.sessions id shared.state
  hosts : ∀ number host, gateway.hosts.get? number = some host →
    ∃ shared, gateway.hub.shared.get? host.number = some shared ∧ shared.id = host.id ∧
      host.generation ≤ shared.state.generation
  unique : ∀ number other host rival, gateway.hosts.get? number = some host →
    gateway.hosts.get? other = some rival → host.number = rival.number →
    host.generation = rival.generation → number = other
  serves : ∀ number host, gateway.hosts.get? number = some host → gateway.Serves number host →
    Leads gateway.hub host → Calm gateway.late host.id ∧ Even gateway.sessions gateway.hub host.id
  ready : Ready digest past gateway gateway.current

section Steps

variable {digest : String → String} {parse : String → Option Description}
  {past : Past} {gateway : Gateway} {id : String} {sessions : Database} {hub after : Hub.System}
  {number : Nat} {host : Host} {update : InvitationUpdate} {stage : RotateStage} {write : Write}
  {late : Dict Nat Late}

/-- The work is replaced, and no host waits for a revocation that did not. -/
theorem Level.go (level : Level digest past gateway) {work} (ready : Ready digest past gateway work)
    (waits : ∀ id number stage, work = some (.revoke id (some number) stage) →
      ∃ id stage, gateway.current = some (.revoke id (some number) stage)) :
    Level digest past { gateway with current := work } where
  __ := level
  serves number host found serving := by
    refine level.serves number host found ?_
    rcases serving with flag | ⟨id, stage, current⟩
    · exact .inl flag
    · exact .inr (waits id number stage current)
  ready := ready

theorem Level.stop (level : Level digest past gateway) : Level digest past gateway.stop :=
  level.go trivial fun _ _ _ same => by cases same

/-! ### Calls of the hub -/

theorem Even.preserved (even : Even sessions hub id) (preserves : Hub.Preserves hub after) :
    Even sessions after id := by
  intro number later routed
  obtain ⟨shared, before, keeps⟩ := preserves.routed id number later routed
  rw [keeps.revision]
  exact even number shared before

theorem generation_preserved (preserves : Hub.Preserves hub after) {later}
    (routed : after.session id = some (number, later)) :
    ∃ shared, hub.session id = some (number, shared) ∧
      later.state.generation = shared.state.generation := by
  obtain ⟨shared, before, _⟩ := preserves.routed id number later routed
  obtain ⟨same, present, _, generation⟩ :=
    preserves.sessions number shared (Hub.session_eq_some.mp before).2
  obtain rfl := Option.some.inj ((Hub.session_eq_some.mp routed).2.symm.trans present)
  exact ⟨shared, before, generation⟩

theorem Led.preserved (led : Led hub host) (preserves : Hub.Preserves hub after) :
    Led after host := by
  intro number later routed
  obtain ⟨shared, before, generation⟩ := generation_preserved preserves routed
  rw [generation]
  exact led number shared before

theorem Leads.preserved (leads : Leads after host) (preserves : Hub.Preserves hub after) :
    Leads hub host := by
  obtain ⟨later, routed, current⟩ := leads
  obtain ⟨shared, before, generation⟩ := generation_preserved preserves routed
  exact ⟨shared, before, generation.symm.trans current⟩

theorem Turning.preserved (turning : Turning digest past gateway host update stage)
    (preserves : Hub.Preserves gateway.hub after) :
    Turning digest past { gateway with hub := after } host update stage := by
  cases stage with
  | start =>
      intro leads
      obtain ⟨calm, even⟩ := turning (leads.preserved preserves)
      exact ⟨calm, even.preserved preserves⟩
  | finding =>
      obtain ⟨led, calm, even⟩ := turning
      exact ⟨led.preserved preserves, calm, even.preserved preserves⟩
  | found record =>
      obtain ⟨led, calm, even, same⟩ := turning
      exact ⟨led.preserved preserves, calm, even.preserved preserves, same⟩
  | updating current =>
      obtain ⟨led, calm, even, rest⟩ := turning
      exact ⟨led.preserved preserves, calm, even.preserved preserves, rest⟩
  | matched =>
      obtain ⟨led, calm, rest⟩ := turning
      exact ⟨led.preserved preserves, calm, rest⟩

theorem Ready.preserved {work} (ready : Ready digest past gateway work)
    (preserves : Hub.Preserves gateway.hub after) :
    Ready digest past { gateway with hub := after } work := by
  unfold Ready at ready ⊢
  split
  · rename_i stage
    cases stage <;> exact ready
  · intro host found
    obtain ⟨closed, turning⟩ := ready host found
    exact ⟨closed, turning.preserved preserves⟩
  · exact ready
  · trivial

/-- Calls that neither register nor rotate. -/
theorem Level.settled (level : Level digest past gateway) (collisionless : Hub.Collisionless digest)
    (parse : String → Option Description) (op : Hub.Op) (settled : op.settled = true)
    (call : Hub.Call) :
    Level digest past { gateway with hub := (gateway.hub.step digest parse (op, call)).1 } := by
  have preserves : Hub.Preserves gateway.hub (gateway.hub.step digest parse (op, call)).1 :=
    level.table.preserves settled call
  have changes := Hub.step_changes level.table.sized digest parse (op, call)
  refine ⟨level.table.changes collisionless changes, Hub.Running.step level.running (op, call),
    level.holds, ?_, ?_, level.unique, ?_, level.ready.preserved preserves⟩
  · intro id number later found
    obtain ⟨shared, before, keeps⟩ := preserves.routed id number later found
    have routed := level.routed id number shared before
    refine ⟨?_, ?_, ?_, ?_⟩
    · rw [keeps.revision]
      exact routed.behind
    · rw [keeps.invitation]
      exact routed.held
    · rw [keeps.revision]
      exact routed.rotated
    · rw [keeps.revision]
      exact fun revision sent => (routed.revoked revision sent).imp_right keeps.revoked
  · intro number host found
    obtain ⟨shared, present, named, least⟩ := level.hosts number host found
    obtain ⟨later, there, same, generation⟩ := preserves.sessions _ _ present
    exact ⟨later, there, same.trans named, by rw [generation]; exact least⟩
  · intro number host found serving leads
    obtain ⟨calm, even⟩ := level.serves number host found serving (leads.preserved preserves)
    exact ⟨calm, even.preserved preserves⟩

/-! ### Operations on the database -/

/-- The record of a session grows, whatever the operation. -/
theorem Write.grows {record} (steps : write.Steps sessions)
    (found : sessions.get? id = some record) :
    ∃ after, (write.apply sessions).1.get? id = some after ∧
      (record.Stays after ∨ after.revision = record.revision + 1) := by
  obtain ⟨after, present, stays | ⟨_, rotation, _, rfl, next⟩⟩ := Write.stays steps found
  · exact ⟨after, present, .inl stays⟩
  · exact ⟨_, present, .inr next⟩

/-- The revision of a session never falls. -/
theorem Write.Steps.reaches {least} (steps : write.Steps sessions)
    (reached : ∃ record, sessions.get? id = some record ∧ least ≤ record.revision) :
    ∃ record, (write.apply sessions).1.get? id = some record ∧ least ≤ record.revision := by
  obtain ⟨record, found, least⟩ := reached
  obtain ⟨after, present, stays | grown⟩ := Write.grows steps found
  · exact ⟨after, present, by rw [stays.agrees.revision]; exact least⟩
  · exact ⟨after, present, by omega⟩

theorem Dead.apply {revision} (dead : Dead sessions id revision) (steps : write.Steps sessions) :
    Dead (write.apply sessions).1 id revision := by
  obtain ⟨record, found, past⟩ := dead
  obtain ⟨after, present, stays | next⟩ := Write.grows steps found
  · refine ⟨after, present, ?_⟩
    rw [stays.agrees.revision]
    exact past.imp_right fun ⟨same, flag⟩ => ⟨same, stays.revoked flag⟩
  · refine ⟨after, present, .inl ?_⟩
    rcases past with newer | ⟨same, _⟩
    · omega
    · omega

/-- A revocation that matched the record. -/
theorem dead_revoke (matched : ((Write.revoke id).apply sessions).2 ≠ 0) :
    Dead ((Write.revoke id).apply sessions).1 id
      (((sessions.get? id).map Record.revision).getD 0) := by
  simp only [Write.apply] at matched ⊢
  split at matched
  · exact absurd rfl matched
  · rename_i record found
    split at matched
    · rename_i active
      rw [if_pos active]
      exact ⟨_, Dict.get?_insert_self _ _ _, .inr ⟨by rw [found]; rfl, rfl⟩⟩
    · exact absurd rfl matched

theorem Write.Steps.apply {other : Write} (other' : other.Steps sessions)
    (steps : write.Steps sessions) : other.Steps (write.apply sessions).1 := by
  cases other with
  | rotate target current rotation =>
      obtain ⟨next, bounded, reached⟩ := other'
      exact ⟨next, bounded, steps.reaches reached⟩
  | insert target record => exact other'
  | finish | revoke => trivial

theorem Holds.apply (holds : Holds past sessions late) (steps : write.Steps sessions) :
    Holds past (write.apply sessions).1 late where
  bounded id after found := by
    cases known : sessions.get? id with
    | none =>
        rw [Write.adds steps known found]
        decide
    | some record =>
        obtain ⟨same, present, stays | ⟨current, rotation, rfl, rfl, _⟩⟩ := Write.stays steps known
        · obtain rfl := Option.mem_unique found present
          rw [stays.agrees.revision]
          exact holds.bounded id record known
        · obtain rfl := Option.mem_unique found present
          exact steps.2.1
  rotated id revision sent := steps.reaches (holds.rotated id revision sent)
  revoked id revision sent := (holds.revoked id revision sent).apply steps
  late ticket late' found := (holds.late ticket late' found).apply steps

theorem Routed.apply {state} (routed : Routed past sessions id state)
    (steps : write.Steps sessions) :
    Routed past (write.apply sessions).1 id state :=
  ⟨steps.reaches routed.behind, routed.held, routed.rotated, routed.revoked⟩

/-- The operation does not rotate the invitations of the session. -/
def Write.Spares (write : Write) (id : String) : Prop :=
  ∀ current rotation, write ≠ .rotate id current rotation

theorem Write.Spares.stays {record} (spares : write.Spares id) (steps : write.Steps sessions)
    (found : sessions.get? id = some record) :
    ∃ after, (write.apply sessions).1.get? id = some after ∧ record.Stays after := by
  obtain ⟨after, present, stays | ⟨current, rotation, same, _⟩⟩ := Write.stays steps found
  · exact ⟨after, present, stays⟩
  · exact absurd same (spares current rotation)

theorem Write.Spares.revision {revision} (spares : write.Spares id) (steps : write.Steps sessions)
    (found : ∃ now, sessions.get? id = some now ∧ now.revision = revision) :
    ∃ now, (write.apply sessions).1.get? id = some now ∧ now.revision = revision := by
  obtain ⟨record, known, same⟩ := found
  obtain ⟨after, present, stays⟩ := spares.stays steps known
  exact ⟨after, present, stays.agrees.revision.trans same⟩

theorem Even.apply (even : Even sessions hub id) (spares : write.Spares id)
    (steps : write.Steps sessions) :
    Even (write.apply sessions).1 hub id := by
  intro number shared routed
  obtain ⟨record, found, level⟩ := even number shared routed
  obtain ⟨after, present, stays⟩ := spares.stays steps found
  exact ⟨after, present, level.trans stays.agrees.revision.symm⟩

/-- The operation leaves alone whatever was found calm. -/
def Write.Loose (write : Write) (late : Dict Nat Late) : Prop :=
  ∀ id, Calm late id → write.Spares id

theorem Turning.apply (turning : Turning digest past gateway host update stage)
    (loose : write.Loose gateway.late) (steps : write.Steps gateway.sessions) :
    Turning digest past { gateway with sessions := (write.apply gateway.sessions).1 } host update
      stage := by
  cases stage with
  | start =>
      intro leads
      obtain ⟨calm, even⟩ := turning leads
      exact ⟨calm, even.apply (loose _ calm) steps⟩
  | finding =>
      obtain ⟨led, calm, even⟩ := turning
      exact ⟨led, calm, even.apply (loose _ calm) steps⟩
  | found record =>
      obtain ⟨led, calm, even, same⟩ := turning
      exact ⟨led, calm, even.apply (loose _ calm) steps, fun known read =>
        (loose _ calm).revision steps (same known read)⟩
  | updating current =>
      obtain ⟨led, calm, even, next, bounded, same⟩ := turning
      exact ⟨led, calm, even.apply (loose _ calm) steps, next, bounded,
        (loose _ calm).revision steps same⟩
  | matched =>
      obtain ⟨led, calm, ⟨record, found, offered⟩, newer⟩ := turning
      obtain ⟨after, present, stays⟩ := (loose _ calm).stays steps found
      exact ⟨led, calm, ⟨after, present, stays.agrees.invitation.trans offered⟩, newer⟩

theorem Admitting.apply {hello stage} (admitting : Admitting digest past gateway hello stage)
    (loose : write.Loose gateway.late) (steps : write.Steps gateway.sessions) :
    Admitting digest past { gateway with sessions := (write.apply gateway.sessions).1 } hello
      stage := by
  cases stage with
  | found record =>
      obtain ⟨calm, none, some⟩ := admitting
      refine ⟨calm, none, fun known read => ?_⟩
      obtain ⟨⟨now, found, agrees⟩, revoked⟩ := some known read
      obtain ⟨after, present, stays⟩ := (loose _ calm).stays steps found
      exact ⟨⟨after, present, agrees.trans stays.agrees⟩, revoked⟩
  | inserting record => exact admitting
  | ready revoked persisted =>
      obtain ⟨calm, ⟨now, found, same⟩, rest⟩ := admitting
      obtain ⟨after, present, stays⟩ := (loose _ calm).stays steps found
      exact ⟨calm, ⟨after, present, stays.agrees.invitation.trans same⟩, rest⟩
  | start | admitted | cleared => trivial

theorem Ready.apply {work} (ready : Ready digest past gateway work)
    (loose : write.Loose gateway.late) (steps : write.Steps gateway.sessions) :
    Ready digest past { gateway with sessions := (write.apply gateway.sessions).1 } work := by
  unfold Ready at ready ⊢
  split
  · exact Admitting.apply ready loose steps
  · intro host found
    obtain ⟨closed, turning⟩ := ready host found
    exact ⟨closed, turning.apply loose steps⟩
  · exact Dead.apply ready steps
  · trivial

/-- An operation is carried out. It rotates no session that a host leads. -/
theorem Level.apply (level : Level digest past gateway) (write : Write)
    (steps : write.Steps gateway.sessions)
    (unled : ∀ number host, gateway.hosts.get? number = some host → gateway.Serves number host →
      Leads gateway.hub host → write.Spares host.id)
    (ready : Ready digest past { gateway with sessions := (write.apply gateway.sessions).1 }
      gateway.current) :
    Level digest past { gateway with sessions := (write.apply gateway.sessions).1 } where
  __ := level
  holds := level.holds.apply steps
  routed id number shared found := (level.routed id number shared found).apply steps
  serves number host found serving leads := by
    obtain ⟨calm, even⟩ := level.serves number host found serving leads
    exact ⟨calm, even.apply (unled number host found serving leads) steps⟩
  ready := ready

/-- An operation that rotates no calm session. -/
theorem Level.apply_loose (level : Level digest past gateway) (write : Write)
    (steps : write.Steps gateway.sessions) (loose : write.Loose gateway.late) :
    Level digest past { gateway with sessions := (write.apply gateway.sessions).1 } :=
  level.apply write steps
    (fun number host found serving leads =>
      loose _ (level.serves number host found serving leads).1)
    (level.ready.apply loose steps)

/-! ### Operations that were cut off -/

theorem Ready.calmer {work} (ready : Ready digest past gateway work)
    (calmer : ∀ id, Calm gateway.late id → Calm late id) :
    Ready digest past { gateway with late } work := by
  unfold Ready at ready ⊢
  split
  · rename_i stage
    cases stage with
    | found | inserting | ready => exact ⟨calmer _ ready.1, ready.2⟩
    | start | admitted | cleared => trivial
  · rename_i stage
    intro host found
    obtain ⟨closed, turning⟩ := ready host found
    refine ⟨closed, ?_⟩
    cases stage with
    | start => exact fun leads => (turning leads).imp_left (calmer _)
    | finding | found | updating | matched => exact ⟨turning.1, calmer _ turning.2.1, turning.2.2⟩
  · exact ready
  · trivial

theorem Level.relate (level : Level digest past gateway)
    (steps : ∀ ticket late', late.get? ticket = some late' → late'.write.Steps gateway.sessions)
    (calmer : ∀ number host, gateway.hosts.get? number = some host →
      gateway.Serves number host → Leads gateway.hub host → Calm gateway.late host.id →
      Calm late host.id) (ready : Ready digest past { gateway with late } gateway.current) :
    Level digest past { gateway with late } where
  __ := level
  holds := ⟨level.holds.bounded, level.holds.rotated, level.holds.revoked, steps⟩
  serves number host found serving leads := by
    obtain ⟨calm, even⟩ := level.serves number host found serving leads
    exact ⟨calmer number host found serving leads calm, even⟩
  ready := ready

/-- An operation that was cut off takes effect or is lost. -/
theorem Calm.sub {less : Dict Nat Late} (calm : Calm late id) (sub : less.Sub late) :
    Calm less id :=
  fun ticket current rotation overtaken found =>
    calm ticket current rotation overtaken (sub _ _ found)

theorem Level.erase (level : Level digest past gateway) (ticket : Nat) :
    Level digest past { gateway with late := gateway.late.erase ticket } := by
  have sub := gateway.late.erase_sub ticket
  refine level.relate ?_ ?_ ?_
  · intro other late found
    exact level.holds.late other late (sub _ _ found)
  · intro number host _ _ _ calm
    exact calm.sub sub
  · exact level.ready.calmer fun id calm => calm.sub sub

/-- The read of a registration overtakes what was cut off. -/
theorem calm_read (gateway : Gateway) (id : String) : Calm (gateway.read id).late id := by
  intro ticket current rotation overtaken found
  simp only [Gateway.read, Dict.get?_map, Option.map_eq_some_iff] at found
  obtain ⟨before, _, same⟩ := found
  split at same
  · split at same
    · rw [← (Late.mk.inj same).2]
    · rename_i target _ _ written apart
      rw [same] at written
      cases written
      exact absurd rfl apart
  · rename_i other
    rw [same] at other
    exact (other id current rotation rfl).elim

theorem Calm.read (calm : Calm gateway.late id) (other : String) :
    Calm (gateway.read other).late id := by
  intro ticket current rotation overtaken found
  simp only [Gateway.read, Dict.get?_map, Option.map_eq_some_iff] at found
  obtain ⟨before, known, same⟩ := found
  split at same
  · split at same
    · rw [← (Late.mk.inj same).2]
    · rw [same] at known
      exact calm ticket current rotation overtaken known
  · rw [same] at known
    exact calm ticket current rotation overtaken known

section

variable (level : Level digest past gateway)

include level

theorem Level.read (other : String) :
    Level digest past (gateway.read other) := by
  refine level.relate ?_ ?_ ?_
  · intro ticket late found
    obtain ⟨before, known, same⟩ := late_read found
    rw [same]
    exact level.holds.late ticket before known
  · intro number host _ _ _ calm
    exact calm.read other
  · exact level.ready.calmer fun id calm => calm.read other

/-- The host of a rotation is served by nobody else. -/
theorem Level.unled (current : gateway.current = some (.rotate number update stage))
    (found : gateway.hosts.get? number = some host) (led : Led gateway.hub host) {other rival}
    (known : gateway.hosts.get? other = some rival) (serving : gateway.Serves other rival)
    (leads : Leads gateway.hub rival) :
    rival.id ≠ host.id := by
  intro same
  obtain ⟨shared, routed, generation⟩ := leads
  rw [same] at routed
  obtain ⟨numbered, aged⟩ := led _ _ routed
  obtain rfl := level.unique other number rival host known found numbered
    (generation.symm.trans aged)
  obtain rfl := Option.mem_unique known found
  have ready := level.ready
  rw [current] at ready
  rcases serving with flag | ⟨_, _, revoking⟩
  · rw [(ready rival known).1] at flag
    cases flag
  · cases current.symm.trans revoking

theorem Level.inFlight (flying : gateway.inFlight digest = some write) : write.Steps gateway.sessions := by
  have ready := level.ready
  unfold Gateway.inFlight at flying
  split at flying
  · rename_i number update revision current
    rw [Option.map_eq_some_iff] at flying
    obtain ⟨host, found, rfl⟩ := flying
    rw [current] at ready
    obtain ⟨_, _, _, _, next, bounded, record, known, same⟩ := ready host found
    exact ⟨next, bounded, record, known, Nat.le_of_eq same.symm⟩
  · unfold Gateway.awaited at flying
    split at flying
    · rename_i current
      cases flying
      rw [current] at ready
      exact ready.2.1
    · cases flying
      trivial
    · cases flying
      trivial
    · cases flying

theorem Level.late_dropped {ticket other late}
    (found : (gateway.dropped digest ticket).late.get? other = some late) :
    late.write.Steps gateway.sessions := by
  unfold Gateway.dropped at found
  split at found
  · exact level.holds.late other late found
  · rename_i write flying
    split at found
    · exact level.holds.late other late found
    · rcases Dict.get?_of_insert found with ⟨_, rfl⟩ | ⟨_, before⟩
      · exact level.inFlight flying
      · exact level.holds.late other late before

/-- The work is cut off; a rotation leaves its host closed. -/
theorem Level.dropped (ticket : Nat) :
    Level digest past (gateway.dropped digest ticket) := by
  unfold Gateway.dropped
  split
  · exact level.stop
  · rename_i write flying
    split
    · exact level
    · refine Level.relate level.stop ?_ ?_ trivial
      · intro other late found
        rcases Dict.get?_of_insert found with ⟨_, rfl⟩ | ⟨_, before⟩
        · exact level.inFlight flying
        · exact level.holds.late other late before
      · intro other rival known serving leads calm slot revision rotation overtaken found
        rcases Dict.get?_of_insert found with ⟨_, same⟩ | ⟨_, before⟩
        · obtain ⟨rfl, rfl⟩ := Late.mk.inj same
          -- the rotation that is cut off belongs to another session
          unfold Gateway.inFlight at flying
          split at flying
          · rename_i number update step current
            rw [Option.map_eq_some_iff] at flying
            obtain ⟨host, present, written⟩ := flying
            have ready := level.ready
            rw [current] at ready
            have apart := level.unled current present (ready host present).2.1 known ?_ leads
            · exact absurd (Write.rotate.inj written).1.symm apart
            · exact serving.imp_right (by rintro ⟨_, _, ⟨⟩⟩)
          · unfold Gateway.awaited at flying
            split at flying
            · cases flying
            · cases flying
            · cases flying
            · cases flying
        · exact calm slot revision rotation overtaken before

end

/-! ### Hosts -/

/-- A host is opened or closed, with the work that goes with it. -/
theorem Level.rehost (level : Level digest past gateway)
    (found : gateway.hosts.get? number = some host) (flag : Bool) {work}
    (served : (flag = true ∨ ∃ id stage, work = some (.revoke id (some number) stage)) →
      Leads gateway.hub host →
      Calm gateway.late host.id ∧ Even gateway.sessions gateway.hub host.id)
    (waits : ∀ id other stage, work = some (.revoke id (some other) stage) → other ≠ number →
      ∃ id stage, gateway.current = some (.revoke id (some other) stage))
    (ready : Ready digest past { gateway with
      hosts := gateway.hosts.insert number { host with isOpen := flag } } work) :
    Level digest past { gateway with
      hosts := gateway.hosts.insert number { host with isOpen := flag }, current := work } := by
  have before {other : Nat} {rival : Host}
      (known : (gateway.hosts.insert number { host with isOpen := flag }).get? other = some rival) :
      ∃ old, gateway.hosts.get? other = some old ∧ old.id = rival.id ∧
        old.number = rival.number ∧ old.generation = rival.generation := by
    rcases Dict.get?_of_insert known with ⟨rfl, rfl⟩ | ⟨_, old⟩
    · exact ⟨host, found, rfl, rfl, rfl⟩
    · exact ⟨rival, old, rfl, rfl, rfl⟩
  refine ⟨level.table, level.running, level.holds, level.routed, ?_, ?_, ?_, ready⟩
  · intro other rival known
    obtain ⟨old, was, named, numbered, aged⟩ := before known
    rw [← named, ← numbered, ← aged]
    exact level.hosts other old was
  · intro first second one two knownOne knownTwo sameNumber sameGeneration
    obtain ⟨oldOne, wasOne, _, numberedOne, agedOne⟩ := before knownOne
    obtain ⟨oldTwo, wasTwo, _, numberedTwo, agedTwo⟩ := before knownTwo
    refine level.unique first second oldOne oldTwo wasOne wasTwo ?_ ?_
    · rw [numberedOne, numberedTwo, sameNumber]
    · rw [agedOne, agedTwo, sameGeneration]
  · intro other rival known serving leads
    rcases Dict.get?_of_insert known with ⟨rfl, rfl⟩ | ⟨apart, old⟩
    · exact served serving leads
    · refine level.serves other rival old ?_ leads
      rcases serving with still | ⟨id, stage, current⟩
      · exact .inl still
      · exact .inr (waits id other stage current apart)

/-- A host that is heard leads its session. -/
theorem Level.leads (level : Level digest past gateway) {call}
    (found : gateway.hosts.get? number = some host)
    (heard : gateway.leads digest parse host call = true) : Leads gateway.hub host := by
  obtain ⟨shared, present, generation, live⟩ := Hub.heard_current (beq_iff_eq.mp heard)
  obtain ⟨same, presentToo, named, _⟩ := level.hosts number host found
  obtain rfl := Option.mem_unique present presentToo
  have routed := level.running host.number shared present live
  rw [named] at routed
  exact ⟨shared, Hub.session_eq_some.mpr ⟨routed, present⟩, generation⟩

theorem Leads.led (leads : Leads hub host) : Led hub host := by
  obtain ⟨shared, routed, generation⟩ := leads
  intro number other found
  obtain ⟨rfl, rfl⟩ := Prod.mk.inj (Option.mem_unique routed found)
  exact ⟨rfl, generation⟩

/-! ### What is remembered -/

/-- What an output adds to the past. -/
def Past.add (past : Past) : Output → Past
  | .rotated id revision false => { past with
      rotated := fun other earlier => past.rotated other earlier ∨ (other = id ∧ earlier = revision) }
  | .revoked id revision => { past with
      revoked := fun other earlier => past.revoked other earlier ∨ (other = id ∧ earlier = revision) }
  | _ => past

theorem Past.add_rotated {output revision}
    (sent : past.rotated id revision ∨ output = .rotated id revision false) :
    (past.add output).rotated id revision := by
  unfold Past.add
  split
  · exact sent.imp_right fun same => by
      cases same
      exact ⟨rfl, rfl⟩
  · exact sent.resolve_right fun same => nomatch same
  · rename_i other _
    exact sent.resolve_right fun same => other id revision same

theorem Past.add_revoked {output revision}
    (sent : past.revoked id revision ∨ output = .revoked id revision) :
    (past.add output).revoked id revision := by
  unfold Past.add
  split
  · exact sent.resolve_right fun same => nomatch same
  · exact sent.imp_right fun same => by
      cases same
      exact ⟨rfl, rfl⟩
  · rename_i other
    exact sent.resolve_right fun same => other id revision same

/-- The host is told of a rotation. -/
theorem Level.rotated (level : Level digest past gateway) (idle : gateway.current = none) {revision}
    (even : Even gateway.sessions gateway.hub id)
    (stored : ∃ record, gateway.sessions.get? id = some record ∧ record.revision = revision) :
    Level digest (past.add (.rotated id revision false)) gateway := by
  obtain ⟨record, found, same⟩ := stored
  refine ⟨level.table, level.running, ⟨level.holds.bounded, ?_, level.holds.revoked,
    level.holds.late⟩, ?_, level.hosts, level.unique, level.serves, ?_⟩
  · intro other earlier sent
    rcases sent with before | ⟨rfl, rfl⟩
    · exact level.holds.rotated other earlier before
    · exact ⟨record, found, Nat.le_of_eq same.symm⟩
  · intro other number shared routed
    have before := level.routed other number shared routed
    refine ⟨before.behind, before.held, fun earlier sent => ?_, before.revoked⟩
    rcases sent with was | ⟨rfl, rfl⟩
    · exact before.rotated earlier was
    · obtain ⟨now, foundNow, level'⟩ := even number shared routed
      obtain rfl := Option.mem_unique found foundNow
      exact Nat.le_of_eq (same.symm.trans level'.symm)
  · rw [idle]
    trivial

/-- A revocation succeeds. -/
theorem Level.revoked (level : Level digest past gateway) (idle : gateway.current = none) {revision}
    (dead : Dead gateway.sessions id revision)
    (refused : ∀ number shared, gateway.hub.session id = some (number, shared) →
      shared.state.invitationsRevoked = true) :
    Level digest (past.add (.revoked id revision)) gateway := by
  refine ⟨level.table, level.running, ⟨level.holds.bounded, level.holds.rotated, ?_,
    level.holds.late⟩, ?_, level.hosts, level.unique, level.serves, ?_⟩
  · intro other earlier sent
    rcases sent with before | ⟨rfl, rfl⟩
    · exact level.holds.revoked other earlier before
    · exact dead
  · intro other number shared routed
    have before := level.routed other number shared routed
    refine ⟨before.behind, before.held, before.rotated, fun earlier sent => ?_⟩
    rcases sent with was | ⟨rfl, rfl⟩
    · exact before.revoked earlier was
    · exact .inr (refused number shared routed)
  · rw [idle]
    trivial

theorem Ready.recall {after : Past} {work} (ready : Ready digest past gateway work)
    (revoked : ∀ id revision, after.revoked id revision → past.revoked id revision) :
    Ready digest after gateway work := by
  unfold Ready at ready ⊢
  split
  · rename_i stage
    cases stage with
    | found record =>
        obtain ⟨calm, none, some⟩ := ready
        exact ⟨calm, fun same revision sent => none same revision (revoked _ _ sent),
          fun known read => (some known read).imp_right fun dead revision sent =>
            dead revision (revoked _ _ sent)⟩
    | inserting record =>
        obtain ⟨calm, zero, offered, none⟩ := ready
        exact ⟨calm, zero, offered, fun revision sent => none revision (revoked _ _ sent)⟩
    | ready flag persisted =>
        obtain ⟨calm, same, dead⟩ := ready
        exact ⟨calm, same, fun revision sent => dead revision (revoked _ _ sent)⟩
    | start | admitted | cleared => trivial
  · rename_i stage
    intro host found
    obtain ⟨closed, turning⟩ := ready host found
    refine ⟨closed, ?_⟩
    cases stage with
    | matched =>
        obtain ⟨led, calm, offered, newer⟩ := turning
        exact ⟨led, calm, offered, fun revision sent => newer revision (revoked _ _ sent)⟩
    | start | finding | found | updating => exact turning
  · exact ready
  · trivial

/-- More may have been held, and nothing else was added. -/
theorem Level.recall (level : Level digest past gateway) {after : Past}
    (held : ∀ id invitation, past.held id invitation → after.held id invitation)
    (rotated : ∀ id revision, after.rotated id revision → past.rotated id revision)
    (revoked : ∀ id revision, after.revoked id revision → past.revoked id revision) :
    Level digest after gateway := by
  refine ⟨level.table, level.running, ⟨level.holds.bounded,
    fun id revision sent => level.holds.rotated id revision (rotated _ _ sent),
    fun id revision sent => level.holds.revoked id revision (revoked _ _ sent), level.holds.late⟩,
    fun id number shared found => ?_, level.hosts, level.unique, level.serves, ?_⟩
  · have routed := level.routed id number shared found
    exact ⟨routed.behind, held _ _ routed.held, fun revision sent =>
      routed.rotated revision (rotated _ _ sent), fun revision sent =>
      routed.revoked revision (revoked _ _ sent)⟩
  · exact level.ready.recall revoked

end Steps

section Work

variable {digest : String → String} {parse : String → Option Description}
  {past : Past} {gateway : Gateway} {id : String} {record : Record}
  {persisted : Option PersistedInvitations} {machine : String} {hello : HostHello} {number : Nat}
  {update : InvitationUpdate} {host : Host}

/-- What is persisted is what the record holds. -/
theorem persisted_invitation (done : record.persisted = .ok persisted) : record.invitation =
      (persisted.map Hub.persistedInvitation).getD (0, record.writeHash, record.readHash) := by
  unfold Record.persisted at done
  unfold Record.invitation
  split at done
  · rename_i none
    cases done
    rw [Record.revision, none]
    rfl
  · rename_i zero
    cases done
    rw [Record.revision, zero]
    rfl
  · rename_i revision positive some
    split at done
    · cases done
    · dsimp only at done
      split at done
      · cases done
        have same : record.revision = revision := by
          rw [Record.revision, some]
          rfl
        have apart : revision ≠ 0 := by
          rintro rfl
          exact positive rfl
        rw [same, if_neg apart]
        rfl
      · cases done

theorem offered_revision {write read} (offered : record.invitation =
      (persisted.map Hub.persistedInvitation).getD (0, write, read)) :
    record.revision = (persisted.map (·.revision)).getD 0 := by
  rw [← record.invitation_revision, offered]
  cases persisted with
  | none => rfl
  | some persisted => rfl

theorem admits_invitation (admits : record.admits digest machine hello = .ok persisted) :
    record.invitation =
      (persisted.map Hub.persistedInvitation).getD
        (0, digest hello.writeToken, digest hello.readToken) := by
  obtain ⟨stored, _, write, read⟩ := admits_checks admits
  rw [← write, ← read]
  exact persisted_invitation stored

theorem Level.register {stage} (level : Level digest past gateway) (reading : Reading)
    (current : gateway.current = some (.register machine hello stage))
    (early : ∀ revoked persisted, stage ≠ .ready revoked persisted) :
    Level digest past (gateway.register digest parse machine hello reading stage).1 := by
  have ready := level.ready
  rw [current] at ready
  have go {next : RegisterStage} (ready : Admitting digest past gateway hello next) :
      Level digest past (gateway.go (.register machine hello next)) :=
    level.go ready fun _ _ _ same => by cases same
  cases stage with
  | start =>
      simp only [Gateway.register]
      split
      · exact level.stop
      · split
        · exact level.stop
        · exact go trivial
  | admitted =>
      simp only [Gateway.register]
      split
      · exact level.stop
      · exact go trivial
  | cleared =>
      refine (level.read hello.id).go ⟨calm_read gateway hello.id, fun absent revision sent => ?_,
        fun known read => ⟨⟨known, read, .refl known⟩, fun revision sent => ?_⟩⟩
        fun _ _ _ same => by cases same
      · obtain ⟨record, found, _⟩ := level.holds.revoked hello.id revision sent
        cases absent.symm.trans found
      · obtain ⟨record, found, past⟩ := level.holds.revoked hello.id revision sent
        obtain rfl := Option.mem_unique found read
        exact past.imp_right And.right
  | found record =>
      obtain ⟨calm, unknown, known⟩ := ready
      cases record with
      | none =>
          simp only [Gateway.register]
          split
          · exact level.stop
          · exact go ⟨calm, rfl, rfl, unknown rfl⟩
      | some record =>
          simp only [Gateway.register]
          split
          · exact level.stop
          · rename_i persisted admits
            obtain ⟨⟨now, found, agrees⟩, dead⟩ := known record rfl
            have offered := admits_invitation admits
            refine go ⟨calm, ⟨now, found, agrees.invitation.trans offered⟩, fun revision sent => ?_⟩
            refine (dead revision sent).imp_left fun newer => ?_
            rwa [← offered_revision offered]
  | inserting record =>
      obtain ⟨calm, zero, offered, unsent⟩ := ready
      simp only [Gateway.register]
      split
      · exact level.stop
      · rename_i sessions count counted inserted
        have same : sessions = ((Write.insert hello.id record).apply gateway.sessions).1 := by
          rw [inserted]
        have applied := level.apply_loose (.insert hello.id record) zero
          fun _ _ _ _ same => by cases same
        subst same
        refine applied.go ⟨calm, ⟨record, ?_, offered⟩, fun revision sent => ?_⟩
          fun _ _ _ same => by cases same
        · simp only [Write.apply] at inserted ⊢
          split at inserted
          · cases inserted
            exact absurd rfl counted
          · rename_i absent
            rw [if_neg absent]
            exact Dict.get?_insert_self _ _ _
        · exact absurd sent (unsent revision)
  | ready revoked persisted => exact absurd rfl (early revoked persisted)

theorem add_one_le {generation : UInt64} {least} (bounded : generation.toNat + 1 < 2 ^ 64)
    (below : least ≤ generation) : least < generation + 1 := by
  rw [UInt64.lt_iff_toNat_lt, UInt64.toNat_add]
  rw [UInt64.le_iff_toNat_le] at below
  have one : (1 : UInt64).toNat = 1 := rfl
  omega

/-- The session of a new host has what its record holds. -/
theorem Level.offered {revoked hub generation later now} (level : Level digest past gateway)
    (leased : Hub.Leased digest gateway.hub hub hello revoked persisted number generation later)
    (found : gateway.sessions.get? hello.id = some now)
    (offered : now.invitation = (persisted.map Hub.persistedInvitation).getD
      (0, digest hello.writeToken, digest hello.readToken))
    (known : past.held hello.id now.invitation) :
    later.state.invitationRevision = now.revision ∧ past.held hello.id later.state.invitation := by
  have same (equal : later.state.invitation = now.invitation) :
      later.state.invitationRevision = now.revision ∧
        past.held hello.id later.state.invitation := by
    refine ⟨?_, equal ▸ known⟩
    rw [← now.invitation_revision, ← equal]
    rfl
  have installed := leased.invitation
  cases persisted with
  | some persisted => exact same (installed.trans offered.symm)
  | none =>
      cases routed : gateway.hub.session hello.id with
      | none =>
          rw [routed] at installed
          exact same (installed.trans offered.symm)
      | some entry =>
          obtain ⟨other, shared⟩ := entry
          rw [routed] at installed
          have equal : later.state.invitation = shared.state.invitation := installed
          have before := level.routed hello.id other shared routed
          obtain ⟨record, present, least⟩ := before.behind
          obtain rfl := Option.mem_unique found present
          have zero : now.revision = 0 := by
            rw [← now.invitation_revision, offered]
            rfl
          refine ⟨?_, equal ▸ before.held⟩
          have level' : later.state.invitationRevision = shared.state.invitationRevision :=
            congrArg Prod.fst equal
          omega

/-- A host that is served, whose session is routed as before. -/
theorem Level.apart {hub} (level : Level digest past gateway)
    (found : gateway.hosts.get? number = some host)
    (same : hub.session host.id = gateway.hub.session host.id) (open' : host.isOpen = true)
    (leads : Leads hub host) :
    Calm gateway.late host.id ∧ Even gateway.sessions hub host.id := by
  rw [Leads, same] at leads
  rw [Even, same]
  exact level.serves number host found (.inl open') leads

/-- A registration is completed. -/
theorem Level.leased {machine hello revoked persisted hub number slot generation later}
    (level : Level digest past gateway)
    (current : gateway.current = some (.register machine hello (.ready revoked persisted)))
    (known : past.Covers gateway.sessions)
    (bounded : ∀ number shared, gateway.hub.session hello.id = some (number, shared) →
      shared.state.generation.toNat + 1 < 2 ^ 64) (table : Hub.Table hub) (running : hub.Running)
    (leased : Hub.Leased digest gateway.hub hub hello revoked persisted number generation later) :
    Level digest past { gateway with
      hub
      hosts := gateway.hosts.insert slot ⟨hello.id, number, generation, true⟩
      current := none } := by
  have ready := level.ready
  rw [current] at ready
  obtain ⟨calm, ⟨now, found, offered⟩, dead⟩ := ready
  -- the session is routed with the revision of the record
  obtain ⟨revision, held⟩ := level.offered leased found offered (known hello.id now found)
  have named : later.id = hello.id := by
    obtain ⟨here, present⟩ := Hub.session_eq_some.mp leased.routed
    obtain ⟨same, presentToo, title, _⟩ := table.listed.routed _ _ here
    obtain rfl := Option.mem_unique present presentToo
    exact title
  have even : Even gateway.sessions hub hello.id := by
    intro other shared routed
    rw [leased.routed] at routed
    cases routed
    exact ⟨now, found, revision⟩
  have older {other : Nat} {host : Host} (was : gateway.hosts.get? other = some host)
      (same : host.number = number) : host.generation < generation := by
    obtain ⟨shared, present, _, least⟩ := level.hosts other host was
    rw [same] at present
    rw [leased.next, present]
    exact add_one_le (bounded number shared (leased.prior shared present)) least
  refine ⟨table, running, level.holds, ?_, ?_, ?_, ?_, trivial⟩
  · intro id other shared routed
    by_cases same : id = hello.id
    · subst same
      rw [leased.routed] at routed
      cases routed
      refine ⟨⟨now, found, Nat.le_of_eq revision⟩, held, ?_, ?_⟩
      · intro earlier sent
        obtain ⟨record, present, least⟩ := level.holds.rotated hello.id earlier sent
        obtain rfl := Option.mem_unique found present
        exact revision ▸ least
      · intro earlier sent
        refine (dead earlier sent).imp (fun newer => ?_) leased.refused
        rw [revision, offered_revision offered]
        exact newer
    · rw [leased.others id same] at routed
      exact level.routed id other shared routed
  · intro other host was
    rcases Dict.get?_of_insert was with ⟨rfl, rfl⟩ | ⟨_, before⟩
    · obtain ⟨here, present⟩ := Hub.session_eq_some.mp leased.routed
      refine ⟨later, present, named, ?_⟩
      rw [leased.current]
      exact UInt64.le_refl _
    · obtain ⟨shared, present, same, least⟩ := level.hosts other host before
      by_cases here : host.number = number
      · rw [here] at present ⊢
        obtain ⟨routed, _⟩ := Hub.session_eq_some.mp (leased.prior shared present)
        obtain ⟨_, presentToo, title, _⟩ := level.table.listed.routed _ _ routed
        obtain rfl := Option.mem_unique present presentToo
        refine ⟨later, (Hub.session_eq_some.mp leased.routed).2, ?_, ?_⟩
        · rw [named, ← title, same]
        · rw [leased.current]
          exact UInt64.le_of_lt (older before here)
      · exact ⟨shared, leased.sessions _ _ here present, same, least⟩
  · intro first second one two wasOne wasTwo sameNumber sameGeneration
    rcases Dict.get?_of_insert wasOne with ⟨rfl, rfl⟩ | ⟨_, oneBefore⟩
    · rcases Dict.get?_of_insert wasTwo with ⟨rfl, rfl⟩ | ⟨_, twoBefore⟩
      · rfl
      · exact absurd sameGeneration.symm (UInt64.ne_of_lt (older twoBefore sameNumber.symm))
    · rcases Dict.get?_of_insert wasTwo with ⟨rfl, rfl⟩ | ⟨_, twoBefore⟩
      · exact absurd sameGeneration (UInt64.ne_of_lt (older oneBefore sameNumber))
      · exact level.unique first second one two oneBefore twoBefore sameNumber sameGeneration
  · intro other host was serving leads
    by_cases same : host.id = hello.id
    · rw [same]
      exact ⟨calm, even⟩
    · rcases Dict.get?_of_insert was with ⟨rfl, rfl⟩ | ⟨_, before⟩
      · exact absurd rfl same
      · refine level.apart before (leased.others host.id same) ?_ leads
        exact serving.resolve_right fun ⟨_, _, revoking⟩ => nomatch revoking

/-- The last step of a registration. -/
theorem Level.enroll {revoked} (level : Level digest past gateway)
    (collisionless : Hub.Collisionless digest) (reading : Reading)
    (current : gateway.current = some (.register machine hello (.ready revoked persisted)))
    (known : past.Covers gateway.sessions)
    (bounded : ∀ number shared, gateway.hub.session hello.id = some (number, shared) →
      shared.state.generation.toNat + 1 < 2 ^ 64) :
    Level digest past (gateway.register digest parse machine hello reading
      (.ready revoked persisted)).1 := by
  have changes := Hub.step_changes level.table.sized digest parse
    (.register machine hello (reading.now 0) revoked persisted, reading.call)
  have table := level.table.changes collisionless changes
  have running : (gateway.hub.step digest parse
      (.register machine hello (reading.now 0) revoked persisted, reading.call)).1.Running :=
    Hub.Running.step level.running _
  simp only [Gateway.register]
  cases result : (gateway.hub.registerAuthorized digest reading.call machine hello (reading.now 0)
      revoked persisted).2 with
  | ok lease =>
      obtain ⟨number, generation⟩ := lease
      obtain ⟨later, leased⟩ := level.table.registers result
      have answered : (gateway.hub.step digest parse
          (.register machine hello (reading.now 0) revoked persisted, reading.call)).2 =
          .lease number generation := by
        simp only [Hub.System.step, result]
        rfl
      split
      · rename_i hub other aged stepped
        rw [stepped] at answered table running
        obtain ⟨rfl, rfl⟩ := Hub.Answer.lease.inj answered
        have same : hub = (gateway.hub.registerAuthorized digest reading.call machine hello
            (reading.now 0) revoked persisted).1 := (congrArg Prod.fst stepped).symm
        rw [← same] at leased
        exact level.leased current known bounded table running leased
      · rename_i hub answer different stepped
        rw [stepped] at answered
        exact absurd answered (different number generation)
  | error message =>
      have unchanged := level.table.unregistered (fun lease done => by
        rw [result] at done
        cases done)
      have answered : (gateway.hub.step digest parse
          (.register machine hello (reading.now 0) revoked persisted, reading.call)).2 =
          .failed message := by
        simp only [Hub.System.step, result]
        rfl
      split
      · rename_i stepped
        rw [stepped] at answered
        cases answered
      · rename_i hub answer _ stepped
        have same : hub = gateway.hub := (congrArg Prod.fst stepped).symm.trans unchanged
        rw [same]
        exact level.stop

theorem Level.finish {reason stage} (level : Level digest past gateway)
    (collisionless : Hub.Collisionless digest) (reading : Reading)
    (current : gateway.current = some (.finish id reason stage)) :
    Level digest past (gateway.finish digest parse id reason reading stage).1 := by
  have spawn {number : Nat} {job : Job} {next : FinishStage} :
      Level digest past (gateway.spawn number job (.finish id reason next)).1 := by
    unfold Gateway.spawn
    split
    · exact level
    · have moved : Level digest past { gateway with current := some (.finish id reason next) } :=
        level.go trivial fun _ _ _ same => by cases same
      exact ⟨moved.table, moved.running, moved.holds, moved.routed, moved.hosts, moved.unique,
        moved.serves, moved.ready⟩
  have go {next : FinishStage} : Level digest past (gateway.go (.finish id reason next)) :=
    level.go trivial fun _ _ _ same => by cases same
  cases stage with
  | start => exact spawn
  | recording job =>
      simp only [Gateway.finish]
      split
      · exact go
      · have moved : Level digest past (gateway.go (.finish id reason .recorded)) := go
        exact ⟨moved.table, moved.running, moved.holds, moved.routed, moved.hosts, moved.unique,
          moved.serves, moved.ready⟩
      · exact level
  | recorded =>
      have moved : Level digest past (gateway.go (.finish id reason .granting)) := go
      exact moved.settled collisionless parse (.remove id reason true) rfl reading.call
  | granting => exact go
  | updating =>
      have applied := level.apply_loose (.finish id) trivial fun _ _ _ _ same => by cases same
      exact applied.go trivial fun _ _ _ same => by cases same
  | updated => exact spawn
  | removing job =>
      simp only [Gateway.finish]
      split
      · exact level.stop
      · exact level

/-- What a rotation decides on is one step on, or what is stored already. -/
theorem decide_replace {now current} (bounded : record.revision < 2 ^ 63)
    (decided : Record.decide digest (some record) update now = .replace current) :
    current = record.revision ∧ update.revision = current + 1 ∧ update.revision < 2 ^ 63 := by
  simp only [Record.decide] at decided
  split at decided
  · split at decided
    · rename_i small
      split at decided
      · split at decided <;> cases decided
      · rename_i different
        split at decided
        · cases decided
        · split at decided
          · rename_i next
            cases decided
            refine ⟨rfl, ?_, small⟩
            by_cases last : record.revision = 2 ^ 63 - 1
            · rw [last] at next different
              omega
            · omega
          · cases decided
    · cases decided
  · cases decided

theorem decide_repeated {now revoked}
    (decided : Record.decide digest (some record) update now = .repeated revoked) :
    update.revision = record.revision := by
  simp only [Record.decide] at decided
  split at decided
  · split at decided
    · split at decided
      · rename_i same
        exact same.1
      · split at decided
        · cases decided
        · split at decided <;> cases decided
    · cases decided
  · cases decided

section

variable (level : Level digest past gateway)

include level

/-- The host is told that its invitations are in place. -/
theorem Level.tell {revoked}
    (found : gateway.hosts.get? number = some host) (calm : Calm gateway.late host.id)
    (even : Even gateway.sessions gateway.hub host.id)
    (stored : ∃ now, gateway.sessions.get? host.id = some now ∧ now.revision = update.revision) :
    Level digest (past.add (.rotated host.id update.revision revoked))
      (gateway.reopen number host).stop := by
  have opened : Level digest past (gateway.reopen number host).stop :=
    level.rehost found true (fun _ _ => ⟨calm, even⟩) (fun _ _ _ same => by cases same) trivial
  cases revoked with
  | true => exact opened
  | false => exact opened.rotated rfl even stored

theorem Level.rotate {stage} (reading : Reading)
    (current : gateway.current = some (.rotate number update stage))
    (found : gateway.hosts.get? number = some host) (early : stage ≠ .matched) :
    Level digest (past.add (gateway.rotate digest parse number host update reading stage).2)
      (gateway.rotate digest parse number host update reading stage).1 := by
  have ready := level.ready
  rw [current] at ready
  obtain ⟨closed, turning⟩ := ready host found
  have go {next : RotateStage} (turning : Turning digest past gateway host update next) :
      Level digest past (gateway.go (.rotate number update next)) := by
    refine level.go (fun same known => ?_) fun _ _ _ same => by cases same
    obtain rfl := Option.mem_unique found known
    exact ⟨closed, turning⟩
  cases stage with
  | start =>
      simp only [Gateway.rotate]
      split
      · rename_i heard
        have leads := level.leads found heard
        obtain ⟨calm, even⟩ := turning leads
        exact go ⟨leads.led, calm, even⟩
      · exact level.stop
  | finding =>
      obtain ⟨led, calm, even⟩ := turning
      exact go ⟨led, calm, even, fun known read => ⟨known, read, rfl⟩⟩
  | found record =>
      obtain ⟨led, calm, even, same⟩ := turning
      simp only [Gateway.rotate]
      cases record with
      | none => exact level.stop
      | some record =>
          obtain ⟨now, present, read⟩ := same record rfl
          split
          · exact level.stop
          · rename_i revoked decided
            exact level.tell found calm even
              ⟨now, present, read.trans (decide_repeated decided).symm⟩
          · rename_i revision decided
            have bounded : record.revision < 2 ^ 63 := read ▸ level.holds.bounded _ _ present
            obtain ⟨rfl, next, small⟩ := decide_replace bounded decided
            exact go ⟨led, calm, even, next, small, now, present, read⟩
  | updating revision =>
      obtain ⟨led, calm, even, next, small, now, present, read⟩ := turning
      have steps : (Write.rotate host.id revision (rotation digest update)).Steps gateway.sessions :=
        ⟨next, small, now, present, Nat.le_of_eq read.symm⟩
      simp only [Gateway.rotate]
      split
      · exact level.stop
      · rename_i sessions count counted updated
        have same : sessions = ((Write.rotate host.id revision (rotation digest update)).apply
            gateway.sessions).1 := by
          rw [updated]
        subst same
        have applied := level.stop.apply (.rotate host.id revision (rotation digest update)) steps
          (fun other rival known serving leads step turned same => by
            have apart := level.unled current found led known
              (serving.imp_right (by rintro ⟨_, _, ⟨⟩⟩)) leads
            exact apart (Write.rotate.inj same).1.symm) trivial
        have moved : Level digest past ({ gateway with
            sessions := ((Write.rotate host.id revision (rotation digest update)).apply
              gateway.sessions).1 }.go (.rotate number update .matched)) := by
          refine applied.go (fun same known => ?_) fun _ _ _ same => by cases same
          obtain rfl := Option.mem_unique found known
          refine ⟨closed, led, calm, ?_, fun earlier sent => ?_⟩
          · refine ⟨now.rotate (rotation digest update), ?_, ?_⟩
            · have matched : ((Write.rotate host.id revision (rotation digest update)).apply
                  gateway.sessions).2 ≠ 0 := by
                rw [updated]
                exact counted
              exact Write.rotates present matched
            · have positive : 0 < (rotation digest update).revision := by
                have same : (rotation digest update).revision = update.revision := rfl
                omega
              exact now.rotate_invitation positive
          · obtain ⟨record, foundToo, past⟩ := level.holds.revoked host.id earlier sent
            obtain rfl := Option.mem_unique present foundToo
            rcases past with newer | ⟨equal, _⟩
            · omega
            · omega
        exact moved
  | matched => exact absurd rfl early

/-- The hub follows the database. -/
theorem Level.follow {hub}
    (current : gateway.current = some (.rotate number update .matched))
    (found : gateway.hosts.get? number = some host)
    (known : past.Covers gateway.sessions)
    (table : Hub.Table hub) (running : hub.Running)
    (rotated : Hub.Rotated digest gateway.hub hub host.id update) :
    Level digest past { gateway with hub, current := none } ∧
      Even gateway.sessions hub host.id := by
  have ready := level.ready
  rw [current] at ready
  obtain ⟨closed, led, calm, ⟨now, present, offered⟩, newer⟩ := ready host found
  obtain ⟨target, shared, later, before, after, invitation⟩ := rotated.routed
  have equal : later.state.invitation = now.invitation := invitation.trans offered.symm
  have revision : later.state.invitationRevision = now.revision := by
    rw [← now.invitation_revision, ← equal]
    rfl
  have same {other : Nat} {shared : Hub.Shared} (routed : hub.session host.id = some (other, shared)) :
      shared = later := by
    rw [after] at routed
    exact (Prod.mk.inj (Option.some.inj routed)).2.symm
  have even : Even gateway.sessions hub host.id := by
    intro other shared routed
    rw [same routed]
    exact ⟨now, present, revision⟩
  refine ⟨⟨table, running, level.holds, ?_, ?_, level.unique, ?_, trivial⟩, even⟩
  · intro id other shared routed
    by_cases here : id = host.id
    · subst here
      obtain rfl := same routed
      refine ⟨⟨now, present, Nat.le_of_eq revision⟩, equal ▸ known _ now present, ?_, ?_⟩
      · intro earlier sent
        obtain ⟨record, foundToo, least⟩ := level.holds.rotated host.id earlier sent
        obtain rfl := Option.mem_unique present foundToo
        exact revision ▸ least
      · intro earlier sent
        have step : shared.state.invitationRevision = update.revision := congrArg Prod.fst invitation
        exact .inl (step ▸ newer earlier sent)
    · rw [rotated.others id here] at routed
      exact level.routed id other shared routed
  · intro other rival was
    obtain ⟨shared, there, named, least⟩ := level.hosts other rival was
    obtain ⟨later, thereNow, titled, generation⟩ := rotated.sessions _ _ there
    exact ⟨later, thereNow, titled.trans named, by rw [generation]; exact least⟩
  · intro other rival was serving leads
    by_cases here : rival.id = host.id
    · rw [here]
      exact ⟨calm, even⟩
    · refine level.apart was (rotated.others rival.id here) ?_ leads
      exact serving.resolve_right fun ⟨_, _, revoking⟩ => nomatch revoking

theorem Level.matched (collisionless : Hub.Collisionless digest)
    (reading : Reading) (current : gateway.current = some (.rotate number update .matched))
    (found : gateway.hosts.get? number = some host)
    (known : past.Covers gateway.sessions) :
    Level digest (past.add (gateway.rotate digest parse number host update reading .matched).2)
      (gateway.rotate digest parse number host update reading .matched).1 := by
  have changes := Hub.step_changes level.table.sized digest parse
    (.rotate host.id host.generation update, reading.call)
  have table := level.table.changes collisionless changes
  have running : (gateway.hub.step digest parse
      (.rotate host.id host.generation update, reading.call)).1.Running :=
    Hub.Running.step level.running _
  have ready := level.ready
  rw [current] at ready
  obtain ⟨_, _, calm, ⟨now, present, offered⟩, _⟩ := ready host found
  simp only [Gateway.rotate]
  split
  · rename_i hub stepped
    rw [stepped] at table running
    have done : (gateway.hub.rotateInvitations digest reading.call host.id host.generation
        update).2 = .ok () := by
      have answered := congrArg Prod.snd stepped
      simp only [Hub.System.step] at answered
      cases result : (gateway.hub.rotateInvitations digest reading.call host.id host.generation
        update).2 with
      | ok => rfl
      | error message =>
          rw [result] at answered
          cases answered
    have rotated := level.table.rotates done
    have same : hub = (gateway.hub.rotateInvitations digest reading.call host.id host.generation
        update).1 := (congrArg Prod.fst stepped).symm
    rw [← same] at rotated
    obtain ⟨followed, even⟩ := level.follow current found known table running rotated
    have stored : now.revision = update.revision := by
      rw [← now.invitation_revision, offered]
    have told : Level digest (past.add (.rotated host.id update.revision false))
        ({ gateway with hub, current := none }.reopen number host).stop :=
      Level.tell followed found calm even ⟨now, present, stored⟩
    exact told
  · rename_i hub answer different stepped
    have unchanged : (gateway.hub.rotateInvitations digest reading.call host.id host.generation
        update).1 = gateway.hub := by
      refine level.table.unrotated fun done => ?_
      have answered := congrArg Prod.snd stepped
      simp only [Hub.System.step, done] at answered
      exact different answered.symm
    have same : hub = gateway.hub := (congrArg Prod.fst stepped).symm.trans unchanged
    rw [same]
    exact level.stop

/-- The routed session refuses its invitations from now on. -/
theorem Level.refuse (collisionless : Hub.Collisionless digest)
    (id : String) (call : Hub.Call) :
    Level digest past (gateway.refuse digest parse id call) ∧
      ∀ number shared, (gateway.refuse digest parse id call).hub.session id = some (number, shared) →
        shared.state.invitationsRevoked = true := by
  unfold Gateway.refuse
  split
  · rename_i absent
    refine ⟨level, fun number shared found => ?_⟩
    rw [(Hub.session_eq_some.mp found).1] at absent
    cases absent
  · rename_i target routed
    refine ⟨level.settled collisionless parse (.session target .revoke) rfl call,
      fun number shared found => ?_⟩
    obtain ⟨old, present, _⟩ := level.table.listed.routed id target routed
    obtain ⟨later, there, flag⟩ := Hub.revoke_refuses digest parse call present
    obtain ⟨here, known⟩ := Hub.session_eq_some.mp found
    have sub : (gateway.hub.step digest parse (.session target .revoke, call)).1.sessions.Sub
        gateway.hub.sessions := Hub.sessions_sub gateway.hub digest parse rfl call
    obtain rfl := Option.some.inj (routed.symm.trans (sub id number here))
    obtain rfl := Option.mem_unique known there
    exact flag

theorem Level.revoke {host stage}
    (collisionless : Hub.Collisionless digest) (reading : Reading)
    (current : gateway.current = some (.revoke id host stage)) :
    Level digest (past.add (gateway.revoke digest parse id host reading stage).2)
      (gateway.revoke digest parse id host reading stage).1 := by
  have waits (next : RevokeStage) : ∀ target number step,
      some (Work.revoke id host next) = some (.revoke target (some number) step) →
      ∃ id stage, gateway.current = some (.revoke id (some number) stage) := by
    intro target number step same
    cases same
    exact ⟨id, stage, current⟩
  have ready := level.ready
  rw [current] at ready
  cases stage with
  | start =>
      cases host with
      | none => exact level.go trivial (waits .updating)
      | some number =>
          simp only [Gateway.revoke]
          split
          · exact level.stop
          · split
            · exact level.go trivial (waits .updating)
            · exact level.stop
  | updating =>
      simp only [Gateway.revoke]
      split
      · exact level.stop
      · rename_i record sessions count counted updated
        have same : sessions = ((Write.revoke id).apply gateway.sessions).1 := by
          rw [updated]
        have matched : ((Write.revoke id).apply gateway.sessions).2 ≠ 0 := by
          rw [updated]
          exact counted
        have applied := level.apply_loose (.revoke id) trivial fun _ _ _ _ same => by cases same
        subst same
        refine applied.go ?_ (waits _)
        exact dead_revoke matched
  | matched revision =>
      obtain ⟨refused, flags⟩ := level.refuse collisionless id reading.call
      have same : (gateway.refuse digest parse id reading.call).current = gateway.current := by
        unfold Gateway.refuse
        split <;> rfl
      have dead : Dead (gateway.refuse digest parse id reading.call).sessions id revision := by
        have kept : (gateway.refuse digest parse id reading.call).sessions = gateway.sessions := by
          unfold Gateway.refuse
          split <;> rfl
        rw [kept]
        exact ready
      simp only [Gateway.revoke]
      split
      · exact refused.stop.revoked rfl dead flags
      · rename_i lease found
        obtain ⟨number, asked, known⟩ := Option.bind_eq_some_iff.mp found
        subst asked
        have opened : Level digest past
            ((gateway.refuse digest parse id reading.call).reopen number lease).stop := by
          refine refused.rehost known true (fun _ => ?_) (fun _ _ _ same => by cases same) trivial
          exact refused.serves number lease known (.inr ⟨id, _, same.trans current⟩)
        exact opened.revoked rfl dead flags

end

/-- No rotation takes effect once a registration has overtaken it, and no
    session has so many registrations that its generation wraps around. -/
structure Timely (gateway : Gateway) (event : Event) : Prop where
  landing : ∀ ticket id current rotation, event = .land ticket →
    gateway.late.get? ticket ≠ some ⟨.rotate id current rotation, true⟩
  renewing : ∀ reading machine hello revoked persisted number shared, event = .advance reading →
    gateway.current = some (.register machine hello (.ready revoked persisted)) →
    gateway.hub.session hello.id = some (number, shared) →
    shared.state.generation.toNat + 1 < 2 ^ 64

theorem Level.advance (level : Level digest past gateway) (collisionless : Hub.Collisionless digest)
    (reading : Reading) (timely : Timely gateway (.advance reading))
    (known : past.Covers gateway.sessions) :
    Level digest (past.add (gateway.advance digest parse reading).2)
      (gateway.advance digest parse reading).1 := by
  unfold Gateway.advance
  split
  · exact level
  · rename_i machine hello stage current
    have quiet : past.add (gateway.register digest parse machine hello reading stage).2 = past := by
      unfold Gateway.register
      repeat' split
      all_goals rfl
    rw [quiet]
    cases stage with
    | ready revoked persisted =>
        exact level.enroll collisionless reading current known fun number shared routed =>
          timely.renewing reading machine hello revoked persisted number shared rfl current routed
    | _ => exact level.register reading current fun _ _ same => by cases same
  · rename_i id reason stage current
    have quiet : past.add (gateway.finish digest parse id reason reading stage).2 = past := by
      unfold Gateway.finish Gateway.spawn
      repeat' split
      all_goals rfl
    rw [quiet]
    exact level.finish collisionless reading current
  · rename_i number update stage current
    split
    · exact level.stop
    · rename_i host found
      cases stage with
      | matched => exact level.matched collisionless reading current found known
      | _ => exact level.rotate reading current found fun same => by cases same
  · rename_i id host stage current
    exact level.revoke collisionless reading current

theorem Level.occupy {work : Host → Work} (level : Level digest past gateway)
    (waits : ∀ host id other stage, work host = .revoke id (some other) stage → other = number)
    (ready : ∀ host, gateway.hosts.get? number = some host →
      (Leads gateway.hub host →
        Calm gateway.late host.id ∧ Even gateway.sessions gateway.hub host.id) →
      Ready digest past { gateway with
        hosts := gateway.hosts.insert number { host with isOpen := false } } (some (work host))) :
    Level digest past (gateway.occupy number work).1 := by
  unfold Gateway.occupy
  split
  · exact level
  · rename_i host found
    split
    · rename_i open'
      have served := level.serves number host found (.inl open')
      refine level.rehost found false (fun _ => served) (fun id other stage same apart => ?_)
        (ready host found served)
      exact absurd (waits host id other stage (Option.some.inj same)) apart
    · exact level

theorem Ready.close {work} (ready : Ready digest past gateway work)
    (found : gateway.hosts.get? number = some host) :
    Ready digest past { gateway with
      hosts := gateway.hosts.insert number { host with isOpen := false } } work := by
  unfold Ready at ready ⊢
  split
  · rename_i stage
    cases stage <;> exact ready
  · rename_i stage
    intro other present
    rcases Dict.get?_of_insert present with ⟨rfl, rfl⟩ | ⟨_, before⟩
    · obtain ⟨_, turning⟩ := ready host found
      refine ⟨rfl, ?_⟩
      cases stage <;> exact turning
    · obtain ⟨closed, turning⟩ := ready other before
      refine ⟨closed, ?_⟩
      cases stage <;> exact turning
  · exact ready
  · trivial

/-- The invariant does not see the journal. -/
theorem Level.beside (level : Level digest past gateway) {next : Gateway}
    (sessions : next.sessions = gateway.sessions) (late : next.late = gateway.late)
    (hub : next.hub = gateway.hub) (hosts : next.hosts = gateway.hosts)
    (current : next.current = gateway.current) : Level digest past next := by
  obtain ⟨_, _, markers, _, fault, _, jobs, _, pending⟩ := next
  dsimp only at sessions late hub hosts current
  subst sessions late hub hosts current
  exact ⟨level.table, level.running, level.holds, level.routed, level.hosts, level.unique,
    level.serves, level.ready⟩

theorem work_beside (past : Past) (gateway : Gateway) (number : Nat) (job : Job) (ok : Bool) :
    let result := gateway.work number job ok
    (result.1.sessions = gateway.sessions ∧ result.1.late = gateway.late ∧
      result.1.hub = gateway.hub ∧ result.1.hosts = gateway.hosts ∧
      result.1.current = gateway.current) ∧ past.add result.2 = past := by
  unfold Gateway.work
  repeat' split
  all_goals exact ⟨⟨rfl, rfl, rfl, rfl, rfl⟩, rfl⟩

theorem Level.work (level : Level digest past gateway) {job ok} :
    Level digest (past.add (gateway.work number job ok).2) (gateway.work number job ok).1 := by
  obtain ⟨⟨sessions, late, hub, hosts, current⟩, quiet⟩ :=
    work_beside past gateway number job ok
  rw [quiet]
  exact level.beside sessions late hub hosts current

/-- After a crash nothing is routed and no host is connected. -/
theorem Level.crash (level : Level digest past gateway) (ticket : Nat) {next : Gateway}
    (sessions : next.sessions = gateway.sessions)
    (late : next.late = (gateway.dropped digest ticket).late) (hub : next.hub = .new)
    (hosts : next.hosts = .empty) (current : next.current = none) : Level digest past next := by
  have absent {number : Nat} {host : Host} (found : next.hosts.get? number = some host) : False := by
    rw [hosts] at found
    cases found
  refine ⟨?_, ?_, ?_, ?_, fun number host found => (absent found).elim,
    fun number other host rival found => (absent found).elim,
    fun number host found => (absent found).elim, ?_⟩
  · rw [hub]
    exact Hub.table_new
  · rw [hub]
    exact Hub.running_new
  · rw [sessions, late]
    exact ⟨level.holds.bounded, level.holds.rotated, level.holds.revoked,
      fun other late' found => level.late_dropped found⟩
  · intro id number shared found
    rw [hub] at found
    cases found
  · rw [current]
    trivial

theorem Level.step {label next} (level : Level digest past gateway)
    (collisionless : Hub.Collisionless digest)
    (taken : answers (Gateway.step digest parse) gateway label next)
    (timely : Timely gateway label.1)
    (known : past.Covers gateway.sessions) :
    Level digest (past.add label.2) next := by
  obtain ⟨event, output⟩ := label
  have state : (gateway.step digest parse event).1 = next := congrArg Prod.fst taken
  have put : (gateway.step digest parse event).2 = output := congrArg Prod.snd taken
  subst state put
  dsimp only at timely ⊢
  cases event with
  | register machine hello | finish id reason | reconcile id =>
      simp only [Gateway.step]
      split
      · exact level
      · exact level.go trivial fun _ _ _ same => by cases same
  | scan ids =>
      simp only [Gateway.step]
      split
      · exact level.beside rfl rfl rfl rfl rfl
      · exact level
  | rotate number update =>
      simp only [Gateway.step]
      split
      · exact level
      · have quiet : past.add (gateway.occupy number fun _ => .rotate number update .start).2 = past := by
          unfold Gateway.occupy
          repeat' split
          all_goals rfl
        rw [quiet]
        refine level.occupy (fun _ _ _ _ same => by cases same) fun host found served => ?_
        intro same present
        rw [Dict.get?_insert_self] at present
        cases present
        exact ⟨rfl, served⟩
  | revoke id host =>
      cases host with
      | none =>
          simp only [Gateway.step]
          split
          · exact level
          · exact level.go trivial fun _ _ _ same => by cases same
      | some number =>
          simp only [Gateway.step]
          split
          · exact level
          · have quiet : past.add (gateway.occupy number fun lease =>
                .revoke lease.id (some number) .start).2 = past := by
              unfold Gateway.occupy
              repeat' split
              all_goals rfl
            rw [quiet]
            refine level.occupy (fun _ _ _ _ same => ?_) fun _ _ _ => trivial
            cases same
            rfl
  | advance reading => exact level.advance collisionless reading timely known
  | fail =>
      simp only [Gateway.step]
      split
      · exact level
      · exact level.stop
  | drop ticket => exact level.dropped ticket
  | work number ok =>
      simp only [Gateway.step]
      split
      · exact level
      · exact level.work
  | land ticket =>
      simp only [Gateway.step]
      split
      · exact level
      · rename_i late found
        have loose : late.write.Loose gateway.late := by
          intro id calm current rotation written
          obtain ⟨write, overtaken⟩ := late
          subst written
          obtain rfl := calm ticket current rotation overtaken found
          exact timely.landing ticket id current rotation rfl found
        exact (level.apply_loose late.write (level.holds.late ticket late found) loose).erase ticket
  | hub op call =>
      simp only [Gateway.step]
      split
      · rename_i foreign
        have settled : op.settled = true := by
          cases op with
          | register | rotate => cases foreign
          | resolve | attach | remove | session => rfl
        exact level.settled collisionless parse op settled call
      · exact level
  | close number =>
      simp only [Gateway.step]
      split
      · exact level
      · rename_i host found
        refine level.rehost found false (fun serving => ?_) (fun id other stage same _ =>
          ⟨id, stage, same⟩) ?_
        · exact level.serves number host found (serving.imp_left fun same => by cases same)
        · exact level.ready.close found
  | crash ticket keep =>
      exact level.crash ticket (sessions_dropped digest ticket) rfl rfl rfl rfl

end Work

/-! ## Runs -/

/-- Some state of the run held the invitations of the session. -/
def Held (step : Gateway → Event × Output → Gateway → Prop) (history : History) (gateway : Gateway)
    (id : String) (invitation : Nat × String × String) : Prop :=
  ∃ earlier before later record, history = earlier ++ later ∧ Run step .new earlier before ∧
    Run step before later gateway ∧ before.sessions.get? id = some record ∧
    record.invitation = invitation

/-- The host was told that the revision is in place, and not revoked. -/
def RotationSent (history : History) (id : String) (revision : Nat) : Prop :=
  ∃ event, (event, Output.rotated id revision false) ∈ history

/-- A revocation at the revision has succeeded. -/
def RevocationSent (history : History) (id : String) (revision : Nat) : Prop :=
  ∃ event, (event, Output.revoked id revision) ∈ history

/-- The step resolves a capability, or attaches a viewer by an invitation. -/
inductive Enters (digest : String → String) (gateway : Gateway) :
    Event × Output → String → String → Prop where
  | resolve {id capability : String} {call : Hub.Call} {number : Nat} {readOnly : Bool}
      (routed : gateway.hub.sessions.get? id = some number) :
      Enters digest gateway
        (.hub (.resolve capability) call, .answered (.resolved number readOnly)) id
        (digest capability)
  | attach {id hash : String} {identity : Option Nat} {readOnly : Bool} {screen : Hub.Screen}
      {call : Hub.Call} {number client : Nat} :
      Enters digest gateway
        (.hub (.attach id identity readOnly screen (some hash)) call,
          .answered (.attachment number client)) id hash

section Runs

variable {digest : String → String} {parse : String → Option Description}

def Timed (digest : String → String) (parse : String → Option Description) (gateway : Gateway)
    (label : Event × Output) (next : Gateway) : Prop :=
  answers (Gateway.step digest parse) gateway label next ∧ Timely gateway label.1

variable {history : History} {gateway : Gateway} {id : String} {label : Event × Output}

def pastOf (digest : String → String) (parse : String → Option Description) (history : History)
    (gateway : Gateway) : Past :=
  ⟨Held (Timed digest parse) history gateway, RotationSent history, RevocationSent history⟩

theorem Held.now {step : Gateway → Event × Output → Gateway → Prop} {record}
    (run : Run step .new history gateway) (found : gateway.sessions.get? id = some record) :
    Held step history gateway id record.invitation :=
  ⟨history, gateway, [], record, (List.append_nil _).symm, run, .start, found, rfl⟩

theorem Held.snoc {step : Gateway → Event × Output → Gateway → Prop} {label next invitation}
    (held : Held step history gateway id invitation) (taken : step gateway label next) :
    Held step (history ++ [label]) next id invitation := by
  obtain ⟨earlier, before, later, record, same, first, second, found, offered⟩ := held
  refine ⟨earlier, before, later ++ [label], record, ?_, first, second.snoc taken, found, offered⟩
  rw [same, List.append_assoc]

theorem level_new : Level digest (pastOf digest parse [] .new) .new := by
  refine ⟨Hub.table_new, Hub.running_new, ⟨?_, ?_, ?_, ?_⟩, ?_, ?_, ?_, ?_, trivial⟩
  · intro id record found
    cases found
  · rintro id revision ⟨event, member⟩
    cases member
  · rintro id revision ⟨event, member⟩
    cases member
  · intro ticket late found
    cases found
  · intro id number shared found
    cases found
  · intro number host found
    cases found
  · intro number other host rival found
    cases found
  · intro number host found
    cases found

theorem level_run (collisionless : Hub.Collisionless digest)
    (run : Run (Timed digest parse) .new history gateway) :
    Level digest (pastOf digest parse history gateway) gateway := by
  induction run with
  | start => exact level_new
  | snoc prior taken ih =>
      rename_i earlier before label next
      have stepped := ih.step collisionless taken.1 taken.2
        fun id record found => Held.now prior found
      refine stepped.recall ?_ ?_ ?_
      · intro id invitation held
        have same : (Past.add (pastOf digest parse earlier before) label.2).held =
            (pastOf digest parse earlier before).held := by
          unfold Past.add
          split <;> rfl
        rw [same] at held
        exact Held.snoc held taken
      · intro id revision sent
        exact Past.add_rotated (output_append sent)
      · intro id revision sent
        exact Past.add_revoked (output_append sent)

/-- A step keeps the invitations of a record, or goes on to the next revision. -/
theorem Level.grows {past next record} (level : Level digest past gateway)
    (answered : answers (Gateway.step digest parse) gateway label next)
    (found : gateway.sessions.get? id = some record) :
    ∃ after, next.sessions.get? id = some after ∧
      (record.Agrees after ∨ after.revision = record.revision + 1) := by
  rcases altered_step digest parse answered with same | ⟨write, same, source⟩
  · rw [same]
    exact ⟨record, found, .inl (.refl record)⟩
  · have steps : write.Steps gateway.sessions := by
      rcases source with flying | ⟨ticket, overtaken, cut⟩
      · exact level.inFlight flying
      · exact level.holds.late ticket _ cut
    rw [same]
    obtain ⟨after, present, stays | next⟩ := Write.grows steps found
    · exact ⟨after, present, .inl stays.agrees⟩
    · exact ⟨after, present, .inr next⟩

theorem entered_admits {next hash} (table : Hub.Table gateway.hub)
    (answered : answers (Gateway.step digest parse) gateway label next)
    (enters : Enters digest gateway label id hash) : gateway.hub.Admits id hash := by
  have put := congrArg Prod.snd answered
  cases enters with
  | @resolve _ capability call number readOnly routed =>
      simp only [Gateway.step, Gateway.foreign, if_true, Hub.System.step, Output.answered.injEq]
        at put
      cases result : gateway.hub.resolve digest call capability with
      | error message =>
          rw [result] at put
          cases put
      | ok found =>
          rw [result] at put
          obtain ⟨rfl, rfl⟩ := Hub.Answer.resolved.inj put
          exact table.resolve_admits routed result
  | @attach _ _ identity readOnly screen call number client =>
      simp only [Gateway.step, Gateway.foreign, if_true, Hub.System.step, Output.answered.injEq]
        at put
      cases result : (gateway.hub.attachInner call id identity readOnly screen (some hash)).2 with
      | error message =>
          rw [result] at put
          cases put
      | ok made => exact table.attach_admits result

end Runs

/-- Replaced and revoked invitations stay dead: the stored revision of a session
    grows by single steps, and one revision always means the same invitations.
    After a rotation that the host was told of, or a revocation that succeeded,
    whoever gets in does so by an invitation of that or a newer revision, and of
    a newer one after a revocation. -/
structure Withdrawn (digest : String → String) (step : Gateway → Event × Output → Gateway → Prop)
    (history : History) (gateway : Gateway) : Prop where
  grows : ∀ label next id record, step gateway label next →
    gateway.sessions.get? id = some record → ∃ after, next.sessions.get? id = some after ∧
      (record.Agrees after ∨ after.revision = record.revision + 1)
  stored : ∀ later next id record, Run step gateway later next →
    gateway.sessions.get? id = some record → ∃ after, next.sessions.get? id = some after ∧
      record.revision ≤ after.revision ∧ (after.revision = record.revision → record.Agrees after)
  rotated : ∀ label next id hash revision, step gateway label next →
    Enters digest gateway label id hash → RotationSent history id revision →
    ∃ invitation, Held step history gateway id invitation ∧ revision ≤ invitation.1 ∧
      (hash = invitation.2.1 ∨ hash = invitation.2.2)
  revoked : ∀ label next id hash revision, step gateway label next →
    Enters digest gateway label id hash → RevocationSent history id revision →
    ∃ invitation, Held step history gateway id invitation ∧ revision < invitation.1 ∧
      (hash = invitation.2.1 ∨ hash = invitation.2.2)

/-- Invitations that were replaced or revoked stay dead, in every run in which
    rotations that were cut off take effect in time. -/
theorem replaced_invitations_stay_dead (digest : String → String)
    (parse : String → Option Description) (collisionless : Hub.Collisionless digest)
    (history : History) (gateway : Gateway)
    (run : Run (Timed digest parse) .new history gateway) :
    Withdrawn digest (Timed digest parse) history gateway := by
  have level := level_run collisionless run
  refine ⟨fun label next id record taken found => level.grows taken.1 found,
    fun later next id record rest found => ?_, fun label next id hash revision taken enters sent => ?_,
    fun label next id hash revision taken enters sent => ?_⟩
  · induction rest with
    | start => exact ⟨record, found, Nat.le_refl _, fun _ => .refl record⟩
    | snoc prior taken ih =>
        obtain ⟨middle, known, least, same⟩ := ih
        have there := level_run collisionless (run.trans prior)
        obtain ⟨after, present, agrees | grown⟩ := there.grows taken.1 known
        · refine ⟨after, present, agrees.revision ▸ least, fun equal => ?_⟩
          exact (same (agrees.revision.symm.trans equal)).trans agrees
        · exact ⟨after, present, by omega, fun equal => by omega⟩
  · obtain ⟨number, shared, routed, _, mine⟩ := entered_admits level.table taken.1 enters
    have fits := level.routed id number shared routed
    exact ⟨shared.state.invitation, fits.held, fits.rotated revision sent, mine⟩
  · obtain ⟨number, shared, routed, open', mine⟩ := entered_admits level.table taken.1 enters
    have fits := level.routed id number shared routed
    refine ⟨shared.state.invitation, fits.held, ?_, mine⟩
    refine (fits.revoked revision sent).resolve_right fun set => ?_
    cases open'.symm.trans set

/-! ## Runs of one host -/

def newWrite : String := "eeeeeeeeeeeeeeeeeeeeeeeeeeeeeeeeeeeeeeeeeeeeeeeeeeeeeeeeeeeeeeee"

def newRead : String := "ffffffffffffffffffffffffffffffffffffffffffffffffffffffffffffffff"

/-- A permutation that is SHA-256 on the tokens of the example. -/
def rotatingDigest : Equiv.Perm String :=
  Hub.exampleDigest.trans ((Equiv.swap newWrite
      "add5b41fc5a881fc87ef4640581ed5ff7fe5eab39640b3a3e6e8b90f0aa71730").trans
    (Equiv.swap newRead "df0790f236013511e91fa4532fb7761f62320a51a3868dabf4a13fe5f53e3263"))

def firstRotation : InvitationUpdate := ⟨1, newWrite, newRead, 3600⟩

/-- A host registers and rotates its invitations. -/
def rotatedEvents : List Event :=
  .register "owner" Hub.exampleHello :: List.replicate 6 (.advance (endReading 0)) ++
    .rotate 0 firstRotation :: List.replicate 5 (.advance (endReading 0))

section Example

variable {digest : String → String} {parse : String → Option Description}

/-- The condition on one step, checked. -/
def timely (gateway : Gateway) : Event → Bool
  | .land _ => false
  | .advance _ =>
      match gateway.current with
      | some (.register _ hello (.ready _ _)) => (gateway.hub.session hello.id).all fun entry =>
          decide (entry.2.state.generation.toNat + 1 < 2 ^ 64)
      | _ => true
  | _ => true

theorem timely_timed (gateway : Gateway) (event : Event) (checked : timely gateway event = true) :
    Timed digest parse gateway (event, (gateway.step digest parse event).2)
      (gateway.step digest parse event).1 := by
  refine ⟨rfl, ?_, ?_⟩
  · intro ticket id current rotation same
    obtain rfl : event = .land ticket := same
    cases checked
  · intro reading machine hello revoked persisted number shared same current routed
    obtain rfl : event = .advance reading := same
    simpa [timely, current, routed] using checked

end Example

/-- The new invitation resolves, and it is stored for the new revision. -/
theorem rotated_host_admits_new :
    let run := feed (Gateway.step rotatingDigest fun _ => none) .new rotatedEvents
    (run.2.step rotatingDigest (fun _ => none) (.hub (.resolve newWrite) Hub.exampleCall)).2 =
      .answered (.resolved 0 false) ∧
    ∃ invitation, Held (Timed rotatingDigest fun _ => none) run.1 run.2 Hub.exampleHello.id
      invitation ∧ 1 ≤ invitation.1 ∧
      (rotatingDigest newWrite = invitation.2.1 ∨ rotatingDigest newWrite = invitation.2.2) := by
  intro run
  have taken : Run (Timed rotatingDigest fun _ => none) .new run.1 run.2 :=
    feed_run_of_passes timely_timed (by decide)
  have collisionless : Hub.Collisionless rotatingDigest :=
    fun _ _ _ _ same => rotatingDigest.injective same
  have sent : RotationSent run.1 Hub.exampleHello.id 1 := exists_input (by decide)
  have answered : (run.2.step rotatingDigest (fun _ => none)
      (.hub (.resolve newWrite) Hub.exampleCall)).2 = .answered (.resolved 0 false) := by
    decide
  have routed : run.2.hub.sessions.get? Hub.exampleHello.id = some 0 := by decide
  have withdrawn :=
    replaced_invitations_stay_dead rotatingDigest (fun _ => none) collisionless _ _ taken
  refine ⟨answered, withdrawn.rotated (.hub (.resolve newWrite) Hub.exampleCall, _) _ _ _ 1
    (timely_timed _ _ rfl) ?_ sent⟩
  exact .resolve routed

/-- A host registers and its rotation is cut off. It registers again and rotates
    again, after the first update took effect. -/
def overtakenEvents : List Event :=
  .register "owner" Hub.exampleHello :: List.replicate 6 (.advance (endReading 0)) ++
    .rotate 0 firstRotation :: List.replicate 3 (.advance (endReading 0)) ++
    .drop 0 :: .register "owner" Hub.exampleHello :: List.replicate 5 (.advance (endReading 1)) ++
    .land 0 :: .rotate 1 firstRotation :: List.replicate 3 (.advance (endReading 1))

/-- The old invitation still resolves after the host was told of the new one. -/
theorem overtaken_rotation_admits_old : ¬ ∀ history gateway,
      Run (answers (Gateway.step rotatingDigest fun _ => none)) .new history gateway →
      Withdrawn rotatingDigest (answers (Gateway.step rotatingDigest fun _ => none)) history
        gateway := by
  intro all
  let step := Gateway.step rotatingDigest fun _ => none
  let run := feed step .new overtakenEvents
  have withdrawn := all run.1 run.2 (feed_run step _ _)
  have sent : RotationSent run.1 Hub.exampleHello.id 1 := exists_input (by decide)
  have routed : run.2.hub.sessions.get? Hub.exampleHello.id = some 0 := by decide
  have answered : (step run.2 (.hub (.resolve Hub.exampleWrite) Hub.exampleCall)).2 =
      .answered (.resolved 0 false) := by decide
  obtain ⟨invitation, held, newer, mine⟩ := withdrawn.rotated
    (.hub (.resolve Hub.exampleWrite) Hub.exampleCall, .answered (.resolved 0 false)) _ _ _ 1
    (Prod.ext rfl answered) (.resolve routed) sent
  obtain ⟨earlier, before, later, record, whole, first, _, found, rfl⟩ := held
  -- no state of the run holds the old invitation for a later revision
  have inputs : earlier.map Prod.fst = overtakenEvents.take earlier.length := by
    have split : overtakenEvents = earlier.map Prod.fst ++ later.map Prod.fst := by
      rw [← feed_inputs step .new overtakenEvents, ← List.map_append]
      exact congrArg (List.map Prod.fst) whole
    rw [split, List.take_left' (by rw [List.length_map])]
  have short : earlier.length < 24 := by
    have total : run.1.length = 23 := by decide
    rw [whole, List.length_append] at total
    omega
  have fine : ∀ count < 24, ((feed step .new (overtakenEvents.take count)).2.sessions.get?
      Hub.exampleHello.id).all fun record => record.invitation.1 == 0 ||
        (record.invitation.2.1 != rotatingDigest Hub.exampleWrite &&
          record.invitation.2.2 != rotatingDigest Hub.exampleWrite) := by decide
  have checked := fine earlier.length short
  rw [← inputs, ← first.fed, found] at checked
  simp only [Option.all_some, Bool.or_eq_true, beq_iff_eq, Bool.and_eq_true, bne_iff_ne] at checked
  rcases checked with zero | ⟨write, read⟩
  · omega
  · exact mine.elim (fun same => write same.symm) (fun same => read same.symm)

end PortHub.Api.TerminalSessions
