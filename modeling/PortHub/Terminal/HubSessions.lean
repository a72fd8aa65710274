import PortHub.Terminal.HubViewers

/-! # Invitations of routed sessions

A holder of a session sees three calls change invitations: a registration that
installs what was persisted, a rotation, and a revocation. Every other call
leaves those of the sessions that stay routed as they are.
-/

namespace PortHub.Terminal.Hub

section Quiet

variable {digest : String → String} {parse : String → Option Description} {system : System}
  {op : Op}

/-- The call neither registers a host nor rotates invitations. -/
def Op.settled : Op → Bool
  | .register _ _ _ _ _ | .rotate _ _ _ => false
  | _ => true

/-- Routes are left or taken away, with the invitations as they were. -/
structure Preserves (system after : System) : Prop where
  routed : ∀ id number later, after.session id = some (number, later) →
    ∃ shared, system.session id = some (number, shared) ∧ Keeps shared.state later.state
  sessions : ∀ number shared, system.shared.get? number = some shared →
    ∃ later, after.shared.get? number = some later ∧ later.id = shared.id ∧
      later.state.generation = shared.state.generation

theorem Table.keeps (table : Table system) {after} (changes : Changes digest system op after)
    (settled : op.settled = true) {number shared}
    (found : system.shared.get? number = some shared) :
    ∃ later, after.shared.get? number = some later ∧ Keeps shared.state later.state := by
  have same : Keeps shared.state shared.state := ⟨rfl, rfl, rfl, id, id⟩
  have replaced {base : System} {other : Nat} {old new : Shared} (rest : base.shared = system.shared)
      (known : system.shared.get? other = some old) (keeps : Keeps old.state new.state) :
      ∃ later, (base.setShared other new).shared.get? number = some later ∧
        Keeps shared.state later.state := by
    rw [get?_setShared]
    split
    · rename_i here
      subst here
      obtain rfl := Option.mem_unique found known
      exact ⟨new, rfl, keeps⟩
    · exact ⟨shared, rest ▸ found, same⟩
  cases changes with
  | unchanged | cleared _ => exact ⟨shared, found, same⟩
  | adjusted known keeps => exact replaced rfl known keeps
  | installed _ asked =>
      cases op with
      | register | rotate => cases settled
      | _ => cases asked
  | created =>
      have earlier : number ≠ system.nextShared := Nat.ne_of_lt (table.sized.created number shared found)
      rw [get?_setShared, if_neg earlier]
      exact ⟨shared, found, same⟩
  | removed routed _ keeps _ => exact replaced rfl (session_eq_some.mp routed).2 keeps

/-- No such call routes a session. -/
theorem sessions_sub (system : System) (digest : String → String)
    (parse : String → Option Description) (settled : op.settled = true) (call : Call) :
    (system.step digest parse (op, call)).1.sessions.Sub system.sessions := by
  cases op with
  | register | rotate => cases settled
  | resolve capability => exact .refl _
  | attach id identity readOnly screen invitation =>
      simp only [System.step, System.attachInner]
      repeat' split
      all_goals exact .refl _
  | remove id reason revoked =>
      simp only [System.step, System.remove]
      split
      · exact Dict.erase_sub _ _
      · exact Dict.erase_sub _ _
  | session number op =>
      simp only [System.step, System.perform]
      split
      · exact .refl _
      · exact .refl _

theorem settled_leases (settled : op.settled = true) (call : Call) (number : Nat) :
    (system.step digest parse (op, call)).2.leases number = false := by
  have answered {α : Type} {answer : α → Answer} (result : Result α)
      (other : ∀ value, (answer value).leases number = false) :
      (Answer.ofResult answer result).leases number = false := by
    cases result with
    | ok value => exact other value
    | error message => rfl
  cases op with
  | register | rotate => cases settled
  | remove => rfl
  | resolve | attach | session => exact answered _ fun _ => rfl

theorem Table.preserves (table : Table system) (settled : op.settled = true) (call : Call) :
    Preserves system (system.step digest parse (op, call)).1 := by
  have changes := step_changes table.sized digest parse (op, call)
  refine ⟨fun id number later found => ?_, fun number shared found => ?_⟩
  · obtain ⟨routed, present⟩ := session_eq_some.mp found
    have before := sessions_sub system digest parse settled call id number routed
    obtain ⟨shared, known, _⟩ := table.listed.routed id number before
    obtain ⟨same, presentToo, keeps⟩ := table.keeps changes settled known
    obtain rfl := Option.mem_unique present presentToo
    exact ⟨shared, session_eq_some.mpr ⟨before, known⟩, keeps⟩
  · obtain ⟨later, present, moves⟩ := table.moves changes found
    obtain ⟨same, presentToo, turns⟩ :=
      (table.sized.steps digest parse (op, call)).old number shared found
    obtain rfl := Option.mem_unique present presentToo
    refine ⟨later, present, moves.named, ?_⟩
    rw [turns.generation, settled_leases settled call number, if_neg Bool.false_ne_true]

end Quiet

/-- The revision of the invitations, with the digests of the two. -/
def State.invitation (state : State) : Nat × String × String :=
  (state.invitationRevision, state.invitationWriteHash, state.invitationReadHash)

theorem Keeps.invitation {before after} (keeps : Keeps before after) :
    after.invitation = before.invitation := by
  rw [State.invitation, keeps.revision, keeps.writeHash, keeps.readHash]
  rfl

def persistedInvitation (persisted : PersistedInvitations) : Nat × String × String :=
  (persisted.revision, persisted.writeHash, persisted.readHash)

section Register

variable {digest : String → String} {call : Call} {system : System} {state : State} {number : Nat}
  {hello : HostHello} {tokens : Dict String (String × Bool)}
  {persisted : Option PersistedInvitations}

theorem connect_core (call : Call) (hello : HostHello) (revoked : Bool)
    (bounded : state.viewers.len ≤ 32) :
    (state.connect call hello revoked).1.invitation = state.invitation ∧
      (state.connect call hello revoked).1.generation = state.generation + 1 ∧
      (revoked = true → (state.connect call hello revoked).1.invitationsRevoked = true) := by
  have core := (connect_connects call hello revoked bounded).1.core
  simp only [State.core, State.renewed, Prod.mk.injEq] at core
  obtain ⟨flag, revision, _, write, read, generation, _⟩ := core
  refine ⟨?_, generation, fun set => ?_⟩
  · rw [State.invitation, revision, write, read]
    rfl
  · rw [flag, set, Bool.or_true]

/-- What a registration makes of the session of the host. -/
structure Leased (digest : String → String) (system after : System) (hello : HostHello)
    (revoked : Bool) (persisted : Option PersistedInvitations) (number : Nat) (generation : UInt64)
    (later : Shared) : Prop where
  routed : after.session hello.id = some (number, later)
  invitation : later.state.invitation = (persisted.map persistedInvitation).getD
    (((system.session hello.id).map fun entry => entry.2.state.invitation).getD
      (0, digest hello.writeToken, digest hello.readToken))
  refused : revoked = true → later.state.invitationsRevoked = true
  current : later.state.generation = generation
  next : generation = ((system.shared.get? number).map (·.state.generation)).getD 0 + 1
  prior : ∀ shared, system.shared.get? number = some shared →
    system.session hello.id = some (number, shared)
  others : ∀ id, id ≠ hello.id → after.session id = system.session id
  sessions : ∀ other shared, other ≠ number → system.shared.get? other = some shared →
    after.shared.get? other = some shared

/-- The routes of the other sessions lead elsewhere. -/
theorem Table.session_ne (table : Table system) {base : System} {id other shared}
    (routed : system.sessions.get? id = some number) (apart : other ≠ id)
    (sessions : base.sessions.get? other = system.sessions.get? other)
    (rest : base.shared = system.shared) :
    (base.setShared number shared).session other = system.session other := by
  have same : (base.setShared number shared).sessions.get? other = system.sessions.get? other :=
    sessions
  simp only [System.session]
  rw [same]
  cases known : system.sessions.get? other with
  | none => rfl
  | some target =>
      have different : target ≠ number := by
        rintro rfl
        exact apart (table.listed.id_unique known routed)
      simp only [Option.bind_some, get?_setShared, if_neg different, rest]

/-- The session was routed before. -/
theorem Table.leases (table : Table system) {shared} (revoked : Bool)
    (persisted : Option PersistedInvitations)
    (routed : system.session hello.id = some (number, shared))
    (invitation : state.invitation = (persisted.map persistedInvitation).getD
      shared.state.invitation) (generation : state.generation = shared.state.generation)
    (viewers : state.viewers = shared.state.viewers) :
    ∃ later, Leased digest system
      (System.lease call hello revoked { system with tokens } number { shared with state }).1 hello
      revoked persisted number (state.generation + 1) later := by
  obtain ⟨here, found⟩ := session_eq_some.mp routed
  have bounded : state.viewers.len ≤ 32 := viewers ▸ table.sized.bounded number shared found
  obtain ⟨core, renewed, flag⟩ := connect_core call hello revoked bounded
  refine ⟨{ shared with state := (state.connect call hello revoked).1 }, ?_, ?_, flag, renewed, ?_,
    ?_, ?_, ?_⟩
  · rw [lease_eq]
    exact session_eq_some.mpr ⟨here, (get?_setShared).trans (if_pos rfl)⟩
  · rw [routed]
    exact core.trans invitation
  · rw [found, generation]
    rfl
  · intro old known
    rw [routed, Option.mem_unique found known]
  · intro id apart
    exact table.session_ne here apart rfl rfl
  · intro other shared' apart known
    rw [lease_eq, get?_setShared, if_neg apart]
    exact known

/-- The session was not routed before. -/
theorem Table.leases_new (table : Table system) (owner : String) (revoked : Bool)
    (absent : system.session hello.id = none) :
    ∃ later, Leased digest system
      (System.lease call hello revoked
        { system with
          tokens
          sessions := system.sessions.insert hello.id system.nextShared
          nextShared := system.nextShared + 1 }
        system.nextShared
        (System.create digest call owner hello revoked persisted
          ((persisted.map (·.writeHash)).getD (digest hello.writeToken))
          ((persisted.map (·.readHash)).getD (digest hello.readToken)))).1 hello
      revoked persisted system.nextShared 1 later := by
  have bounded : (System.create digest call owner hello revoked persisted
      ((persisted.map (·.writeHash)).getD (digest hello.writeToken))
      ((persisted.map (·.readHash)).getD (digest hello.readToken))).state.viewers.len ≤ 32 :=
    Nat.zero_le _
  obtain ⟨core, renewed, flag⟩ := connect_core call hello revoked bounded
  have unused : system.shared.get? system.nextShared = none := by
    cases known : system.shared.get? system.nextShared with
    | none => rfl
    | some shared => exact absurd (table.sized.created _ _ known) (Nat.lt_irrefl _)
  refine ⟨_, session_eq_some.mpr ⟨Dict.get?_insert_self _ _ _, (get?_setShared).trans (if_pos rfl)⟩,
    ?_, flag, renewed, ?_, ?_, ?_, ?_⟩
  · rw [absent]
    refine core.trans ?_
    cases persisted with
    | none => rfl
    | some persisted => rfl
  · rw [unused]
    rfl
  · intro old known
    cases unused.symm.trans known
  · intro id apart
    rw [lease_eq]
    simp only [System.session, System.setShared]
    rw [Dict.get?_insert_ne _ _ apart]
    cases known : system.sessions.get? id with
    | none => rfl
    | some target =>
        obtain ⟨shared, found, _⟩ := table.listed.routed id target known
        have different : target ≠ system.nextShared := Nat.ne_of_lt (table.sized.created _ _ found)
        simp only [Option.bind_some, Dict.get?_insert_ne _ _ different]
  · intro other shared apart known
    rw [lease_eq, get?_setShared, if_neg apart]
    exact known

theorem restore_invitation {restored after persisted}
    (done : restore tokens hello state persisted = .ok (restored, after)) :
    after.invitation = persistedInvitation persisted ∧ after.generation = state.generation ∧
      after.viewers = state.viewers := by
  unfold restore at done
  split at done
  · split at done
    · rename_i same
      split at done
      · rename_i agreed
        cases done
        refine ⟨?_, rfl, rfl⟩
        simp only [State.invitation, persistedInvitation, same, agreed.1, agreed.2.1]
      · cases done
    · split at done
      · cases done
        exact ⟨rfl, rfl, rfl⟩
      · cases done
  · cases done

/-- A registration that is answered with a lease. -/
theorem Table.registers (table : Table system) {owner now revoked generation}
    (done : (system.registerAuthorized digest call owner hello now revoked persisted).2 =
      .ok (number, generation)) :
    ∃ later, Leased digest system
      (system.registerAuthorized digest call owner hello now revoked persisted).1 hello revoked
      persisted number generation later := by
  unfold System.registerAuthorized at done ⊢
  split at done
  · cases done
  · cases done
  · rename_i valid restorable
    dsimp only at done ⊢
    split at done
    · rename_i target shared routed
      have few := table.sized.bounded target shared (session_eq_some.mp routed).2
      split at done
      · rename_i same
        cases persisted with
        | none =>
            obtain ⟨rfl, rfl⟩ := Prod.mk.inj (Except.ok.inj ((lease_ok few).symm.trans done))
            rw [if_pos same]
            exact table.leases revoked none routed rfl rfl rfl
        | some persisted =>
            dsimp only at done ⊢
            split at done
            · cases done
            · rename_i tokens state restored
              obtain ⟨invitation, renewed, viewers⟩ := restore_invitation restored
              have bounded : state.viewers.len ≤ 32 := viewers ▸ few
              obtain ⟨rfl, rfl⟩ := Prod.mk.inj (Except.ok.inj ((lease_ok bounded).symm.trans done))
              rw [if_pos same]
              exact table.leases revoked (some persisted) routed invitation renewed viewers
      · cases done
    · rename_i absent
      split at done
      · rename_i room
        rw [if_pos room]
        split at done
        · rename_i unused
          rw [if_pos unused]
          obtain ⟨rfl, rfl⟩ := Prod.mk.inj (Except.ok.inj ((lease_ok (Nat.zero_le _)).symm.trans done))
          exact table.leases_new owner revoked absent
        · cases done
      · cases done

/-- A registration that is answered otherwise changes nothing. -/
theorem Table.unregistered (table : Table system) {owner now revoked}
    (refused : ∀ lease, (system.registerAuthorized digest call owner hello now revoked persisted).2 ≠
      .ok lease) :
    (system.registerAuthorized digest call owner hello now revoked persisted).1 = system := by
  cases result : (system.registerAuthorized digest call owner hello now revoked persisted).2 with
  | ok lease => exact absurd result (refused lease)
  | error message =>
      exact (register_settles table.sized owner hello now revoked persisted).failed message result

end Register

section Rotate

variable {digest : String → String} {call : Call} {system : System} {id : String}
  {generation : UInt64} {update : InvitationUpdate}

/-- What a rotation makes of the session. -/
structure Rotated (digest : String → String) (system after : System) (id : String)
    (update : InvitationUpdate) : Prop where
  routed : ∃ number shared later, system.session id = some (number, shared) ∧
    after.session id = some (number, later) ∧ later.state.invitation =
      (update.revision, digest update.writeToken, digest update.readToken)
  others : ∀ other, other ≠ id → after.session other = system.session other
  sessions : ∀ number shared, system.shared.get? number = some shared →
    ∃ later, after.shared.get? number = some later ∧ later.id = shared.id ∧
      later.state.generation = shared.state.generation

theorem Table.rotates (table : Table system)
    (done : (system.rotateInvitations digest call id generation update).2 = .ok ()) :
    Rotated digest system (system.rotateInvitations digest call id generation update).1 id
      update := by
  unfold System.rotateInvitations at done ⊢
  split at done
  · cases done
  · split at done
    · cases done
    · rename_i number shared routed
      obtain ⟨here, found⟩ := session_eq_some.mp routed
      dsimp only at done ⊢
      split at done
      · rename_i serving
        rw [if_pos serving]
        split at done
        · rename_i same
          rw [if_pos same]
          split at done
          · rename_i agreed
            rw [if_pos agreed]
            refine ⟨⟨number, shared, shared, routed, routed, ?_⟩, fun _ _ => rfl,
              fun _ shared known => ⟨shared, known, rfl, rfl⟩⟩
            rw [State.invitation, ← same, agreed.1, agreed.2.1]
          · cases done
        · rename_i different
          rw [if_neg different]
          split at done
          · rename_i newer
            rw [if_pos newer]
            split at done
            · rename_i unused
              rw [if_pos unused]
              refine ⟨⟨number, shared, _, routed,
                session_eq_some.mpr ⟨here, (get?_setShared).trans (if_pos rfl)⟩, rfl⟩,
                fun other apart => table.session_ne here apart rfl rfl, fun other old known => ?_⟩
              rw [get?_setShared]
              split
              · rename_i same
                subst same
                obtain rfl := Option.mem_unique found known
                exact ⟨_, rfl, rfl, rfl⟩
              · exact ⟨old, known, rfl, rfl⟩
            · cases done
          · cases done
      · cases done

theorem Table.unrotated (table : Table system)
    (refused : (system.rotateInvitations digest call id generation update).2 ≠ .ok ()) :
    (system.rotateInvitations digest call id generation update).1 = system := by
  cases result : (system.rotateInvitations digest call id generation update).2 with
  | ok value => exact absurd result refused
  | error message => exact (rotate_settles table.sized id generation update).failed message result

end Rotate

section Hosts

variable {digest : String → String} {parse : String → Option Description} {system : System}
  {number : Nat} {call : Call}

/-- A revocation is in force once it was called. -/
theorem revoke_refuses (digest : String → String) (parse : String → Option Description) {shared}
    (call : Call) (found : system.shared.get? number = some shared) :
    ∃ later, (system.step digest parse (.session number .revoke, call)).1.shared.get? number =
      some later ∧ later.state.invitationsRevoked = true := by
  simp only [System.step, System.perform, found]
  refine ⟨_, (get?_setShared).trans (if_pos rfl), ?_⟩
  have quiet : Quiet Sent.plain { shared.state with invitationsRevoked := true }
      shared.state.revokeInvitations := notifyHost_quiet _ .invitationsRevoked trivial
  exact quiet.keeps.revoked rfl

/-- The host that is heard is the current one of a session that runs. -/
theorem heard_current {generation}
    (heard : (system.step digest parse (.session number (.output generation .pong), call)).2 =
      .done) :
    ∃ shared, system.shared.get? number = some shared ∧ shared.state.generation = generation ∧
      shared.stop = false := by
  simp only [System.step, System.perform] at heard
  split at heard
  · cases heard
  · rename_i shared found
    refine ⟨shared, found, ?_⟩
    simp only [Shared.perform, State.output] at heard
    split at heard
    · rename_i current
      exact ⟨current.1.symm, current.2⟩
    · cases heard

/-- Sessions that were not stopped are routed. -/
def System.Running (system : System) : Prop :=
  ∀ number shared, system.shared.get? number = some shared → shared.stop = false →
    system.sessions.get? shared.id = some number

theorem running_new : System.Running .new := by
  intro number shared found
  cases found

theorem Running.replace (running : system.Running) {base : System} (shared : Shared) {state}
    (found : system.shared.get? number = some shared) (sessions : base.sessions = system.sessions)
    (rest : base.shared = system.shared) :
    (base.setShared number { shared with state }).Running := by
  intro other later present live
  have routes : (base.setShared number { shared with state }).sessions = system.sessions := sessions
  rw [get?_setShared] at present
  rw [routes]
  split at present
  · rename_i here
    subst here
    cases present
    exact running other shared found live
  · exact running other later (rest ▸ present) live

theorem Running.register (running : system.Running) {owner hello now revoked persisted} :
    (system.registerAuthorized digest call owner hello now revoked persisted).1.Running := by
  unfold System.registerAuthorized
  split
  · exact running
  · exact running
  · dsimp only
    split
    · rename_i number shared routed
      obtain ⟨_, found⟩ := session_eq_some.mp routed
      split
      · split
        · exact Running.replace running shared found rfl rfl
        · split
          · exact running
          · exact Running.replace running shared found rfl rfl
      · exact running
    · rename_i absent
      split
      · split
        · intro number later present live
          rw [lease_eq, get?_setShared] at present
          split at present
          · rename_i here
            subst here
            cases present
            exact Dict.get?_insert_self _ _ _
          · have before := running number later present live
            refine (Dict.get?_insert_ne _ _ ?_).trans before
            intro same
            rw [← same] at absent
            rw [session_eq_some.mpr ⟨before, present⟩] at absent
            cases absent
        · exact running
      · exact running

theorem Running.remove (running : system.Running) {id reason revoked} :
    (system.remove call id reason revoked).Running := by
  unfold System.remove
  split
  · rename_i absent
    intro number shared present live
    have before := running number shared present live
    refine (Dict.get?_erase_ne _ ?_).trans before
    intro same
    rw [← same, session_eq_some.mpr ⟨before, present⟩] at absent
    cases absent
  · rename_i target closed routed
    intro number shared present live
    rw [get?_setShared] at present
    split at present
    · cases present
      cases live
    · rename_i apart
      have before := running number shared present live
      refine (Dict.get?_erase_ne _ ?_).trans before
      intro same
      rw [same, (session_eq_some.mp routed).1] at before
      exact apart (Option.some.inj before).symm

theorem Running.step (running : system.Running) (input : Op × Call) :
    (system.step digest parse input).1.Running := by
  obtain ⟨op, call⟩ := input
  cases op with
  | register owner hello now revoked persisted => exact Running.register running
  | rotate id generation update =>
      simp only [System.step, System.rotateInvitations]
      split
      · exact running
      · split
        · exact running
        · rename_i number shared routed
          obtain ⟨_, found⟩ := session_eq_some.mp routed
          repeat' split
          all_goals first
            | exact running
            | exact Running.replace running shared found rfl rfl
  | resolve capability => exact running
  | attach id identity readOnly screen invitation =>
      simp only [System.step, System.attachInner]
      split
      · exact running
      · split
        · exact running
        · rename_i number shared routed
          obtain ⟨_, found⟩ := session_eq_some.mp routed
          repeat' split
          all_goals first
            | exact running
            | exact Running.replace running shared found rfl rfl
  | remove id reason revoked => exact Running.remove running
  | session number op =>
      simp only [System.step, System.perform]
      split
      · exact running
      · rename_i shared found
        exact Running.replace running shared found rfl rfl

end Hosts

section Admission

variable {digest : String → String} {parse : String → Option Description} {system : System}
  {id : String}

/-- The digest is one of the session's invitations, which are not revoked. -/
def System.Admits (system : System) (id hash : String) : Prop :=
  ∃ number shared, system.session id = some (number, shared) ∧
    shared.state.invitationsRevoked = false ∧
    (hash = shared.state.invitationWriteHash ∨ hash = shared.state.invitationReadHash)

theorem Table.admits (table : Table system) {hash role number shared}
    (bound : system.tokens.get? hash = some (id, role))
    (routed : system.session id = some (number, shared))
    (open' : shared.state.invitationsRevoked = false) : system.Admits id hash := by
  obtain ⟨here, found⟩ := session_eq_some.mp routed
  obtain ⟨same, known, _, owns⟩ := table.listed.routed id number here
  obtain rfl := Option.mem_unique found known
  refine ⟨number, shared, routed, open', ?_⟩
  exact ((owns.entries hash role).mp bound).imp And.left And.left

/-- A capability that resolves is one of its session's invitations. -/
theorem Table.resolve_admits (table : Table system) {call capability number readOnly}
    (routed : system.sessions.get? id = some number)
    (resolved : system.resolve digest call capability = .ok (number, readOnly)) :
    system.Admits id (digest capability) := by
  obtain ⟨shared, found, bound⟩ := table.resolved resolved
  obtain ⟨same, known, open'⟩ := resolve_open resolved
  obtain rfl := Option.mem_unique found known
  obtain ⟨_, knownToo, named, _⟩ := table.listed.routed id number routed
  obtain rfl := Option.mem_unique found knownToo
  rw [named] at bound
  exact table.admits bound (session_eq_some.mpr ⟨routed, found⟩) open'

/-- An invitation that attaches is one of its session's. -/
theorem Table.attach_admits (table : Table system) {call hash identity readOnly screen made}
    (attached : (system.attachInner call id identity readOnly screen (some hash)).2 = .ok made) :
    system.Admits id hash := by
  unfold System.attachInner at attached
  split at attached
  · cases attached
  · split at attached
    · cases attached
    · rename_i number shared routed
      split at attached
      · split at attached
        · cases attached
        · rename_i invited
          simp only [State.invited, bind_eq_ok, ensure_eq_ok, beq_iff_eq, Bool.and_eq_true,
            Bool.not_eq_true'] at invited
          obtain ⟨_, bound, open', _⟩ := invited
          exact table.admits bound routed open'
      · cases attached

end Admission

end PortHub.Terminal.Hub
