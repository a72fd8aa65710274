import PortHub.Lib.Runs
import PortHub.Terminal.HubSteps
import Mathlib.Logic.Equiv.Basic

/-! # The capability table

Each call either leaves the invitations of every session alone, replaces those
of one session, or routes or removes a session. The table of digests follows.
-/

namespace PortHub.Terminal.Hub

open Runs

section States

/-- The change leaves the invitations alone, except that it may revoke them. -/
structure Keeps (before after : State) : Prop where
  revision : after.invitationRevision = before.invitationRevision
  writeHash : after.invitationWriteHash = before.invitationWriteHash
  readHash : after.invitationReadHash = before.invitationReadHash
  revoked : before.invitationsRevoked = true → after.invitationsRevoked = true
  bounded : before.viewers.len ≤ 32 → after.viewers.len ≤ 32

variable {allowed : Sent → Prop} {a b c : State}

theorem Keeps.trans (first : Keeps a b) (second : Keeps b c) : Keeps a c where
  revision := second.revision.trans first.revision
  writeHash := second.writeHash.trans first.writeHash
  readHash := second.readHash.trans first.readHash
  revoked := fun flag => second.revoked (first.revoked flag)
  bounded := fun few => second.bounded (first.bounded few)

theorem Quiet.keeps (quiet : Quiet allowed a b) : Keeps a b := by
  have core := quiet.core
  simp only [State.core, Prod.mk.injEq] at core
  obtain ⟨flag, revision, _, write, read, _, _⟩ := core
  exact ⟨revision, write, read, fun set => flag.trans set, fun few => quiet.fewer.trans few⟩

theorem Performs.keeps {op result} (performed : Performs a op result) : Keeps a result.1 := by
  obtain ⟨after, outcome⟩ := result
  obtain ⟨middle, shifted, quiet⟩ := performed
  refine Keeps.trans ?_ quiet.keeps
  cases shifted with
  | calm => exact ⟨rfl, rfl, rfl, id, id⟩
  | revoked => exact ⟨rfl, rfl, rfl, fun _ => rfl, id⟩
  | negotiated found _ =>
      refine ⟨rfl, rfl, rfl, id, fun few => ?_⟩
      simpa only [State.setViewer, Dict.len_insert_bound found] using few

theorem Joins.keeps {identity readOnly result} (joins : Joins identity readOnly a result) :
    Keeps a result.1 := by
  cases joins with
  | refused => exact ⟨rfl, rfl, rfl, id, id⟩
  | numbered quiet => exact ⟨quiet.keeps.revision, quiet.keeps.writeHash, quiet.keeps.readHash,
      quiet.keeps.revoked, quiet.keeps.bounded⟩
  | joined room _ _ _ quiet =>
      refine ⟨quiet.keeps.revision, quiet.keeps.writeHash, quiet.keeps.readHash,
        quiet.keeps.revoked, fun _ => quiet.keeps.bounded ?_⟩
      exact (Dict.len_insert_le _ _ _).trans room

theorem connect_keeps (call : Call) (hello : HostHello) (revoked : Bool)
    (bounded : a.viewers.len ≤ 32) : Keeps a (a.connect call hello revoked).1 := by
  have quiet := (connect_connects call hello revoked bounded).1.keeps
  refine ⟨quiet.revision, quiet.writeHash, quiet.readHash, fun flag => quiet.revoked ?_, quiet.bounded⟩
  simp [State.renewed, flag]

end States

/-- The call installs this revision of the invitations of the session. -/
def Op.installs (id : String) (revision : Nat) : Op → Prop
  | .register _ hello _ _ (some persisted) => hello.id = id ∧ persisted.revision = revision
  | .rotate target _ update => target = id ∧ update.revision = revision
  | _ => False

/-- The session of the system that is routed under an id. -/
theorem session_eq_some {system : System} {id number shared} :
    system.session id = some (number, shared) ↔
      system.sessions.get? id = some number ∧ system.shared.get? number = some shared := by
  simp only [System.session, Option.bind_eq_some_iff, Option.map_eq_some_iff, Prod.mk.injEq]
  constructor
  · rintro ⟨_, routed, _, found, rfl, rfl⟩
    exact ⟨routed, found⟩
  · rintro ⟨routed, found⟩
    exact ⟨number, routed, shared, found, rfl, rfl⟩

/-- The digests of distinct tokens differ. -/
def Collisionless (digest : String → String) : Prop :=
  ∀ a b, token a 64 = true → token b 64 = true → digest a = digest b → a = b

/-- Every change a call can make. -/
inductive Changes (digest : String → String) (system : System) (op : Op) : System → Prop where
  | unchanged : Changes digest system op system
  | adjusted {number : Nat} {shared : Shared} {state : State}
      (found : system.shared.get? number = some shared) (keeps : Keeps shared.state state) :
      Changes digest system op (system.setShared number { shared with state })
  | installed {id : String} {number : Nat} {shared : Shared} {state : State} {writeHash readHash : String}
      (routed : system.session id = some (number, shared))
      (asked : op.installs id state.invitationRevision)
      (newer : shared.state.invitationRevision < state.invitationRevision)
      (distinct : Collisionless digest → writeHash ≠ readHash)
      (free : ∀ hash, hash = writeHash ∨ hash = readHash →
        ∀ owner role, system.tokens.get? hash = some (owner, role) → owner = id)
      (write : state.invitationWriteHash = writeHash) (read : state.invitationReadHash = readHash)
      (bounded : state.viewers.len ≤ 32) :
      Changes digest system op ({ system with
        tokens := install system.tokens id shared.options.readOnly writeHash readHash }.setShared
          number { shared with state })
  | created {shared : Shared} {writeHash readHash : String}
      (fresh : system.session shared.id = none) (distinct : Collisionless digest → writeHash ≠ readHash)
      (unused : system.tokens.get? writeHash = none ∧ system.tokens.get? readHash = none)
      (write : shared.state.invitationWriteHash = writeHash)
      (read : shared.state.invitationReadHash = readHash)
      (live : shared.stop = false) (bounded : shared.state.viewers.len ≤ 32) :
      Changes digest system op (System.setShared
        { system with
          tokens := (system.tokens.insert writeHash (shared.id, shared.options.readOnly)).insert
            readHash (shared.id, true)
          sessions := system.sessions.insert shared.id system.nextShared
          nextShared := system.nextShared + 1 } system.nextShared shared)
  | removed {id : String} {number : Nat} {shared after : Shared}
      (routed : system.session id = some (number, shared)) (named : after.id = shared.id)
      (keeps : Keeps shared.state after.state) (emptied : after.state.viewers = .empty) :
      Changes digest system op ({ system with
        sessions := system.sessions.erase id
        tokens := system.tokens.retain fun _ entry => decide (entry.1 ≠ id) }.setShared number after)
  | cleared {id : String} (absent : system.session id = none) :
      Changes digest system op { system with
        sessions := system.sessions.erase id
        tokens := system.tokens.retain fun _ entry => decide (entry.1 ≠ id) }

/-- Sessions are numbered in order, and none has more viewers than fit into the
    queue of a new host. -/
structure Sized (system : System) : Prop where
  created : ∀ number shared, system.shared.get? number = some shared → number < system.nextShared
  bounded : ∀ number shared, system.shared.get? number = some shared →
    shared.state.viewers.len ≤ 32

section Calls

variable {digest : String → String} {system : System} {call : Call} {hello : HostHello} {u : Unit}
  {persisted : PersistedInvitations} {state : State} {number : Nat} {shared : Shared} {op : Op}

theorem hello_distinct {now} (valid : hello.validate now = .ok u) :
    token hello.writeToken 64 = true ∧ token hello.readToken 64 = true ∧
      hello.writeToken ≠ hello.readToken := by
  simp only [HostHello.validate, bind_eq_ok, ensure_eq_ok, Bool.and_eq_true, bne_iff_ne] at valid
  obtain ⟨_, ⟨⟨_, write⟩, read⟩, _, ⟨_, distinct⟩, _⟩ := valid
  exact ⟨write, read, distinct⟩

theorem persisted_distinct (valid : persisted.validate = .ok u) :
    persisted.writeHash ≠ persisted.readHash := by
  simp only [PersistedInvitations.validate, ensure_eq_ok, Bool.and_eq_true, bne_iff_ne] at valid
  exact valid.1.2

theorem update_distinct {update : InvitationUpdate} {at_} (valid : update.validate at_ = .ok u) :
    token update.writeToken 64 = true ∧ token update.readToken 64 = true ∧
      update.writeToken ≠ update.readToken := by
  simp only [InvitationUpdate.validate, bind_eq_ok, ensure_eq_ok, Bool.and_eq_true, bne_iff_ne] at valid
  obtain ⟨_, _, _, ⟨⟨write, read⟩, distinct⟩, _⟩ := valid
  exact ⟨write, read, distinct⟩

/-- What is restored is what was there, or a newer revision. -/
theorem restore_restores {tokens restored after}
    (done : restore tokens hello state persisted = .ok (restored, after)) :
    (restored = tokens ∧ Keeps state after) ∨
      state.invitationRevision < persisted.revision ∧
        (∀ hash, hash = persisted.writeHash ∨ hash = persisted.readHash →
          ∀ owner role, tokens.get? hash = some (owner, role) → owner = hello.id) ∧
        restored = install tokens hello.id hello.options.readOnly persisted.writeHash
          persisted.readHash ∧
        after = state.install persisted.revision persisted.expiresAt persisted.writeHash
          persisted.readHash persisted.revoked := by
  unfold restore at done
  split at done
  · rename_i newer
    split at done
    · split at done
      · cases done
        refine .inl ⟨rfl, rfl, rfl, rfl, fun flag => ?_, id⟩
        simp [flag]
      · cases done
    · rename_i different
      split at done
      · rename_i free
        cases done
        refine .inr ⟨Nat.lt_of_le_of_ne newer (Ne.symm different), ?_, rfl, rfl⟩
        intro hash mine owner role taken
        rw [List.all_eq_true] at free
        have own := free hash (by simpa using mine)
        simpa [taken] using own
      · cases done
  · cases done

theorem lease_eq (hello : HostHello) (revoked : Bool) (number : Nat) (shared : Shared) :
    (system.lease call hello revoked number shared).1 = system.setShared number
      { shared with state := (shared.state.connect call hello revoked).1 } := rfl

theorem lease_ok {revoked} (bounded : shared.state.viewers.len ≤ 32) :
    (system.lease call hello revoked number shared).2 =
      .ok (number, shared.state.generation + 1) := by
  unfold System.lease
  dsimp only
  rw [(connect_connects call hello revoked bounded).2.1]
  rfl

theorem lease_answers {revoked message} (bounded : shared.state.viewers.len ≤ 32) :
    (system.lease call hello revoked number shared).2 ≠ .error message := by
  rw [lease_ok bounded]
  intro impossible
  cases impossible

/-- The call makes one of the changes, and none when it fails. -/
structure Settles {α : Type} (digest : String → String) (system : System) (op : Op)
    (result : System × Result α) : Prop where
  changes : Changes digest system op result.1
  failed : ∀ message, result.2 = .error message → result.1 = system

theorem Settles.refused {α : Type} (message : String) :
    Settles (α := α) digest system op (system, .error message) := ⟨.unchanged, fun _ _ => rfl⟩

/-- A session that is leased has made the change before, since a connection keeps the
    invitations. -/
theorem lease_settles {base : System} (hello : HostHello) (revoked : Bool)
    (few : shared.state.viewers.len ≤ 32)
    (changes : ∀ after, Keeps shared.state after →
      Changes digest system op (base.setShared number { shared with state := after })) :
    Settles digest system op (base.lease call hello revoked number shared) :=
  ⟨changes _ (connect_keeps call hello revoked few), fun _ failed => (lease_answers few failed).elim⟩

theorem register_settles (sized : Sized system) (owner : String) (hello : HostHello) (now : Int) (revoked : Bool)
    (persisted : Option PersistedInvitations) :
    Settles digest system (.register owner hello now revoked persisted)
      (system.registerAuthorized digest call owner hello now revoked persisted) := by
  unfold System.registerAuthorized
  split
  · exact .refused _
  · exact .refused _
  · rename_i valid restorable
    obtain ⟨writeToken, readToken, apart⟩ := hello_distinct valid
    dsimp only
    split
    · rename_i number shared routed
      obtain ⟨_, found⟩ := session_eq_some.mp routed
      have few := sized.bounded number shared found
      split
      · rename_i same
        cases persisted with
        | none => exact lease_settles hello revoked few fun _ => .adjusted found
        | some persisted =>
            dsimp only
            split
            · exact .refused _
            · rename_i tokens state restored
              rcases restore_restores restored with ⟨rfl, keeps⟩ | ⟨newer, free, rfl, rfl⟩
              · exact lease_settles hello revoked (keeps.bounded few) fun after kept =>
                  @Changes.adjusted _ _ _ number shared after found (keeps.trans kept)
              · rw [← same.2.2.1]
                exact lease_settles hello revoked few fun _ kept =>
                  .installed routed ⟨rfl, kept.revision.symm⟩ (kept.revision ▸ newer)
                    (fun _ => persisted_distinct restorable) free kept.writeHash kept.readHash
                    (kept.bounded few)
      · exact .refused _
    · rename_i absent
      split
      · split
        · rename_i unused
          obtain ⟨writeFree, readFree⟩ := unused
          generalize writeNow : (persisted.map (·.writeHash)).getD (digest hello.writeToken) = writeHash
            at writeFree ⊢
          generalize readNow : (persisted.map (·.readHash)).getD (digest hello.readToken) = readHash
            at readFree ⊢
          have distinct : Collisionless digest → writeHash ≠ readHash := by
            intro collisionless
            cases persisted with
            | none =>
                obtain rfl : digest hello.writeToken = writeHash := writeNow
                obtain rfl : digest hello.readToken = readHash := readNow
                exact fun equal => apart (collisionless _ _ writeToken readToken equal)
            | some persisted =>
                obtain rfl : persisted.writeHash = writeHash := writeNow
                obtain rfl : persisted.readHash = readHash := readNow
                exact persisted_distinct restorable
          have unbound {hash : String} (free : system.tokens.contains hash = false) :
              system.tokens.get? hash = none := by
            simpa [Dict.contains] using free
          let made := System.create digest call owner hello revoked persisted writeHash readHash
          have empty : made.state.viewers.len ≤ 32 := Nat.zero_le _
          refine lease_settles hello revoked empty fun after kept => ?_
          exact @Changes.created digest system _ { made with state := after } _ _ absent distinct
            ⟨unbound writeFree, unbound readFree⟩ kept.writeHash kept.readHash rfl
            (kept.bounded empty)
        · exact .refused _
      · exact .refused _

theorem rotate_settles (sized : Sized system) (id : String)
    (generation : UInt64) (update : InvitationUpdate) :
    Settles digest system (.rotate id generation update)
      (system.rotateInvitations digest call id generation update) := by
  unfold System.rotateInvitations
  split
  · exact .refused _
  · rename_i valid
    obtain ⟨writeToken, readToken, apart⟩ := update_distinct valid
    split
    · exact .refused _
    · rename_i number shared routed
      obtain ⟨_, found⟩ := session_eq_some.mp routed
      dsimp only
      split
      · split
        · split
          · exact ⟨.unchanged, fun _ _ => rfl⟩
          · exact .refused _
        · split
          · rename_i newer
            split
            · rename_i unused
              have distinct (collisionless : Collisionless digest) :
                  digest update.writeToken ≠ digest update.readToken := fun equal =>
                apart (collisionless _ _ writeToken readToken equal)
              refine ⟨.installed routed ⟨rfl, rfl⟩ newer distinct ?_ rfl rfl
                (sized.bounded number shared found), fun _ failed => ?_⟩
              · intro hash mine owner role taken
                rcases mine with rfl | rfl
                · simp [Dict.contains, taken] at unused
                · simp [Dict.contains, taken] at unused
              · cases failed
            · exact .refused _
          · exact .refused _
      · exact .refused _

theorem attach_changes (id : String) (identity : Option Nat) (readOnly : Bool) (screen : Screen)
    (invitation : Option String) :
    Changes digest system op (system.attachInner call id identity readOnly screen invitation).1 := by
  unfold System.attachInner
  split
  · exact .unchanged
  · split
    · exact .unchanged
    · rename_i number shared routed
      obtain ⟨_, found⟩ := session_eq_some.mp routed
      split
      · split
        · exact .unchanged
        · split
          · have replaced : Keeps shared.state (shared.state.replace call identity).1 :=
              (replace_quiet identity).keeps
            generalize shared.state.replace call identity = outcome at replaced ⊢
            obtain ⟨state, result⟩ := outcome
            cases result with
            | error message => exact .adjusted found replaced
            | ok =>
                have joined := (join_joins call state shared.options identity readOnly screen).keeps
                exact .adjusted found (replaced.trans joined)
          · exact .unchanged
      · exact .unchanged

theorem remove_changes (id reason : String) (revoked : Bool) :
    Changes digest system op (system.remove call id reason revoked) := by
  unfold System.remove
  split
  · rename_i absent
    exact .cleared absent
  · rename_i number shared routed
    exact .removed routed rfl (close_quiet shared reason revoked).keeps rfl

theorem perform_changes (parse : String → Option Description) (number : Nat) (own : SessionOp) :
    Changes digest system op (system.perform parse call number own).1 := by
  unfold System.perform
  split
  · exact .unchanged
  · rename_i shared found
    exact .adjusted found (perform_performs parse call shared own).keeps

/-- Everything a call can do to the invitations. -/
theorem step_changes (sized : Sized system) (digest : String → String)
    (parse : String → Option Description) (input : Op × Call) :
    Changes digest system input.1 (system.step digest parse input).1 := by
  obtain ⟨op, call⟩ := input
  cases op with
  | register owner hello now revoked persisted =>
      exact (register_settles sized owner hello now revoked persisted).changes
  | rotate id generation update =>
      exact (rotate_settles sized id generation update).changes
  | resolve capability => exact .unchanged
  | attach id identity readOnly screen invitation =>
      exact attach_changes id identity readOnly screen invitation
  | remove id reason revoked => exact remove_changes id reason revoked
  | session number op => exact perform_changes parse number op

/-- One session of the hub is replaced; the others are found as before. -/
theorem get?_setShared {other} :
    (system.setShared number shared).shared.get? other =
      if other = number then some shared else system.shared.get? other := by
  by_cases here : other = number
  · subst here
    simp [System.setShared]
  · simp [System.setShared, here]

theorem sized_new : Sized .new := by
  refine ⟨fun number shared found => ?_, fun number shared found => ?_⟩
  · cases found
  · cases found

theorem Sized.replaced (sized : Sized system) {base : System} {number old} {new : Shared}
    (rest : base.shared = system.shared) (count : base.nextShared = system.nextShared)
    (known : system.shared.get? number = some old) (few : new.state.viewers.len ≤ 32) :
    Sized (base.setShared number new) := by
  refine ⟨fun other shared present => ?_, fun other shared present => ?_⟩
  · rw [get?_setShared] at present
    split at present
    · rename_i here
      rw [here]
      exact count ▸ sized.created number old known
    · exact count ▸ sized.created other shared (rest ▸ present)
  · rw [get?_setShared] at present
    split at present
    · cases present
      exact few
    · exact sized.bounded other shared (rest ▸ present)

theorem Sized.changes (sized : Sized system) {after} (changes : Changes digest system op after) :
    Sized after := by
  cases changes with
  | unchanged => exact sized
  | adjusted found keeps =>
      exact sized.replaced rfl rfl found (keeps.bounded (sized.bounded _ _ found))
  | installed routed _ _ _ _ _ _ bounded =>
      exact sized.replaced rfl rfl (session_eq_some.mp routed).2 bounded
  | created _ _ _ _ _ _ bounded =>
      refine ⟨fun other shared present => ?_, fun other shared present => ?_⟩
      · rw [get?_setShared] at present
        split at present
        · rename_i here
          exact here ▸ Nat.lt_succ_self _
        · exact Nat.lt_succ_of_lt (sized.created other shared present)
      · rw [get?_setShared] at present
        split at present
        · cases present
          exact bounded
        · exact sized.bounded other shared present
  | removed routed _ keeps _ =>
      obtain ⟨_, found⟩ := session_eq_some.mp routed
      exact sized.replaced rfl rfl found (keeps.bounded (sized.bounded _ _ found))
  | cleared _ => exact ⟨sized.created, sized.bounded⟩

theorem sized_run {parse : String → Option Description} {history}
    (run : Run (answers (System.step digest parse)) .new history system) : Sized system := by
  induction run with
  | start => exact sized_new
  | snoc _ taken sized =>
      rw [taken.next]
      exact sized.changes (step_changes sized digest parse _)

end Calls

section Table

/-- The capabilities of a routed session are exactly its two. -/
structure Owns (tokens : Dict String (String × Bool)) (id : String) (shared : Shared) : Prop where
  distinct : shared.state.invitationWriteHash ≠ shared.state.invitationReadHash
  entries : ∀ hash role, tokens.get? hash = some (id, role) ↔
    (hash = shared.state.invitationWriteHash ∧ role = shared.options.readOnly) ∨
      (hash = shared.state.invitationReadHash ∧ role = true)

/-- Every routed session owns its capabilities, and there are no others. -/
structure Listed (system : System) : Prop where
  routed : ∀ id number, system.sessions.get? id = some number →
    ∃ shared, system.shared.get? number = some shared ∧ shared.id = id ∧
      Owns system.tokens id shared
  named : ∀ hash id role, system.tokens.get? hash = some (id, role) →
    ∃ number, system.sessions.get? id = some number

variable {digest : String → String} {system : System} {op : Op}
  {tokens : Dict String (String × Bool)} {id writeHash readHash : String} {shared after : Shared}
  {number : Nat}

theorem Owns.same (owns : Owns tokens id shared) (options : after.options = shared.options)
    (write : after.state.invitationWriteHash = shared.state.invitationWriteHash)
    (read : after.state.invitationReadHash = shared.state.invitationReadHash) :
    Owns tokens id after := by
  refine ⟨?_, fun hash role => ?_⟩
  · rw [write, read]
    exact owns.distinct
  · rw [write, read, options]
    exact owns.entries hash role

/-- No session is routed under two ids. -/
theorem Listed.id_unique (listed : Listed system) {other}
    (first : system.sessions.get? id = some number)
    (second : system.sessions.get? other = some number) :
    id = other := by
  obtain ⟨shared, found, named, _⟩ := listed.routed id number first
  obtain ⟨same, known, otherNamed, _⟩ := listed.routed other number second
  obtain rfl := Option.mem_unique found known
  exact named.symm.trans otherNamed

theorem Listed.adjusted (listed : Listed system) (found : system.shared.get? number = some shared)
    (id : after.id = shared.id) (options : after.options = shared.options)
    (keeps : Keeps shared.state after.state) :
    Listed (system.setShared number after) where
  routed name other present := by
    obtain ⟨old, known, named, owns⟩ := listed.routed name other present
    rw [get?_setShared]
    split
    · rename_i here
      subst here
      obtain rfl := Option.mem_unique found known
      exact ⟨after, rfl, id.trans named, owns.same options keeps.writeHash keeps.readHash⟩
    · exact ⟨old, known, named, owns⟩
  named := listed.named

/-- A session whose id is another one keeps its capabilities through an
    installation. -/
theorem get?_install_other {other readOnly} (apart : other ≠ id)
    (free : ∀ hash, hash = writeHash ∨ hash = readHash →
      ∀ owner role, tokens.get? hash = some (owner, role) → owner = id) (hash : String)
    (role : Bool) :
    (install tokens id readOnly writeHash readHash).get? hash = some (other, role) ↔
      tokens.get? hash = some (other, role) := by
  unfold install
  by_cases read : hash = readHash
  · subst read
    simp only [Dict.get?_insert_self, Option.some.injEq, Prod.mk.injEq, Ne.symm apart, false_and,
      false_iff]
    exact fun taken => apart (free hash (.inr rfl) other role taken)
  · rw [Dict.get?_insert_ne _ _ read]
    by_cases write : hash = writeHash
    · subst write
      simp only [Dict.get?_insert_self, Option.some.injEq, Prod.mk.injEq, Ne.symm apart, false_and,
        false_iff]
      exact fun taken => apart (free hash (.inl rfl) other role taken)
    · rw [Dict.get?_insert_ne _ _ write, Dict.get?_retain_eq_some]
      simp [apart]

theorem get?_install_own {readOnly} (distinct : writeHash ≠ readHash) (hash : String)
    (role : Bool) :
    (install tokens id readOnly writeHash readHash).get? hash = some (id, role) ↔
      (hash = writeHash ∧ role = readOnly) ∨ (hash = readHash ∧ role = true) := by
  unfold install
  by_cases read : hash = readHash
  · subst read
    simp only [Dict.get?_insert_self, Option.some.injEq, Prod.mk.injEq, true_and, Ne.symm distinct,
      false_and, false_or]
    exact eq_comm
  · rw [Dict.get?_insert_ne _ _ read]
    by_cases write : hash = writeHash
    · subst write
      simp [read, eq_comm]
    · rw [Dict.get?_insert_ne _ _ write, Dict.get?_retain_eq_some]
      simp [read, write]

theorem Listed.installed (listed : Listed system)
    (routed : system.session id = some (number, shared)) (distinct : writeHash ≠ readHash)
    (free : ∀ hash, hash = writeHash ∨ hash = readHash →
      ∀ owner role, system.tokens.get? hash = some (owner, role) → owner = id)
    (named : after.id = shared.id) (options : after.options = shared.options)
    (write : after.state.invitationWriteHash = writeHash)
    (read : after.state.invitationReadHash = readHash) :
    Listed ({ system with
      tokens := install system.tokens id shared.options.readOnly writeHash readHash }.setShared
        number after) where
  routed name other present := by
    obtain ⟨here, found⟩ := session_eq_some.mp routed
    obtain ⟨old, known, oldName, owns⟩ := listed.routed name other present
    rw [get?_setShared]
    by_cases own : name = id
    · subst own
      obtain rfl : number = other := Option.mem_unique here present
      obtain rfl := Option.mem_unique found known
      refine ⟨after, if_pos rfl, named.trans oldName, by rw [write, read]; exact distinct, ?_⟩
      intro hash role
      rw [write, read, options]
      exact get?_install_own distinct hash role
    · have apart : other ≠ number := fun same => own (listed.id_unique (same ▸ present) here)
      refine ⟨old, by rw [if_neg apart]; exact known, oldName, owns.distinct, ?_⟩
      intro hash role
      exact (get?_install_other own free hash role).trans (owns.entries hash role)
  named hash name role taken := by
    obtain ⟨here, _⟩ := session_eq_some.mp routed
    by_cases own : name = id
    · subst own
      exact ⟨number, here⟩
    · exact listed.named hash name role ((get?_install_other own free hash role).mp taken)

/-- The id of a session that is not routed has no capability. -/
theorem Listed.absent (listed : Listed system) (absent : system.session id = none) :
    system.sessions.get? id = none ∧ ∀ hash role, system.tokens.get? hash ≠ some (id, role) := by
  have unrouted : system.sessions.get? id = none := by
    cases present : system.sessions.get? id with
    | none => rfl
    | some number =>
        obtain ⟨shared, found, _⟩ := listed.routed id number present
        rw [session_eq_some.mpr ⟨present, found⟩] at absent
        cases absent
  refine ⟨unrouted, fun hash role taken => ?_⟩
  obtain ⟨number, present⟩ := listed.named hash id role taken
  cases unrouted.symm.trans present

theorem Listed.created (listed : Listed system) (sized : Sized system) {shared : Shared}
    {writeHash readHash} (fresh : system.session shared.id = none) (distinct : writeHash ≠ readHash)
    (unused : system.tokens.get? writeHash = none ∧ system.tokens.get? readHash = none)
    (write : shared.state.invitationWriteHash = writeHash)
    (read : shared.state.invitationReadHash = readHash) :
    Listed (System.setShared
      { system with
        tokens := (system.tokens.insert writeHash (shared.id, shared.options.readOnly)).insert
          readHash (shared.id, true)
        sessions := system.sessions.insert shared.id system.nextShared
        nextShared := system.nextShared + 1 } system.nextShared shared) := by
  obtain ⟨unrouted, untaken⟩ := listed.absent fresh
  -- nothing of the new session is in the table yet, so inserting is installing
  have kept : system.tokens.retain (fun _ entry => decide (entry.1 ≠ shared.id)) = system.tokens := by
    refine Dict.retain_eq_self fun hash entry found => ?_
    obtain ⟨owner, role⟩ := entry
    rw [decide_eq_true_eq]
    intro same
    exact untaken hash role (same ▸ found)
  have inserted : (system.tokens.insert writeHash (shared.id, shared.options.readOnly)).insert
      readHash (shared.id, true) =
        install system.tokens shared.id shared.options.readOnly writeHash readHash := by
    rw [install, kept]
  have free : ∀ hash, hash = writeHash ∨ hash = readHash →
      ∀ owner role, system.tokens.get? hash = some (owner, role) → owner = shared.id := by
    intro hash mine owner role taken
    rcases mine with rfl | rfl
    · cases unused.1.symm.trans taken
    · cases unused.2.symm.trans taken
  rw [inserted]
  refine ⟨fun name other present => ?_, fun hash name role taken => ?_⟩
  · rw [get?_setShared]
    rcases Dict.get?_of_insert present with ⟨rfl, rfl⟩ | ⟨apart, older⟩
    · refine ⟨shared, if_pos rfl, rfl, by rw [write, read]; exact distinct, ?_⟩
      intro hash role
      rw [write, read]
      exact get?_install_own distinct hash role
    · obtain ⟨old, known, oldName, owns⟩ := listed.routed name other older
      have earlier : other ≠ system.nextShared := Nat.ne_of_lt (sized.created other old known)
      refine ⟨old, by rw [if_neg earlier]; exact known, oldName, owns.distinct, ?_⟩
      intro hash role
      exact (get?_install_other apart free hash role).trans (owns.entries hash role)
  · by_cases own : name = shared.id
    · exact ⟨system.nextShared, by simp [System.setShared, own]⟩
    · obtain ⟨number, older⟩ :=
        listed.named hash name role ((get?_install_other own free hash role).mp taken)
      exact ⟨number, by simp [System.setShared, own, older]⟩

theorem Listed.cleared (listed : Listed system) (id : String) :
    Listed { system with
      sessions := system.sessions.erase id
      tokens := system.tokens.retain fun _ entry => decide (entry.1 ≠ id) } where
  routed name number present := by
    obtain ⟨apart, older⟩ := Dict.get?_of_erase present
    obtain ⟨shared, found, named, owns⟩ := listed.routed name number older
    refine ⟨shared, found, named, owns.distinct, fun hash role => ?_⟩
    simpa [apart] using owns.entries hash role
  named hash name role taken := by
    obtain ⟨older, apart⟩ := Dict.get?_retain_eq_some.mp taken
    obtain ⟨number, present⟩ := listed.named hash name role older
    refine ⟨number, ?_⟩
    rw [Dict.get?_erase_ne _ (by simpa using apart)]
    exact present

theorem Listed.removed (listed : Listed system)
    (routed : system.session id = some (number, shared)) :
    Listed ({ system with
      sessions := system.sessions.erase id
      tokens := system.tokens.retain fun _ entry => decide (entry.1 ≠ id) }.setShared number after) := by
  obtain ⟨here, _⟩ := session_eq_some.mp routed
  obtain ⟨routes, named⟩ := listed.cleared id
  refine ⟨fun name other present => ?_, named⟩
  obtain ⟨own, older⟩ := Dict.get?_of_erase present
  have apart : other ≠ number := fun same => own (listed.id_unique (same ▸ older) here)
  rw [get?_setShared, if_neg apart]
  exact routes name other present

/-- The table follows every change. -/
theorem Listed.changes (listed : Listed system) (collisionless : Collisionless digest)
    (sized : Sized system) {after} (changes : Changes digest system op after) :
    Listed after := by
  cases changes with
  | unchanged => exact listed
  | adjusted found keeps => exact listed.adjusted found rfl rfl keeps
  | installed routed _ _ distinct free write read _ =>
      exact listed.installed routed (distinct collisionless) free rfl rfl write read
  | created fresh distinct unused write read _ _ =>
      exact listed.created sized fresh (distinct collisionless) unused write read
  | removed routed _ _ _ => exact listed.removed routed
  | cleared _ => exact listed.cleared _

structure Table (system : System) : Prop where
  sized : Sized system
  listed : Listed system

theorem table_new : Table .new := by
  refine ⟨sized_new, ?_, ?_⟩
  · intros
    contradiction
  · intros
    contradiction

theorem Table.changes (table : Table system) (collisionless : Collisionless digest) {after}
    (changes : Changes digest system op after) : Table after :=
  ⟨table.sized.changes changes, table.listed.changes collisionless table.sized changes⟩

end Table

section Runs

variable {digest : String → String} {parse : String → Option Description} {system after : System} {op : Op}
  {shared : Shared} {number : Nat} {history : List ((Op × Call) × Answer)}

/-- The invitations are as new as before, and what was revoked still is unless
    they are newer. -/
structure Advances (before after : State) : Prop where
  revision : before.invitationRevision ≤ after.invitationRevision
  revoked : before.invitationsRevoked = true →
    after.invitationsRevoked = true ∨ before.invitationRevision < after.invitationRevision

theorem Keeps.advances {a b} (keeps : Keeps a b) : Advances a b :=
  ⟨Nat.le_of_eq keeps.revision.symm, fun flag => .inl (keeps.revoked flag)⟩

theorem Advances.trans {a b c} (first : Advances a b) (second : Advances b c) :
    Advances a c where
  revision := first.revision.trans second.revision
  revoked flag := by
    rcases first.revoked flag with still | newer
    · rcases second.revoked still with stays | later
      · exact .inl stays
      · exact .inr (Nat.lt_of_le_of_lt first.revision later)
    · exact .inr (Nat.lt_of_lt_of_le newer second.revision)

/-- What a call does to one session. Only an installation changes the revision,
    and only one that is newer takes a revocation back. -/
structure Moves (op : Op) (shared later : Shared) : Prop where
  named : later.id = shared.id
  advances : Advances shared.state later.state
  installs : later.state.invitationRevision ≠ shared.state.invitationRevision ∨
      (shared.state.invitationsRevoked = true ∧ later.state.invitationsRevoked = false) →
    op.installs shared.id later.state.invitationRevision

theorem Keeps.moves {later : Shared} (named : later.id = shared.id)
    (keeps : Keeps shared.state later.state) : Moves op shared later := by
  refine ⟨named, keeps.advances, fun moved => ?_⟩
  rcases moved with newer | ⟨set, unset⟩
  · exact absurd keeps.revision newer
  · rw [keeps.revoked set] at unset
    cases unset

theorem Table.moves (table : Table system) (changes : Changes digest system op after)
    (found : system.shared.get? number = some shared) :
    ∃ later, after.shared.get? number = some later ∧ Moves op shared later := by
  have same : Moves op shared shared := Keeps.moves rfl ⟨rfl, rfl, rfl, id, id⟩
  -- the session is the one that was replaced, or none of the others
  have replaced {base : System} {other : Nat} {old new : Shared} (rest : base.shared = system.shared)
      (known : system.shared.get? other = some old) (moves : Moves op old new) :
      ∃ later, (base.setShared other new).shared.get? number = some later ∧ Moves op shared later := by
    rw [get?_setShared]
    split
    · rename_i here
      subst here
      obtain rfl := Option.mem_unique found known
      exact ⟨new, rfl, moves⟩
    · exact ⟨shared, rest ▸ found, same⟩
  cases changes with
  | unchanged | cleared _ => exact ⟨shared, found, same⟩
  | adjusted known keeps => exact replaced rfl known (Keeps.moves rfl keeps)
  | installed routed asked newer =>
      obtain ⟨here, known⟩ := session_eq_some.mp routed
      obtain ⟨old, knownToo, named, _⟩ := table.listed.routed _ _ here
      obtain rfl := Option.mem_unique known knownToo
      exact replaced rfl known ⟨rfl, ⟨Nat.le_of_lt newer, fun _ => .inr newer⟩, fun _ => named ▸ asked⟩
  | created =>
      have earlier : number ≠ system.nextShared := Nat.ne_of_lt (table.sized.created number shared found)
      rw [get?_setShared, if_neg earlier]
      exact ⟨shared, found, same⟩
  | removed routed named keeps _ =>
      exact replaced rfl (session_eq_some.mp routed).2 (Keeps.moves named keeps)

theorem table_run (collisionless : Collisionless digest)
    (run : Run (answers (System.step digest parse)) .new history system) : Table system := by
  induction run with
  | start => exact table_new
  | snoc _ taken table =>
      rw [taken.next]
      exact table.changes collisionless (step_changes table.sized digest parse _)

/-- Whatever happens to a session, its invitations only advance. -/
theorem advances_run (collisionless : Collisionless digest) (table : Table system)
    (run : Run (answers (System.step digest parse)) system history after)
    (found : system.shared.get? number = some shared) :
    Table after ∧ ∃ later, after.shared.get? number = some later ∧
      Advances shared.state later.state := by
  induction run with
  | start => exact ⟨table, shared, found, Nat.le_refl _, fun flag => .inl flag⟩
  | snoc _ taken ih =>
      rename_i before event next _
      obtain ⟨tableNow, middle, present, advanced⟩ := ih
      have changes := step_changes tableNow.sized digest parse event.1
      obtain ⟨later, kept, moves⟩ := tableNow.moves changes present
      rw [taken.next]
      exact ⟨tableNow.changes collisionless changes, later, kept, advanced.trans moves.advances⟩

theorem Settles.answered {α : Type} {result} (settles : Settles digest system op result)
    {answer : α → Answer} {message} (other : ∀ value message, answer value ≠ .failed message)
    (taken : (result.1, Answer.ofResult answer result.2) = (after, .failed message)) :
    after = system := by
  obtain ⟨same, failed⟩ := Prod.mk.inj taken
  cases outcome : result.2 with
  | error reason => exact same.symm.trans (settles.failed reason outcome)
  | ok value =>
      rw [outcome] at failed
      exact absurd failed (other value message)

theorem resolve_open {call capability readOnly}
    (resolved : system.resolve digest call capability = .ok (number, readOnly)) :
    ∃ shared, system.shared.get? number = some shared ∧ shared.state.invitationsRevoked = false := by
  unfold System.resolve at resolved
  split at resolved
  · split at resolved
    · cases resolved
    · split at resolved
      · cases resolved
      · rename_i found
        dsimp only at resolved
        split at resolved
        · split at resolved
          · split at resolved
            · cases resolved
            · rename_i unset
              cases resolved
              exact ⟨_, (session_eq_some.mp found).2, Bool.eq_false_iff.mpr unset⟩
          · cases resolved
        · cases resolved
  · cases resolved

/-- In every state that the calls of a hub reach, each routed session owns
    exactly the entries of its current write and read digest, and no entry is
    left over. From then on its revision only grows, and a revocation is only
    taken back by installing a newer revision. A registration or rotation that
    fails changes nothing. -/
theorem capabilities_follow_invitations (digest : String → String)
    (parse : String → Option Description) (collisionless : Collisionless digest)
    (history : List ((Op × Call) × Answer)) (system : System)
    (run : Run (answers (System.step digest parse)) .new history system) :
    (∀ id number, system.sessions.get? id = some number →
      ∃ shared, system.shared.get? number = some shared ∧ shared.id = id ∧
        shared.state.invitationWriteHash ≠ shared.state.invitationReadHash ∧
        ∀ hash role, system.tokens.get? hash = some (id, role) ↔
          (hash = shared.state.invitationWriteHash ∧ role = shared.options.readOnly) ∨
            (hash = shared.state.invitationReadHash ∧ role = true)) ∧
    (∀ hash id role, system.tokens.get? hash = some (id, role) →
      ∃ number, system.sessions.get? id = some number) ∧
    (∀ id other number second shared another, id ≠ other →
      system.sessions.get? id = some number → system.sessions.get? other = some second →
      system.shared.get? number = some shared → system.shared.get? second = some another →
        ∀ hash, hash = shared.state.invitationWriteHash ∨ hash = shared.state.invitationReadHash →
          hash ≠ another.state.invitationWriteHash ∧ hash ≠ another.state.invitationReadHash) ∧
    (∀ later next, Run (answers (System.step digest parse)) system later next →
      ∀ number shared, system.shared.get? number = some shared →
        ∃ after, next.shared.get? number = some after ∧
          shared.state.invitationRevision ≤ after.state.invitationRevision ∧
          (shared.state.invitationsRevoked = true →
            ∀ call capability role, next.resolve digest call capability = .ok (number, role) →
              shared.state.invitationRevision < after.state.invitationRevision)) ∧
    (∀ event next, answers (System.step digest parse) system event next →
      (∀ number shared, system.shared.get? number = some shared →
        ∃ after, next.shared.get? number = some after ∧
          (after.state.invitationRevision ≠ shared.state.invitationRevision ∨
              (shared.state.invitationsRevoked = true ∧ after.state.invitationsRevoked = false) →
            event.1.1.installs shared.id after.state.invitationRevision)) ∧
      ∀ message, event.2 = .failed message →
        ((∃ owner hello now revoked persisted,
            event.1.1 = .register owner hello now revoked persisted) ∨
          ∃ id generation update, event.1.1 = .rotate id generation update) →
        next = system) := by
  have table := table_run collisionless run
  refine ⟨fun id number present => ?_, table.listed.named, ?_, ?_, fun event next taken => ⟨?_, ?_⟩⟩
  · obtain ⟨shared, found, named, owns⟩ := table.listed.routed id number present
    exact ⟨shared, found, named, owns.distinct, owns.entries⟩
  · intro id other number second shared another apart first present found known hash mine
    obtain ⟨_, foundToo, _, owns⟩ := table.listed.routed id number first
    obtain rfl := Option.mem_unique found foundToo
    obtain ⟨_, knownToo, _, theirs⟩ := table.listed.routed other second present
    obtain rfl := Option.mem_unique known knownToo
    -- a digest that both sessions own is bound to both ids
    have bound : ∃ role, system.tokens.get? hash = some (id, role) := by
      rcases mine with write | read
      · exact ⟨_, (owns.entries hash _).mpr (.inl ⟨write, rfl⟩)⟩
      · exact ⟨_, (owns.entries hash _).mpr (.inr ⟨read, rfl⟩)⟩
    obtain ⟨role, bound⟩ := bound
    have clash {otherRole : Bool} (taken : system.tokens.get? hash = some (other, otherRole)) : False := by
      rw [bound] at taken
      exact apart (congrArg Prod.fst (Option.some.inj taken))
    exact ⟨fun write => clash ((theirs.entries hash _).mpr (.inl ⟨write, rfl⟩)),
      fun read => clash ((theirs.entries hash _).mpr (.inr ⟨read, rfl⟩))⟩
  · intro later next more number shared found
    obtain ⟨_, after, present, advanced⟩ := advances_run collisionless table more found
    refine ⟨after, present, advanced.revision, fun flag call capability role resolved => ?_⟩
    obtain ⟨same, known, unset⟩ := resolve_open resolved
    obtain rfl := Option.mem_unique present known
    rcases advanced.revoked flag with still | newer
    · cases unset.symm.trans still
    · exact newer
  · intro number shared found
    have changes := step_changes table.sized digest parse event.1
    obtain ⟨after, present, moves⟩ := table.moves changes found
    rw [taken.next]
    exact ⟨after, present, moves.installs⟩
  · intro message failed kind
    obtain ⟨⟨op, call⟩, answer⟩ := event
    obtain rfl : answer = .failed message := failed
    rcases kind with ⟨owner, hello, now, revoked, persisted, rfl⟩ | ⟨id, generation, update, rfl⟩
    · exact (register_settles table.sized owner hello now revoked persisted).answered
        (fun _ _ => Answer.noConfusion) taken
    · exact (rotate_settles table.sized id generation update).answered
        (fun _ _ => Answer.noConfusion) taken

def exampleSecret : String := "aaaaaaaaaaaaaaaaaaaaaaaaaaaaaaaaaaaaaaaaaaaaaaaaaaaaaaaaaaaaaaaa"

def exampleWrite : String := "bbbbbbbbbbbbbbbbbbbbbbbbbbbbbbbbbbbbbbbbbbbbbbbbbbbbbbbbbbbbbbbb"

def exampleRead : String := "cccccccccccccccccccccccccccccccccccccccccccccccccccccccccccccccc"

/-- A permutation that is SHA-256 on the three example tokens. -/
def exampleDigest : Equiv.Perm String :=
  (Equiv.swap exampleSecret
      "ffe054fe7ae0cb6dc65c3af9b61d5209f439851db43d0ba5997337df154668eb").trans
    ((Equiv.swap exampleWrite
        "a0fab1377f49a759b57f63318262ebe89fabfc990e8e93ceac2984561482b9d4").trans
      (Equiv.swap exampleRead
        "52b6419d27bd7f547cee3b92f8c17a908b8a49601ecbec161e5030de1dfe9e0a"))

def exampleHello : HostHello where
  directTransport := true
  historySnapshots := true
  id := "dddddddddddddddddddddddddddddddd"
  secret := exampleSecret
  writeToken := exampleWrite
  readToken := exampleRead
  options :=
    { name := "Pair debugging"
      expiresAt := 0
      sessionExpiresAt := none
      idleTimeout := 0
      reconnectTimeout := 60
      historyLimit := 100000
      mouse := true
      readOnly := false
      sizePolicy := .smallest
      access := .both
      maxViewers := 16 }

def exampleCall : Call := ⟨fun _ => 100, fun _ => 0, fun _ => 100, 7, 0⟩

def exampleRegister : Op × Call := (.register "owner" exampleHello 100 false none, exampleCall)

/-- A registration is answered, and its write invitation leads to it. -/
theorem registered_session_is_listed :
    (System.step exampleDigest (fun _ => none) .new exampleRegister).2 = .lease 0 1 ∧
      ∃ shared, (System.step exampleDigest (fun _ => none) .new exampleRegister).1.shared.get? 0 =
          some shared ∧
        ∀ hash role, (System.step exampleDigest (fun _ => none) .new
            exampleRegister).1.tokens.get? hash = some (exampleHello.id, role) ↔
          (hash = shared.state.invitationWriteHash ∧ role = shared.options.readOnly) ∨
            (hash = shared.state.invitationReadHash ∧ role = true) := by
  have collisionless : Collisionless exampleDigest := fun _ _ _ _ same => exampleDigest.injective same
  have run : Run (answers (System.step exampleDigest fun _ => none)) .new
      [(exampleRegister, (System.step exampleDigest (fun _ => none) .new exampleRegister).2)]
      (System.step exampleDigest (fun _ => none) .new exampleRegister).1 := .single rfl
  obtain ⟨listed, _⟩ := capabilities_follow_invitations exampleDigest (fun _ => none) collisionless _ _ run
  obtain ⟨shared, found, _, _, entries⟩ := listed exampleHello.id 0 (by decide)
  exact ⟨by decide, shared, found, entries⟩

end Runs

end PortHub.Terminal.Hub
