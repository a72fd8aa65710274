import PortHub.Terminal.HubInvitations

/-! # What reaches a host

Every event that is queued for the host of a session is traced back over the
whole run: to the attachment of the viewer it comes from, and to the answer that
negotiated the epochs it carries.
-/

namespace PortHub.Terminal.Hub

open Runs

section Turns

/-- No viewer appears, and the host stays the same. -/
structure Calm (allowed : Sent → Prop) (before after : State) : Prop where
  generation : after.generation = before.generation
  nextClient : before.nextClient ≤ after.nextClient
  viewers : ∀ client viewer, after.viewers.get? client = some viewer →
    ∃ old, before.viewers.get? client = some old ∧ old.Stays viewer
  sent : ∃ queued, after.sent = before.sent ++ queued ∧ ∀ event ∈ queued, allowed event

variable {allowed : Sent → Prop} {a b c : State}

theorem Calm.refl (state : State) : Calm allowed state state :=
  ⟨rfl, Nat.le_refl _, fun _ viewer found => ⟨viewer, found, .refl viewer⟩, [], by simp, by simp⟩

theorem Quiet.calm (quiet : Quiet allowed a b) : Calm allowed a b := by
  have core := quiet.core
  simp only [State.core, Prod.mk.injEq] at core
  exact ⟨core.2.2.2.2.2.1, Nat.le_of_eq core.2.2.2.2.2.2.symm, quiet.viewers, quiet.sent⟩

theorem Calm.trans (first : Calm allowed a b) (second : Calm allowed b c) : Calm allowed a c where
  generation := second.generation.trans first.generation
  nextClient := first.nextClient.trans second.nextClient
  viewers client viewer found := by
    obtain ⟨middle, present, later⟩ := second.viewers client viewer found
    obtain ⟨old, known, earlier⟩ := first.viewers client middle present
    exact ⟨old, known, earlier.trans later⟩
  sent := by
    obtain ⟨early, whole, fine⟩ := first.sent
    obtain ⟨late, more, good⟩ := second.sent
    refine ⟨early ++ late, by rw [more, whole, List.append_assoc], ?_⟩
    intro event member
    rcases List.mem_append.mp member with inside | inside
    · exact fine event inside
    · exact good event inside

/-- A viewer is added before or after the change. -/
theorem Calm.place (calm : Calm allowed a b) (client next : Nat) (viewer : Viewer) :
    Calm allowed ({ a with nextClient := next }.setViewer client viewer)
      ({ b with nextClient := next }.setViewer client viewer) where
  __ := calm
  nextClient := Nat.le_refl _
  viewers other found present := by
    rcases Dict.get?_of_insert present with ⟨rfl, rfl⟩ | ⟨apart, older⟩
    · exact ⟨found, Dict.get?_insert_self _ _ _, .refl found⟩
    · obtain ⟨old, known, stays⟩ := calm.viewers other found older
      exact ⟨old, by simpa [State.setViewer, apart] using known, stays⟩

/-- The answer is a new host for that session. -/
def Answer.leases (number : Nat) : Answer → Bool
  | .lease session _ => session == number
  | _ => false

/-- The answer is a new viewer of that session. -/
def Answer.attaches (number : Nat) : Answer → Bool
  | .attachment session _ => session == number
  | _ => false

/-- What one call does to one session. -/
inductive Turns (number : Nat) (state : State) (op : Op) (answer : Answer) : State → Prop where
  | calm {after : State} (noHost : answer.leases number = false)
      (noViewer : answer.attaches number = false) (calm : Calm Sent.plain state after) :
      Turns number state op answer after
  | performed {own : SessionOp} {middle after : State} {result : Result Unit}
      (asked : op = .session number own) (answered : answer = .ofResult (fun _ => .done) result)
      (shifts : Shifts state own middle result) (calm : Calm (Justified state own) middle after) :
      Turns number state op answer after
  | leased {after : State} {owner : String} {hello : HostHello} {now : Int} {revoked : Bool}
      {persisted : Option PersistedInvitations}
      (asked : op = .register owner hello now revoked persisted)
      (answered : answer = .lease number (state.generation + 1))
      (cleared : ∀ client viewer, after.viewers.get? client = some viewer →
        viewer.directEpochs = none)
      (calm : Calm (Sent.renews state) { state with generation := state.generation + 1 } after) :
      Turns number state op answer after
  | joined {after : State} {viewer : Viewer} {id : String} {identity : Option Nat} {readOnly : Bool}
      {screen : Screen} {invitation : Option String}
      (asked : op = .attach id identity readOnly screen invitation)
      (answered : answer = .attachment number state.nextClient) (role : viewer.readOnly = readOnly)
      (epochs : viewer.directEpochs = none)
      (named : viewer.identity = identity.getD state.nextClient)
      (calm : Calm Sent.plain
        ({ state with nextClient := state.nextClient + 1 }.setViewer state.nextClient viewer) after) :
      Turns number state op answer after

/-- Everything `register_authorized` can do to the sessions. -/
inductive Registers (call : Call) (hello : HostHello) (revoked : Bool) (system : System) :
    System × Result (Nat × UInt64) → Prop where
  | refused (message : String) : Registers call hello revoked system (system, .error message)
  | leased {tokens : Dict String (String × Bool)} {number : Nat} {shared : Shared} {state : State}
      (found : system.shared.get? number = some shared) (viewers : state.viewers = shared.state.viewers)
      (sent : state.sent = shared.state.sent) (generation : state.generation = shared.state.generation)
      (nextClient : state.nextClient = shared.state.nextClient) :
      Registers call hello revoked system
        (System.lease call hello revoked { system with tokens } number { shared with state })
  | created {tokens : Dict String (String × Bool)} {sessions : Dict String Nat} {shared : Shared}
      (empty : shared.state.viewers = .empty) (silent : shared.state.sent = [])
      (first : shared.state.generation = 0) :
      Registers call hello revoked system
        (System.lease call hello revoked
          { system with tokens, sessions, nextShared := system.nextShared + 1 }
          system.nextShared shared)

theorem register_registers (digest : String → String) (call : Call) (system : System) (owner : String)
    (hello : HostHello) (now : Int) (revoked : Bool) (persisted : Option PersistedInvitations) :
    Registers call hello revoked system
      (system.registerAuthorized digest call owner hello now revoked persisted) := by
  unfold System.registerAuthorized
  split
  · exact .refused _
  · exact .refused _
  · dsimp only
    split
    · rename_i number shared routed
      obtain ⟨_, found⟩ := session_eq_some.mp routed
      split
      · cases persisted with
        | none => exact .leased found rfl rfl rfl rfl
        | some persisted =>
            dsimp only
            split
            · exact .refused _
            · rename_i tokens state restored
              unfold restore at restored
              split at restored
              · split at restored
                · split at restored
                  · cases restored
                    exact .leased found rfl rfl rfl rfl
                  · cases restored
                · split at restored
                  · cases restored
                    exact .leased found rfl rfl rfl rfl
                  · cases restored
              · cases restored
      · exact .refused _
    · split
      · split
        · exact .created rfl rfl rfl
        · exact .refused _
      · exact .refused _

/-- A session that was just routed for the first time. -/
structure Begun (state : State) : Prop where
  generation : state.generation = 1
  viewers : ∀ client, state.viewers.get? client = none
  sent : ∀ event ∈ state.sent, event.plain

/-- What one call does to every session. -/
structure Steps (system : System) (op : Op) (next : System) (answer : Answer) : Prop where
  old : ∀ number shared, system.shared.get? number = some shared →
    ∃ later, next.shared.get? number = some later ∧ Turns number shared.state op answer later.state
  fresh : ∀ number, system.shared.get? number = none →
    answer.attaches number = false ∧
      ((next.shared.get? number = none ∧ answer.leases number = false) ∨
        ∃ later, next.shared.get? number = some later ∧ answer = .lease number 1 ∧ Begun later.state)

variable {system next : System} {op : Op} {answer : Answer}

theorem Steps.same (sessions : next.shared = system.shared)
    (noHost : ∀ number, answer.leases number = false)
    (noViewer : ∀ number, answer.attaches number = false) : Steps system op next answer where
  old number shared found :=
    ⟨shared, sessions ▸ found, .calm (noHost number) (noViewer number) (.refl _)⟩
  fresh number absent := ⟨noViewer number, .inl ⟨sessions ▸ absent, noHost number⟩⟩

theorem Steps.failed (message : String) : Steps system op system (.failed message) :=
  .same rfl (fun _ => rfl) fun _ => rfl

/-- The call is about one session. -/
theorem Steps.replaced {base : System} {target old} {new : Shared}
    (rest : base.shared = system.shared) (known : system.shared.get? target = some old)
    (turns : Turns target old.state op answer new.state) (others : ∀ number, number ≠ target →
      answer.leases number = false ∧ answer.attaches number = false) :
    Steps system op (base.setShared target new) answer where
  old number shared found := by
    rw [get?_setShared]
    split
    · rename_i here
      subst here
      obtain rfl := Option.mem_unique found known
      exact ⟨new, rfl, turns⟩
    · rename_i apart
      obtain ⟨noHost, noViewer⟩ := others number apart
      exact ⟨shared, rest ▸ found, .calm noHost noViewer (.refl _)⟩
  fresh number absent := by
    have apart : number ≠ target := by
      rintro rfl
      cases known.symm.trans absent
    obtain ⟨noHost, noViewer⟩ := others number apart
    rw [get?_setShared, if_neg apart, rest]
    exact ⟨noViewer, .inl ⟨absent, noHost⟩⟩

theorem attaches_done (result : Result Unit) (number : Nat) :
    (Answer.ofResult (fun _ => .done) result).leases number = false ∧
      (Answer.ofResult (fun _ => .done) result).attaches number = false := by
  cases result with
  | error message => exact ⟨rfl, rfl⟩
  | ok => exact ⟨rfl, rfl⟩

theorem Sized.register_steps (sized : Sized system) {call owner hello now revoked persisted result}
    (registers : Registers call hello revoked system result)
    (asked : op = .register owner hello now revoked persisted) :
    Steps system op result.1 (.ofResult (fun lease => .lease lease.1 lease.2) result.2) := by
  cases registers with
  | refused message => exact .failed _
  | @leased tokens number shared state found viewers sent generation nextClient =>
      have bounded : state.viewers.len ≤ 32 := by
        rw [viewers]
        exact sized.bounded number shared found
      obtain ⟨quiet, _, cleared⟩ := connect_connects call hello revoked bounded
      have renews : ∀ event, Sent.renews state event → Sent.renews shared.state event := by
        intro event renewed
        unfold Sent.renews Lost at renewed ⊢
        rw [← viewers]
        exact renewed
      have ok : (System.lease call hello revoked { system with tokens } number
          { shared with state }).2 = .ok (number, state.generation + 1) := lease_ok bounded
      have calm : Calm (Sent.renews shared.state)
          { shared.state with generation := shared.state.generation + 1 }
          (state.connect call hello revoked).1 := by
        obtain ⟨generationNow, clientNow, viewersNow, sentNow⟩ := (quiet.mono renews).calm
        refine ⟨?_, nextClient ▸ clientNow, viewers ▸ viewersNow, sent ▸ sentNow⟩
        rw [generationNow]
        exact congrArg (· + 1) generation
      have stepped : Steps system op ({ system with tokens }.setShared number
          { shared with state := (state.connect call hello revoked).1 })
          (.lease number (shared.state.generation + 1)) :=
        .replaced rfl found (.leased asked rfl cleared calm) fun other apart =>
          ⟨beq_eq_false_iff_ne.mpr (Ne.symm apart), rfl⟩
      rw [ok, generation]
      exact stepped
  | @created tokens sessions shared empty silent first =>
      have bounded : shared.state.viewers.len ≤ 32 := by
        rw [empty]
        exact Nat.zero_le _
      obtain ⟨quiet, _, _⟩ := connect_connects call hello revoked bounded
      have ok : (System.lease call hello revoked
          { system with tokens, sessions, nextShared := system.nextShared + 1 } system.nextShared
          shared).2 = .ok (system.nextShared, shared.state.generation + 1) := lease_ok bounded
      rw [ok, first]
      have begun : Begun (shared.state.connect call hello revoked).1 := by
        obtain ⟨generation, _, viewers, sent⟩ := quiet.calm
        refine ⟨?_, fun client => ?_, ?_⟩
        · rw [generation, State.renewed, first]
          rfl
        · cases present : (shared.state.connect call hello revoked).1.viewers.get? client with
          | none => rfl
          | some viewer =>
              obtain ⟨old, found, _⟩ := viewers client viewer present
              simp only [State.renewed, empty] at found
              cases found
        · obtain ⟨queued, whole, renewed⟩ := sent
          rw [whole, State.renewed, silent, List.nil_append]
          intro event member
          exact Sent.plain_of_renews empty (renewed event member)
      have others {number : Nat} (apart : number ≠ system.nextShared) :
          (Answer.lease system.nextShared (0 + 1)).leases number = false :=
        beq_eq_false_iff_ne.mpr (Ne.symm apart)
      refine ⟨fun number old found => ?_, fun number absent => ⟨rfl, ?_⟩⟩
      · have apart : number ≠ system.nextShared := Nat.ne_of_lt (sized.created number old found)
        rw [lease_eq, get?_setShared, if_neg apart]
        exact ⟨old, found, .calm (others apart) rfl (.refl _)⟩
      · rw [lease_eq, get?_setShared]
        split
        · rename_i here
          exact .inr ⟨_, rfl, here ▸ rfl, begun⟩
        · rename_i apart
          exact .inl ⟨absent, others apart⟩

theorem attach_steps {call} (id : String) (identity : Option Nat) (readOnly : Bool)
    (screen : Screen) (invitation : Option String) :
    Steps system (.attach id identity readOnly screen invitation)
      (system.attachInner call id identity readOnly screen invitation).1
      (.ofResult (fun made => .attachment made.1 made.2)
        (system.attachInner call id identity readOnly screen invitation).2) := by
  unfold System.attachInner
  split
  · exact .failed _
  · split
    · exact .failed _
    · rename_i number shared routed
      obtain ⟨_, found⟩ := session_eq_some.mp routed
      split
      · split
        · exact .failed _
        · split
          · have replaced : Quiet Sent.plain shared.state (shared.state.replace call identity).1 :=
              replace_quiet identity
            generalize shared.state.replace call identity = outcome at replaced ⊢
            obtain ⟨state, result⟩ := outcome
            cases result with
            | error message =>
                exact .replaced rfl found (.calm rfl rfl replaced.calm) fun _ _ => ⟨rfl, rfl⟩
            | ok =>
                have joins := join_joins call state shared.options identity readOnly screen
                dsimp only
                generalize state.join call shared.options identity readOnly screen = outcome at joins ⊢
                have same : state.nextClient = shared.state.nextClient := by
                  have core := replaced.core
                  simp only [State.core, Prod.mk.injEq] at core
                  exact core.2.2.2.2.2.2
                cases joins with
                | refused =>
                    exact .replaced rfl found (.calm rfl rfl replaced.calm) fun _ _ => ⟨rfl, rfl⟩
                | numbered quiet =>
                    have bumped : Calm Sent.plain state
                        { state with nextClient := state.nextClient + 1 } :=
                      ⟨rfl, Nat.le_succ _, fun _ viewer present => ⟨viewer, present, .refl viewer⟩, [],
                        by simp, by simp⟩
                    exact .replaced rfl found
                      (.calm rfl rfl ((replaced.calm.trans bumped).trans quiet.calm))
                      fun _ _ => ⟨rfl, rfl⟩
                | joined _ role epochs named quiet =>
                    have placed := (replaced.calm.place state.nextClient (state.nextClient + 1) _).trans
                      quiet.calm
                    rw [same] at placed named ⊢
                    refine .replaced rfl found (.joined rfl rfl role epochs named placed) ?_
                    intro other apart
                    exact ⟨rfl, beq_eq_false_iff_ne.mpr (Ne.symm apart)⟩
          · exact .failed _
      · exact .failed _

/-- Everything a call can do to the sessions. -/
theorem Sized.steps (sized : Sized system) (digest : String → String)
    (parse : String → Option Description) (input : Op × Call) :
    Steps system input.1 (system.step digest parse input).1 (system.step digest parse input).2 := by
  obtain ⟨op, call⟩ := input
  cases op with
  | register owner hello now revoked persisted =>
      exact sized.register_steps
        (register_registers digest call system owner hello now revoked persisted) rfl
  | rotate id generation update =>
      simp only [System.step, System.rotateInvitations]
      split
      · exact .failed _
      · split
        · exact .failed _
        · rename_i number shared routed
          obtain ⟨_, found⟩ := session_eq_some.mp routed
          split
          · split
            · split
              · exact .same rfl (fun _ => rfl) fun _ => rfl
              · exact .failed _
            · split
              · split
                · have kept : Calm Sent.plain shared.state (shared.state.install update.revision
                      update.expiresAt (digest update.writeToken) (digest update.readToken) false) :=
                    ⟨rfl, Nat.le_refl _, fun _ viewer present => ⟨viewer, present, .refl viewer⟩, [],
                      by simp [State.install], by simp⟩
                  exact .replaced rfl found (.calm rfl rfl kept) fun _ _ => ⟨rfl, rfl⟩
                · exact .failed _
              · exact .failed _
          · exact .failed _
  | resolve capability =>
      refine .same rfl (fun number => ?_) fun number => ?_
      all_goals
        simp only [System.step]
        cases system.resolve digest call capability with
        | error message => rfl
        | ok found => rfl
  | attach id identity readOnly screen invitation =>
      exact attach_steps id identity readOnly screen invitation
  | remove id reason revoked =>
      simp only [System.step, System.remove]
      split
      · exact .same rfl (fun _ => rfl) fun _ => rfl
      · rename_i number shared routed
        obtain ⟨_, found⟩ := session_eq_some.mp routed
        exact .replaced rfl found (.calm rfl rfl (close_quiet shared reason revoked).calm)
          fun _ _ => ⟨rfl, rfl⟩
  | session number op =>
      simp only [System.step, System.perform]
      split
      · exact .failed _
      · rename_i shared found
        obtain ⟨middle, shifts, quiet⟩ := perform_performs parse call shared op
        exact .replaced rfl found (.performed rfl rfl shifts quiet.calm)
          fun other _ => attaches_done _ other

end Turns

section Facts

variable {number : Nat} {state after : State} {op : Op} {answer : Answer} {client : Nat}
  {viewer : Viewer}

theorem Shifts.viewers {own middle result} (shifts : Shifts state own middle result)
    (found : middle.viewers.get? client = some viewer) :
    ∃ old, state.viewers.get? client = some old ∧ viewer.readOnly = old.readOnly ∧
      viewer.identity = old.identity := by
  cases shifts with
  | calm | revoked => exact ⟨viewer, found, rfl, rfl⟩
  | negotiated known _ =>
      rcases Dict.get?_of_insert found with ⟨rfl, rfl⟩ | ⟨_, older⟩
      · exact ⟨_, known, rfl, rfl⟩
      · exact ⟨viewer, older, rfl, rfl⟩

theorem Shifts.sent {own middle result} (shifts : Shifts state own middle result) :
    middle.sent = state.sent ∧ middle.generation = state.generation ∧
      middle.nextClient = state.nextClient := by
  cases shifts <;> exact ⟨rfl, rfl, rfl⟩

section

variable (turns : Turns number state op answer after)

include turns

/-- A viewer was there with the same role and identity, or the call attached it. -/
theorem Turns.viewers (found : after.viewers.get? client = some viewer) :
    (∃ old, state.viewers.get? client = some old ∧ viewer.readOnly = old.readOnly ∧
        viewer.identity = old.identity) ∨
      answer = .attachment number client ∧ ∃ id identity screen invitation,
        op = .attach id identity viewer.readOnly screen invitation ∧
          viewer.identity = identity.getD client := by
  cases turns with
  | calm _ _ calm | leased _ _ _ calm =>
      obtain ⟨old, known, stays⟩ := calm.viewers client viewer found
      exact .inl ⟨old, known, stays.role, stays.identity⟩
  | performed _ _ shifts calm =>
      obtain ⟨middle, present, stays⟩ := calm.viewers client viewer found
      obtain ⟨old, known, role, identity⟩ := shifts.viewers present
      exact .inl ⟨old, known, stays.role.trans role, stays.identity.trans identity⟩
  | joined asked answered role _ named calm =>
      obtain ⟨old, present, stays⟩ := calm.viewers client viewer found
      rcases Dict.get?_of_insert present with ⟨rfl, rfl⟩ | ⟨_, older⟩
      · rw [← role, ← stays.role] at asked
        exact .inr ⟨answered, _, _, _, _, asked, stays.identity.trans named⟩
      · exact .inl ⟨old, older, stays.role, stays.identity⟩

/-- An attachment takes the next number, and numbers are not used twice. -/
theorem Turns.numbers : state.nextClient ≤ after.nextClient ∧
      ∀ client, answer = .attachment number client →
        client = state.nextClient ∧ client < after.nextClient := by
  cases turns with
  | calm _ noViewer calm =>
      refine ⟨calm.nextClient, fun client made => ?_⟩
      rw [made] at noViewer
      simp [Answer.attaches] at noViewer
  | performed _ answered shifts calm =>
      refine ⟨shifts.sent.2.2 ▸ calm.nextClient, fun client made => ?_⟩
      have noViewer : answer.attaches number = false := answered ▸ (attaches_done _ number).2
      rw [made] at noViewer
      simp [Answer.attaches] at noViewer
  | leased _ answered _ calm =>
      refine ⟨calm.nextClient, fun client made => ?_⟩
      cases answered.symm.trans made
  | joined _ answered _ _ _ calm =>
      have next : state.nextClient + 1 ≤ after.nextClient := calm.nextClient
      refine ⟨Nat.le_of_succ_le next, fun client made => ?_⟩
      cases answered.symm.trans made
      exact ⟨rfl, next⟩

/-- Epochs were negotiated before, or by this answer of the host. -/
theorem Turns.epochs {epochs}
    (found : after.viewers.get? client = some viewer)
    (negotiated : viewer.directEpochs = some epochs) :
    answer.leases number = false ∧
      ((∃ old, state.viewers.get? client = some old ∧ old.directEpochs = some epochs) ∨
        answer = .done ∧ ∃ reply : DirectAnswer, (reply.inputEpoch, reply.outputEpoch) = epochs ∧
          op = .session number (.output state.generation (.directAnswer client reply))) := by
  have same {old : Viewer} (stays : old.Stays viewer) : old.directEpochs = some epochs := by
    rcases stays.epochs with kept | gone
    · rw [← kept]
      exact negotiated
    · cases gone.symm.trans negotiated
  cases turns with
  | calm noHost _ calm =>
      obtain ⟨old, known, stays⟩ := calm.viewers client viewer found
      exact ⟨noHost, .inl ⟨old, known, same stays⟩⟩
  | performed asked answered shifts calm =>
      obtain ⟨middle, present, stays⟩ := calm.viewers client viewer found
      refine ⟨answered ▸ (attaches_done _ number).1, ?_⟩
      cases shifts with
      | calm | revoked => exact .inl ⟨middle, present, same stays⟩
      | negotiated _ _ =>
          rcases Dict.get?_of_insert present with ⟨rfl, rfl⟩ | ⟨_, older⟩
          · exact .inr ⟨answered, _, Option.some.inj (same stays), asked⟩
          · exact .inl ⟨middle, older, same stays⟩
  | leased _ _ cleared _ =>
      rw [cleared client viewer found] at negotiated
      cases negotiated
  | joined _ answered _ none _ calm =>
      obtain ⟨old, present, stays⟩ := calm.viewers client viewer found
      refine ⟨by rw [answered]; rfl, ?_⟩
      rcases Dict.get?_of_insert present with ⟨rfl, rfl⟩ | ⟨_, older⟩
      · rw [same stays] at none
        cases none
      · exact .inl ⟨old, older, same stays⟩

theorem Turns.generation :
    after.generation = if answer.leases number then state.generation + 1 else state.generation := by
  cases turns with
  | calm noHost _ calm => rw [noHost, calm.generation, if_neg Bool.false_ne_true]
  | performed _ answered shifts calm =>
      rw [answered, (attaches_done _ number).1, calm.generation, shifts.sent.2.1,
        if_neg Bool.false_ne_true]
  | leased _ answered _ calm =>
      rw [answered, calm.generation]
      simp [Answer.leases]
  | joined _ answered _ _ _ calm =>
      rw [answered, calm.generation]
      rfl

end

/-- Why the call queues an event for the session. -/
inductive Reason (number : Nat) (state : State) (op : Op) (sent : Sent) : Prop where
  | plain (plain : sent.plain)
  | session {own : SessionOp} (asked : op = .session number own)
      (justified : Justified state own sent)
  | register {owner : String} {hello : HostHello} {now : Int} {revoked : Bool}
      {persisted : Option PersistedInvitations}
      (asked : op = .register owner hello now revoked persisted) (renews : sent.renews state)

theorem Turns.sent (turns : Turns number state op answer after) :
    ∃ queued, after.sent = state.sent ++ queued ∧
      ∀ event ∈ queued, Reason number state op event := by
  cases turns with
  | calm _ _ calm | joined _ _ _ _ _ calm =>
      obtain ⟨queued, whole, fine⟩ := calm.sent
      exact ⟨queued, whole, fun event member => .plain (fine event member)⟩
  | performed asked _ shifts calm =>
      obtain ⟨queued, whole, fine⟩ := calm.sent
      rw [shifts.sent.1] at whole
      exact ⟨queued, whole, fun event member => .session asked (fine event member)⟩
  | leased asked _ _ calm =>
      obtain ⟨queued, whole, fine⟩ := calm.sent
      exact ⟨queued, whole, fun event member => .register asked (fine event member)⟩

end Facts

section Traces

abbrev Event := (Op × Call) × Answer

/-- The session attached the client, with that role. -/
def Admitted (history : List Event) (number client : Nat) (readOnly : Bool) : Prop :=
  ∃ id identity screen invitation call,
    ((Op.attach id identity readOnly screen invitation, call), Answer.attachment number client) ∈
      history

/-- The present host of the session answered the client with these epochs. -/
def Negotiated (history : List Event) (number client : Nat) (epochs : String × String) : Prop :=
  ∃ earlier later generation call, ∃ reply : DirectAnswer,
    history = earlier ++
        ((.session number (.output generation (.directAnswer client reply)), call), .done) :: later ∧
      (reply.inputEpoch, reply.outputEpoch) = epochs ∧
      ∀ event ∈ later, event.2.leases number = false

/-- How many hosts the session had. -/
def hosts (history : List Event) (number : Nat) : Nat :=
  history.countP fun event => event.2.leases number

/-- Shell input in the log of a session is from a client that may write. -/
def Shown (history : List Event) (number : Nat) : Sent → Prop
  | .host (.input client _) => Admitted history number client false
  | .host (.delivery client packet) =>
      ∀ frame, Delivery.decodePacket packet = .ok (.data frame) →
        Admitted history number client false
  | _ => True

variable {history : List Event} {system : System} {number client : Nat} {sent : Sent}

theorem Admitted.mono {readOnly} (event : Event)
    (admitted : Admitted history number client readOnly) :
    Admitted (history ++ [event]) number client readOnly := by
  obtain ⟨id, identity, screen, invitation, call, member⟩ := admitted
  exact ⟨id, identity, screen, invitation, call, List.mem_append_left _ member⟩

theorem Shown.mono (event : Event) (shown : Shown history number sent) :
    Shown (history ++ [event]) number sent := by
  cases sent with
  | host queued =>
      cases queued with
      | input client data => exact Admitted.mono event shown
      | delivery client packet => exact fun frame decoded => Admitted.mono event (shown frame decoded)
      | _ => trivial
  | viewer client queued => trivial

theorem Shown.plain (plain : sent.plain) : Shown history number sent := by
  cases sent with
  | host queued =>
      cases queued with
      | input | delivery => exact plain.elim
      | _ => trivial
  | viewer client queued => trivial

theorem Shown.renews {state : State} (renews : sent.renews state) : Shown history number sent := by
  cases sent with
  | host queued => exact .plain renews
  | viewer client queued => trivial

theorem Negotiated.mono {epochs} {event : Event}
    (negotiated : Negotiated history number client epochs) (same : event.2.leases number = false) :
    Negotiated (history ++ [event]) number client epochs := by
  obtain ⟨earlier, later, generation, call, reply, rfl, agreed, kept⟩ := negotiated
  refine ⟨earlier, later ++ [event], generation, call, reply, by simp, agreed, ?_⟩
  intro other member
  rcases mem_snoc.mp member with inside | inside
  · exact kept other inside
  · rw [inside]
    exact same

/-- The sessions of the hub, traced back through the calls that were made. -/
structure Traced (history : List Event) (system : System) : Prop where
  admitted : ∀ number shared client viewer, system.shared.get? number = some shared →
    shared.state.viewers.get? client = some viewer →
    Admitted history number client viewer.readOnly
  numbered : ∀ number client readOnly, Admitted history number client readOnly →
    ∃ shared, system.shared.get? number = some shared ∧ client < shared.state.nextClient
  single : ∀ number client readOnly other, Admitted history number client readOnly →
    Admitted history number client other → readOnly = other
  negotiated : ∀ number shared client viewer epochs, system.shared.get? number = some shared →
    shared.state.viewers.get? client = some viewer → viewer.directEpochs = some epochs →
    Negotiated history number client epochs
  counted : ∀ number shared, system.shared.get? number = some shared →
    shared.state.generation = UInt64.ofNat (hosts history number)
  unused : ∀ number, system.shared.get? number = none → hosts history number = 0
  shown : ∀ number shared, system.shared.get? number = some shared →
    ∀ event ∈ shared.state.sent, Shown history number event

theorem traced_new : Traced [] .new := by
  have nobody (number client : Nat) (readOnly : Bool) : ¬Admitted [] number client readOnly := by
    rintro ⟨_, _, _, _, _, member⟩
    cases member
  refine ⟨?_, ?_, ?_, ?_, ?_, fun _ _ => rfl, ?_⟩
  · intros
    contradiction
  · intro number client readOnly admitted
    exact (nobody number client readOnly admitted).elim
  · intro number client readOnly _ admitted
    exact (nobody number client readOnly admitted).elim
  all_goals
    intros
    contradiction

theorem hosts_append (event : Event) (number : Nat) :
    hosts (history ++ [event]) number = hosts history number + (event.2.leases number).toNat := by
  cases made : event.2.leases number <;> simp [hosts, made]

variable {next : System} {event : Event} {digest : String → String}
  {parse : String → Option Description}

theorem Steps.was (steps : Steps system event.1.1 next event.2) {later}
    (found : next.shared.get? number = some later) :
    (∃ shared, system.shared.get? number = some shared ∧
        Turns number shared.state event.1.1 event.2 later.state) ∨
      system.shared.get? number = none ∧ event.2 = .lease number 1 ∧ Begun later.state := by
  cases known : system.shared.get? number with
  | some shared =>
      obtain ⟨same, present, turns⟩ := steps.old number shared known
      obtain rfl := Option.mem_unique found present
      exact .inl ⟨shared, rfl, turns⟩
  | none =>
      rcases (steps.fresh number known).2 with ⟨absent, _⟩ | ⟨same, present, answered, begun⟩
      · cases found.symm.trans absent
      · obtain rfl := Option.mem_unique found present
        exact .inr ⟨rfl, answered, begun⟩

/-- The call attached a client: the next one of a session that exists. -/
theorem Steps.attached (steps : Steps system event.1.1 next event.2)
    (made : event.2 = .attachment number client) :
    ∃ shared later, system.shared.get? number = some shared ∧ client = shared.state.nextClient ∧
      next.shared.get? number = some later ∧ client < later.state.nextClient := by
  cases known : system.shared.get? number with
  | none =>
      have none := (steps.fresh number known).1
      rw [made] at none
      simp [Answer.attaches] at none
  | some shared =>
      obtain ⟨later, present, turns⟩ := steps.old number shared known
      obtain ⟨taken, below⟩ := turns.numbers.2 client made
      exact ⟨shared, later, rfl, taken, present, below⟩

theorem admitted_append {readOnly}
    (admitted : Admitted (history ++ [event]) number client readOnly) :
    Admitted history number client readOnly ∨
      event.2 = .attachment number client ∧ ∃ id identity screen invitation,
        event.1.1 = .attach id identity readOnly screen invitation := by
  obtain ⟨id, identity, screen, invitation, call, member⟩ := admitted
  rcases mem_snoc.mp member with inside | inside
  · exact .inl ⟨id, identity, screen, invitation, call, inside⟩
  · rw [← inside]
    exact .inr ⟨rfl, id, identity, screen, invitation, rfl⟩

theorem Traced.justified (traced : Traced history system) {shared own}
    (known : system.shared.get? number = some shared)
    (justified : Justified shared.state own sent) :
    Shown history number sent := by
  have writable {client : Nat} {viewer : Viewer}
      (found : shared.state.viewers.get? client = some viewer) (role : viewer.readOnly = false) :
      Admitted history number client false :=
    role ▸ traced.admitted number shared client viewer known found
  cases sent with
  | host queued =>
      cases queued with
      | input client data =>
          obtain ⟨viewer, found, role⟩ := justified
          exact writable found role
      | delivery client packet =>
          obtain ⟨viewer, epochs, message, found, _, decoded, carried⟩ := justified
          intro frame data
          cases decoded.symm.trans data
          exact writable found carried.1
      | _ => trivial
  | viewer client queued => trivial

theorem Traced.step (traced : Traced history system) (steps : Steps system event.1.1 next event.2) :
    Traced (history ++ [event]) next where
  admitted number later client viewer found present := by
    rcases steps.was found with ⟨shared, known, turns⟩ | ⟨_, _, begun⟩
    · rcases turns.viewers present with
        ⟨old, before, role, _⟩ | ⟨answered, id, identity, screen, invitation, asked, _⟩
      · rw [role]
        exact (traced.admitted number shared client old known before).mono event
      · refine ⟨id, identity, screen, invitation, event.1.2, ?_⟩
        rw [← asked, ← answered]
        exact List.mem_append_right _ (List.mem_singleton.mpr rfl)
    · rw [begun.viewers client] at present
      cases present
  numbered number client readOnly admitted := by
    rcases admitted_append admitted with older | ⟨made, _⟩
    · obtain ⟨shared, known, below⟩ := traced.numbered number client readOnly older
      obtain ⟨later, present, turns⟩ := steps.old number shared known
      exact ⟨later, present, Nat.lt_of_lt_of_le below turns.numbers.1⟩
    · obtain ⟨_, later, _, _, present, below⟩ := steps.attached made
      exact ⟨later, present, below⟩
  single number client readOnly other first second := by
    -- a number that is attached now was not attached before
    have fresh (made : event.2 = .attachment number client) {role : Bool}
        (older : Admitted history number client role) : False := by
      obtain ⟨shared, _, known, taken, _, _⟩ := steps.attached made
      obtain ⟨same, present, below⟩ := traced.numbered number client role older
      obtain rfl := Option.mem_unique known present
      exact Nat.lt_irrefl _ (taken ▸ below)
    rcases admitted_append first with older | ⟨made, id, identity, screen, invitation, asked⟩
    · rcases admitted_append second with alsoOlder | ⟨made, _⟩
      · exact traced.single number client readOnly other older alsoOlder
      · exact (fresh made older).elim
    · rcases admitted_append second with older | ⟨_, _, _, _, _, alsoAsked⟩
      · exact (fresh made older).elim
      · cases asked.symm.trans alsoAsked
        rfl
  negotiated number later client viewer epochs found present agreed := by
    rcases steps.was found with ⟨shared, known, turns⟩ | ⟨_, _, begun⟩
    · obtain ⟨kept, ⟨old, before, same⟩ | ⟨answered, reply, pair, asked⟩⟩ := turns.epochs present agreed
      · exact (traced.negotiated number shared client old epochs known before same).mono kept
      · refine ⟨history, [], shared.state.generation, event.1.2, reply, ?_, pair, by simp⟩
        rw [← asked, ← answered]
    · rw [begun.viewers client] at present
      cases present
  counted number later found := by
    rw [hosts_append]
    rcases steps.was found with ⟨shared, known, turns⟩ | ⟨absent, answered, begun⟩
    · rw [turns.generation, traced.counted number shared known]
      cases event.2.leases number with
      | false => rfl
      | true => simp
    · rw [begun.generation, traced.unused number absent, answered]
      simp [Answer.leases]
  unused number absent := by
    have before : system.shared.get? number = none := by
      cases known : system.shared.get? number with
      | none => rfl
      | some shared =>
          obtain ⟨later, present, _⟩ := steps.old number shared known
          cases absent.symm.trans present
    rw [hosts_append, traced.unused number before]
    rcases (steps.fresh number before).2 with ⟨_, kept⟩ | ⟨later, present, _⟩
    · rw [kept]
      rfl
    · cases absent.symm.trans present
  shown number later found sent member := by
    rcases steps.was found with ⟨shared, known, turns⟩ | ⟨_, _, begun⟩
    · obtain ⟨queued, whole, fine⟩ := turns.sent
      rw [whole] at member
      rcases List.mem_append.mp member with older | new
      · exact (traced.shown number shared known sent older).mono event
      · cases fine sent new with
        | plain plain => exact .plain plain
        | session _ justified => exact (traced.justified known justified).mono event
        | register _ renews => exact .renews renews
    · exact .plain (begun.sent sent member)

theorem traced_run (run : Run (answers (System.step digest parse)) .new history system) :
    Traced history system := by
  induction run with
  | start => exact traced_new
  | snoc prior taken traced =>
      rename_i before event next
      have steps := (sized_run prior).steps digest parse event.1
      rw [show System.step digest parse before event.1 = (next, event.2) from taken] at steps
      exact traced.step steps

theorem Turns.lease {state after op generation}
    (turns : Turns number state op (.lease number generation) after) :
    after.generation = generation := by
  cases turns with
  | calm noHost _ _ => simp [Answer.leases] at noHost
  | performed _ answered _ _ =>
      have noHost : (Answer.lease number generation).leases number = false :=
        answered ▸ (attaches_done _ number).1
      simp [Answer.leases] at noHost
  | leased _ answered _ calm =>
      cases answered
      exact calm.generation
  | joined _ answered _ _ _ _ => cases answered

theorem hosts_trans (earlier later : List Event) (number : Nat) :
    hosts (earlier ++ later) number = hosts earlier number + hosts later number :=
  List.countP_append

/-- Generations of one session repeat only after as many hosts as there are
    numbers. -/
theorem generation_ne {count more} (positive : 0 < more) (bounded : more < 2 ^ 64) :
    UInt64.ofNat count ≠ UInt64.ofNat (count + more) := by
  intro same
  have equal := congrArg UInt64.toNat same
  simp only [UInt64.toNat_ofNat'] at equal
  omega

/-- A host that was replaced is not listened to. -/
theorem superseded_run (run : Run (answers (System.step digest parse)) .new history system)
    {event next last} (taken : answers (System.step digest parse) system event next) {generation}
    (leased : event.2 = .lease number generation) {later}
    (more : Run (answers (System.step digest parse)) next later last)
    (positive : 0 < hosts later number) (bounded : hosts later number < 2 ^ 64)
    (message : HostOutput) (call : Call) :
    (last.step digest parse (.session number (.output generation message), call)).2 =
        .failed "stale terminal host connection" ∧
      ∀ other, (last.step digest parse
        (.session number (.output generation message), call)).1.shared.get? other =
          last.shared.get? other := by
  have first := run.snoc taken
  have whole := first.trans more
  have steps := (sized_run run).steps digest parse event.1
  rw [show System.step digest parse system event.1 = (next, event.2) from taken] at steps
  -- the generation of the lease is the number of hosts so far
  have own : generation = UInt64.ofNat (hosts (history ++ [event]) number) := by
    have positiveNow : hosts (history ++ [event]) number ≠ 0 := by
      rw [hosts_append, leased]
      simp [Answer.leases]
    cases present : next.shared.get? number with
    | none => exact absurd ((traced_run first).unused number present) positiveNow
    | some shared =>
        rw [← (traced_run first).counted number shared present]
        rcases steps.was present with ⟨old, _, turns⟩ | ⟨_, answered, begun⟩
        · rw [leased] at turns
          exact turns.lease.symm
        · cases leased.symm.trans answered
          exact begun.generation.symm
  have traced := traced_run whole
  cases present : last.shared.get? number with
  | none =>
      have none := traced.unused number present
      rw [hosts_trans] at none
      omega
  | some shared =>
      have current := traced.counted number shared present
      rw [hosts_trans] at current
      have stale : ¬(generation = shared.state.generation ∧ shared.stop = false) := by
        rintro ⟨same, _⟩
        rw [own, current] at same
        exact generation_ne positive bounded same
      have performed : shared.perform parse call (.output generation message) =
          (shared.state, .error "stale terminal host connection") := by
        simp only [Shared.perform, State.output, if_neg stale]
      simp only [System.step, System.perform, present, performed]
      refine ⟨rfl, fun other => ?_⟩
      rw [get?_setShared]
      split
      · rename_i here
        rw [here, present]
      · rfl

/-- In every run, what a call queues for the host of a session is from a client
    that is attached, shell input only from one that was attached as a writer,
    and packets only under the epochs that the present host agreed to. A page of
    history from the host goes to the client that waits for it, and unless it
    reports an error it fits the anchor of the request; the gateway makes pages up
    only for a client that just asked and is turned away, or whose request is lost
    with its host. A host that was replaced changes nothing, and no client that was
    attached to read only ever sends shell input. -/
theorem guests_are_confined (digest : String → String) (parse : String → Option Description)
    (history : List Event) (system : System)
    (run : Run (answers (System.step digest parse)) .new history system) :
    (∀ event next, answers (System.step digest parse) system event next →
      (∀ number later, system.shared.get? number = none → next.shared.get? number = some later →
        ∀ sent ∈ later.state.sent, sent.plain) ∧
      ∀ number shared, system.shared.get? number = some shared →
        ∃ later queued, next.shared.get? number = some later ∧
          later.state.sent = shared.state.sent ++ queued ∧
          ∀ sent ∈ queued,
            (∀ client data, sent = .host (.input client data) →
              ∃ viewer, shared.state.viewers.get? client = some viewer ∧ viewer.readOnly = false ∧
                Admitted history number client false) ∧
            (∀ client packet, sent = .host (.delivery client packet) →
              ∃ viewer epochs message, shared.state.viewers.get? client = some viewer ∧
                viewer.directEpochs = some epochs ∧ Negotiated history number client epochs ∧
                Delivery.decodePacket packet = .ok message ∧ Carried viewer epochs message ∧
                Admitted history number client viewer.readOnly) ∧
            ∀ client page, sent = .viewer client (.history page) →
              (∃ own, event.1.1 = .session number own ∧ Paged shared.state client page own) ∨
                ∃ owner hello now revoked persisted,
                  event.1.1 = .register owner hello now revoked persisted ∧
                    Lost shared.state client page) ∧
    (∀ event next number generation, answers (System.step digest parse) system event next →
      event.2 = .lease number generation →
      ∀ later last, Run (answers (System.step digest parse)) next later last →
        0 < hosts later number → hosts later number < 2 ^ 64 → ∀ message call,
          (last.step digest parse (.session number (.output generation message), call)).2 =
              .failed "stale terminal host connection" ∧
            ∀ other, (last.step digest parse
              (.session number (.output generation message), call)).1.shared.get? other =
                last.shared.get? other) ∧
    ∀ number client, Admitted history number client true →
      ∀ shared, system.shared.get? number = some shared → ∀ sent ∈ shared.state.sent,
        (∀ data, sent ≠ .host (.input client data)) ∧
        ∀ packet frame, sent = .host (.delivery client packet) →
          Delivery.decodePacket packet ≠ .ok (.data frame) := by
  have traced := traced_run run
  refine ⟨fun event next taken => ?_, ?_, ?_⟩
  · have steps := (sized_run run).steps digest parse event.1
    rw [show System.step digest parse system event.1 = (next, event.2) from taken] at steps
    refine ⟨fun number later absent present => ?_, fun number shared known => ?_⟩
    · rcases steps.was present with ⟨shared, known, _⟩ | ⟨_, _, begun⟩
      · cases absent.symm.trans known
      · exact begun.sent
    · obtain ⟨later, present, turns⟩ := steps.old number shared known
      obtain ⟨queued, whole, fine⟩ := turns.sent
      refine ⟨later, queued, present, whole, fun sent member => ?_⟩
      have reason := fine sent member
      refine ⟨?_, ?_, ?_⟩
      · rintro client data rfl
        cases reason with
        | plain plain => exact plain.elim
        | session _ justified =>
            obtain ⟨viewer, found, role⟩ := justified
            exact ⟨viewer, found, role, role ▸ traced.admitted number shared client viewer known found⟩
        | register _ renews => exact renews.elim
      · rintro client packet rfl
        cases reason with
        | plain plain => exact plain.elim
        | session _ justified =>
            obtain ⟨viewer, epochs, message, found, agreed, decoded, carried⟩ := justified
            exact ⟨viewer, epochs, message, found, agreed,
              traced.negotiated number shared client viewer epochs known found agreed, decoded,
              carried, traced.admitted number shared client viewer known found⟩
        | register _ renews => exact renews.elim
      · rintro client page rfl
        cases reason with
        | plain plain => exact plain.elim
        | session asked paged => exact .inl ⟨_, asked, paged⟩
        | register asked lost => exact .inr ⟨_, _, _, _, _, asked, lost⟩
  · intro event next number generation taken leased later last more positive bounded message call
    exact superseded_run run taken leased more positive bounded message call
  · intro number client reader shared known sent member
    have shown := traced.shown number shared known sent member
    refine ⟨?_, ?_⟩
    · rintro data rfl
      exact Bool.noConfusion (traced.single number client true false reader shown)
    · rintro packet frame rfl decoded
      exact Bool.noConfusion (traced.single number client true false reader (shown frame decoded))

def exampleStep : System → Op × Call → System × Answer := System.step exampleDigest fun _ => none

def exampleAttach (readOnly : Bool) : Op × Call :=
  (.attach exampleHello.id none readOnly ⟨80, 24, "xterm"⟩ none, exampleCall)

/-- A reader that types is refused, and nothing it typed reaches the host. -/
theorem typing_reader_is_refused : let typed := feed exampleStep .new [exampleRegister, exampleAttach true,
      (.session 0 (.input 7 (.input (encodeData [108, 115]))), exampleCall)]
    typed.1.map Prod.snd =
        [.lease 0 1, .attachment 0 7, .failed "this invitation is read-only"] ∧
      ∀ shared, typed.2.shared.get? 0 = some shared → ∀ sent ∈ shared.state.sent,
        ∀ data, sent ≠ .host (.input 7 data) := by
  intro typed
  have run : Run (answers exampleStep) .new typed.1 typed.2 := feed_run exampleStep .new _
  have reader : Admitted typed.1 0 7 true :=
    ⟨exampleHello.id, none, ⟨80, 24, "xterm"⟩, none, exampleCall, by
      have second : (exampleStep (exampleStep .new exampleRegister).1 (exampleAttach true)).2 =
          .attachment 0 7 := by decide
      refine List.mem_cons_of_mem _ (List.mem_cons.mpr (.inl ?_))
      exact congrArg (Prod.mk (exampleAttach true)) second.symm⟩
  obtain ⟨_, _, readers⟩ := guests_are_confined exampleDigest (fun _ => none) _ _ run
  exact ⟨by decide, fun shared known sent member =>
    (readers 0 7 reader shared known sent member).1⟩

end Traces

section Failures

/-- Every attached viewer is attached still. -/
def Holds (before after : State) : Prop :=
  ∀ client, before.viewers.contains client = true → after.viewers.contains client = true

variable {call : Call} {a b c : State}

theorem Holds.of_eq (same : b.viewers = a.viewers) : Holds a b := by
  intro client present
  rw [same]
  exact present

theorem Holds.trans (first : Holds a b) (second : Holds b c) : Holds a c :=
  fun client present => second client (first client present)

theorem Holds.setViewer (state : State) (client : Nat) (viewer : Viewer) :
    Holds state (state.setViewer client viewer) := by
  intro other present
  by_cases same : other = client
  · simp [Dict.contains, State.setViewer, same]
  · simpa [Dict.contains, State.setViewer, same] using present

theorem presence_holds (state : State) : Holds state (state.presence call) := by
  have told (event : ViewerEvent) (clients : List Nat) (ready : State) :
      Holds ready (clients.foldl (State.notifyViewer call event) ready) := by
    induction clients generalizing ready with
    | nil => exact .of_eq rfl
    | cons client rest ih =>
        refine Holds.trans ?_ (ih _)
        unfold State.notifyViewer
        split
        · exact .of_eq rfl
        · split
          · exact .of_eq rfl
          · exact (Holds.setViewer ready client _).trans (.of_eq rfl)
  exact (Holds.of_eq (tryHost_viewers state _ "")).trans (told _ _ _)

theorem reattach_holds (call : Call) (entries : List (Nat × Viewer)) (state : State) (send : Channel HostEvent) :
    Holds state (State.reattach call entries state send).1 := by
  induction entries generalizing state send with
  | nil => exact .of_eq rfl
  | cons entry rest ih =>
      have placed : Holds state ((state.setViewer entry.1 (entry.2.reconnected call).1).record
          ((entry.2.reconnected call).2.map (.viewer entry.1))) :=
        (Holds.setViewer state entry.1 _).trans (.of_eq rfl)
      unfold State.reattach
      dsimp only
      split
      · exact placed
      · exact fun client present => ih _ _ client (placed client present)

theorem connect_holds (hello : HostHello) (revoked : Bool) (state : State) :
    Holds state (state.connect call hello revoked).1 := by
  have renewed : Holds state (state.renew hello revoked) := .of_eq (tryHost_viewers _ _ "")
  have attached := renewed.trans (reattach_holds call
    (state.renew hello revoked).viewers.entries (state.renew hello revoked) ⟨[], 128, false⟩)
  unfold State.connect
  dsimp only
  generalize State.reattach call (state.renew hello revoked).viewers.entries
    (state.renew hello revoked) ⟨[], 128, false⟩ = result at attached ⊢
  obtain ⟨after, outcome⟩ := result
  cases outcome with
  | error message => exact attached
  | ok send =>
      dsimp only
      split
      · split
        · exact attached
        · exact fun client present => presence_holds _ client (attached client present)
      · exact fun client present => presence_holds _ client (attached client present)

/-- The session of the example, with its viewer. -/
structure Waiting (system : System) (shared : Shared) : Prop where
  routed : system.session exampleHello.id = some (0, shared)
  owner : shared.owner = "owner"
  secret : shared.secretHash = exampleDigest exampleSecret
  options : shared.options = exampleHello.options
  live : shared.stop = false
  attached : shared.state.viewers.contains 7 = true

theorem Waiting.register {system shared} (waiting : Waiting system shared)
    (few : shared.state.viewers.len ≤ 32) :
    ∃ later, Waiting (exampleStep system exampleRegister).1 later ∧
      (exampleStep system exampleRegister).2 = .lease 0 (shared.state.generation + 1) := by
  have valid : exampleHello.validate 100 = .ok () := by decide
  have known : shared.owner = "owner" ∧ shared.secretHash = exampleDigest exampleHello.secret ∧
      shared.options = exampleHello.options ∧ shared.stop = false :=
    ⟨waiting.owner, waiting.secret, waiting.options, waiting.live⟩
  have registered : system.registerAuthorized exampleDigest exampleCall "owner" exampleHello 100 false
      none = system.lease exampleCall exampleHello false 0 shared := by
    simp only [System.registerAuthorized, valid, Option.map_none, Option.getD_none, waiting.routed]
    rw [if_pos known]
  have stepped : exampleStep system exampleRegister =
      ((system.lease exampleCall exampleHello false 0 shared).1,
        .ofResult (fun lease => .lease lease.1 lease.2)
          (system.lease exampleCall exampleHello false 0 shared).2) := by
    rw [← registered]
    rfl
  let later : Shared :=
    { shared with state := (shared.state.connect exampleCall exampleHello false).1 }
  have routed : system.sessions.get? exampleHello.id = some 0 := (session_eq_some.mp waiting.routed).1
  have found : (system.setShared 0 later).shared.get? 0 = some later := by
    rw [get?_setShared, if_pos rfl]
  refine ⟨later, ?_, ?_⟩
  · rw [stepped]
    exact ⟨session_eq_some.mpr ⟨routed, found⟩, waiting.owner, waiting.secret, waiting.options,
      waiting.live, connect_holds exampleHello false shared.state 7 waiting.attached⟩
  · rw [stepped, lease_ok few]
    rfl

theorem first_run : Run (answers exampleStep) .new
    [(exampleRegister, (exampleStep .new exampleRegister).2)] (exampleStep .new exampleRegister).1 :=
  .single rfl

theorem registered_often (count : Nat) : ∃ history system shared,
    Run (answers exampleStep) (exampleStep .new exampleRegister).1 history system ∧
      Waiting system shared ∧ hosts history 0 = count := by
  induction count with
  | zero =>
      let start := (exampleStep .new exampleRegister).1
      have facts : (((exampleStep start (exampleAttach true)).1.session exampleHello.id).map fun entry =>
          (entry.1, entry.2.owner, entry.2.secretHash, entry.2.options, entry.2.stop,
            entry.2.state.viewers.contains 7)) =
          some (0, "owner", exampleDigest exampleSecret, exampleHello.options, false, true) := by
        decide
      obtain ⟨⟨number, shared⟩, routed, same⟩ := Option.map_eq_some_iff.mp facts
      simp only [Prod.mk.injEq] at same
      obtain ⟨rfl, owner, secret, options, live, attached⟩ := same
      have taken : answers exampleStep start (exampleAttach true, (exampleStep start
          (exampleAttach true)).2) (exampleStep start (exampleAttach true)).1 := rfl
      exact ⟨_, _, shared, Run.single taken, ⟨routed, owner, secret, options, live, attached⟩,
        by decide⟩
  | succ count ih =>
      obtain ⟨history, system, shared, run, waiting, counted⟩ := ih
      have sized : Sized system := sized_run (first_run.trans run)
      have few := sized.bounded 0 shared (session_eq_some.mp waiting.routed).2
      obtain ⟨later, still, answered⟩ := waiting.register few
      have taken : answers exampleStep system (exampleRegister, (exampleStep system exampleRegister).2)
          (exampleStep system exampleRegister).1 := rfl
      refine ⟨_, _, later, run.snoc taken, still, ?_⟩
      rw [hosts_append, counted, answered]
      simp [Answer.leases]

def exampleAnchor : String := "eeeeeeeeeeeeeeeeeeeeeeeeeeeeeeee"

/-- A page that reports an error, with another snapshot than was asked for. -/
def examplePage : HistoryChunk :=
  ⟨some "ffffffffffffffffffffffffffffffff", 1, some "%0", [], true, 0, 0, 0, false, some "failed"⟩

def exampleRequest : Op × Call :=
  (.session 0 (.input 7 (.history true (some exampleAnchor) 1 "%0" 0 20)), exampleCall)

/-- The hub while the viewer waits for a page of its snapshot. -/
def exampleAsked : System :=
  (feed exampleStep .new [exampleRegister, exampleAttach true, exampleRequest]).2

def exampleReply : Op × Call := (.session 0 (.output 1 (.history 7 examplePage)), exampleCall)

/-- A page that reports an error is forwarded though it does not fit the anchor,
    and a host that was replaced is listened to again once the generation of the
    session comes round. -/
theorem anchor_and_generation_are_missed : (((exampleAsked.shared.get? 0).bind fun shared =>
        (shared.state.viewers.get? 7).map fun viewer =>
          (viewer.historyPending, viewer.historyAnchor)) =
        some (some examplePage.request, some (some exampleAnchor)) ∧
      ¬Fits (some (some exampleAnchor)) examplePage.snapshot ∧
      (exampleStep exampleAsked exampleReply).2 = .done ∧
      ((exampleStep exampleAsked exampleReply).1.shared.get? 0).bind (fun shared =>
          shared.state.sent.getLast?) = some (.viewer 7 (.history examplePage))) ∧
    ∃ later last call, (exampleStep .new exampleRegister).2 = .lease 0 1 ∧
      Run (answers exampleStep) (exampleStep .new exampleRegister).1 later last ∧
      0 < hosts later 0 ∧
      ((last.shared.get? 0).any fun shared => shared.state.viewers.contains 7) = true ∧
      (((exampleStep last (.session 0 (.output 1 (.closed 7)), call)).1.shared.get? 0).any fun shared =>
        shared.state.viewers.contains 7) = false := by
  refine ⟨⟨by decide, by simp [Fits, examplePage, exampleAnchor], by decide,
    by decide⟩, ?_⟩
  obtain ⟨history, system, shared, run, waiting, counted⟩ := registered_often (2 ^ 64)
  obtain ⟨_, found⟩ := session_eq_some.mp waiting.routed
  have generation : (1 : UInt64) = shared.state.generation := by
    have traced := traced_run (first_run.trans run)
    rw [traced.counted 0 shared found, hosts_trans, counted]
    decide
  refine ⟨history, system, exampleCall, by decide, run, by omega, ?_, ?_⟩
  · rw [found]
    exact waiting.attached
  · have performed : shared.perform (fun _ => none) exampleCall (.output 1 (.closed 7)) =
        (State.presence exampleCall { shared.state with viewers := shared.state.viewers.erase 7 },
          .ok ()) := by
      simp only [Shared.perform, State.output]
      rw [if_pos ⟨generation, waiting.live⟩]
    simp only [exampleStep, System.step, System.perform, found, performed, get?_setShared, if_true,
      Option.any_some]
    have quiet := presence_quiet exampleCall { shared.state with viewers := shared.state.viewers.erase 7 }
    cases present : (State.presence exampleCall
        { shared.state with viewers := shared.state.viewers.erase 7 }).viewers.get? 7 with
    | none => simp [Dict.contains, present]
    | some viewer =>
        obtain ⟨old, kept, _⟩ := quiet.viewers 7 viewer present
        simp at kept

end Failures

end PortHub.Terminal.Hub
