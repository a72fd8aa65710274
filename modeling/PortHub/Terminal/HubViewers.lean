import PortHub.Terminal.HubRouting

/-! # Who is attached

A participant that is named is attached at most once: joining again closes the
earlier attachment, and a kick therefore leaves nobody behind. Viewers are only
attached to sessions that are routed.
-/

namespace PortHub.Terminal.Hub

namespace State

/-- At most one attached viewer has the identity. -/
def Single (state : State) (identity : Nat) : Prop :=
  ∀ client other viewer another, state.viewers.get? client = some viewer →
    state.viewers.get? other = some another → viewer.identity = identity →
    another.identity = identity → client = other

/-- No attached viewer has the identity. -/
def Without (state : State) (identity : Nat) : Prop :=
  ∀ client viewer, state.viewers.get? client = some viewer → viewer.identity ≠ identity

variable {identity : Nat}

theorem Without.quiet {before : State} {after} (without : before.Without identity)
    (quiet : Quiet Sent.plain before after) :
    after.Without identity := by
  intro client viewer found same
  obtain ⟨old, known, stays⟩ := quiet.viewers client viewer found
  exact without client old known (stays.identity.symm.trans same)

variable {call : Call} {state : State}

theorem find_none (missing : state.find call identity = none) :
    state.Without identity := by
  intro client viewer found same
  have member : (client, viewer) ∈ state.viewers.entries.filter fun entry =>
      entry.2.identity == identity :=
    List.mem_filter.mpr ⟨Dict.get?_eq_some_iff.mp found, beq_iff_eq.mpr same⟩
  unfold find at missing
  have positive := List.length_pos_of_mem member
  rw [List.getElem?_eq_none_iff] at missing
  exact absurd (Nat.mod_lt call.choice positive) (Nat.not_lt.mpr missing)

theorem find_some {entry} (found : state.find call identity = some entry) :
    state.viewers.get? entry.1 = some entry.2 ∧ entry.2.identity = identity := by
  have member := List.mem_filter.mp (List.mem_of_getElem? found)
  exact ⟨Dict.get?_eq_some_iff.mpr member.1, beq_iff_eq.mp member.2⟩

/-- Taking one of them out leaves nobody with the identity. -/
theorem Single.erase (single : state.Single identity) {entry}
    (found : state.find call identity = some entry) :
    State.Without { state with viewers := state.viewers.erase entry.1 } identity := by
  intro client viewer present same
  obtain ⟨apart, known⟩ := Dict.get?_of_erase present
  obtain ⟨here, named⟩ := find_some found
  exact apart (single client entry.1 viewer entry.2 known here same named)

theorem removeParticipant_without (single : state.Single identity) :
    (state.removeParticipant call identity).Without identity := by
  unfold removeParticipant
  split
  · rename_i missing
    exact find_none missing
  · rename_i entry found
    have told := (single.erase found).quiet
      (farewell_quiet call _ (.closed "removed by the host" false) entry trivial)
    have detached := told.quiet
      (notifyHost_quiet _ (.detach entry.1) trivial)
    exact detached.quiet (presence_quiet call _)

theorem replace_without (single : state.Single identity)
    (replaced : (state.replace call (some identity)).2 = .ok ()) :
    (state.replace call (some identity)).1.Without identity := by
  simp only [replace] at replaced ⊢
  split at replaced
  · split at replaced
    · rename_i inRange connected
      rw [if_pos inRange, if_pos connected]
      split
      · rename_i missing
        exact find_none missing
      · rename_i entry found
        have told := (single.erase found).quiet
          (farewell_quiet call _ (.closed "participant reconnected elsewhere" false) entry trivial)
        exact told.quiet (tryHost_quiet _ "" trivial)
    · cases replaced
  · cases replaced

end State

section Attach

variable {digest : String → String} {system : System} {call : Call}

/-- What an attachment that was made looks like. -/
structure Attached (system after : System) (id : String) (identity : Option Nat) (readOnly : Bool)
    (number client : Nat) : Prop where
  routed : ∃ shared, system.session id = some (number, shared)
  viewer : ∀ later viewer, after.shared.get? number = some later →
    later.state.viewers.get? client = some viewer →
    viewer.identity = identity.getD client ∧ viewer.readOnly = readOnly
  only : ∀ shared later name, system.shared.get? number = some shared →
    after.shared.get? number = some later → identity = some name → shared.state.Single name →
    ∀ other viewer, later.state.viewers.get? other = some viewer → viewer.identity = name →
      other = client

theorem attach_attached {id identity readOnly screen invitation number client}
    (made : (system.attachInner call id identity readOnly screen invitation).2 =
      .ok (number, client)) :
    Attached system (system.attachInner call id identity readOnly screen invitation).1 id identity
      readOnly number client := by
  unfold System.attachInner at made ⊢
  split at made
  · cases made
  · rename_i valid
    split at made
    · cases made
    · rename_i target shared routed
      split at made
      · rename_i live
        split at made
        · cases made
        · rename_i invited
          split at made
          · rename_i room
            simp only [if_pos live, if_pos room]
            have replaced : Quiet Sent.plain shared.state (shared.state.replace call identity).1 :=
              replace_quiet identity
            have without (name : Nat) (single : shared.state.Single name) :
                (shared.state.replace call (some name)).2 = .ok () →
                  (shared.state.replace call (some name)).1.Without name :=
              State.replace_without single
            generalize outcome : shared.state.replace call identity = parted at replaced made ⊢
            obtain ⟨state, result⟩ := parted
            cases result with
            | error message => cases made
            | ok =>
                have joins := join_joins call state shared.options identity readOnly screen
                dsimp only at made ⊢
                generalize state.join call shared.options identity readOnly screen = joined
                  at joins made ⊢
                cases joins with
                | refused => cases made
                | numbered quiet => cases made
                | joined _ role _ named quiet =>
                    cases made
                    refine ⟨⟨shared, routed⟩, ?_, ?_⟩
                    · intro later viewer found present
                      rw [get?_setShared, if_pos rfl] at found
                      cases found
                      obtain ⟨old, placed, stays⟩ := quiet.viewers _ viewer present
                      obtain rfl := Option.some.inj
                        ((Dict.get?_insert_self _ _ _).symm.trans placed)
                      exact ⟨stays.identity.trans named, stays.role.trans role⟩
                    · intro before later name known found asked single other viewer present same
                      obtain ⟨_, knownToo⟩ := session_eq_some.mp routed
                      obtain rfl := Option.mem_unique known knownToo
                      rw [get?_setShared, if_pos rfl] at found
                      cases found
                      subst asked
                      have gone := without name single (by rw [outcome])
                      rw [outcome] at gone
                      obtain ⟨old, placed, stays⟩ := quiet.viewers other viewer present
                      rcases Dict.get?_of_insert placed with ⟨rfl, _⟩ | ⟨_, older⟩
                      · rfl
                      · exact absurd (stays.identity.symm.trans same) (gone other old older)
          · cases made
      · cases made

/-- The attachment of a step. -/
theorem step_attached {parse : String → Option Description}
    {id identity readOnly screen invitation number client}
    (made : (system.step digest parse (.attach id identity readOnly screen invitation, call)).2 =
      .attachment number client) :
    Attached system (system.step digest parse
      (.attach id identity readOnly screen invitation, call)).1 id identity readOnly number client := by
  have answered : Answer.ofResult (fun made => .attachment made.1 made.2)
      (system.attachInner call id identity readOnly screen invitation).2 =
      .attachment number client := made
  apply attach_attached
  cases result : (system.attachInner call id identity readOnly screen invitation).2 with
  | error message => simp [result, Answer.ofResult] at answered
  | ok value =>
      simp only [result, Answer.ofResult, Answer.attachment.injEq] at answered
      rw [← answered.1, ← answered.2]

end Attach

/-- Viewers are attached to routed sessions only. -/
def System.Live (system : System) : Prop :=
  ∀ number shared client viewer, system.shared.get? number = some shared →
    shared.state.viewers.get? client = some viewer → system.sessions.get? shared.id = some number

section Runs

variable {digest : String → String} {parse : String → Option Description} {system : System}
  {number : Nat} {shared : Shared}

theorem live_new : System.Live .new := by
  intro number shared client viewer found
  cases found

/-- What a call does to a session, as far as its viewers are concerned. -/
structure Follows (shared later : Shared) : Prop where
  id : later.id = shared.id
  numbers : shared.state.nextClient ≤ later.state.nextClient

theorem Table.follows (table : Table system) (input : Op × Call)
    (found : system.shared.get? number = some shared) :
    ∃ later, (system.step digest parse input).1.shared.get? number = some later ∧
      Follows shared later := by
  obtain ⟨later, present, moves⟩ :=
    table.moves (step_changes table.sized digest parse input) found
  obtain ⟨same, presentToo, turns⟩ := (table.sized.steps digest parse input).old number shared found
  obtain rfl := Option.mem_unique present presentToo
  exact ⟨later, present, moves.named, turns.numbers.1⟩

/-- A viewer was attached before the call, or the call attached it. -/
theorem Table.viewer (table : Table system) (input : Op × Call) {client later viewer}
    (found : (system.step digest parse input).1.shared.get? number = some later)
    (present : later.state.viewers.get? client = some viewer) :
    ∃ shared, system.shared.get? number = some shared ∧
      ((∃ old, shared.state.viewers.get? client = some old ∧ viewer.readOnly = old.readOnly ∧
          viewer.identity = old.identity) ∨
        (system.step digest parse input).2 = .attachment number client ∧
          client = shared.state.nextClient ∧ ∃ id identity screen invitation,
            input.1 = .attach id identity viewer.readOnly screen invitation ∧
              viewer.identity = identity.getD client) := by
  have steps := table.sized.steps digest parse input
  cases known : system.shared.get? number with
  | some shared =>
      obtain ⟨same, presentToo, turns⟩ := steps.old number shared known
      obtain rfl := Option.mem_unique found presentToo
      refine ⟨shared, rfl, ?_⟩
      rcases turns.viewers present with old | ⟨answered, made⟩
      · exact .inl old
      · exact .inr ⟨answered, (turns.numbers.2 client answered).1, made⟩
  | none =>
      rcases (steps.fresh number known).2 with ⟨absent, _⟩ | ⟨same, presentToo, _, begun⟩
      · cases found.symm.trans absent
      · obtain rfl := Option.mem_unique found presentToo
        rw [begun.viewers client] at present
        cases present

/-- A viewer that a call attached belongs to a routed session. -/
theorem Table.routed (table : Table system) {input : Op × Call}
    {id identity readOnly screen invitation client}
    (known : system.shared.get? number = some shared)
    (asked : input.1 = .attach id identity readOnly screen invitation)
    (answered : (system.step digest parse input).2 = .attachment number client) :
    system.sessions.get? shared.id = some number := by
  obtain ⟨op, call⟩ := input
  subst asked
  obtain ⟨same, routed⟩ := (step_attached answered).routed
  obtain ⟨here, _⟩ := session_eq_some.mp routed
  obtain ⟨found, present, named, _⟩ := table.listed.routed id number here
  obtain rfl := Option.mem_unique known present
  rw [named]
  exact here

theorem Live.step (table : Table system) (live : system.Live) (input : Op × Call) :
    (system.step digest parse input).1.Live := by
  intro number later client viewer found present
  obtain ⟨shared, known, attached⟩ := table.viewer input found present
  obtain ⟨same, foundToo, follows⟩ := table.follows input known
  obtain rfl := Option.some.inj (found.symm.trans foundToo)
  have before : system.sessions.get? shared.id = some number := by
    rcases attached with ⟨old, was, _⟩ | ⟨answered, _, _, _, _, _, asked, _⟩
    · exact live number shared client old known was
    · exact table.routed known asked answered
  have routed : system.session shared.id = some (number, shared) :=
    session_eq_some.mpr ⟨before, known⟩
  rw [follows.id]
  have changes := step_changes table.sized digest parse input
  generalize (system.step digest parse input).1 = next at changes found
  cases changes with
  | unchanged | adjusted | installed => exact before
  | created fresh =>
      rename_i created _ _ _ _ _ _ _ _
      have apart : shared.id ≠ created.id := by
        intro same
        rw [← same, routed] at fresh
        cases fresh
      exact (Dict.get?_insert_ne _ _ apart).trans before
  | removed gone _ _ emptied =>
      rename_i id target _ _ _ _
      have apart : shared.id ≠ id := by
        intro same
        rw [← same, routed] at gone
        cases gone
        rw [get?_setShared, if_pos rfl] at found
        obtain rfl := Option.some.inj found
        rw [emptied] at present
        cases present
      exact (Dict.get?_erase_ne _ apart).trans before
  | cleared absent =>
      rename_i id
      have apart : shared.id ≠ id := by
        intro same
        rw [← same, routed] at absent
        cases absent
      exact (Dict.get?_erase_ne _ apart).trans before

/-- The participant that a call removes. -/
def SessionOp.kicks : SessionOp → Option Nat
  | .kick identity => some identity
  | .output _ (.kick identity) => some identity
  | _ => none

/-- A kick that was carried out leaves nobody with the identity. -/
theorem kick_clears {identity} {op : SessionOp} {call} (asked : op.kicks = some identity)
    (found : system.shared.get? number = some shared) (single : shared.state.Single identity)
    (done : (system.step digest parse (.session number op, call)).2 = .done) :
    ∃ later, (system.step digest parse (.session number op, call)).1.shared.get? number =
      some later ∧ later.state.Without identity := by
  have cleared : (shared.perform parse call op).2 = .ok () →
      (shared.perform parse call op).1.Without identity := by
    intro performed
    unfold SessionOp.kicks at asked
    split at asked
    · cases asked
      simp only [Shared.perform] at performed ⊢
      split at performed
      · cases performed
      · rename_i live
        rw [if_neg live]
        exact State.removeParticipant_without single
    · cases asked
      simp only [Shared.perform, State.output] at performed ⊢
      split at performed
      · rename_i current
        rw [if_pos current]
        exact State.removeParticipant_without single
      · cases performed
    · cases asked
  simp only [System.step, System.perform, found] at done ⊢
  refine ⟨_, (get?_setShared).trans (if_pos rfl), cleared ?_⟩
  cases result : (shared.perform parse call op).2 with
  | ok => rfl
  | error message => simp [result, Answer.ofResult] at done

/-- A capability that resolves names its session and role. -/
theorem Table.resolved (table : Table system) {call capability readOnly}
    (resolved : system.resolve digest call capability = .ok (number, readOnly)) :
    ∃ shared, system.shared.get? number = some shared ∧
      system.tokens.get? (digest capability) = some (shared.id, readOnly) := by
  unfold System.resolve at resolved
  split at resolved
  · split at resolved
    · cases resolved
    · rename_i id role bound
      split at resolved
      · cases resolved
      · rename_i target shared routed
        dsimp only at resolved
        split at resolved
        · split at resolved
          · split at resolved
            · cases resolved
            · obtain ⟨rfl, rfl⟩ := Prod.mk.inj (Except.ok.inj resolved)
              obtain ⟨here, known⟩ := session_eq_some.mp routed
              obtain ⟨same, present, named, _⟩ := table.listed.routed id target here
              obtain rfl := Option.mem_unique known present
              exact ⟨shared, known, named.symm ▸ bound⟩
          · cases resolved
        · cases resolved
  · cases resolved

end Runs

end PortHub.Terminal.Hub
