import PortHub.Api.TerminalGrants
import PortHub.Terminal.HubViewers

/-! # A kicked guest stays out

Safety rests on the second check of the lease. Whatever the order of the steps,
a viewer counts as admitted only after its grant was found active while the
viewer was already attached; a kick makes the grant inactive before it looks for
the viewer. So either the check comes after the revocation and fails, or the
viewer is attached when the participant is removed.
-/

namespace PortHub.Api.TerminalGrants

open PortHub.Terminal Runs

/-- The steps taken so far, with what they put out. -/
abbrev History := List (Event × Output)

/-- The grant with that hash was created with this session, identity and role. -/
def Created (history : History) (hash session : String) (identity : Nat) (readOnly : Bool) : Prop :=
  ∃ event, (event, Output.created hash session identity readOnly) ∈ history

/-- The admission of the grant's viewer was completed. -/
def Admitted (history : History) (grant : Grant) (number client : Nat) : Prop :=
  ∃ event, (event, Output.admitted grant number client) ∈ history

/-- A kick of the identity returned success. -/
def Kicked (history : History) (session : String) (identity : Nat) : Prop :=
  ∃ event, (event, Output.kicked session identity) ∈ history

/-- The identity that a kick asks for. -/
def Event.kicks : Event → Option Nat
  | .kick _ _ identity => some identity
  | .hostKick _ _ _ identity => some identity
  | _ => none

/-- The hash and the identity of a grant that is created. -/
def Output.creation : Output → Option (String × Nat)
  | .created hash _ identity _ => some (hash, identity)
  | _ => none

/-- The identity of a viewer that is attached without a grant. -/
def anonymous : Event × Output → Option Nat
  | (.hub _ _, .hub (.attachment _ client)) => some client
  | _ => none

/-- The step brought up the hash or the identity. -/
def Mentions (label : Event × Output) (drawn : String × Nat) : Prop :=
  (∃ created ∈ label.2.creation, created.1 = drawn.1 ∨ created.2 = drawn.2) ∨
    label.1.kicks = some drawn.2

instance (label : Event × Output) (drawn : String × Nat) : Decidable (Mentions label drawn) :=
  inferInstanceAs (Decidable (_ ∨ _))

/-- What is drawn is new: no earlier step brought up the hash or the identity of
    a grant that is created, and no viewer without a grant has such an identity. -/
structure Distinct (history : History) : Prop where
  fresh : history.Pairwise fun earlier later =>
    ∀ drawn ∈ later.2.creation, ¬ Mentions earlier drawn
  anonymous : ∀ label ∈ history, ∀ client ∈ anonymous label,
    ∀ other ∈ history, ∀ drawn ∈ other.2.creation, drawn.2 ≠ client

section Steps

variable (digest : String → String) (parse : String → Option Description)
  (meaning : String → String × Bool)

/-- One step under the assumptions on its environment: a capability names one
    session and role, and the session that a kick acts on is the routed one. -/
structure Taken (gateway : Gateway) (label : Event × Output) (next : Gateway) : Prop where
  step : answers (Gateway.step digest parse) gateway label next
  tokens : ∀ hash entry, next.hub.tokens.get? hash = some entry → meaning hash = entry
  routed : ∀ id call kick, label.1 = .remove id call → gateway.kicks.get? id = some kick →
    gateway.hub.sessions.get? kick.session = some kick.number

end Steps

/-! ## Documents -/

namespace Grants

variable {grants after : Grants} {now validUntil : Int}

/-- No document of the identity is active. -/
def Revoked (grants : Grants) (session : String) (identity : Nat) : Prop :=
  ∀ hash record, grants.get? hash = some record → record.session = session →
    record.identity = identity → record.active = false

/-- Documents keep what they were created with, and none becomes active. -/
def Keeps (grants after : Grants) : Prop :=
  ∀ hash record, after.get? hash = some record → ∃ old, grants.get? hash = some old ∧
    old.session = record.session ∧ old.identity = record.identity ∧
      old.readOnly = record.readOnly ∧ (record.active = true → old.active = true)

theorem Keeps.refl (grants : Grants) : grants.Keeps grants :=
  fun _ record found => ⟨record, found, rfl, rfl, rfl, id⟩

theorem Keeps.revoked (keeps : grants.Keeps after) {session identity}
    (revoked : grants.Revoked session identity) : after.Revoked session identity := by
  intro hash record found here named
  obtain ⟨old, known, same, who, _, active⟩ := keeps hash record found
  have dead := revoked hash old known (same.trans here) (who.trans named)
  cases flag : record.active with
  | false => rfl
  | true =>
      rw [active flag] at dead
      cases dead

/-- One document is replaced. -/
theorem Keeps.insert {hash old} {record : Record} (known : grants.get? hash = some old)
    (session : old.session = record.session) (identity : old.identity = record.identity)
    (readOnly : old.readOnly = record.readOnly)
    (active : record.active = true → old.active = true) :
    grants.Keeps (grants.insert hash record) := by
  intro other found present
  rcases Dict.get?_of_insert present with ⟨rfl, rfl⟩ | ⟨_, kept⟩
  · exact ⟨old, known, session, identity, readOnly, active⟩
  · exact ⟨found, kept, rfl, rfl, rfl, id⟩

theorem update_some {grant} (updated : grants.update grant now validUntil = some after) :
    ∃ record, grants.get? grant.hash = some record ∧ grant.filter now record = true ∧
      after = grants.insert grant.hash { record with validUntil } := by
  unfold update at updated
  split at updated
  · cases updated
  · rename_i record known
    split at updated
    · rename_i matched
      exact ⟨record, known, matched, (Option.some.inj updated).symm⟩
    · cases updated

theorem update_keeps {grant} (updated : grants.update grant now validUntil = some after) :
    grants.Keeps after := by
  obtain ⟨record, known, _, rfl⟩ := update_some updated
  exact .insert known rfl rfl rfl id

theorem release_keeps (grants : Grants) (grant : Grant) (now : Nat → Int) :
    grants.Keeps (grants.release grant now) := by
  unfold release
  cases updated : grants.update grant (now 0) (deadline (now 1) grant.grace) with
  | none => exact .refl grants
  | some after => exact update_keeps updated

theorem takeOver_keeps {hash old lease}
    (taken : grants.takeOver hash old lease now validUntil = some after) : grants.Keeps after := by
  unfold takeOver at taken
  split at taken
  · cases taken
  · rename_i record known
    split at taken
    · cases taken
      exact .insert known rfl rfl rfl id
    · cases taken

theorem sweep_keeps (grants : Grants) (hash : String) (now : Int) :
    grants.Keeps (grants.sweep hash now) := by
  unfold sweep
  split
  · exact .refl grants
  · split
    · intro other record found
      exact ⟨record, (Dict.get?_of_erase found).2, rfl, rfl, rfl, id⟩
    · exact .refl grants

/-- Some documents are revoked. -/
theorem revoked_keeps (grants : Grants) (test : Record → Prop) [DecidablePred test] (now : Int) :
    grants.Keeps (grants.map fun _ record => if test record then record.revoked now else record) := by
  intro hash record found
  rw [Dict.get?_map] at found
  obtain ⟨old, known, changed⟩ := Option.map_eq_some_iff.mp found
  refine ⟨old, known, ?_⟩
  split at changed <;> subst changed
  · exact ⟨rfl, rfl, rfl, nofun⟩
  · exact ⟨rfl, rfl, rfl, id⟩

theorem revoke_revoked (grants : Grants) (session : String) (identity : Nat) (now : Int) :
    (grants.revoke session identity now).Revoked session identity := by
  intro hash record found here named
  rw [revoke, Dict.get?_map] at found
  obtain ⟨old, known, changed⟩ := Option.map_eq_some_iff.mp found
  split at changed
  · rw [← changed]
    rfl
  · rename_i apart
    subst changed
    exact absurd ⟨here, named⟩ apart

end Grants

/-! ## The invariant -/

/-- A viewer that was attached for a grant. While it is attached, it has the
    identity and the role of the grant. -/
structure Attachment (history : History) (hub : Hub.System) (grant : Grant) (number client : Nat) :
    Prop where
  created : Created history grant.hash grant.session grant.identity grant.readOnly
  placed : ∃ shared, hub.shared.get? number = some shared ∧ shared.id = grant.session ∧
    client < shared.state.nextClient ∧
      ∀ viewer, shared.state.viewers.get? client = some viewer →
        viewer.identity = grant.identity ∧ viewer.readOnly = grant.readOnly

section Invariant

variable (digest : String → String) (meaning : String → String × Bool)

/-- What an admission knows at each of its stages. -/
def Stage.Fits (history : History) (hub : Hub.System) (hello : JoinHello) : Stage → Prop
  | .invited session readOnly _ | .listed session readOnly _ | .counted session readOnly _ =>
      meaning (digest hello.token) = (session, readOnly) ∧ hello.resumeToken = none
  | .found hash previous | .checked hash previous =>
      Created history hash previous.session previous.identity previous.readOnly ∧
        hello.resumeToken ≠ none
  | .granted grant =>
      Created history grant.hash grant.session grant.identity grant.readOnly ∧
        (hello.resumeToken = none →
          meaning (digest hello.token) = (grant.session, grant.readOnly))
  | .resolved grant session readOnly =>
      Created history grant.hash grant.session grant.identity grant.readOnly ∧
        session = grant.session ∧ readOnly = grant.readOnly
  | .attached grant number client | .admitted grant number client =>
      Attachment history hub grant number client
  | .hello | .gone => True

/-- Everything that holds between two steps. The identities of grants are those
    that satisfy `drawn`. -/
structure Sound (drawn : Nat → Prop) (history : History) (gateway : Gateway) : Prop where
  table : Hub.Table gateway.hub
  live : gateway.hub.Live
  tokens : ∀ hash entry, gateway.hub.tokens.get? hash = some entry → meaning hash = entry
  unique : ∀ hash session other identity another readOnly role,
    Created history hash session identity readOnly → Created history hash other another role →
    session = other ∧ identity = another ∧ readOnly = role
  source : ∀ hash session identity readOnly, Created history hash session identity readOnly →
    drawn identity
  records : ∀ hash record, gateway.grants.get? hash = some record →
    Created history hash record.session record.identity record.readOnly
  single : ∀ number shared identity, gateway.hub.shared.get? number = some shared →
    drawn identity → shared.state.Single identity
  tasks : ∀ id task, gateway.tasks.get? id = some task →
    task.stage.Fits digest meaning history gateway.hub task.hello
  kicks : ∀ id kick, gateway.kicks.get? id = some kick →
    (∃ label ∈ history, label.1.kicks = some kick.identity) ∧
      (kick.stage = .revoked → gateway.grants.Revoked kick.session kick.identity)
  admitted : ∀ grant number client, Admitted history grant number client →
    Attachment history gateway.hub grant number client
  kicked : ∀ session identity, Kicked history session identity →
    (∃ label ∈ history, label.1.kicks = some identity) ∧ gateway.grants.Revoked session identity
  out : ∀ grant number client shared, Kicked history grant.session grant.identity →
    Admitted history grant number client → gateway.hub.shared.get? number = some shared →
    shared.state.viewers.get? client = none

end Invariant

/-- The step puts out none of the three that the history is asked for. -/
def Output.plain : Output → Bool
  | .created _ _ _ _ | .admitted _ _ _ | .kicked _ _ => false
  | _ => true

section History

variable {history : History} {label : Event × Output} {session : String} {identity : Nat}

theorem Created.mono {hash readOnly} (created : Created history hash session identity readOnly)
    (label : Event × Output) :
    Created (history ++ [label]) hash session identity readOnly := by
  obtain ⟨event, member⟩ := created
  exact ⟨event, List.mem_append_left _ member⟩

theorem created_append {hash readOnly}
    (created : Created (history ++ [label]) hash session identity readOnly) :
    Created history hash session identity readOnly ∨
      label.2 = .created hash session identity readOnly :=
  output_append created

theorem admitted_append {grant number client}
    (admitted : Admitted (history ++ [label]) grant number client) :
    Admitted history grant number client ∨ label.2 = .admitted grant number client :=
  output_append admitted

theorem kicked_append (kicked : Kicked (history ++ [label]) session identity) :
    Kicked history session identity ∨ label.2 = .kicked session identity :=
  output_append kicked

theorem kicks_append (label : Event × Output)
    (named : ∃ label ∈ history, label.1.kicks = some identity) :
    ∃ other ∈ history ++ [label], other.1.kicks = some identity := by
  obtain ⟨earlier, member, asked⟩ := named
  exact ⟨earlier, List.mem_append_left _ member, asked⟩

theorem Attachment.mono {hub grant number client}
    (attachment : Attachment history hub grant number client) (label : Event × Output) :
    Attachment (history ++ [label]) hub grant number client :=
  ⟨attachment.created.mono label, attachment.placed⟩

theorem Stage.Fits.mono {digest : String → String} {meaning : String → String × Bool} {hub hello}
    {stage : Stage} (fits : stage.Fits digest meaning history hub hello) (label : Event × Output) :
    stage.Fits digest meaning (history ++ [label]) hub hello := by
  cases stage with
  | hello | gone => trivial
  | invited | listed | counted => exact fits
  | found | checked | granted | resolved => exact ⟨fits.1.mono label, fits.2⟩
  | attached | admitted => exact Attachment.mono fits label

end History

section Preservation

variable {digest : String → String} {parse : String → Option Description}
  {meaning : String → String × Bool} {drawn : Nat → Prop} {history : History} {gateway : Gateway}
  {label : Event × Output} {grants : Grants} {grant : Grant} {number client identity id : Nat}
  {hello : JoinHello} {hash : String} {event : Event}

section

variable (sound : Sound digest meaning drawn history gateway)

include sound

/-- A label that creates no grant. What it says of admissions and kicks holds. -/
theorem Sound.told
    (uncreated : ∀ hash session identity readOnly,
      label.2 ≠ .created hash session identity readOnly)
    (admitted : ∀ grant number client, label.2 = .admitted grant number client →
      Attachment history gateway.hub grant number client)
    (kicked : ∀ session identity, label.2 = .kicked session identity →
      (∃ label ∈ history, label.1.kicks = some identity) ∧ gateway.grants.Revoked session identity)
    (out : ∀ grant number client shared, Kicked (history ++ [label]) grant.session grant.identity →
      Admitted (history ++ [label]) grant number client →
      gateway.hub.shared.get? number = some shared → shared.state.viewers.get? client = none) :
    Sound digest meaning drawn (history ++ [label]) gateway := by
  have created {hash session identity readOnly}
      (created : Created (history ++ [label]) hash session identity readOnly) :
      Created history hash session identity readOnly :=
    (created_append created).resolve_right (uncreated _ _ _ _)
  exact {
    __ := sound
    unique := fun _ _ _ _ _ _ _ first second =>
      sound.unique _ _ _ _ _ _ _ (created first) (created second)
    source := fun _ _ _ _ made => sound.source _ _ _ _ (created made)
    records := fun hash record found => (sound.records hash record found).mono label
    tasks := fun id task found => (sound.tasks id task found).mono label
    kicks := fun id kick found =>
      ⟨kicks_append label (sound.kicks id kick found).1, (sound.kicks id kick found).2⟩
    admitted := by
      intro grant number client made
      rcases admitted_append made with earlier | now
      · exact (sound.admitted grant number client earlier).mono label
      · exact (admitted grant number client now).mono label
    kicked := by
      intro session identity made
      rcases kicked_append made with earlier | now
      · exact (sound.kicked session identity earlier).imp_left (kicks_append label)
      · exact (kicked session identity now).imp_left (kicks_append label)
    out := out }

/-- A label that says nothing about grants, admissions and kicks. -/
theorem Sound.quiet
    (plain : label.2.plain = true) : Sound digest meaning drawn (history ++ [label]) gateway := by
  have other {output : Output} (put : label.2 = output) : output.plain = true := put ▸ plain
  refine sound.told ?_ ?_ ?_ ?_
  · intro _ _ _ _ put
    cases other put
  · intro _ _ _ put
    cases other put
  · intro _ _ put
    cases other put
  · intro grant number client shared kicked made
    exact sound.out grant number client shared
      ((kicked_append kicked).resolve_right fun put => nomatch other put)
      ((admitted_append made).resolve_right fun put => nomatch other put)

/-- A change of the documents that creates none and makes none active. -/
theorem Sound.regrant (keeps : gateway.grants.Keeps grants) :
    Sound digest meaning drawn history { gateway with grants } where
  __ := sound
  records hash record found := by
    obtain ⟨old, known, session, identity, readOnly, _⟩ := keeps hash record found
    rw [← session, ← identity, ← readOnly]
    exact sound.records hash old known
  kicks id kick found :=
    ⟨(sound.kicks id kick found).1, fun stage => keeps.revoked ((sound.kicks id kick found).2 stage)⟩
  kicked session identity made :=
    ⟨(sound.kicked session identity made).1, keeps.revoked (sound.kicked session identity made).2⟩

/-- An admission moves on to a stage that fits. -/
theorem Sound.restage (id : Nat) (task : Task)
    (stage : Stage) (fits : stage.Fits digest meaning history gateway.hub task.hello) :
    Sound digest meaning drawn history (gateway.setStage id task stage) :=
  { sound with
    tasks := by
      intro other found present
      rcases Dict.get?_of_insert present with ⟨rfl, rfl⟩ | ⟨_, kept⟩
      · exact fits
      · exact sound.tasks other found kept }

/-- A kick is entered or moves on. -/
theorem Sound.rekick (id : Nat) (kick : Kick)
    (named : ∃ label ∈ history, label.1.kicks = some kick.identity)
    (revoked : kick.stage = .revoked → gateway.grants.Revoked kick.session kick.identity) :
    Sound digest meaning drawn history { gateway with kicks := gateway.kicks.insert id kick } :=
  { sound with
    kicks := by
      intro other found present
      rcases Dict.get?_of_insert present with ⟨rfl, rfl⟩ | ⟨_, kept⟩
      · exact ⟨named, revoked⟩
      · exact sound.kicks other found kept }

end

/-- What is known of an attachment survives every call of the hub. -/
theorem Attachment.hub {hub} (table : Hub.Table hub) (input : Hub.Op × Hub.Call)
    (attachment : Attachment history hub grant number client) :
    Attachment history (hub.step digest parse input).1 grant number client := by
  obtain ⟨shared, found, named, below, viewers⟩ := attachment.placed
  obtain ⟨later, present, follows⟩ := table.follows input found
  refine ⟨attachment.created, later, present, follows.id.trans named,
    Nat.lt_of_lt_of_le below follows.numbers, ?_⟩
  intro viewer attached
  obtain ⟨same, known, old | ⟨_, fresh, _⟩⟩ := table.viewer input present attached
  · obtain rfl := Option.mem_unique found known
    obtain ⟨before, was, role, identity⟩ := old
    rw [role, identity]
    exact viewers before was
  · obtain rfl := Option.mem_unique found known
    exact absurd fresh (Nat.ne_of_lt below)

theorem Stage.Fits.hub {hub} (table : Hub.Table hub) (input : Hub.Op × Hub.Call) {stage : Stage}
    (fits : stage.Fits digest meaning history hub hello) :
    stage.Fits digest meaning history (hub.step digest parse input).1 hello := by
  cases stage with
  | attached | admitted => exact Attachment.hub table input fits
  | _ => exact fits

/-- Named participants stay single: an attachment for one replaces the other,
    and viewers without a grant have none of the drawn identities. -/
theorem Sound.single_hub (sound : Sound digest meaning drawn history gateway)
    (input : Hub.Op × Hub.Call) (anonymous : ∀ id readOnly screen invitation number client,
      input.1 = .attach id none readOnly screen invitation →
      (gateway.hub.step digest parse input).2 = .attachment number client → ¬ drawn client) {later}
    (found : (gateway.hub.step digest parse input).1.shared.get? number = some later)
    (named : drawn identity) : later.state.Single identity := by
  -- a new viewer with the identity is the only one
  have fresh {shared : Hub.Shared} {client : Nat} {viewer : Hub.Viewer}
      (known : gateway.hub.shared.get? number = some shared) (who : viewer.identity = identity)
      (answered : (gateway.hub.step digest parse input).2 = .attachment number client)
      (made : ∃ id name screen invitation,
        input.1 = .attach id name viewer.readOnly screen invitation ∧
          viewer.identity = name.getD client) :
      ∀ other another, later.state.viewers.get? other = some another →
        another.identity = identity → other = client := by
    obtain ⟨id, name, screen, invitation, asked, drawnTo⟩ := made
    cases name with
    | none =>
        have own : viewer.identity = client := drawnTo
        rw [who] at own
        exact absurd (own ▸ named) (anonymous id _ screen invitation number client asked answered)
    | some name =>
        have own : viewer.identity = name := drawnTo
        rw [who] at own
        subst own
        obtain ⟨op, call⟩ := input
        subst asked
        exact (Hub.step_attached answered).only shared later identity known found rfl
          (sound.single number shared identity known named)
  intro client other viewer another present second who whom
  obtain ⟨shared, known, first⟩ := sound.table.viewer input found present
  rcases first with ⟨old, was, _, same⟩ | ⟨answered, _, made⟩
  · obtain ⟨_, knownToo, second⟩ := sound.table.viewer input found second
    obtain rfl := Option.mem_unique known knownToo
    rcases second with ⟨older, wasToo, _, sameToo⟩ | ⟨answered, _, made⟩
    · exact sound.single number shared identity known named client other old older was wasToo
        (same.symm.trans who) (sameToo.symm.trans whom)
    · exact fresh known whom answered made client viewer present who
  · exact (fresh known who answered made other another second whom).symm

/-- A call of the hub. -/
theorem Sound.hub (sound : Sound digest meaning drawn history gateway)
    (collisionless : Hub.Collisionless digest) (input : Hub.Op × Hub.Call)
    (tokens : ∀ hash entry, (gateway.hub.step digest parse input).1.tokens.get? hash = some entry →
      meaning hash = entry)
    (anonymous : ∀ id readOnly screen invitation number client,
      input.1 = .attach id none readOnly screen invitation →
      (gateway.hub.step digest parse input).2 = .attachment number client → ¬ drawn client) :
    Sound digest meaning drawn history
      { gateway with hub := (gateway.hub.step digest parse input).1 } where
  table := sound.table.changes collisionless (Hub.step_changes sound.table.sized digest parse input)
  live := Hub.Live.step sound.table sound.live input
  tokens := tokens
  __ := sound
  single _ _ _ found named := sound.single_hub input anonymous found named
  tasks id task found := (sound.tasks id task found).hub sound.table input
  admitted grant number client made := (sound.admitted grant number client made).hub sound.table input
  out grant number client later kicked made found := by
    obtain ⟨shared, known, _, below, _⟩ := (sound.admitted grant number client made).placed
    have absent := sound.out grant number client shared kicked made known
    cases present : later.state.viewers.get? client with
    | none => rfl
    | some viewer =>
        obtain ⟨_, knownToo, old | ⟨_, fresh, _⟩⟩ := sound.table.viewer input found present
        · obtain rfl := Option.mem_unique known knownToo
          obtain ⟨before, was, _⟩ := old
          cases absent.symm.trans was
        · obtain rfl := Option.mem_unique known knownToo
          exact absurd fresh (Nat.ne_of_lt below)

theorem not_admitted (admitted : Admitted (history ++ [label]) grant number client)
    (other : label.2 ≠ .admitted grant number client) : Admitted history grant number client :=
  (admitted_append admitted).resolve_right other

theorem not_kicked {session} (kicked : Kicked (history ++ [label]) session identity)
    (other : label.2 ≠ .kicked session identity) : Kicked history session identity :=
  (kicked_append kicked).resolve_right other

section

variable (sound : Sound digest meaning drawn history gateway)

include sound

/-- A grant is created with a hash and an identity that are new. -/
theorem Sound.create {record}
    (inserted : gateway.grants.insertOne hash record = some grants)
    (fresh : ∀ earlier ∈ history, ¬ Mentions earlier (hash, record.identity))
    (named : drawn record.identity) :
    Sound digest meaning drawn
      (history ++ [(event, .created hash record.session record.identity record.readOnly)])
      { gateway with grants } := by
  have placed : grants = gateway.grants.insert hash record := by
    unfold Grants.insertOne at inserted
    split at inserted
    · cases inserted
    · split at inserted
      · cases inserted
      · exact (Option.some.inj inserted).symm
  have created {other session identity readOnly}
      (made : Created (history ++ [(event, .created hash record.session record.identity
        record.readOnly)]) other session identity readOnly) :
      Created history other session identity readOnly ∨
        (hash = other ∧ record.session = session ∧ record.identity = identity ∧
          record.readOnly = readOnly) := by
    rcases created_append made with earlier | now
    · exact .inl earlier
    · exact .inr (by simpa using now)
  -- the hash was not used before
  have unused {session identity readOnly} :
      ¬ Created history hash session identity readOnly := by
    rintro ⟨earlier, member⟩
    exact fresh _ member (.inl ⟨(hash, identity), rfl, .inl rfl⟩)
  have revoked {session : String} {identity : Nat}
      (asked : ∃ label ∈ history, label.1.kicks = some identity)
      (dead : gateway.grants.Revoked session identity) : grants.Revoked session identity := by
    intro other found present _ who
    rw [placed] at present
    rcases Dict.get?_of_insert present with ⟨rfl, rfl⟩ | ⟨_, kept⟩
    · obtain ⟨label, member, kicks⟩ := asked
      exact absurd (.inr (who ▸ kicks)) (fresh label member)
    · exact dead other found kept ‹_› who
  exact {
    __ := sound
    unique := by
      intro other session another identity second readOnly role first last
      rcases created first with first | ⟨rfl, rfl, rfl, rfl⟩
      · rcases created last with last | ⟨rfl, rfl, rfl, rfl⟩
        · exact sound.unique _ _ _ _ _ _ _ first last
        · exact absurd first unused
      · rcases created last with last | ⟨_, rfl, rfl, rfl⟩
        · exact absurd last unused
        · exact ⟨rfl, rfl, rfl⟩
    source := by
      intro other session identity readOnly made
      rcases created made with earlier | ⟨_, _, rfl, _⟩
      · exact sound.source _ _ _ _ earlier
      · exact named
    records := by
      intro other found present
      rw [placed] at present
      rcases Dict.get?_of_insert present with ⟨rfl, rfl⟩ | ⟨_, kept⟩
      · exact ⟨event, List.mem_append_right _ (List.mem_singleton.mpr rfl)⟩
      · exact (sound.records other found kept).mono _
    tasks := fun id task found => (sound.tasks id task found).mono _
    kicks := fun id kick found =>
      ⟨kicks_append _ (sound.kicks id kick found).1, fun stage =>
        revoked (sound.kicks id kick found).1 ((sound.kicks id kick found).2 stage)⟩
    admitted := fun grant number client made =>
      (sound.admitted grant number client (not_admitted made (by simp))).mono _
    kicked := by
      intro session identity made
      obtain ⟨asked, dead⟩ := sound.kicked session identity (not_kicked made (by simp))
      exact ⟨kicks_append _ asked, revoked asked dead⟩
    out := fun grant number client shared kicked made =>
      sound.out grant number client shared (not_kicked kicked (by simp))
        (not_admitted made (by simp)) }

/-- A grant whose lease can be renewed was not kicked. -/
theorem Sound.inside {now : Nat → Int}
    (created : Created history grant.hash grant.session grant.identity grant.readOnly)
    (renewed : gateway.grants.renew grant now = some grants) :
    ¬ Kicked history grant.session grant.identity := by
  intro kicked
  obtain ⟨record, known, matched, _⟩ := Grants.update_some renewed
  have active : record.active = true := by
    simp only [Grant.filter, Bool.and_eq_true] at matched
    exact matched.1.2
  obtain ⟨session, identity, _⟩ := sound.unique _ _ _ _ _ _ _
    (sound.records grant.hash record known) created
  rw [(sound.kicked _ _ kicked).2 grant.hash record known session identity] at active
  cases active

/-- The admission of a guest whose grant is active. -/
theorem Sound.admits {now : Nat → Int}
    (attachment : Attachment history gateway.hub grant number client)
    (renewed : gateway.grants.renew grant now = some grants) :
    Sound digest meaning drawn (history ++ [(event, .admitted grant number client)])
      { gateway with grants } := by
  have kept := sound.regrant (Grants.update_keeps renewed)
  have inside := sound.inside attachment.created renewed
  refine kept.told (by simp) ?_ (by simp) ?_
  · intro other target viewer now
    obtain ⟨rfl, rfl, rfl⟩ := Output.admitted.inj now
    exact attachment
  · intro other target viewer shared kicked made found
    have kicked := not_kicked kicked (by simp)
    rcases admitted_append made with earlier | now
    · exact kept.out other target viewer shared kicked earlier found
    · obtain ⟨rfl, _, _⟩ := Output.admitted.inj now
      exact absurd kicked inside

/-- The last step of a kick, on the routed session. -/
theorem Sound.remove (collisionless : Hub.Collisionless digest) (event : Event) {kick call}
    (found : gateway.kicks.get? id = some kick) (stage : kick.stage = .revoked)
    (routed : gateway.hub.sessions.get? kick.session = some kick.number)
    (tokens : ∀ hash entry, (gateway.hub.step digest parse
      (.session kick.number kick.op, call)).1.tokens.get? hash = some entry → meaning hash = entry)
    (done : (gateway.hub.step digest parse (.session kick.number kick.op, call)).2 = .done) :
    Sound digest meaning drawn (history ++ [(event, .kicked kick.session kick.identity)])
      { gateway with hub := (gateway.hub.step digest parse
        (.session kick.number kick.op, call)).1 } := by
  have kept := sound.hub collisionless (.session kick.number kick.op, call) tokens (by
    intro _ _ _ _ _ _ asked
    cases asked)
  have asks : kick.op.kicks = some kick.identity := by
    unfold Kick.op
    cases kick.host <;> rfl
  obtain ⟨asked, dead⟩ := sound.kicks id kick found
  -- an admitted viewer of the identity would be attached to the routed session
  have gone (grant : Grant) (number client : Nat) (later : Hub.Shared)
      (session : grant.session = kick.session) (identity : grant.identity = kick.identity)
      (made : Admitted history grant number client)
      (present : (gateway.hub.step digest parse
        (.session kick.number kick.op, call)).1.shared.get? number = some later) :
      later.state.viewers.get? client = none := by
    have attachment := kept.admitted grant number client made
    obtain ⟨same, presentToo, named, _, viewers⟩ := attachment.placed
    obtain rfl := Option.mem_unique present presentToo
    cases attached : later.state.viewers.get? client with
    | none => rfl
    | some viewer =>
        have here := kept.live number later client viewer present attached
        rw [named, session] at here
        have unchanged : (gateway.hub.step digest parse
            (.session kick.number kick.op, call)).1.sessions = gateway.hub.sessions := by
          simp only [Hub.System.step, Hub.System.perform]
          split <;> rfl
        obtain rfl : kick.number = number :=
          Option.some.inj (routed.symm.trans (unchanged ▸ here))
        obtain ⟨shared, known, _⟩ := sound.table.listed.routed _ _ routed
        have drawnTo : drawn kick.identity := by
          rw [← identity]
          exact sound.source _ _ _ _ attachment.created
        obtain ⟨cleared, presentToo, without⟩ := Hub.kick_clears asks known
          (sound.single _ shared _ known drawnTo) done
        obtain rfl := Option.mem_unique present presentToo
        exact absurd ((viewers viewer attached).1.trans identity) (without client viewer attached)
  refine kept.told (by simp) (by simp) ?_ ?_
  · intro session identity now
    obtain ⟨rfl, rfl⟩ := Output.kicked.inj now
    exact ⟨asked, dead stage⟩
  · intro grant number client shared kicked made found
    have made := not_admitted made (by simp)
    rcases kicked_append kicked with earlier | now
    · exact kept.out grant number client shared earlier made found
    · obtain ⟨session, identity⟩ := Output.kicked.inj now
      exact gone grant number client shared session.symm identity.symm made found

end

/-! ## Admissions -/

theorem Sound.begin_fits (sound : Sound digest meaning drawn history gateway) (hello : JoinHello)
    (reading : Reading) :
    (gateway.begin digest hello reading).Fits digest meaning history gateway.hub hello := by
  unfold Gateway.begin
  split
  · rename_i raw resumed
    split
    · split
      · trivial
      · rename_i previous known
        split
        · exact ⟨sound.records _ previous known, by simp [resumed]⟩
        · trivial
    · trivial
  · rename_i invited
    split
    · trivial
    · rename_i number readOnly resolved
      split
      · trivial
      · rename_i shared known
        dsimp only
        split
        · obtain ⟨same, knownToo, bound⟩ := sound.table.resolved resolved
          obtain rfl := Option.mem_unique known knownToo
          exact ⟨sound.tokens _ _ bound, invited⟩
        · trivial

theorem attach_hub (gateway : Gateway) (grant : Grant) (session : String) (readOnly : Bool)
    (screen : Hub.Screen) (invitation : Option String) (call : Hub.Call) :
    (gateway.attach digest parse grant session readOnly screen invitation call).1 =
      { gateway with hub := (gateway.hub.step digest parse
        (.attach session (some grant.identity) readOnly screen invitation, call)).1 } := by
  unfold Gateway.attach
  split
  · rename_i made
    rw [made]
  · rename_i made
    rw [made]

theorem attach_stage (gateway : Gateway) (grant : Grant) (session : String) (readOnly : Bool)
    (screen : Hub.Screen) (invitation : Option String) (call : Hub.Call) :
    (gateway.attach digest parse grant session readOnly screen invitation call).2 = .gone ∨
      ∃ number client, (gateway.hub.step digest parse
          (.attach session (some grant.identity) readOnly screen invitation, call)).2 =
            .attachment number client ∧
        (gateway.attach digest parse grant session readOnly screen invitation call).2 =
          .attached grant number client := by
  unfold Gateway.attach
  split
  · rename_i hub number client made
    exact .inr ⟨number, client, by rw [made], rfl⟩
  · exact .inl rfl

/-- The attachment of a grant's viewer to the grant's session, with its role. -/
theorem Sound.attach (sound : Sound digest meaning drawn history gateway)
    (collisionless : Hub.Collisionless digest) {grant : Grant} (hello : JoinHello)
    (invitation : Option String) (call : Hub.Call)
    (created : Created history grant.hash grant.session grant.identity grant.readOnly)
    (tokens : ∀ hash entry, (gateway.attach digest parse grant grant.session grant.readOnly
      hello.screen invitation call).1.hub.tokens.get? hash = some entry → meaning hash = entry) :
    Sound digest meaning drawn history (gateway.attach digest parse grant grant.session
        grant.readOnly hello.screen invitation call).1 ∧
      (gateway.attach digest parse grant grant.session grant.readOnly hello.screen invitation
        call).2.Fits digest meaning history (gateway.attach digest parse grant grant.session
          grant.readOnly hello.screen invitation call).1.hub hello := by
  rw [attach_hub] at tokens ⊢
  dsimp only at tokens
  have kept := sound.hub collisionless (.attach grant.session (some grant.identity) grant.readOnly
    hello.screen invitation, call) tokens (by
      intro _ _ _ _ _ _ asked
      cases asked)
  refine ⟨kept, ?_⟩
  rcases attach_stage gateway grant grant.session grant.readOnly hello.screen invitation call with
    gone | ⟨number, client, answered, attached⟩
  · rw [gone]
    trivial
  · rw [attached]
    have made := Hub.step_attached answered
    obtain ⟨shared, routed⟩ := made.routed
    obtain ⟨here, known⟩ := Hub.session_eq_some.mp routed
    obtain ⟨same, knownToo, named, _⟩ := sound.table.listed.routed _ _ here
    obtain rfl := Option.mem_unique known knownToo
    let input : Hub.Op × Hub.Call :=
      (.attach grant.session (some grant.identity) grant.readOnly hello.screen invitation, call)
    obtain ⟨later, present, turns⟩ :=
      (sound.table.sized.steps digest parse input).old number shared known
    have followed : ∃ later, (gateway.hub.step digest parse input).1.shared.get? number =
        some later ∧ Hub.Follows shared later := sound.table.follows input known
    obtain ⟨same, presentToo, follows⟩ := followed
    obtain rfl := Option.mem_unique present presentToo
    refine ⟨created, later, present, follows.id.trans named,
      (turns.numbers.2 client answered).2, ?_⟩
    intro viewer attached
    exact made.viewer later viewer present attached

section

variable (sound : Sound digest meaning drawn history gateway)

include sound

theorem Sound.authorize (collisionless : Hub.Collisionless digest)
    (fits : (Stage.granted grant).Fits digest meaning history gateway.hub hello) (call : Hub.Call)
    (tokens : ∀ hash entry, (gateway.authorize digest parse hello grant call).1.hub.tokens.get?
      hash = some entry → meaning hash = entry) :
    Sound digest meaning drawn history (gateway.authorize digest parse hello grant call).1 ∧
      (gateway.authorize digest parse hello grant call).2.Fits digest meaning history
        (gateway.authorize digest parse hello grant call).1.hub hello := by
  obtain ⟨created, bound⟩ := fits
  unfold Gateway.authorize at tokens ⊢
  split
  · rename_i raw resumed
    rw [resumed] at tokens
    exact sound.attach collisionless hello none call created tokens
  · rename_i invited
    split
    · exact ⟨sound, trivial⟩
    · rename_i number readOnly resolved
      split
      · exact ⟨sound, trivial⟩
      · rename_i shared known
        obtain ⟨same, knownToo, entry⟩ := sound.table.resolved resolved
        obtain rfl := Option.mem_unique known knownToo
        have meant := (sound.tokens _ _ entry).symm.trans (bound invited)
        exact ⟨sound, created, congrArg Prod.fst meant, congrArg Prod.snd meant⟩

theorem Sound.resume {previous}
    (reading : Reading)
    (fits : (Stage.checked hash previous).Fits digest meaning history gateway.hub hello) :
    Sound digest meaning drawn history (gateway.resume hash previous reading).1 ∧
      (gateway.resume hash previous reading).2.Fits digest meaning history
        (gateway.resume hash previous reading).1.hub hello := by
  unfold Gateway.resume
  split
  · exact ⟨sound, trivial⟩
  · rename_i grants taken
    exact ⟨sound.regrant (Grants.takeOver_keeps taken), fits.1, fun invited => absurd invited fits.2⟩

/-- A step of an admission whose output is no news. -/
theorem Sound.calm {stage : Stage}
    (fits : stage.Fits digest meaning history gateway.hub hello) (plain : label.2.plain = true) :
    Sound digest meaning drawn (history ++ [label]) gateway ∧
      stage.Fits digest meaning (history ++ [label]) gateway.hub hello :=
  ⟨sound.quiet plain, fits.mono label⟩

theorem Sound.gone (hello : JoinHello)
    (plain : label.2.plain = true) :
    Sound digest meaning drawn (history ++ [label]) gateway ∧
      Stage.gone.Fits digest meaning (history ++ [label]) gateway.hub hello :=
  ⟨sound.quiet plain, trivial⟩

/-- Every step of an admission. -/
theorem Sound.advance
    (collisionless : Hub.Collisionless digest) (event : Event) {task : Task} (reading : Reading)
    (fits : task.stage.Fits digest meaning history gateway.hub task.hello)
    (tokens : ∀ hash entry, (gateway.advance digest parse task reading).1.hub.tokens.get? hash =
      some entry → meaning hash = entry)
    (fresh : ∀ hash session identity readOnly, (gateway.advance digest parse task reading).2.2 =
      .created hash session identity readOnly →
        (∀ earlier ∈ history, ¬ Mentions earlier (hash, identity)) ∧ drawn identity) :
    Sound digest meaning drawn
        (history ++ [(event, (gateway.advance digest parse task reading).2.2)])
        (gateway.advance digest parse task reading).1 ∧
      (gateway.advance digest parse task reading).2.1.Fits digest meaning
        (history ++ [(event, (gateway.advance digest parse task reading).2.2)])
        (gateway.advance digest parse task reading).1.hub task.hello := by
  obtain ⟨hello, stage⟩ := task
  cases stage with
  | hello => exact sound.calm (sound.begin_fits hello reading) rfl
  | invited session readOnly grace | listed session readOnly grace | found hash previous =>
      simp only [Gateway.advance]
      refine sound.calm ?_ rfl
      split
      · exact fits
      · trivial
  | checked hash previous =>
      obtain ⟨kept, stage⟩ := sound.resume reading fits
      exact kept.calm stage rfl
  | granted grant =>
      obtain ⟨kept, stage⟩ := sound.authorize collisionless fits reading.call tokens
      exact kept.calm stage rfl
  | resolved grant session readOnly =>
      obtain ⟨created, rfl, rfl⟩ := fits
      obtain ⟨kept, stage⟩ := sound.attach collisionless hello (some (digest hello.token))
        reading.call created tokens
      exact kept.calm stage rfl
  | admitted grant number client | gone => exact sound.calm fits rfl
  | counted session readOnly grace =>
      simp only [Gateway.advance, Gateway.create] at fresh ⊢
      split at fresh
      · rename_i refused
        exact sound.gone hello rfl
      · rename_i grants inserted
        obtain ⟨unused, named⟩ := fresh _ _ _ _ rfl
        refine ⟨sound.create inserted unused named, ?_, fun _ => fits.1⟩
        exact ⟨event, List.mem_append_right _ (List.mem_singleton.mpr rfl)⟩
  | attached grant number client =>
      simp only [Gateway.advance, Gateway.confirm]
      split
      · rename_i grants shared renewed known
        split
        · exact (sound.regrant (Grants.update_keeps renewed)).gone hello rfl
        · exact ⟨sound.admits fits renewed, Attachment.mono fits _⟩
      · rename_i grants renewed known
        exact (sound.regrant (Grants.update_keeps renewed)).gone hello rfl
      · exact sound.gone hello rfl

theorem Sound.heartbeat {task : Task}
    (now : Nat → Int) (fits : task.stage.Fits digest meaning history gateway.hub task.hello) :
    Sound digest meaning drawn history (gateway.heartbeat task now).1 ∧
      (gateway.heartbeat task now).2.Fits digest meaning history
        (gateway.heartbeat task now).1.hub task.hello := by
  obtain ⟨hello, stage⟩ := task
  unfold Gateway.heartbeat
  cases stage with
  | admitted grant number client =>
      dsimp only
      split
      · rename_i grants renewed
        exact ⟨sound.regrant (Grants.update_keeps renewed), fits⟩
      · exact ⟨sound, trivial⟩
  | _ => exact ⟨sound, fits⟩

theorem Sound.leave (task : Task)
    (now : Nat → Int) : Sound digest meaning drawn history (gateway.leave task now) := by
  unfold Gateway.leave
  split
  · exact sound.regrant (Grants.release_keeps _ _ now)
  · exact sound

/-- A kick is entered under the identity that its request named. -/
theorem Sound.start {kick}
    (entered : ∀ entry, kick = some entry →
      event.kicks = some entry.identity ∧ entry.stage = .checked) :
    Sound digest meaning drawn (history ++ [(event, (gateway.start id kick).2)])
      (gateway.start id kick).1 := by
  cases kick with
  | none => exact sound.quiet rfl
  | some kick =>
      simp only [Gateway.start]
      split
      · exact sound.quiet rfl
      · obtain ⟨named, stage⟩ := entered kick rfl
        apply (sound.quiet rfl).rekick id kick
        · exact ⟨_, List.mem_append_right _ (List.mem_singleton.mpr rfl), named⟩
        · intro revoked
          cases stage.symm.trans revoked

theorem Sound.revoke {kick}
    (found : gateway.kicks.get? id = some kick) (now : Int) :
    Sound digest meaning drawn history (gateway.revoke id kick now) := by
  unfold Gateway.revoke
  split
  · have kept := sound.regrant (Grants.revoked_keeps gateway.grants
      (fun record => record.session = kick.session ∧ record.identity = kick.identity) now)
    exact kept.rekick id { kick with stage := .revoked } (sound.kicks id kick found).1
      fun _ => Grants.revoke_revoked gateway.grants kick.session kick.identity now
  · exact sound

end

/-- Every step of the gateway. -/
theorem Sound.step (sound : Sound digest meaning drawn history gateway)
    (collisionless : Hub.Collisionless digest) {label next}
    (taken : Taken digest parse meaning gateway label next)
    (fresh : ∀ hash session identity readOnly, label.2 = .created hash session identity readOnly →
      (∀ earlier ∈ history, ¬ Mentions earlier (hash, identity)) ∧ drawn identity)
    (anonymous : ∀ op call number client,
      label = (.hub op call, .hub (.attachment number client)) → ¬ drawn client) :
    Sound digest meaning drawn (history ++ [label]) next := by
  obtain ⟨step, tokens, routed⟩ := taken
  obtain ⟨event, output⟩ := label
  have moved : gateway.step digest parse event = (next, output) := step
  cases event with
  | hub op call =>
      simp only [Gateway.step] at moved
      split at moved
      · cases moved
        exact sound.quiet rfl
      · rename_i foreign
        cases moved
        have kept := sound.hub collisionless (op, call) tokens (by
          intro id readOnly screen invitation number client asked answered
          exact anonymous op call number client (by rw [answered]))
        exact kept.quiet rfl
  | join id hello =>
      simp only [Gateway.step] at moved
      split at moved
      · cases moved
        exact sound.quiet rfl
      · cases moved
        exact (sound.quiet rfl).restage id ⟨hello, .hello⟩ .hello trivial
  | advance id reading =>
      simp only [Gateway.step] at moved
      split at moved
      · cases moved
        exact sound.quiet rfl
      · rename_i task found
        cases moved
        obtain ⟨kept, fits⟩ := sound.advance collisionless (.advance id reading) reading
          (sound.tasks id task found) tokens fresh
        exact kept.restage id task _ fits
  | heartbeat id now =>
      simp only [Gateway.step] at moved
      split at moved
      · cases moved
        exact sound.quiet rfl
      · rename_i task found
        cases moved
        obtain ⟨kept, fits⟩ := sound.heartbeat now (sound.tasks id task found)
        exact (kept.restage id task _ fits).quiet rfl
  | release id now =>
      simp only [Gateway.step] at moved
      split at moved
      · cases moved
        exact sound.quiet rfl
      · rename_i task found
        cases moved
        exact ((sound.leave task now).restage id task .gone trivial).quiet rfl
  | abandon id =>
      simp only [Gateway.step] at moved
      split at moved
      · cases moved
        exact sound.quiet rfl
      · rename_i task found
        cases moved
        exact (sound.restage id task .gone trivial).quiet rfl
  | kick id session identity =>
      obtain ⟨rfl, rfl⟩ := Prod.mk.inj moved
      apply sound.start
      intro kick entered
      unfold Gateway.kick at entered
      split at entered
      · cases entered
      · split at entered
        · cases entered
          exact ⟨rfl, rfl⟩
        · cases entered
  | hostKick id number generation identity =>
      obtain ⟨rfl, rfl⟩ := Prod.mk.inj moved
      apply sound.start
      intro kick entered
      unfold Gateway.hostKick at entered
      split at entered
      · cases entered
      · split at entered
        · cases entered
          exact ⟨rfl, rfl⟩
        · cases entered
  | revoke id now =>
      simp only [Gateway.step] at moved
      split at moved
      · cases moved
        exact sound.quiet rfl
      · rename_i kick found
        cases moved
        exact (sound.revoke found now).quiet rfl
  | remove id call =>
      simp only [Gateway.step] at moved
      split at moved
      · cases moved
        exact sound.quiet rfl
      · rename_i kick found
        simp only [Gateway.remove] at moved
        split at moved
        · rename_i stage
          have named := (sound.kicks id kick found).1
          split at moved
          · rename_i hub performed
            cases moved
            have same : (gateway.hub.step digest parse (.session kick.number kick.op, call)).1 =
                hub := by rw [performed]
            subst same
            have kept := sound.remove collisionless (.remove id call) found stage
              (routed id call kick rfl found) tokens (by rw [performed])
            exact kept.rekick id { kick with stage := .done } (kicks_append _ named)
              (fun done => by cases done)
          · rename_i hub answer other performed
            cases moved
            have same : (gateway.hub.step digest parse (.session kick.number kick.op, call)).1 =
                hub := by rw [performed]
            subst same
            have kept := sound.hub collisionless (.session kick.number kick.op, call) tokens (by
              intro _ _ _ _ _ _ asked
              cases asked)
            exact (kept.rekick id { kick with stage := .done } named
              (fun done => by cases done)).quiet rfl
        · cases moved
          exact sound.quiet rfl
  | finish session now =>
      cases moved
      exact (sound.regrant (Grants.revoked_keeps gateway.grants
        (fun record => record.session = session) now)).quiet rfl
  | sweep hash now =>
      cases moved
      exact (sound.regrant (Grants.sweep_keeps gateway.grants hash now)).quiet rfl

/-- An admission is completed by the second check of the lease only. -/
theorem admitted_step {next}
    (moved : gateway.step digest parse event = (next, .admitted grant number client)) :
    ∃ id task now grants, gateway.tasks.get? id = some task ∧
      task.stage = .attached grant number client ∧
        gateway.grants.renew grant now = some grants := by
  cases event with
  | advance id reading =>
      simp only [Gateway.step] at moved
      split at moved
      · cases moved
      · rename_i task found
        obtain ⟨hello, stage⟩ := task
        have output := congrArg Prod.snd moved
        cases stage with
        | counted session readOnly grace =>
            simp only [Gateway.advance, Gateway.create] at output
            split at output <;> cases output
        | attached owner target viewer =>
            simp only [Gateway.advance, Gateway.confirm] at output
            split at output
            · rename_i grants shared renewed known
              split at output
              · cases output
              · cases output
                exact ⟨id, _, reading.now, grants, found, rfl, renewed⟩
            · cases output
            · cases output
        | _ => cases output
  | remove id call =>
      simp only [Gateway.step] at moved
      split at moved
      · cases moved
      · simp only [Gateway.remove] at moved
        split at moved
        · split at moved <;> cases moved
        · cases moved
  | kick id session identity | hostKick id target generation identity =>
      simp only [Gateway.step, Gateway.start] at moved
      split at moved
      · cases moved
      · split at moved <;> cases moved
  | finish session now | sweep hash now => cases moved
  | hub _ _ | join _ _ | heartbeat _ _ | release _ _ | abandon _ | revoke _ _ =>
      simp only [Gateway.step] at moved
      split at moved <;> cases moved

end Preservation

section Runs

variable {digest : String → String} {parse : String → Option Description}
  {meaning : String → String × Bool} {drawn : Nat → Prop} {history : History} {gateway : Gateway}

theorem sound_new : Sound digest meaning drawn [] .new where
  table := Hub.table_new
  live := Hub.live_new
  tokens := by intro _ _ found; cases found
  unique := by rintro _ _ _ _ _ _ _ ⟨_, member⟩; cases member
  source := by rintro _ _ _ _ ⟨_, member⟩; cases member
  records := by intro _ _ found; cases found
  single := by intro _ _ _ found; cases found
  tasks := by intro _ _ found; cases found
  kicks := by intro _ _ found; cases found
  admitted := by rintro _ _ _ ⟨_, member⟩; cases member
  kicked := by rintro _ _ ⟨_, member⟩; cases member
  out := by rintro _ _ _ _ _ ⟨_, member⟩; cases member

/-- The invariant holds along every run. The identities are fixed for the whole
    run, so that a grant is distinct from the viewers before it as well. -/
theorem sound_run (collisionless : Hub.Collisionless digest)
    (run : Run (Taken digest parse meaning) .new history gateway)
    (fresh : history.Pairwise fun earlier later =>
      ∀ drawn ∈ later.2.creation, ¬ Mentions earlier drawn)
    (source : ∀ hash session identity readOnly,
      Created history hash session identity readOnly → drawn identity)
    (others : ∀ label ∈ history, ∀ client ∈ anonymous label, ¬ drawn client) :
    Sound digest meaning drawn history gateway := by
  induction run with
  | start => exact sound_new
  | snoc prior taken ih =>
      rename_i earlier before label next
      obtain ⟨before, _, last⟩ := List.pairwise_append.mp fresh
      have sound := ih before (fun _ _ _ _ made => source _ _ _ _ (made.mono label))
        (fun other member => others other (List.mem_append_left _ member))
      have here : label ∈ earlier ++ [label] :=
        List.mem_append_right _ (List.mem_singleton.mpr rfl)
      apply sound.step collisionless taken
      · intro hash session identity readOnly made
        obtain ⟨event, output⟩ := label
        subst made
        refine ⟨fun other member => ?_, source hash session identity readOnly ⟨event, here⟩⟩
        exact last other member _ (List.mem_singleton.mpr rfl) (hash, identity) rfl
      · intro op call number client same
        subst same
        exact others _ here client rfl

theorem Distinct.sound (distinct : Distinct history) (collisionless : Hub.Collisionless digest)
    (run : Run (Taken digest parse meaning) .new history gateway) :
    Sound digest meaning
      (fun identity => ∃ hash session readOnly, Created history hash session identity readOnly)
      history gateway := by
  apply sound_run collisionless run distinct.fresh
  · intro hash session identity readOnly made
    exact ⟨hash, session, readOnly, made⟩
  · rintro label member client alone ⟨hash, session, readOnly, event, made⟩
    exact distinct.anonymous label member client alone _ made (hash, client) rfl rfl

end Runs

/-- A guest that was kicked stays out, in every run. Once a kick of an identity
    returned success, no viewer admitted for it is attached and no admission of
    it is completed. A grant has one lease: with any other one a renewal fails
    and a release changes nothing. An admitted viewer has the session, identity
    and role with which its grant was created. -/
theorem kicked_guests_stay_out (digest : String → String) (parse : String → Option Description)
    (meaning : String → String × Bool) (collisionless : Hub.Collisionless digest)
    (history : History) (gateway : Gateway) (distinct : Distinct history)
    (run : Run (Taken digest parse meaning) .new history gateway) :
    (∀ grant number client shared, Kicked history grant.session grant.identity →
      Admitted history grant number client → gateway.hub.shared.get? number = some shared →
      shared.state.viewers.get? client = none) ∧
    (∀ label next grant number client, Taken digest parse meaning gateway label next →
      label.2 = .admitted grant number client →
      ¬ Kicked history grant.session grant.identity) ∧
    (∀ grant other now later, grant.hash = other.hash →
      (gateway.grants.renew grant now).isSome → (gateway.grants.renew other later).isSome →
      grant.lease = other.lease) ∧
    (∀ grant record now, gateway.grants.get? grant.hash = some record →
      record.lease ≠ grant.lease →
      gateway.grants.renew grant now = none ∧ gateway.grants.release grant now = gateway.grants) ∧
    ∀ grant number client, Admitted history grant number client →
      Created history grant.hash grant.session grant.identity grant.readOnly ∧
      (∀ session identity readOnly, Created history grant.hash session identity readOnly →
        session = grant.session ∧ identity = grant.identity ∧ readOnly = grant.readOnly) ∧
      ∃ shared, gateway.hub.shared.get? number = some shared ∧ shared.id = grant.session ∧
        ∀ viewer, shared.state.viewers.get? client = some viewer →
          viewer.identity = grant.identity ∧ viewer.readOnly = grant.readOnly := by
  have sound := distinct.sound collisionless run
  refine ⟨sound.out, ?_, ?_, ?_, ?_⟩
  · intro label next grant number client taken made
    obtain ⟨event, output⟩ := label
    subst made
    obtain ⟨id, task, now, grants, found, stage, renewed⟩ := admitted_step taken.step
    have fits := sound.tasks id task found
    rw [stage] at fits
    exact sound.inside fits.created renewed
  · intro grant other now later same first second
    obtain ⟨_, renewed⟩ := Option.isSome_iff_exists.mp first
    obtain ⟨_, renewedToo⟩ := Option.isSome_iff_exists.mp second
    obtain ⟨record, known, matched, _⟩ := Grants.update_some renewed
    obtain ⟨_, knownToo, matchedToo, _⟩ := Grants.update_some renewedToo
    rw [← same] at knownToo
    obtain rfl := Option.mem_unique known knownToo
    simp only [Grant.filter, Bool.and_eq_true, beq_iff_eq] at matched matchedToo
    exact matched.1.1.2.symm.trans matchedToo.1.1.2
  · intro grant record now known other
    have refused (at_ until_ : Int) : gateway.grants.update grant at_ until_ = none := by
      simp [Grants.update, known, Grant.filter, other]
    exact ⟨refused _ _, by rw [Grants.release, refused, Option.getD_none]⟩
  · intro grant number client made
    obtain ⟨created, shared, found, named, _, viewers⟩ := sound.admitted grant number client made
    refine ⟨created, ?_, shared, found, named, viewers⟩
    intro session identity readOnly again
    exact sound.unique _ _ _ _ _ _ _ again created

/-! ## A run -/

section Example

variable (digest : String → String) (parse : String → Option Description)
  (meaning : String → String × Bool)

/-- The assumptions on one step, checked. -/
def lawful (gateway : Gateway) (event : Event) : Bool :=
  ((gateway.step digest parse event).1.hub.tokens.entries.all fun entry =>
      meaning entry.1 == entry.2) &&
    match event with
    | .remove id _ => (gateway.kicks.get? id).all fun kick =>
        gateway.hub.sessions.get? kick.session == some kick.number
    | _ => true

variable {digest parse meaning}

theorem lawful_taken (gateway : Gateway) (event : Event)
    (checked : lawful digest parse meaning gateway event = true) :
    Taken digest parse meaning gateway (event, (gateway.step digest parse event).2)
      (gateway.step digest parse event).1 := by
  obtain ⟨tokens, routed⟩ := Bool.and_eq_true_iff.mp checked
  refine ⟨rfl, ?_, ?_⟩
  · intro hash entry found
    exact beq_iff_eq.mp (List.all_eq_true.mp tokens _ (Dict.get?_eq_some_iff.mp found))
  · intro id call kick same found
    obtain rfl : event = .remove id call := same
    simpa [found] using routed

end Example

/-- The recovery token that is drawn for the guest. -/
def guestToken : String := "1111111111111111111111111111111111111111111111111111111111111111"

/-- A permutation that is SHA-256 on the tokens of the example. -/
def guestDigest : Equiv.Perm String :=
  Hub.exampleDigest.trans (Equiv.swap guestToken
    "3138bb9bc78df27c473ecfd1410f7bd45ebac1f59cf3ff9cfe4db77aab7aedd3")

/-- The two invitations of the example host. -/
def guestMeaning (hash : String) : String × Bool :=
  (Hub.exampleHello.id, hash == guestDigest Hub.exampleRead)

def guestReading : Reading :=
  ⟨fun _ => 1000, Hub.exampleCall, true, guestToken, 5, "22222222222222222222222222222222"⟩

/-- A guest joins by the write invitation, is admitted, and is kicked. -/
def guestEvents : List Event :=
  [.hub Hub.exampleRegister.1 Hub.exampleRegister.2,
    .join 0 ⟨Hub.exampleWrite, none, ⟨80, 24, "xterm"⟩⟩] ++
    List.replicate 7 (.advance 0 guestReading) ++
      [.kick 0 Hub.exampleHello.id 5, .revoke 0 2000, .remove 0 Hub.exampleCall]

def guestGrant : Grant :=
  ⟨guestDigest guestToken, Hub.exampleHello.id, 5, false, "22222222222222222222222222222222", 60⟩

/-- The guest was admitted and kicked, and is no longer attached. -/
theorem admitted_guest_is_kicked : let run := feed (Gateway.step guestDigest fun _ => none) .new guestEvents
    Admitted run.1 guestGrant 0 7 ∧ Kicked run.1 Hub.exampleHello.id 5 ∧
      ∀ shared, run.2.hub.shared.get? 0 = some shared → shared.state.viewers.get? 7 = none := by
  intro run
  have taken : Run (Taken guestDigest (fun _ => none) guestMeaning) .new run.1 run.2 :=
    feed_run_of_passes lawful_taken (by decide +kernel)
  have collisionless : Hub.Collisionless guestDigest :=
    fun _ _ _ _ same => guestDigest.injective same
  have distinct : Distinct run.1 := by
    constructor
    · decide +kernel
    · decide
  have admitted : Admitted run.1 guestGrant 0 7 := exists_input (by decide)
  have kicked : Kicked run.1 Hub.exampleHello.id 5 := exists_input (by decide +kernel)
  obtain ⟨out, _⟩ :=
    kicked_guests_stay_out guestDigest (fun _ => none) guestMeaning collisionless _ _ distinct taken
  exact ⟨admitted, kicked, fun shared found => out guestGrant 0 7 shared kicked admitted found⟩

end PortHub.Api.TerminalGrants
