import PortHub.Api.EnrollmentRuns

/-! # Every interleaving issues credentials once

Each operation of each request keeps the invariant, so every run does, and what a
`bootstrap` may find when it sets the credential follows.
-/

namespace PortHub.Api.PrivateEnrollment

open Runs

section Stages

variable {digest : String → String} {origin gateway : Gateway} {outputs : List Output}
variable {id : Nat} {reading : Reading} {workspaceId machineId : String}

/-- The random values of a step, and their digests, are new. -/
def Fresh (digest : String → String) (gateway : Gateway) (token : String) : Prop :=
  token ∉ gateway.drawn ∧ digest token ∉ gateway.drawn.map digest

/-- The state and the answer behind one operation of a request are sound. -/
def Settles (digest : String → String) (origin gateway : Gateway) (outputs : List Output) (id : Nat)
    (token : String) (moved : Store × Option Work × Output) : Prop :=
  Sound digest origin (outputs ++ [moved.2.2]) (gateway.settle id token moved.1 moved.2.1)

theorem advance_settle {work} (found : gateway.requests.get? id = some work)
    (moving : ∀ workspaceId machineId userId, work ≠ .enroll workspaceId machineId userId .lock) :
    gateway.advance digest id reading =
      (gateway.settle id reading.token (work.step digest gateway.store reading).1
        (work.step digest gateway.store reading).2.1, (work.step digest gateway.store reading).2.2) := by
  unfold Gateway.advance
  rw [found]
  split
  · contradiction
  · rename_i same
    exact absurd (Option.some.inj same) (moving _ _ _)
  · rename_i same
    cases same
    dsimp only
    split <;> rename_i next <;> rw [next] <;> rfl

/-- A request reads, or is refused. -/
theorem Sound.reads (sound : Sound digest origin outputs gateway) {token} {output : Output} {next}
    (neutral : output.neutral = true)
    (enrolled : ∀ peerId generation ticket, output ≠ .enrolled peerId generation ticket)
    (own : ∀ work, next = some work →
      Fits origin (outputs ++ [output]) (gateway.settle id token gateway.store next) id work)
    (single : ∀ key claim peer, next ≠ some (.bootstrap key (.issue claim peer))) :
    Sound digest origin (outputs ++ [output]) (gateway.settle id token gateway.store next) :=
  sound.settled neutral rfl (.refl _)
    (fun peerId generation ticket same => absurd same (enrolled peerId generation ticket)) own
    fun key claim peer same => absurd same (single key claim peer)

theorem Sound.refuses (sound : Sound digest origin outputs gateway) {token message} :
    Sound digest origin (outputs ++ [.refused message])
      (gateway.settle id token gateway.store none) :=
  sound.reads rfl (by simp) (by simp) (by simp)

theorem generationsOf_quiet (peerId : String) :
    generationsOf peerId (outputs ++ [.quiet]) = generationsOf peerId outputs :=
  generationsOf_neutral peerId rfl

section

variable (sound : Sound digest origin outputs gateway)

include sound

/-- `enroll` behind its locks. -/
theorem Sound.enrolls {userId stage}
    (found : gateway.requests.get? id = some (.enroll workspaceId machineId userId stage))
    (behind : stage ≠ .lock) (fresh : Fresh digest gateway reading.token) :
    Settles digest origin gateway outputs id reading.token
      (Work.step digest gateway.store reading (.enroll workspaceId machineId userId stage)) := by
  have fits := sound.works id _ found
  cases stage with
  | lock => contradiction
  | machine =>
      simp only [Work.step, enrollStep]
      split
      · exact sound.refuses
      · exact sound.reads rfl (by simp) (by rintro _ ⟨⟩; exact fits) (by simp)
  | existing ownerId =>
      simp only [Work.step, enrollStep]
      split
      · exact sound.refuses
      · refine sound.reads rfl (by simp) ?_ (by simp)
        rintro _ ⟨⟩
        refine ⟨fits, by simp, fun earlier => fresh.1 (sound.drawn _ earlier), ?_⟩
        intro pair member same
        simp only [generations_snoc, Output.generation?, Option.toList_none, List.append_nil] at member
        exact fresh.1 (same ▸ (sound.fresh pair member).1)
  | save ownerId generation rounds =>
      cases rounds with
      | zero => exact sound.refuses
      | succ rounds =>
          simp only [Work.step, enrollStep]
          split
          · refine sound.reads rfl (by simp) ?_ (by simp)
            rintro _ ⟨⟩
            obtain ⟨mine, known, unknown, apart⟩ := fits
            exact ⟨mine, mem_settle_drawn known, unknown, by simpa [Output.generation?] using apart⟩
          · rename_i free
            simp only [Bool.or_eq_true, not_or, Bool.not_eq_true] at free
            exact sound.generate fits free.2 rfl rfl
  | completed ownerId generation rounds =>
      simp only [Work.step, enrollStep]
      split
      · exact sound.refuses
      · refine sound.reads rfl (by simp) ?_ (by simp)
        rintro _ ⟨⟩
        obtain ⟨mine, known, unknown, apart⟩ := fits
        exact ⟨mine, mem_settle_drawn known, unknown, by simpa [Output.generation?] using apart⟩
  | consume generation =>
      simp only [Work.step, enrollStep]
      refine sound.settled rfl rfl (consumeTickets_ages _ _ _ _) (by simp) ?_ (by simp)
      rintro _ ⟨⟩
      exact ⟨fits.1, (generationsOf_quiet _).symm ▸ fits.2⟩
  | insert generation ticket now =>
      simp only [Work.step, enrollStep]
      split
      · exact sound.refuses
      · rename_i absent
        refine sound.settled rfl rfl (insert_ages (by simpa using absent)) (by simp) ?_ (by simp)
        rintro _ ⟨⟩
        exact ⟨fits.1, (generationsOf_quiet _).symm ▸ fits.2⟩
  | respond generation ticket =>
      simp only [Work.step, enrollStep]
      refine sound.settled rfl rfl (.refl _) ?_ (by simp) (by simp)
      rintro _ _ _ ⟨⟩
      exact List.mem_of_getLast? fits.2

/-- `pending_private_install`. -/
theorem Sound.pends {ownerId stage} :
    Settles digest origin gateway outputs id reading.token
      (Work.step digest gateway.store reading (.pending machineId ownerId stage)) := by
  cases stage with
  | peers =>
      simp only [Work.step, pendingStep]
      split
      · exact sound.reads rfl (by simp) (by simp) (by simp)
      · exact sound.reads rfl (by simp) (by rintro _ ⟨⟩; trivial) (by simp)
      · exact sound.refuses
  | membership peerId peer =>
      simp only [Work.step, pendingStep]
      split
      · exact sound.reads rfl (by simp) (by rintro _ ⟨⟩; trivial) (by simp)
      · exact sound.refuses
  | consume peerId peer =>
      simp only [Work.step, pendingStep]
      exact sound.settled rfl rfl (consumeTickets_ages _ _ _ _) (by simp) (by rintro _ ⟨⟩; trivial)
        (by simp)
  | insert peerId peer ticket now =>
      simp only [Work.step, pendingStep]
      split
      · exact sound.refuses
      · rename_i absent
        exact sound.settled rfl rfl (insert_ages (by simpa using absent)) (by simp) (by simp) (by simp)

/-- `bootstrap`. The ticket it takes was not consumed, so no other request holds it
    and nothing was issued for it. -/
theorem Sound.bootstraps {key stage}
    (found : gateway.requests.get? id = some (.bootstrap key stage))
    (fresh : Fresh digest gateway reading.token) :
    Settles digest origin gateway outputs id reading.token
      (Work.step digest gateway.store reading (.bootstrap key stage)) := by
  have fits := sound.works id _ found
  cases stage with
  | claim =>
      simp only [Work.step, bootstrapStep]
      split
      · rename_i claim there
        split
        · refine sound.reads rfl (by simp) ?_ (by simp)
          rintro _ ⟨⟩
          exact ⟨claim, there, rfl, rfl⟩
        · exact sound.refuses
      · exact sound.refuses
  | peer claim =>
      simp only [Work.step, bootstrapStep]
      split
      · split
        · rename_i open_
          refine sound.reads rfl (by simp) ?_ (by simp)
          rintro _ ⟨⟩
          exact ⟨fits, open_.2.2⟩
        · exact sound.refuses
      · exact sound.refuses
  | issuer claim peer | owner claim peer | machine claim peer =>
      simp only [Work.step, bootstrapStep]
      split
      · exact sound.reads rfl (by simp) (by rintro _ ⟨⟩; exact fits) (by simp)
      · exact sound.refuses
  | take claim peer =>
      simp only [Work.step, bootstrapStep]
      split
      · rename_i current there
        split
        · rename_i unused
          have free : ¬ Consumed gateway.store key := by
            rintro ⟨ticket, known, gone⟩
            obtain rfl := Option.mem_unique there known
            simp [unused.1] at gone
          have ages := take_ages reading.now there
          refine sound.settled rfl rfl ages (by simp) ?_ ?_
          · rintro _ ⟨⟩
            refine ⟨fits.1.ages ages, fits.2, ⟨_, Dict.get?_insert_self _ _ _, rfl⟩, ?_⟩
            intro peerId credential member
            exact free (sound.used key peerId credential (by simpa using member))
          · rintro other claim' peer' ⟨⟩
            exact free
        · exact sound.refuses
      · exact sound.refuses
  | issue claim peer =>
      simp only [Work.step, bootstrapStep]
      split
      · rename_i current there
        split
        · rename_i open_
          exact sound.issue found there open_.1 fresh.2
        · exact sound.refuses
      · exact sound.refuses

theorem Sound.revokes {peerId ownerId stage} :
    Settles digest origin gateway outputs id reading.token
      (Work.step digest gateway.store reading (.revoke peerId workspaceId ownerId stage)) := by
  cases stage with
  | peer =>
      simp only [Work.step, revokeStep]
      split
      · rename_i peer there
        split
        · exact sound.revoke there (by rintro _ ⟨⟩ _ _; trivial) (by simp)
        · exact sound.refuses
      · exact sound.refuses
  | tickets =>
      simp only [Work.step, revokeStep]
      exact sound.settled rfl rfl (consumeTickets_ages _ _ _ _) (by simp) (by rintro _ ⟨⟩; trivial)
        (by simp)
  | signals =>
      simp only [Work.step, revokeStep]
      exact sound.reads rfl (by simp) (by simp) (by simp)

/-- Nothing changes but the output. -/
theorem Sound.idles {output : Output} (neutral : output.neutral = true)
    (enrolled : ∀ peerId generation ticket, output ≠ .enrolled peerId generation ticket) :
    Sound digest origin (outputs ++ [output]) gateway := by
  refine sound.neutrally neutral rfl (.refl _) (fun _ known => known)
    (fun peerId generation ticket same => absurd same (enrolled peerId generation ticket)) ?_ sound.alone
  intro other work found
  refine (sound.works other work found).other (.refl _) (fun mine => mine) (fun _ known => known)
    (fun _ => neutral_generation neutral) ?_
  rintro key claim peer _ peerId credential rfl
  cases neutral

/-- A request that issues nothing yet begins or goes on, perhaps with the locks. -/
theorem Sound.enters {work lock}
    (kept : ∀ other, gateway.locked = some other → lock = some other)
    (fits : Fits origin (outputs ++ [.quiet])
      { gateway with locked := lock, requests := gateway.requests.insert id work } id work)
    (single : ∀ key claim peer, work ≠ .bootstrap key (.issue claim peer)) :
    Sound digest origin (outputs ++ [.quiet])
      { gateway with locked := lock, requests := gateway.requests.insert id work } := by
  refine sound.neutrally rfl rfl (.refl _) (fun _ known => known) (by simp) ?_ ?_
  · intro other current found
    rcases Dict.get?_of_insert found with ⟨rfl, rfl⟩ | ⟨_, before⟩
    · exact fits
    · exact (sound.works other current before).other (.refl _) (kept other) (fun _ known => known)
        (fun _ => rfl) (by simp)
  · intro first second key claim peer claim' peer' one two
    have apart {other : Nat} {claim : Ticket} {peer : Peer}
        (there : (gateway.requests.insert id work).get? other = some (.bootstrap key (.issue claim peer))) :
        gateway.requests.get? other = some (.bootstrap key (.issue claim peer)) := by
      rcases Dict.get?_of_insert there with ⟨_, same⟩ | ⟨_, before⟩
      · exact absurd same.symm (single key claim peer)
      · exact before
    exact sound.alone first second key claim peer claim' peer' (apart one) (apart two)

/-- A request begins. -/
theorem Sound.begins {work}
    (fits : ∀ outputs gateway, Fits origin outputs gateway id work)
    (single : ∀ key claim peer, work ≠ .bootstrap key (.issue claim peer)) :
    Sound digest origin (outputs ++ [(gateway.begin_ id work).2]) (gateway.begin_ id work).1 := by
  unfold Gateway.begin_
  split
  · exact sound.idles rfl (by simp)
  · exact sound.enters (fun _ mine => mine) (fits _ _) single

/-- A request is given up. -/
theorem Sound.stops : Sound digest origin (outputs ++ [.quiet]) (gateway.stop id) := by
  refine sound.neutrally rfl rfl (.refl _) (fun _ known => known) (by simp) ?_ ?_
  · intro other work found
    have different : other ≠ id := by
      rintro rfl
      simp [Gateway.stop] at found
    rw [Gateway.stop, Dict.get?_erase_ne _ different] at found
    refine (sound.works other work found).other (.refl _) ?_ (fun _ known => known) (fun _ => rfl) (by simp)
    intro mine
    simp [Gateway.stop, mine, different]
  · intro first second key claim peer claim' peer' one two
    exact sound.alone first second key claim peer claim' peer'
      (Dict.erase_sub _ _ _ _ one) (Dict.erase_sub _ _ _ _ two)

/-- The locks are taken by an enrollment when nobody holds them. -/
theorem Sound.locks {userId} (open_ : gateway.locked = none) :
    Sound digest origin (outputs ++ [.quiet])
      { gateway with
        locked := some id
        requests := gateway.requests.insert id (.enroll workspaceId machineId userId .machine) } :=
  sound.enters (by simp [open_]) rfl (by simp)

end

end Stages

/-- The random values that an event brings are new, and so are their digests. -/
def Event.Fresh (digest : String → String) (gateway : Gateway) : Event → Prop
  | .step _ reading => PrivateEnrollment.Fresh digest gateway reading.token
  | _ => True

/-- One operation of any request. -/
def Operates (digest : String → String) (gateway : Gateway) (label : Event × Output)
    (after : Gateway) : Prop :=
  answers (Gateway.step digest) gateway label after ∧ label.1.Fresh digest gateway

/-- The credential hash that a peer is stored with. -/
def Store.hash? (store : Store) (peerId : String) : Option String :=
  (store.peers.get? peerId).bind Peer.credentialHash

section Hashes

variable {digest : String → String} {store : Store} {reading : Reading} {peerId hash : String}

theorem insert_hash (store : Store) (written : String) (peer : Peer) (peerId : String) :
    ({ store with peers := store.peers.insert written peer } : Store).hash? peerId =
      if peerId = written then peer.credentialHash else store.hash? peerId := by
  unfold Store.hash?
  split
  · rename_i same
    simp [same]
  · rename_i different
    simp [different]

/-- A hash that is stored behind an operation was there, or was issued to a peer
    that had none. -/
def Issuing (digest : String → String) (before after : Store) (output : Output) : Prop :=
  ∀ peerId hash, after.hash? peerId = some hash → before.hash? peerId = some hash ∨
    before.hash? peerId = none ∧
      ∃ key credential, output = .issued key peerId credential ∧ digest credential = hash

theorem Issuing.kept {after : Store} {output} (same : after.peers = store.peers) :
    Issuing digest store after output := by
  intro peerId hash stored
  rw [Store.hash?, same] at stored
  exact .inl stored

theorem Issuing.written {output written} {peer : Peer}
    (earlier : peer.credentialHash = none ∨ peer.credentialHash = store.hash? written) :
    Issuing digest store { store with peers := store.peers.insert written peer } output := by
  intro peerId hash stored
  rw [insert_hash] at stored
  split at stored
  · rename_i same
    rcases earlier with bare | kept
    · simp [bare] at stored
    · exact .inl (by rw [same, ← kept, stored])
  · exact .inl stored

theorem enroll_issuing (workspaceId machineId userId : String) (stage : EnrollStage) :
    let moved := enrollStep digest workspaceId machineId userId store reading stage
    Issuing digest store moved.1 moved.2.2 := by
  cases stage with
  | lock | consume | respond => exact .kept rfl
  | machine | existing | completed | insert =>
      simp only [enrollStep]
      split <;> exact .kept rfl
  | save ownerId generation rounds =>
      cases rounds with
      | zero => exact .kept rfl
      | succ rounds =>
          simp only [enrollStep]
          split
          · exact .kept rfl
          · exact .written (.inl rfl)

theorem pending_issuing (machineId ownerId : String) (stage : PendingStage) :
    let moved := pendingStep digest machineId ownerId store reading stage
    Issuing digest store moved.1 moved.2.2 := by
  cases stage with
  | consume => exact .kept rfl
  | peers | membership | insert =>
      simp only [pendingStep]
      split <;> exact .kept rfl

theorem bootstrap_issuing (key : String) (stage : BootstrapStage) :
    let moved := bootstrapStep digest key store reading stage
    Issuing digest store moved.1 moved.2.2 := by
  cases stage with
  | claim | peer | take =>
      simp only [bootstrapStep]
      split <;> (try split) <;> exact .kept rfl
  | issuer | owner | machine =>
      simp only [bootstrapStep]
      split <;> exact .kept rfl
  | issue claim peer =>
      simp only [bootstrapStep]
      split
      · rename_i current there
        split
        · rename_i open_
          intro peerId hash stored
          rw [insert_hash] at stored
          split at stored
          · rename_i same
            refine .inr ⟨?_, key, reading.token, by rw [same], by simpa using stored⟩
            simp [Store.hash?, same, there, open_.2.1]
          · exact .inl stored
        · exact .kept rfl
      · exact .kept rfl

theorem revoke_issuing (revoked workspaceId : String) (ownerId : Option String) (stage : RevokeStage) :
    let moved := revokeStep revoked workspaceId ownerId store reading stage
    Issuing digest store moved.1 moved.2.2 := by
  cases stage with
  | peer =>
      simp only [revokeStep]
      split
      · split
        · exact .written (.inl rfl)
        · exact .kept rfl
      · exact .kept rfl
  | tickets | signals => exact .kept rfl

theorem work_issuing (work : Work) :
    let moved := work.step digest store reading
    Issuing digest store moved.1 moved.2.2 := by
  cases work with
  | enroll workspaceId machineId userId stage => exact enroll_issuing workspaceId machineId userId stage
  | pending machineId ownerId stage => exact pending_issuing machineId ownerId stage
  | bootstrap key stage => exact bootstrap_issuing key stage
  | revoke peerId workspaceId ownerId stage => exact revoke_issuing peerId workspaceId ownerId stage

theorem change_issuing (changed workspaceId : String) (enabled : Bool) :
    let moved := changePeer store changed workspaceId enabled
    Issuing digest store moved.1 moved.2 := by
  simp only [changePeer]
  split
  · rename_i peer there
    split
    · exact .written (.inr (by simp [Store.hash?, there]))
    · exact .kept rfl
  · exact .kept rfl

theorem step_issuing (gateway : Gateway) (event : Event) :
    Issuing digest gateway.store (gateway.step digest event).1.store (gateway.step digest event).2 := by
  have begins (id : Nat) (work : Work) :
      Issuing digest gateway.store (gateway.begin_ id work).1.store (gateway.begin_ id work).2 := by
    unfold Gateway.begin_
    split <;> exact .kept rfl
  cases event with
  | enroll | pending | bootstrap | revoke => exact begins _ _
  | change peerId workspaceId enabled => exact change_issuing peerId workspaceId enabled
  | step id reading =>
      simp only [Gateway.step, Gateway.advance]
      split
      · exact .kept rfl
      · split <;> exact .kept rfl
      · rename_i work _ _
        have issuing := @work_issuing digest gateway.store reading work
        split <;> exact issuing
  | fail => exact .kept rfl

end Hashes

section Run

variable {digest : String → String} {origin gateway after : Gateway}
variable {history : List (Event × Output)} {label : Event × Output} {outputs : List Output}
  {reading : Reading} {store : Store} {key peerId : String}

theorem Sound.start (digest : String → String) (idle : origin.requests = Dict.empty) :
    Sound digest origin [] origin := by
  constructor
  case drawn => exact fun _ known => known
  case hashes =>
    intro peerId peer hash found stored
    exact .inl ⟨peer, found, stored⟩
  case works => simp [idle]
  case alone => simp [idle]
  all_goals simp [generations, generationsOf, credentials]

theorem Sound.advances (sound : Sound digest origin outputs gateway) {id}
    (fresh : Fresh digest gateway reading.token) :
    Sound digest origin (outputs ++ [(gateway.advance digest id reading).2])
      (gateway.advance digest id reading).1 := by
  cases found : gateway.requests.get? id with
  | none =>
      simp only [Gateway.advance, found]
      exact sound.idles rfl (by simp)
  | some work =>
      cases work with
      | enroll workspaceId machineId userId stage =>
          by_cases waiting : stage = .lock
          · subst waiting
            simp only [Gateway.advance, found]
            split
            · exact sound.locks ‹_›
            · exact sound.idles rfl (by simp)
          · rw [advance_settle found (by simp [waiting])]
            exact sound.enrolls found waiting fresh
      | pending machineId ownerId stage =>
          rw [advance_settle found (by simp)]
          exact sound.pends
      | bootstrap key stage =>
          rw [advance_settle found (by simp)]
          exact sound.bootstraps found fresh
      | revoke peerId workspaceId ownerId stage =>
          rw [advance_settle found (by simp)]
          exact sound.revokes

theorem Sound.operates (sound : Sound digest origin outputs gateway)
    (taken : Operates digest gateway label after) :
    Sound digest origin (outputs ++ [label.2]) after := by
  obtain ⟨event, output⟩ := label
  obtain ⟨moves, fresh⟩ := taken
  obtain rfl : output = (gateway.step digest event).2 := (congrArg Prod.snd moves).symm
  obtain rfl := moves.next
  cases event with
  | enroll | pending | bootstrap | revoke => exact sound.begins (fun _ _ => trivial) (by simp)
  | change peerId workspaceId enabled =>
      simp only [Gateway.step, changePeer]
      split
      · rename_i peer there
        split
        · exact sound.switch there enabled
        · exact sound.idles rfl (by simp)
      · exact sound.idles rfl (by simp)
  | step id reading => exact sound.advances fresh
  | fail id => exact sound.stops

theorem run_sound (idle : origin.requests = Dict.empty)
    (run : Run (Operates digest) origin history gateway) :
    Sound digest origin (history.map Prod.snd) gateway := by
  induction run with
  | start => exact .start digest idle
  | snoc _ taken sound =>
      rw [List.map_append]
      exact sound.operates taken

/-- What `bootstrap` found in the collections when it set the credential. -/
structure Redeems (gateway : Gateway) (id : Nat) (key peerId : String) (claim : Ticket)
    (peer current : Peer) : Prop where
  holds : gateway.requests.get? id = some (.bootstrap key (.issue claim peer))
  claimed : claim.peerId = peerId
  there : gateway.store.peers.get? peerId = some current
  enabled : current.enabled = true
  bare : current.credentialHash = none
  matching : current.enrollmentGeneration = peer.enrollmentGeneration

theorem bootstrap_issued {stage issued credential}
    (given : (bootstrapStep digest key store reading stage).2.2 = .issued issued peerId credential) :
    ∃ claim peer current, stage = .issue claim peer ∧ issued = key ∧ claim.peerId = peerId ∧
      store.peers.get? peerId = some current ∧ current.enabled = true ∧
      current.credentialHash = none ∧ current.enrollmentGeneration = peer.enrollmentGeneration := by
  cases stage with
  | claim | peer | take =>
      simp only [bootstrapStep] at given
      split at given <;> (try split at given) <;> cases given
  | issuer | owner | machine =>
      simp only [bootstrapStep] at given
      split at given <;> cases given
  | issue claim peer =>
      simp only [bootstrapStep] at given
      split at given
      · rename_i current there
        split at given
        · rename_i open_
          obtain ⟨rfl, rfl, _⟩ := Output.issued.inj given
          exact ⟨claim, peer, current, rfl, rfl, rfl, there, open_.1, open_.2.1, open_.2.2⟩
        · cases given
      · cases given

theorem enroll_unissued {stage} (workspaceId machineId userId key peerId credential : String) :
    (enrollStep digest workspaceId machineId userId store reading stage).2.2 ≠
      .issued key peerId credential := by
  cases stage with
  | save ownerId generation rounds =>
      cases rounds with
      | zero => simp [enrollStep]
      | succ rounds =>
          simp only [enrollStep]
          split <;> simp
  | lock | consume | respond => simp [enrollStep]
  | machine | existing | completed | insert =>
      simp only [enrollStep]
      split <;> simp

theorem pending_unissued {stage} (machineId ownerId key peerId credential : String) :
    (pendingStep digest machineId ownerId store reading stage).2.2 ≠
      .issued key peerId credential := by
  cases stage with
  | consume => simp [pendingStep]
  | peers | membership | insert =>
      simp only [pendingStep]
      split <;> simp

theorem revoke_unissued {stage} (revoked workspaceId : String) (ownerId : Option String)
    (key peerId credential : String) :
    (revokeStep revoked workspaceId ownerId store reading stage).2.2 ≠
      .issued key peerId credential := by
  cases stage with
  | peer =>
      simp only [revokeStep]
      split
      · split <;> simp
      · simp
  | tickets | signals => simp [revokeStep]

theorem step_issued {event credential}
    (given : (gateway.step digest event).2 = .issued key peerId credential) :
    ∃ id claim peer current, Redeems gateway id key peerId claim peer current := by
  have begins (id : Nat) (work : Work) : (gateway.begin_ id work).2 ≠ .issued key peerId credential := by
    unfold Gateway.begin_
    split <;> simp
  cases event with
  | enroll | pending | bootstrap | revoke => exact absurd given (begins _ _)
  | change =>
      simp only [Gateway.step, changePeer] at given
      split at given <;> (try split at given) <;> cases given
  | fail => cases given
  | step id reading =>
      cases found : gateway.requests.get? id with
      | none => simp [Gateway.step, Gateway.advance, found] at given
      | some work =>
          by_cases waiting : ∃ workspaceId machineId userId, work = .enroll workspaceId machineId userId .lock
          · obtain ⟨workspaceId, machineId, userId, rfl⟩ := waiting
            simp only [Gateway.step, Gateway.advance, found] at given
            split at given <;> cases given
          · rw [Gateway.step, advance_settle found fun workspaceId machineId userId same =>
              waiting ⟨workspaceId, machineId, userId, same⟩] at given
            cases work with
            | enroll => exact absurd given (enroll_unissued _ _ _ _ _ _)
            | pending => exact absurd given (pending_unissued _ _ _ _ _)
            | revoke => exact absurd given (revoke_unissued _ _ _ _ _ _)
            | bootstrap presented stage =>
                obtain ⟨claim, peer, current, rfl, rfl, claimed, there, enabled, bare, matching⟩ :=
                  bootstrap_issued given
                exact ⟨id, claim, peer, current, found, claimed, there, enabled, bare, matching⟩

theorem mem_generationsOf {generation} (member : generation ∈ generationsOf peerId outputs) :
    ∃ pair ∈ generations outputs, pair.2 = generation := by
  obtain ⟨pair, among, same⟩ := List.mem_filterMap.mp member
  split at same
  · exact ⟨pair, among, Option.some.inj same⟩
  · cases same

theorem generationsOf_nodup (peerId : String)
    (distinct : ((generations outputs).map Prod.snd).Nodup) :
    (generationsOf peerId outputs).Nodup := by
  have part : List.Sublist (generationsOf peerId outputs) ((generations outputs).map Prod.snd) := by
    unfold generationsOf
    induction generations outputs with
    | nil => exact .slnil
    | cons pair rest ih =>
        by_cases same : pair.1 = peerId
        · simpa [List.filterMap_cons, same] using ih
        · simpa [List.filterMap_cons, same] using ih.cons _
  exact distinct.sublist part

/-- The ticket that is redeemed is of the last enrollment that was saved. -/
theorem Sound.live (sound : Sound digest origin outputs gateway)
    {id generation ticket claim peer current}
    (redeems : Redeems gateway id key peerId claim peer current)
    (enrolled : .enrolled peerId generation ticket ∈ outputs) :
    ∃ stored last earlier later, gateway.store.tickets.get? key = some stored ∧
      stored.generation = some last ∧ generationsOf peerId outputs = earlier ++ generation :: later ∧
      last ∈ generation :: later ∧ last ∉ earlier ∧ last ∉ origin.drawn := by
  obtain ⟨⟨stored, found, backed, _⟩, matching, _, _⟩ := sound.works id _ redeems.holds
  have member := sound.enrolled peerId generation ticket enrolled
  obtain ⟨earlier, later, split⟩ := List.append_of_mem member
  obtain ⟨last, given⟩ : ∃ last, (generationsOf peerId outputs).getLast? = some last := by
    cases same : (generationsOf peerId outputs).getLast? with
    | none => simp [List.getLast?_eq_none_iff.mp same] at member
    | some last => exact ⟨last, rfl⟩
  obtain ⟨record, known, named⟩ := sound.current peerId last given
  obtain rfl := Option.mem_unique redeems.there known
  have inside : last ∈ generation :: later := by
    rw [split, List.getLast?_append_cons] at given
    exact List.mem_of_getLast? given
  have distinct := generationsOf_nodup peerId sound.distinct
  rw [split, List.nodup_append] at distinct
  refine ⟨stored, last, earlier, later, found, ?_, split, inside, ?_, ?_⟩
  · rw [backed, matching, ← redeems.matching, named]
  · intro before
    exact distinct.2.2 last before last inside rfl
  · obtain ⟨pair, among, rfl⟩ := mem_generationsOf (List.mem_of_getLast? given)
    exact (sound.fresh pair among).2

/-- A stored hash is older than the run, or exactly one credential that was returned
    has it. -/
theorem Sound.stored {outputs} (sound : Sound digest origin outputs gateway) {peerId hash}
    (known : gateway.store.hash? peerId = some hash) :
    origin.store.hash? peerId = some hash ∨
      ∃ before after key credential, outputs = before ++ .issued key peerId credential :: after ∧
        digest credential = hash ∧
        ∀ other ∈ credentials before ++ credentials after, digest other ≠ hash := by
  obtain ⟨peer, found, stored⟩ := Option.bind_eq_some_iff.mp known
  rcases sound.hashes peerId peer hash found stored with ⟨old, there, same⟩ | ⟨key, credential, member, same⟩
  · exact .inl (Option.bind_eq_some_iff.mpr ⟨old, there, same⟩)
  · obtain ⟨before, after, whole⟩ := List.append_of_mem member
    refine .inr ⟨before, after, key, credential, whole, same, ?_⟩
    have single := sound.single
    rw [whole] at single
    simp only [credentials, List.filterMap_append, List.filterMap_cons, Output.credential?,
      List.map_append, List.map_cons, List.nodup_append, List.nodup_cons] at single
    obtain ⟨_, ⟨unlater, _⟩, apart⟩ := single
    intro other inside equal
    rcases List.mem_append.mp inside with earlier | later
    · exact apart _ (List.mem_map_of_mem earlier) _ List.mem_cons_self (equal.trans same.symm)
    · exact unlater (List.mem_map.mpr ⟨other, later, equal.trans same.symm⟩)

/-- Every operation of every interleaving. A stored hash was there, or is the digest
    of the credential that is being returned, where there was none; and only one
    returned credential has it. A credential is returned for a ticket that never
    yielded one, to a peer that got none since it was last revoked and that was
    enabled since, and the ticket is not of a generation before the last enrollment
    that returned. -/
theorem credentials_issued_once (idle : origin.requests = Dict.empty)
    (run : Run (Operates digest) origin history gateway)
    (taken : Operates digest gateway label after) :
    Issuing digest gateway.store after.store label.2 ∧
    (∀ peerId hash, gateway.store.hash? peerId = some hash → origin.store.hash? peerId = some hash ∨
      ∃ before after key credential,
        history.map Prod.snd = before ++ .issued key peerId credential :: after ∧
        digest credential = hash ∧
        ∀ other ∈ credentials before ++ credentials after, digest other ≠ hash) ∧
    ∀ key peerId credential, label.2 = .issued key peerId credential →
      (∀ other earlier, .issued key other earlier ∉ history.map Prod.snd) ∧
      ¬ Since (Output.Issues peerId) (Output.Revokes peerId) (history.map Prod.snd) ∧
      (∀ generation ticket, .enrolled peerId generation ticket ∈ history.map Prod.snd →
        ∃ stored last earlier later, gateway.store.tickets.get? key = some stored ∧
          stored.generation = some last ∧
          generationsOf peerId (history.map Prod.snd) = earlier ++ generation :: later ∧
          last ∈ generation :: later ∧ last ∉ earlier ∧ last ∉ origin.drawn) ∧
      ¬ Since (Output.Revokes peerId) (Output.Enables peerId) (history.map Prod.snd) := by
  have sound := run_sound idle run
  obtain ⟨event, output⟩ := label
  obtain rfl : output = (gateway.step digest event).2 := (congrArg Prod.snd taken.1).symm
  obtain rfl := taken.1.next
  refine ⟨step_issuing gateway event, fun peerId hash known => sound.stored known, ?_⟩
  intro key peerId credential given
  obtain ⟨id, claim, peer, current, redeems⟩ := step_issued given
  refine ⟨?_, ?_, fun generation ticket => sound.live redeems, ?_⟩
  · obtain ⟨_, _, _, unissued⟩ := sound.works id _ redeems.holds
    exact unissued
  · intro since
    obtain ⟨old, known, stored⟩ := sound.held peerId since
    obtain rfl := Option.mem_unique redeems.there known
    simp [redeems.bare] at stored
  · intro since
    obtain ⟨old, known, off⟩ := sound.disabled peerId since
    obtain rfl := Option.mem_unique redeems.there known
    simp [redeems.enabled] at off

/-- The random values of an event are new, checked. -/
def Event.isFresh (digest : String → String) (gateway : Gateway) : Event → Bool
  | .step _ reading =>
      decide (reading.token ∉ gateway.drawn) && decide (digest reading.token ∉ gateway.drawn.map digest)
  | _ => true

theorem operates_of_fresh (digest : String → String) (gateway : Gateway) (event : Event)
    (fresh : event.isFresh digest gateway = true) :
    Operates digest gateway (event, (gateway.step digest event).2) (gateway.step digest event).1 := by
  refine ⟨rfl, ?_⟩
  cases event with
  | step id reading => simpa [Event.isFresh, Event.Fresh, Fresh] using fresh
  | enroll | pending | bootstrap | revoke | change | fail => trivial

end Run

/-- A reading at time `now` that draws `token`; everybody is a member. -/
def plainReading (now : Nat) (token : String) : Reading :=
  { now := now
    token := token
    enrollable := some "owner"
    duplicate := false
    member := fun _ _ => true
    machine := fun _ _ => true }

/-- One machine with a pending peer and its ticket. -/
def pendingGateway : Gateway :=
  { store :=
      { peers := Dict.empty.insert "w:m"
          { workspaceId := "w"
            machineId := "m"
            ownerId := "owner"
            enabled := true
            credentialHash := none
            enrollmentGeneration := some "first" }
        tickets := Dict.empty.insert "ticket"
          { peerId := "w:m"
            createdBy := "owner"
            generation := some "first"
            consumedAt := none
            expiresAt := 100 } }
    requests := Dict.empty
    locked := none
    drawn := ["first", "ticket"] }

/-- A bootstrap that stops before it sets the credential. -/
def resolved : List Event :=
  [.bootstrap 1 "ticket", .step 1 (plainReading 1 "a"), .step 1 (plainReading 2 "b"),
    .step 1 (plainReading 3 "c"), .step 1 (plainReading 4 "d"), .step 1 (plainReading 5 "e"),
    .step 1 (plainReading 6 "f")]

theorem pending_ticket_is_redeemed : ((Gateway.step id (feed (Gateway.step id) pendingGateway resolved).2
        (.step 1 (plainReading 7 "credential"))).2 = .issued "ticket" "w:m" "credential") ∧
      ∀ other earlier, .issued "ticket" other earlier ∉
        (feed (Gateway.step id) pendingGateway resolved).1.map Prod.snd := by
  have run : Run (Operates id) pendingGateway (feed (Gateway.step id) pendingGateway resolved).1
      (feed (Gateway.step id) pendingGateway resolved).2 :=
    feed_run_of_passes (operates_of_fresh id) (by decide)
  have last := operates_of_fresh id (feed (Gateway.step id) pendingGateway resolved).2
    (.step 1 (plainReading 7 "credential")) (by decide)
  have issued : (Gateway.step id (feed (Gateway.step id) pendingGateway resolved).2
      (.step 1 (plainReading 7 "credential"))).2 = .issued "ticket" "w:m" "credential" := by
    decide
  exact ⟨issued, ((credentials_issued_once rfl run last).2.2 _ _ _ issued).1⟩

/-- A peer that is enabled while its revocation is under way. -/
def enabledMeanwhile : List Event :=
  resolved ++ [.revoke 2 "w:m" "w" none, .step 2 (plainReading 7 "g"), .change "w:m" "w" true,
    .step 2 (plainReading 8 "h"), .step 2 (plainReading 9 "i")]

/-- The revocation returns, nobody enrolls or enables the peer, and a bootstrap
    succeeds. -/
theorem revocation_returns_too_late :
    ¬ ∀ (digest : String → String) (origin gateway after : Gateway) (history : List (Event × Output))
      (event : Event) (key peerId credential : String), origin.requests = Dict.empty →
      Run (Operates digest) origin history gateway →
      Operates digest gateway (event, .issued key peerId credential) after →
      ¬ Since (fun output => output = .revoked peerId)
        (fun output => output.Enables peerId ∨
          ∃ generation ticket, output = .enrolled peerId generation ticket) (history.map Prod.snd) := by
  intro always
  have run : Run (Operates id) pendingGateway (feed (Gateway.step id) pendingGateway enabledMeanwhile).1
      (feed (Gateway.step id) pendingGateway enabledMeanwhile).2 :=
    feed_run_of_passes (operates_of_fresh id) (by decide)
  have last := operates_of_fresh id (feed (Gateway.step id) pendingGateway enabledMeanwhile).2
    (.step 1 (plainReading 10 "credential")) (by decide)
  have issued : (Gateway.step id (feed (Gateway.step id) pendingGateway enabledMeanwhile).2
      (.step 1 (plainReading 10 "credential"))).2 = .issued "ticket" "w:m" "credential" := by
    decide
  refine always id pendingGateway _ _ _ _ _ _ _ rfl run last ?_
  have outputs : (feed (Gateway.step id) pendingGateway enabledMeanwhile).1.map Prod.snd =
      [.quiet, .quiet, .quiet, .quiet, .quiet, .quiet, .quiet, .quiet, .revoking "w:m",
        .switched "w:m" true, .quiet] ++ [.revoked "w:m"] := by
    decide
  rw [outputs]
  exact since_snoc.mpr (.inl rfl)

end PortHub.Api.PrivateEnrollment
