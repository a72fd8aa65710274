import PortHub.Api.PrivateEnrollment
import PortHub.Lib.Since

/-! # Credentials are issued once

The invariant of every interleaving. A redeemed ticket stays consumed and at most
one request holds it; the generation of a peer is the last one that an enrollment
gave it; a credential is there since it was issued and not revoked; and a revoked
peer is disabled until something enables it.
-/

namespace PortHub.Api.PrivateEnrollment

open Runs

namespace Output

/-- A credential for the peer was issued. -/
def Issues (peerId : String) (output : Output) : Prop :=
  ∃ key credential, output = .issued key peerId credential

def Revokes (peerId : String) (output : Output) : Prop := output = .revoking peerId

/-- An enrollment or a change enabled the peer. -/
def Enables (peerId : String) (output : Output) : Prop :=
  (∃ generation, output = .generated peerId generation) ∨ output = .switched peerId true

/-- An output that says nothing about peers or credentials. -/
def neutral : Output → Bool
  | .quiet => true
  | .refused _ => true
  | .enrolled _ _ _ => true
  | .pendingInstall _ => true
  | .revoked _ => true
  | .generated _ _ => false
  | .issued _ _ _ => false
  | .revoking _ => false
  | .switched _ _ => false

def generation? : Output → Option (String × String)
  | .generated peerId generation => some (peerId, generation)
  | _ => none

def credential? : Output → Option String
  | .issued _ _ credential => some credential
  | _ => none

end Output

/-- The generations that enrollments gave to peers, oldest first. -/
def generations (outputs : List Output) : List (String × String) :=
  outputs.filterMap Output.generation?

/-- The generations of one peer. -/
def generationsOf (peerId : String) (outputs : List Output) : List String :=
  (generations outputs).filterMap fun pair => if pair.1 = peerId then some pair.2 else none

/-- The credentials that were returned. -/
def credentials (outputs : List Output) : List String := outputs.filterMap Output.credential?

/-- The stored ticket is still the one that was read, consumed or not. -/
def Backed (store : Store) (key : String) (claim : Ticket) : Prop :=
  ∃ ticket, store.tickets.get? key = some ticket ∧ ticket.generation = claim.generation ∧
    ticket.peerId = claim.peerId

def Consumed (store : Store) (key : String) : Prop :=
  ∃ ticket, store.tickets.get? key = some ticket ∧ ticket.consumedAt.isSome = true

/-- Tickets are never removed or renewed. -/
def Ages (before after : Store) : Prop :=
  ∀ key ticket, before.tickets.get? key = some ticket → ∃ later, after.tickets.get? key = some later ∧
    later.generation = ticket.generation ∧ later.peerId = ticket.peerId ∧
    (ticket.consumedAt.isSome = true → later.consumedAt.isSome = true)

section Aging

variable {before after : Store} {key : String} {claim : Ticket}

theorem Ages.refl (store : Store) : Ages store store := fun _ ticket found =>
  ⟨ticket, found, rfl, rfl, id⟩

theorem Backed.ages (backed : Backed before key claim) (ages : Ages before after) :
    Backed after key claim := by
  obtain ⟨ticket, found, generation, peer⟩ := backed
  obtain ⟨later, there, sameGeneration, samePeer, _⟩ := ages key ticket found
  exact ⟨later, there, sameGeneration.trans generation, samePeer.trans peer⟩

theorem Consumed.ages (consumed : Consumed before key) (ages : Ages before after) :
    Consumed after key := by
  obtain ⟨ticket, found, gone⟩ := consumed
  obtain ⟨later, there, _, _, stays⟩ := ages key ticket found
  exact ⟨later, there, stays gone⟩

theorem consumeTickets_ages (store : Store) (peerId : String) (again : Bool) (now : Nat) :
    Ages store (store.consumeTickets peerId again now) := by
  intro key ticket found
  refine ⟨_, by rw [Store.consumeTickets, Dict.get?_map, found]; rfl, ?_⟩
  dsimp only
  split <;> simp

theorem insert_ages {store : Store} {ticket} (absent : store.tickets.contains key = false) :
    Ages store { store with tickets := store.tickets.insert key ticket } := by
  intro other old found
  have different : other ≠ key := by
    rintro rfl
    simp [Dict.contains, found] at absent
  exact ⟨old, by simpa [Dict.get?_insert_ne _ _ different] using found, rfl, rfl, id⟩

theorem take_ages {store : Store} {ticket} (now : Nat)
    (found : store.tickets.get? key = some ticket) :
    Ages store { store with
      tickets := store.tickets.insert key { ticket with consumedAt := some now } } := by
  intro other old there
  by_cases same : other = key
  · subst same
    obtain rfl := Option.mem_unique found there
    exact ⟨_, Dict.get?_insert_self _ _ _, rfl, rfl, fun _ => rfl⟩
  · exact ⟨old, by simpa [Dict.get?_insert_ne _ _ same] using there, rfl, rfl, id⟩

end Aging

/-- What is known about a request from where it stands. -/
def Fits (origin : Gateway) (outputs : List Output) (gateway : Gateway) (id : Nat) : Work → Prop
  | .enroll workspaceId machineId _ stage =>
      match stage with
      | .lock => True
      | .machine => gateway.locked = some id
      | .existing _ => gateway.locked = some id
      | .save _ generation _ | .completed _ generation _ =>
          gateway.locked = some id ∧ generation ∈ gateway.drawn ∧ generation ∉ origin.drawn ∧
            ∀ pair ∈ generations outputs, pair.2 ≠ generation
      | .consume generation | .insert generation _ _ | .respond generation _ =>
          gateway.locked = some id ∧
            (generationsOf (peerKey workspaceId machineId) outputs).getLast? = some generation
  | .pending _ _ _ => True
  | .bootstrap key stage =>
      match stage with
      | .claim => True
      | .peer claim => Backed gateway.store key claim
      | .issuer claim peer | .owner claim peer | .machine claim peer | .take claim peer =>
          Backed gateway.store key claim ∧ claim.generation = peer.enrollmentGeneration
      | .issue claim peer =>
          Backed gateway.store key claim ∧ claim.generation = peer.enrollmentGeneration ∧
            Consumed gateway.store key ∧ ∀ peerId credential, .issued key peerId credential ∉ outputs
  | .revoke _ _ _ _ => True

/-- The invariant of every run from `origin`. -/
structure Sound (digest : String → String) (origin : Gateway) (outputs : List Output)
    (gateway : Gateway) : Prop where
  drawn : ∀ token ∈ origin.drawn, token ∈ gateway.drawn
  fresh : ∀ pair ∈ generations outputs, pair.2 ∈ gateway.drawn ∧ pair.2 ∉ origin.drawn
  distinct : ((generations outputs).map Prod.snd).Nodup
  current : ∀ peerId generation, (generationsOf peerId outputs).getLast? = some generation →
    ∃ peer, gateway.store.peers.get? peerId = some peer ∧ peer.enrollmentGeneration = some generation
  enrolled : ∀ peerId generation ticket, .enrolled peerId generation ticket ∈ outputs →
    generation ∈ generationsOf peerId outputs
  returned : ∀ credential ∈ credentials outputs, credential ∈ gateway.drawn
  single : ((credentials outputs).map digest).Nodup
  hashes : ∀ peerId peer hash, gateway.store.peers.get? peerId = some peer →
    peer.credentialHash = some hash →
      (∃ old, origin.store.peers.get? peerId = some old ∧ old.credentialHash = some hash) ∨
      ∃ key credential, .issued key peerId credential ∈ outputs ∧ digest credential = hash
  held : ∀ peerId, Since (Output.Issues peerId) (Output.Revokes peerId) outputs →
    ∃ peer, gateway.store.peers.get? peerId = some peer ∧ peer.credentialHash.isSome = true
  disabled : ∀ peerId, Since (Output.Revokes peerId) (Output.Enables peerId) outputs →
    ∃ peer, gateway.store.peers.get? peerId = some peer ∧ peer.enabled = false
  used : ∀ key peerId credential, .issued key peerId credential ∈ outputs →
    Consumed gateway.store key
  works : ∀ id work, gateway.requests.get? id = some work → Fits origin outputs gateway id work
  alone : ∀ id other key claim peer claim' peer',
    gateway.requests.get? id = some (.bootstrap key (.issue claim peer)) →
    gateway.requests.get? other = some (.bootstrap key (.issue claim' peer')) → id = other

section Outputs

variable {outputs : List Output} {output : Output}

@[simp] theorem generations_snoc (outputs : List Output) (output : Output) :
    generations (outputs ++ [output]) = generations outputs ++ output.generation?.toList := by
  cases same : output.generation? <;> simp [generations, List.filterMap_append, same]

@[simp] theorem credentials_snoc (outputs : List Output) (output : Output) :
    credentials (outputs ++ [output]) = credentials outputs ++ output.credential?.toList := by
  cases same : output.credential? <;> simp [credentials, List.filterMap_append, same]

theorem neutral_generation (neutral : output.neutral = true) : output.generation? = none := by
  cases output <;> first | rfl | cases neutral

theorem neutral_credential (neutral : output.neutral = true) : output.credential? = none := by
  cases output <;> first | rfl | cases neutral

theorem generationsOf_neutral (peerId : String) (none : output.generation? = none) :
    generationsOf peerId (outputs ++ [output]) = generationsOf peerId outputs := by
  simp [generationsOf, none]

end Outputs

section Others

variable {origin : Gateway} {outputs : List Output} {gateway next : Gateway} {output : Output}
variable {id : Nat} {work : Work}

/-- What a step must leave to the requests that do not take it. -/
theorem Fits.other (fits : Fits origin outputs gateway id work)
    (ages : Ages gateway.store next.store) (locked : gateway.locked = some id → next.locked = some id)
    (drawn : ∀ token ∈ gateway.drawn, token ∈ next.drawn)
    (generated : gateway.locked = some id → output.generation? = none)
    (issued : ∀ key claim peer, work = .bootstrap key (.issue claim peer) →
      ∀ peerId credential, output ≠ .issued key peerId credential) :
    Fits origin (outputs ++ [output]) next id work := by
  cases work with
  | enroll workspaceId machineId userId stage =>
      cases stage with
      | lock => trivial
      | machine | existing => exact locked fits
      | save | completed =>
          obtain ⟨mine, known, fresh, apart⟩ := fits
          refine ⟨locked mine, drawn _ known, fresh, ?_⟩
          simpa [generated mine] using apart
      | consume | insert | respond =>
          obtain ⟨mine, last⟩ := fits
          exact ⟨locked mine, by rwa [generationsOf_neutral _ (generated mine)]⟩
  | pending => trivial
  | bootstrap key stage =>
      cases stage with
      | claim => trivial
      | peer => exact fits.ages ages
      | issuer | owner | machine | take => exact ⟨fits.1.ages ages, fits.2⟩
      | issue claim peer =>
          obtain ⟨backed, matching, consumed, unissued⟩ := fits
          refine ⟨backed.ages ages, matching, consumed.ages ages, fun peerId credential member => ?_⟩
          rcases mem_snoc.mp member with earlier | here
          · exact unissued peerId credential earlier
          · exact issued key claim peer rfl peerId credential here.symm
  | revoke => trivial

end Others

/-- The state behind one operation of a request. -/
def Gateway.settle (gateway : Gateway) (id : Nat) (token : String) (store : Store) :
    Option Work → Gateway
  | some work =>
      { gateway with
        store := store, drawn := token :: gateway.drawn, requests := gateway.requests.insert id work }
  | none => ({ gateway with store := store, drawn := token :: gateway.drawn } : Gateway).stop id

section Settling

variable {digest : String → String} {origin gateway : Gateway} {outputs : List Output}
variable {id : Nat} {token : String} {store : Store} {next : Option Work} {output : Output}

@[simp] theorem settle_store : (gateway.settle id token store next).store = store := by
  cases next <;> rfl

@[simp] theorem settle_drawn : (gateway.settle id token store next).drawn = token :: gateway.drawn := by
  cases next <;> rfl

theorem settle_own : (gateway.settle id token store next).requests.get? id = next := by
  cases next <;> simp [Gateway.settle, Gateway.stop]

theorem settle_other {other} (different : other ≠ id) :
    (gateway.settle id token store next).requests.get? other = gateway.requests.get? other := by
  cases next <;> simp [Gateway.settle, Gateway.stop, different]

theorem settle_locked {other} (different : other ≠ id) (mine : gateway.locked = some other) :
    (gateway.settle id token store next).locked = some other := by
  cases next with
  | none =>
      simp [Gateway.settle, Gateway.stop, mine, different]
  | some work => exact mine

/-- No two requests hold one ticket. -/
abbrev Alone (gateway : Gateway) : Prop :=
  ∀ first second key claim peer claim' peer',
    gateway.requests.get? first = some (.bootstrap key (.issue claim peer)) →
    gateway.requests.get? second = some (.bootstrap key (.issue claim' peer')) → first = second

/-- What a request leaves to the others. -/
structure Spares (gateway : Gateway) (id : Nat) (store : Store) (output : Output) : Prop where
  ages : Ages gateway.store store
  generated : output.generation? ≠ none → gateway.locked = some id
  issued : ∀ key peerId credential, output = .issued key peerId credential →
    ∃ claim peer, gateway.requests.get? id = some (.bootstrap key (.issue claim peer))

theorem Spares.works (spares : Spares gateway id store output)
    (sound : Sound digest origin outputs gateway)
    (own : ∀ work, next = some work →
      Fits origin (outputs ++ [output]) (gateway.settle id token store next) id work) :
    ∀ other work, (gateway.settle id token store next).requests.get? other = some work →
      Fits origin (outputs ++ [output]) (gateway.settle id token store next) other work := by
  intro other work found
  by_cases same : other = id
  · subst same
    rw [settle_own] at found
    exact own work found
  · rw [settle_other same] at found
    refine (sound.works other work found).other ?_ (settle_locked same) ?_ ?_ ?_
    · rw [settle_store]
      exact spares.ages
    · intro drawn member
      rw [settle_drawn]
      exact List.mem_cons_of_mem _ member
    · intro mine
      by_contra some
      exact same (Option.some.inj (mine.symm.trans (spares.generated some)))
    · rintro key claim peer rfl peerId credential issues
      obtain ⟨claim', peer', holds⟩ := spares.issued key peerId credential issues
      exact same (sound.alone other id key claim peer claim' peer' found holds)

theorem settle_alone (sound : Sound digest origin outputs gateway)
    (own : ∀ key claim peer, next = some (.bootstrap key (.issue claim peer)) →
      ¬ Consumed gateway.store key) :
    Alone (gateway.settle id token store next) := by
  have clash {other : Nat} {key : String} {claim claim' : Ticket} {peer peer' : Peer}
      (mine : next = some (.bootstrap key (.issue claim peer)))
      (theirs : gateway.requests.get? other = some (.bootstrap key (.issue claim' peer'))) : False :=
    own key claim peer mine (sound.works other _ theirs).2.2.1
  intro first second key claim peer claim' peer' one two
  by_cases left : first = id <;> by_cases right : second = id
  · rw [left, right]
  · subst left
    rw [settle_own] at one
    rw [settle_other right] at two
    exact (clash one two).elim
  · subst right
    rw [settle_own] at two
    rw [settle_other left] at one
    exact (clash two one).elim
  · rw [settle_other left] at one
    rw [settle_other right] at two
    exact sound.alone first second key claim peer claim' peer' one two

theorem since_neutral {started ended : Output → Prop} (still : ¬ started output)
    (since : Since started ended (outputs ++ [output])) : Since started ended outputs :=
  ((since_snoc.mp since).resolve_left still).1

theorem Sound.fresh_snoc (sound : Sound digest origin outputs gateway) {drawn : List String}
    (none : output.generation? = none) (known : ∀ token ∈ gateway.drawn, token ∈ drawn) :
    ∀ pair ∈ generations (outputs ++ [output]), pair.2 ∈ drawn ∧ pair.2 ∉ origin.drawn := by
  intro pair member
  rw [generations_snoc, none, Option.toList_none, List.append_nil] at member
  exact (sound.fresh pair member).imp_left (known _)

/-- A peer that is written keeps the generation of its last enrollment. -/
theorem Sound.current_snoc (sound : Sound digest origin outputs gateway) {peerId peer} {written : Peer}
    (there : gateway.store.peers.get? peerId = some peer) (none : output.generation? = none)
    (kept : written.enrollmentGeneration = peer.enrollmentGeneration) :
    ∀ other generation, (generationsOf other (outputs ++ [output])).getLast? = some generation →
      if other = peerId then written.enrollmentGeneration = some generation
      else (generationsOf other outputs).getLast? = some generation := by
  intro other last given
  rw [generationsOf_neutral other none] at given
  split
  · rename_i same
    obtain ⟨old, known, generation⟩ := sound.current other last given
    rw [same, there] at known
    cases known
    exact kept.trans generation
  · exact given

/-- An operation that changes no peer. -/
theorem Sound.neutrally (sound : Sound digest origin outputs gateway) {after : Gateway}
    (neutral : output.neutral = true) (peers : after.store.peers = gateway.store.peers)
    (ages : Ages gateway.store after.store) (drawn : ∀ token ∈ gateway.drawn, token ∈ after.drawn)
    (enrolled : ∀ peerId generation ticket, output = .enrolled peerId generation ticket →
      generation ∈ generationsOf peerId outputs)
    (works : ∀ other work, after.requests.get? other = some work →
      Fits origin (outputs ++ [output]) after other work)
    (alone : Alone after) :
    Sound digest origin (outputs ++ [output]) after := by
  have generation := neutral_generation neutral
  have credential := neutral_credential neutral
  have earlier {o : Output} (member : o ∈ outputs ++ [output]) (other : o ≠ output) : o ∈ outputs := by
    rcases mem_snoc.mp member with earlier | here
    · exact earlier
    · exact absurd here other
  constructor
  case drawn => exact fun other member => drawn other (sound.drawn other member)
  case fresh => exact sound.fresh_snoc generation drawn
  case distinct => simpa [generation] using sound.distinct
  case current =>
    intro peerId other last
    rw [generationsOf_neutral _ generation] at last
    rw [peers]
    exact sound.current peerId other last
  case enrolled =>
    intro peerId other ticket member
    rw [generationsOf_neutral _ generation]
    by_cases same : (.enrolled peerId other ticket) = output
    · exact enrolled peerId other ticket same.symm
    · exact sound.enrolled peerId other ticket (earlier member same)
  case returned =>
    intro other member
    rw [credentials_snoc, credential, Option.toList_none, List.append_nil] at member
    exact drawn _ (sound.returned other member)
  case single => simpa [credential] using sound.single
  case hashes =>
    intro peerId peer hash found stored
    rw [peers] at found
    refine (sound.hashes peerId peer hash found stored).imp_right ?_
    rintro ⟨key, other, member, same⟩
    exact ⟨key, other, List.mem_append_left _ member, same⟩
  case held =>
    intro peerId since
    rw [peers]
    refine sound.held peerId (since_neutral ?_ since)
    rintro ⟨key, other, rfl⟩
    cases neutral
  case disabled =>
    intro peerId since
    rw [peers]
    refine sound.disabled peerId (since_neutral ?_ since)
    rintro rfl
    cases neutral
  case used =>
    intro key peerId other member
    refine (sound.used key peerId other (earlier member ?_)).ages ages
    rintro rfl
    cases neutral
  case works => exact works
  case alone => exact alone

/-- A request takes an operation that changes no peer. -/
theorem Sound.settled (sound : Sound digest origin outputs gateway) (neutral : output.neutral = true)
    (peers : store.peers = gateway.store.peers) (ages : Ages gateway.store store)
    (enrolled : ∀ peerId generation ticket, output = .enrolled peerId generation ticket →
      generation ∈ generationsOf peerId outputs)
    (own : ∀ work, next = some work →
      Fits origin (outputs ++ [output]) (gateway.settle id token store next) id work)
    (single : ∀ key claim peer, next = some (.bootstrap key (.issue claim peer)) →
      ¬ Consumed gateway.store key) :
    Sound digest origin (outputs ++ [output]) (gateway.settle id token store next) := by
  refine sound.neutrally neutral ?_ ?_ ?_ enrolled ?_ (settle_alone sound single)
  · rwa [settle_store]
  · rwa [settle_store]
  · intro other member
    rw [settle_drawn]
    exact List.mem_cons_of_mem _ member
  · refine Spares.works ⟨ages, ?_, ?_⟩ sound own
    · intro some
      exact absurd (neutral_generation neutral) some
    · rintro key peerId other rfl
      cases neutral

/-- An operation that writes one peer and no ticket. -/
theorem Sound.changed (sound : Sound digest origin outputs gateway) {after : Gateway} (peerId : String)
    (peer : Peer) (peers : after.store.peers = gateway.store.peers.insert peerId peer)
    (drawn : ∀ token ∈ gateway.drawn, token ∈ after.drawn)
    (unenrolled : ∀ peerId generation ticket, output ≠ .enrolled peerId generation ticket)
    (fresh : ∀ pair ∈ generations (outputs ++ [output]), pair.2 ∈ after.drawn ∧ pair.2 ∉ origin.drawn)
    (distinct : ((generations (outputs ++ [output])).map Prod.snd).Nodup)
    (current : ∀ other generation, (generationsOf other (outputs ++ [output])).getLast? = some generation →
      if other = peerId then peer.enrollmentGeneration = some generation
      else (generationsOf other outputs).getLast? = some generation)
    (returned : ∀ credential ∈ credentials (outputs ++ [output]), credential ∈ after.drawn)
    (single : ((credentials (outputs ++ [output])).map digest).Nodup)
    (hashes : ∀ hash, peer.credentialHash = some hash →
      (∃ old, origin.store.peers.get? peerId = some old ∧ old.credentialHash = some hash) ∨
      ∃ key credential, .issued key peerId credential ∈ outputs ++ [output] ∧ digest credential = hash)
    (held : Since (Output.Issues peerId) (Output.Revokes peerId) (outputs ++ [output]) →
      peer.credentialHash.isSome = true)
    (heldOther : ∀ other, other ≠ peerId → ¬ output.Issues other)
    (disabled : Since (Output.Revokes peerId) (Output.Enables peerId) (outputs ++ [output]) →
      peer.enabled = false)
    (disabledOther : ∀ other, other ≠ peerId → ¬ output.Revokes other)
    (used : ∀ key peerId credential, .issued key peerId credential ∈ outputs ++ [output] →
      Consumed after.store key)
    (works : ∀ other work, after.requests.get? other = some work →
      Fits origin (outputs ++ [output]) after other work)
    (alone : Alone after) :
    Sound digest origin (outputs ++ [output]) after := by
  have self : after.store.peers.get? peerId = some peer := by
    rw [peers, Dict.get?_insert_self]
  have others {other : String} (different : other ≠ peerId) :
      after.store.peers.get? other = gateway.store.peers.get? other := by
    rw [peers, Dict.get?_insert_ne _ _ different]
  constructor
  case drawn => exact fun other member => drawn other (sound.drawn other member)
  case fresh => exact fresh
  case distinct => exact distinct
  case current =>
    intro other generation last
    have known := current other generation last
    split at known
    · rename_i same
      exact ⟨peer, same ▸ self, known⟩
    · rename_i different
      rw [others different]
      exact sound.current other generation known
  case enrolled =>
    intro other generation ticket member
    rcases mem_snoc.mp member with earlier | here
    · have known := sound.enrolled other generation ticket earlier
      rw [generationsOf, generations_snoc, List.filterMap_append]
      exact List.mem_append_left _ known
    · exact absurd here.symm (unenrolled _ _ _)
  case returned => exact returned
  case single => exact single
  case hashes =>
    intro other record hash found stored
    by_cases same : other = peerId
    · subst same
      obtain rfl := Option.mem_unique self found
      exact hashes hash stored
    · rw [others same] at found
      refine (sound.hashes other record hash found stored).imp_right ?_
      rintro ⟨key, credential, member, equal⟩
      exact ⟨key, credential, List.mem_append_left _ member, equal⟩
  case held =>
    intro other since
    by_cases same : other = peerId
    · subst same
      exact ⟨peer, self, held since⟩
    · rw [others same]
      exact sound.held other (since_neutral (heldOther other same) since)
  case disabled =>
    intro other since
    by_cases same : other = peerId
    · subst same
      exact ⟨peer, self, disabled since⟩
    · rw [others same]
      exact sound.disabled other (since_neutral (disabledOther other same) since)
  case used => exact used
  case works => exact works
  case alone => exact alone

theorem mem_settle_drawn {other} (member : other ∈ gateway.drawn) :
    other ∈ (gateway.settle id token store next).drawn := by
  rw [settle_drawn]
  exact List.mem_cons_of_mem _ member

theorem generationsOf_snoc (peerId : String) (outputs : List Output) (output : Output) :
    generationsOf peerId (outputs ++ [output]) = generationsOf peerId outputs ++
      output.generation?.toList.filterMap fun pair => if pair.1 = peerId then some pair.2 else none := by
  simp [generationsOf]

section

variable (sound : Sound digest origin outputs gateway)

include sound

/-- An enrollment saves its peer under a generation of its own. -/
theorem Sound.generate
    {workspaceId machineId userId ownerId generation rounds} (fits : Fits origin outputs gateway id
      (.enroll workspaceId machineId userId (.save ownerId generation rounds)))
    (free : ((gateway.store.peers.get? (peerKey workspaceId machineId)).any fun peer =>
      peer.credentialHash.isSome) = false) {peer : Peer}
    (named : peer.enrollmentGeneration = some generation) (bare : peer.credentialHash = none) :
    Sound digest origin (outputs ++ [.generated (peerKey workspaceId machineId) generation])
      (gateway.settle id token
        { gateway.store with peers := gateway.store.peers.insert (peerKey workspaceId machineId) peer }
        (some (.enroll workspaceId machineId userId (.consume generation)))) := by
  obtain ⟨mine, known, unknown, apart⟩ := fits
  have stays : Ages gateway.store { gateway.store with
      peers := gateway.store.peers.insert (peerKey workspaceId machineId) peer } := .refl _
  apply sound.changed (peerKey workspaceId machineId) peer
  case peers => rw [settle_store]
  case drawn => exact fun _ => mem_settle_drawn
  case unenrolled => simp
  case fresh =>
    intro pair member
    rw [generations_snoc] at member
    rcases mem_snoc.mp member with earlier | rfl
    · exact ⟨mem_settle_drawn (sound.fresh pair earlier).1, (sound.fresh pair earlier).2⟩
    · exact ⟨mem_settle_drawn known, unknown⟩
  case distinct =>
    rw [generations_snoc, List.map_append, List.nodup_append]
    refine ⟨sound.distinct, by simp [Output.generation?], ?_⟩
    intro other member same here
    obtain ⟨pair, inside, rfl⟩ := List.mem_map.mp member
    obtain rfl : same = generation := by simpa [Output.generation?] using here
    exact apart pair inside
  case current =>
    intro other last given
    rw [generationsOf_snoc] at given
    by_cases same : other = peerKey workspaceId machineId
    · rw [if_pos same]
      have newest : generation = last := by simpa [Output.generation?, same] using given
      rw [← newest]
      exact named
    · rw [if_neg same]
      simpa [Output.generation?, Ne.symm same] using given
  case returned =>
    intro credential member
    exact mem_settle_drawn (sound.returned credential (by simpa [Output.credential?] using member))
  case single => simpa [Output.credential?] using sound.single
  case hashes => simp [bare]
  case held =>
    intro since
    have before := since_neutral (by simp [Output.Issues]) since
    obtain ⟨old, found, stored⟩ := sound.held _ before
    simp [found, stored] at free
  case heldOther => simp [Output.Issues]
  case disabled =>
    intro since
    rcases since_snoc.mp since with started | ⟨_, calm⟩
    · simp [Output.Revokes] at started
    · exact absurd (.inl ⟨generation, rfl⟩) calm
  case disabledOther => simp [Output.Revokes]
  case used =>
    intro key other credential member
    rw [settle_store]
    exact (sound.used key other credential (by simpa using member)).ages stays
  case works =>
    refine Spares.works ⟨stays, fun _ => mine, by simp⟩ sound ?_
    rintro work ⟨⟩
    refine ⟨mine, ?_⟩
    rw [generationsOf_snoc]
    simp [Output.generation?]
  case alone => exact settle_alone sound (by simp)

/-- A redeemed ticket gives its peer a credential that was not there. -/
theorem Sound.issue {key claim peer current}
    (found : gateway.requests.get? id = some (.bootstrap key (.issue claim peer)))
    (there : gateway.store.peers.get? claim.peerId = some current)
    (enabled : current.enabled = true) (fresh : digest token ∉ gateway.drawn.map digest) :
    Sound digest origin (outputs ++ [.issued key claim.peerId token])
      (gateway.settle id token
        { gateway.store with
          peers := gateway.store.peers.insert claim.peerId
            { current with credentialHash := some (digest token) } } none) := by
  have fits := sound.works id _ found
  have stays : Ages gateway.store
      { gateway.store with
        peers := gateway.store.peers.insert claim.peerId
          { current with credentialHash := some (digest token) } } := .refl _
  apply sound.changed claim.peerId { current with credentialHash := some (digest token) }
  case peers => rw [settle_store]
  case drawn => exact fun _ => mem_settle_drawn
  case unenrolled => simp
  case fresh => exact sound.fresh_snoc rfl fun _ => mem_settle_drawn
  case distinct => simpa [Output.generation?] using sound.distinct
  case current => exact sound.current_snoc there rfl rfl
  case returned =>
    intro credential member
    rw [credentials_snoc] at member
    rcases List.mem_append.mp member with earlier | here
    · exact mem_settle_drawn (sound.returned credential earlier)
    · obtain rfl : credential = token := by simpa [Output.credential?] using here
      rw [settle_drawn]
      exact List.mem_cons_self
  case single =>
    rw [credentials_snoc, List.map_append, List.nodup_append]
    refine ⟨sound.single, by simp [Output.credential?], ?_⟩
    rintro other member same here rfl
    obtain ⟨credential, inside, equal⟩ := List.mem_map.mp member
    have last : other = digest token := by simpa [Output.credential?] using here
    refine fresh (List.mem_map.mpr ⟨credential, sound.returned credential inside, ?_⟩)
    rw [equal, last]
  case hashes =>
    intro hash stored
    refine .inr ⟨key, token, List.mem_append_right _ (List.mem_singleton_self _), ?_⟩
    simpa using stored
  case held => simp
  case heldOther =>
    rintro other different ⟨_, _, same⟩
    exact different (Output.issued.inj same).2.1.symm
  case disabled =>
    intro since
    obtain ⟨old, known, off⟩ := sound.disabled _ (since_neutral (by simp [Output.Revokes]) since)
    rw [there] at known
    cases known
    simp [enabled] at off
  case disabledOther => simp [Output.Revokes]
  case used =>
    intro other peerId credential member
    rw [settle_store]
    rcases mem_snoc.mp member with earlier | here
    · exact (sound.used other peerId credential earlier).ages stays
    · obtain ⟨rfl, _, _⟩ := Output.issued.inj here
      exact fits.2.2.1.ages stays
  case works =>
    refine Spares.works ⟨stays, by simp [Output.generation?], ?_⟩ sound (by simp)
    intro other peerId credential same
    obtain ⟨rfl, _, _⟩ := Output.issued.inj same
    exact ⟨claim, peer, found⟩
  case alone => exact settle_alone sound (by simp)

/-- A revocation disables the peer and removes its credential. -/
theorem Sound.revoke {peerId peer}
    (there : gateway.store.peers.get? peerId = some peer)
    (fits : ∀ work, next = some work → ∀ outputs gateway, Fits origin outputs gateway id work)
    (single : ∀ key claim peer, next ≠ some (.bootstrap key (.issue claim peer))) :
    Sound digest origin (outputs ++ [.revoking peerId])
      (gateway.settle id token
        { gateway.store with
          peers := gateway.store.peers.insert peerId
            { peer with enabled := false, credentialHash := none } } next) := by
  have stays : Ages gateway.store
      { gateway.store with
        peers := gateway.store.peers.insert peerId
          { peer with enabled := false, credentialHash := none } } := .refl _
  apply sound.changed peerId { peer with enabled := false, credentialHash := none }
  case peers => rw [settle_store]
  case drawn => exact fun _ => mem_settle_drawn
  case unenrolled => simp
  case fresh => exact sound.fresh_snoc rfl fun _ => mem_settle_drawn
  case distinct => simpa [Output.generation?] using sound.distinct
  case current => exact sound.current_snoc there rfl rfl
  case returned =>
    intro credential member
    exact mem_settle_drawn (sound.returned credential (by simpa [Output.credential?] using member))
  case single => simpa [Output.credential?] using sound.single
  case hashes => simp
  case held =>
    intro since
    rcases since_snoc.mp since with started | ⟨_, calm⟩
    · simp [Output.Issues] at started
    · exact absurd rfl calm
  case heldOther => simp [Output.Issues]
  case disabled => simp
  case disabledOther =>
    rintro other different same
    exact different (Output.revoking.inj same).symm
  case used =>
    intro key other credential member
    rw [settle_store]
    exact (sound.used key other credential (by simpa using member)).ages stays
  case works =>
    exact Spares.works ⟨stays, by simp [Output.generation?], by simp⟩ sound
      fun work given => fits work given _ _
  case alone => exact settle_alone sound fun key claim peer given => absurd given (single key claim peer)

/-- A change enables or disables the peer and nothing else. -/
theorem Sound.switch {peerId peer}
    (there : gateway.store.peers.get? peerId = some peer) (enabled : Bool) :
    Sound digest origin (outputs ++ [.switched peerId enabled])
      { gateway with
        store := { gateway.store with
          peers := gateway.store.peers.insert peerId { peer with enabled := enabled } } } := by
  apply sound.changed peerId { peer with enabled := enabled }
  case peers => rfl
  case drawn => exact fun _ member => member
  case unenrolled => simp
  case fresh => exact sound.fresh_snoc rfl fun _ => id
  case distinct => simpa [Output.generation?] using sound.distinct
  case current => exact sound.current_snoc there rfl rfl
  case returned =>
    intro credential member
    exact sound.returned credential (by simpa [Output.credential?] using member)
  case single => simpa [Output.credential?] using sound.single
  case hashes =>
    intro hash stored
    refine (sound.hashes peerId peer hash there stored).imp_right ?_
    rintro ⟨key, credential, member, same⟩
    exact ⟨key, credential, List.mem_append_left _ member, same⟩
  case held =>
    intro since
    obtain ⟨old, known, stored⟩ := sound.held _ (since_neutral (by simp [Output.Issues]) since)
    rw [there] at known
    cases known
    exact stored
  case heldOther => simp [Output.Issues]
  case disabled =>
    intro since
    rcases since_snoc.mp since with started | ⟨_, calm⟩
    · simp [Output.Revokes] at started
    · cases enabled with
      | false => rfl
      | true => exact absurd (.inr rfl) calm
  case disabledOther => simp [Output.Revokes]
  case used =>
    intro key other credential member
    exact sound.used key other credential (by simpa using member)
  case works =>
    intro other work found
    exact (sound.works other work found).other (.refl _) id (fun _ => id) (fun _ => rfl) (by simp)
  case alone => exact sound.alone

end

end Settling

end PortHub.Api.PrivateEnrollment
