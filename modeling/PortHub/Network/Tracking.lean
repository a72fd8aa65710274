import PortHub.Lib.Dict
import PortHub.Lib.Runs
import PortHub.Network.Packet

/-! # Connection tracking

`trackPacket` looks for a conversation first under the packet's own tuple and
then under the reversed one, and opens a new entry only when both rounds leave
the decision open. `Tracks` says everything one call can do; the invariants of
the tables are derived from it and never unfold the code again.
-/

namespace PortHub.Network

/-- One tracked conversation, keyed in its table by the tuple of `opening`. -/
structure Flow where
  remote : String
  expires : Nat
  opening : Packet
  phase : Nat
  finDirections : Nat
  closeUntil : Option Nat
  deriving DecidableEq, Repr

abbrev Flows := Dict Key Flow

/-- `TCP_ESTABLISHED_TTL`. -/
def tcpEstablishedTtl : Nat := seconds (5 * 24 * 60 * 60)

def ttl (protocol : UInt8) : Nat := seconds (if protocol = 6 then 300 else 30)

namespace Flow

/-- The entry inserted for an accepted opening packet. -/
def fresh (packet : Packet) (remote : String) (now : Nat) : Flow where
  remote := remote
  expires := now + ttl packet.key.protocol
  opening := packet
  phase := 0
  finDirections := 0
  closeUntil := none

/-- The TCP handshake phase after a packet, or nothing when it is refused. -/
def nextPhase (flow : Flow) (packet : Packet) (reply : Bool) : Option Nat :=
  if flow.phase = 0 then
    if reply then (if !packet.syn || !packet.ack then none else some 1)
    else if !packet.syn || packet.ack then none
    else some 0
  else if flow.phase = 1 then
    if !reply && packet.ack && !packet.syn then some 2
    else if !(reply && packet.syn && packet.ack) then none
    else some 1
  else some flow.phase

/-- Record a FIN of a TCP packet; the second direction starts the close timer. -/
def finish (flow : Flow) (packet : Packet) (reply : Bool) (now : Nat) : Flow :=
  if packet.key.protocol == 6 && packet.fin then
    let directions := flow.finDirections ||| (if reply then 2 else 1)
    { flow with
      finDirections := directions
      closeUntil :=
        if directions = 3 then some (flow.closeUntil.getD (now + seconds 120)) else flow.closeUntil }
  else flow

/-- Extend the lifetime, never beyond the close timer. -/
def extend (flow : Flow) (protocol : UInt8) (now : Nat) : Flow :=
  let expires := now + if protocol == 6 && flow.phase == 2 then tcpEstablishedTtl else ttl protocol
  { flow with
    expires :=
      match flow.closeUntil with
      | some limit => min expires limit
      | none => expires }

/-- A packet of the conversation in phase `phase`. -/
def refresh (flow : Flow) (packet : Packet) (reply : Bool) (phase : Nat) (now : Nat) : Flow :=
  (({ flow with phase := phase }).finish packet reply now).extend packet.key.protocol now

def accept (flow : Flow) (packet : Packet) (reply : Bool) (now : Nat) : Option Flow :=
  if packet.key.protocol == 6 then
    (flow.nextPhase packet reply).map fun phase => flow.refresh packet reply phase now
  else some (flow.refresh packet reply flow.phase now)

end Flow

/-- How one round of the candidate loop ends. -/
inductive Round where
  /-- No entry: try the next candidate. -/
  | next
  /-- `break`: leave the loop and try to open an entry. -/
  | leave
  /-- `return`. -/
  | answer (accepted : Bool)
  deriving DecidableEq, Repr

/-- The entry under `candidate` after an expired one is dropped, and one that
    an authorized new opening supersedes. -/
def purge (flows : Flows) (packet : Packet) (mayOpen : Bool) (now : Nat) (candidate : Key) :
    Flows :=
  let flows :=
    if (flows.get? candidate).any (fun flow => flow.expires ≤ now) then flows.erase candidate
    else flows
  if mayOpen && candidate == packet.key && packet.openingSequence.isSome
      && (flows.get? candidate).any (fun flow =>
        flow.opening.openingSequence != packet.openingSequence || flow.closeUntil.isSome) then
    flows.erase candidate
  else flows

/-- The decision for a packet that belongs to an existing entry. -/
def decideFlow (flows : Flows) (packet : Packet) (remote : String) (now : Nat)
    (candidate : Key) (flow : Flow) : Flows × Round :=
  if flow.remote ≠ remote then (flows, .answer false)
  else
    let reply := candidate != packet.key
    if packet.key.protocol == 1
        && ((reply && packet.icmpType != 0) || (!reply && packet.icmpType != 8)) then
      (flows, .answer false)
    else if packet.key.protocol == 6 && packet.rst then (flows.erase candidate, .answer true)
    else if packet.key.protocol == 6 && reply && packet.syn && !packet.ack then (flows, .leave)
    else
      match flow.accept packet reply now with
      | none => (flows, .answer false)
      | some flow => (flows.insert candidate flow, .answer true)

/-- One round of the loop over the tuple and its reverse. -/
def trackCandidate (flows : Flows) (packet : Packet) (remote : String) (mayOpen : Bool)
    (now : Nat) (candidate : Key) : Flows × Round :=
  let flows := purge flows packet mayOpen now candidate
  match flows.get? candidate with
  | none => (flows, .next)
  | some flow => decideFlow flows packet remote now candidate flow

/-- A packet that may open an entry: a pure TCP SYN, an ICMP echo request, or
    any packet of another protocol. -/
def Packet.opens (packet : Packet) : Bool :=
  !((packet.key.protocol == 6 && (!packet.syn || packet.ack || packet.rst || packet.fin))
    || (packet.key.protocol == 1 && packet.icmpType != 8))

/-- Most entries a table holds. -/
def flowLimit : Nat := 65536

/-- Behind the loop: open an entry if the policy and the table size allow it. -/
def openFlow (flows : Flows) (packet : Packet) (remote : String) (mayOpen : Bool)
    (now : Nat) : Flows × Bool :=
  if !mayOpen || !packet.opens then (flows, false)
  else if flows.len ≥ flowLimit then
    let flows := flows.retain fun _ flow => now < flow.expires
    if flows.len ≥ flowLimit then (flows, false)
    else (flows.insert packet.key (.fresh packet remote now), true)
  else (flows.insert packet.key (.fresh packet remote now), true)

/-- `track_packet`. -/
def trackPacket (flows : Flows) (packet : Packet) (remote : String) (mayOpen : Bool)
    (now : Nat) : Flows × Bool :=
  match trackCandidate flows packet remote mayOpen now packet.key with
  | (flows, .answer accepted) => (flows, accepted)
  | (flows, .leave) => openFlow flows packet remote mayOpen now
  | (flows, .next) =>
      match trackCandidate flows packet remote mayOpen now packet.key.reverse with
      | (flows, .answer accepted) => (flows, accepted)
      | (flows, _) => openFlow flows packet remote mayOpen now

/-- A purge drops this entry: it has expired, or an authorized opening with
    another sequence, or after a close, takes its tuple over. -/
def Flow.outdated (flow : Flow) (packet : Packet) (mayOpen : Bool) (now : Nat)
    (candidate : Key) : Bool :=
  decide (flow.expires ≤ now) || (mayOpen && candidate == packet.key
    && packet.openingSequence.isSome
    && (flow.opening.openingSequence != packet.openingSequence || flow.closeUntil.isSome))

section Purge

variable (flows : Flows) (packet : Packet) (mayOpen : Bool) (now : Nat) (candidate : Key)

theorem purge_eq : purge flows packet mayOpen now candidate =
    if (flows.get? candidate).any (fun flow => flow.outdated packet mayOpen now candidate) then
      flows.erase candidate
    else flows := by
  unfold purge
  cases found : flows.get? candidate with
  | none => simp [found]
  | some flow => by_cases expired : flow.expires ≤ now <;> simp [found, expired, Flow.outdated]

theorem get?_purge_self : (purge flows packet mayOpen now candidate).get? candidate =
    (flows.get? candidate).filter fun flow => !flow.outdated packet mayOpen now candidate := by
  rw [purge_eq]
  cases found : flows.get? candidate with
  | none => simp [found]
  | some flow =>
      cases outdated : flow.outdated packet mayOpen now candidate <;>
        simp [found, outdated, Option.filter]

theorem get?_purge_ne {key} (different : key ≠ candidate) :
    (purge flows packet mayOpen now candidate).get? key = flows.get? key := by
  rw [purge_eq]
  split
  · exact Dict.get?_erase_ne flows different
  · rfl

theorem purge_sub : (purge flows packet mayOpen now candidate).Sub flows := by
  rw [purge_eq]
  split
  · exact Dict.erase_sub flows candidate
  · exact .refl flows

end Purge

/-- Away from the touched tuples, a table change drops expired entries only. -/
def Preserves (flows after : Flows) (now : Nat) (touched : Key → Prop) : Prop :=
  ∀ key flow, ¬ touched key → flows.get? key = some flow → now < flow.expires →
    after.get? key = some flow

theorem Preserves.trans {flows between after now} {touched further : Key → Prop}
    (first : Preserves flows between now touched) (second : Preserves between after now further)
    (covers : ∀ key, touched key → further key) : Preserves flows after now further :=
  fun key flow outside found live =>
    second key flow outside (first key flow (fun inside => outside (covers key inside)) found live)
      live

theorem purge_preserves (flows : Flows) (packet : Packet) (mayOpen : Bool) (now : Nat)
    (candidate : Key) :
    Preserves flows (purge flows packet mayOpen now candidate) now (· = packet.key) := by
  intro key flow outside found live
  by_cases same : key = candidate
  · subst same
    have current : flow.outdated packet mayOpen now key = false := by
      simp [Flow.outdated, outside, live]
    simp [get?_purge_self, found, current, Option.filter]
  · rw [get?_purge_ne _ _ _ _ _ same]
    exact found

theorem erase_preserves (flows : Flows) (now : Nat) (candidate : Key) :
    Preserves flows (flows.erase candidate) now (· = candidate) := by
  intro key flow outside found _
  rw [Dict.get?_erase_ne _ outside]
  exact found

theorem insert_preserves (flows : Flows) (now : Nat) (candidate : Key) (entry : Flow) :
    Preserves flows (flows.insert candidate entry) now (· = candidate) := by
  intro key flow outside found _
  rw [Dict.get?_insert_ne _ _ outside]
  exact found

theorem retain_preserves (flows : Flows) (now : Nat) :
    Preserves flows (flows.retain fun _ flow => now < flow.expires) now (fun _ => False) :=
  fun _ _ _ found live => Dict.get?_retain_eq_some.mpr ⟨found, by simpa using live⟩

/-- A live entry under the packet's tuple or its reverse, bound to the remote
    the packet came from. -/
structure Belongs (flows : Flows) (packet : Packet) (remote : String) (mayOpen : Bool)
    (now : Nat) (candidate : Key) (flow : Flow) : Prop where
  tuple : candidate = packet.key ∨ candidate = packet.key.reverse
  found : flows.get? candidate = some flow
  live : flow.outdated packet mayOpen now candidate = false
  bound : flow.remote = remote

theorem Belongs.unexpired {flows packet remote mayOpen now candidate flow}
    (own : Belongs flows packet remote mayOpen now candidate flow) : now < flow.expires := by
  have live := own.live
  simp only [Flow.outdated, Bool.or_eq_false_iff, decide_eq_false_iff_not] at live
  exact Nat.lt_of_not_le live.1

/-- A TCP SYN without ACK seen in the direction opposite to the entry. -/
def Packet.crosses (packet : Packet) (candidate : Key) : Bool :=
  packet.key.protocol == 6 && candidate != packet.key && packet.syn && !packet.ack

/-- Everything one call of `trackPacket` can do to a table. -/
inductive Tracks (flows : Flows) (packet : Packet) (remote : String) (mayOpen : Bool)
    (now : Nat) : Flows → Bool → Prop where
  | refused {after} (kept : after.Sub flows)
      (preserved : Preserves flows after now (· = packet.key)) :
      Tracks flows packet remote mayOpen now after false
  | reset {after candidate flow} (own : Belongs flows packet remote mayOpen now candidate flow)
      (tcp : packet.key.protocol = 6) (rst : packet.rst = true) (kept : after.Sub flows)
      (preserved : Preserves flows after now fun key => key = packet.key ∨ key = candidate) :
      Tracks flows packet remote mayOpen now after true
  | refreshed {after candidate flow next}
      (own : Belongs flows packet remote mayOpen now candidate flow)
      (straight : packet.crosses candidate = false)
      (accepted : flow.accept packet (candidate != packet.key) now = some next)
      (bound : after.get? candidate = some next)
      (alone : candidate ≠ packet.key → after.get? packet.key = none)
      (kept : ∀ key other, key ≠ candidate → after.get? key = some other →
        flows.get? key = some other)
      (preserved : Preserves flows after now fun key => key = packet.key ∨ key = candidate) :
      Tracks flows packet remote mayOpen now after true
  | opened {after} (allowed : mayOpen = true) (opens : packet.opens = true)
      (superseded : ∀ flow, flows.get? packet.key = some flow →
        flow.outdated packet mayOpen now packet.key = true)
      (bound : after.get? packet.key = some (.fresh packet remote now))
      (kept : ∀ key other, key ≠ packet.key → after.get? key = some other →
        flows.get? key = some other)
      (preserved : Preserves flows after now (· = packet.key)) :
      Tracks flows packet remote mayOpen now after true

/-- What a single round leaves for the rest of the call. -/
inductive RoundTracks (flows : Flows) (packet : Packet) (remote : String) (mayOpen : Bool)
    (now : Nat) (candidate : Key) : Flows → Round → Prop where
  | missing {after} (kept : after.Sub flows)
      (preserved : Preserves flows after now (· = packet.key))
      (gone : after.get? candidate = none)
      (superseded : ∀ flow, flows.get? candidate = some flow →
        flow.outdated packet mayOpen now candidate = true) :
      RoundTracks flows packet remote mayOpen now candidate after .next
  | simultaneous {after} (kept : after.Sub flows)
      (preserved : Preserves flows after now (· = packet.key)) (reply : candidate ≠ packet.key) :
      RoundTracks flows packet remote mayOpen now candidate after .leave
  | decided {after accepted} (whole : Tracks flows packet remote mayOpen now after accepted) :
      RoundTracks flows packet remote mayOpen now candidate after (.answer accepted)

section Rounds

variable {flows : Flows} {packet : Packet} {remote : String} {mayOpen : Bool} {now : Nat}
  {smaller : Flows}

theorem decideFlow_tracks {candidate flow}
    (tuple : candidate = packet.key ∨ candidate = packet.key.reverse)
    (first : candidate ≠ packet.key → flows.get? packet.key = none)
    (found : flows.get? candidate = some flow)
    (live : flow.outdated packet mayOpen now candidate = false) :
    RoundTracks flows packet remote mayOpen now candidate
      (decideFlow (purge flows packet mayOpen now candidate) packet remote now candidate flow).1
      (decideFlow (purge flows packet mayOpen now candidate) packet remote now candidate flow).2 := by
  have kept := purge_sub flows packet mayOpen now candidate
  have preserved := purge_preserves flows packet mayOpen now candidate
  unfold decideFlow
  by_cases bound : flow.remote = remote
  · have own : Belongs flows packet remote mayOpen now candidate flow := ⟨tuple, found, live, bound⟩
    simp only [bound, ne_eq, not_true_eq_false, if_false]
    split
    · exact .decided (.refused kept preserved)
    · split
      · rename_i reset
        simp only [Bool.and_eq_true, beq_iff_eq] at reset
        refine .decided (.reset own reset.1 reset.2 ((Dict.erase_sub _ _).trans kept) ?_)
        intro key other outside present unexpired
        exact erase_preserves _ now candidate key other (fun same => outside (.inr same))
          (preserved key other (fun same => outside (.inl same)) present unexpired) unexpired
      · split
        · rename_i crossing
          simp only [Bool.and_eq_true, bne_iff_ne] at crossing
          exact .simultaneous kept preserved crossing.1.1.2
        · rename_i straight
          cases accepted : flow.accept packet (candidate != packet.key) now with
          | none => exact .decided (.refused kept preserved)
          | some next =>
              refine .decided (.refreshed own ?_ accepted (Dict.get?_insert_self _ _ _) ?_ ?_ ?_)
              · simpa only [Packet.crosses, Bool.not_eq_true] using straight
              · intro reply
                rw [Dict.get?_insert_ne _ _ reply.symm, get?_purge_ne _ _ _ _ _ reply.symm]
                exact first reply
              · intro key other different present
                rw [Dict.get?_insert_ne _ _ different] at present
                exact kept key other present
              · intro key other outside present unexpired
                exact insert_preserves _ now candidate next key other
                  (fun same => outside (.inr same))
                  (preserved key other (fun same => outside (.inl same)) present unexpired) unexpired
  · simp only [ne_eq, bound, not_false_eq_true, if_true]
    exact .decided (.refused kept preserved)

theorem trackCandidate_tracks {candidate}
    (tuple : candidate = packet.key ∨ candidate = packet.key.reverse)
    (first : candidate ≠ packet.key → flows.get? packet.key = none) :
    RoundTracks flows packet remote mayOpen now candidate
      (trackCandidate flows packet remote mayOpen now candidate).1
      (trackCandidate flows packet remote mayOpen now candidate).2 := by
  have kept := purge_sub flows packet mayOpen now candidate
  have preserved := purge_preserves flows packet mayOpen now candidate
  simp only [trackCandidate, get?_purge_self]
  cases found : flows.get? candidate with
  | none => exact .missing kept preserved (by simp [get?_purge_self, found]) (by simp [found])
  | some flow =>
      cases live : flow.outdated packet mayOpen now candidate with
      | true =>
          simp only [Option.filter, live, Bool.not_true, Bool.false_eq_true, if_false]
          exact .missing kept preserved (by simp [get?_purge_self, found, live, Option.filter])
            (by simp [found, live])
      | false =>
          simp only [Option.filter, live, Bool.not_false, if_true]
          exact decideFlow_tracks tuple first found live

theorem Belongs.mono {candidate flow} (sub : smaller.Sub flows)
    (own : Belongs smaller packet remote mayOpen now candidate flow) :
    Belongs flows packet remote mayOpen now candidate flow :=
  { own with found := sub _ _ own.found }

section

variable (sub : smaller.Sub flows) (earlier : Preserves flows smaller now (· = packet.key))
  (superseded : ∀ flow, flows.get? packet.key = some flow → flow.outdated packet mayOpen now packet.key = true)

include sub earlier superseded

/-- A call that continues on what a first round left is still one call. -/
theorem Tracks.mono {after} {accepted}
    (rest : Tracks smaller packet remote mayOpen now after accepted) :
    Tracks flows packet remote mayOpen now after accepted := by
  cases rest with
  | refused kept preserved =>
      exact .refused (kept.trans sub) (earlier.trans preserved fun _ same => same)
  | reset own tcp rst kept preserved =>
      exact .reset (own.mono sub) tcp rst (kept.trans sub)
        (earlier.trans preserved fun _ same => .inl same)
  | refreshed own straight accepted bound alone kept preserved =>
      exact .refreshed (own.mono sub) straight accepted bound alone
        (fun key other different present => sub _ _ (kept key other different present))
        (earlier.trans preserved fun _ same => .inl same)
  | opened allowed opens _ bound kept preserved =>
      exact .opened allowed opens superseded bound
        (fun key other different present => sub _ _ (kept key other different present))
        (earlier.trans preserved fun _ same => same)

theorem insert_fresh_tracks (allowed : mayOpen = true)
    (opens : packet.opens = true) :
    Tracks flows packet remote mayOpen now
      (smaller.insert packet.key (.fresh packet remote now)) true := by
  refine .opened allowed opens superseded (Dict.get?_insert_self _ _ _) ?_
    (earlier.trans (insert_preserves _ now _ _) fun _ same => same)
  intro key other different present
  rw [Dict.get?_insert_ne _ _ different] at present
  exact sub key other present

theorem openFlow_tracks :
    Tracks flows packet remote mayOpen now (openFlow smaller packet remote mayOpen now).1
      (openFlow smaller packet remote mayOpen now).2 := by
  unfold openFlow
  split
  · exact .refused sub earlier
  · rename_i admitted
    simp only [Bool.or_eq_true, Bool.not_eq_true', not_or, Bool.not_eq_false] at admitted
    have unexpired : (smaller.retain fun _ flow => now < flow.expires).Sub flows :=
      (Dict.retain_sub _ _).trans sub
    have reaped : Preserves flows (smaller.retain fun _ flow => now < flow.expires) now
        (· = packet.key) := by
      intro key flow outside found live
      exact retain_preserves smaller now key flow id (earlier key flow outside found live) live
    split
    · dsimp only
      split
      · exact .refused unexpired reaped
      · exact insert_fresh_tracks unexpired reaped superseded admitted.1 admitted.2
    · exact insert_fresh_tracks sub earlier superseded admitted.1 admitted.2

end

/-- The inversion of `trackPacket`: every call is one of the four outcomes. -/
theorem trackPacket_tracks (flows : Flows) (packet : Packet) (remote : String) (mayOpen : Bool)
    (now : Nat) :
    Tracks flows packet remote mayOpen now (trackPacket flows packet remote mayOpen now).1
      (trackPacket flows packet remote mayOpen now).2 := by
  have first : RoundTracks flows packet remote mayOpen now packet.key _ _ :=
    trackCandidate_tracks (.inl rfl) (absurd rfl)
  unfold trackPacket
  generalize trackCandidate flows packet remote mayOpen now packet.key = left at first ⊢
  obtain ⟨between, round⟩ := left
  cases first with
  | decided whole => exact whole
  | simultaneous _ _ reply => exact absurd rfl reply
  | missing kept preserved gone superseded =>
      have second : RoundTracks between packet remote mayOpen now packet.key.reverse _ _ :=
        trackCandidate_tracks (.inr rfl) (fun _ => gone)
      dsimp only
      generalize trackCandidate between packet remote mayOpen now packet.key.reverse = right
        at second ⊢
      obtain ⟨remaining, round⟩ := right
      cases second with
      | decided whole => exact whole.mono kept preserved superseded
      | simultaneous further later _ | missing further later _ _ =>
          exact openFlow_tracks (further.trans kept)
            (preserved.trans later fun _ same => same) superseded

end Rounds

/-- A packet that an entry accepts changes neither its opening nor its remote. -/
theorem Flow.accept_opening {flow : Flow} {next packet reply now}
    (accepted : flow.accept packet reply now = some next) :
    next.opening = flow.opening ∧ next.remote = flow.remote := by
  have kept : ∀ phase, (flow.refresh packet reply phase now).opening = flow.opening ∧
      (flow.refresh packet reply phase now).remote = flow.remote := by
    intro phase
    unfold refresh extend finish
    split <;> exact ⟨rfl, rfl⟩
  unfold accept at accepted
  split at accepted
  · obtain ⟨phase, _, rfl⟩ := Option.map_eq_some_iff.mp accepted
    exact kept phase
  · cases accepted
    exact kept flow.phase

/-- Where the entries of a table come from: an entry kept as it was up to its
    timers, or the opening packet of this call. -/
theorem Tracks.entries {flows after packet remote mayOpen now accepted}
    (call : Tracks flows packet remote mayOpen now after accepted) {key flow}
    (found : after.get? key = some flow) :
    (∃ old, flows.get? key = some old ∧ flow.opening = old.opening ∧ flow.remote = old.remote) ∨
      (accepted = true ∧ mayOpen = true ∧ packet.opens = true ∧ key = packet.key ∧
        flow = .fresh packet remote now ∧ ∀ old, flows.get? key = some old →
          old.outdated packet mayOpen now packet.key = true) := by
  cases call with
  | refused kept _ | reset _ _ _ kept _ => exact .inl ⟨flow, kept key flow found, rfl, rfl⟩
  | @refreshed candidate old next own _ accepted bound _ kept _ =>
      by_cases same : key = candidate
      · subst same
        obtain rfl := Option.mem_unique bound found
        exact .inl ⟨old, own.found, Flow.accept_opening accepted⟩
      · exact .inl ⟨flow, kept key flow same found, rfl, rfl⟩
  | opened allowed opens superseded bound kept _ =>
      by_cases same : key = packet.key
      · subst same
        obtain rfl := Option.mem_unique bound found
        exact .inr ⟨rfl, allowed, opens, rfl, rfl, superseded⟩
      · exact .inl ⟨flow, kept key flow same found, rfl, rfl⟩

section Computed

variable {flows : Flows} {packet : Packet} {remote : String} {mayOpen : Bool} {now : Nat}
variable {flow : Flow}

/-- A TCP packet with a live entry under its own tuple is decided there. -/
theorem trackPacket_own (tcp : packet.key.protocol = 6) (rst : packet.rst = false)
    (own : Belongs flows packet remote mayOpen now packet.key flow) :
    trackPacket flows packet remote mayOpen now =
      match flow.accept packet false now with
      | none => (purge flows packet mayOpen now packet.key, false)
      | some next => ((purge flows packet mayOpen now packet.key).insert packet.key next, true) := by
  have shown : (purge flows packet mayOpen now packet.key).get? packet.key = some flow := by
    simp [get?_purge_self, own.found, own.live, Option.filter]
  cases accepted : flow.accept packet false now <;>
    simp [trackPacket, trackCandidate, shown, decideFlow, own.bound, tcp, rst, accepted]

/-- A TCP packet bound to another remote is refused under its own tuple. -/
theorem trackPacket_foreign (found : flows.get? packet.key = some flow)
    (live : flow.outdated packet mayOpen now packet.key = false) (foreign : flow.remote ≠ remote) :
    (trackPacket flows packet remote mayOpen now).2 = false := by
  have shown : (purge flows packet mayOpen now packet.key).get? packet.key = some flow := by
    simp [get?_purge_self, found, live, Option.filter]
  simp [trackPacket, trackCandidate, shown, decideFlow, foreign]

/-- Without a live entry of its own, a TCP reply is decided by the entry it
    answers. -/
theorem trackPacket_reply (tcp : packet.key.protocol = 6) (rst : packet.rst = false)
    (reply : packet.key.reverse ≠ packet.key)
    (straight : packet.crosses packet.key.reverse = false)
    (absent : ∀ other, flows.get? packet.key = some other →
      other.outdated packet mayOpen now packet.key = true)
    (own : Belongs flows packet remote mayOpen now packet.key.reverse flow) :
    trackPacket flows packet remote mayOpen now =
      let left := purge (purge flows packet mayOpen now packet.key) packet mayOpen now
        packet.key.reverse
      match flow.accept packet true now with
      | none => (left, false)
      | some next => (left.insert packet.key.reverse next, true) := by
  have gone : (purge flows packet mayOpen now packet.key).get? packet.key = none := by
    rw [get?_purge_self]
    cases found : flows.get? packet.key with
    | none => rfl
    | some other => simp [absent other found, Option.filter]
  have shown : (purge (purge flows packet mayOpen now packet.key) packet mayOpen now
      packet.key.reverse).get? packet.key.reverse = some flow := by
    simp [get?_purge_self, get?_purge_ne _ _ _ _ _ reply, own.found, own.live, Option.filter]
  have uncrossed : ¬ (packet.syn = true ∧ packet.ack = false) := by
    simpa [Packet.crosses, tcp, reply] using straight
  have turned : (packet.key.reverse != packet.key) = true := bne_iff_ne.mpr reply
  cases accepted : flow.accept packet true now <;>
    simp [trackPacket, trackCandidate, gone, shown, decideFlow, own.bound, tcp, rst, turned,
      uncrossed, accepted]

end Computed

end PortHub.Network
