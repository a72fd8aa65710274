import PortHub.Network.Tracking

/-! # Completing a tracked TCP handshake

An accepted SYN promises that its SYN+ACK and ACK pass too. The tracker keeps
that promise unless a live entry of the reversed tuple takes the SYN+ACK away:
an entry is looked up under a packet's own tuple first, and the branch that lets
a crossing SYN open its own entry does not remove the one it crossed.
-/

namespace PortHub.Network

/-- Tables that packets and removals can produce, from the empty one. Clock
    readings are unconstrained, so every monotone clock is covered. -/
inductive Reachable : Flows → Prop where
  | empty : Reachable .empty
  | track {flows} (prior : Reachable flows) (packet : Packet) (remote : String) (mayOpen : Bool)
      (now : Nat) : Reachable (trackPacket flows packet remote mayOpen now).1
  | retain {flows} (prior : Reachable flows) (keep : Key → Flow → Bool) :
      Reachable (flows.retain keep)

/-- No phase exceeds two, and of a tuple and its reverse at most one has left
    phase zero. -/
structure Phased (flows : Flows) : Prop where
  bounded : ∀ key flow, flows.get? key = some flow → flow.phase ≤ 2
  exclusive : ∀ key flow other, flows.get? key = some flow → flows.get? key.reverse = some other →
    flow.phase = 0 ∨ other.phase = 0

namespace Flow

@[simp] theorem refresh_phase (flow : Flow) (packet reply phase now) :
    (flow.refresh packet reply phase now).phase = phase := by
  simp only [refresh, extend, finish]
  split <;> rfl

@[simp] theorem refresh_remote (flow : Flow) (packet reply phase now) :
    (flow.refresh packet reply phase now).remote = flow.remote := by
  simp only [refresh, extend, finish]
  split <;> rfl

variable {flow : Flow}

theorem nextPhase_le {packet reply phase} (small : flow.phase ≤ 2)
    (next : flow.nextPhase packet reply = some phase) : phase ≤ 2 := by
  unfold nextPhase at next
  grind

theorem nextPhase_own_zero {packet phase} (zero : flow.phase = 0)
    (next : flow.nextPhase packet false = some phase) : phase = 0 := by
  unfold nextPhase at next
  grind

/-- An accepted packet keeps the entry's origin; outside TCP also its phase. -/
theorem accept_cases {next} {packet reply now}
    (accepted : flow.accept packet reply now = some next) :
    ∃ phase, next = flow.refresh packet reply phase now ∧
      (phase = flow.phase ∨ flow.nextPhase packet reply = some phase) := by
  unfold accept at accepted
  split at accepted
  · obtain ⟨phase, found, rfl⟩ := Option.map_eq_some_iff.mp accepted
    exact ⟨phase, rfl, .inr found⟩
  · exact ⟨flow.phase, (Option.some.inj accepted).symm, .inl rfl⟩

end Flow

variable {flows : Flows} {packet : Packet}

theorem Phased.sub {after : Flows} (phased : Phased flows) (kept : after.Sub flows) :
    Phased after where
  bounded key flow found := phased.bounded key flow (kept key flow found)
  exclusive key flow other found reversed :=
    phased.exclusive key flow other (kept _ _ found) (kept _ _ reversed)

/-- A table that changes at one key stays phased, if the new entry agrees with
    the entry of the reversed tuple. -/
theorem Phased.update {after : Flows} {key} {entry : Flow} (phased : Phased flows)
    (small : entry.phase ≤ 2) (bound : after.get? key = some entry)
    (paired : ∀ other, after.get? key.reverse = some other → entry.phase = 0 ∨ other.phase = 0)
    (kept : ∀ k other, k ≠ key → after.get? k = some other → flows.get? k = some other) :
    Phased after where
  bounded k flow found := by
    by_cases same : k = key
    · subst same
      obtain rfl := Option.mem_unique bound found
      exact small
    · exact phased.bounded k flow (kept k flow same found)
  exclusive k flow other found reversed := by
    by_cases same : k = key
    · subst same
      obtain rfl := Option.mem_unique bound found
      exact paired other reversed
    · by_cases opposite : k.reverse = key
      · rw [opposite] at reversed
        obtain rfl := Option.mem_unique bound reversed
        have straight : after.get? key.reverse = some flow := by
          rw [← opposite, Key.reverse_reverse]
          exact found
        exact (paired flow straight).symm
      · exact phased.exclusive k flow other (kept k flow same found)
          (kept k.reverse other opposite reversed)

theorem Phased.refreshed {flows} {after : Flows} {packet : Packet} {candidate flow next now}
    (phased : Phased flows) (tuple : candidate = packet.key ∨ candidate = packet.key.reverse)
    (found : flows.get? candidate = some flow)
    (accepted : flow.accept packet (candidate != packet.key) now = some next)
    (bound : after.get? candidate = some next)
    (alone : candidate ≠ packet.key → after.get? packet.key = none)
    (kept : ∀ k other, k ≠ candidate → after.get? k = some other → flows.get? k = some other) :
    Phased after := by
  obtain ⟨phase, rfl, advance⟩ := Flow.accept_cases accepted
  have small : phase ≤ 2 := by
    rcases advance with same | advance
    · exact same ▸ phased.bounded candidate flow found
    · exact Flow.nextPhase_le (phased.bounded candidate flow found) advance
  have stays : flow.phase = 0 → candidate = packet.key → phase = 0 := by
    intro zero own
    rcases advance with same | advance
    · omega
    · exact Flow.nextPhase_own_zero zero (by simpa [own] using advance)
  refine phased.update (by simpa using small) bound ?_ kept
  intro other reversed
  rw [Flow.refresh_phase]
  by_cases own : candidate = packet.key
  · by_cases selfReverse : candidate.reverse = candidate
    · have zero := phased.exclusive candidate flow flow found (selfReverse.symm ▸ found)
      exact .inl (stays (zero.elim id id) own)
    · rcases phased.exclusive candidate flow other found
        (kept _ _ selfReverse reversed) with zero | zero
      · exact .inl (stays zero own)
      · exact .inr zero
  · have back : candidate.reverse = packet.key := by
      rcases tuple with same | same
      · exact absurd same own
      · rw [same, Key.reverse_reverse]
    rw [back, alone own] at reversed
    cases reversed

theorem Phased.track (phased : Phased flows) (packet : Packet) (remote : String) (mayOpen : Bool)
    (now : Nat) : Phased (trackPacket flows packet remote mayOpen now).1 := by
  have call := trackPacket_tracks flows packet remote mayOpen now
  generalize trackPacket flows packet remote mayOpen now = result at call
  obtain ⟨after, accepted⟩ := result
  cases call with
  | refused kept _ => exact phased.sub kept
  | reset _ _ _ kept _ => exact phased.sub kept
  | refreshed own _ accepted bound alone kept _ =>
      exact phased.refreshed own.tuple own.found accepted bound alone kept
  | opened _ _ _ bound kept _ =>
      exact phased.update (Nat.zero_le 2) bound (fun _ _ => .inl rfl) kept

theorem Reachable.phased (reachable : Reachable flows) : Phased flows := by
  induction reachable with
  | empty => exact ⟨by simp, by simp⟩
  | track _ packet remote mayOpen now ih => exact ih.track packet remote mayOpen now
  | retain _ keep ih => exact ih.sub (Dict.retain_sub _ _)

/-- The three packets of one handshake. -/
structure Handshake (syn synAck ack : Packet) : Prop where
  opening : syn.openingSequence.isSome = true
  replyKey : synAck.key = syn.key.reverse
  replySyn : synAck.syn = true
  replyAck : synAck.ack = true
  replyPlain : synAck.rst = false ∧ synAck.fin = false
  finalKey : ack.key = syn.key
  finalSyn : ack.syn = false
  finalAck : ack.ack = true
  finalPlain : ack.rst = false ∧ ack.fin = false

/-- The SYN+ACK and the ACK behind an accepted SYN pass and establish its entry. -/
def Completes (flows : Flows) (syn synAck ack : Packet) (remote : String) (mayReply mayAck : Bool)
    (opened replied acked : Nat) : Prop :=
  let afterSyn := (trackPacket flows syn remote true opened).1
  let reply := trackPacket afterSyn synAck remote mayReply replied
  let final := trackPacket reply.1 ack remote mayAck acked
  reply.2 = true ∧ final.2 = true ∧ ∃ flow, final.1.get? syn.key = some flow ∧ flow.phase = 2

theorem Packet.openingSequence_isSome :
    packet.openingSequence.isSome = true ↔ packet.key.protocol = 6 ∧ packet.syn = true ∧
      packet.ack = false ∧ packet.fin = false ∧ packet.rst = false := by
  unfold openingSequence
  split <;> simp_all

theorem Packet.openingSequence_of_ack (ack : packet.ack = true) :
    packet.openingSequence = none := by
  simp [openingSequence, ack]

/-- Only expiry outdates an entry for a packet that cannot open one. -/
theorem Flow.outdated_of_ack {flow : Flow} {mayOpen now candidate} (ack : packet.ack = true) :
    flow.outdated packet mayOpen now candidate = decide (flow.expires ≤ now) := by
  simp [outdated, Packet.openingSequence_of_ack ack]

/-- Without a FIN, a TCP packet keeps an open entry open for the handshake time. -/
theorem Flow.refresh_open (flow : Flow) (reply : Bool) (phase now : Nat)
    (tcp : packet.key.protocol = 6) (fin : packet.fin = false) (unclosed : flow.closeUntil = none) :
    (flow.refresh packet reply phase now).closeUntil = none ∧
      now + seconds 300 ≤ (flow.refresh packet reply phase now).expires := by
  have longer : seconds 300 ≤ tcpEstablishedTtl := by decide
  simp only [refresh, finish, extend, fin, tcp, Bool.and_false, Bool.false_eq_true, if_false,
    unclosed, true_and, ttl]
  split
  · omega
  · simp

/-- An entry under the SYN's tuple that is open and outlives the handshake time. -/
structure Awaiting (flows : Flows) (syn : Packet) (remote : String) (since : Nat)
    (flow : Flow) : Prop where
  found : flows.get? syn.key = some flow
  bound : flow.remote = remote
  unclosed : flow.closeUntil = none
  lasting : since + seconds 300 ≤ flow.expires

theorem Awaiting.live {flows syn remote since flow packet mayOpen now candidate}
    (awaiting : Awaiting flows syn remote since flow) (ack : packet.ack = true)
    (soon : now < since + seconds 300) : flow.outdated packet mayOpen now candidate = false := by
  have lasting := awaiting.lasting
  rw [Flow.outdated_of_ack ack]
  exact decide_eq_false (by omega)

/-- An accepted opening leaves an awaiting entry that is not half-way through,
    and changes no other tuple except by expiry. -/
theorem opening_awaits {syn : Packet} {remote opened} (opening : syn.openingSequence.isSome = true)
    (accepted : (trackPacket flows syn remote true opened).2 = true) :
    ∃ flow, Awaiting (trackPacket flows syn remote true opened).1 syn remote opened flow ∧
      flow.phase ≠ 1 ∧
      (∀ key other, key ≠ syn.key → (trackPacket flows syn remote true opened).1.get? key =
        some other → flows.get? key = some other) ∧
      Preserves flows (trackPacket flows syn remote true opened).1 opened (· = syn.key) := by
  obtain ⟨tcp, isSyn, noAck, noFin, noRst⟩ := Packet.openingSequence_isSome.mp opening
  have call := trackPacket_tracks flows syn remote true opened
  generalize trackPacket flows syn remote true opened = result at call accepted ⊢
  obtain ⟨after, verdict⟩ := result
  cases call with
  | refused _ _ => cases accepted
  | reset _ _ rst _ _ => rw [noRst] at rst; cases rst
  | opened _ _ _ bound kept preserved =>
      refine ⟨_, ⟨bound, rfl, rfl, ?_⟩, Nat.zero_ne_one, kept, preserved⟩
      simp [Flow.fresh, ttl, tcp]
  | @refreshed candidate flow next own straight taken bound _ kept preserved =>
      have same : candidate = syn.key := by
        by_contra reply
        simp [Packet.crosses, tcp, isSyn, noAck, reply] at straight
      subst same
      have unclosed : flow.closeUntil = none := by
        have live := own.live
        simp only [Flow.outdated, opening, Bool.or_eq_false_iff, Bool.and_eq_false_iff] at live
        have kept : flow.opening.openingSequence = syn.openingSequence ∧ flow.closeUntil = none := by
          simpa using live.2
        exact kept.2
      obtain ⟨phase, rfl, advance⟩ := Flow.accept_cases taken
      have still := flow.refresh_open (syn.key != syn.key) phase opened tcp noFin unclosed
      refine ⟨_, ⟨bound, by simpa using own.bound, still.1, still.2⟩, ?_, kept, ?_⟩
      · simp only [Flow.accept, tcp, beq_self_eq_true, if_true, bne_self_eq_false,
          Option.map_eq_some_iff] at taken
        obtain ⟨p, next, equal⟩ := taken
        have samePhase := congrArg Flow.phase equal
        simp only [Flow.refresh_phase] at samePhase ⊢
        unfold Flow.nextPhase at next
        grind
      · intro key other outside
        exact preserved key other (by simpa using outside)

section Steps

variable {flows : Flows} {syn synAck ack : Packet} {remote : String} {flow : Flow}
variable {since now : Nat} {mayOpen : Bool}

section

variable (packets : Handshake syn synAck ack)

include packets

/-- With no live entry of the reversed tuple in the way, the SYN+ACK advances
    the awaiting entry. -/
theorem reply_advances (awaiting : Awaiting flows syn remote since flow) (phase : flow.phase ≠ 1)
    (soon : now < since + seconds 300) (distinct : syn.key ≠ syn.key.reverse)
    (free : ∀ other, flows.get? syn.key.reverse = some other → other.expires ≤ now) :
    (trackPacket flows synAck remote mayOpen now).2 = true ∧
      ∃ next, Awaiting (trackPacket flows synAck remote mayOpen now).1 syn remote now next ∧
        next.phase = if flow.phase = 0 then 1 else flow.phase := by
  have tcp : synAck.key.protocol = 6 := by
    rw [packets.replyKey]
    exact (Packet.openingSequence_isSome.mp packets.opening).1
  have back : synAck.key.reverse = syn.key := by rw [packets.replyKey, Key.reverse_reverse]
  have own : Belongs flows synAck remote mayOpen now synAck.key.reverse flow :=
    ⟨.inr rfl, by rw [back]; exact awaiting.found, awaiting.live packets.replyAck soon, awaiting.bound⟩
  have absent : ∀ other, flows.get? synAck.key = some other →
      other.outdated synAck mayOpen now synAck.key = true := by
    intro other found
    rw [Flow.outdated_of_ack packets.replyAck]
    exact decide_eq_true (free other (packets.replyKey ▸ found))
  have advance : flow.accept synAck true now =
      some (flow.refresh synAck true (if flow.phase = 0 then 1 else flow.phase) now) := by
    by_cases zero : flow.phase = 0 <;>
      simp [Flow.accept, tcp, Flow.nextPhase, packets.replySyn, packets.replyAck, zero, phase]
  have still := flow.refresh_open true (if flow.phase = 0 then 1 else flow.phase) now tcp
    packets.replyPlain.2 awaiting.unclosed
  rw [trackPacket_reply tcp packets.replyPlain.1 (by rw [back, packets.replyKey]; exact distinct)
    (by simp [Packet.crosses, packets.replyAck]) absent own, advance, back]
  refine ⟨rfl, _, ⟨Dict.get?_insert_self _ _ _, by simpa using awaiting.bound, still.1, still.2⟩, ?_⟩
  exact Flow.refresh_phase _ _ _ _ _

/-- The ACK establishes an entry whose SYN+ACK has passed. -/
theorem ack_establishes
    (awaiting : Awaiting flows syn remote since flow) (phase : flow.phase = 1 ∨ flow.phase = 2)
    (soon : now < since + seconds 300) :
    (trackPacket flows ack remote mayOpen now).2 = true ∧
      ∃ next, (trackPacket flows ack remote mayOpen now).1.get? syn.key = some next ∧
        next.phase = 2 := by
  have tcp : ack.key.protocol = 6 := by
    rw [packets.finalKey]
    exact (Packet.openingSequence_isSome.mp packets.opening).1
  have own : Belongs flows ack remote mayOpen now ack.key flow :=
    ⟨.inl rfl, by rw [packets.finalKey]; exact awaiting.found,
      awaiting.live packets.finalAck soon, awaiting.bound⟩
  have advance : flow.accept ack false now = some (flow.refresh ack false 2 now) := by
    rcases phase with one | two
    · simp [Flow.accept, tcp, Flow.nextPhase, packets.finalSyn, packets.finalAck, one]
    · simp [Flow.accept, tcp, Flow.nextPhase, two]
  rw [trackPacket_own tcp packets.finalPlain.1 own, advance, packets.finalKey]
  exact ⟨rfl, _, Dict.get?_insert_self _ _ _, Flow.refresh_phase _ _ _ _ _⟩

/-- A live entry under the SYN+ACK's own tuple takes it: unless that entry is
    established it refuses, and then the awaiting entry is left as it was. -/
theorem reply_swallowed {other}
    (found : flows.get? syn.key.reverse = some other) (live : now < other.expires)
    (accepted : (trackPacket flows synAck remote mayOpen now).2 = true) :
    other.phase ≠ 0 ∧ (syn.key ≠ syn.key.reverse →
      (trackPacket flows synAck remote mayOpen now).1.get? syn.key = flows.get? syn.key) := by
  have tcp : synAck.key.protocol = 6 := by
    rw [packets.replyKey]
    exact (Packet.openingSequence_isSome.mp packets.opening).1
  have current : other.outdated synAck mayOpen now synAck.key = false := by
    rw [Flow.outdated_of_ack packets.replyAck]
    exact decide_eq_false (by omega)
  have present : flows.get? synAck.key = some other := by rw [packets.replyKey]; exact found
  by_cases bound : other.remote = remote
  · rw [trackPacket_own tcp packets.replyPlain.1 ⟨.inl rfl, present, current, bound⟩] at accepted ⊢
    cases taken : other.accept synAck false now with
    | none => simp [taken] at accepted
    | some next =>
        constructor
        · intro zero
          simp [Flow.accept, tcp, Flow.nextPhase, zero, packets.replyAck] at taken
        · intro distinct
          rw [packets.replyKey]
          simp only [Dict.get?_insert_ne _ _ distinct, get?_purge_ne _ _ _ _ _ distinct]
  · rw [trackPacket_foreign present current bound] at accepted
    cases accepted

/-- An entry that has not seen its SYN+ACK is never established by the ACK. -/
theorem ack_cannot_establish (found : flows.get? syn.key = some flow) (zero : flow.phase = 0) {final}
    (left : (trackPacket flows ack remote mayOpen now).1.get? syn.key = some final) :
    final.phase ≠ 2 := by
  intro established
  have call := trackPacket_tracks flows ack remote mayOpen now
  generalize trackPacket flows ack remote mayOpen now = result at call left
  obtain ⟨after, verdict⟩ := result
  have unchanged : flows.get? syn.key = some final → False := by
    intro same
    obtain rfl := Option.mem_unique found same
    omega
  cases call with
  | refused kept _ | reset _ _ _ kept _ => exact unchanged (kept _ _ left)
  | opened _ opens _ _ _ _ =>
      have tcp : ack.key.protocol = 6 := by
        rw [packets.finalKey]
        exact (Packet.openingSequence_isSome.mp packets.opening).1
      simp [Packet.opens, tcp, packets.finalSyn] at opens
  | @refreshed candidate entry next own _ taken bound alone kept _ =>
      by_cases same : candidate = syn.key
      · subst same
        obtain rfl := Option.mem_unique found own.found
        obtain rfl := Option.mem_unique bound left
        rw [← packets.finalKey, bne_self_eq_false] at taken
        obtain ⟨phase, rfl, advance⟩ := Flow.accept_cases taken
        rw [Flow.refresh_phase] at established
        rcases advance with kept | advance
        · omega
        · have := Flow.nextPhase_own_zero zero advance
          omega
      · exact unchanged (kept _ _ (Ne.symm same) left)

end

end Steps

/-- The handshake behind an accepted SYN completes exactly when its tuple is not
    its own reverse and no entry of the reversed tuple is still alive when the
    SYN+ACK arrives. -/
theorem handshake_completes_iff {flows : Flows} (reachable : Reachable flows)
    {syn synAck ack : Packet} (packets : Handshake syn synAck ack) (remote : String)
    (mayReply mayAck : Bool) {opened replied acked : Nat}
    (accepted : (trackPacket flows syn remote true opened).2 = true)
    (replyTime : opened ≤ replied ∧ replied < opened + seconds 300)
    (ackTime : replied ≤ acked ∧ acked < replied + seconds 300) :
    Completes flows syn synAck ack remote mayReply mayAck opened replied acked ↔
      syn.key ≠ syn.key.reverse ∧
        ∀ flow, flows.get? syn.key.reverse = some flow → flow.expires ≤ replied := by
  obtain ⟨entry, awaiting, phase, kept, preserved⟩ := opening_awaits packets.opening accepted
  have phased := (reachable.track syn remote true opened).phased
  have bounded := phased.bounded _ _ awaiting.found
  constructor
  · rintro ⟨replyPassed, _, final, left, established⟩
    by_contra blocked
    have swallowed : ∃ other,
        (trackPacket flows syn remote true opened).1.get? syn.key.reverse = some other ∧
          replied < other.expires := by
      by_cases distinct : syn.key = syn.key.reverse
      · refine ⟨entry, distinct ▸ awaiting.found, ?_⟩
        have := awaiting.lasting
        omega
      · simp only [not_and, not_forall] at blocked
        obtain ⟨other, found, late⟩ := blocked distinct
        refine ⟨other, preserved _ _ (fun same => distinct same.symm) found ?_, ?_⟩ <;> omega
    obtain ⟨other, found, live⟩ := swallowed
    obtain ⟨advanced, untouched⟩ := reply_swallowed packets found live replyPassed
    have zero : entry.phase = 0 := by
      rcases phased.exclusive _ _ _ awaiting.found found with zero | zero
      · exact zero
      · exact absurd zero advanced
    by_cases distinct : syn.key = syn.key.reverse
    · rw [← distinct, awaiting.found] at found
      exact advanced (Option.some.inj found ▸ zero)
    · exact ack_cannot_establish packets ((untouched distinct).trans awaiting.found) zero left
        established
  · rintro ⟨distinct, free⟩
    obtain ⟨passed, next, waiting, advanced⟩ := reply_advances packets awaiting phase replyTime.2
      distinct (fun other found => free other (kept _ _ distinct.symm found))
    have later : next.phase = 1 ∨ next.phase = 2 := by
      split at advanced <;> omega
    obtain ⟨final, established⟩ := ack_establishes packets waiting later ackTime.2
    exact ⟨passed, final, established⟩

/-- A SYN from 10.203.0.1:4000 to 10.203.0.2:5000 and the packets that follow. -/
def exampleSyn : Packet where
  key :=
    { src := ⟨10, 203, 0, 1⟩, dst := ⟨10, 203, 0, 2⟩, protocol := 6, sport := 4000, dport := 5000,
      icmp := 0 }
  syn := true
  ack := false
  rst := false
  fin := false
  icmpType := 0
  tcpSequence := 1

def exampleSynAck : Packet := { exampleSyn with key := exampleSyn.key.reverse, ack := true }

def exampleAck : Packet := { exampleSyn with syn := false, ack := true }

/-- The table after the other end's SYN on the reversed tuple. -/
def crossedTable : Flows :=
  (trackPacket .empty { exampleSyn with key := exampleSyn.key.reverse } "" true 0).1

theorem example_handshake : Handshake exampleSyn exampleSynAck exampleAck := by
  constructor <;> decide

theorem empty_table_completes : Completes .empty exampleSyn exampleSynAck exampleAck "" true true 0 1 2 :=
  (handshake_completes_iff .empty example_handshake "" true true (by decide) (by decide)
    (by decide)).mpr ⟨by decide, by simp⟩

/-- Two ends that open at once: both SYNs are accepted, and the SYN+ACK of the
    second is refused by the entry of the first. -/
theorem simultaneous_open_stalls : Reachable crossedTable ∧ Handshake exampleSyn exampleSynAck exampleAck ∧
      (trackPacket crossedTable exampleSyn "" true 0).2 = true ∧
      ¬ Completes crossedTable exampleSyn exampleSynAck exampleAck "" true true 0 0 0 := by
  refine ⟨.track .empty _ _ _ _, example_handshake, by decide, ?_⟩
  rintro ⟨replyPassed, _⟩
  revert replyPassed
  decide

end PortHub.Network
