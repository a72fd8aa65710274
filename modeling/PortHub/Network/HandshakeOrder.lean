import PortHub.Network.Handshake

/-! # What an accepted TCP packet has behind it

A packet without SYN passes only on an established entry. The history of a table
shows the three packets that established it, in order and after the entry was
last inserted. Retransmissions, replaced tuples and entries for both directions
of a tuple only add events between them.
-/

namespace PortHub.Network

open Runs

structure Call where
  packet : Packet
  remote : String
  mayOpen : Bool
  now : Nat
  deriving DecidableEq, Repr

/-- How a call ends: at an entry of the table, at the insertion behind the
    loop, or there without one. -/
inductive Ending where
  | matched (key : Key)
  | inserted
  | turnedAway
  deriving DecidableEq, Repr

structure Report where
  accepted : Bool
  ending : Ending
  deriving DecidableEq, Repr

def openEnding (flows : Flows) (call : Call) : Ending :=
  if (openFlow flows call.packet call.remote call.mayOpen call.now).2 then .inserted
  else .turnedAway

/-- The path `trackPacket` takes. -/
def ending (flows : Flows) (call : Call) : Ending :=
  let round flows := trackCandidate flows call.packet call.remote call.mayOpen call.now
  match round flows call.packet.key with
  | (_, .answer _) => .matched call.packet.key
  | (flows, .leave) => openEnding flows call
  | (flows, .next) =>
      match round flows call.packet.key.reverse with
      | (_, .answer _) => .matched call.packet.key.reverse
      | (flows, _) => openEnding flows call

/-- One call on a table, with what it answers and how it ended. -/
def track (flows : Flows) (call : Call) : Flows × Report :=
  let (after, accepted) := trackPacket flows call.packet call.remote call.mayOpen call.now
  (after, ⟨accepted, ending flows call⟩)

abbrev Label := Call × Report

/-- Everything one call can do, told by its ending. -/
inductive Goes (flows : Flows) (call : Call) : Flows → Report → Prop where
  | refused {after ending} (kept : after.Sub flows) (old : ending ≠ .inserted) :
      Goes flows call after ⟨false, ending⟩
  | reset {after candidate} (tcp : call.packet.key.protocol = 6) (rst : call.packet.rst = true)
      (kept : after.Sub flows) : Goes flows call after ⟨true, .matched candidate⟩
  | refreshed {after candidate flow next}
      (tuple : candidate = call.packet.key ∨ candidate = call.packet.key.reverse)
      (found : flows.get? candidate = some flow)
      (accepted : flow.accept call.packet (candidate != call.packet.key) call.now = some next)
      (bound : after.get? candidate = some next)
      (kept : ∀ key other, key ≠ candidate → after.get? key = some other →
        flows.get? key = some other) :
      Goes flows call after ⟨true, .matched candidate⟩
  | opened {after} (allowed : call.mayOpen = true) (opens : call.packet.opens = true)
      (bound : after.get? call.packet.key = some (.fresh call.packet call.remote call.now))
      (kept : ∀ key other, key ≠ call.packet.key → after.get? key = some other →
        flows.get? key = some other) :
      Goes flows call after ⟨true, .inserted⟩

section Calls

variable {flows smaller after : Flows} {call : Call} {report : Report} {candidate : Key}
variable {accepted : Bool}

theorem Goes.mono (sub : smaller.Sub flows) (rest : Goes smaller call after report) :
    Goes flows call after report := by
  cases rest with
  | refused kept old => exact .refused (kept.trans sub) old
  | reset tcp rst kept => exact .reset tcp rst (kept.trans sub)
  | refreshed tuple found accepted bound kept =>
      exact .refreshed tuple (sub _ _ found) accepted bound fun key other different present =>
        sub key other (kept key other different present)
  | opened allowed opens bound kept =>
      exact .opened allowed opens bound fun key other different present =>
        sub key other (kept key other different present)

/-- A round that answers has found an entry and stops there. -/
theorem trackCandidate_answer
    (tuple : candidate = call.packet.key ∨ candidate = call.packet.key.reverse)
    (answered : trackCandidate flows call.packet call.remote call.mayOpen call.now candidate =
      (after, .answer accepted)) : Goes flows call after ⟨accepted, .matched candidate⟩ := by
  have sub := purge_sub flows call.packet call.mayOpen call.now candidate
  refine Goes.mono sub ?_
  generalize left : purge flows call.packet call.mayOpen call.now candidate = smaller
  simp only [trackCandidate, left] at answered
  cases found : smaller.get? candidate with
  | none => simp [found] at answered
  | some flow =>
      simp only [found, decideFlow] at answered
      split at answered
      · cases answered
        exact .refused (.refl _) (by simp)
      · split at answered
        · cases answered
          exact .refused (.refl _) (by simp)
        · split at answered
          · rename_i ends
            obtain ⟨rfl, rfl⟩ := answered
            simp only [Bool.and_eq_true, beq_iff_eq] at ends
            exact .reset ends.1 ends.2 (Dict.erase_sub _ _)
          · split at answered
            · simp at answered
            · split at answered
              · cases answered
                exact .refused (.refl _) (by simp)
              · rename_i next advanced
                cases answered
                refine .refreshed tuple found advanced (Dict.get?_insert_self _ _ _) ?_
                intro key other different present
                rwa [Dict.get?_insert_ne _ _ different] at present

/-- A round that goes on has only purged. -/
theorem trackCandidate_onward {round}
    (went : trackCandidate flows call.packet call.remote call.mayOpen call.now candidate =
      (after, round)) (onward : ∀ accepted, round ≠ .answer accepted) : after.Sub flows := by
  suffices same : after = purge flows call.packet call.mayOpen call.now candidate by
    rw [same]
    exact purge_sub _ _ _ _ _
  unfold trackCandidate decideFlow at went
  grind

theorem openFlow_goes (flows : Flows) (call : Call) :
    Goes flows call (openFlow flows call.packet call.remote call.mayOpen call.now).1
      ⟨(openFlow flows call.packet call.remote call.mayOpen call.now).2,
        openEnding flows call⟩ := by
  have insertion {smaller : Flows} (sub : smaller.Sub flows) (allowed : call.mayOpen = true)
      (opens : call.packet.opens = true) :
      Goes flows call (smaller.insert call.packet.key (.fresh call.packet call.remote call.now))
        ⟨true, .inserted⟩ := by
    refine .opened allowed opens (Dict.get?_insert_self _ _ _) ?_
    intro key other different present
    rw [Dict.get?_insert_ne _ _ different] at present
    exact sub key other present
  unfold openEnding
  generalize opened : openFlow flows call.packet call.remote call.mayOpen call.now = result
  unfold openFlow at opened
  split at opened
  · subst opened
    exact .refused (.refl _) (by simp)
  · rename_i admitted
    simp only [Bool.or_eq_true, Bool.not_eq_true', not_or, Bool.not_eq_false] at admitted
    split at opened
    · dsimp only at opened
      split at opened
      · subst opened
        exact .refused (Dict.retain_sub _ _) (by simp)
      · subst opened
        exact insertion (Dict.retain_sub _ _) admitted.1 admitted.2
    · subst opened
      exact insertion (.refl _) admitted.1 admitted.2

/-- The inversion of `track`. -/
theorem track_goes (flows : Flows) (call : Call) :
    Goes flows call (track flows call).1 (track flows call).2 := by
  unfold track ending trackPacket
  dsimp only
  cases first : trackCandidate flows call.packet call.remote call.mayOpen call.now
      call.packet.key with
  | mk between round =>
      cases round with
      | answer accepted => exact trackCandidate_answer (.inl rfl) first
      | leave => exact (openFlow_goes between call).mono (trackCandidate_onward first (by simp))
      | next =>
          refine Goes.mono (trackCandidate_onward first (by simp)) ?_
          cases second : trackCandidate between call.packet call.remote call.mayOpen call.now
              call.packet.key.reverse with
          | mk remaining round =>
              cases round with
              | answer accepted => simpa [second] using trackCandidate_answer (.inr rfl) second
              | leave | next =>
                  have rest := (openFlow_goes remaining call).mono
                    (trackCandidate_onward second (by simp))
                  simpa [second] using rest

end Calls

namespace Label

/-- The call inserted the entry of this tuple. -/
def Inserts (label : Label) (key : Key) : Prop :=
  label.2.ending = .inserted ∧ label.1.packet.key = key

/-- An accepted opening SYN that inserted the entry. -/
structure Opens (label : Label) (key : Key) : Prop where
  accepted : label.2.accepted = true
  inserts : label.Inserts key
  opening : key.protocol = 6 → label.1.packet.syn = true ∧ label.1.packet.ack = false ∧
    label.1.packet.fin = false ∧ label.1.packet.rst = false

/-- A SYN+ACK of the reversed tuple that the entry accepted. -/
structure Replies (label : Label) (key : Key) : Prop where
  accepted : label.2.accepted = true
  matched : label.2.ending = .matched key
  reversed : label.1.packet.key = key.reverse
  flags : label.1.packet.syn = true ∧ label.1.packet.ack = true

/-- An ACK of the tuple itself that the entry accepted. -/
structure Confirms (label : Label) (key : Key) : Prop where
  accepted : label.2.accepted = true
  matched : label.2.ending = .matched key
  own : label.1.packet.key = key
  flags : label.1.packet.ack = true ∧ label.1.packet.syn = false

end Label

/-- The part of the handshake that a phase stands for. -/
def Progress (events : List Label) (key : Key) : Nat → Prop
  | 0 => True
  | 1 => ∃ reply : Label, reply.Replies key ∧ [reply].Sublist events
  | 2 => ∃ reply ack : Label, reply.Replies key ∧ ack.Confirms key ∧ [reply, ack].Sublist events
  | _ => False

/-- The events since the entry was last inserted account for its phase. -/
structure Accounted (opening : Label) (rest : List Label) (key : Key) (phase : Nat) : Prop where
  opens : opening.Opens key
  last : ∀ label ∈ rest, ¬ label.Inserts key
  progress : key.protocol = 6 → Progress rest key phase

/-- Every entry of a table is accounted for by the calls so far. -/
def Traced (history : List Label) (flows : Flows) : Prop :=
  ∀ key flow, flows.get? key = some flow → ∃ before opening rest,
    history = before ++ opening :: rest ∧ Accounted opening rest key flow.phase

section History

variable {history : List Label} {flows after : Flows} {call : Call} {report : Report}

theorem Progress.snoc {rest key phase} (label : Label) (progress : Progress rest key phase) :
    Progress (rest ++ [label]) key phase := by
  have more := List.sublist_append_left rest [label]
  rcases phase with _ | _ | _ | phase
  · trivial
  · obtain ⟨reply, replies, inside⟩ := progress
    exact ⟨reply, replies, inside.trans more⟩
  · obtain ⟨reply, ack, replies, confirms, inside⟩ := progress
    exact ⟨reply, ack, replies, confirms, inside.trans more⟩
  · exact progress

/-- An entry that a call leaves alone. -/
theorem Accounted.snoc {opening} {label : Label} {rest key phase}
    (accounted : Accounted opening rest key phase) (spares : ¬ label.Inserts key) :
    Accounted opening (rest ++ [label]) key phase where
  opens := accounted.opens
  last := by
    intro other member
    rcases mem_snoc.mp member with earlier | here
    · exact accounted.last other earlier
    · rw [here]
      exact spares
  progress tcp := (accounted.progress tcp).snoc label

/-- The packet that moves a TCP entry from one phase to the next is part of the
    handshake. -/
theorem Progress.advance {rest} {flow : Flow} {candidate phase}
    (tuple : candidate = call.packet.key ∨ candidate = call.packet.key.reverse)
    (next : flow.nextPhase call.packet (candidate != call.packet.key) = some phase)
    (progress : Progress rest candidate flow.phase) :
    Progress (rest ++ [(call, ⟨true, .matched candidate⟩)]) candidate phase := by
  unfold Flow.nextPhase at next
  split at next
  · -- phase zero: a SYN+ACK of the other direction, or a repeated SYN
    split at next
    · rename_i reply
      split at next
      · cases next
      · rename_i flags
        cases next
        have different : candidate ≠ call.packet.key := by simpa using reply
        have back : call.packet.key = candidate.reverse := by
          rw [tuple.resolve_left different, Key.reverse_reverse]
        simp only [Bool.or_eq_true, Bool.not_eq_true', not_or, Bool.not_eq_false] at flags
        exact ⟨_, ⟨rfl, rfl, back, flags⟩, List.sublist_append_right _ _⟩
    · split at next
      · cases next
      · cases next
        trivial
  · split at next
    · rename_i one
      rw [one] at progress
      split at next
      · rename_i confirming
        cases next
        obtain ⟨reply, replies, inside⟩ := progress
        simp only [Bool.and_eq_true, Bool.not_eq_true', bne_eq_false_iff_eq] at confirming
        obtain ⟨⟨own, ack⟩, syn⟩ := confirming
        exact ⟨reply, _, replies, ⟨rfl, rfl, own.symm, ack, syn⟩, inside.append (.refl _)⟩
      · split at next
        · cases next
        · cases next
          exact progress.snoc _
    · cases next
      exact progress.snoc _

theorem Packet.opens_tcp {packet : Packet} (opens : packet.opens = true)
    (tcp : packet.key.protocol = 6) :
    packet.syn = true ∧ packet.ack = false ∧ packet.fin = false ∧ packet.rst = false := by
  simp [Packet.opens, tcp] at opens
  exact ⟨opens.1.1.1, opens.1.1.2, opens.2, opens.1.2⟩

theorem protocol_of_tuple {candidate key : Key} (tuple : candidate = key ∨ candidate = key.reverse) :
    candidate.protocol = key.protocol := by
  rcases tuple with rfl | rfl <;> rfl

/-- One call keeps every entry accounted for. -/
theorem Traced.step (traced : Traced history flows) (goes : Goes flows call after report) :
    Traced (history ++ [(call, report)]) after := by
  have carry {key : Key} {flow : Flow} (found : flows.get? key = some flow)
      (spares : ¬ Label.Inserts (call, report) key) : ∃ before opening rest,
      history ++ [(call, report)] = before ++ opening :: rest ∧
        Accounted opening rest key flow.phase := by
    obtain ⟨before, opening, rest, rfl, accounted⟩ := traced key flow found
    exact ⟨before, opening, rest ++ [(call, report)], by simp, accounted.snoc spares⟩
  intro key flow found
  cases goes with
  | refused kept old => exact carry (kept key flow found) fun inserts => old inserts.1
  | reset _ _ kept => exact carry (kept key flow found) fun inserts => by cases inserts.1
  | @refreshed candidate old next tuple there accepted bound kept =>
      have spares : ∀ key, ¬ Label.Inserts (call, ⟨true, .matched candidate⟩) key :=
        fun _ inserts => by cases inserts.1
      by_cases same : key = candidate
      · subst same
        obtain rfl := Option.mem_unique bound found
        obtain ⟨before, opening, rest, rfl, accounted⟩ := traced key old there
        refine ⟨before, opening, rest ++ [(call, ⟨true, .matched key⟩)], by simp, ?_⟩
        refine ⟨accounted.opens, (accounted.snoc (spares key)).last, fun tcp => ?_⟩
        have known : call.packet.key.protocol = 6 := (protocol_of_tuple tuple).symm.trans tcp
        simp only [Flow.accept, known, beq_self_eq_true, if_true] at accepted
        obtain ⟨phase, advanced, rfl⟩ := Option.map_eq_some_iff.mp accepted
        rw [Flow.refresh_phase]
        exact (accounted.progress tcp).advance tuple advanced
      · exact carry (kept key flow same found) (spares key)
  | opened allowed opens bound kept =>
      by_cases same : key = call.packet.key
      · subst same
        obtain rfl := Option.mem_unique bound found
        refine ⟨history, (call, ⟨true, .inserted⟩), [], rfl, ?_, by simp, fun _ => trivial⟩
        exact ⟨rfl, ⟨rfl, rfl⟩, Packet.opens_tcp opens⟩
      · exact carry (kept key flow same found) fun inserts => same inserts.2.symm

theorem traced_run (run : Run (answers track) .empty history flows) : Traced history flows := by
  refine run.historyInvariant (by simp [Traced]) ?_
  intro history flows label after _ traced taken
  obtain ⟨call, report⟩ := label
  have goes := track_goes flows call
  rw [show track flows call = (after, report) from taken] at goes
  exact traced.step goes

/-- A packet without SYN or RST leaves its entry established. -/
theorem Progress.established {flow : Flow} {next} {packet : Packet} {reply now rest key}
    (tcp : packet.key.protocol = 6) (syn : packet.syn = false)
    (accepted : flow.accept packet reply now = some next)
    (progress : Progress rest key next.phase) :
    next.phase = 2 := by
  simp only [Flow.accept, tcp, beq_self_eq_true, if_true] at accepted
  obtain ⟨phase, advanced, rfl⟩ := Option.map_eq_some_iff.mp accepted
  rw [Flow.refresh_phase] at progress ⊢
  unfold Flow.nextPhase at advanced
  rcases phase with _ | _ | _ | phase
  · grind
  · grind
  · rfl
  · exact progress.elim

end History

/-- A packet that cannot open a conversation. -/
def Call.CannotOpen (call : Call) : Prop :=
  (call.packet.key.protocol = 6 ∧ call.packet.syn = false) ∨
    (call.packet.key.protocol = 1 ∧ call.packet.icmpType = 0) ∨ call.mayOpen = false

theorem Call.CannotOpen.closed {call : Call} (closed : call.CannotOpen)
    (allowed : call.mayOpen = true) : call.packet.opens = false := by
  rcases closed with ⟨tcp, syn⟩ | ⟨icmp, reply⟩ | forbidden
  · simp [Packet.opens, tcp, syn]
  · simp [Packet.opens, icmp, reply]
  · simp [forbidden] at allowed

/-- In every run of calls on an empty table, at any clock readings: a TCP packet
    that is neither RST nor SYN passes only on an entry with a whole handshake
    since its last insertion, and only opening packets create entries. -/
theorem accepted_after_handshake {history : List Label} {flows : Flows}
    (run : Run (answers track) .empty history flows) (call : Call) :
    ((track flows call).2.accepted = true → call.packet.key.protocol = 6 →
      call.packet.rst = false → call.packet.syn = false →
      ∃ key, (track flows call).2.ending = .matched key ∧
        ∃ before opening rest, ∃ reply ack : Label,
          history ++ [(call, (track flows call).2)] = before ++ opening :: rest ∧
          opening.Opens key ∧ opening.1.packet.openingSequence.isSome = true ∧
          (∀ label ∈ rest, ¬ label.Inserts key) ∧
          reply.Replies key ∧ ack.Confirms key ∧ [reply, ack].Sublist rest) ∧
    (call.CannotOpen → (track flows call).2.ending ≠ .inserted ∧
      ∀ key flow, (track flows call).1.get? key = some flow →
        ∃ old, flows.get? key = some old ∧ flow.opening = old.opening ∧ flow.remote = old.remote) := by
  have goes := track_goes flows call
  have taken : answers track flows (call, (track flows call).2) (track flows call).1 := rfl
  have traced := traced_run (run.snoc taken)
  clear taken
  generalize track flows call = result at goes traced
  obtain ⟨after, report⟩ := result
  dsimp only at goes traced ⊢
  constructor
  · intro passed tcp rst syn
    cases goes with
    | refused => cases passed
    | reset _ reset => simp [rst] at reset
    | opened _ opens => simp [(Packet.opens_tcp opens tcp).1] at syn
    | @refreshed candidate flow next tuple found accepted bound _ =>
        obtain ⟨before, opening, rest, whole, accounted⟩ := traced candidate next bound
        have known : candidate.protocol = 6 := (protocol_of_tuple tuple).trans tcp
        have progress := accounted.progress known
        rw [Progress.established tcp syn accepted progress] at progress
        obtain ⟨reply, ack, replies, confirms, inside⟩ := progress
        have flags := accounted.opens.opening known
        have opener : opening.1.packet.key.protocol = 6 := by
          rw [accounted.opens.inserts.2, known]
        refine ⟨candidate, rfl, before, opening, rest, reply, ack, whole, accounted.opens, ?_,
          accounted.last, replies, confirms, inside⟩
        simp [Packet.openingSequence, opener, flags]
  · intro closed
    cases goes with
    | refused kept old => exact ⟨old, fun key flow found => ⟨flow, kept key flow found, rfl, rfl⟩⟩
    | reset _ _ kept => exact ⟨by simp, fun key flow found => ⟨flow, kept key flow found, rfl, rfl⟩⟩
    | opened allowed opens => simp [closed.closed allowed] at opens
    | @refreshed candidate old next _ found accepted bound kept =>
        refine ⟨by simp, fun key flow present => ?_⟩
        by_cases same : key = candidate
        · subst same
          obtain rfl := Option.mem_unique bound present
          exact ⟨old, found, Flow.accept_opening accepted⟩
        · exact ⟨flow, kept key flow same present, rfl, rfl⟩

/-- The straight handshake: its ACK is the packet that establishes the entry. -/
theorem straight_handshake_is_accepted :
    let calls : List Call := [⟨exampleSyn, "", true, 0⟩, ⟨exampleSynAck, "", false, 1⟩]
    let flows := (feed track .empty calls).2
    let ack : Call := ⟨exampleAck, "", true, 2⟩
    (track flows ack).2 = ⟨true, .matched exampleSyn.key⟩ ∧
      ∃ key, (track flows ack).2.ending = .matched key := by
  intro calls flows ack
  have answered : (track flows ack).2 = ⟨true, .matched exampleSyn.key⟩ := by decide
  have run := feed_run track .empty calls
  obtain ⟨key, matched, _⟩ := (accepted_after_handshake run ack).1 (by rw [answered])
    (by decide) (by decide) (by decide)
  exact ⟨answered, key, matched⟩

end PortHub.Network
