import PortHub.Lib.Ledger
import PortHub.Network.ExitPinning
import PortHub.Network.HandshakeOrder

/-! # Half-closed and closed conversations

Two tables give a conversation that is closed in both directions two more
minutes, and neither shortens one that is closed in a single direction. A ledger
beside each table keeps what the present entry of a tuple has received, and an
entry's timers are stated as a function of that.
-/

namespace PortHub.Network

open Runs Ledger

/-- How long a closed conversation is kept. -/
abbrev closeTime : Nat := seconds 120

/-- `fin_directions` as the two facts it stands for. -/
def directionBits (first second : Bool) : Nat :=
  (if first then 1 else 0) ||| (if second then 2 else 0)

@[simp] theorem directionBits_or_one (first second : Bool) :
    directionBits first second ||| 1 = directionBits true second := by
  revert first second
  decide

@[simp] theorem directionBits_or_two (first second : Bool) :
    directionBits first second ||| 2 = directionBits first true := by
  revert first second
  decide

@[simp] theorem directionBits_eq_three (first second : Bool) :
    directionBits first second = 3 ↔ (first && second) = true := by
  revert first second
  decide

section Timer

variable {τ : Type} {shut : List τ → Bool} {time : τ → Nat} {log : List τ}

/-- The close timer of an entry: set once the log is shut, by the item that shut it. -/
structure Timed (shut : List τ → Bool) (time : τ → Nat) (log : List τ) (closeUntil : Option Nat) :
    Prop where
  set : closeUntil.isSome = shut log
  value : ∀ limit, closeUntil = some limit →
    ∃ last, FirstAt shut log last ∧ limit = time last + closeTime

theorem Timed.snoc {closeUntil} (timed : Timed shut time log closeUntil) (item : τ)
    (grows : shut log = true → shut (log ++ [item]) = true) :
    Timed shut time (log ++ [item])
      (if shut (log ++ [item]) then some (closeUntil.getD (time item + closeTime))
        else closeUntil) := by
  cases closeUntil with
  | none =>
      have open_ : shut log = false := timed.set.symm
      cases now : shut (log ++ [item]) with
      | false => exact ⟨by simp [now], by simp⟩
      | true =>
          refine ⟨by simp [now], ?_⟩
          intro limit same
          simp only [if_true, Option.getD_none, Option.some.injEq] at same
          exact ⟨item, .here open_ now, same.symm⟩
  | some limit =>
      have now : shut (log ++ [item]) = true := grows timed.set.symm
      refine ⟨by simp [now], ?_⟩
      intro other same
      simp only [now, if_true, Option.getD_some, Option.some.injEq] at same
      obtain ⟨last, first, value⟩ := timed.value limit rfl
      exact ⟨last, first.snoc item, same ▸ value⟩

end Timer

/-! ## The connection table -/

/-- A packet that an entry accepted, and in which direction. -/
structure Arrival where
  packet : Packet
  reply : Bool
  now : Nat

def Arrival.finishes (arrival : Arrival) (reply : Bool) : Bool :=
  arrival.packet.key.protocol == 6 && arrival.packet.fin && arrival.reply == reply

/-- FIN has been accepted in a direction. -/
def finished (log : List Arrival) (reply : Bool) : Bool := log.any (·.finishes reply)

def finishedBoth (log : List Arrival) : Bool := finished log false && finished log true

@[simp] theorem finished_snoc (log : List Arrival) (arrival : Arrival) (reply : Bool) :
    finished (log ++ [arrival]) reply = (finished log reply || arrival.finishes reply) := by
  simp [finished]

/-- Lifetime of an entry by its protocol and handshake phase. -/
def phaseTtl (protocol : UInt8) (phase : Nat) : Nat :=
  if protocol == 6 && phase == 2 then tcpEstablishedTtl else ttl protocol

/-- What a call does to the entry of a tuple. An accepted reset removes it. -/
def Report.turn (report : Report) (call : Call) (key : Key) : Turn Arrival :=
  if !report.accepted || call.packet.key.protocol == 6 && call.packet.rst then .stays
  else
    match report.ending with
    | .matched candidate =>
        if candidate = key then .goesOn ⟨call.packet, key != call.packet.key, call.now⟩ else .stays
    | .inserted => if call.packet.key = key then .begins ⟨call.packet, false, call.now⟩ else .stays
    | .turnedAway => .stays

def turn (flows : Flows) (call : Call) (key : Key) : Turn Arrival :=
  (track flows call).2.turn call key

def Flow.Begins (key : Key) (arrival : Arrival) (flow : Flow) : Prop :=
  arrival.packet.key = key ∧ arrival.packet.opens = true ∧
    ∃ remote, flow = .fresh arrival.packet remote arrival.now

def Flow.GoesOn (key : Key) (flow : Flow) (arrival : Arrival) (next : Flow) : Prop :=
  arrival.packet.key.protocol = key.protocol ∧
    flow.accept arrival.packet arrival.reply arrival.now = some next

section Resets

variable {flows : Flows} {call : Call}

/-- A TCP reset never changes or opens an entry, whatever the call answers. -/
theorem trackCandidate_rst (flows : Flows) (tcp : call.packet.key.protocol = 6) (rst : call.packet.rst = true)
    (candidate : Key) :
    (trackCandidate flows call.packet call.remote call.mayOpen call.now candidate).1.Sub flows := by
  have sub := purge_sub flows call.packet call.mayOpen call.now candidate
  unfold trackCandidate
  generalize purge flows call.packet call.mayOpen call.now candidate = smaller at sub
  dsimp only
  cases found : smaller.get? candidate with
  | none => exact sub
  | some flow =>
      by_cases bound : flow.remote = call.remote
      · simpa [decideFlow, bound, tcp, rst] using (Dict.erase_sub smaller candidate).trans sub
      · simpa [decideFlow, bound] using sub

theorem openFlow_rst (tcp : call.packet.key.protocol = 6) (rst : call.packet.rst = true) :
    openFlow flows call.packet call.remote call.mayOpen call.now = (flows, false) := by
  simp [openFlow, Packet.opens, tcp, rst]

theorem track_rst (flows : Flows) (tcp : call.packet.key.protocol = 6) (rst : call.packet.rst = true) :
    (track flows call).1.Sub flows := by
  have first := trackCandidate_rst flows tcp rst call.packet.key
  unfold track trackPacket
  generalize trackCandidate flows call.packet call.remote call.mayOpen call.now call.packet.key =
    result at first
  obtain ⟨between, round⟩ := result
  cases round with
  | answer accepted => exact first
  | leave => simpa [openFlow_rst tcp rst] using first
  | next =>
      have second := trackCandidate_rst between tcp rst call.packet.key.reverse
      dsimp only
      generalize trackCandidate between call.packet call.remote call.mayOpen call.now
        call.packet.key.reverse = result at second
      obtain ⟨remaining, last⟩ := result
      cases last <;> simpa [openFlow_rst tcp rst] using second.trans first

end Resets

theorem turn_explains (flows : Flows) (call : Call) (key : Key) :
    (turn flows call key).Explains (Flow.Begins key) (Flow.GoesOn key) (flows.get? key)
      ((track flows call).1.get? key) := by
  by_cases reset : call.packet.key.protocol = 6 ∧ call.packet.rst = true
  · have kept := track_rst flows reset.1 reset.2
    have stays : turn flows call key = .stays := by simp [turn, Report.turn, reset]
    rw [stays]
    exact kept key
  · have calm : (call.packet.key.protocol == 6 && call.packet.rst) = false := by
      simpa using reset
    have goes := track_goes flows call
    unfold turn Report.turn
    rw [calm]
    generalize track flows call = result at goes ⊢
    obtain ⟨after, report⟩ := result
    cases goes with
    | refused kept _ => exact kept key
    | reset tcp rst _ => exact absurd ⟨tcp, rst⟩ reset
    | @refreshed candidate flow next tuple found accepted bound kept =>
        simp only [Bool.not_true, Bool.or_self, Bool.false_eq_true, if_false]
        split
        · rename_i same
          subst same
          intro other present
          obtain rfl := Option.mem_unique bound present
          refine ⟨flow, found, ?_, accepted⟩
          rcases tuple with rfl | rfl <;> rfl
        · rename_i different
          intro other present
          exact kept key other (Ne.symm different) present
    | opened allowed opens bound kept =>
        simp only [Bool.not_true, Bool.or_self, Bool.false_eq_true, if_false]
        split
        · rename_i same
          subst same
          intro other present
          obtain rfl := Option.mem_unique bound present
          exact ⟨rfl, opens, call.remote, rfl⟩
        · rename_i different
          intro other present
          exact kept key other (Ne.symm different) present

/-- The timers of an entry that has received the packets of a log. -/
structure Flow.Timers (key : Key) (log : List Arrival) (flow : Flow) : Prop where
  directions : flow.finDirections =
    directionBits (finished log false) (finished log true)
  timed : Timed finishedBoth Arrival.now log flow.closeUntil
  bounded : ∀ limit, flow.closeUntil = some limit → flow.expires ≤ limit
  halfOpen : flow.closeUntil = none → ∃ last, log.getLast? = some last ∧
    flow.expires = last.now + phaseTtl key.protocol flow.phase

namespace Flow

theorem accept_refresh {flow : Flow} {next packet reply now}
    (accepted : flow.accept packet reply now = some next) :
    ∃ phase, next = flow.refresh packet reply phase now := by
  unfold accept at accepted
  split at accepted
  · obtain ⟨phase, _, rfl⟩ := Option.map_eq_some_iff.mp accepted
    exact ⟨phase, rfl⟩
  · exact ⟨flow.phase, (Option.some.inj accepted).symm⟩

variable {flow : Flow} {log : List Arrival} {arrival : Arrival}

/-- The marks of a packet that continues the log. -/
theorem finish_marks (phase : Nat) (arrival : Arrival)
    (directions : flow.finDirections = directionBits (finished log false) (finished log true))
    (set : flow.closeUntil.isSome = finishedBoth log) :
    let marked := ({ flow with phase := phase }).finish arrival.packet arrival.reply arrival.now
    marked.finDirections =
      directionBits (finished (log ++ [arrival]) false) (finished (log ++ [arrival]) true) ∧
    marked.closeUntil = (if finishedBoth (log ++ [arrival]) then
        some (flow.closeUntil.getD (arrival.now + closeTime)) else flow.closeUntil) ∧
    marked.phase = phase := by
  obtain ⟨packet, reply, now⟩ := arrival
  have own : (if finishedBoth log then some (flow.closeUntil.getD (now + closeTime))
      else flow.closeUntil) = flow.closeUntil := by
    rw [← set]
    cases flow.closeUntil <;> rfl
  simp only [finish, finishedBoth, finished_snoc, Arrival.finishes, directions] at own ⊢
  cases packet.key.protocol == 6 && packet.fin with
  | false => simpa [directions] using own.symm
  | true => cases reply <;> simp

theorem Timers.begin {key} (new : Begins key arrival flow) : flow.Timers key [arrival] := by
  obtain ⟨own, opens, remote, rfl⟩ := new
  have open_ : arrival.packet.key.protocol = 6 → arrival.packet.fin = false := by
    intro tcp
    by_contra fin
    simp [Packet.opens, tcp, fin] at opens
  have quiet (reply : Bool) : finished [arrival] reply = false := by
    by_cases tcp : arrival.packet.key.protocol = 6 <;>
      simp [finished, Arrival.finishes, tcp, open_]
  refine ⟨by simp [fresh, quiet, directionBits], ⟨by simp [fresh, finishedBoth, quiet], by simp [fresh]⟩,
    by simp [fresh], ?_⟩
  intro _
  exact ⟨arrival, rfl, by simp [fresh, phaseTtl, own]⟩

theorem Timers.goesOn {key next} (earlier : flow.Timers key log)
    (moved : flow.GoesOn key arrival next) : next.Timers key (log ++ [arrival]) := by
  obtain ⟨protocol, accepted⟩ := moved
  obtain ⟨phase, rfl⟩ := accept_refresh accepted
  obtain ⟨directions, close, kept⟩ := finish_marks phase arrival
    earlier.directions earlier.timed.set
  have timed := earlier.timed.snoc arrival fun shut => by
    simp only [finishedBoth, Bool.and_eq_true, finished_snoc] at shut ⊢
    simp [shut]
  rw [← close] at timed
  unfold refresh
  generalize ({ flow with phase := phase }).finish arrival.packet arrival.reply arrival.now =
    marked at directions timed kept
  refine ⟨directions, timed, ?_, ?_⟩
  · intro limit set
    simp only [extend] at set ⊢
    rw [set]
    exact Nat.min_le_right _ _
  · intro unset
    refine ⟨arrival, by simp, ?_⟩
    simp only [extend] at unset ⊢
    rw [unset]
    simp only [phaseTtl, protocol]

end Flow

theorem Flow.timers_of_lives {key log flow}
    (lived : Lives (Flow.Begins key) (Flow.GoesOn key) log flow) : flow.Timers key log := by
  induction lived with
  | begun new => exact .begin new
  | gone _ moved ih => exact ih.goesOn moved

end PortHub.Network

/-! ## The exit assignments -/

namespace PortHub.Network.ExitSelection

open Runs Ledger

/-- What an assignment accepted: a packet that extends it, or a report of a close. -/
inductive Touch where
  | refreshed (now ttl : Nat)
  | closed (outgoing fin reset : Bool) (now : Nat)
  deriving DecidableEq, Repr

namespace Touch

def now : Touch → Nat
  | .refreshed now _ | .closed _ _ _ now => now

def finishes : Touch → Bool → Bool
  | .refreshed _ _, _ => false
  | .closed outgoing fin _ _, direction => fin && outgoing == direction

def resets : Touch → Bool
  | .refreshed _ _ => false
  | .closed _ _ reset _ => reset

end Touch

def finished (log : List Touch) (outgoing : Bool) : Bool := log.any (·.finishes outgoing)

/-- FIN in both directions, or a reset. -/
def shut (log : List Touch) : Bool :=
  log.any Touch.resets || finished log true && finished log false

@[simp] theorem finished_snoc (log : List Touch) (touch : Touch) (outgoing : Bool) :
    finished (log ++ [touch]) outgoing = (finished log outgoing || touch.finishes outgoing) := by
  simp [finished]

theorem shut_grows {log touch} (closed : shut log = true) :
    shut (log ++ [touch]) = true := by
  simp only [shut, Bool.or_eq_true, Bool.and_eq_true, finished_snoc, List.any_append] at closed ⊢
  rcases closed with reset | ⟨outgoing, incoming⟩
  · exact .inl (.inl reset)
  · exact .inr ⟨.inl outgoing, .inl incoming⟩

/-- A report reaches the assignment only from its own peer and while it lasts. -/
def Assignment.accepts (entry : Assignment) (peer : String) (now : Nat) : Bool :=
  entry.peer == peer && decide (now < entry.deadline)

/-- The assignment after an accepted report of a close. -/
def Assignment.close (entry : Assignment) (outgoing fin reset : Bool) (now : Nat) : Assignment :=
  let directions :=
    if fin then entry.finDirections ||| (if outgoing then 1 else 2) else entry.finDirections
  let entry := { entry with finDirections := directions }
  if reset || directions == 3 then
    let until_ := entry.closeUntil.getD (now + seconds 120)
    { entry with closeUntil := some until_, deadline := min entry.deadline until_ }
  else entry

def Assignment.Begins (touch : Touch) (entry : Assignment) : Prop :=
  ∃ now ttl peer synSequence, touch = .refreshed now ttl ∧
    entry = ⟨peer, now + ttl, synSequence, 0, none⟩

def Assignment.GoesOn (entry : Assignment) : Touch → Assignment → Prop
  | .refreshed now ttl, next => next = entry.refresh now ttl
  | .closed outgoing fin reset now, next => next = entry.close outgoing fin reset now

section Turns

variable {K : Type} [DecidableEq K]

/-- What a selection does to the assignment of its flow. -/
def Request.turn (request : Request K) (table : FlowTable K) (flow : K) : Turn Touch :=
  if request.flow ≠ flow then .stays
  else if (table.flows.get? flow).any fun entry =>
      !entry.released request.now request.synSequence then
    .goesOn (.refreshed request.now request.ttl)
  else .begins (.refreshed request.now request.ttl)

def turn (table : FlowTable K) (op : Op K) (flow : K) : Turn Touch :=
  match op with
  | .configure _ _ => .stays
  | .select other now ttl => Request.turn ⟨other, now, ttl, none, none⟩ table flow
  | .selectWithSyn other now ttl synSequence =>
      Request.turn ⟨other, now, ttl, synSequence, none⟩ table flow
  | .selectForPeer other now ttl synSequence peer =>
      Request.turn ⟨other, now, ttl, synSequence, some fun _ => peer⟩ table flow
  | .selectForPeerWith other now ttl synSequence choose =>
      Request.turn ⟨other, now, ttl, synSequence, some choose⟩ table flow
  | .observe other peer now ttl =>
      if other = flow ∧ (table.flows.get? flow).any (·.accepts peer now) then
        .goesOn (.refreshed now ttl)
      else .stays
  | .observeClose other peer outgoing fin reset now =>
      if other = flow ∧ (fin || reset) ∧ (table.flows.get? flow).any (·.accepts peer now) then
        .goesOn (.closed outgoing fin reset now)
      else .stays

namespace FlowTable

variable {sha256 : List UInt8 → List UInt8} {table prepared : FlowTable K} {flow other : K}
variable {now ttl : Nat} {synSequence : Option UInt32}
variable {preferred : Option (List String → Option String)}

theorem assign_other (different : other ≠ flow) :
    (prepared.assign sha256 flow now ttl synSequence preferred).1.flows.get? other =
      prepared.flows.get? other := by
  unfold assign
  dsimp only
  split
  · simp [different]
  · split
    · simp [different]
    · split <;> simp [different]

theorem assign_own {entry}
    (found : (prepared.assign sha256 flow now ttl synSequence preferred).1.flows.get? flow =
      some entry) : ∃ peer, entry = ⟨peer, now + ttl, synSequence, 0, none⟩ := by
  unfold assign at found
  dsimp only at found
  split at found
  · simp at found
  · split at found
    · simp at found
    · split at found
      · simp at found
      · simp only [Dict.get?_insert_self, Option.some.injEq] at found
        exact ⟨_, found.symm⟩

/-- A selection leaves the other flows alone, up to expired assignments. -/
theorem selectInner_other {entry} (different : other ≠ flow)
    (found : (table.selectInner sha256 flow now ttl synSequence preferred).1.flows.get? other =
      some entry) : table.flows.get? other = some entry := by
  have kept : ((table.reap now).supersede flow synSequence).flows.get? other = some entry := by
    unfold selectInner at found
    dsimp only at found
    split at found
    · rwa [assign_other different] at found
    · split at found
      · simpa [different] using found
      · rwa [assign_other different] at found
  rw [supersede_get?_ne _ _ different] at kept
  exact reap_sub table now other entry kept

theorem selectInner_own {next}
    (free : ∀ entry, table.flows.get? flow = some entry → entry.released now synSequence = true)
    (found : (table.selectInner sha256 flow now ttl synSequence preferred).1.flows.get? flow =
      some next) : ∃ peer, next = ⟨peer, now + ttl, synSequence, 0, none⟩ := by
  unfold selectInner at found
  dsimp only at found
  split at found
  · exact assign_own found
  · rename_i entry looked
    split at found
    · rename_i live
      obtain ⟨present, kept⟩ := prepared_live.mp ⟨looked, live⟩
      rw [free entry present] at kept
      cases kept
    · exact assign_own found

theorem request_explains (request : Request K) (flow : K) :
    (request.turn table flow).Explains Assignment.Begins Assignment.GoesOn (table.flows.get? flow)
      ((table.selectInner sha256 request.flow request.now request.ttl request.synSequence
        request.preferred).1.flows.get? flow) := by
  unfold Request.turn
  split
  · rename_i different
    intro entry found
    exact selectInner_other (Ne.symm different) found
  · rename_i same
    obtain rfl := not_not.mp same
    have call := selectInner_selects sha256 table request.flow request.now request.ttl
      request.synSequence request.preferred
    cases live : (table.flows.get? request.flow).any fun entry =>
        !entry.released request.now request.synSequence with
    | true =>
        cases present : table.flows.get? request.flow with
        | none => simp [present] at live
        | some entry =>
            simp only [present, Option.any_some, Bool.not_eq_true'] at live
            intro next found
            refine ⟨entry, rfl, ?_⟩
            generalize table.selectInner sha256 request.flow request.now request.ttl
              request.synSequence request.preferred = result at call found
            obtain ⟨after, answer⟩ := result
            cases call with
            | pinned same _ kept =>
                obtain rfl := Option.mem_unique present same
                exact Option.mem_unique found kept
            | opened free | refused free => simp [free entry present] at live
    | false =>
        intro next found
        have released : ∀ entry, table.flows.get? request.flow = some entry →
            entry.released request.now request.synSequence = true := by
          intro entry present
          simpa [present] using live
        obtain ⟨peer, rfl⟩ := selectInner_own released found
        exact ⟨request.now, request.ttl, peer, request.synSequence, rfl, rfl⟩

theorem observe_get? (other : K) (peer : String) (now ttl : Nat) (flow : K) :
    (table.observe other peer now ttl).flows.get? flow =
      if other = flow then
        (table.flows.get? flow).map fun entry =>
          if entry.accepts peer now then entry.refresh now ttl else entry
      else table.flows.get? flow := by
  unfold observe Assignment.accepts
  by_cases same : other = flow
  · subst same
    cases found : table.flows.get? other with
    | none => simp [found]
    | some entry => dsimp only; split <;> simp_all
  · simp only [same, if_false]
    cases found : table.flows.get? other with
    | none => rfl
    | some entry => dsimp only; split <;> simp [Ne.symm same]

theorem observeClose_get? (other : K) (peer : String) (outgoing fin reset : Bool) (now : Nat)
    (flow : K) :
    (table.observeClose other peer outgoing fin reset now).flows.get? flow =
      if other = flow ∧ (fin || reset) then
        (table.flows.get? flow).map fun entry =>
          if entry.accepts peer now then entry.close outgoing fin reset now else entry
      else table.flows.get? flow := by
  have refuses (entry : Assignment) :
      (entry.peer != peer || decide (entry.deadline ≤ now)) = !entry.accepts peer now := by
    simp [Assignment.accepts, bne, Bool.not_and, ← decide_not]
  unfold observeClose
  cases quiet : fin || reset with
  | false =>
      simp only [Bool.or_eq_false_iff] at quiet
      simp [quiet]
  | true =>
      have heard : (!fin && !reset) = false := by cases fin <;> cases reset <;> simp_all
      simp only [heard, Bool.false_eq_true, if_false, and_true, refuses]
      by_cases same : other = flow
      · subst same
        cases found : table.flows.get? other with
        | none => simp [found]
        | some entry =>
            cases accepted : entry.accepts peer now with
            | false => simp [found, accepted]
            | true => simp [accepted, Assignment.close]
      · simp only [same, if_false]
        cases found : table.flows.get? other with
        | none => rfl
        | some entry => dsimp only; split <;> simp [Ne.symm same]

/-- A report that an assignment accepts moves it on by that report. -/
theorem report_explains (before : Option Assignment) (accepted : Assignment → Bool) (touch : Touch)
    (update : Assignment → Assignment) (moves : ∀ entry : Assignment, entry.GoesOn touch (update entry)) :
    (if before.any accepted then Turn.goesOn touch else .stays).Explains Assignment.Begins
      Assignment.GoesOn before (before.map fun entry => if accepted entry then update entry else entry) := by
  cases before with
  | none => simp [Turn.Explains]
  | some entry =>
      cases heard : accepted entry with
      | false => simp [heard, Turn.Explains]
      | true => simp [heard, Turn.Explains, moves]

theorem turn_explains (sha256 : List UInt8 → List UInt8) (table : FlowTable K) (op : Op K)
    (flow : K) :
    (turn table op flow).Explains Assignment.Begins Assignment.GoesOn (table.flows.get? flow)
      ((table.step sha256 op).1.flows.get? flow) := by
  cases op with
  | configure peers mode => exact fun entry found => found
  | select | selectWithSyn | selectForPeer | selectForPeerWith => exact request_explains _ flow
  | observe other peer now ttl =>
      simp only [step, turn, observe_get?]
      by_cases same : other = flow
      · simp only [same, true_and, if_true]
        exact report_explains _ _ (.refreshed now ttl) _ fun _ => rfl
      · simp only [same, false_and, if_false]
        exact fun entry found => found
  | observeClose other peer outgoing fin reset now =>
      simp only [step, turn, observeClose_get?]
      by_cases heard : other = flow ∧ (fin || reset) = true
      · simp only [heard, true_and, and_true, if_true]
        exact report_explains _ _ (.closed outgoing fin reset now) _ fun _ => rfl
      · rw [if_neg heard, if_neg fun whole => heard ⟨whole.1, whole.2.1⟩]
        exact fun entry found => found

end FlowTable

end Turns

/-- The timers of an assignment that has received the touches of a log. -/
structure Assignment.Timers (log : List Touch) (entry : Assignment) : Prop where
  directions : entry.finDirections = directionBits (finished log true) (finished log false)
  timed : Timed shut Touch.now log entry.closeUntil
  bounded : ∀ limit, entry.closeUntil = some limit → entry.deadline ≤ limit
  halfOpen : entry.closeUntil = none →
    (∀ now ttl, .refreshed now ttl ∈ log → now + ttl ≤ entry.deadline) ∧
      ∃ now ttl, .refreshed now ttl ∈ log ∧ entry.deadline = now + ttl

namespace Assignment

variable {entry next : Assignment} {log : List Touch} {touch : Touch}

theorem Timers.begin (new : Begins touch entry) : entry.Timers [touch] := by
  obtain ⟨now, ttl, peer, synSequence, rfl, rfl⟩ := new
  refine ⟨by simp [finished, Touch.finishes, directionBits], ⟨rfl, by simp⟩, by simp, ?_⟩
  intro _
  refine ⟨?_, now, ttl, by simp, rfl⟩
  intro other later member
  obtain ⟨rfl, rfl⟩ := Touch.refreshed.inj (List.mem_singleton.mp member)
  exact le_rfl

/-- The close timer after a touch that continues the log. -/
theorem Timers.closeUntil_goesOn (earlier : entry.Timers log) (moved : entry.GoesOn touch next) :
    next.closeUntil = (if shut (log ++ [touch]) then
      some (entry.closeUntil.getD (touch.now + closeTime)) else entry.closeUntil) ∧
    next.finDirections = directionBits (finished (log ++ [touch]) true)
      (finished (log ++ [touch]) false) := by
  cases touch with
  | refreshed now ttl =>
      obtain rfl : next = entry.refresh now ttl := moved
      have same : shut (log ++ [.refreshed now ttl]) = entry.closeUntil.isSome := by
        simp [earlier.timed.set, shut, Touch.resets, Touch.finishes]
      rw [same]
      refine ⟨?_, by simpa [refresh, Touch.finishes] using earlier.directions⟩
      simp only [refresh]
      cases entry.closeUntil <;> rfl
  | closed outgoing fin reset now =>
      obtain rfl : next = entry.close outgoing fin reset now := moved
      have directions : (if fin then entry.finDirections ||| (if outgoing then 1 else 2)
          else entry.finDirections) =
          directionBits (finished (log ++ [.closed outgoing fin reset now]) true)
            (finished (log ++ [.closed outgoing fin reset now]) false) := by
        cases fin <;> cases outgoing <;> simp [earlier.directions, Touch.finishes]
      -- A timer that an earlier reset has set is kept by what follows.
      have old : log.any Touch.resets = true →
          some (entry.closeUntil.getD (now + closeTime)) = entry.closeUntil := by
        intro reset
        have set : entry.closeUntil.isSome = true := by simp [earlier.timed.set, shut, reset]
        obtain ⟨limit, same⟩ := Option.isSome_iff_exists.mp set
        simp [same]
      simp only [close, directions, shut, List.any_append, List.any_cons, List.any_nil, Bool.or_false,
        Touch.resets, Touch.now]
      generalize finished (log ++ [.closed outgoing fin reset now]) true = sent
      generalize finished (log ++ [.closed outgoing fin reset now]) false = received
      have three : (directionBits sent received == 3) = (sent && received) := by
        rw [Bool.eq_iff_iff, beq_iff_eq, directionBits_eq_three]
      rw [three]
      cases earlierReset : log.any Touch.resets with
      | false => simp only [Bool.false_or]; split <;> simp
      | true =>
          simp only [Bool.true_or, if_true, old earlierReset]
          split <;> simp

/-- A report of a close starts the timer or only marks a direction. -/
theorem close_cases (outgoing fin reset : Bool) (now : Nat) :
    (∃ limit, (entry.close outgoing fin reset now).closeUntil = some limit ∧
      (entry.close outgoing fin reset now).deadline = min entry.deadline limit) ∨
    ((entry.close outgoing fin reset now).closeUntil = entry.closeUntil ∧
      (entry.close outgoing fin reset now).deadline = entry.deadline) := by
  unfold close
  generalize (if fin then entry.finDirections ||| (if outgoing then 1 else 2)
    else entry.finDirections) = directions
  dsimp only
  split
  · exact .inl ⟨_, rfl, rfl⟩
  · exact .inr ⟨rfl, rfl⟩

/-- Whatever an assignment with a close timer receives, it ends by then. -/
theorem GoesOn.bounded (moved : entry.GoesOn touch next)
    (earlier : ∀ limit, entry.closeUntil = some limit → entry.deadline ≤ limit) :
    ∀ limit, next.closeUntil = some limit → next.deadline ≤ limit := by
  intro limit set
  cases touch with
  | refreshed now ttl =>
      obtain rfl : next = entry.refresh now ttl := moved
      simp only [refresh] at set ⊢
      simp [set]
  | closed outgoing fin reset now =>
      obtain rfl : next = entry.close outgoing fin reset now := moved
      rcases entry.close_cases outgoing fin reset now with ⟨until_, timer, deadline⟩ | ⟨same, deadline⟩
      · obtain rfl := Option.mem_unique timer set
        exact deadline.trans_le (Nat.min_le_right _ _)
      · exact deadline.trans_le (earlier limit (same.symm.trans set))

/-- Until the close, only packets move the deadline, and never back. -/
theorem GoesOn.halfOpen (moved : entry.GoesOn touch next) (unset : next.closeUntil = none) :
    entry.closeUntil = none ∧ next.deadline =
      match touch with
      | .refreshed now ttl => max entry.deadline (now + ttl)
      | .closed _ _ _ _ => entry.deadline := by
  cases touch with
  | refreshed now ttl =>
      obtain rfl : next = entry.refresh now ttl := moved
      have open_ : entry.closeUntil = none := unset
      simp [refresh, open_]
  | closed outgoing fin reset now =>
      obtain rfl : next = entry.close outgoing fin reset now := moved
      rcases entry.close_cases outgoing fin reset now with ⟨until_, timer, _⟩ | ⟨same, deadline⟩
      · cases timer.symm.trans unset
      · exact ⟨same.symm.trans unset, deadline⟩

theorem Timers.goesOn (earlier : entry.Timers log) (moved : entry.GoesOn touch next) :
    next.Timers (log ++ [touch]) := by
  obtain ⟨close, directions⟩ := earlier.closeUntil_goesOn moved
  have timed := earlier.timed.snoc touch shut_grows
  rw [← close] at timed
  refine ⟨directions, timed, moved.bounded earlier.bounded, ?_⟩
  intro unset
  obtain ⟨open_, deadline⟩ := moved.halfOpen unset
  obtain ⟨largest, now, ttl, member, same⟩ := earlier.halfOpen open_
  cases touch with
  | refreshed later more =>
      simp only [deadline, List.mem_append, List.mem_singleton, Touch.refreshed.injEq]
      refine ⟨?_, ?_⟩
      · rintro other lasting (before | ⟨rfl, rfl⟩)
        · exact le_max_of_le_left (largest other lasting before)
        · exact le_max_right _ _
      · rcases max_choice entry.deadline (later + more) with kept | moved
        · exact ⟨now, ttl, .inl member, kept.trans same⟩
        · exact ⟨later, more, .inr ⟨rfl, rfl⟩, moved⟩
  | closed outgoing fin reset later =>
      simp only [deadline, List.mem_append, List.mem_singleton, reduceCtorEq, or_false]
      exact ⟨largest, now, ttl, member, same⟩

theorem timers_of_lives (lived : Lives Begins GoesOn log entry) : entry.Timers log := by
  induction lived with
  | begun new => exact .begin new
  | gone _ moved ih => exact ih.goesOn moved

end Assignment

section Deadlines

variable {K : Type} [DecidableEq K] {sha256 : List UInt8 → List UInt8} {table : FlowTable K}

/-- A step that does not begin another assignment moves an open deadline only up. -/
theorem deadline_le {op flow entry next} (found : table.flows.get? flow = some entry)
    (kept : (table.step sha256 op).1.flows.get? flow = some next)
    (same : ∀ touch, turn table op flow ≠ .begins touch) (unset : next.closeUntil = none) :
    entry.deadline ≤ next.deadline := by
  have explained := FlowTable.turn_explains sha256 table op flow
  cases taken : turn table op flow with
  | stays =>
      rw [taken] at explained
      obtain rfl := Option.some.inj (found.symm.trans (explained next kept))
      exact le_rfl
  | begins touch => exact absurd taken (same touch)
  | goesOn touch =>
      rw [taken] at explained
      obtain ⟨earlier, present, moved⟩ := explained next kept
      obtain rfl := Option.mem_unique found present
      obtain ⟨_, deadline⟩ := moved.halfOpen unset
      cases touch with
      | refreshed now ttl => simp [deadline]
      | closed outgoing fin reset now => exact deadline.ge

end Deadlines

end PortHub.Network.ExitSelection

namespace PortHub.Network

open Runs Ledger

/-- In every run of either table, the close timer of an entry is set exactly once
    both directions have finished (or, for an assignment, a reset was reported), it
    stands two minutes after the event that did it, and the entry ends by then. Until
    that event a FIN shortens nothing: the last packet of a tracked flow sets its
    expiry, and the deadline of an assignment is the latest that its packets asked for.
    The log of a key is what its present entry has accepted since it began. -/
theorem closing_rule_of_both_tables {K : Type} [DecidableEq K] :
    (∀ history flows, Run (answers track) .empty history flows →
      ∃ log, Run (answers (logged track turn)) (.empty, fun _ => []) history (flows, log) ∧
      ∀ key flow, flows.get? key = some flow →
        (flow.closeUntil.isSome = true ↔
          finished (log key) false = true ∧ finished (log key) true = true) ∧
        (∀ limit, flow.closeUntil = some limit → flow.expires ≤ limit ∧
          ∃ last, FirstAt finishedBoth (log key) last ∧ limit = last.now + seconds 120) ∧
        (flow.closeUntil = none → ∃ last, (log key).getLast? = some last ∧
          flow.expires = last.now + phaseTtl key.protocol flow.phase)) ∧
    ∀ sha256 client random created history, ∀ table : ExitSelection.FlowTable K,
      Run (answers (ExitSelection.FlowTable.step sha256)) (.new client random created) history
        table →
      ∃ log, Run (answers (logged (ExitSelection.FlowTable.step sha256) ExitSelection.turn))
        (.new client random created, fun _ => []) history (table, log) ∧
      ∀ flow entry, table.flows.get? flow = some entry →
        (entry.closeUntil.isSome = true ↔ (log flow).any ExitSelection.Touch.resets = true ∨
          ExitSelection.finished (log flow) true = true ∧
            ExitSelection.finished (log flow) false = true) ∧
        (∀ limit, entry.closeUntil = some limit → entry.deadline ≤ limit ∧
          ∃ last, FirstAt ExitSelection.shut (log flow) last ∧ limit = last.now + seconds 120) ∧
        (entry.closeUntil = none →
          (∀ now ttl, .refreshed now ttl ∈ log flow → now + ttl ≤ entry.deadline) ∧
            ∃ now ttl, .refreshed now ttl ∈ log flow ∧ entry.deadline = now + ttl) ∧
        ∀ op next, (table.step sha256 op).1.flows.get? flow = some next →
          (∀ touch, ExitSelection.turn table op flow ≠ .begins touch) → next.closeUntil = none →
          entry.deadline ≤ next.deadline := by
  constructor
  · intro history flows run
    obtain ⟨log, run⟩ := logged_run turn run
    refine ⟨log, run, ?_⟩
    intro key flow found
    have timers := Flow.timers_of_lives
      (lives_of_run Dict.get? (fun _ => rfl) turn_explains run found)
    refine ⟨?_, fun limit set => ⟨timers.bounded limit set, timers.timed.value limit set⟩,
      timers.halfOpen⟩
    rw [timers.timed.set, finishedBoth, Bool.and_eq_true]
  · intro sha256 client random created history table run
    obtain ⟨log, run⟩ := logged_run ExitSelection.turn run
    refine ⟨log, run, ?_⟩
    intro flow entry found
    have timers := ExitSelection.Assignment.timers_of_lives
      (lives_of_run (fun table => table.flows.get?) (fun _ => rfl)
        (ExitSelection.FlowTable.turn_explains sha256) run found)
    refine ⟨?_, fun limit set => ⟨timers.bounded limit set, timers.timed.value limit set⟩,
      timers.halfOpen, fun op next kept same unset => ExitSelection.deadline_le found kept same unset⟩
    rw [timers.timed.set, ExitSelection.shut, Bool.or_eq_true, Bool.and_eq_true]

/-- A conversation that finishes an hour after its first FIN: packets after the
    second FIN do not move its end. -/
theorem finished_conversation_ends :
    let later := seconds 3600
    let calls : List Call := [⟨exampleSyn, "", true, 0⟩, ⟨exampleSynAck, "", false, 0⟩,
      ⟨exampleAck, "", true, 0⟩, ⟨{ exampleAck with fin := true }, "", true, 0⟩,
      ⟨{ exampleSynAck with syn := false, fin := true }, "", false, later⟩,
      ⟨exampleAck, "", true, later + seconds 60⟩]
    let flows := (feed track .empty calls).2
    ∃ flow, flows.get? exampleSyn.key = some flow ∧ flow.closeUntil = some (later + seconds 120) ∧
      flow.expires ≤ later + seconds 120 := by
  intro later calls flows
  have present : (flows.get? exampleSyn.key).map Flow.closeUntil =
      some (some (later + seconds 120)) := by decide
  obtain ⟨flow, found, close⟩ := Option.map_eq_some_iff.mp present
  obtain ⟨log, _, held⟩ := (closing_rule_of_both_tables (K := Nat)).1 _ _
    (feed_run track .empty calls)
  exact ⟨flow, found, close, ((held _ _ found).2.1 _ close).1⟩

end PortHub.Network
