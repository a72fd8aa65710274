import PortHub.Lib.Dict
import PortHub.Rust
import Mathlib.Data.Finset.Basic

/-! # The registry of the TCP adapter

The adapter ends TCP conversations beside the kernel. It keeps an entry for every
flow, a table from the tuples that its packets arrive with, and the set of flows
that others may ask for. The TCP stack itself is opaque: it gives out handles,
and what it answers is part of every event.
-/

namespace PortHub.Network.TcpStream

abbrev Bytes := List UInt8

structure SocketAddrV4 where
  ip : Ipv4Addr
  port : UInt16
  deriving DecidableEq

structure Flow where
  source : SocketAddrV4
  destination : SocketAddrV4
  deriving DecidableEq

def Flow.reverse (flow : Flow) : Flow := ⟨flow.destination, flow.source⟩

@[simp] theorem Flow.reverse_reverse (flow : Flow) : flow.reverse.reverse = flow := rfl

def maxFlows : Nat := 512

def connectTimeout : Nat := seconds 10

/-- A flow: its socket, the caller that still waits for the stream, and which
    ends of the pipe are closed. -/
structure Active where
  handle : Nat
  incoming : Flow
  application : Bool
  connected : Option Nat
  deadline : Nat
  eof : Bool
  readClosed : Bool

/-- Callers are numbered; `answers` is what was sent to them. -/
structure Runner where
  input : List Bytes
  sockets : Finset Nat
  flows : Dict Flow Active
  incoming : Dict Flow Flow
  active : Finset Flow
  answers : List (Nat × Result Unit)

def Runner.new : Runner := ⟨[], ∅, .empty, .empty, ∅, []⟩

/-- What the stack answers while a flow is created: whether the endpoint could be
    configured, the handle of the socket, how many packets it takes, and whether
    the socket is then bound to the source of the flow. -/
structure Setup where
  configured : Bool
  handle : Nat
  taken : Nat
  bound : Bool
  now : Nat

inductive Command where
  | accept (flow : Flow) (syn : Bytes) (connected : Nat)
  | connect (flow : Flow) (connected : Nat)
  | packet (bytes : Bytes)
  | close (flow : Flow)

/-- What the loop over the flows finds of a socket, after it aborted those whose
    caller gave up or waited too long. -/
structure Observed where
  established : Bool
  listening : Bool
  closed : Bool
  shut : Bool
  ended : Bool

inductive Event where
  | command (command : Command) (setup : Setup)
  | sockets (observed : Flow → Observed) (taken : Nat)
  | dropped

/-- `Handle::owns`. -/
def Runner.owns (runner : Runner) (flow : Flow) : Bool := decide (flow ∈ runner.active)

namespace Runner

def refuse (runner : Runner) (connected : Nat) (message : String) : Runner × Result Unit :=
  ({ runner with answers := runner.answers ++ [(connected, .error message)] }, .error message)

def register (setup : Setup) (runner : Runner) (flow incoming : Flow) (connected : Nat) : Runner :=
  { runner with
    incoming := runner.incoming.insert incoming flow
    active := insert flow runner.active
    flows := runner.flows.insert flow
      ⟨setup.handle, incoming, true, some connected, setup.now + connectTimeout, false, false⟩ }

def create (setup : Setup) (runner : Runner) (flow : Flow) (syn : Option Bytes) (connected : Nat) :
    Runner × Result Unit :=
  if maxFlows ≤ runner.flows.len ∨ runner.flows.contains flow then
    runner.refuse connected "private TCP flow unavailable"
  else
    let incoming := if syn.isSome then flow else flow.reverse
    if runner.incoming.contains incoming then
      runner.refuse connected "private TCP tuple already owned"
    else if !setup.configured then runner.refuse connected "private TCP endpoint unavailable"
    else
      let runner := { runner with sockets := insert setup.handle runner.sockets }
      match syn with
      | none => (runner.register setup flow incoming connected, .ok ())
      | some syn =>
          -- The listener is bound to its remote tuple before another is made.
          let runner := { runner with input := (runner.input ++ [syn]).drop setup.taken }
          if setup.bound then (runner.register setup flow incoming connected, .ok ())
          else
            { runner with sockets := runner.sockets.erase setup.handle }.refuse connected
              "private TCP SYN was rejected"

section Commands

-- The tuple of a packet, as the library for packets reads it.
variable (fromPacket : Bytes → Option Flow)

def perform (setup : Setup) (runner : Runner) : Command → Runner
  | .accept flow syn connected => (runner.create setup flow (some syn) connected).1
  | .connect flow connected => (runner.create setup flow none connected).1
  | .packet bytes =>
      if (fromPacket bytes).any fun tuple => runner.incoming.contains tuple then
        { runner with input := runner.input ++ [bytes] }
      else runner
  -- The socket of the flow is aborted; the next round finds it closed.
  | .close _ => runner

/-- The loop over the flows, for one of them: the caller is answered once the
    connection is made, and the ends of the pipe are closed. -/
def visit (observed : Observed) (entry : Active) : Active :=
  let entry :=
    if observed.established && entry.connected.isSome then
      { entry with connected := none, application := false }
    else entry
  if observed.closed then entry
  else
    { entry with
      readClosed := entry.readClosed || (entry.connected.isNone && observed.shut)
      eof := entry.eof || observed.ended }

def greeted (observed : Observed) (entry : Active) : List (Nat × Result Unit) :=
  if observed.established && observed.listening then
    (entry.connected.map fun connected => (connected, .ok ())).toList
  else []

/-- A flow whose socket is closed. -/
def remove (runner : Runner) (flow : Flow) : Runner :=
  match runner.flows.get? flow with
  | none => runner
  | some entry =>
      let answers := (entry.connected.map fun connected =>
        (connected, Except.error "private TCP connection closed")).toList
      { runner with
        flows := runner.flows.erase flow
        incoming := runner.incoming.erase entry.incoming
        active := runner.active.erase flow
        sockets := runner.sockets.erase entry.handle
        answers := runner.answers ++ answers }

/-- The part of `poll` after the commands. -/
def pollSockets (runner : Runner) (observed : Flow → Observed) (taken : Nat) : Runner :=
  let closed := (runner.flows.entries.filter fun entry => (observed entry.1).closed).map Prod.fst
  let answers := runner.flows.entries.flatMap fun entry => greeted (observed entry.1) entry.2
  let visited : Runner :=
    { runner with
      input := runner.input.drop taken
      flows := runner.flows.map fun flow entry => visit (observed flow) entry
      answers := runner.answers ++ answers }
  closed.foldl remove visited

/-- A round of `poll` is some commands and then the sockets. -/
def step (runner : Runner) : Event → Runner
  | .command command setup => runner.perform fromPacket setup command
  | .sockets observed taken => runner.pollSockets observed taken
  | .dropped => { new with answers := runner.answers }

def run (events : List Event) : Runner := events.foldl (step fromPacket) .new

end Commands

end Runner

/-- The three tables agree. -/
structure Registered (runner : Runner) : Prop where
  active : ∀ flow, flow ∈ runner.active ↔ ∃ entry, runner.flows.get? flow = some entry
  indexed : ∀ tuple flow, runner.incoming.get? tuple = some flow ↔
    ∃ entry, runner.flows.get? flow = some entry ∧ entry.incoming = tuple
  bounded : runner.flows.len ≤ maxFlows

namespace Registered

variable {runner : Runner}

theorem new : Registered .new := by
  refine ⟨?_, ?_, ?_⟩
  · simp [Runner.new]
  · simp [Runner.new]
  · exact Nat.zero_le _

section

variable (registered : Registered runner)

include registered

/-- Two flows do not share the tuple that their packets arrive with. -/
theorem distinct {first second entry other}
    (found : runner.flows.get? first = some entry) (also : runner.flows.get? second = some other)
    (same : entry.incoming = other.incoming) : first = second := by
  have one := (registered.indexed other.incoming first).mpr ⟨entry, found, same⟩
  have two := (registered.indexed other.incoming second).mpr ⟨other, also, rfl⟩
  exact Option.mem_unique one two

/-- The tables are looked at through these only. -/
theorem congr {after : Runner}
    (flows : after.flows = runner.flows) (incoming : after.incoming = runner.incoming)
    (active : after.active = runner.active) : Registered after := by
  obtain ⟨owned, indexed, bounded⟩ := registered
  exact ⟨by rw [flows, active]; exact owned, by rw [flows, incoming]; exact indexed,
    by rw [flows]; exact bounded⟩

/-- A flow whose tuple is free is entered into all three tables. -/
theorem register {setup flow incoming} (connected : Nat)
    (room : runner.flows.len < maxFlows) (fresh : runner.flows.get? flow = none)
    (free : runner.incoming.get? incoming = none) :
    Registered (runner.register setup flow incoming connected) := by
  refine ⟨?_, ?_, ?_⟩
  · intro other
    by_cases here : other = flow
    · subst here
      simp [Runner.register]
    · simp [Runner.register, here, registered.active]
  · intro tuple other
    by_cases same : tuple = incoming
    · subst same
      by_cases here : other = flow
      · subst here
        simp [Runner.register]
      · simp only [Runner.register, Dict.get?_insert_self, Dict.get?_insert_ne _ _ here]
        constructor
        · intro equal
          exact absurd (Option.some.inj equal).symm here
        · intro known
          have taken := (registered.indexed tuple other).mpr known
          cases free.symm.trans taken
    · by_cases here : other = flow
      · subst here
        simp only [Runner.register, Dict.get?_insert_self, Dict.get?_insert_ne _ _ same]
        constructor
        · intro known
          obtain ⟨old, found, _⟩ := (registered.indexed tuple other).mp known
          cases fresh.symm.trans found
        · rintro ⟨old, found, equal⟩
          cases found
          exact absurd equal.symm same
      · simp only [Runner.register, Dict.get?_insert_ne _ _ here, Dict.get?_insert_ne _ _ same]
        exact registered.indexed tuple other
  · exact (Dict.len_insert_le _ _ _).trans room

/-- A flow that is closed is taken out of all three tables. -/
theorem remove (flow : Flow) : Registered (runner.remove flow) := by
  unfold Runner.remove
  split
  · exact registered
  · rename_i entry found
    refine ⟨?_, ?_, ?_⟩
    · intro other
      by_cases here : other = flow
      · subst here
        simp
      · simp [here, registered.active]
    · intro tuple other
      by_cases same : tuple = entry.incoming
      · subst same
        simp only [Dict.get?_erase_self]
        constructor
        · nofun
        · rintro ⟨rest, present, equal⟩
          obtain ⟨apart, old⟩ := Dict.get?_of_erase present
          exact absurd (registered.distinct old found equal) apart
      · simp only [Dict.get?_erase_ne _ same]
        by_cases here : other = flow
        · subst here
          simp only [Dict.get?_erase_self]
          constructor
          · intro known
            obtain ⟨old, present, equal⟩ := (registered.indexed tuple other).mp known
            obtain rfl := Option.mem_unique found present
            exact absurd equal.symm same
          · rintro ⟨_, impossible, _⟩
            cases impossible
        · simp only [Dict.get?_erase_ne _ here]
          exact registered.indexed tuple other
    · exact (Dict.len_erase_le _ _).trans registered.bounded

theorem removeAll (flows : List Flow) :
    Registered (flows.foldl Runner.remove runner) := by
  induction flows generalizing runner with
  | nil => exact registered
  | cons flow rest ih => exact ih (registered.remove flow)

end

/-- A round over the sockets does not change which tuple a flow has. -/
theorem visit_incoming (observed : Observed) (entry : Active) :
    (Runner.visit observed entry).incoming = entry.incoming := by
  unfold Runner.visit
  split
  · split <;> rfl
  · split <;> rfl

theorem visited (registered : Registered runner) {after : Runner} (observed : Flow → Observed)
    (flows : after.flows = runner.flows.map fun flow entry => Runner.visit (observed flow) entry)
    (incoming : after.incoming = runner.incoming) (active : after.active = runner.active) :
    Registered after := by
  obtain ⟨owned, indexed, bounded⟩ := registered
  refine ⟨?_, ?_, ?_⟩
  · intro flow
    rw [active, flows, owned flow, Dict.get?_map]
    simp
  · intro tuple flow
    rw [incoming, flows, indexed tuple flow, Dict.get?_map]
    simp [visit_incoming]
  · rw [flows]
    simpa [Dict.len, Dict.map] using bounded

end Registered

section Create

variable {setup : Setup} {runner : Runner} {flow : Flow} {syn : Option Bytes} {connected : Nat}

/-- From which end a flow was opened. -/
inductive Side where
  | accepted
  | dialled
  deriving DecidableEq

/-- The tuple that the packets of a flow arrive with. -/
def Side.tuple (flow : Flow) : Side → Flow
  | .accepted => flow
  | .dialled => flow.reverse

def Side.ofSyn (syn : Option Bytes) : Side := if syn.isSome then .accepted else .dialled

/-- Everything `create` can do: nothing to the tables, or a new flow whose tuple
    was free. -/
inductive Creates (setup : Setup) (runner : Runner) (flow : Flow) (side : Side) (connected : Nat) :
    Runner × Result Unit → Prop where
  | refused {after : Runner} {message : String} (flows : after.flows = runner.flows)
      (incoming : after.incoming = runner.incoming) (active : after.active = runner.active) :
      Creates setup runner flow side connected (after, .error message)
  | registered {before : Runner} (flows : before.flows = runner.flows)
      (incoming : before.incoming = runner.incoming) (active : before.active = runner.active)
      (room : runner.flows.len < maxFlows) (fresh : runner.flows.get? flow = none)
      (free : runner.incoming.get? (side.tuple flow) = none) :
      Creates setup runner flow side connected
        (before.register setup flow (side.tuple flow) connected, .ok ())

theorem create_creates :
    Creates setup runner flow (.ofSyn syn) connected (runner.create setup flow syn connected) := by
  unfold Runner.create
  split
  · exact .refused rfl rfl rfl
  · rename_i available
    rw [not_or, Nat.not_le] at available
    obtain ⟨room, unknown⟩ := available
    have fresh : runner.flows.get? flow = none := by
      simpa [Dict.contains] using unknown
    have tuple : (if syn.isSome then flow else flow.reverse) = (Side.ofSyn syn).tuple flow := by
      cases syn <;> rfl
    dsimp only
    rw [tuple]
    split
    · exact .refused rfl rfl rfl
    · rename_i untaken
      have free : runner.incoming.get? ((Side.ofSyn syn).tuple flow) = none := by
        simpa [Dict.contains] using untaken
      split
      · exact .refused rfl rfl rfl
      · split
        · exact .registered rfl rfl rfl room fresh free
        · split
          · exact .registered rfl rfl rfl room fresh free
          · exact .refused rfl rfl rfl

theorem Registered.create (registered : Registered runner) :
    Registered (runner.create setup flow syn connected).1 := by
  have creates := @create_creates setup runner flow syn connected
  generalize runner.create setup flow syn connected = outcome at creates ⊢
  cases creates with
  | refused flows incoming active => exact registered.congr flows incoming active
  | registered flows incoming active room fresh free =>
      refine (registered.congr flows incoming active).register connected ?_ ?_ ?_
      · rw [flows]
        exact room
      · rw [flows]
        exact fresh
      · rw [incoming]
        exact free

theorem create_failed {message}
    (failed : (runner.create setup flow syn connected).2 = .error message) :
    (runner.create setup flow syn connected).1.flows = runner.flows ∧
      (runner.create setup flow syn connected).1.incoming = runner.incoming ∧
      (runner.create setup flow syn connected).1.active = runner.active := by
  have creates := @create_creates setup runner flow syn connected
  generalize runner.create setup flow syn connected = outcome at creates failed ⊢
  cases creates with
  | refused flows incoming active => exact ⟨flows, incoming, active⟩
  | registered => cases failed

/-- An entry was there before, or it is the one that was created. -/
theorem create_entry {other entry}
    (found : (runner.create setup flow syn connected).1.flows.get? other = some entry) :
    runner.flows.get? other = some entry ∨
      other = flow ∧ runner.flows.get? flow = none ∧ entry.incoming = (Side.ofSyn syn).tuple flow := by
  have creates := @create_creates setup runner flow syn connected
  generalize runner.create setup flow syn connected = outcome at creates found
  cases creates with
  | refused flows _ _ => exact .inl (flows ▸ found)
  | registered flows _ _ _ fresh _ =>
      rcases Dict.get?_of_insert found with ⟨rfl, rfl⟩ | ⟨_, old⟩
      · exact .inr ⟨rfl, fresh, rfl⟩
      · exact .inl (flows ▸ old)

theorem remove_entry {other entry} (found : (runner.remove flow).flows.get? other = some entry) :
    runner.flows.get? other = some entry := by
  unfold Runner.remove at found
  split at found
  · exact found
  · exact (Dict.get?_of_erase found).2

theorem removeAll_entry {closed : List Flow} {other entry}
    (found : (closed.foldl Runner.remove runner).flows.get? other = some entry) :
    runner.flows.get? other = some entry := by
  induction closed generalizing runner with
  | nil => exact found
  | cons first rest ih => exact remove_entry (ih found)

end Create

section Runs

variable {fromPacket : Bytes → Option Flow} {runner : Runner}

theorem Registered.step (registered : Registered runner) (event : Event) :
    Registered (runner.step fromPacket event) := by
  cases event with
  | command command setup =>
      cases command with
      | accept flow syn connected => exact registered.create
      | connect flow connected => exact registered.create
      | packet bytes =>
          simp only [Runner.step, Runner.perform]
          split
          · exact registered.congr rfl rfl rfl
          · exact registered
      | close flow => exact registered
  | sockets observed taken =>
      refine Registered.removeAll ?_ _
      exact registered.visited observed rfl rfl rfl
  | dropped => exact Registered.new.congr rfl rfl rfl

theorem run_append (events : List Event) (event : Event) :
    Runner.run fromPacket (events ++ [event]) =
      (Runner.run fromPacket events).step fromPacket event := by
  simp [Runner.run]

theorem run_registered (fromPacket : Bytes → Option Flow) (events : List Event) :
    Registered (Runner.run fromPacket events) := by
  induction events using List.reverseRecOn with
  | nil => exact .new
  | append_singleton earlier event ih =>
      rw [run_append]
      exact ih.step event

/-- The flow that the event opens, and from which end. -/
def Event.opens : Event → Option (Flow × Side)
  | .command (.accept flow _ _) _ => some (flow, .accepted)
  | .command (.connect flow _) _ => some (flow, .dialled)
  | _ => none

/-- The flow came about by such a command: it was not there before, and it has
    been there ever since. -/
def Opened (fromPacket : Bytes → Option Flow) (events : List Event) (flow : Flow) (side : Side) :
    Prop :=
  ∃ before event after, events = before ++ event :: after ∧ event.opens = some (flow, side) ∧
    (Runner.run fromPacket before).owns flow = false ∧
    ∀ more, more <+: after →
      (Runner.run fromPacket (before ++ event :: more)).owns flow = true

theorem Registered.owns_iff (registered : Registered runner) (flow : Flow) :
    runner.owns flow = true ↔ ∃ entry, runner.flows.get? flow = some entry := by
  rw [Runner.owns, decide_eq_true_iff, registered.active]

/-- A round of the loop keeps the tuple of a flow, and a flow appears only when it
    is opened. -/
theorem step_entry {event : Event} {flow entry}
    (found : (runner.step fromPacket event).flows.get? flow = some entry) :
    (∃ old, runner.flows.get? flow = some old ∧ entry.incoming = old.incoming) ∨
      runner.flows.get? flow = none ∧
        ∃ side, event.opens = some (flow, side) ∧ entry.incoming = side.tuple flow := by
  cases event with
  | command command setup =>
      cases command with
      | accept other syn connected =>
          rcases create_entry found with old | ⟨rfl, fresh, tuple⟩
          · exact .inl ⟨entry, old, rfl⟩
          · exact .inr ⟨fresh, .accepted, rfl, tuple⟩
      | connect other connected =>
          rcases create_entry found with old | ⟨rfl, fresh, tuple⟩
          · exact .inl ⟨entry, old, rfl⟩
          · exact .inr ⟨fresh, .dialled, rfl, tuple⟩
      | packet bytes =>
          simp only [Runner.step, Runner.perform] at found
          split at found
          · exact .inl ⟨entry, found, rfl⟩
          · exact .inl ⟨entry, found, rfl⟩
      | close other => exact .inl ⟨entry, found, rfl⟩
  | sockets observed taken =>
      have present := removeAll_entry found
      rw [Dict.get?_map] at present
      obtain ⟨old, known, rfl⟩ := Option.map_eq_some_iff.mp present
      exact .inl ⟨old, known, Registered.visit_incoming _ old⟩
  | dropped => cases found

/-- Every flow was opened from the end that its tuple shows. -/
theorem entry_opened {events : List Event} {flow entry}
    (found : (Runner.run fromPacket events).flows.get? flow = some entry) :
    ∃ side, Opened fromPacket events flow side ∧ entry.incoming = side.tuple flow := by
  induction events using List.reverseRecOn generalizing entry with
  | nil => cases found
  | append_singleton earlier event ih =>
      have now : (Runner.run fromPacket (earlier ++ [event])).owns flow = true :=
        ((run_registered _ _).owns_iff flow).mpr ⟨entry, found⟩
      rw [run_append] at found
      rcases step_entry found with ⟨old, known, same⟩ | ⟨fresh, side, opens, tuple⟩
      · obtain ⟨side, ⟨before, first, after, rfl, opens, absent, since⟩, tuple⟩ := ih known
        refine ⟨side, ⟨before, first, after ++ [event], by simp, opens, absent, ?_⟩, same.trans tuple⟩
        intro more inside
        rcases List.prefix_concat_iff.mp inside with rfl | shorter
        · simpa using now
        · exact since more shorter
      · refine ⟨side, ⟨earlier, event, [], rfl, opens, ?_, ?_⟩, tuple⟩
        · rw [Bool.eq_false_iff, Ne, (run_registered _ _).owns_iff]
          rintro ⟨old, known⟩
          cases fresh.symm.trans known
        · intro more inside
          rw [List.prefix_nil.mp inside]
          exact now

/-- A flow that has been there since one command did not appear at a later one. -/
theorem Opened.side_eq {events : List Event} {flow first second}
    (one : Opened fromPacket events flow first) (two : Opened fromPacket events flow second) :
    first = second := by
  obtain ⟨before, event, after, rfl, opens, absent, since⟩ := one
  obtain ⟨earlier, other, rest, same, also, missing, staying⟩ := two
  rcases List.append_eq_append_iff.mp same with ⟨between, rfl, split⟩ | ⟨between, rfl, split⟩
  · cases between with
    | nil =>
        cases split
        exact congrArg Prod.snd (Option.some.inj (opens.symm.trans also))
    | cons head tail =>
        cases split
        rw [since tail (List.prefix_append _ _)] at missing
        cases missing
  · cases between with
    | nil =>
        cases split
        exact congrArg Prod.snd (Option.some.inj (opens.symm.trans also))
    | cons head tail =>
        cases split
        rw [staying tail (List.prefix_append _ _)] at absent
        cases absent

/-- The entry of a flow that was opened from one end. -/
theorem Opened.entry {events : List Event} {flow side} (opened : Opened fromPacket events flow side) :
    ∃ entry, (Runner.run fromPacket events).flows.get? flow = some entry ∧
      entry.incoming = side.tuple flow := by
  have now : (Runner.run fromPacket events).owns flow = true := by
    obtain ⟨before, event, after, rfl, _, _, since⟩ := opened
    exact since after List.prefix_rfl
  obtain ⟨entry, found⟩ := ((run_registered _ _).owns_iff flow).mp now
  obtain ⟨other, also, tuple⟩ := entry_opened found
  exact ⟨entry, found, opened.side_eq also ▸ tuple⟩

end Runs

/-- In every run the three tables name the same flows, each flow is found by its
    own incoming tuple, the flow itself if it was accepted and its reverse if it was
    dialled, and no other flow by the same; an accepted flow and its dialled reverse
    are never there together. There are at most 512, and a creation that fails leaves
    the tables alone. -/
theorem registry_agrees (fromPacket : Bytes → Option Flow) (events : List Event) :
    let runner := Runner.run fromPacket events
    (∀ flow, runner.owns flow = runner.flows.contains flow) ∧
    (∀ flow, flow ∈ runner.incoming.values ↔ runner.flows.contains flow = true) ∧
    (∀ flow entry, runner.flows.get? flow = some entry →
      runner.incoming.get? entry.incoming = some flow ∧
        ∃ side, Opened fromPacket events flow side ∧ entry.incoming = side.tuple flow) ∧
    (∀ first second entry other, runner.flows.get? first = some entry →
      runner.flows.get? second = some other → entry.incoming = other.incoming → first = second) ∧
    (∀ flow, ¬(Opened fromPacket events flow .accepted ∧
      Opened fromPacket events flow.reverse .dialled)) ∧
    runner.flows.len ≤ 512 ∧
    ∀ setup flow syn connected message, (runner.create setup flow syn connected).2 = .error message →
      (runner.create setup flow syn connected).1.flows = runner.flows ∧
      (runner.create setup flow syn connected).1.incoming = runner.incoming ∧
      (runner.create setup flow syn connected).1.active = runner.active := by
  intro runner
  have registered : Registered runner := run_registered fromPacket events
  refine ⟨?_, ?_, ?_, ?_, ?_, registered.bounded, ?_⟩
  · intro flow
    rw [Bool.eq_iff_iff, registered.owns_iff, Dict.contains_iff]
  · intro flow
    rw [Dict.mem_values_iff, Dict.contains_iff]
    constructor
    · rintro ⟨tuple, found⟩
      obtain ⟨entry, present, _⟩ := (registered.indexed tuple flow).mp found
      exact ⟨entry, present⟩
    · rintro ⟨entry, present⟩
      exact ⟨entry.incoming, (registered.indexed _ flow).mpr ⟨entry, present, rfl⟩⟩
  · intro flow entry present
    exact ⟨(registered.indexed _ flow).mpr ⟨entry, present, rfl⟩, entry_opened present⟩
  · intro first second entry other found also same
    exact registered.distinct found also same
  · rintro flow ⟨accepted, dialled⟩
    obtain ⟨entry, found, tuple⟩ := accepted.entry
    obtain ⟨other, also, reversed⟩ := dialled.entry
    have same : flow = flow.reverse := registered.distinct found also (tuple.trans reversed.symm)
    rw [← same] at dialled
    cases accepted.side_eq dialled
  · intro setup flow syn connected message failed
    exact create_failed failed

def exampleFlow : Flow := ⟨⟨⟨10, 0, 0, 1⟩, 40000⟩, ⟨⟨10, 0, 0, 2⟩, 443⟩⟩

def exampleEvents : List Event :=
  [.command (.accept exampleFlow [] 1) ⟨true, 0, 1, true, 0⟩,
    .command (.connect exampleFlow.reverse 2) ⟨true, 1, 0, true, 0⟩]

/-- The tuple of an accepted flow cannot be dialled from the other end. -/
theorem accepted_tuple_is_not_dialled :
    Opened (fun _ => none) exampleEvents exampleFlow .accepted ∧
      ¬Opened (fun _ => none) exampleEvents exampleFlow.reverse .dialled ∧
      (Runner.run (fun _ => none) exampleEvents).answers =
        [(2, .error "private TCP tuple already owned")] := by
  have accepted : Opened (fun _ => none) exampleEvents exampleFlow .accepted := by
    refine ⟨[], _, _, rfl, rfl, rfl, ?_⟩
    intro more inside
    rcases List.prefix_cons_iff.mp inside with rfl | ⟨rest, rfl, shorter⟩
    · decide
    · rw [List.prefix_nil.mp shorter]
      decide
  have agrees := registry_agrees (fun _ => none) exampleEvents
  exact ⟨accepted, fun dialled => agrees.2.2.2.2.1 exampleFlow ⟨accepted, dialled⟩, by decide⟩

end PortHub.Network.TcpStream
