import PortHub.Network.Tracking

/-! # Transport pins

An inner flow stays on the transport it started on. A table keeps the pin of
each flow, direct or relay, with the time until which it holds. Both directions
of a flow have one entry, under the smaller of the tuple and its reverse.
-/

namespace PortHub.Network

open Runs

/-- The fields of a tuple in the order in which `Ord` compares them. -/
def Key.rank (key : Key) : List Nat :=
  (key.src.octets ++ key.dst.octets).map UInt8.toNat ++
    [key.protocol.toNat, key.sport.toNat, key.dport.toNat, key.icmp.toNat]

def Key.min (key other : Key) : Key := if other.rank < key.rank then other else key

structure FlowId where
  key : Key
  deriving DecidableEq, Repr

def Packet.flowId (packet : Packet) : FlowId := ⟨packet.key.min packet.key.reverse⟩

def Packet.flowTtl (packet : Packet) : Nat :=
  if packet.key.protocol == 6 && packet.ack && !packet.syn then tcpEstablishedTtl
  else ttl packet.key.protocol

theorem Key.rank_injective {key other : Key} (same : key.rank = other.rank) : key = other := by
  obtain ⟨⟨a, b, c, d⟩, ⟨e, f, g, h⟩, protocol, sport, dport, icmp⟩ := key
  obtain ⟨⟨a', b', c', d'⟩, ⟨e', f', g', h'⟩, protocol', sport', dport', icmp'⟩ := other
  simp only [Key.rank, Ipv4Addr.octets, List.cons_append, List.nil_append, List.map_cons,
    List.map_nil, List.cons.injEq, and_true, UInt8.toNat_inj, UInt16.toNat_inj] at same
  simp only [Key.mk.injEq, Ipv4Addr.mk.injEq]
  tauto

theorem Key.min_cases (key other : Key) : key.min other = key ∨ key.min other = other := by
  unfold Key.min
  split
  · exact .inr rfl
  · exact .inl rfl

theorem Key.min_comm (key other : Key) : key.min other = other.min key := by
  unfold Key.min
  by_cases below : other.rank < key.rank
  · have above : ¬ key.rank < other.rank := fun above =>
      List.lt_irrefl _ (List.lt_trans below above)
    rw [if_pos below, if_neg above]
  · rw [if_neg below]
    split
    · rfl
    · rename_i level
      exact Key.rank_injective (List.le_antisymm (List.not_lt.mp below) (List.not_lt.mp level))

/-- Two packets have one identifier exactly if they belong to one flow, in either
    direction. -/
theorem flowId_eq_iff {packet other : Packet} :
    packet.flowId = other.flowId ↔ other.key = packet.key ∨ other.key = packet.key.reverse := by
  simp only [Packet.flowId, FlowId.mk.injEq]
  constructor
  · intro same
    rcases packet.key.min_cases packet.key.reverse with mine | mine <;>
      rcases other.key.min_cases other.key.reverse with theirs | theirs <;>
      rw [mine, theirs] at same
    · exact .inl same.symm
    · refine .inr ?_
      rw [same, Key.reverse_reverse]
    · exact .inr same.symm
    · refine .inl ?_
      rw [← Key.reverse_reverse other.key, ← same, Key.reverse_reverse]
  · rintro (same | same)
    · rw [same]
    · rw [same, Key.reverse_reverse, Key.min_comm]

namespace Paths

structure Pin where
  direct : Bool
  expires : Nat
  deriving DecidableEq, Repr

/-- `Pinned`. -/
abbrev Pins := Dict FlowId Pin

/-- Most flows a table pins. -/
def pinLimit : Nat := 65536

def expireAtCapacity (flows : Pins) (now : Nat) : Pins :=
  if pinLimit ≤ flows.len then flows.retain fun _ pin => decide (now < pin.expires) else flows

def observe (flows : Pins) (packet : Packet) (direct : Bool) (now : Nat) : Pins :=
  let key := packet.flowId
  let flows := expireAtCapacity flows now
  if decide (flows.len < pinLimit) || flows.contains key then
    let entry := (flows.get? key).getD ⟨direct, now⟩
    -- Receiving through the relay shows that the other side had to fail over.
    let route := if !direct then false else entry.direct
    flows.insert key ⟨route, now + packet.flowTtl⟩
  else flows

/-- An established direct flow whose direct transport is gone. -/
def failOver (route direct relay : Bool) : Option Bool :=
  if route && !direct then (if relay then some false else none) else some route

/-- The route of an established flow: it moves only to the transport that is left. -/
def reroute (route direct relay : Bool) : Option Bool :=
  (failOver route direct relay).bind fun route =>
    if !route && !relay then (if direct then some true else none) else some route

/-- The route of a new flow. -/
def prefer (direct relay preferDirect : Bool) : Option Bool :=
  if direct && (preferDirect || !relay) then some true
  else if relay then some false
  else none

def choosePreferred (flows : Pins) (packet : Packet) (direct relay preferDirect : Bool)
    (now : Nat) : Pins × Option Bool :=
  let key := packet.flowId
  match (flows.get? key).filter fun pin => decide (now < pin.expires) with
  | some pin =>
      match reroute pin.direct direct relay with
      | none => (flows, none)
      | some route => (flows.insert key ⟨route, now + packet.flowTtl⟩, some route)
  | none =>
      match prefer direct relay preferDirect with
      | none => (flows, none)
      | some route =>
          let flows := expireAtCapacity flows now
          if decide (pinLimit ≤ flows.len) && !flows.contains key then (flows, none)
          else (flows.insert key ⟨route, now + packet.flowTtl⟩, some route)

def choose (flows : Pins) (packet : Packet) (direct relay : Bool) (now : Nat) :
    Pins × Option Bool :=
  choosePreferred flows packet direct relay true now

/-- A call with the clock reading it takes. -/
inductive Op where
  | observe (packet : Packet) (direct : Bool) (now : Nat)
  | choose (packet : Packet) (direct relay : Bool) (now : Nat)
  | choosePreferred (packet : Packet) (direct relay preferDirect : Bool) (now : Nat)
  deriving DecidableEq, Repr

inductive Answer where
  | done
  | route (direct : Option Bool)
  deriving DecidableEq, Repr

def step (flows : Pins) : Op → Pins × Answer
  | .observe packet direct now => (observe flows packet direct now, .done)
  | .choose packet direct relay now =>
      let (next, route) := choose flows packet direct relay now
      (next, .route route)
  | .choosePreferred packet direct relay preferDirect now =>
      let (next, route) := choosePreferred flows packet direct relay preferDirect now
      (next, .route route)

namespace Op

def packet : Op → Packet
  | .observe packet _ _ | .choose packet _ _ _ | .choosePreferred packet _ _ _ _ => packet

def now : Op → Nat
  | .observe _ _ now | .choose _ _ _ now | .choosePreferred _ _ _ _ now => now

end Op

/-- A choice in either form, with what is available. -/
structure Choice where
  packet : Packet
  direct : Bool
  relay : Bool
  preferDirect : Bool
  now : Nat

def Op.choice : Op → Option Choice
  | .observe _ _ _ => none
  | .choose packet direct relay now => some ⟨packet, direct, relay, true, now⟩
  | .choosePreferred packet direct relay preferDirect now =>
      some ⟨packet, direct, relay, preferDirect, now⟩

variable {direct relay chosen : Bool}

theorem reroute_available {route} (chose : reroute route direct relay = some chosen) :
    (chosen = true → direct = true) ∧ (chosen = false → relay = true) := by
  revert route direct relay chosen
  decide

theorem reroute_eq_none (route : Bool) :
    reroute route direct relay = none ↔ direct = false ∧ relay = false := by
  revert route direct relay
  decide

/-- An established flow leaves a transport only when that transport is gone. -/
theorem reroute_moves {route} (chose : reroute route direct relay = some chosen) :
    (route = true → chosen = false → direct = false) ∧
      (route = false → chosen = true → relay = false) := by
  revert route direct relay chosen
  decide

theorem prefer_available {preferDirect} (chose : prefer direct relay preferDirect = some chosen) :
    (chosen = true → direct = true) ∧ (chosen = false → relay = true) := by
  revert direct relay preferDirect chosen
  decide

section Calls

variable {flows : Pins} {op : Op} {choice : Choice} {flow : FlowId} {pin : Pin} {direct : Bool}

theorem step_choice (chosen : op.choice = some choice) :
    step flows op =
      ((choosePreferred flows choice.packet choice.direct choice.relay choice.preferDirect
        choice.now).1,
      .route (choosePreferred flows choice.packet choice.direct choice.relay choice.preferDirect
        choice.now).2) := by
  cases op with
  | observe => cases chosen
  | choose | choosePreferred =>
      cases chosen
      rfl

theorem choice_now (chosen : op.choice = some choice) :
    op.now = choice.now ∧ op.packet = choice.packet := by
  cases op with
  | observe => cases chosen
  | choose | choosePreferred =>
      cases chosen
      exact ⟨rfl, rfl⟩

/-- The pin of a flow while it holds. -/
theorem choosePreferred_pinned {packet : Packet} {relay preferDirect now}
    (found : flows.get? packet.flowId = some pin) (live : now < pin.expires) :
    choosePreferred flows packet direct relay preferDirect now =
      match reroute pin.direct direct relay with
      | none => (flows, none)
      | some route => (flows.insert packet.flowId ⟨route, now + packet.flowTtl⟩, some route) := by
  simp [choosePreferred, found, Option.filter, live]

/-- The answer of a choice is an available transport. -/
theorem choosePreferred_available {packet relay preferDirect now route}
    (answered : (choosePreferred flows packet direct relay preferDirect now).2 = some route) :
    (route = true → direct = true) ∧ (route = false → relay = true) := by
  unfold choosePreferred at answered
  dsimp only at answered
  split at answered
  · split at answered
    · cases answered
    · rename_i chose
      cases answered
      exact reroute_available chose
  · split at answered
    · cases answered
    · rename_i chose
      split at answered
      · cases answered
      · cases answered
        exact prefer_available chose

/-- A table that is full drops expired pins only. -/
theorem expireAtCapacity_get? {now} (found : flows.get? flow = some pin) (live : now < pin.expires) :
    (expireAtCapacity flows now).get? flow = some pin := by
  unfold expireAtCapacity
  split
  · simp [found, live]
  · exact found

theorem observe_pinned {packet : Packet} {now} (found : flows.get? packet.flowId = some pin)
    (live : now < pin.expires) :
    observe flows packet direct now = (expireAtCapacity flows now).insert packet.flowId
      ⟨if !direct then false else pin.direct, now + packet.flowTtl⟩ := by
  have kept := expireAtCapacity_get? found live
  simp [observe, kept, Dict.contains]

/-- Calls about other flows keep a pin that holds. -/
theorem step_other (found : flows.get? flow = some pin) (live : op.now < pin.expires)
    (other : op.packet.flowId ≠ flow) : (step flows op).1.get? flow = some pin := by
  cases chosen : op.choice with
  | none =>
      cases op with
      | choose | choosePreferred => cases chosen
      | observe packet direct now =>
          have kept := expireAtCapacity_get? found live
          simp only [Op.packet] at other
          simp only [step, observe]
          split
          · rw [Dict.get?_insert_ne _ _ (Ne.symm other)]
            exact kept
          · exact kept
  | some choice =>
      obtain ⟨time, packet⟩ := choice_now chosen
      rw [time] at live
      rw [packet] at other
      have kept := expireAtCapacity_get? found live
      rw [step_choice chosen]
      unfold choosePreferred
      dsimp only
      split
      · split
        · exact found
        · rw [Dict.get?_insert_ne _ _ (Ne.symm other)]
          exact found
      · split
        · exact found
        · split
          · exact kept
          · rw [Dict.get?_insert_ne _ _ (Ne.symm other)]
            exact kept

end Calls

/-- A call that moves a flow off the direct transport: no direct transport at a
    choice, or one of its packets came over the relay. -/
def LeavesDirect (flow : FlowId) (op : Op) : Prop :=
  op.packet.flowId = flow ∧
    ((∃ choice, op.choice = some choice ∧ choice.direct = false) ∨
      ∃ packet now, op = .observe packet false now)

/-- A call that moves a flow off the relay: no relay at a choice. -/
def LeavesRelay (flow : FlowId) (op : Op) : Prop :=
  op.packet.flowId = flow ∧ ∃ choice, op.choice = some choice ∧ choice.relay = false

/-- A call that finds the pin of the flow unexpired. -/
def Held (flow : FlowId) (flows : Pins) (event : Op × Answer) (next : Pins) : Prop :=
  answers step flows event next ∧
    ∃ pin, flows.get? flow = some pin ∧ event.1.now < pin.expires

section Moves

variable {flows next : Pins} {op : Op} {flow : FlowId} {pin : Pin}

/-- One call on a pin that holds. -/
theorem step_moves (found : flows.get? flow = some pin) (live : op.now < pin.expires) :
    ∃ kept, (step flows op).1.get? flow = some kept ∧
      (pin.direct = true → kept.direct = false → LeavesDirect flow op) ∧
      (pin.direct = false → kept.direct = true → LeavesRelay flow op) := by
  by_cases own : op.packet.flowId = flow
  · cases chosen : op.choice with
    | none =>
        cases op with
        | choose | choosePreferred => cases chosen
        | observe packet direct now =>
            simp only [Op.packet, Op.now] at own live
            subst own
            rw [step, observe_pinned found live]
            refine ⟨_, Dict.get?_insert_self _ _ _, ?_, ?_⟩
            · intro before after
              cases direct with
              | true => simp [before] at after
              | false => exact ⟨rfl, .inr ⟨packet, now, rfl⟩⟩
            · intro before after
              cases direct <;> simp [before] at after
    | some choice =>
        obtain ⟨time, packet⟩ := choice_now chosen
        rw [time] at live
        rw [packet] at own
        subst own
        rw [step_choice chosen, choosePreferred_pinned found live]
        cases chose : reroute pin.direct choice.direct choice.relay with
        | none => exact ⟨pin, found, by simp_all, by simp_all⟩
        | some route =>
            obtain ⟨direct, relay⟩ := reroute_moves chose
            refine ⟨_, Dict.get?_insert_self _ _ _, ?_, ?_⟩
            · intro before after
              exact ⟨packet ▸ rfl, .inl ⟨choice, chosen, direct before after⟩⟩
            · intro before after
              exact ⟨packet ▸ rfl, choice, chosen, relay before after⟩
  · exact ⟨pin, step_other found live own, by simp_all, by simp_all⟩

/-- A pin that every call finds unexpired moves only for one of the named causes. -/
theorem held_moves {later final} (run : Run (Held flow) flows later final)
    (found : flows.get? flow = some pin) :
    ∃ kept, final.get? flow = some kept ∧
      (pin.direct = true → kept.direct = false → ∃ event ∈ later, LeavesDirect flow event.1) ∧
      (pin.direct = false → kept.direct = true → ∃ event ∈ later, LeavesRelay flow event.1) := by
  induction run with
  | start => exact ⟨pin, found, by simp_all, by simp_all⟩
  | @snoc history between event final _ taken ih =>
      obtain ⟨middle, present, fromDirect, fromRelay⟩ := ih
      obtain ⟨taken, other, same, live⟩ := taken
      obtain rfl := Option.mem_unique present same
      obtain rfl := taken.next
      obtain ⟨kept, shown, leavesDirect, leavesRelay⟩ := step_moves present live
      refine ⟨kept, shown, ?_, ?_⟩
      · intro before after
        cases turned : middle.direct with
        | true => exact ⟨event, by simp, leavesDirect turned after⟩
        | false =>
            obtain ⟨cause, member, leaves⟩ := fromDirect before turned
            exact ⟨cause, List.mem_append_left _ member, leaves⟩
      · intro before after
        cases turned : middle.direct with
        | false => exact ⟨event, by simp, leavesRelay turned after⟩
        | true =>
            obtain ⟨cause, member, leaves⟩ := fromRelay before turned
            exact ⟨cause, List.mem_append_left _ member, leaves⟩

end Moves

/-- In every table, so in every state of every run, a choice answers an available transport, and for
    a pin that holds it answers one whenever there is one. While a pin holds, the
    flow leaves the direct transport only when a choice finds it gone or a packet of
    the flow came over the relay, and leaves the relay only when a choice finds it
    gone. The two directions of a flow have one entry and no other flow has it. -/
theorem pins_follow_their_transport (flows : Pins) :
    (∀ op choice, op.choice = some choice →
      ((step flows op).2 = .route (some true) → choice.direct = true) ∧
      ((step flows op).2 = .route (some false) → choice.relay = true) ∧
      ∀ pin, flows.get? choice.packet.flowId = some pin → choice.now < pin.expires →
        ((step flows op).2 = .route none ↔ choice.direct = false ∧ choice.relay = false)) ∧
    (∀ flow pin later final, flows.get? flow = some pin → Run (Held flow) flows later final →
      ∃ kept, final.get? flow = some kept ∧
        (pin.direct = true → kept.direct = false → ∃ event ∈ later, LeavesDirect flow event.1) ∧
        (pin.direct = false → kept.direct = true → ∃ event ∈ later, LeavesRelay flow event.1)) ∧
    ∀ packet other : Packet, packet.flowId = other.flowId ↔
      other.key = packet.key ∨ other.key = packet.key.reverse := by
  refine ⟨?_, fun flow pin later final found run => held_moves run found,
    fun packet other => flowId_eq_iff⟩
  intro op choice chosen
  rw [step_choice chosen]
  simp only [Answer.route.injEq]
  refine ⟨fun answered => (choosePreferred_available answered).1 rfl,
    fun answered => (choosePreferred_available answered).2 rfl, ?_⟩
  intro pin found live
  rw [choosePreferred_pinned found live, ← reroute_eq_none pin.direct]
  cases reroute pin.direct choice.direct choice.relay <;> simp

/-- A datagram of one flow. -/
def sampleDatagram : Packet where
  key :=
    { src := ⟨10, 0, 0, 1⟩
      dst := ⟨10, 0, 0, 2⟩
      protocol := 17
      sport := 4000
      dport := 8000
      icmp := 0 }
  syn := false
  ack := false
  rst := false
  fin := false
  icmpType := 0
  tcpSequence := 0

/-- A flow pinned to the relay stays there when the direct transport is preferred. -/
theorem relay_pin_outlives_preference :
    let flows := (step .empty (.choose sampleDatagram false true 0)).1
    let ask : Op := .choosePreferred sampleDatagram true true true 1
    ∃ kept, (step flows ask).1.get? sampleDatagram.flowId = some kept ∧ kept.direct = false := by
  intro flows ask
  have found : flows.get? sampleDatagram.flowId = some ⟨false, seconds 30⟩ := by decide
  have live : ask.now < seconds 30 := by decide
  have run : Run (Held sampleDatagram.flowId) flows [(ask, (step flows ask).2)] (step flows ask).1 :=
    .single ⟨rfl, _, found, live⟩
  obtain ⟨kept, shown, _, stays⟩ := (pins_follow_their_transport flows).2.1 _ _ _ _ found run
  refine ⟨kept, shown, ?_⟩
  by_contra moved
  obtain ⟨event, member, _, choice, chosen, gone⟩ := stays rfl (by simpa using moved)
  obtain rfl := List.mem_singleton.mp member
  cases chosen
  cases gone

end Paths

end PortHub.Network
