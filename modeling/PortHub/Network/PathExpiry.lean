import PortHub.Network.Paths

/-! # Expired transport pins

A pin that has expired should be as good as none. The calls are compared with
the same calls on a table from which an expired pin is removed when its flow is
next touched. They answer alike as long as no packet on the direct transport
finds an expired relay pin: `observe` keeps the route of whatever entry it finds.
-/

namespace PortHub.Network.Paths

open Runs

/-- The table without the pin of a flow, if that has expired. -/
def forget (flows : Pins) (key : FlowId) (now : Nat) : Pins :=
  if (flows.get? key).any (fun pin => decide (pin.expires ≤ now)) then flows.erase key else flows

/-- A call for which an expired pin of its flow does not exist. -/
def renewedStep (flows : Pins) (op : Op) : Pins × Answer :=
  step (forget flows op.packet.flowId op.now) op

/-- A packet on the direct transport takes over an expired relay pin. -/
def revives (flows : Pins) : Op → Bool
  | .observe packet direct now =>
      direct && decide (flows.len < pinLimit) &&
        (flows.get? packet.flowId).any fun pin => !pin.direct && decide (pin.expires ≤ now)
  | .choose _ _ _ _ | .choosePreferred _ _ _ _ _ => false

/-- The pins that hold at a time. -/
def alive (flows : Pins) (now : Nat) : Pins := flows.retain fun _ pin => decide (now < pin.expires)

/-- Two tables hold the same pins at a time and later. -/
def Agree (now : Nat) (flows other : Pins) : Prop :=
  ∀ key, (alive flows now).get? key = (alive other now).get? key

section Alive

variable {flows other : Pins} {key : FlowId} {pin : Pin} {now later : Nat}

theorem alive_get? : (alive flows now).get? key = some pin ↔
    flows.get? key = some pin ∧ now < pin.expires := by
  simp [alive]

theorem alive_filter : (alive flows now).get? key =
    (flows.get? key).filter fun pin => decide (now < pin.expires) :=
  Dict.get?_retain _ _ _

theorem Agree.mono (agree : Agree now flows other) (after : now ≤ later) : Agree later flows other := by
  intro key
  ext pin
  have same := agree key
  rw [Option.ext_iff] at same
  have here := same pin
  simp only [alive_get?] at here ⊢
  constructor
  · rintro ⟨found, live⟩
    exact ⟨(here.mp ⟨found, by omega⟩).1, live⟩
  · rintro ⟨found, live⟩
    exact ⟨(here.mpr ⟨found, by omega⟩).1, live⟩

theorem Agree.trans {third} (first : Agree now flows other) (second : Agree now other third) :
    Agree now flows third :=
  fun key => (first key).trans (second key)

theorem Agree.symm (agree : Agree now flows other) : Agree now other flows :=
  fun key => (agree key).symm

theorem forget_get? (flows : Pins) (key other : FlowId) (now : Nat) :
    (forget flows key now).get? other =
      if other = key then (flows.get? key).filter fun pin => decide (now < pin.expires)
      else flows.get? other := by
  unfold forget
  by_cases same : other = key
  · subst same
    cases found : flows.get? other with
    | none => simp [found]
    | some pin =>
        by_cases live : now < pin.expires
        · simp [found, Option.filter, live, not_le.mpr live]
        · simp [Option.filter, live, not_lt.mp live]
  · split <;> simp [same]

theorem forget_agree (flows : Pins) (key : FlowId) (now : Nat) :
    Agree now (forget flows key now) flows := by
  intro other
  rw [alive_filter, alive_filter, forget_get?]
  split
  · rename_i same
    rw [same, Option.filter_filter]
    simp
  · rfl

theorem Agree.len (agree : Agree now flows other) : (alive flows now).len = (alive other now).len :=
  Dict.len_eq_of_get? agree

theorem alive_len_le (flows : Pins) (now : Nat) : (alive flows now).len ≤ flows.len :=
  Dict.len_retain_le _ _

theorem expireAtCapacity_agree (flows : Pins) (now : Nat) :
    Agree now (expireAtCapacity flows now) flows := by
  intro key
  unfold expireAtCapacity
  split
  · rw [alive_filter, alive_filter, Dict.get?_retain, Option.filter_filter]
    simp
  · rfl

theorem Agree.insert (agree : Agree now flows other) (key : FlowId) (pin : Pin) :
    Agree now (flows.insert key pin) (other.insert key pin) := by
  intro asked
  have same := agree asked
  rw [alive_filter, alive_filter] at same ⊢
  by_cases own : asked = key
  · subst own
    simp
  · rw [Dict.get?_insert_ne _ _ own, Dict.get?_insert_ne _ _ own]
    exact same

end Alive

section Calls

variable {flows other : Pins} {packet : Packet} {direct relay preferDirect : Bool} {now : Nat}

/-- A full table is left with the pins that hold, one with room as it is. -/
theorem capacity_cases (flows : Pins) (now : Nat) :
    (pinLimit ≤ flows.len ∧ expireAtCapacity flows now = alive flows now) ∨
      (flows.len < pinLimit ∧ (alive flows now).len < pinLimit ∧
        expireAtCapacity flows now = flows) := by
  by_cases full : pinLimit ≤ flows.len
  · exact .inl ⟨full, by simp [expireAtCapacity, full, alive]⟩
  · have fewer := alive_len_le flows now
    exact .inr ⟨by omega, by omega, by simp [expireAtCapacity, full]⟩

/-- What `observe` does, as a function of the pins that hold. -/
theorem observe_eq (unrevived : revives flows (.observe packet direct now) = false) :
    observe flows packet direct now =
      match (alive flows now).get? packet.flowId with
      | some pin => (expireAtCapacity flows now).insert packet.flowId
          ⟨if !direct then false else pin.direct, now + packet.flowTtl⟩
      | none =>
          if (alive flows now).len < pinLimit then
            (expireAtCapacity flows now).insert packet.flowId ⟨direct, now + packet.flowTtl⟩
          else expireAtCapacity flows now := by
  cases held : (alive flows now).get? packet.flowId with
  | some pin =>
      obtain ⟨found, live⟩ := alive_get?.mp held
      exact observe_pinned found live
  | none =>
      rcases capacity_cases flows now with ⟨_, dropped⟩ | ⟨room, few, kept⟩
      · have empty : (alive flows now).contains packet.flowId = false := by
          simp [Dict.contains, held]
        simp only [observe, dropped, held, empty, Bool.or_false, decide_eq_true_eq, Option.getD_none]
        cases direct <;> rfl
      · simp only [observe, kept, room, few, decide_true, Bool.true_or, if_true]
        congr 2
        cases direct with
        | false => rfl
        | true =>
            cases found : flows.get? packet.flowId with
            | none => rfl
            | some pin =>
                have expired : ¬ now < pin.expires := fun live =>
                  absurd (held.symm.trans (alive_get?.mpr ⟨found, live⟩)) (by simp)
                simpa [revives, found, room, not_lt.mp expired] using unrevived

/-- What a choice does, as a function of the pins that hold. -/
theorem choosePreferred_eq :
    choosePreferred flows packet direct relay preferDirect now =
      match (alive flows now).get? packet.flowId with
      | some pin =>
          match reroute pin.direct direct relay with
          | none => (flows, none)
          | some route => (flows.insert packet.flowId ⟨route, now + packet.flowTtl⟩, some route)
      | none =>
          match prefer direct relay preferDirect with
          | none => (flows, none)
          | some route =>
              if (alive flows now).len < pinLimit then
                ((expireAtCapacity flows now).insert packet.flowId ⟨route, now + packet.flowTtl⟩,
                  some route)
              else (expireAtCapacity flows now, none) := by
  rw [alive_filter]
  unfold choosePreferred
  cases held : (flows.get? packet.flowId).filter fun pin => decide (now < pin.expires) with
  | some pin =>
      cases moved : reroute pin.direct direct relay <;> simp only [held, moved]
  | none =>
      cases chosen : prefer direct relay preferDirect with
      | none => simp only [held]
      | some route =>
          have missing : (alive flows now).get? packet.flowId = none := alive_filter.trans held
          simp only [held]
          rcases capacity_cases flows now with ⟨_, dropped⟩ | ⟨room, few, kept⟩
          · have empty : (alive flows now).contains packet.flowId = false := by
              simp [Dict.contains, missing]
            rw [dropped, empty]
            by_cases few : (alive flows now).len < pinLimit
            · simp [few, not_le.mpr few]
            · simp [few, not_lt.mp few]
          · simp [kept, not_le.mpr room, few]

/-- Calls on tables that agree answer alike and leave tables that agree. -/
theorem Agree.observe (agree : Agree now flows other)
    (mine : revives flows (.observe packet direct now) = false)
    (theirs : revives other (.observe packet direct now) = false) :
    Agree now (Paths.observe flows packet direct now) (Paths.observe other packet direct now) := by
  have left := (expireAtCapacity_agree flows now).trans
    (agree.trans (expireAtCapacity_agree other now).symm)
  rw [observe_eq mine, observe_eq theirs, agree packet.flowId, agree.len]
  split
  · exact left.insert _ _
  · split
    · exact left.insert _ _
    · exact left

theorem Agree.choosePreferred (packet : Packet) (direct relay preferDirect : Bool)
    (agree : Agree now flows other) :
    (Paths.choosePreferred flows packet direct relay preferDirect now).2 =
      (Paths.choosePreferred other packet direct relay preferDirect now).2 ∧
    Agree now (Paths.choosePreferred flows packet direct relay preferDirect now).1
      (Paths.choosePreferred other packet direct relay preferDirect now).1 := by
  have left := (expireAtCapacity_agree flows now).trans
    (agree.trans (expireAtCapacity_agree other now).symm)
  rw [choosePreferred_eq, choosePreferred_eq, agree packet.flowId, agree.len]
  split
  · split
    · exact ⟨rfl, agree⟩
    · exact ⟨rfl, agree.insert _ _⟩
  · split
    · exact ⟨rfl, agree⟩
    · split
      · exact ⟨rfl, left.insert _ _⟩
      · exact ⟨rfl, left⟩

theorem Agree.step {op : Op} (agree : Agree op.now flows other) (mine : revives flows op = false)
    (theirs : revives other op = false) :
    (Paths.step flows op).2 = (Paths.step other op).2 ∧
      Agree op.now (Paths.step flows op).1 (Paths.step other op).1 := by
  cases op with
  | observe packet direct now => exact ⟨rfl, Agree.observe agree mine theirs⟩
  | choose packet direct relay now =>
      obtain ⟨same, after⟩ := Agree.choosePreferred packet direct relay true agree
      exact ⟨congrArg Answer.route same, after⟩
  | choosePreferred packet direct relay preferDirect now =>
      obtain ⟨same, after⟩ := Agree.choosePreferred packet direct relay preferDirect agree
      exact ⟨congrArg Answer.route same, after⟩

/-- Where expired pins do not exist, none is revived. -/
theorem revives_forget (flows : Pins) (op : Op) :
    revives (forget flows op.packet.flowId op.now) op = false := by
  cases op with
  | choose | choosePreferred => rfl
  | observe packet direct now =>
      simp only [revives, Op.packet, Op.now, forget_get?, if_true]
      cases found : flows.get? packet.flowId with
      | none => simp
      | some pin =>
          by_cases live : now < pin.expires
          · simp [Option.filter, live, not_le.mpr live]
          · simp [Option.filter, live]

end Calls

/-- Run by run, expired pins are inert while none is revived. -/
theorem feed_renewed {flows other ops} (since : Nat) (agree : Agree since flows other)
    (later : ∀ op ∈ ops, since ≤ op.now) (ordered : (ops.map Op.now).Pairwise (· ≤ ·))
    (safe : feedPasses step (fun flows op => !revives flows op) flows ops = true) :
    (feed step flows ops).1 = (feed renewedStep other ops).1 := by
  induction ops generalizing flows other since with
  | nil => rfl
  | cons op rest ih =>
      obtain ⟨here, onward⟩ := Bool.and_eq_true_iff.mp safe
      obtain ⟨first, ordered⟩ := List.pairwise_cons.mp (List.map_cons ▸ ordered)
      have now : Agree op.now flows (forget other op.packet.flowId op.now) :=
        (agree.mono (later op (by simp))).trans (forget_agree other op.packet.flowId op.now).symm
      obtain ⟨same, after⟩ := now.step (by simpa using here) (revives_forget other op)
      have tail := ih _ after (fun next member => first next.now (List.mem_map_of_mem member)) ordered
        onward
      change (op, (step flows op).2) :: (feed step (step flows op).1 rest).1 =
        (op, (renewedStep other op).2) :: (feed renewedStep (renewedStep other op).1 rest).1
      rw [tail, same]
      rfl

theorem flowTtl_pos (packet : Packet) : 0 < packet.flowTtl := by
  unfold Packet.flowTtl ttl
  split
  · decide
  · split <;> decide

/-- A flow pinned just now stays on its route while both transports are there. -/
theorem choose_pinned_now (flows : Pins) (packet : Packet) (route : Bool) (now : Nat) :
    (choose (flows.insert packet.flowId ⟨route, now + packet.flowTtl⟩) packet true true now).2 =
      some route := by
  have live : now < now + packet.flowTtl := by
    have positive := flowTtl_pos packet
    omega
  rw [choose, choosePreferred_pinned (Dict.get?_insert_self flows packet.flowId _) live]
  cases route <;> rfl

/-- In a table with room, a packet keeps the route of the entry it finds. -/
theorem observe_direct_room {flows : Pins} {packet now} (room : flows.len < pinLimit) :
    observe flows packet true now = flows.insert packet.flowId
      ⟨((flows.get? packet.flowId).getD ⟨true, now⟩).direct, now + packet.flowTtl⟩ := by
  simp [observe, expireAtCapacity, room, not_le.mpr room]

/-- Calls at times that do not go back answer as if an expired pin were removed
    when its flow is next touched, in every run in which no packet on the direct
    transport finds an expired relay pin in a table with room. Such a packet pins a
    new flow to the relay, where the next choice shows it. -/
theorem expired_pins_are_inert (flows : Pins) :
    (∀ ops : List Op, (ops.map Op.now).Pairwise (· ≤ ·) →
      feedPasses step (fun flows op => !revives flows op) flows ops = true →
      (feed step flows ops).1 = (feed renewedStep flows ops).1) ∧
    ∀ (packet : Packet) (now : Nat),
      revives flows (.observe packet true now) = true →
      let ops : List Op := [.observe packet true now, .choose packet true true now]
      (feed step flows ops).1.map Prod.snd = [.done, .route (some false)] ∧
        (feed renewedStep flows ops).1.map Prod.snd = [.done, .route (some true)] := by
  constructor
  · intro ops ordered safe
    exact feed_renewed 0 (fun _ => rfl) (by simp) ordered safe
  · intro packet now revived ops
    simp only [revives, Bool.true_and, Bool.and_eq_true, decide_eq_true_eq] at revived
    obtain ⟨room, held⟩ := revived
    cases found : flows.get? packet.flowId with
    | none => simp [found] at held
    | some pin =>
        simp only [found, Option.any_some, Bool.and_eq_true, Bool.not_eq_true', decide_eq_true_eq]
          at held
        obtain ⟨relay, expired⟩ := held
        have gone : forget flows packet.flowId now = flows.erase packet.flowId := by
          simp [forget, found, expired]
        have smaller : (flows.erase packet.flowId).len < pinLimit :=
          (Dict.len_erase_le flows packet.flowId).trans_lt room
        have kept (rest : Pins) : forget (rest.insert packet.flowId ⟨true, now + packet.flowTtl⟩)
            packet.flowId now = rest.insert packet.flowId ⟨true, now + packet.flowTtl⟩ := by
          have positive := flowTtl_pos packet
          simp [forget]
          omega
        constructor
        · simp [ops, feed, step, observe_direct_room room, found, relay, choose_pinned_now]
        · simp [ops, feed, renewedStep, step, Op.packet, Op.now, gone, observe_direct_room smaller,
            kept, choose_pinned_now]

/-- A datagram flow first seen on the relay, whose tuple is reused after it expired. -/
def reusedTuple : List Op :=
  [.choose sampleDatagram false true 0, .observe sampleDatagram true (seconds 31),
    .choose sampleDatagram true true (seconds 31)]

theorem expired_relay_pin_is_revived :
    ¬ ∀ (origin : Pins) (ops : List Op), origin.len + ops.length < pinLimit →
      (ops.map Op.now).Pairwise (· ≤ ·) →
      (feed step origin ops).1 = (feed renewedStep origin ops).1 := by
  intro inert
  have same := congrArg (fun labels => labels.map Prod.snd)
    (inert .empty reusedTuple (by decide) (by decide))
  have different : (feed step .empty reusedTuple).1.map Prod.snd ≠
      (feed renewedStep .empty reusedTuple).1.map Prod.snd := by decide
  exact different same

/-- A tuple reused on the relay after it expired. -/
theorem reused_relay_tuple_is_safe :
    let ops : List Op := [.choose sampleDatagram true false 0,
      .observe sampleDatagram false (seconds 31), .choose sampleDatagram true true (seconds 31)]
    feedPasses step (fun flows op => !revives flows op) .empty ops = true ∧
      (feed step .empty ops).1 = (feed renewedStep .empty ops).1 := by
  intro ops
  have safe : feedPasses step (fun flows op => !revives flows op) .empty ops = true := by
    decide
  exact ⟨safe, (expired_pins_are_inert .empty).1 ops (by decide) safe⟩

end PortHub.Network.Paths
