import PortHub.Lib.Panics
import PortHub.Network.Authority

/-! # The policy engine does not panic

The parser and the engine once more, with every index, slice, unsigned
subtraction and map lookup of the source as a partial operation. They agree with
the total definitions: the parser on all bytes, the engine on every state that
its operations reach. Clock arithmetic is not part of this.
-/

namespace PortHub.Network

open Runs Panics

namespace Packet

/-- The sum of the 16-bit words as a `u32`, from the left. -/
def sumWordsChecked : List UInt8 → Nat → Guarded Nat
  | high :: low :: rest, sum => do sumWordsChecked rest (← add 32 sum (be16 high low).toNat)
  | _, sum => .ok sum

/-- The carry loop; running out of rounds counts as a failure. -/
def foldCarriesChecked : Nat → Nat → Guarded Nat
  | 0, _ => .error .diverged
  | rounds + 1, sum =>
      if sum >>> 16 ≠ 0 then do foldCarriesChecked rounds (← add 32 (sum &&& 65535) (sum >>> 16))
      else .ok sum

def parseTransportChecked (bytes : List UInt8) (h n : Nat) (packet : Packet) :
    Guarded (Option Packet) := do
  let protocol ← index bytes 9
  if protocol = 6 then
    if (← sub n h) < 20 then return none
    let header := ((← index bytes (h + 12)) >>> 4).toNat * 4
    if header < 20 then return none
    if header > (← sub n h) then return none
    match ← slice bytes (h + 4) (h + 8) with
    | [a, b, c, d] =>
        let flags ← index bytes (h + 13)
        return some { packet with
          tcpSequence := be32 a b c d
          syn := flags &&& 2 != 0
          ack := flags &&& 16 != 0
          rst := flags &&& 4 != 0
          fin := flags &&& 1 != 0 }
    | _ => return none
  else if protocol = 17 then
    if (← sub n h) < 8 then return none
    let length := be16 (← index bytes (h + 4)) (← index bytes (h + 5))
    if length.toNat ≠ (← sub n h) then return none
    return some packet
  else if protocol = 1 then
    if (← sub n h) < 8 then return none
    let icmpType ← index bytes h
    if ¬ (icmpType = 0 ∨ icmpType = 8) then return none
    let icmp := be16 (← index bytes (h + 4)) (← index bytes (h + 5))
    return some { packet with icmpType := icmpType, key := { packet.key with icmp := icmp } }
  else return none

def parsePortsChecked (bytes : List UInt8) (h : Nat) (packet : Packet) :
    Guarded (Option Packet) := do
  if (← index bytes 9) ≠ 1 then
    let sport := be16 (← index bytes h) (← index bytes (h + 1))
    let dport := be16 (← index bytes (h + 2)) (← index bytes (h + 3))
    if sport = 0 ∨ dport = 0 then return none
    return some { packet with key := { packet.key with sport := sport, dport := dport } }
  else return some packet

def parseChecked (bytes : List UInt8) : Guarded (Option Packet) := do
  if bytes.length < 20 then return none
  let first ← index bytes 0
  if first >>> 4 ≠ 4 then return none
  let h := (first &&& 15).toNat * 4
  let n := (be16 (← index bytes 2) (← index bytes 3)).toNat
  if h < 20 ∨ h > bytes.length ∨ n ≠ bytes.length then return none
  if be16 (← index bytes 6) (← index bytes 7) &&& 0x3fff ≠ 0 then return none
  let sum ← sumWordsChecked (← slice bytes 0 h) 0
  if (← foldCarriesChecked (sum + 1) sum) ≠ 65535 then return none
  let src : Ipv4Addr :=
    ⟨← index bytes 12, ← index bytes 13, ← index bytes 14, ← index bytes 15⟩
  let dst : Ipv4Addr :=
    ⟨← index bytes 16, ← index bytes 17, ← index bytes 18, ← index bytes 19⟩
  let packet : Packet :=
    { key := { src := src, dst := dst, protocol := ← index bytes 9, sport := 0, dport := 0, icmp := 0 }
      syn := false
      ack := false
      rst := false
      fin := false
      icmpType := 0
      tcpSequence := 0 }
  match ← parseTransportChecked bytes h n packet with
  | none => return none
  | some packet => parsePortsChecked bytes h packet

end Packet

namespace Engine

def allowedChecked (engine : Engine) (packet : Packet) : Guarded Bool :=
  match engine.snapshot, protocolName packet.key.protocol with
  | some snapshot, some protocol =>
      anyOf (fun grant => do
        if (← lookup engine.ips grant.source) ≠ packet.key.src then return false
        if (← lookup engine.ips grant.destination) ≠ packet.key.dst then return false
        return (grant.protocol == "any" || grant.protocol == protocol)
          && (grant.ports.isEmpty || grant.ports.any fun port => port.admits packet.key.dport))
        snapshot.grants
  | _, _ => .ok false

/-- The successful end of `apply`, where old entries meet the new policy. -/
def installChecked (engine : Engine) (snapshot : Snapshot) (remaining : Nat)
    (ips : Dict String Ipv4Addr) (clock : ApplyClock) : Guarded Engine := do
  let engine := engine.dropChanged snapshot
  let engine :=
    { engine with ips := ips, snapshot := some snapshot, deadline := some (clock.lease + remaining) }
  let flows ← retain engine.flows fun _ flow => do
    if clock.flows < flow.expires then engine.allowedChecked flow.opening else return false
  return { engine with
    flows := flows
    exitFlows := engine.exitFlows.retain fun _ flow =>
      decide (clock.flows < flow.expires) && (engine.exitPermitted flow.opening flow.remote).isSome }

def applyChecked (engine : Engine) (snapshot : Snapshot) (clock : ApplyClock) :
    Guarded (Engine × Result Unit) :=
  match engine.validate snapshot clock.utc with
  | .error message => .ok (engine.revoke, .error message)
  | .ok (remaining, ips) => do
      return (← engine.installChecked snapshot remaining ips clock, .ok ())

def checkChecked (engine : Engine) (bytes : List UInt8) (remote : String) (inbound : Bool)
    (now : Nat) : Guarded (Engine × Bool) := do
  match ← Packet.parseChecked bytes with
  | none => return (engine, false)
  | some packet =>
      if engine.deadline.all (· ≤ now) then return ({ engine with flows := .empty }, false)
      match engine.snapshot with
      | none => return (engine, false)
      | some snapshot =>
          let source := if inbound then remote else snapshot.self_
          let destination := if inbound then snapshot.self_ else remote
          if engine.ips.get? source ≠ some packet.key.src
              ∨ engine.ips.get? destination ≠ some packet.key.dst then
            return (engine, false)
          let mayOpen ← engine.allowedChecked packet
          let (flows, accepted) := trackPacket engine.flows packet "" mayOpen now
          return ({ engine with flows := flows }, accepted)

def checkExitChecked (engine : Engine) (bytes : List UInt8) (remote : String) (inbound : Bool)
    (now : Nat) : Guarded (Engine × Bool) := do
  if engine.deadline.all (· ≤ now) then return ({ engine with exitFlows := .empty }, false)
  if !(engine.snapshot.any fun snapshot => snapshot.peers.any fun peer =>
      peer.id == remote && !peer.fingerprint.isEmpty && !peer.instanceId.isEmpty) then
    return (engine, false)
  match ← Packet.parseChecked bytes with
  | none => return (engine, false)
  | some packet =>
      match engine.exitPermitted packet remote with
      | none => return (engine, false)
      | some (request, localIsClient) =>
          if request != (inbound != localIsClient) then return (engine, false)
          let (flows, accepted) := trackPacket engine.exitFlows packet remote request now
          return ({ engine with exitFlows := flows }, accepted)

def stepChecked (engine : Engine) : Op → Guarded (Engine × Answer)
  | .apply snapshot clock => do
      let (next, result) ← engine.applyChecked snapshot clock
      return (next, .applied result)
  | .revoke => .ok (engine.revoke, .revoked)
  | .check bytes remote inbound now => do
      let (next, accepted) ← engine.checkChecked bytes remote inbound now
      return (next, .verdict accepted)
  | .checkExit bytes remote inbound now => do
      let (next, accepted) ← engine.checkExitChecked bytes remote inbound now
      return (next, .verdict accepted)

end Engine

namespace Packet

variable {bytes : List UInt8} {h n : Nat} {sum : Nat}

theorem index_byte {i} (inside : i < bytes.length) : index bytes i = .ok (byteAt bytes i) :=
  index_ok 0 inside

theorem slice_bytes {i} (inside : i + 4 ≤ bytes.length) :
    slice bytes i (i + 4) =
      .ok [byteAt bytes i, byteAt bytes (i + 1), byteAt bytes (i + 2), byteAt bytes (i + 3)] := by
  rw [slice_ok (by omega) inside]
  congr 1
  apply List.ext_getElem?
  intro j
  rcases j with _ | _ | _ | _ | j
  all_goals simp [byteAt, List.getD]
  all_goals rw [List.getElem?_eq_getElem (by omega)]
  all_goals simp

theorem sumWordsChecked_ok (fits : sum + sumWords bytes < 2 ^ 32) :
    sumWordsChecked bytes sum = .ok (sum + sumWords bytes) := by
  induction bytes using sumWords.induct generalizing sum with
  | case1 high low rest ih =>
      rw [sumWords] at fits
      rw [sumWordsChecked, add_ok (by omega), sumWords, ← Nat.add_assoc]
      exact ih (by omega)
  | case2 bytes short =>
      have none : sumWords bytes = 0 := by
        rw [sumWords]
        exact short
      rw [none]
      rw [sumWordsChecked]
      · rfl
      · exact short

theorem sumWords_le (bytes : List UInt8) : sumWords bytes ≤ bytes.length * 65535 := by
  induction bytes using sumWords.induct with
  | case1 high low rest ih =>
      have word := (be16 high low).toNat_lt
      rw [sumWords, List.length_cons, List.length_cons]
      omega
  | case2 bytes short =>
      rw [sumWords]
      · exact Nat.zero_le _
      · exact short

/-- A round of the carry loop lowers the sum and keeps it a `u32`. -/
theorem carry_lt (long : sum >>> 16 ≠ 0) : (sum &&& 65535) + (sum >>> 16) < sum := by
  have low : sum &&& 65535 = sum % 2 ^ 16 := Nat.and_two_pow_sub_one_eq_mod sum 16
  rw [Nat.shiftRight_eq_div_pow] at long ⊢
  omega

theorem foldCarries_rounds {rounds more} (first : sum ≤ rounds) (second : sum ≤ more) :
    foldCarries rounds sum = foldCarries more sum := by
  induction sum using Nat.strong_induction_on generalizing rounds more with
  | _ sum ih =>
      by_cases long : sum >>> 16 ≠ 0
      · have lower := carry_lt long
        obtain ⟨rounds, rfl⟩ : ∃ r, rounds = r + 1 := ⟨rounds - 1, by omega⟩
        obtain ⟨more, rfl⟩ : ∃ m, more = m + 1 := ⟨more - 1, by omega⟩
        rw [foldCarries, foldCarries, if_pos long, if_pos long]
        exact ih _ lower (by omega) (by omega)
      · rcases rounds with _ | rounds <;> rcases more with _ | more <;> simp [foldCarries, long]

theorem foldCarriesChecked_ok {rounds} (enough : sum < rounds) (fits : sum < 2 ^ 32) :
    foldCarriesChecked rounds sum = .ok (foldCarries sum sum) := by
  induction rounds generalizing sum with
  | zero => omega
  | succ rounds ih =>
      rw [foldCarriesChecked]
      split
      · rename_i long
        have lower := carry_lt long
        obtain ⟨rest, whole⟩ : ∃ r, sum = r + 1 := ⟨sum - 1, by omega⟩
        have unfolded : foldCarries sum sum = foldCarries rest ((sum &&& 65535) + (sum >>> 16)) := by
          conv_lhs => rw [whole, foldCarries, ← whole, if_pos long]
        rw [add_ok (by omega), unfolded]
        exact (ih (by omega) (by omega)).trans
          (congrArg Except.ok (foldCarries_rounds (Nat.le_refl _) (by omega)))
      · rename_i short
        rcases sum with _ | sum <;> simp_all [foldCarries]

theorem parseTransportChecked_ok (packet : Packet) (header : 20 ≤ h) (inside : h ≤ n)
    (whole : n = bytes.length) :
    parseTransportChecked bytes h n packet = .ok (parseTransport bytes h n packet) := by
  have byte : ∀ i, h + i < n → index bytes (h + i) = .ok (byteAt bytes (h + i)) :=
    fun i room => index_byte (whole ▸ room)
  unfold parseTransportChecked parseTransport
  rw [index_byte (by omega)]
  simp only [bind, Except.bind, pure, Except.pure, sub_ok inside]
  split
  · split
    · rfl
    · rename_i room
      rw [byte 12 (by omega)]
      dsimp only
      generalize (byteAt bytes (h + 12) >>> 4).toNat * 4 = length
      by_cases short : length < 20
      · simp [short]
      · by_cases long : length > n - h
        · simp [short, long]
        · rw [slice_bytes (by omega), byte 13 (by omega)]
          simp [short, long]
  · split
    · split
      · rename_i short
        rw [if_pos (.inl short)]
      · rename_i room
        rw [byte 4 (by omega), byte 5 (by omega)]
        simp only [room, false_or]
        split <;> rfl
    · split
      · split
        · rename_i short
          rw [if_pos (.inl short)]
        · rename_i room
          have first := byte 0 (by omega)
          rw [Nat.add_zero] at first
          rw [byte 4 (by omega), byte 5 (by omega), first]
          simp only [room, false_or]
          split <;> rfl
      · rfl

/-- A transport header that was read leaves room for the ports. -/
theorem parseTransport_room {packet next} (read : parseTransport bytes h n packet = some next) :
    h + 8 ≤ n := by
  unfold parseTransport at read
  grind

theorem parsePortsChecked_ok (packet : Packet) (header : 20 ≤ h) (room : h + 8 ≤ bytes.length) :
    parsePortsChecked bytes h packet = .ok (parsePorts bytes h packet) := by
  unfold parsePortsChecked parsePorts
  rw [index_byte (by omega), index_byte (by omega), index_byte (by omega), index_byte (by omega),
    index_byte (by omega)]
  simp only [bind, Except.bind, pure, Except.pure]
  split
  · split <;> rfl
  · rfl

/-- No index, slice or subtraction of the parser fails, whatever the bytes. -/
theorem parseChecked_ok (bytes : List UInt8) : parseChecked bytes = .ok (parse bytes) := by
  unfold parseChecked parse
  by_cases short : bytes.length < 20
  · simp [short]
    rfl
  · have byte : ∀ i, i < 20 → index bytes i = .ok (byteAt bytes i) := fun i room =>
      index_byte (by omega)
    rw [if_neg short, byte 0 (by omega), byte 2 (by omega), byte 3 (by omega), byte 6 (by omega),
      byte 7 (by omega)]
    simp only [bind, Except.bind, pure, Except.pure, short, false_or]
    split
    · rfl
    · generalize lengthIs : (be16 (byteAt bytes 2) (byteAt bytes 3)).toNat = n
      generalize headerIs : (byteAt bytes 0 &&& 15).toNat * 4 = h
      by_cases bad : h < 20 ∨ h > bytes.length ∨ n ≠ bytes.length
      · rw [if_pos bad, if_pos (by tauto)]
      · rw [if_neg bad]
        simp only [not_or, not_lt, not_not] at bad
        obtain ⟨header, inside, whole⟩ := bad
        have small : h ≤ 60 := by
          have nibble : (byteAt bytes 0 &&& 15).toNat ≤ 15 := by
            exact Nat.and_le_right
          omega
        have sums := sumWords_le (bytes.take h)
        have taken : (bytes.take h).length = h := by
          rw [List.length_take]
          omega
        have fits : sumWords (bytes.take h) < 2 ^ 32 := by
          omega
        split
        · rename_i fragment
          rw [if_pos (by tauto)]
        · rename_i unfragmented
          rw [if_neg (by simp only [not_or, not_lt, not_not]; tauto), slice_ok (Nat.zero_le h) inside]
          dsimp only
          rw [List.drop_zero, sumWordsChecked_ok (by omega)]
          dsimp only
          rw [Nat.zero_add, foldCarriesChecked_ok (Nat.lt_succ_self _) fits]
          dsimp only
          split
          · rfl
          · rw [byte 9 (by omega), byte 12 (by omega), byte 13 (by omega), byte 14 (by omega),
              byte 15 (by omega), byte 16 (by omega), byte 17 (by omega), byte 18 (by omega),
              byte 19 (by omega)]
            dsimp only
            rw [parseTransportChecked_ok _ header (by omega) whole]
            dsimp only
            cases read : parseTransport bytes h n _ with
            | none => rfl
            | some next =>
                have room := parseTransport_room read
                exact parsePortsChecked_ok next header (by omega)

end Packet

namespace Engine

/-- Both ends of every grant of the current snapshot have an address. -/
def Grounded (engine : Engine) : Prop :=
  ∀ snapshot, engine.snapshot = some snapshot → ∀ grant ∈ snapshot.grants,
    engine.ips.contains grant.source = true ∧ engine.ips.contains grant.destination = true

variable {ips : Dict String Ipv4Addr} {engine : Engine}

theorem checkGrants_ok {grants} (checked : checkGrants ips grants = .ok ()) :
    ∀ grant ∈ grants,
    ips.contains grant.source = true ∧ ips.contains grant.destination = true := by
  induction grants with
  | nil => simp
  | cons grant rest ih =>
      simp only [checkGrants, checkGrant, bind_eq_ok, ensure_eq_ok, Bool.and_eq_true] at checked
      obtain ⟨_, ⟨_, ends, _⟩, later⟩ := checked
      intro other member
      rcases List.mem_cons.mp member with rfl | member
      · exact ends.1
      · exact ih later other member

theorem validate_grants {snapshot utc remaining}
    (accepted : engine.validate snapshot utc = .ok (remaining, ips)) :
    ∀ grant ∈ snapshot.grants,
      ips.contains grant.source = true ∧ ips.contains grant.destination = true := by
  simp only [validate, bind_eq_ok, ensure_eq_ok, pure_eq_ok, Prod.mk.injEq] at accepted
  obtain ⟨_, _, _, _, _, _, _, _, _, _, _, _, _, _, _, _, _, _, _, grants, _, rfl⟩ := accepted
  exact checkGrants_ok grants

theorem allowedChecked_ok (grounded : engine.Grounded) (packet : Packet) :
    engine.allowedChecked packet = .ok (engine.allowed packet) := by
  unfold allowedChecked allowed
  cases current : engine.snapshot with
  | none => rfl
  | some snapshot =>
      cases protocolName packet.key.protocol with
      | none => rfl
      | some protocol =>
          refine anyOf_ok fun grant member => ?_
          obtain ⟨source, destination⟩ := grounded snapshot current grant member
          obtain ⟨from_, sourceIs⟩ := Dict.contains_iff.mp source
          obtain ⟨to_, destinationIs⟩ := Dict.contains_iff.mp destination
          rw [lookup_ok sourceIs, lookup_ok destinationIs, sourceIs, destinationIs]
          by_cases first : from_ = packet.key.src <;> by_cases second : to_ = packet.key.dst <;>
            simp [first, second, bind, Except.bind, pure, Except.pure]

theorem installChecked_ok {snapshot remaining} {clock : ApplyClock}
    (accepted : engine.validate snapshot clock.utc = .ok (remaining, ips)) :
    engine.installChecked snapshot remaining ips clock =
      .ok (engine.install snapshot remaining ips clock) := by
  unfold installChecked install
  dsimp only
  generalize renewed : ({ engine.dropChanged snapshot with
    ips := ips, snapshot := some snapshot, deadline := some (clock.lease + remaining) } : Engine) = next
  have grounded : next.Grounded := by
    subst renewed
    rintro _ ⟨⟩
    exact validate_grants accepted
  rw [retain_ok (fun _ flow => ?_)]
  · rfl
  · rw [allowedChecked_ok grounded]
    by_cases live : clock.flows < flow.expires <;> simp [live, pure, Except.pure]

theorem checkChecked_ok (grounded : engine.Grounded) (bytes : List UInt8) (remote : String)
    (inbound : Bool) (now : Nat) :
    engine.checkChecked bytes remote inbound now = .ok (engine.check bytes remote inbound now) := by
  unfold checkChecked check
  rw [Packet.parseChecked_ok]
  simp only [bind, Except.bind, pure, Except.pure, allowedChecked_ok grounded]
  cases Packet.parse bytes with
  | none => rfl
  | some packet =>
      dsimp only
      split
      · rfl
      · cases engine.snapshot with
        | none => rfl
        | some snapshot =>
            exact (apply_ite Except.ok _ _ _).symm

theorem checkExitChecked_ok (engine : Engine) (bytes : List UInt8) (remote : String)
    (inbound : Bool) (now : Nat) :
    engine.checkExitChecked bytes remote inbound now =
      .ok (engine.checkExit bytes remote inbound now) := by
  unfold checkExitChecked checkExit
  rw [Packet.parseChecked_ok]
  simp only [bind, Except.bind, pure, Except.pure]
  split
  · rfl
  · split
    · rfl
    · cases Packet.parse bytes with
      | none => rfl
      | some packet =>
          dsimp only
          cases engine.exitPermitted packet remote with
          | none => rfl
          | some pair =>
              dsimp only
              split <;> rfl

/-- On a grounded engine no operation panics, and each does what the total
    definition says. -/
theorem stepChecked_ok (grounded : engine.Grounded) (op : Op) :
    engine.stepChecked op = .ok (engine.step op) := by
  cases op with
  | apply snapshot clock =>
      simp only [stepChecked, step, applyChecked, apply]
      cases accepted : engine.validate snapshot clock.utc with
      | error message => rfl
      | ok pair =>
          dsimp only
          rw [installChecked_ok accepted]
          rfl
  | revoke => rfl
  | check bytes remote inbound now =>
      rw [stepChecked, checkChecked_ok grounded]
      rfl
  | checkExit bytes remote inbound now =>
      rw [stepChecked, checkExitChecked_ok]
      rfl

theorem Grounded.step {engine : Engine} (grounded : engine.Grounded) (op : Op) :
    (engine.step op).1.Grounded := by
  have stepped : Stepped engine (op, (engine.step op).2) (engine.step op).1 := step_stepped rfl
  generalize (engine.step op).1 = next, (engine.step op).2 = answer at stepped
  cases stepped with
  | applied call =>
      cases call with
      | refused => exact grounded
      | installed accepted =>
          rintro _ ⟨⟩
          exact validate_grants accepted
  | revoked => exact grounded
  | checked call | exitChecked call => cases call <;> exact grounded

/-- Runs of the operations that may panic. -/
abbrev ReachesChecked (history : List Event) (engine : Engine) : Prop :=
  Run (fun before event after => stepChecked before event.1 = .ok (after, event.2))
    default history engine

theorem ReachesChecked.grounded {history} (run : ReachesChecked history engine) :
    engine.Grounded := by
  induction run with
  | start => rintro _ ⟨⟩
  | @snoc _ before event after _ taken grounded =>
      rw [stepChecked_ok grounded] at taken
      have same : (before.step event.1).1 = after := congrArg Prod.fst (Except.ok.inj taken)
      rw [← same]
      exact grounded.step event.1

/-- Whatever bytes arrive and whatever operations came before, the parser and the
    engine end without a panic, with the result of the total definitions. -/
theorem engine_never_panics {history : List Event} {engine : Engine}
    (run : ReachesChecked history engine) :
    (∀ bytes, Packet.parseChecked bytes = .ok (Packet.parse bytes)) ∧
      (∀ packet, engine.allowedChecked packet = .ok (engine.allowed packet)) ∧
      ∀ op, engine.stepChecked op = .ok (engine.step op) :=
  ⟨Packet.parseChecked_ok, allowedChecked_ok run.grounded, stepChecked_ok run.grounded⟩

/-- A policy is installed and a granted packet checked against it. -/
theorem granted_check_ends :
    let engine := after [.apply twoPeers startOfTime]
    ∃ next, engine.stepChecked (.check privateSyn "b" false 1) = .ok (next, .verdict true) := by
  intro engine
  have installed : default.stepChecked (.apply twoPeers startOfTime) =
      .ok (engine, (default.step (.apply twoPeers startOfTime)).2) :=
    stepChecked_ok (fun _ none => by cases none) _
  have passed : (engine.check privateSyn "b" false 1).2 = true := by decide
  have run : ReachesChecked [(.apply twoPeers startOfTime, _)] engine := .single installed
  refine ⟨(engine.check privateSyn "b" false 1).1, ?_⟩
  rw [(engine_never_panics run).2.2]
  simp only [step]
  rw [passed]

end Engine

end PortHub.Network
