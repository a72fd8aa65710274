import PortHub.Network.EngineRuns

/-! # What the policy engine guarantees

Three results over every run of the engine. A private packet passes only under
a grant of the snapshot in force. An exit packet passes only on a route between
the two ends, and a tracked exit tuple moves to another remote only by a new
opening. A failed update closes the engine, and a successful one keeps only
conversations of peers that it leaves as they were.
-/

namespace PortHub.Network

open Runs

/-- Two peers, one grant and one exit route from the local peer through the
    other one. -/
def twoPeers : Snapshot where
  workspace := "w"
  self_ := "a"
  revision := 1
  expiresAt := 30
  peers := [⟨"a", ⟨10, 203, 0, 1⟩, "fa", "ia", "", [], []⟩,
    ⟨"b", ⟨10, 203, 0, 2⟩, "fb", "ib", "", [], []⟩]
  dnsSuffixes := []
  grants := [⟨"a", "b", "tcp", [⟨443, 443⟩]⟩]
  exitRoutes := [⟨"r", ["b"], false, 4, ["a"], .internetOnly⟩]
  dnsRules := []

def startOfTime : ApplyClock := ⟨0, 0, 0⟩

/-- The header and segment of a TCP packet without payload. -/
def tcpBytes (checksum source destination ports : List UInt8) (flags : UInt8) : List UInt8 :=
  [69, 0, 0, 40, 0, 0, 0, 0, 64, 6] ++ checksum ++ source ++ destination ++ ports
    ++ [0, 0, 0, 1, 0, 0, 0, 0, 80, flags, 0, 0, 0, 0, 0, 0]

def privateSyn : List UInt8 :=
  tcpBytes [101, 56] [10, 203, 0, 1] [10, 203, 0, 2] [15, 160, 1, 187] 2

def exitSyn : List UInt8 :=
  tcpBytes [52, 3] [10, 203, 0, 1] [203, 0, 113, 1] [15, 160, 1, 187] 2

def exitSynAck : List UInt8 :=
  tcpBytes [52, 3] [203, 0, 113, 1] [10, 203, 0, 1] [1, 187, 15, 160] 18

def exitKey : Key := ⟨⟨10, 203, 0, 1⟩, ⟨203, 0, 113, 1⟩, 6, 4000, 443, 0⟩

namespace Engine

variable {history : List Event} {engine : Engine} {key : Key} {flow : Flow} {snapshot : Snapshot}
  {packet : Packet} {now : Nat} {ips : Dict String Ipv4Addr}

/-- An opening packet behind an accepted one, granted by the snapshot. -/
def OpenedBy (history : List Event) (snapshot : Snapshot) (packet opening : Packet) : Prop :=
  (opening = packet ∨ Checked history opening) ∧ opening.opens = true ∧
    (packet.key = opening.key ∨ packet.key.reverse = opening.key) ∧ snapshot.Grants opening

theorem Holds.granted (holds : Holds history engine) (found : engine.flows.get? key = some flow) :
    ∃ snapshot, engine.snapshot = some snapshot ∧ snapshot.Grants flow.opening := by
  have allowed := (holds.flows key flow found).allowed
  cases current : engine.snapshot with
  | none => simp [Engine.allowed, current] at allowed
  | some snapshot => exact ⟨snapshot, rfl, allowed_grants current (holds.bound _ current) allowed⟩

theorem Holds.opened_by (holds : Holds history engine) (current : engine.snapshot = some snapshot)
    {after} (call : Tracks engine.flows packet "" (engine.allowed packet) now after true) :
    ∃ opening, OpenedBy history snapshot packet opening := by
  have tracked : ∀ candidate flow,
      Belongs engine.flows packet "" (engine.allowed packet) now candidate flow →
      ∃ opening, OpenedBy history snapshot packet opening := by
    intro candidate flow own
    have held := holds.flows candidate flow own.found
    have granted := allowed_grants current (holds.bound _ current) held.allowed
    refine ⟨flow.opening, .inr held.checked, held.opens, ?_, granted⟩
    rw [← held.keyed]
    exact own.tuple.imp Eq.symm Eq.symm
  cases call with
  | reset own => exact tracked _ _ own
  | refreshed own => exact tracked _ _ own
  | opened allowed opens =>
      exact ⟨packet, .inl rfl, opens, .inl rfl,
        allowed_grants current (holds.bound _ current) allowed⟩

/-- Every tracked conversation, and every packet that passes, is covered by a
    grant of the snapshot in force. -/
theorem private_traffic_is_granted (run : Reaches history engine) :
    (∀ key flow, engine.flows.get? key = some flow →
      key = flow.opening.key ∧ flow.opening.opens = true ∧ Checked history flow.opening ∧
        ∃ snapshot, engine.snapshot = some snapshot ∧ snapshot.Grants flow.opening) ∧
    ∀ bytes remote inbound now, (engine.check bytes remote inbound now).2 = true →
      ∃ snapshot packet deadline opening, engine.snapshot = some snapshot ∧
        Packet.parse bytes = some packet ∧ engine.deadline = some deadline ∧ now < deadline ∧
        (∀ ip, snapshot.Assigns (if inbound then remote else snapshot.self_) ip ↔
          ip = packet.key.src) ∧
        (∀ ip, snapshot.Assigns (if inbound then snapshot.self_ else remote) ip ↔
          ip = packet.key.dst) ∧
        OpenedBy history snapshot packet opening := by
  have holds := run.holds
  refine ⟨?_, ?_⟩
  · intro key flow found
    have held := holds.flows key flow found
    exact ⟨held.keyed, held.opens, held.checked, holds.granted found⟩
  · intro bytes remote inbound now passed
    have call := check_checks engine bytes remote inbound now
    generalize engine.check bytes remote inbound now = result at call passed
    obtain ⟨next, accepted⟩ := result
    subst passed
    cases call with
    | tracked parsed lease live current source destination call =>
        obtain ⟨opening, opened⟩ := holds.opened_by current call
        have bound := holds.bound _ current
        refine ⟨_, _, _, opening, current, parsed, lease, live, ?_, ?_, opened⟩
        · intro ip
          exact (bound.address _ ip).symm.trans (by simp [source, eq_comm])
        · intro ip
          exact (bound.address _ ip).symm.trans (by simp [destination, eq_comm])

/-- The state after some operations on a new engine. -/
abbrev after (ops : List Op) : Engine := (feed step default ops).2

theorem private_syn_is_granted :
    let engine := after [.apply twoPeers startOfTime]
    (engine.check privateSyn "b" false 1).2 = true ∧
      ∃ snapshot packet opening, engine.snapshot = some snapshot ∧
        Packet.parse privateSyn = some packet ∧
        OpenedBy (feed step default [.apply twoPeers startOfTime]).1 snapshot packet opening := by
  have passed : ((after [.apply twoPeers startOfTime]).check privateSyn "b" false 1).2 = true := by
    decide
  obtain ⟨snapshot, packet, _, opening, current, parsed, _, _, _, _, opened⟩ :=
    (private_traffic_is_granted (feed_run step default [.apply twoPeers startOfTime])).2 _ _ _ _
      passed
  exact ⟨passed, snapshot, packet, opening, current, parsed, opened⟩

/-- An accepted exit packet and the route it travels on. -/
structure ExitAccepted (history : List Event) (engine : Engine) (packet : Packet)
    (remote : String) (inbound : Bool) (now : Nat) (snapshot : Snapshot) (request : Bool)
    (localIsClient : Bool) : Prop where
  current : engine.snapshot = some snapshot
  live : ∃ deadline, engine.deadline = some deadline ∧ now < deadline
  identity : ∃ peer ∈ snapshot.peers, peer.id = remote ∧ peer.fingerprint ≠ "" ∧
    peer.instanceId ≠ ""
  route : ∃ route client ip target,
    snapshot.Exits packet remote request localIsClient route client ip target
  away : request = true ↔ inbound ≠ localIsClient
  reply : request = false → ∃ flow, engine.exitFlows.get? packet.key.reverse = some flow ∧
    now < flow.expires ∧ flow.remote = remote ∧ flow.opening.key = packet.key.reverse ∧
    ExitChecked history remote flow.opening

/-- An exit tuple is taken by an opening that the exit policy admits. An entry
    that it replaces has expired or, for TCP, the opening is a SYN with another
    sequence or follows a close. -/
structure Reopens (engine : Engine) (event : Event) (key : Key) (flow : Flow) (packet : Packet)
    (bytes : List UInt8) (inbound : Bool) (now : Nat) (snapshot : Snapshot)
    (localIsClient : Bool) : Prop where
  taken : event = (.checkExit bytes flow.remote inbound now, .verdict true)
  parsed : Packet.parse bytes = some packet
  fresh : key = packet.key ∧ flow = .fresh packet flow.remote now
  opens : packet.opens = true
  current : engine.snapshot = some snapshot
  authorized : ∃ route client ip target,
    snapshot.Exits packet flow.remote true localIsClient route client ip target
  released : ∀ old, engine.exitFlows.get? key = some old → old.expires ≤ now ∨
    (packet.key.protocol = 6 ∧ packet.syn = true ∧ packet.ack = false ∧
      (packet.tcpSequence ≠ old.opening.tcpSequence ∨ old.closeUntil.isSome = true))

/-- A reply passes only on the entry under its reversed tuple. -/
theorem Holds.replies (holds : Holds history engine) {remote localIsClient after}
    (permitted : engine.exitPermitted packet remote = some (false, localIsClient))
    (call : Tracks engine.exitFlows packet remote false now after true) :
    ∃ flow, engine.exitFlows.get? packet.key.reverse = some flow ∧
      now < flow.expires ∧ flow.remote = remote ∧ flow.opening.key = packet.key.reverse ∧
      ExitChecked history remote flow.opening := by
  have tracked : ∀ candidate flow,
      Belongs engine.exitFlows packet remote false now candidate flow →
      ∃ flow, engine.exitFlows.get? packet.key.reverse = some flow ∧
        now < flow.expires ∧ flow.remote = remote ∧ flow.opening.key = packet.key.reverse ∧
        ExitChecked history remote flow.opening := by
    intro candidate flow own
    have held := holds.exits candidate flow own.found
    have bound := own.bound
    rcases own.tuple with rfl | rfl
    · obtain ⟨_, request⟩ := held.permitted
      have same := exitPermitted_congr engine remote (congrArg Key.src held.keyed)
        (congrArg Key.dst held.keyed)
      rw [bound, ← same, permitted] at request
      cases request
    · exact ⟨flow, own.found, own.unexpired, bound, held.keyed.symm, bound ▸ held.checked⟩
  cases call with
  | reset own => exact tracked _ _ own
  | refreshed own => exact tracked _ _ own
  | opened allowed => cases allowed

theorem openingSequence_some {sequence} (shown : packet.openingSequence = some sequence) :
    packet.key.protocol = 6 ∧ packet.syn = true ∧ packet.ack = false ∧
      packet.tcpSequence = sequence := by
  unfold Packet.openingSequence at shown
  split at shown
  · rename_i pure_
    simp only [Bool.and_eq_true, beq_iff_eq, Bool.not_eq_true'] at pure_
    exact ⟨pure_.1.1.1.1, pure_.1.1.1.2, pure_.1.1.2, Option.some.inj shown⟩
  · cases shown

theorem openingSequence_of_opens (tcp : packet.key.protocol = 6) (opens : packet.opens = true) :
    packet.openingSequence = some packet.tcpSequence := by
  simp only [Packet.opens, tcp, beq_self_eq_true, Bool.true_and, Bool.not_eq_true',
    Bool.or_eq_false_iff, Bool.not_eq_false'] at opens
  obtain ⟨⟨⟨⟨syn, ack⟩, rst⟩, fin⟩, _⟩ := opens
  simp [Packet.openingSequence, tcp, syn, ack, rst, fin]

/-- An outdated entry has expired or gives way to a TCP opening. -/
theorem Holds.released (holds : Holds history engine) {old mayOpen}
    (found : engine.exitFlows.get? packet.key = some old)
    (outdated : old.outdated packet mayOpen now packet.key = true) :
    old.expires ≤ now ∨ (packet.key.protocol = 6 ∧ packet.syn = true ∧ packet.ack = false ∧
      (packet.tcpSequence ≠ old.opening.tcpSequence ∨ old.closeUntil.isSome = true)) := by
  have held := holds.exits packet.key old found
  simp only [Flow.outdated, Bool.or_eq_true, Bool.and_eq_true, decide_eq_true_eq, beq_iff_eq,
    bne_iff_ne] at outdated
  rcases outdated with expired | ⟨⟨_, opening⟩, reused⟩
  · exact .inl expired
  · obtain ⟨sequence, shown⟩ := Option.isSome_iff_exists.mp opening
    obtain ⟨tcp, syn, ack, same⟩ := openingSequence_some shown
    have earlier : old.opening.openingSequence = some old.opening.tcpSequence :=
      openingSequence_of_opens (held.keyed ▸ tcp) held.opens
    refine .inr ⟨tcp, syn, ack, ?_⟩
    rcases reused with different | closed
    · rw [earlier, shown] at different
      exact .inl fun equal => different (congrArg some (equal.symm.trans same))
    · exact .inr closed

/-- Where an exit entry comes from: it was there, or an opening took its tuple. -/
theorem Holds.exit_entries (holds : Holds history engine) {event next}
    (taken : answers step engine event next) (found : next.exitFlows.get? key = some flow) :
    (∃ old, engine.exitFlows.get? key = some old ∧ old.remote = flow.remote ∧
      old.opening = flow.opening) ∨
    ∃ packet bytes inbound now snapshot localIsClient,
      Reopens engine event key flow packet bytes inbound now snapshot localIsClient := by
  cases step_stepped taken with
  | applied call =>
      cases call with
      | refused message => cases found
      | installed accepted => exact .inl ⟨flow, (install_exits found).1, rfl, rfl⟩
  | revoked => cases found
  | checked call =>
      cases call with
      | refused | tracked => exact .inl ⟨flow, found, rfl, rfl⟩
  | @exitChecked bytes remote inbound now next accepted call =>
      cases call with
      | refused kept => exact .inl ⟨flow, kept key flow found, rfl, rfl⟩
      | @tracked packet snapshot _ _ localIsClient _ _ parsed _ _ current _ permitted _ call =>
          rcases call.entries found with ⟨old, earlier, opening, remote⟩ |
            ⟨rfl, rfl, opens, rfl, rfl, outdated⟩
          · exact .inl ⟨old, earlier, remote.symm, opening.symm⟩
          · have authorized := exitPermitted_exits current (holds.bound _ current) permitted
            exact .inr ⟨packet, bytes, inbound, now, snapshot, localIsClient, rfl, parsed,
              ⟨rfl, rfl⟩, opens, current, authorized,
              fun old present => holds.released present (outdated old present)⟩

/-- Exit traffic stays on the routes of the snapshot in force, and a tuple
    changes its remote only by a new opening that the policy admits. -/
theorem exit_traffic_is_bound (run : Reaches history engine) :
    (∀ bytes remote inbound now, (engine.checkExit bytes remote inbound now).2 = true →
      ∃ packet snapshot request localIsClient, Packet.parse bytes = some packet ∧
        ExitAccepted history engine packet remote inbound now snapshot request localIsClient) ∧
    ∀ event next, answers step engine event next → ∀ key flow,
      next.exitFlows.get? key = some flow →
      (∃ old, engine.exitFlows.get? key = some old ∧ old.remote = flow.remote ∧
        old.opening = flow.opening) ∨
      ∃ packet bytes inbound now snapshot localIsClient,
        Reopens engine event key flow packet bytes inbound now snapshot localIsClient := by
  have holds := run.holds
  refine ⟨?_, fun _ _ taken _ _ found => holds.exit_entries taken found⟩
  intro bytes remote inbound now passed
  have call := checkExit_checks engine bytes remote inbound now
  generalize engine.checkExit bytes remote inbound now = result at call passed
  obtain ⟨next, accepted⟩ := result
  subst passed
  cases call with
  | @tracked packet snapshot deadline request localIsClient _ _ parsed lease live current listed
      permitted direction call =>
      refine ⟨packet, snapshot, request, localIsClient, parsed, current, ⟨deadline, lease, live⟩,
        listed, exitPermitted_exits current (holds.bound _ current) permitted, ?_, ?_⟩
      · rw [direction, bne_iff_ne]
      · rintro reply
        rw [reply] at permitted call
        exact holds.replies permitted call

theorem exit_reply_is_bound :
    let ops := [.apply twoPeers startOfTime, .checkExit exitSyn "b" false 1]
    ((after ops).checkExit exitSynAck "b" true 2).2 = true ∧
      ∃ packet snapshot request localIsClient, Packet.parse exitSynAck = some packet ∧
        ExitAccepted (feed step default ops).1 (after ops) packet "b" true 2 snapshot request
          localIsClient := by
  have passed : ((after [.apply twoPeers startOfTime, .checkExit exitSyn "b" false 1]).checkExit
      exitSynAck "b" true 2).2 = true := by
    decide
  exact ⟨passed, (exit_traffic_is_bound (feed_run step default _)).1 _ _ _ _ passed⟩

/-- No lease and no tracked conversation. -/
structure Closed (engine : Engine) : Prop where
  lease : engine.deadline = none
  flows : ∀ key, engine.flows.get? key = none
  exits : ∀ key, engine.exitFlows.get? key = none

theorem revoke_closed (engine : Engine) : engine.revoke.Closed := ⟨rfl, by simp [revoke], by simp [revoke]⟩

theorem get?_of_sub {m : Flows} {n} (sub : m.Sub n) (absent : ∀ key, n.get? key = none)
    (key : Key) :
    m.get? key = none := by
  cases found : m.get? key with
  | none => rfl
  | some flow => exact absurd ((absent key).symm.trans (sub key flow found)) (by simp)

namespace Closed

theorem refuses_check (closed : engine.Closed) {bytes remote inbound now next accepted}
    (call : Checks engine bytes remote inbound now next accepted) :
    accepted = false ∧ next.Closed := by
  cases call with
  | refused kept => exact ⟨rfl, closed.lease, get?_of_sub kept closed.flows, closed.exits⟩
  | tracked _ lease => exact absurd (closed.lease.symm.trans lease) (by simp)

theorem refuses_exit (closed : engine.Closed) {bytes remote inbound now next accepted}
    (call : ExitChecks engine bytes remote inbound now next accepted) :
    accepted = false ∧ next.Closed := by
  cases call with
  | refused kept => exact ⟨rfl, closed.lease, closed.flows, get?_of_sub kept closed.exits⟩
  | tracked _ lease => exact absurd (closed.lease.symm.trans lease) (by simp)

theorem step (closed : engine.Closed) {event next} (taken : answers step engine event next)
    (silent : event.2 ≠ .applied (.ok ())) :
    next.Closed := by
  cases step_stepped taken with
  | applied call =>
      cases call with
      | refused message => exact revoke_closed engine
      | installed accepted => exact absurd rfl silent
  | revoked => exact revoke_closed engine
  | checked call => exact (closed.refuses_check call).2
  | exitChecked call => exact (closed.refuses_exit call).2

/-- A closed engine stays closed until an update succeeds. -/
theorem run (closed : engine.Closed) {later final} (run : RunsFrom engine later final)
    (silent : ∀ event ∈ later, event.2 ≠ .applied (.ok ())) :
    final.Closed := by
  induction run with
  | start => exact closed
  | snoc prior taken ih =>
      simp only [List.mem_append, List.mem_singleton] at silent
      exact (ih fun event member => silent event (.inl member)).step taken (silent _ (.inr rfl))

/-- The update that ends the closed phase starts with empty tables. -/
theorem install (closed : engine.Closed) (snapshot : Snapshot) (remaining : Nat)
    (ips : Dict String Ipv4Addr) (clock : ApplyClock) (key : Key) :
    (engine.install snapshot remaining ips clock).flows.get? key = none ∧
      (engine.install snapshot remaining ips clock).exitFlows.get? key = none := by
  constructor
  · exact get?_of_sub (fun key flow found => (install_flows found).1) closed.flows key
  · exact get?_of_sub (fun key flow found => (install_exits found).1) closed.exits key

end Closed

/-- A peer of the snapshot before an update whose address did not change hands. -/
theorem Holds.same_peer (holds : Holds history engine) {old} (current : engine.snapshot = some old)
    (bound : snapshot.Bound ips) {id ip} (assigned : old.Assigns id ip)
    (unchanged : ip ∉ changedAddresses old snapshot) :
    SamePeer old snapshot id ip := by
  obtain ⟨peer, member, rfl, rfl⟩ := assigned
  exact samePeer_of_unchanged (holds.bound old current) bound member unchanged

theorem Holds.kept_flow (holds : Holds history engine) {remaining clock}
    (bound : snapshot.Bound ips)
    (found : (engine.install snapshot remaining ips clock).flows.get? key = some flow) :
    engine.flows.get? key = some flow ∧ ∃ old, engine.snapshot = some old ∧
      (∃ id, SamePeer old snapshot id key.src) ∧ ∃ id, SamePeer old snapshot id key.dst := by
  obtain ⟨earlier, _, unchanged⟩ := install_flows found
  obtain ⟨old, current, granted⟩ := holds.granted earlier
  obtain ⟨source, destination⟩ := unchanged old current
  obtain ⟨grant, _, _, _, sourceAssigned, destinationAssigned, _⟩ := granted
  have keyed := (holds.flows key flow earlier).keyed
  rw [← keyed] at sourceAssigned destinationAssigned
  exact ⟨earlier, old, current, ⟨_, holds.same_peer current bound sourceAssigned source⟩,
    _, holds.same_peer current bound destinationAssigned destination⟩

theorem Holds.kept_exit (holds : Holds history engine) {remaining clock}
    (bound : snapshot.Bound ips)
    (found : (engine.install snapshot remaining ips clock).exitFlows.get? key = some flow) :
    engine.exitFlows.get? key = some flow ∧ ∃ old, engine.snapshot = some old ∧
      (∃ ip, SamePeer old snapshot flow.remote ip) ∧
      ∃ client, (client = old.self_ ∨ client = flow.remote) ∧
        SamePeer old snapshot client key.src := by
  obtain ⟨earlier, _, unchanged⟩ := install_exits found
  have held := holds.exits key flow earlier
  obtain ⟨_, permitted⟩ := held.permitted
  obtain ⟨old, current⟩ := snapshot_of_permitted permitted
  obtain ⟨source, _, remote⟩ := unchanged old current
  have oldBound := holds.bound old current
  obtain ⟨_, client, ip, _, exits⟩ := exitPermitted_exits current oldBound permitted
  obtain ⟨address, known⟩ := exits.remote_bound oldBound
  have assigned : old.Assigns client key.src := by
    rw [held.keyed, exits.ends.1]
    exact exits.assigned
  exact ⟨earlier, old, current,
    ⟨address, holds.same_peer current bound ((oldBound.address _ _).mp known) (remote address known)⟩,
    client, exits.client_end, holds.same_peer current bound assigned source⟩

/-- A failed update closes the engine until a later one succeeds, with empty
    tables. A successful one keeps workspace, identity and revision order, and
    only the conversations of peers it leaves as they were. -/
theorem update_fails_closed (run : Reaches history engine) (snapshot : Snapshot)
    (clock : ApplyClock) :
    (∀ message refused, engine.apply snapshot clock = (refused, .error message) →
      ∀ later final, RunsFrom refused later final →
        (∀ event ∈ later, event.2 ≠ .applied (.ok ())) →
        (∀ bytes remote inbound now, (final.check bytes remote inbound now).2 = false ∧
          (final.checkExit bytes remote inbound now).2 = false) ∧
        ∀ next readings reopened, final.apply next readings = (reopened, .ok ()) →
          ∀ key, reopened.flows.get? key = none ∧ reopened.exitFlows.get? key = none) ∧
    ∀ installed, engine.apply snapshot clock = (installed, .ok ()) →
      (∀ earlier readings, (.apply earlier readings, .applied (.ok ())) ∈ history →
        snapshot.workspace = earlier.workspace ∧ snapshot.self_ = earlier.self_ ∧
          earlier.revision ≤ snapshot.revision) ∧
      (∀ key flow, installed.flows.get? key = some flow →
        engine.flows.get? key = some flow ∧ ∃ old, engine.snapshot = some old ∧
          (∃ id, SamePeer old snapshot id key.src) ∧ ∃ id, SamePeer old snapshot id key.dst) ∧
      ∀ key flow, installed.exitFlows.get? key = some flow →
        engine.exitFlows.get? key = some flow ∧ ∃ old, engine.snapshot = some old ∧
          (∃ ip, SamePeer old snapshot flow.remote ip) ∧
          ∃ client, (client = old.self_ ∨ client = flow.remote) ∧
            SamePeer old snapshot client key.src := by
  have holds := run.holds
  refine ⟨?_, ?_⟩
  · intro message refused failed later final rest silent
    have call := apply_applies engine snapshot clock
    rw [failed] at call
    cases call with
    | refused =>
        have closed := (revoke_closed engine).run rest silent
        refine ⟨fun bytes remote inbound now => ⟨?_, ?_⟩, ?_⟩
        · exact (closed.refuses_check (check_checks final bytes remote inbound now)).1
        · exact (closed.refuses_exit (checkExit_checks final bytes remote inbound now)).1
        · intro next readings reopened succeeded
          have call := apply_applies final next readings
          rw [succeeded] at call
          cases call with
          | installed accepted => exact closed.install next _ _ readings
  · intro installed succeeded
    have call := apply_applies engine snapshot clock
    rw [succeeded] at call
    cases call with
    | installed accepted =>
        obtain ⟨bound, continues⟩ := validate_ok accepted
        refine ⟨?_, fun key flow found => holds.kept_flow bound found,
          fun key flow found => holds.kept_exit bound found⟩
        intro earlier readings member
        obtain ⟨old, current, workspace, self, revision⟩ := holds.applied earlier readings member
        obtain ⟨sameWorkspace, sameSelf, notLess⟩ := continues old current
        exact ⟨sameWorkspace.trans workspace, sameSelf.trans self, revision.trans notLess⟩

/-- A conversation of unchanged peers survives a renewed lease; an expired
    lease closes the engine. -/
theorem renewal_and_expiry :
    let ops := [.apply twoPeers startOfTime, .checkExit exitSyn "b" false 1]
    (∃ flow, ((after ops).apply twoPeers ⟨0, 2, 2⟩).1.exitFlows.get? exitKey = some flow ∧
      ∃ old, (after ops).snapshot = some old ∧ ∃ ip, SamePeer old twoPeers flow.remote ip) ∧
    (((after ops).apply twoPeers ⟨31, 2, 2⟩).1.checkExit exitSyn "b" false 3).2 = false := by
  intro ops
  have outcome := update_fails_closed (feed_run step default ops) twoPeers
  constructor
  · have kept : (((after ops).apply twoPeers ⟨0, 2, 2⟩).1.exitFlows.get? exitKey).isSome = true := by
      decide
    obtain ⟨flow, found⟩ := Option.isSome_iff_exists.mp kept
    obtain ⟨_, old, current, remote, _⟩ :=
      ((outcome ⟨0, 2, 2⟩).2 _ (Prod.ext rfl rfl)).2.2 exitKey flow found
    exact ⟨flow, found, old, current, remote⟩
  · exact (((outcome ⟨31, 2, 2⟩).1 _ _ (Prod.ext rfl rfl) [] _ .start (by simp)).1 _ _ _ _).2

end Engine

end PortHub.Network
