import PortHub.Network.Validation

/-! # Runs of the policy engine

Every public operation of an `Engine` is an input of one machine, with the clock
readings it takes. The invariant of a run ties both flow tables to the current snapshot
and to the packets that were accepted on the way: an entry is keyed by its own
opening, the opening was accepted earlier, and the current policy still admits
it.
-/

namespace PortHub.Network

open Runs

namespace Engine

inductive Op where
  | apply (snapshot : Snapshot) (clock : ApplyClock)
  | revoke
  | check (bytes : List UInt8) (remote : String) (inbound : Bool) (now : Nat)
  | checkExit (bytes : List UInt8) (remote : String) (inbound : Bool) (now : Nat)

inductive Answer where
  | applied (result : Result Unit)
  | revoked
  | verdict (accepted : Bool)

abbrev Event := Op × Answer

def step (engine : Engine) : Op → Engine × Answer
  | .apply snapshot clock =>
      let (next, result) := engine.apply snapshot clock
      (next, .applied result)
  | .revoke => (engine.revoke, .revoked)
  | .check bytes remote inbound now =>
      let (next, accepted) := engine.check bytes remote inbound now
      (next, .verdict accepted)
  | .checkExit bytes remote inbound now =>
      let (next, accepted) := engine.checkExit bytes remote inbound now
      (next, .verdict accepted)

/-- Runs of operations at any clock readings; those of a monotone clock are
    among them. -/
abbrev RunsFrom (origin : Engine) (history : List Event) (engine : Engine) : Prop :=
  Run (answers step) origin history engine

/-- Runs from `Engine::default()`. -/
abbrev Reaches (history : List Event) (engine : Engine) : Prop := RunsFrom default history engine

end Engine

/-- The address a snapshot assigns to a peer. -/
def Snapshot.Assigns (snapshot : Snapshot) (id : String) (ip : Ipv4Addr) : Prop :=
  ∃ peer ∈ snapshot.peers, peer.id = id ∧ peer.ip = ip

/-- Some grant of the snapshot lets the packet open a conversation. -/
def Snapshot.Grants (snapshot : Snapshot) (packet : Packet) : Prop :=
  ∃ grant ∈ snapshot.grants, ∃ protocol, protocolName packet.key.protocol = some protocol ∧
    snapshot.Assigns grant.source packet.key.src ∧
    snapshot.Assigns grant.destination packet.key.dst ∧
    (grant.protocol = "any" ∨ grant.protocol = protocol) ∧
    (grant.ports = [] ∨
      ∃ port ∈ grant.ports, port.start ≤ packet.key.dport ∧ packet.key.dport ≤ port.stop)

/-- The packet was accepted by a private check of the run. -/
def Checked (history : List Engine.Event) (packet : Packet) : Prop :=
  ∃ bytes remote inbound now, (.check bytes remote inbound now, .verdict true) ∈ history ∧
    Packet.parse bytes = some packet

/-- The packet was accepted by an exit check of the run, from `remote`. -/
def ExitChecked (history : List Engine.Event) (remote : String) (packet : Packet) :
    Prop :=
  ∃ bytes inbound now, (.checkExit bytes remote inbound now, .verdict true) ∈ history ∧
    Packet.parse bytes = some packet

namespace Engine

/-- An entry of the private table. -/
structure FlowHolds (history : List Event) (engine : Engine) (key : Key) (flow : Flow) :
    Prop where
  keyed : key = flow.opening.key
  opens : flow.opening.opens = true
  allowed : engine.allowed flow.opening = true
  checked : Checked history flow.opening

/-- An entry of the exit table. Its opening stays a request of the client. -/
structure ExitHolds (history : List Event) (engine : Engine) (key : Key) (flow : Flow) :
    Prop where
  keyed : key = flow.opening.key
  opens : flow.opening.opens = true
  permitted : ∃ localIsClient, engine.exitPermitted flow.opening flow.remote =
    some (true, localIsClient)
  checked : ExitChecked history flow.remote flow.opening

/-- The snapshot in force continues one that was accepted earlier. -/
def Continues (engine : Engine) (earlier : Snapshot) : Prop :=
  ∃ current, engine.snapshot = some current ∧ current.workspace = earlier.workspace ∧
    current.self_ = earlier.self_ ∧ earlier.revision ≤ current.revision

/-- The invariant of every run. -/
structure Holds (history : List Event) (engine : Engine) : Prop where
  bound : ∀ snapshot, engine.snapshot = some snapshot → snapshot.Bound engine.ips
  applied : ∀ snapshot clock, (.apply snapshot clock, .applied (.ok ())) ∈ history →
    engine.Continues snapshot
  flows : ∀ key flow, engine.flows.get? key = some flow → FlowHolds history engine key flow
  exits : ∀ key flow, engine.exitFlows.get? key = some flow → ExitHolds history engine key flow

/-- Everything a private check can do: drop entries, or track one packet whose
    addresses belong to the two peers under a live lease. -/
inductive Checks (engine : Engine) (bytes : List UInt8) (remote : String) (inbound : Bool)
    (now : Nat) : Engine → Bool → Prop where
  | refused {after : Flows} (kept : after.Sub engine.flows) :
      Checks engine bytes remote inbound now { engine with flows := after } false
  | tracked {packet snapshot deadline after accepted} (parsed : Packet.parse bytes = some packet)
      (lease : engine.deadline = some deadline) (live : now < deadline)
      (current : engine.snapshot = some snapshot)
      (source : engine.ips.get? (if inbound then remote else snapshot.self_) = some packet.key.src)
      (destination : engine.ips.get? (if inbound then snapshot.self_ else remote) =
        some packet.key.dst)
      (call : Tracks engine.flows packet "" (engine.allowed packet) now after accepted) :
      Checks engine bytes remote inbound now { engine with flows := after } accepted

variable {engine : Engine} {ips : Dict String Ipv4Addr}

theorem lease_live {now} (live : ¬ engine.deadline.all (· ≤ now) = true) :
    ∃ deadline, engine.deadline = some deadline ∧ now < deadline := by
  cases found : engine.deadline with
  | none => simp [found] at live
  | some deadline => exact ⟨deadline, rfl, by simpa [found] using live⟩

theorem check_checks (engine : Engine) (bytes : List UInt8) (remote : String) (inbound : Bool)
    (now : Nat) :
    Checks engine bytes remote inbound now (engine.check bytes remote inbound now).1
      (engine.check bytes remote inbound now).2 := by
  have unchanged : Checks engine bytes remote inbound now engine false :=
    .refused (Dict.Sub.refl engine.flows)
  unfold check
  cases parsed : Packet.parse bytes with
  | none => exact unchanged
  | some packet =>
      dsimp only
      split
      · exact .refused (by intro key flow found; simp at found)
      · rename_i live
        obtain ⟨deadline, lease, live⟩ := lease_live live
        split
        · exact unchanged
        · rename_i snapshot current
          by_cases addresses :
              engine.ips.get? (if inbound then remote else snapshot.self_) ≠ some packet.key.src
                ∨ engine.ips.get? (if inbound then snapshot.self_ else remote) ≠ some packet.key.dst
          · rw [if_pos addresses]
            exact unchanged
          · rw [if_neg addresses]
            simp only [ne_eq, not_or, not_not] at addresses
            exact .tracked parsed lease live current addresses.1 addresses.2
              (trackPacket_tracks engine.flows packet "" (engine.allowed packet) now)

/-- Everything an exit check can do. -/
inductive ExitChecks (engine : Engine) (bytes : List UInt8) (remote : String) (inbound : Bool)
    (now : Nat) : Engine → Bool → Prop where
  | refused {after : Flows} (kept : after.Sub engine.exitFlows) :
      ExitChecks engine bytes remote inbound now { engine with exitFlows := after } false
  | tracked {packet snapshot deadline request localIsClient after accepted}
      (parsed : Packet.parse bytes = some packet)
      (lease : engine.deadline = some deadline) (live : now < deadline)
      (current : engine.snapshot = some snapshot)
      (listed : ∃ peer ∈ snapshot.peers, peer.id = remote ∧ peer.fingerprint ≠ "" ∧
        peer.instanceId ≠ "")
      (permitted : engine.exitPermitted packet remote = some (request, localIsClient))
      (direction : request = (inbound != localIsClient))
      (call : Tracks engine.exitFlows packet remote request now after accepted) :
      ExitChecks engine bytes remote inbound now { engine with exitFlows := after } accepted

theorem checkExit_checks (engine : Engine) (bytes : List UInt8) (remote : String) (inbound : Bool)
    (now : Nat) :
    ExitChecks engine bytes remote inbound now (engine.checkExit bytes remote inbound now).1
      (engine.checkExit bytes remote inbound now).2 := by
  have unchanged : ExitChecks engine bytes remote inbound now engine false :=
    .refused (Dict.Sub.refl engine.exitFlows)
  unfold checkExit
  split
  · exact .refused (by intro key flow found; simp at found)
  · rename_i live
    obtain ⟨deadline, lease, live⟩ := lease_live live
    split
    · exact unchanged
    · rename_i listed
      obtain ⟨snapshot, current, listed⟩ : ∃ snapshot, engine.snapshot = some snapshot ∧
          ∃ peer ∈ snapshot.peers, peer.id = remote ∧ peer.fingerprint ≠ "" ∧
            peer.instanceId ≠ "" := by
        cases current : engine.snapshot with
        | none => simp [current] at listed
        | some snapshot => exact ⟨snapshot, rfl, by simpa [current, and_assoc] using listed⟩
      cases parsed : Packet.parse bytes with
      | none => exact unchanged
      | some packet =>
          dsimp only
          cases permitted : engine.exitPermitted packet remote with
          | none => exact unchanged
          | some pair =>
              obtain ⟨request, localIsClient⟩ := pair
              dsimp only
              split
              · exact unchanged
              · rename_i direction
                exact .tracked parsed lease live current listed permitted (by simpa using direction)
                  (trackPacket_tracks engine.exitFlows packet remote request now)

/-- Everything an update can do: revoke the lease, or install the snapshot. -/
inductive Applies (engine : Engine) (snapshot : Snapshot) (clock : ApplyClock) :
    Engine → Result Unit → Prop where
  | refused (message : String) : Applies engine snapshot clock engine.revoke (.error message)
  | installed {remaining ips}
      (accepted : engine.validate snapshot clock.utc = .ok (remaining, ips)) :
      Applies engine snapshot clock (engine.install snapshot remaining ips clock) (.ok ())

theorem apply_applies (engine : Engine) (snapshot : Snapshot) (clock : ApplyClock) :
    Applies engine snapshot clock (engine.apply snapshot clock).1
      (engine.apply snapshot clock).2 := by
  unfold apply
  cases accepted : engine.validate snapshot clock.utc with
  | error message => exact .refused message
  | ok pair => exact .installed accepted

/-- One step of the engine, by what its operation can do. -/
inductive Stepped (engine : Engine) : Event → Engine → Prop where
  | applied {snapshot clock next result} (call : Applies engine snapshot clock next result) :
      Stepped engine (.apply snapshot clock, .applied result) next
  | revoked : Stepped engine (.revoke, .revoked) engine.revoke
  | checked {bytes remote inbound now next accepted}
      (call : Checks engine bytes remote inbound now next accepted) :
      Stepped engine (.check bytes remote inbound now, .verdict accepted) next
  | exitChecked {bytes remote inbound now next accepted}
      (call : ExitChecks engine bytes remote inbound now next accepted) :
      Stepped engine (.checkExit bytes remote inbound now, .verdict accepted) next

theorem step_stepped {next event} (taken : answers step engine event next) :
    Stepped engine event next := by
  obtain ⟨op, answer⟩ := event
  obtain ⟨rfl, rfl⟩ : (engine.step op).1 = next ∧ (engine.step op).2 = answer :=
    Prod.ext_iff.mp taken
  cases op with
  | apply snapshot clock => exact .applied (apply_applies engine snapshot clock)
  | revoke => exact .revoked
  | check bytes remote inbound now => exact .checked (check_checks engine bytes remote inbound now)
  | checkExit bytes remote inbound now =>
      exact .exitChecked (checkExit_checks engine bytes remote inbound now)

/-- Entries of the private table that survive an update. -/
theorem install_flows {snapshot remaining clock key flow}
    (found : (engine.install snapshot remaining ips clock).flows.get? key = some flow) :
    engine.flows.get? key = some flow ∧
      (engine.install snapshot remaining ips clock).allowed flow.opening = true ∧
      ∀ old, engine.snapshot = some old →
        key.src ∉ changedAddresses old snapshot ∧ key.dst ∉ changedAddresses old snapshot := by
  simp only [install, Dict.get?_retain_eq_some, Bool.and_eq_true] at found
  obtain ⟨kept, _, allowed⟩ := found
  cases current : engine.snapshot with
  | none =>
      simp only [dropChanged, current] at kept
      exact ⟨kept, allowed, by simp⟩
  | some old =>
      simp only [dropChanged, current, Dict.get?_retain_eq_some] at kept
      refine ⟨kept.1, allowed, ?_⟩
      rintro _ ⟨⟩
      simpa using kept.2

/-- Entries of the exit table that survive an update. -/
theorem install_exits {snapshot remaining clock key flow}
    (found : (engine.install snapshot remaining ips clock).exitFlows.get? key = some flow) :
    engine.exitFlows.get? key = some flow ∧
      ((engine.install snapshot remaining ips clock).exitPermitted flow.opening
        flow.remote).isSome = true ∧
      ∀ old, engine.snapshot = some old →
        key.src ∉ changedAddresses old snapshot ∧ key.dst ∉ changedAddresses old snapshot ∧
          ∀ ip, engine.ips.get? flow.remote = some ip → ip ∉ changedAddresses old snapshot := by
  simp only [install, Dict.get?_retain_eq_some, Bool.and_eq_true] at found
  obtain ⟨kept, _, permitted⟩ := found
  cases current : engine.snapshot with
  | none =>
      simp only [dropChanged, current] at kept
      exact ⟨kept, permitted, by simp⟩
  | some old =>
      simp only [dropChanged, current, Dict.get?_retain_eq_some] at kept
      refine ⟨kept.1, permitted, ?_⟩
      rintro _ ⟨⟩
      obtain ⟨⟨source, destination⟩, remote⟩ : (key.src ∉ changedAddresses old snapshot ∧
          key.dst ∉ changedAddresses old snapshot) ∧
          (engine.ips.get? flow.remote).all
            (fun ip => !(changedAddresses old snapshot).contains ip) = true := by
        simpa using kept.2
      refine ⟨source, destination, ?_⟩
      intro ip address
      simpa [address] using remote

theorem install_snapshot (engine : Engine) (snapshot : Snapshot) (remaining : Nat)
    (ips : Dict String Ipv4Addr) (clock : ApplyClock) :
    (engine.install snapshot remaining ips clock).snapshot = some snapshot := rfl

end Engine

/-- The one peer that holds an identity and an address, the same before and
    after an update. -/
def SamePeer (old new : Snapshot) (id : String) (ip : Ipv4Addr) : Prop :=
  ∃ before ∈ old.peers, ∃ after ∈ new.peers,
    before.id = id ∧ after.id = id ∧ before.ip = ip ∧ after.ip = ip ∧
    before.instanceId = after.instanceId ∧ before.fingerprint = after.fingerprint ∧
    (∀ peer ∈ old.peers, peer.id = id ∨ peer.ip = ip → peer = before) ∧
    (∀ peer ∈ new.peers, peer.id = id ∨ peer.ip = ip → peer = after)

variable {newIps : Dict String Ipv4Addr}

/-- A peer whose old address is not in the change set is the same afterwards. -/
theorem samePeer_of_unchanged {old new : Snapshot} {oldIps} (oldBound : old.Bound oldIps)
    (newBound : new.Bound newIps) {peer} (member : peer ∈ old.peers)
    (unchanged : peer.ip ∉ changedAddresses old new) :
    SamePeer old new peer.id peer.ip := by
  have own := fun inside => unchanged (List.mem_flatMap.mpr ⟨peer, member, inside⟩)
  cases found : new.peers.reverse.find? (fun next => next.id == peer.id) with
  | none => simp [found] at own
  | some next =>
      have inside : next ∈ new.peers := List.mem_reverse.mp (List.mem_of_find?_eq_some found)
      have sameId : next.id = peer.id := by simpa using List.find?_some found
      by_cases differs : (next.ip != peer.ip || next.instanceId != peer.instanceId
          || next.fingerprint != peer.fingerprint) = true
      · simp [found, differs] at own
      · simp only [Bool.or_eq_true, bne_iff_ne, ne_eq, not_or, not_not] at differs
        obtain ⟨⟨sameIp, sameInstance⟩, sameFingerprint⟩ := differs
        refine ⟨peer, member, next, inside, rfl, sameId, rfl, sameIp, sameInstance.symm,
          sameFingerprint.symm, ?_, ?_⟩
        · rintro other present (same | same)
          · exact oldBound.peer_of_id present member same
          · exact oldBound.peer_of_address present member same
        · rintro other present (same | same)
          · exact newBound.peer_of_id present inside (same.trans sameId.symm)
          · exact newBound.peer_of_address present inside (same.trans sameIp.symm)

/-- An address that a peer takes in an update, without having had it, is in the
    change set. -/
theorem moved_is_changed {old new : Snapshot} (newBound : new.Bound newIps) {before after}
    (first : before ∈ old.peers) (second : after ∈ new.peers) (same : before.id = after.id)
    (moved : before.ip ≠ after.ip) :
    after.ip ∈ changedAddresses old new := by
  refine List.mem_flatMap.mpr ⟨before, first, ?_⟩
  cases found : new.peers.reverse.find? (fun next => next.id == before.id) with
  | none =>
      have missed := List.find?_eq_none.mp found after (List.mem_reverse.mpr second)
      simp [same] at missed
  | some next =>
      have inside : next ∈ new.peers := List.mem_reverse.mp (List.mem_of_find?_eq_some found)
      have sameId : next.id = before.id := by simpa using List.find?_some found
      obtain rfl := newBound.peer_of_id inside second (sameId.trans same)
      simp [Ne.symm moved]

/-- The roles of the two ends in an exit route, and who its client is. -/
def ExitRoute.Joins (route : ExitRoute) (self remote client : String) (localIsClient : Bool) : Prop :=
  (localIsClient = true ∧ client = self ∧ self ∈ route.clients ∧ remote ∈ route.routingPeers) ∨
  (localIsClient = false ∧ client = remote ∧ self ∈ route.routingPeers ∧ remote ∈ route.clients)

/-- An address that a route lets its clients reach. -/
structure Snapshot.Target (snapshot : Snapshot) (route : ExitRoute) (ip : Ipv4Addr) : Prop where
  foreign : ∀ peer ∈ snapshot.peers, peer.ip ≠ ip
  mode : route.trafficMode.permits ip = true
  unspecified : ip.isUnspecified = false
  loopback : ip.isLoopback = false
  linkLocal : ip.isLinkLocal = false
  multicast : ip.isMulticast = false
  broadcast : ip.isBroadcast = false
  thisNetwork : ip.a ≠ 0
  reserved : ip.a < 240
  shared : ¬ (ip.a = 100 ∧ 64 ≤ ip.b ∧ ip.b ≤ 127)

/-- An exit route of the snapshot between the two ends, and the place of a
    packet on it: from the client to a target, or back. -/
structure Snapshot.Exits (snapshot : Snapshot) (packet : Packet) (remote : String)
    (request localIsClient : Bool) (route : ExitRoute) (client : String) (ip target : Ipv4Addr) :
    Prop where
  listed : route ∈ snapshot.exitRoutes
  roles : route.Joins snapshot.self_ remote client localIsClient
  assigned : snapshot.Assigns client ip
  ends : if request then packet.key.src = ip ∧ packet.key.dst = target
    else packet.key.dst = ip ∧ packet.key.src = target
  reaches : snapshot.Target route target

namespace Snapshot.Exits

variable {snapshot : Snapshot} {packet : Packet} {remote client : String}
variable {request localIsClient : Bool} {route : ExitRoute} {ip target : Ipv4Addr}

theorem client_end (exits : snapshot.Exits packet remote request localIsClient route client ip target) :
    client = snapshot.self_ ∨ client = remote := by
  rcases exits.roles with ⟨_, same, _⟩ | ⟨_, same, _⟩
  · exact .inl same
  · exact .inr same

theorem remote_bound
    (exits : snapshot.Exits packet remote request localIsClient route client ip target) {ips}
    (bound : snapshot.Bound ips) :
    ∃ address, ips.get? remote = some address := by
  apply bound.members route exits.listed
  rcases exits.roles with ⟨_, _, _, member⟩ | ⟨_, _, _, member⟩
  · exact .inr member
  · exact .inl member

end Snapshot.Exits

namespace Engine

variable {engine : Engine} {snapshot : Snapshot} {packet : Packet} {remote : String}

theorem allowed_grants (current : engine.snapshot = some snapshot)
    (bound : snapshot.Bound engine.ips) (allowed : engine.allowed packet = true) :
    snapshot.Grants packet := by
  unfold Engine.allowed at allowed
  rw [current] at allowed
  cases named : protocolName packet.key.protocol with
  | none => simp [named] at allowed
  | some protocol =>
      simp only [named, List.any_eq_true, Bool.and_eq_true, Bool.or_eq_true, beq_iff_eq] at allowed
      obtain ⟨grant, member, ⟨⟨source, destination⟩, sameProtocol⟩, ports⟩ := allowed
      refine ⟨grant, member, protocol, named, (bound.address _ _).mp source,
        (bound.address _ _).mp destination, sameProtocol, ?_⟩
      simpa [Port.admits] using ports

theorem target_of_checks (bound : snapshot.Bound engine.ips) {route : ExitRoute} {ip}
    (checks : ¬ (engine.ips.values.contains ip || !route.trafficMode.permits ip
      || !exitTarget ip false) = true) : snapshot.Target route ip := by
  simp only [Bool.or_eq_true, Bool.not_eq_true', not_or, Bool.not_eq_false] at checks
  obtain ⟨⟨foreign, mode⟩, allowed⟩ := checks
  simp only [exitTarget, Bool.and_eq_true, Bool.not_eq_true', bne_iff_ne, decide_eq_true_eq,
    Bool.false_and, Bool.not_false, and_true] at allowed
  obtain ⟨⟨⟨⟨⟨⟨⟨unspecified, loopback⟩, linkLocal⟩, multicast⟩, broadcast⟩, zero⟩, reserved⟩,
    shared⟩ := allowed
  refine ⟨?_, mode, unspecified, loopback, linkLocal, multicast, broadcast, zero, reserved, ?_⟩
  · intro peer member same
    apply foreign
    rw [List.contains_iff_mem]
    exact Dict.mem_values_iff.mpr ⟨peer.id, (bound.address _ _).mpr ⟨peer, member, rfl, same⟩⟩
  · simpa [and_assoc] using shared

theorem routePermits_exits (bound : snapshot.Bound engine.ips) {request localIsClient route}
    (listed : route ∈ snapshot.exitRoutes)
    (permitted : engine.routePermits snapshot packet remote route =
      some (some (request, localIsClient))) :
    ∃ client ip target, snapshot.Exits packet remote request localIsClient route client ip target := by
  unfold routePermits at permitted
  dsimp only at permitted
  split at permitted
  · cases permitted
  · rename_i joined
    split at permitted
    · cases permitted
    · rename_i ip address
      split at permitted
      · cases permitted
      · rename_i ends
        generalize aimed : (if (packet.source == ip) = true then packet.destination
          else packet.source) = target at permitted
        split at permitted
        · cases permitted
        · rename_i checks
          simp only [Option.some.injEq, Prod.mk.injEq] at permitted
          obtain ⟨sameRequest, sameRole⟩ := permitted
          refine ⟨_, ip, target, listed, ?_, (bound.address _ _).mp address, ?_,
            target_of_checks bound checks⟩
          · rw [sameRole] at joined ⊢
            cases localIsClient with
            | true => exact .inl ⟨rfl, rfl, by simpa using sameRole⟩
            | false => exact .inr ⟨rfl, rfl, by simpa using joined⟩
          · rw [sameRequest] at ends aimed
            cases request with
            | true =>
                simp only [beq_iff_eq, if_true] at sameRequest aimed
                exact ⟨sameRequest, aimed⟩
            | false =>
                simp only [Bool.not_false, Bool.true_and, bne_iff_ne, ne_eq, not_not,
                  Bool.false_eq_true, if_false] at ends aimed
                exact ⟨ends, aimed⟩

theorem exitPermitted_exits (current : engine.snapshot = some snapshot)
    (bound : snapshot.Bound engine.ips) {request localIsClient}
    (permitted : engine.exitPermitted packet remote = some (request, localIsClient)) :
    ∃ route client ip target,
      snapshot.Exits packet remote request localIsClient route client ip target := by
  simp only [exitPermitted, current, Option.join_eq_some_iff] at permitted
  obtain ⟨route, listed, result⟩ := List.exists_of_findSome?_eq_some permitted
  exact ⟨route, routePermits_exits bound listed result⟩

/-- The verdict of the exit policy sees only the two addresses of a packet. -/
theorem exitPermitted_congr (engine : Engine) (remote : String) {other : Packet}
    (src : packet.key.src = other.key.src) (dst : packet.key.dst = other.key.dst) :
    engine.exitPermitted packet remote = engine.exitPermitted other remote := by
  have same : ∀ snapshot, engine.routePermits snapshot packet remote =
      engine.routePermits snapshot other remote := by
    intro snapshot
    funext route
    unfold routePermits Packet.source Packet.destination
    rw [src, dst]
  simp only [exitPermitted, same]

variable {history : List Event} {event : Event} {key : Key} {flow : Flow}
  {ips : Dict String Ipv4Addr}

theorem FlowHolds.later (holds : FlowHolds history engine key flow) :
    FlowHolds (history ++ [event]) engine key flow := by
  obtain ⟨bytes, remote, inbound, now, member, parsed⟩ := holds.checked
  exact { holds with
    checked := ⟨bytes, remote, inbound, now, List.mem_append_left _ member, parsed⟩ }

theorem ExitHolds.later (holds : ExitHolds history engine key flow) :
    ExitHolds (history ++ [event]) engine key flow := by
  obtain ⟨bytes, inbound, now, member, parsed⟩ := holds.checked
  exact { holds with checked := ⟨bytes, inbound, now, List.mem_append_left _ member, parsed⟩ }

/-- The invariant where an operation leaves the policy alone. -/
theorem Holds.update (holds : Holds history engine) (silent : event.2 ≠ .applied (.ok ()))
    {flows exitFlows : Flows} {deadline} (private_ : ∀ key flow, flows.get? key = some flow →
      FlowHolds (history ++ [event]) engine key flow)
    (exits : ∀ key flow, exitFlows.get? key = some flow →
      ExitHolds (history ++ [event]) engine key flow) :
    Holds (history ++ [event])
      { engine with flows := flows, exitFlows := exitFlows, deadline := deadline } where
  bound := holds.bound
  applied := by
    intro snapshot clock member
    rcases mem_snoc.mp member with earlier | rfl
    · exact holds.applied snapshot clock earlier
    · exact absurd rfl silent
  flows key flow found := by
    have held := private_ key flow found
    exact ⟨held.keyed, held.opens, held.allowed, held.checked⟩
  exits key flow found := by
    have held := exits key flow found
    exact ⟨held.keyed, held.opens, held.permitted, held.checked⟩

theorem Holds.revoked (holds : Holds history engine) (silent : event.2 ≠ .applied (.ok ())) :
    Holds (history ++ [event]) engine.revoke :=
  holds.update silent (by simp) (by simp)

theorem Holds.checked (holds : Holds history engine) {bytes inbound now next accepted}
    (call : Checks engine bytes remote inbound now next accepted) :
    Holds (history ++ [(.check bytes remote inbound now, .verdict accepted)]) next := by
  cases call with
  | refused kept =>
      exact holds.update (by simp) (fun key flow found => (holds.flows key flow (kept key flow found)).later)
        fun key flow found => (holds.exits key flow found).later
  | @tracked packet _ _ _ _ parsed _ _ _ _ _ call =>
      refine holds.update (by simp) ?_ fun key flow found => (holds.exits key flow found).later
      intro key flow found
      rcases call.entries found with ⟨old, earlier, opening, _⟩ | ⟨rfl, allowed, opens, rfl, rfl, _⟩
      · have held := holds.flows key old earlier
        exact .later ⟨opening ▸ held.keyed, opening ▸ held.opens, opening ▸ held.allowed,
          opening ▸ held.checked⟩
      · exact ⟨rfl, opens, allowed, bytes, remote, inbound, now, by simp, parsed⟩

theorem Holds.exitChecked (holds : Holds history engine) {bytes remote inbound now next accepted}
    (call : ExitChecks engine bytes remote inbound now next accepted) :
    Holds (history ++ [(.checkExit bytes remote inbound now, .verdict accepted)]) next := by
  cases call with
  | refused kept =>
      exact holds.update (by simp) (fun key flow found => (holds.flows key flow found).later)
        fun key flow found => (holds.exits key flow (kept key flow found)).later
  | @tracked packet _ _ request localIsClient _ _ parsed _ _ _ _ permitted _ call =>
      refine holds.update (by simp) (fun key flow found => (holds.flows key flow found).later) ?_
      intro key flow found
      rcases call.entries found with ⟨old, earlier, opening, bound⟩ | ⟨rfl, rfl, opens, rfl, rfl, _⟩
      · have held := holds.exits key old earlier
        exact .later ⟨opening ▸ held.keyed, opening ▸ held.opens, opening ▸ bound ▸ held.permitted,
          opening ▸ bound ▸ held.checked⟩
      · exact ⟨rfl, opens, ⟨localIsClient, permitted⟩, bytes, inbound, now, by simp [Flow.fresh], parsed⟩

theorem snapshot_of_permitted {verdict}
    (permitted : engine.exitPermitted packet remote = some verdict) :
    ∃ snapshot, engine.snapshot = some snapshot := by
  cases current : engine.snapshot with
  | none => simp [exitPermitted, current] at permitted
  | some snapshot => exact ⟨snapshot, rfl⟩

/-- An exit entry that survives an update is still a request: had its target
    become the address of the client, that address would be in the change set. -/
theorem Holds.stays_request (holds : Holds history engine) {utc remaining clock}
    (accepted : engine.validate snapshot utc = .ok (remaining, ips))
    (found : (engine.install snapshot remaining ips clock).exitFlows.get? key = some flow) :
    ∃ localIsClient, (engine.install snapshot remaining ips clock).exitPermitted flow.opening
      flow.remote = some (true, localIsClient) := by
  obtain ⟨earlier, permitted, unchanged⟩ := install_exits found
  obtain ⟨⟨request, localIsClient⟩, verdict⟩ := Option.isSome_iff_exists.mp permitted
  obtain ⟨newBound, continues⟩ := validate_ok accepted
  have held := holds.exits key flow earlier
  cases request with
  | true => exact ⟨localIsClient, verdict⟩
  | false =>
      exfalso
      obtain ⟨_, wasRequest⟩ := held.permitted
      obtain ⟨old, current⟩ := snapshot_of_permitted wasRequest
      have oldBound := holds.bound old current
      obtain ⟨_, sameSelf, _⟩ := continues old current
      obtain ⟨_, _, _, _, oldExit⟩ := exitPermitted_exits current oldBound wasRequest
      obtain ⟨_, client, ip, _, newExit⟩ :=
        exitPermitted_exits (install_snapshot _ _ _ _ _) newBound verdict
      obtain ⟨after, inside, afterId, afterIp⟩ := newExit.assigned
      have target : flow.opening.key.dst = ip := newExit.ends.1
      have known : ∃ address, engine.ips.get? client = some address := by
        rcases newExit.client_end with rfl | rfl
        · rw [sameSelf]
          exact oldBound.identity
        · exact oldExit.remote_bound oldBound
      obtain ⟨address, bound⟩ := known
      obtain ⟨peer, member, peerId, peerIp⟩ := (oldBound.address _ _).mp bound
      have moved : peer.ip ≠ after.ip := by
        intro same
        apply oldExit.reaches.foreign peer member
        rw [same, afterIp, ← target]
        exact oldExit.ends.2
      have changed := moved_is_changed newBound member inside (peerId.trans afterId.symm) moved
      apply (unchanged old current).2.1
      rw [held.keyed, target, ← afterIp]
      exact changed

theorem Holds.installed (holds : Holds history engine) {remaining} {clock : ApplyClock}
    (accepted : engine.validate snapshot clock.utc = .ok (remaining, ips)) :
    Holds (history ++ [(.apply snapshot clock, .applied (.ok ()))])
      (engine.install snapshot remaining ips clock) where
  bound current same := by
    cases same
    exact (validate_ok accepted).1
  applied earlier readings member := by
    refine ⟨snapshot, rfl, ?_⟩
    rcases List.mem_append.mp member with before | last
    · obtain ⟨old, current, workspace, self, revision⟩ := holds.applied earlier readings before
      obtain ⟨sameWorkspace, sameSelf, notLess⟩ := (validate_ok accepted).2 old current
      exact ⟨sameWorkspace.trans workspace, sameSelf.trans self, revision.trans notLess⟩
    · simp only [List.mem_singleton, Prod.mk.injEq, Op.apply.injEq] at last
      obtain ⟨⟨rfl, rfl⟩, _⟩ := last
      exact ⟨rfl, rfl, le_rfl⟩
  flows key flow found := by
    obtain ⟨earlier, allowed, _⟩ := install_flows found
    have held := holds.flows key flow earlier
    exact ⟨held.keyed, held.opens, allowed, held.later.checked⟩
  exits key flow found := by
    obtain ⟨earlier, _, _⟩ := install_exits found
    have held := holds.exits key flow earlier
    exact ⟨held.keyed, held.opens, holds.stays_request accepted found, held.later.checked⟩

theorem Holds.initial : Holds [] Engine.default where
  bound snapshot current := by cases current
  applied snapshot clock member := by cases member
  flows key flow found := by cases found
  exits key flow found := by cases found

/-- The invariant holds after every run. -/
theorem Reaches.holds (run : Reaches history engine) : Holds history engine := by
  refine Run.historyInvariant Holds.initial ?_ run
  intro history engine event next _ holds taken
  cases step_stepped taken with
  | applied call =>
      cases call with
      | refused message => exact holds.revoked (by simp)
      | installed accepted => exact holds.installed accepted
  | revoked => exact holds.revoked (by simp)
  | checked call => exact holds.checked call
  | exitChecked call => exact holds.exitChecked call

end Engine

end PortHub.Network
