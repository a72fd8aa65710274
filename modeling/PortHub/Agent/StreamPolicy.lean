import PortHub.Mesh.Streams
import PortHub.Network.EngineRuns

/-! # The stream router's policy

For TCP streams the grants of a snapshot are compiled once: for every peer the
destination ports it may reach here and those it may be reached on, as merged
ranges. The packet policy scans the grants for every packet instead; both give
the same answer for every peer that streams are set up with.
-/

namespace PortHub.Agent.StreamPolicy

open Network

abbrev Range := UInt16 × UInt16

/-- `Ports`. -/
abbrev Ports := List Range

def Range.has (range : Range) (port : UInt16) : Bool :=
  decide (range.1 ≤ port) && decide (port ≤ range.2)

/-- `u16::saturating_add(1)`. -/
def saturatingSucc (port : UInt16) : UInt16 := if port = 65535 then port else port + 1

namespace Ports

def contains (ports : Ports) (port : UInt16) : Bool := ports.any fun range => Range.has range port

/-- The order of pairs. -/
def before (first second : Range) : Bool :=
  decide (first.1 < second.1) || first.1 == second.1 && decide (first.2 ≤ second.2)

/-- One range against the last merged one. -/
def mergeRange (merged : Ports) (range : Range) : Ports :=
  match merged.getLast? with
  | none => merged ++ [range]
  | some previous =>
      if range.1 ≤ saturatingSucc previous.2 then
        merged.dropLast ++ [(previous.1, max previous.2 range.2)]
      else merged ++ [range]

def merge (ports : Ports) : Ports :=
  (ports.insertionSort fun first second => before first second = true).foldl mergeRange []

end Ports

structure Policy where
  own : String
  ip : Ipv4Addr
  deadline : Nat
  peers : Dict String Mesh.Streams.Peer
  incoming : Dict String Ports
  outgoing : Dict String Ports

/-- The two ends of a TCP stream. -/
structure Flow where
  sourceIp : Ipv4Addr
  sourcePort : UInt16
  destinationIp : Ipv4Addr
  destinationPort : UInt16
  deriving DecidableEq, Repr

def meshPeer (peer : PeerInfo) : Mesh.Streams.Peer where
  id := peer.id
  ip := peer.ip
  fingerprint := peer.fingerprint.toList.map Char.toUpper
  instanceId := peer.instanceId

/-- The port ranges that a grant adds. -/
def grantRanges (grant : Grant) : Ports :=
  if grant.ports.isEmpty then [(1, 65535)] else grant.ports.map fun port => (port.start, port.stop)

/-- `entry(id).or_default()` and what is pushed there. -/
def addRanges (table : Dict String Ports) (id : String) (ranges : Ports) : Dict String Ports :=
  table.insert id ((table.get? id).getD [] ++ ranges)

namespace Policy

def empty (own : String) (ip : Ipv4Addr) (now : Nat) : Policy where
  own := own
  ip := ip
  deadline := now
  peers := .empty
  incoming := .empty
  outgoing := .empty

/-- One round of the grant loop. -/
def addGrant (own : String) (policy : Policy) (grant : Grant) : Policy :=
  if grant.protocol != "tcp" && grant.protocol != "any" then policy
  else if grant.source == own then
    { policy with outgoing := addRanges policy.outgoing grant.destination (grantRanges grant) }
  else if grant.destination == own then
    { policy with incoming := addRanges policy.incoming grant.source (grantRanges grant) }
  else policy

def mergeAll (policy : Policy) : Policy :=
  { policy with
    incoming := policy.incoming.map fun _ ports => ports.merge
    outgoing := policy.outgoing.map fun _ ports => ports.merge }

/-- One round of the peer loop. -/
def addPeer (own : String) (policy : Policy) (peer : PeerInfo) : Policy :=
  if peer.id != own && peer.streamTransport == "quic1" && !peer.fingerprint.isEmpty
      && !peer.instanceId.isEmpty
      && (policy.incoming.contains peer.id || policy.outgoing.contains peer.id) then
    { policy with peers := policy.peers.insert peer.id (meshPeer peer) }
  else policy

/-- `utc` is the wall clock, `now` the monotonic one. -/
def compile (snapshot : Snapshot) (own : String) (ip : Ipv4Addr) (utc : Int) (now : Nat) :
    Result Policy := do
  ensure (snapshot.self_ == own && snapshot.peers.any fun peer => peer.id == own && peer.ip == ip)
    "private stream identity changed"
  let remaining ← leaseRemaining snapshot utc
  let policy := { empty own ip now with deadline := now + remaining }
  let policy := (snapshot.grants.foldl (addGrant own) policy).mergeAll
  return snapshot.peers.foldl (addPeer own) policy

def allows (policy : Policy) (peer : Mesh.Streams.Peer) (flow : Flow) (outbound : Bool) : Bool :=
  if policy.peers.get? peer.id != some peer then false
  else
    let (ports, source, destination) :=
      if outbound then (policy.outgoing, policy.ip, peer.ip)
      else (policy.incoming, peer.ip, policy.ip)
    flow.sourceIp == source && flow.destinationIp == destination && flow.sourcePort != 0
      && (ports.get? peer.id).any fun ports => ports.contains flow.destinationPort

end Policy

section Merging

theorem contains_append (first second : Ports) (port : UInt16) :
    Ports.contains (first ++ second) port = (first.contains port || second.contains port) :=
  List.any_append

theorem saturatingSucc_toNat (port : UInt16) :
    (saturatingSucc port).toNat = min (port.toNat + 1) 65535 := by
  have bound := port.toNat_lt
  unfold saturatingSucc
  split
  · rename_i top
    simp [top]
  · rename_i below
    have different : port.toNat ≠ 65535 := fun same => below (UInt16.toNat_inj.mp same)
    rw [UInt16.toNat_add]
    simp only [UInt16.toNat_one]
    omega

/-- Two ranges that touch cover together what their hull covers. -/
theorem hull_has {low high other stop} (port : UInt16) (after : low ≤ other)
    (near : other ≤ saturatingSucc high) :
    Range.has (low, max high stop) port =
      (Range.has (low, high) port || Range.has (other, stop) port) := by
  have larger : max high stop = if high ≤ stop then stop else high := rfl
  have bound := high.toNat_lt
  have top := port.toNat_lt
  rw [UInt16.le_iff_toNat_le] at after
  rw [UInt16.le_iff_toNat_le, saturatingSucc_toNat] at near
  rw [larger, Bool.eq_iff_iff]
  simp only [Range.has, Bool.and_eq_true, Bool.or_eq_true, decide_eq_true_eq,
    UInt16.le_iff_toNat_le]
  split <;> omega

theorem before_total (first second : Range) :
    Ports.before first second = true ∨ Ports.before second first = true := by
  simp only [Ports.before, Bool.or_eq_true, Bool.and_eq_true, beq_iff_eq, decide_eq_true_eq,
    UInt16.lt_iff_toNat_lt, UInt16.le_iff_toNat_le, ← UInt16.toNat_inj]
  omega

theorem before_trans {first second third} (one : Ports.before first second = true)
    (two : Ports.before second third = true) : Ports.before first third = true := by
  simp only [Ports.before, Bool.or_eq_true, Bool.and_eq_true, beq_iff_eq, decide_eq_true_eq,
    UInt16.lt_iff_toNat_lt, UInt16.le_iff_toNat_le, ← UInt16.toNat_inj] at *
  omega

theorem start_le_of_before {first second} (sorted : Ports.before first second = true) :
    first.1 ≤ second.1 := by
  simp only [Ports.before, Bool.or_eq_true, Bool.and_eq_true, beq_iff_eq, decide_eq_true_eq,
    UInt16.lt_iff_toNat_lt, ← UInt16.toNat_inj] at sorted
  rw [UInt16.le_iff_toNat_le]
  omega

/-- One merge covers what the merged ranges and the new one cover, and leaves the
    last range starting no later than what is still to come. -/
theorem mergeRange_contains (merged : Ports) (range : Range) (port : UInt16)
    (after : ∀ last, merged.getLast? = some last → last.1 ≤ range.1) :
    (Ports.mergeRange merged range).contains port =
      (merged.contains port || Range.has range port) ∧
    ∀ last, (Ports.mergeRange merged range).getLast? = some last → last.1 ≤ range.1 := by
  unfold Ports.mergeRange
  cases shown : merged.getLast? with
  | none =>
      constructor
      · simp [Ports.contains]
      · simp
  | some previous =>
      have split : merged = merged.dropLast ++ [previous] :=
        (List.dropLast_append_getLast? previous shown).symm
      have starts := after previous shown
      dsimp only
      split
      · rename_i near
        constructor
        · have whole : merged.contains port =
              (Ports.contains merged.dropLast port || Range.has previous port) := by
            conv_lhs => rw [split]
            simp [Ports.contains]
          rw [whole, contains_append, Bool.or_assoc, ← hull_has port starts near]
          simp [Ports.contains]
        · simpa using starts
      · constructor
        · simp [Ports.contains]
        · simp

theorem foldl_mergeRange_contains (ranges merged : Ports) (port : UInt16)
    (sorted : ranges.Pairwise fun first second => Ports.before first second = true)
    (after : ∀ last, merged.getLast? = some last → ∀ range ∈ ranges, last.1 ≤ range.1) :
    (ranges.foldl Ports.mergeRange merged).contains port =
      (merged.contains port || ranges.contains port) := by
  induction ranges generalizing merged with
  | nil => simp [Ports.contains]
  | cons range rest ih =>
      obtain ⟨first, sorted⟩ := List.pairwise_cons.mp sorted
      obtain ⟨covers, ends⟩ := mergeRange_contains merged range port fun last shown =>
        after last shown range (by simp)
      have next : ∀ last, (Ports.mergeRange merged range).getLast? = some last →
          ∀ other ∈ rest, last.1 ≤ other.1 := by
        intro last shown other member
        exact UInt16.le_trans (ends last shown) (start_le_of_before (first other member))
      rw [List.foldl_cons, ih _ sorted next, covers, Bool.or_assoc]
      rfl

/-- Merging changes no answer. -/
theorem merge_contains (ports : Ports) (port : UInt16) : ports.merge.contains port = ports.contains port := by
  have total : Std.Total fun first second => Ports.before first second = true := ⟨before_total⟩
  have trans : IsTrans Range fun first second => Ports.before first second = true :=
    ⟨fun _ _ _ => before_trans⟩
  have sorted := List.pairwise_insertionSort
    (fun first second => Ports.before first second = true) ports
  unfold Ports.merge
  rw [foldl_mergeRange_contains _ _ _ sorted (by simp), Bool.eq_iff_iff]
  simp [Ports.contains, List.mem_insertionSort]

end Merging

section Compiling

/-- A port is covered by what a table has for an id. -/
def admits (table : Dict String Ports) (id : String) (port : UInt16) : Bool :=
  (table.get? id).any fun ports => ports.contains port

/-- A grant that streams use. -/
def streams (grant : Grant) : Bool := grant.protocol == "tcp" || grant.protocol == "any"

theorem admits_addRanges (table : Dict String Ports) (id other : String) (ranges : Ports)
    (port : UInt16) :
    admits (addRanges table id ranges) other port =
      (admits table other port || id == other && ranges.contains port) := by
  unfold admits addRanges
  by_cases same : other = id
  · subst same
    cases table.get? other with
    | none => simp [Ports.contains]
    | some ports => simp [contains_append]
  · simp [same, Ne.symm same]

theorem admits_merged (table : Dict String Ports) (id : String) (port : UInt16) :
    admits (table.map fun _ ports => ports.merge) id port = admits table id port := by
  unfold admits
  rw [Dict.get?_map]
  cases table.get? id with
  | none => rfl
  | some ports => exact merge_contains ports port

namespace Policy

/-- What the grant loop has collected, by direction. -/
theorem foldl_addGrant_admits (own : String) (grants : List Grant) (policy : Policy) (id : String)
    (port : UInt16) :
    admits (grants.foldl (addGrant own) policy).outgoing id port =
      (admits policy.outgoing id port || grants.any fun grant => streams grant
        && grant.source == own && grant.destination == id && (grantRanges grant).contains port) ∧
    admits (grants.foldl (addGrant own) policy).incoming id port =
      (admits policy.incoming id port || grants.any fun grant => streams grant
        && grant.source != own && grant.destination == own && grant.source == id
        && (grantRanges grant).contains port) := by
  induction grants generalizing policy with
  | nil => simp
  | cons grant rest ih =>
      have one : admits (addGrant own policy grant).outgoing id port =
            (admits policy.outgoing id port || streams grant && grant.source == own
              && grant.destination == id && (grantRanges grant).contains port) ∧
          admits (addGrant own policy grant).incoming id port =
            (admits policy.incoming id port || streams grant && grant.source != own
              && grant.destination == own && grant.source == id
              && (grantRanges grant).contains port) := by
        have closed : (grant.protocol != "tcp" && grant.protocol != "any") = !streams grant := by
          simp [streams, bne]
        unfold addGrant
        rw [closed]
        cases streams grant with
        | false => simp
        | true =>
            by_cases source : grant.source = own
            · subst source
              simp [admits_addRanges]
            · by_cases destination : grant.destination = own
              · subst destination
                have apart : (grant.source != grant.destination) = true := bne_iff_ne.mpr source
                simp [source, apart, admits_addRanges]
              · simp [source, destination]
      obtain ⟨outgoing, incoming⟩ := ih (addGrant own policy grant)
      simp only [List.foldl_cons, List.any_cons, outgoing, incoming, one, Bool.or_assoc, and_self]

/-- The peers that streams are set up with. -/
def reaches (own : String) (policy : Policy) (peer : PeerInfo) : Bool :=
  peer.id != own && peer.streamTransport == "quic1" && !peer.fingerprint.isEmpty
    && !peer.instanceId.isEmpty
    && (policy.incoming.contains peer.id || policy.outgoing.contains peer.id)

theorem addPeer_same (own : String) (policy : Policy) (peer : PeerInfo) :
    (addPeer own policy peer).incoming = policy.incoming ∧
      (addPeer own policy peer).outgoing = policy.outgoing ∧
      (addPeer own policy peer).ip = policy.ip := by
  unfold addPeer
  split <;> exact ⟨rfl, rfl, rfl⟩

theorem foldl_addPeer_same (own : String) (peers : List PeerInfo) (policy : Policy) :
    (peers.foldl (addPeer own) policy).incoming = policy.incoming ∧
      (peers.foldl (addPeer own) policy).outgoing = policy.outgoing ∧
      (peers.foldl (addPeer own) policy).ip = policy.ip := by
  induction peers generalizing policy with
  | nil => exact ⟨rfl, rfl, rfl⟩
  | cons peer rest ih =>
      obtain ⟨incoming, outgoing, ip⟩ := addPeer_same own policy peer
      obtain ⟨first, second, third⟩ := ih (addPeer own policy peer)
      exact ⟨first.trans incoming, second.trans outgoing, third.trans ip⟩

theorem addPeer_get? (own : String) (policy : Policy) (peer : PeerInfo) (id : String) :
    (addPeer own policy peer).peers.get? id =
      if peer.id = id ∧ reaches own policy peer then some (meshPeer peer)
      else policy.peers.get? id := by
  unfold addPeer reaches
  split
  · rename_i enlisted
    by_cases same : peer.id = id
    · subst same
      simp [enlisted]
    · simp [same, Ne.symm same]
  · rename_i refused
    simp [refused]

theorem reaches_addPeer (own : String) (policy : Policy) (first second : PeerInfo) :
    reaches own (addPeer own policy first) second = reaches own policy second := by
  obtain ⟨incoming, outgoing, _⟩ := addPeer_same own policy first
  simp only [reaches, incoming, outgoing]

variable {own : String} {policy : Policy} {peer : PeerInfo}

/-- Peers with distinct ids do not overwrite one another. -/
theorem foldl_addPeer_other {peers : List PeerInfo} {id} (absent : ∀ peer ∈ peers, peer.id ≠ id) :
    (peers.foldl (addPeer own) policy).peers.get? id = policy.peers.get? id := by
  induction peers generalizing policy with
  | nil => rfl
  | cons peer rest ih =>
      rw [List.foldl_cons, ih fun other member => absent other (List.mem_cons_of_mem _ member),
        addPeer_get?, if_neg fun own => absent peer (by simp) own.1]

theorem foldl_addPeer_get? (own : String) {peers : List PeerInfo} (policy : Policy)
    (distinct : (peers.map PeerInfo.id).Nodup) (member : peer ∈ peers)
    (fresh : policy.peers.get? peer.id = none) :
    (peers.foldl (addPeer own) policy).peers.get? peer.id =
      if reaches own policy peer then some (meshPeer peer) else none := by
  induction peers generalizing policy with
  | nil => cases member
  | cons first rest ih =>
      simp only [List.map_cons, List.nodup_cons, List.mem_map, not_exists, not_and] at distinct
      rw [List.foldl_cons]
      rcases List.mem_cons.mp member with rfl | later
      · rw [foldl_addPeer_other fun other inside => distinct.1 other inside, addPeer_get?]
        by_cases enlisted : reaches own policy peer = true
        · simp [enlisted]
        · simp [enlisted, fresh]
      · have different : first.id ≠ peer.id := fun same => distinct.1 peer later same.symm
        rw [ih _ distinct.2 later, reaches_addPeer]
        rw [addPeer_get?, if_neg fun own => different own.1]
        exact fresh

theorem foldl_addGrant_same (own : String) (grants : List Grant) (policy : Policy) :
    (grants.foldl (addGrant own) policy).peers = policy.peers ∧
      (grants.foldl (addGrant own) policy).ip = policy.ip := by
  induction grants generalizing policy with
  | nil => exact ⟨rfl, rfl⟩
  | cons grant rest ih =>
      have one : (addGrant own policy grant).peers = policy.peers ∧
          (addGrant own policy grant).ip = policy.ip := by
        unfold addGrant
        split
        · exact ⟨rfl, rfl⟩
        · split
          · exact ⟨rfl, rfl⟩
          · split <;> exact ⟨rfl, rfl⟩
      obtain ⟨peers, ip⟩ := ih (addGrant own policy grant)
      exact ⟨peers.trans one.1, ip.trans one.2⟩

theorem contains_of_admits {table id port} (admitted : admits table id port = true) :
    table.contains id = true := by
  unfold admits at admitted
  unfold Dict.contains
  cases found : table.get? id with
  | none => simp [found] at admitted
  | some ports => rfl

theorem allows_iff {peer flow outbound} :
    policy.allows peer flow outbound = true ↔
      flow.sourceIp = (if outbound then policy.ip else peer.ip) ∧
      flow.destinationIp = (if outbound then peer.ip else policy.ip) ∧ flow.sourcePort ≠ 0 ∧
      policy.peers.get? peer.id = some peer ∧
      admits (if outbound then policy.outgoing else policy.incoming) peer.id
        flow.destinationPort = true := by
  unfold allows admits
  by_cases listed : policy.peers.get? peer.id = some peer
  · cases outbound <;> simp [listed, and_assoc]
  · simp [listed]

/-- What `compile` leaves for one peer of a snapshot. -/
structure Compiled (snapshot : Snapshot) (own : String) (ip : Ipv4Addr) (peer : PeerInfo)
    (policy : Policy) : Prop where
  address : policy.ip = ip
  listed : policy.peers.get? peer.id =
    if reaches own policy peer then some (meshPeer peer) else none
  outgoing : ∀ port, admits policy.outgoing peer.id port =
    snapshot.grants.any fun grant => streams grant && grant.source == own
      && grant.destination == peer.id && (grantRanges grant).contains port
  incoming : ∀ port, admits policy.incoming peer.id port =
    snapshot.grants.any fun grant => streams grant && grant.source != own
      && grant.destination == own && grant.source == peer.id && (grantRanges grant).contains port

theorem compile_compiled {snapshot ip utc now}
    (compiled : compile snapshot own ip utc now = .ok policy)
    (distinct : (snapshot.peers.map PeerInfo.id).Nodup) (member : peer ∈ snapshot.peers) :
    Compiled snapshot own ip peer policy := by
  simp only [compile, bind_eq_ok, ensure_eq_ok, pure_eq_ok] at compiled
  obtain ⟨_, _, remaining, _, rfl⟩ := compiled
  have collected (port : UInt16) := foldl_addGrant_admits own snapshot.grants
    { empty own ip now with deadline := now + remaining } peer.id port
  obtain ⟨noPeers, ownIp⟩ := foldl_addGrant_same own snapshot.grants
    { empty own ip now with deadline := now + remaining }
  generalize snapshot.grants.foldl (addGrant own) _ = granted at collected noPeers ownIp ⊢
  have listed := foldl_addPeer_get? own granted.mergeAll distinct member
    (by simp [mergeAll, noPeers, empty])
  obtain ⟨sameIncoming, sameOutgoing, sameIp⟩ := foldl_addPeer_same own snapshot.peers granted.mergeAll
  refine ⟨sameIp.trans ownIp, ?_, ?_, ?_⟩
  · rw [listed]
    simp only [reaches, sameIncoming, sameOutgoing]
    rfl
  · intro port
    rw [sameOutgoing, mergeAll, admits_merged, (collected port).1]
    simp [admits, empty]
  · intro port
    rw [sameIncoming, mergeAll, admits_merged, (collected port).2]
    simp [admits, empty]

/-- The answer of a compiled policy for a flow of a streaming peer, in grants. -/
theorem Compiled.allows {snapshot ip} (compiled : Compiled snapshot own ip peer policy)
    (quic : peer.streamTransport = "quic1") (identified : peer.fingerprint ≠ "")
    (running : peer.instanceId ≠ "") {flow : Flow} (source : flow.sourcePort ≠ 0) {outbound}
    (origin : flow.sourceIp = if outbound then ip else peer.ip)
    (target : flow.destinationIp = if outbound then peer.ip else ip) :
    policy.allows (meshPeer peer) flow outbound = true ↔ peer.id ≠ own ∧
      ∃ grant ∈ snapshot.grants, streams grant = true ∧
        grant.source = (if outbound then own else peer.id) ∧
        grant.destination = (if outbound then peer.id else own) ∧
        (grantRanges grant).contains flow.destinationPort = true := by
  have enlisted (table : Dict String Ports) (within : table = policy.incoming ∨ table = policy.outgoing) :
      (policy.peers.get? peer.id = some (meshPeer peer) ∧
        admits table peer.id flow.destinationPort = true) ↔
      peer.id ≠ own ∧ admits table peer.id flow.destinationPort = true := by
    rw [compiled.listed]
    constructor
    · rintro ⟨listed, admitted⟩
      refine ⟨?_, admitted⟩
      intro same
      simp [reaches, same] at listed
    · rintro ⟨different, admitted⟩
      have present := contains_of_admits admitted
      have named : peer.fingerprint.isEmpty = false := by simpa using identified
      have begun : peer.instanceId.isEmpty = false := by simpa using running
      have reached : reaches own policy peer = true := by
        rcases within with rfl | rfl <;>
          simp [reaches, different, quic, named, begun, present]
      exact ⟨by simp [reached], admitted⟩
  have here : flow.sourceIp = (if outbound then policy.ip else (meshPeer peer).ip) ∧
      flow.destinationIp = if outbound then (meshPeer peer).ip else policy.ip := by
    rw [compiled.address]
    exact ⟨origin, target⟩
  simp only [allows_iff, here.1, here.2, true_and, ne_eq, source, not_false_eq_true]
  cases outbound with
  | true =>
      refine (enlisted policy.outgoing (.inr rfl)).trans (and_congr_right fun _ => ?_)
      simp only [compiled.outgoing, List.any_eq_true, Bool.and_eq_true, beq_iff_eq, if_true, and_assoc]
  | false =>
      refine (enlisted policy.incoming (.inl rfl)).trans (and_congr_right fun different => ?_)
      simp only [compiled.incoming, List.any_eq_true, Bool.and_eq_true, beq_iff_eq, bne_iff_ne,
        Bool.false_eq_true, if_false, and_assoc]
      constructor
      · rintro ⟨grant, member, tcp, _, destination, from_, covered⟩
        exact ⟨grant, member, tcp, from_, destination, covered⟩
      · rintro ⟨grant, member, tcp, from_, destination, covered⟩
        exact ⟨grant, member, tcp, from_ ▸ different, destination, from_, covered⟩

end Policy

end Compiling

section Agreement

variable {engine : Engine} {snapshot : Snapshot} {clock : ApplyClock}

/-- An accepted snapshot is in force, bound to its addresses. -/
theorem applied (accepted : (engine.apply snapshot clock).2 = .ok ()) :
    (engine.apply snapshot clock).1.snapshot = some snapshot ∧
      snapshot.Bound (engine.apply snapshot clock).1.ips := by
  have call := Engine.apply_applies engine snapshot clock
  generalize engine.apply snapshot clock = result at accepted call
  obtain ⟨next, answer⟩ := result
  cases call with
  | refused message => cases accepted
  | installed validated => exact ⟨rfl, (Engine.validate_ok validated).1⟩

/-- A non-zero port that a grant of streams covers. -/
theorem grantRanges_contains {grant port} (nonzero : port ≠ 0) :
    (grantRanges grant).contains port =
      (grant.ports.isEmpty || grant.ports.any fun range => range.admits port) := by
  have positive : 0 < port.toNat := by
    have different : port.toNat ≠ 0 := fun same => nonzero (UInt16.toNat_inj.mp same)
    omega
  have bound := port.toNat_lt
  unfold grantRanges Ports.contains
  cases empty : grant.ports.isEmpty with
  | true =>
      simp [Range.has, UInt16.le_iff_toNat_le]
      omega
  | false => simp [Range.has, Port.admits, List.any_map, Function.comp_def]

/-- The packet policy's answer for a TCP packet between two peers of an accepted
    snapshot. -/
theorem allowed_iff (current : engine.snapshot = some snapshot) (bound : snapshot.Bound engine.ips)
    {source destination} (first : source ∈ snapshot.peers) (second : destination ∈ snapshot.peers)
    {packet : Packet} (tcp : packet.key.protocol = 6) (origin : packet.key.src = source.ip)
    (target : packet.key.dst = destination.ip) :
    engine.allowed packet = true ↔ ∃ grant ∈ snapshot.grants, streams grant = true ∧
      grant.source = source.id ∧ grant.destination = destination.id ∧
      (grant.ports.isEmpty || grant.ports.any fun range => range.admits packet.key.dport) = true := by
  have assigned {peer : PeerInfo} (member : peer ∈ snapshot.peers) (id : String) :
      engine.ips.get? id = some peer.ip ↔ id = peer.id := by
    rw [bound.address]
    constructor
    · rintro ⟨other, inside, rfl, same⟩
      rw [bound.peer_of_address inside member same]
    · rintro rfl
      exact ⟨peer, member, rfl, rfl⟩
  have named : protocolName packet.key.protocol = some "tcp" := by simp [protocolName, tcp]
  unfold Engine.allowed
  rw [current, named]
  simp only [List.any_eq_true, Bool.and_eq_true, beq_iff_eq, origin, target, assigned first,
    assigned second, streams, Bool.or_eq_true]
  constructor
  · rintro ⟨grant, member, ⟨⟨from_, to_⟩, protocol⟩, ports⟩
    exact ⟨grant, member, protocol.symm, from_, to_, ports⟩
  · rintro ⟨grant, member, protocol, from_, to_, ports⟩
    exact ⟨grant, member, ⟨⟨from_, to_⟩, protocol.symm⟩, ports⟩

/-- A TCP packet of a stream. -/
structure Carries (packet : Packet) (flow : Flow) : Prop where
  tcp : packet.key.protocol = 6
  src : packet.key.src = flow.sourceIp
  dst : packet.key.dst = flow.destinationIp
  sport : packet.key.sport = flow.sourcePort
  dport : packet.key.dport = flow.destinationPort

theorem compile_ok {own} (member : own ∈ snapshot.peers) (named : own.id = snapshot.self_) {utc}
    (lease : utc ≤ snapshot.expiresAt) (now : Nat) :
    ∃ policy, Policy.compile snapshot own.id own.ip utc now = .ok policy := by
  have remaining : leaseRemaining snapshot utc = .ok (snapshot.expiresAt - utc).toNat := by
    unfold leaseRemaining
    rw [if_neg (by omega)]
  have present : (snapshot.peers.any fun peer => peer.id == own.id && peer.ip == own.ip) = true :=
    List.any_eq_true.mpr ⟨own, member, by simp⟩
  simp only [Policy.compile, named.symm, beq_self_eq_true, Bool.true_and, present, remaining]
  exact ⟨_, rfl⟩

/-- For every snapshot that the packet policy accepts, the compiled policy allows
    a stream of another streaming peer exactly if the packet policy allows its TCP
    packets, in either direction. It never allows streams of the host with itself. -/
theorem streams_follow_the_packet_policy (engine : Engine) (snapshot : Snapshot) (clock : ApplyClock)
    (accepted : (engine.apply snapshot clock).2 = .ok ()) (own : PeerInfo)
    (member : own ∈ snapshot.peers) (named : own.id = snapshot.self_) (utc : Int)
    (lease : utc ≤ snapshot.expiresAt) (now : Nat) :
    ∃ policy, Policy.compile snapshot own.id own.ip utc now = .ok policy ∧
      ∀ peer ∈ snapshot.peers, peer.streamTransport = "quic1" → peer.fingerprint ≠ "" →
        peer.instanceId ≠ "" → ∀ (flow : Flow) (outbound : Bool) (packet : Packet),
        flow.sourcePort ≠ 0 → flow.destinationPort ≠ 0 →
        flow.sourceIp = (if outbound then own.ip else peer.ip) →
        flow.destinationIp = (if outbound then peer.ip else own.ip) → Carries packet flow →
        (policy.allows (meshPeer peer) flow outbound = true ↔
          peer.id ≠ own.id ∧ (engine.apply snapshot clock).1.allowed packet = true) := by
  obtain ⟨current, bound⟩ := applied accepted
  obtain ⟨policy, compiled⟩ := compile_ok member named lease now
  refine ⟨policy, compiled, ?_⟩
  intro peer listed quic identified running flow outbound packet source destination origin target
    carries
  have left := (Policy.compile_compiled compiled bound.ids listed).allows quic identified running
    source origin target
  rw [left]
  refine and_congr_right fun _ => ?_
  cases outbound with
  | true =>
      rw [allowed_iff current bound member listed carries.tcp (carries.src.trans origin)
        (carries.dst.trans target), carries.dport]
      simp only [grantRanges_contains destination, if_true]
  | false =>
      rw [allowed_iff current bound listed member carries.tcp (carries.src.trans origin)
        (carries.dst.trans target), carries.dport]
      simp only [grantRanges_contains destination, Bool.false_eq_true, if_false]

end Agreement

/-- Two streaming peers; the first may reach itself and two ranges of ports of the
    second, which touch. -/
def streamingPeers : Snapshot where
  workspace := "w"
  self_ := "a"
  revision := 1
  expiresAt := 30
  peers := [⟨"a", ⟨10, 203, 0, 1⟩, "fa", "ia", "quic1", [], []⟩,
    ⟨"b", ⟨10, 203, 0, 2⟩, "fb", "ib", "quic1", [], []⟩]
  dnsSuffixes := []
  grants := [⟨"a", "a", "any", []⟩, ⟨"a", "b", "tcp", [⟨444, 500⟩, ⟨443, 443⟩]⟩]
  exitRoutes := []
  dnsRules := []

/-- The TCP packet of a flow with a given destination. -/
def streamPacket (destination : Ipv4Addr) : Packet where
  key := ⟨⟨10, 203, 0, 1⟩, destination, 6, 4000, 443, 0⟩
  syn := true
  ack := false
  rst := false
  fin := false
  icmpType := 0
  tcpSequence := 0

theorem self_grant_is_not_streamed :
    let engine := Engine.default.apply streamingPeers ⟨0, 0, 0⟩
    let own : PeerInfo := ⟨"a", ⟨10, 203, 0, 1⟩, "fa", "ia", "quic1", [], []⟩
    let flow : Flow := ⟨own.ip, 4000, own.ip, 443⟩
    engine.2 = .ok () ∧ own ∈ streamingPeers.peers ∧
      (Policy.compile streamingPeers "a" own.ip 0 0).toOption.map
        (fun policy => policy.allows (meshPeer own) flow true) = some false ∧
      engine.1.allowed (streamPacket own.ip) = true := by
  decide

theorem granted_stream_is_allowed :
    let peer : PeerInfo := ⟨"b", ⟨10, 203, 0, 2⟩, "fb", "ib", "quic1", [], []⟩
    ∃ policy, Policy.compile streamingPeers "a" ⟨10, 203, 0, 1⟩ 0 0 = .ok policy ∧
      policy.allows (meshPeer peer) ⟨⟨10, 203, 0, 1⟩, 4000, peer.ip, 443⟩ true = true := by
  intro peer
  obtain ⟨policy, compiled, rule⟩ := streams_follow_the_packet_policy Engine.default streamingPeers
    ⟨0, 0, 0⟩ (by decide) ⟨"a", ⟨10, 203, 0, 1⟩, "fa", "ia", "quic1", [], []⟩
    (by decide) rfl 0 (by decide) 0
  refine ⟨policy, compiled, (rule peer (by decide) rfl (by decide) (by decide) _ true
    (streamPacket peer.ip) (by decide) (by decide) rfl rfl ⟨rfl, rfl, rfl, rfl, rfl⟩).mpr ?_⟩
  decide

end PortHub.Agent.StreamPolicy
