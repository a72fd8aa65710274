import PortHub.Mesh.Streams

/-! # Stored connections follow the trusted peers

Every interleaving of the endpoint's operations, with connections closing on
their own in between. `Prunes` says what the operations share: they drop closed
connections and nothing else. The invariant is preserved by a pruning step, by a
registration under a trusted peer, and by an update that closes what it no
longer trusts.
-/

namespace PortHub.Mesh.Streams

open Runs

inductive Op where
  | updatePeers (peers : List Peer)
  | register (connection : Connection) (expected : Option Peer)
  | prepared (expected : Peer)
  | connectionCount (expected : Peer)
  | connectionStats (expected : Peer)
  | closes (connection : Nat)

inductive Answer where
  | updated (result : Result Unit)
  | registered (result : Result (Peer × Connection))
  | lane (connection : Option Connection)
  | count (connections : Nat)
  | stats (connections : List Connection)
  | gone

abbrev Event := Op × Answer

namespace Endpoint

def step (sha256 : Bytes → Bytes) (endpoint : Endpoint) : Op → Endpoint × Answer
  | .updatePeers peers =>
      let (next, result) := endpoint.updatePeers peers
      (next, .updated result)
  | .register connection expected =>
      let (next, result) := endpoint.register sha256 connection expected
      (next, .registered result)
  | .prepared expected =>
      let (next, connection) := endpoint.prepared expected
      (next, .lane connection)
  | .connectionCount expected =>
      let (next, count) := endpoint.connectionCount expected
      (next, .count count)
  | .connectionStats expected =>
      let (next, stats) := endpoint.connectionStats id expected
      (next, .stats stats)
  | .closes connection => ({ endpoint with closed := connection :: endpoint.closed }, .gone)

end Endpoint

/-- Runs from a new endpoint. -/
abbrev Reaches (sha256 : Bytes → Bytes) (localAddress : Ipv4Addr) (identity : List Char)
    (history : List Event) (endpoint : Endpoint) : Prop :=
  Run (answers (Endpoint.step sha256)) (.new localAddress identity) history endpoint

/-- Closed connections are dropped, and nothing else happens to the maps. -/
structure Prunes (before after : Endpoint) : Prop where
  peers : after.peers = before.peers
  closes : ∀ connection, after.isOpen connection = true → before.isOpen connection = true
  sub : ∀ ip kept, after.connections.get? ip = some kept →
    ∃ stored, before.connections.get? ip = some stored ∧ kept.Sublist stored
  complete : ∀ ip stored connection, before.connections.get? ip = some stored →
    connection ∈ stored → after.isOpen connection = true →
    ∃ kept, after.connections.get? ip = some kept ∧ connection ∈ kept
  total : Endpoint.connectionTotal after.connections ≤ Endpoint.connectionTotal before.connections

namespace Prunes

theorem refl (endpoint : Endpoint) : Prunes endpoint endpoint where
  peers := rfl
  closes _ isOpen := isOpen
  sub _ kept found := ⟨kept, found, .refl kept⟩
  complete _ stored _ found member _ := ⟨stored, found, member⟩
  total := le_rfl

theorem trans {first second third} (left : Prunes first second) (right : Prunes second third) :
    Prunes first third where
  peers := right.peers.trans left.peers
  closes connection isOpen := left.closes connection (right.closes connection isOpen)
  sub ip kept found := by
    obtain ⟨between, present, inside⟩ := right.sub ip kept found
    obtain ⟨stored, earlier, outer⟩ := left.sub ip between present
    exact ⟨stored, earlier, inside.trans outer⟩
  complete ip stored connection found member isOpen := by
    obtain ⟨between, present, inside⟩ :=
      left.complete ip stored connection found member (right.closes connection isOpen)
    exact right.complete ip between connection present inside isOpen
  total := right.total.trans left.total

theorem close (endpoint : Endpoint) (connection : Nat) :
    Prunes endpoint { endpoint with closed := connection :: endpoint.closed } where
  peers := rfl
  closes other isOpen := by
    simp only [Endpoint.isOpen, List.contains_cons, Bool.not_or, Bool.and_eq_true] at isOpen ⊢
    exact isOpen.2
  sub _ kept found := ⟨kept, found, .refl kept⟩
  complete _ stored _ found member _ := ⟨stored, found, member⟩
  total := le_rfl

end Prunes

namespace Endpoint

variable {ip : Ipv4Addr} {kept stored : List Connection} {endpoint : Endpoint}
  {next : Dict Ipv4Addr Peer}

theorem retainConnections_get? {keep : Ipv4Addr → Connection → Bool} {connections} :
    (retainConnections keep connections).get? ip = some kept ↔
      ∃ stored, connections.get? ip = some stored ∧ stored.filter (keep ip) = kept ∧ kept ≠ [] := by
  simp only [retainConnections, Dict.get?_filterMap_eq_some]
  constructor
  · rintro ⟨stored, found, shown⟩
    split at shown
    · cases shown
    · rename_i nonempty
      cases shown
      exact ⟨stored, found, rfl, by simpa using nonempty⟩
  · rintro ⟨stored, found, rfl, nonempty⟩
    exact ⟨stored, found, by rw [if_neg (by simpa using nonempty)]⟩

theorem retainConnections_total (keep : Ipv4Addr → Connection → Bool)
    (connections : Dict Ipv4Addr (List Connection)) :
    connectionTotal (retainConnections keep connections) ≤ connectionTotal connections := by
  apply Dict.weight_filterMap_le
  intro ip stored kept shown
  dsimp only at shown
  split at shown
  · cases shown
  · cases shown
    exact List.length_filter_le _ _

/-- A stored connection adds one to the total. -/
theorem insert_total (connections : Dict Ipv4Addr (List Connection)) (ip : Ipv4Addr)
    (connection : Connection) :
    connectionTotal (connections.insert ip ((connections.get? ip).getD [] ++ [connection])) =
      connectionTotal connections + 1 := by
  have weight := Dict.weight_erase List.length connections ip
  simp only [connectionTotal, Dict.weight_insert, List.length_append, List.length_singleton]
  cases found : connections.get? ip with
  | none =>
      simp only [found, Option.map_none, Option.getD_none, List.length_nil] at weight ⊢
      omega
  | some stored =>
      simp only [found, Option.map_some, Option.getD_some] at weight ⊢
      omega

/-- Dropping the closed connections everywhere is pruning. -/
theorem retain_prunes (endpoint : Endpoint) :
    Prunes endpoint { endpoint with
      connections := retainConnections (fun _ => endpoint.isOpen) endpoint.connections } where
  peers := rfl
  closes _ isOpen := isOpen
  sub ip kept found := by
    obtain ⟨stored, present, rfl, _⟩ := retainConnections_get?.mp found
    exact ⟨stored, present, List.filter_sublist⟩
  complete ip stored connection found member isOpen := by
    have inside : connection ∈ stored.filter endpoint.isOpen := List.mem_filter.mpr ⟨member, isOpen⟩
    exact ⟨_, retainConnections_get?.mpr ⟨stored, found, rfl, List.ne_nil_of_mem inside⟩, inside⟩
  total := retainConnections_total _ _

/-- So is dropping them at one address, where some are left or none. -/
theorem erase_prunes (found : endpoint.connections.get? ip = some stored)
    (empty : stored.filter endpoint.isOpen = []) :
    Prunes endpoint { endpoint with connections := endpoint.connections.erase ip } where
  peers := rfl
  closes _ isOpen := isOpen
  sub other kept present := ⟨kept, (Dict.get?_of_erase present).2, .refl kept⟩
  complete other kept connection present member isOpen := by
    by_cases same : other = ip
    · subst same
      obtain rfl := Option.mem_unique found present
      exact absurd isOpen (List.filter_eq_nil_iff.mp empty connection member)
    · exact ⟨kept, by simpa [same] using present, member⟩
  total := by
    have weight := Dict.weight_erase List.length endpoint.connections ip
    simp only [connectionTotal]
    omega

theorem insert_prunes (found : endpoint.connections.get? ip = some stored) :
    Prunes endpoint { endpoint with
      connections := endpoint.connections.insert ip (stored.filter endpoint.isOpen) } where
  peers := rfl
  closes _ isOpen := isOpen
  sub other kept present := by
    rcases Dict.get?_of_insert present with ⟨rfl, rfl⟩ | ⟨_, earlier⟩
    · exact ⟨stored, found, List.filter_sublist⟩
    · exact ⟨kept, earlier, .refl kept⟩
  complete other kept connection present member isOpen := by
    by_cases same : other = ip
    · subst same
      obtain rfl := Option.mem_unique found present
      exact ⟨_, Dict.get?_insert_self _ _ _, List.mem_filter.mpr ⟨member, isOpen⟩⟩
    · exact ⟨kept, by simpa [same] using present, member⟩
  total := by
    have weight := Dict.weight_erase List.length endpoint.connections ip
    have shorter := List.length_filter_le endpoint.isOpen stored
    simp only [found, Option.map_some, Option.getD_some] at weight
    simp only [connectionTotal, Dict.weight_insert]
    omega

theorem openConnections_prunes (endpoint : Endpoint) (expected : Peer) :
    Prunes endpoint (endpoint.openConnections expected).1 := by
  unfold openConnections
  split
  · exact .refl endpoint
  · cases found : endpoint.connections.get? expected.ip with
    | none => exact .refl endpoint
    | some stored =>
        dsimp only
        split
        · rename_i empty
          exact erase_prunes found (List.isEmpty_iff.mp empty)
        · exact insert_prunes found

theorem prepared_prunes (endpoint : Endpoint) (expected : Peer) :
    Prunes endpoint (endpoint.prepared expected).1 := by
  have pruned := endpoint.openConnections_prunes expected
  unfold prepared
  split
  · rename_i next opened
    rw [opened] at pruned
    exact pruned
  · rename_i next kept _ opened
    rw [opened] at pruned
    exact ⟨pruned.peers, pruned.closes, pruned.sub, pruned.complete, pruned.total⟩

/-- What the checks of `register` establish. -/
theorem authenticate_ok {sha256 : Bytes → Bytes} {connection expected peer}
    (passed : endpoint.authenticate sha256 connection expected = .ok (ip, peer)) :
    connection.remoteAddress = some ip ∧ endpoint.peers.get? ip = some peer ∧
      ∃ certificates certificate, connection.peerIdentity = some certificates ∧
        certificates.head? = some certificate ∧
        fingerprint sha256 certificate = peer.fingerprint := by
  unfold authenticate at passed
  cases remote : connection.remoteAddress with
  | none => simp [remote] at passed
  | some address =>
      cases trusted : endpoint.peers.get? address with
      | none => simp [remote, trusted] at passed
      | some known =>
          cases identity : connection.peerIdentity with
          | none =>
              simp only [remote, trusted, identity, bind_eq_ok] at passed
              obtain ⟨_, _, passed⟩ := passed
              cases passed
          | some certificates =>
              simp only [remote, trusted, identity, bind_eq_ok, ensure_eq_ok, pure_eq_ok,
                Prod.mk.injEq] at passed
              obtain ⟨_, _, _, matched, rfl, rfl⟩ := passed
              obtain ⟨certificate, first, same⟩ := Option.any_eq_true _ _ |>.mp matched
              exact ⟨rfl, trusted, certificates, certificate, rfl, first, by simpa using same⟩

/-- Everything a registration can do. -/
inductive Registers (sha256 : Bytes → Bytes) (endpoint : Endpoint) (connection : Connection)
    (expected : Option Peer) : Endpoint → Result (Peer × Connection) → Prop where
  | refused {after} (message : String) (pruned : Prunes endpoint after) :
      Registers sha256 endpoint connection expected after (.error message)
  | stored {between ip peer} (pruned : Prunes endpoint between)
      (passed : endpoint.authenticate sha256 connection expected = .ok (ip, peer))
      (room : connectionTotal between.connections < maxConnections * maxConnectionsPerPeer)
      (lane : ((between.connections.get? ip).getD []).length < maxConnectionsPerPeer) :
      Registers sha256 endpoint connection expected
        { between with connections :=
          between.connections.insert ip ((between.connections.get? ip).getD [] ++ [connection]) }
        (.ok (peer, connection))

theorem register_registers (sha256 : Bytes → Bytes) (endpoint : Endpoint) (connection : Connection)
    (expected : Option Peer) :
    Registers sha256 endpoint connection expected
      (endpoint.register sha256 connection expected).1
      (endpoint.register sha256 connection expected).2 := by
  have pruned := retain_prunes endpoint
  unfold register
  cases passed : endpoint.authenticate sha256 connection expected with
  | error message => exact .refused message (.refl endpoint)
  | ok pair =>
      obtain ⟨ip, peer⟩ := pair
      dsimp only
      split
      · rename_i room
        split
        · exact .refused _ (pruned.trans (.close _ _))
        · rename_i lane
          exact .stored pruned passed room (not_le.mp lane)
      · exact .refused _ pruned

theorem trust_get? (found : (endpoint.trust next).connections.get? ip = some kept) :
    endpoint.peers.get? ip = next.get? ip ∧ ∃ stored, endpoint.connections.get? ip = some stored ∧
      kept = stored.filter endpoint.isOpen := by
  obtain ⟨stored, present, rfl, nonempty⟩ := retainConnections_get?.mp found
  cases allowed : endpoint.peers.get? ip == next.get? ip with
  | true => exact ⟨by simpa using allowed, stored, present, by simp [allowed]⟩
  | false => simp [allowed] at nonempty

/-- A connection that is open after an update was open before it, and is stored
    only where the trusted peer did not change. -/
theorem trust_open {connection} (isOpen : (endpoint.trust next).isOpen connection = true) :
    endpoint.isOpen connection = true ∧ ∀ ip stored, endpoint.connections.get? ip = some stored →
      connection ∈ stored → endpoint.peers.get? ip = next.get? ip := by
  simp only [trust, Endpoint.isOpen, List.contains_eq_mem, List.mem_append, Bool.not_eq_true',
    decide_eq_false_iff_not, not_or] at isOpen ⊢
  refine ⟨isOpen.2, ?_⟩
  intro ip stored found member
  by_contra changed
  apply isOpen.1
  refine List.mem_flatMap.mpr ⟨(ip, stored), Dict.get?_eq_some_iff.mp found, ?_⟩
  simpa [changed] using ⟨connection, member, rfl⟩

/-- One step of the endpoint, by what it does to the two maps. -/
inductive Stepped (sha256 : Bytes → Bytes) (endpoint : Endpoint) : Event → Endpoint → Prop where
  | pruned {event next} (pruned : Prunes endpoint next)
      (silent : ∀ connection expected pair,
        event ≠ (.register connection expected, .registered (.ok pair))) :
      Stepped sha256 endpoint event next
  | registered {connection expected between ip peer} (pruned : Prunes endpoint between)
      (passed : endpoint.authenticate sha256 connection expected = .ok (ip, peer))
      (room : connectionTotal between.connections < maxConnections * maxConnectionsPerPeer)
      (lane : ((between.connections.get? ip).getD []).length < maxConnectionsPerPeer) :
      Stepped sha256 endpoint (.register connection expected, .registered (.ok (peer, connection)))
        { between with connections :=
          between.connections.insert ip ((between.connections.get? ip).getD [] ++ [connection]) }
  | trusted {peers next} (result : endpoint.updatePeers peers = (endpoint.trust next, .ok ())) :
      Stepped sha256 endpoint (.updatePeers peers, .updated (.ok ())) (endpoint.trust next)

theorem updatePeers_cases (endpoint : Endpoint) (peers : List Peer) :
    (∃ message, endpoint.updatePeers peers = (endpoint, .error message)) ∨
      ∃ next, endpoint.updatePeers peers = (endpoint.trust next, .ok ()) := by
  unfold updatePeers
  split
  · cases endpoint.admitPeers peers ⟨.empty, [], []⟩ with
    | error message => exact .inl ⟨message, rfl⟩
    | ok next => exact .inr ⟨next, rfl⟩
  · exact .inl ⟨_, rfl⟩

theorem step_stepped {sha256 : Bytes → Bytes} {next event}
    (taken : answers (step sha256) endpoint event next) : Stepped sha256 endpoint event next := by
  obtain ⟨op, answer⟩ := event
  obtain ⟨rfl, rfl⟩ : (endpoint.step sha256 op).1 = next ∧ (endpoint.step sha256 op).2 = answer :=
    Prod.ext_iff.mp taken
  cases op with
  | updatePeers peers =>
      rcases endpoint.updatePeers_cases peers with ⟨message, failed⟩ | ⟨next, updated⟩
      · simp only [step, failed]
        exact .pruned (.refl endpoint) (by simp)
      · simp only [step, updated]
        exact .trusted updated
  | register connection expected =>
      have call := register_registers sha256 endpoint connection expected
      simp only [step]
      generalize endpoint.register sha256 connection expected = result at call ⊢
      obtain ⟨next, answer⟩ := result
      cases call with
      | refused message pruned => exact .pruned pruned (by simp)
      | stored pruned passed room lane => exact .registered pruned passed room lane
  | prepared expected => exact .pruned (endpoint.prepared_prunes expected) (by simp [step])
  | connectionCount expected | connectionStats expected =>
      exact .pruned (endpoint.openConnections_prunes expected) (by simp [step])
  | closes connection => exact .pruned (.close endpoint connection) (by simp [step])

end Endpoint

section Trust

variable (sha256 : Bytes → Bytes) (localAddress : Ipv4Addr) (identity : List Char)

/-- The first certificate of the connection has the fingerprint of the peer. -/
def Certified (connection : Connection) (peer : Peer) : Prop :=
  ∃ certificates certificate, connection.peerIdentity = some certificates ∧
    certificates.head? = some certificate ∧ fingerprint sha256 certificate = peer.fingerprint

/-- The connection was registered at a moment of the run when the address was
    trusted for exactly this peer. -/
def RegisteredUnder (history : List Event) (ip : Ipv4Addr) (connection : Connection) (peer : Peer) :
    Prop :=
  ∃ earlier later before expected,
    history = earlier ++ (.register connection expected, .registered (.ok (peer, connection))) :: later ∧
    Reaches sha256 localAddress identity earlier before ∧ before.peers.get? ip = some peer ∧
    connection.remoteAddress = some ip

/-- The connection was registered in the run, from this address. -/
def Registered (history : List Event) (ip : Ipv4Addr) (connection : Connection) : Prop :=
  connection.remoteAddress = some ip ∧ ∃ expected peer,
    (.register connection expected, .registered (.ok (peer, connection))) ∈ history

/-- The invariant of every run. -/
structure Sound (history : List Event) (endpoint : Endpoint) : Prop where
  trusted : ∀ ip stored, endpoint.connections.get? ip = some stored → ∀ connection ∈ stored,
    endpoint.isOpen connection = true → ∃ peer, endpoint.peers.get? ip = some peer ∧
      RegisteredUnder sha256 localAddress identity history ip connection peer ∧
      Certified sha256 connection peer
  lanes : ∀ ip stored, endpoint.connections.get? ip = some stored →
    stored.length ≤ maxConnectionsPerPeer
  total : Endpoint.connectionTotal endpoint.connections ≤ maxConnections * maxConnectionsPerPeer
  complete : ∀ ip connection, Registered history ip connection →
    endpoint.isOpen connection = true →
    ∃ stored, endpoint.connections.get? ip = some stored ∧ connection ∈ stored

variable {sha256 localAddress identity} {history : List Event} {endpoint next : Endpoint}
variable {event : Event}

theorem RegisteredUnder.later {ip connection peer}
    (registered : RegisteredUnder sha256 localAddress identity history ip connection peer) :
    RegisteredUnder sha256 localAddress identity (history ++ [event]) ip connection peer := by
  obtain ⟨earlier, later, before, expected, rfl, run, trusted, remote⟩ := registered
  exact ⟨earlier, later ++ [event], before, expected, by simp, run, trusted, remote⟩

theorem mem_stored {connections : Dict Ipv4Addr (List Connection)} {ip connection}
    (member : connection ∈ (connections.get? ip).getD []) :
    ∃ stored, connections.get? ip = some stored ∧ connection ∈ stored := by
  cases found : connections.get? ip with
  | none => simp [found] at member
  | some stored => exact ⟨stored, rfl, by simpa [found] using member⟩

namespace Sound

section

variable (sound : Sound sha256 localAddress identity history endpoint)

include sound

theorem prune (pruned : Prunes endpoint next) : Sound sha256 localAddress identity history next where
  trusted ip kept found connection member isOpen := by
    obtain ⟨stored, present, inside⟩ := pruned.sub ip kept found
    rw [pruned.peers]
    exact sound.trusted ip stored present connection (inside.mem member)
      (pruned.closes connection isOpen)
  lanes ip kept found := by
    obtain ⟨stored, present, inside⟩ := pruned.sub ip kept found
    exact inside.length_le.trans (sound.lanes ip stored present)
  total := pruned.total.trans sound.total
  complete ip connection registered isOpen := by
    obtain ⟨stored, present, member⟩ :=
      sound.complete ip connection registered (pruned.closes connection isOpen)
    exact pruned.complete ip stored connection present member isOpen

theorem later (silent : ∀ connection expected pair,
      event ≠ (.register connection expected, .registered (.ok pair))) :
    Sound sha256 localAddress identity (history ++ [event]) endpoint where
  trusted ip stored found connection member isOpen := by
    obtain ⟨peer, trusted, registered, certified⟩ :=
      sound.trusted ip stored found connection member isOpen
    exact ⟨peer, trusted, registered.later, certified⟩
  __ := sound
  complete ip connection registered isOpen := by
    obtain ⟨remote, expected, peer, member⟩ := registered
    rcases mem_snoc.mp member with earlier | last
    · exact sound.complete ip connection ⟨remote, expected, peer, earlier⟩ isOpen
    · exact absurd last.symm (silent _ _ _)

theorem trust (peers : Dict Ipv4Addr Peer) :
    Sound sha256 localAddress identity history (endpoint.trust peers) where
  trusted ip kept found connection member isOpen := by
    obtain ⟨same, stored, present, rfl⟩ := Endpoint.trust_get? found
    obtain ⟨peer, trusted, rest⟩ := sound.trusted ip stored present connection
      (List.mem_of_mem_filter member) (Endpoint.trust_open isOpen).1
    exact ⟨peer, same ▸ trusted, rest⟩
  lanes ip kept found := by
    obtain ⟨_, stored, present, rfl⟩ := Endpoint.trust_get? found
    exact (List.length_filter_le _ _).trans (sound.lanes ip stored present)
  total := (Endpoint.retainConnections_total _ _).trans sound.total
  complete ip connection registered isOpen := by
    obtain ⟨wasOpen, unchanged⟩ := Endpoint.trust_open isOpen
    obtain ⟨stored, present, member⟩ := sound.complete ip connection registered wasOpen
    have inside : connection ∈ stored.filter fun connection => endpoint.isOpen connection &&
        (endpoint.peers.get? ip == peers.get? ip) :=
      List.mem_filter.mpr ⟨member, by simp [wasOpen, unchanged ip stored present member]⟩
    exact ⟨_, Endpoint.retainConnections_get?.mpr
      ⟨stored, present, rfl, List.ne_nil_of_mem inside⟩, inside⟩

/-- A registration that passed the checks, on a lane that has room. -/
theorem store (run : Reaches sha256 localAddress identity history endpoint) {between}
    (pruned : Prunes endpoint between) {connection expected ip peer}
    (passed : endpoint.authenticate sha256 connection expected = .ok (ip, peer))
    (room : Endpoint.connectionTotal between.connections < maxConnections * maxConnectionsPerPeer)
    (lane : ((between.connections.get? ip).getD []).length < maxConnectionsPerPeer) :
    Sound sha256 localAddress identity
      (history ++ [(.register connection expected, .registered (.ok (peer, connection)))])
      { between with connections :=
        between.connections.insert ip ((between.connections.get? ip).getD [] ++ [connection]) } := by
  obtain ⟨remote, trusted, certified⟩ := Endpoint.authenticate_ok passed
  have held := sound.prune pruned
  refine ⟨?_, ?_, ?_, ?_⟩
  · intro other stored found member inside isOpen
    rcases Dict.get?_of_insert found with ⟨rfl, rfl⟩ | ⟨_, earlier⟩
    · rcases mem_snoc.mp inside with old | rfl
      · obtain ⟨stored, present, inside⟩ := mem_stored old
        obtain ⟨known, still, registered, rest⟩ :=
          held.trusted other stored present member inside isOpen
        exact ⟨known, still, registered.later, rest⟩
      · exact ⟨peer, pruned.peers ▸ trusted,
          ⟨history, [], endpoint, expected, rfl, run, trusted, remote⟩, certified⟩
    · obtain ⟨known, present, registered, rest⟩ :=
        held.trusted other stored earlier member inside isOpen
      exact ⟨known, present, registered.later, rest⟩
  · intro other stored found
    rcases Dict.get?_of_insert found with ⟨rfl, rfl⟩ | ⟨_, earlier⟩
    · simpa [Nat.succ_le_iff] using lane
    · exact held.lanes other stored earlier
  · exact (Endpoint.insert_total between.connections ip connection).trans_le room
  · rintro other target ⟨address, wanted, known, member⟩ isOpen
    rcases List.mem_append.mp member with earlier | last
    · obtain ⟨stored, present, inside⟩ :=
        held.complete other target ⟨address, wanted, known, earlier⟩ isOpen
      by_cases same : other = ip
      · subst same
        exact ⟨_, Dict.get?_insert_self _ _ _, by simp [present, inside]⟩
      · exact ⟨stored, by simpa [same] using present, inside⟩
    · obtain ⟨⟨rfl, _⟩, _⟩ := by simpa using last
      obtain rfl := Option.mem_unique remote address
      exact ⟨_, Dict.get?_insert_self _ _ _, by simp⟩

end

end Sound

/-- The invariant holds after every run. -/
theorem Reaches.sound (run : Reaches sha256 localAddress identity history endpoint) :
    Sound sha256 localAddress identity history endpoint := by
  induction run with
  | start =>
      refine ⟨by simp [Endpoint.new], by simp [Endpoint.new], Nat.zero_le _, ?_⟩
      rintro ip connection ⟨_, _, _, member⟩
      cases member
  | snoc prior taken sound =>
      cases Endpoint.step_stepped taken with
      | pruned pruned silent => exact (sound.prune pruned).later silent
      | registered pruned passed room lane => exact sound.store prior pruned passed room lane
      | trusted result => exact (sound.trust _).later (by simp)

/-- Stored connections belong to the peer that is trusted now, within the
    limits. An update closes every connection of an address whose peer changed,
    and a failed one changes nothing. -/
theorem stored_connections_are_trusted (run : Reaches sha256 localAddress identity history endpoint) :
    (∀ ip stored, endpoint.connections.get? ip = some stored → stored.length ≤ 8 ∧
      ∀ connection ∈ stored, endpoint.isOpen connection = true →
        ∃ peer, endpoint.peers.get? ip = some peer ∧
          RegisteredUnder sha256 localAddress identity history ip connection peer ∧
          Certified sha256 connection peer) ∧
    Endpoint.connectionTotal endpoint.connections ≤ 4096 ∧
    (∀ peers next, endpoint.updatePeers peers = (next, .ok ()) →
      ∀ ip, endpoint.peers.get? ip ≠ next.peers.get? ip → next.connections.get? ip = none ∧
        ∀ connection, Registered history ip connection → next.isOpen connection = false) ∧
    ∀ peers next message, endpoint.updatePeers peers = (next, .error message) →
      next = endpoint := by
  have sound := run.sound
  refine ⟨fun ip stored found => ⟨sound.lanes ip stored found, sound.trusted ip stored found⟩,
    sound.total, ?_, ?_⟩
  · intro peers next updated ip changed
    rcases endpoint.updatePeers_cases peers with ⟨message, failed⟩ | ⟨trusted, succeeded⟩
    · cases failed.symm.trans updated
    · obtain rfl : endpoint.trust trusted = next :=
        congrArg Prod.fst (succeeded.symm.trans updated)
      refine ⟨?_, ?_⟩
      · cases found : (endpoint.trust trusted).connections.get? ip with
        | none => rfl
        | some kept => exact absurd (Endpoint.trust_get? found).1 changed
      · intro connection registered
        by_contra isOpen
        obtain ⟨wasOpen, unchanged⟩ := Endpoint.trust_open (Bool.not_eq_false _ ▸ isOpen)
        obtain ⟨stored, present, member⟩ := sound.complete ip connection registered wasOpen
        exact changed (unchanged ip stored present member)
  · intro peers next message failed
    rcases endpoint.updatePeers_cases peers with ⟨_, unchanged⟩ | ⟨_, succeeded⟩
    · exact congrArg Prod.fst (failed.symm.trans unchanged)
    · cases succeeded.symm.trans failed

end Trust

/-- The SHA-256 digest of the empty string. -/
def emptyDigest : Bytes :=
  [0xe3, 0xb0, 0xc4, 0x42, 0x98, 0xfc, 0x1c, 0x14, 0x9a, 0xfb, 0xf4, 0xc8, 0x99, 0x6f, 0xb9, 0x24,
    0x27, 0xae, 0x41, 0xe4, 0x64, 0x9b, 0x93, 0x4c, 0xa4, 0x95, 0x99, 0x1b, 0x78, 0x52, 0xb8, 0x55]

/-- A peer whose certificate is empty, and a connection that presents it. -/
def examplePeer : Peer := ⟨"b", ⟨10, 203, 0, 2⟩, fingerprint (fun _ => emptyDigest) [], "ib"⟩

def exampleConnection : Connection := ⟨7, some ⟨10, 203, 0, 2⟩, some [[]]⟩

theorem registered_connection_is_trusted :
    let run := feed (Endpoint.step fun _ => emptyDigest) (.new ⟨10, 203, 0, 1⟩ [])
      [.updatePeers [examplePeer], .register exampleConnection none]
    run.2.connections.get? ⟨10, 203, 0, 2⟩ = some [exampleConnection] ∧
      ∃ peer, run.2.peers.get? ⟨10, 203, 0, 2⟩ = some peer ∧
        RegisteredUnder (fun _ => emptyDigest) ⟨10, 203, 0, 1⟩ [] run.1 ⟨10, 203, 0, 2⟩
          exampleConnection peer := by
  intro run
  have stored : run.2.connections.get? ⟨10, 203, 0, 2⟩ = some [exampleConnection] := by
    decide
  refine ⟨stored, ?_⟩
  obtain ⟨_, trusted⟩ := (stored_connections_are_trusted (feed_run _ _ _)).1 _ _ stored
  obtain ⟨peer, known, registered, _⟩ :=
    trusted exampleConnection (List.mem_singleton_self _) (by decide)
  exact ⟨peer, known, registered⟩

end PortHub.Mesh.Streams
