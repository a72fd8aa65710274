import PortHub.Network.Policy

/-! # What an accepted snapshot guarantees

`Snapshot.Bound` is the relation between a snapshot and the address map that
`apply` builds from it: one address for every peer, one peer for every address,
and every exit route made of bound peers. The engine keeps it as an invariant.
-/

namespace PortHub.Network

structure Snapshot.Bound (snapshot : Snapshot) (ips : Dict String Ipv4Addr) : Prop where
  address : ∀ id ip, ips.get? id = some ip ↔ ∃ peer ∈ snapshot.peers, peer.id = id ∧ peer.ip = ip
  ids : (snapshot.peers.map PeerInfo.id).Nodup
  addresses : (snapshot.peers.map PeerInfo.ip).Nodup
  identity : ∃ ip, ips.get? snapshot.self_ = some ip
  members : ∀ route ∈ snapshot.exitRoutes, ∀ id,
    id ∈ route.clients ∨ id ∈ route.routingPeers → ∃ ip, ips.get? id = some ip

variable {ips : Dict String Ipv4Addr}

/-- The peer loop binds exactly the peers it has seen, each once. -/
theorem bindPeers_ok {peers final addresses} (bound : bindPeers peers ips addresses = .ok final) :
    (∀ id ip, final.get? id = some ip ↔
      ips.get? id = some ip ∨ ∃ peer ∈ peers, peer.id = id ∧ peer.ip = ip) ∧
    (peers.map PeerInfo.id).Nodup ∧ (∀ peer ∈ peers, ips.get? peer.id = none) ∧
    (peers.map PeerInfo.ip).Nodup ∧ (∀ peer ∈ peers, peer.ip ∉ addresses) := by
  induction peers generalizing ips addresses with
  | nil =>
      obtain rfl : ips = final := by simpa [bindPeers] using bound
      simp
  | cons peer rest ih =>
      simp only [bindPeers, bind_eq_ok, ensure_eq_ok, Bool.and_eq_true, Bool.not_eq_true'] at bound
      obtain ⟨_, ⟨⟨⟨_, _⟩, newAddress⟩, newId⟩, tail⟩ := bound
      have unbound : ips.get? peer.id = none := by simpa [Dict.contains] using newId
      obtain ⟨iff, idsDistinct, idsFresh, addressesDistinct, addressesFresh⟩ := ih tail
      have otherId : ∀ other ∈ rest, other.id ≠ peer.id := by
        intro other member same
        have := idsFresh other member
        rw [same, Dict.get?_insert_self] at this
        cases this
      have otherAddress : ∀ other ∈ rest, other.ip ≠ peer.ip := by
        intro other member same
        exact addressesFresh other member (by simp [same])
      refine ⟨?_, ?_, ?_, ?_, ?_⟩
      · intro id ip
        rw [iff]
        by_cases same : id = peer.id
        · subst same
          simp [unbound, eq_comm]
        · simp [same, Ne.symm same]
      · simp only [List.map_cons, List.nodup_cons, List.mem_map, not_exists, not_and]
        exact ⟨otherId, idsDistinct⟩
      · intro other member
        rcases List.mem_cons.mp member with rfl | member
        · exact unbound
        · simpa [otherId other member] using idsFresh other member
      · simp only [List.map_cons, List.nodup_cons, List.mem_map, not_exists, not_and]
        exact ⟨otherAddress, addressesDistinct⟩
      · intro other member
        rcases List.mem_cons.mp member with rfl | member
        · simpa using newAddress
        · exact fun known => addressesFresh other member (List.mem_cons_of_mem _ known)

theorem joinMembers_ok {message members joined final}
    (result : joinMembers ips message members joined = .ok final) :
    ∀ id ∈ members, ips.contains id = true := by
  induction members generalizing joined with
  | nil => simp
  | cons id rest ih =>
      simp only [joinMembers, bind_eq_ok, ensure_eq_ok, Bool.and_eq_true] at result
      obtain ⟨_, ⟨known, _⟩, tail⟩ := result
      intro other member
      rcases List.mem_cons.mp member with rfl | member
      · exact known
      · exact ih tail other member

theorem checkRoute_ok {sets final route} (result : checkRoute ips sets route = .ok final) :
    ∀ id, id ∈ route.clients ∨ id ∈ route.routingPeers → ips.contains id = true := by
  simp only [checkRoute, bind_eq_ok] at result
  obtain ⟨_, _, _, peers, _, clients, _⟩ := result
  rintro id (member | member)
  · exact joinMembers_ok clients id member
  · exact joinMembers_ok peers id member

theorem checkRoutes_ok {routes sets final} (result : checkRoutes ips routes sets = .ok final) :
    ∀ route ∈ routes, ∀ id, id ∈ route.clients ∨ id ∈ route.routingPeers →
      ips.contains id = true := by
  induction routes generalizing sets with
  | nil => simp
  | cons route rest ih =>
      simp only [checkRoutes, bind_eq_ok] at result
      obtain ⟨next, checked, tail⟩ := result
      intro other member
      rcases List.mem_cons.mp member with rfl | member
      · exact checkRoute_ok checked
      · exact ih tail other member

/-- An accepted snapshot is bound to its address map, does not go back, and
    keeps the workspace and the local identity. -/
theorem Engine.validate_ok {engine : Engine} {snapshot utc remaining}
    (accepted : engine.validate snapshot utc = .ok (remaining, ips)) :
    snapshot.Bound ips ∧ ∀ old, engine.snapshot = some old →
      snapshot.workspace = old.workspace ∧ snapshot.self_ = old.self_ ∧
        old.revision ≤ snapshot.revision := by
  simp only [validate, bind_eq_ok, ensure_eq_ok, pure_eq_ok, Prod.mk.injEq] at accepted
  obtain ⟨_, _, _, _, _, identity, _, _, bindings, peers, _, own, _, _, sets, routes, _, _, _, _,
    rfl, rfl⟩ := accepted
  obtain ⟨address, ids, _, addresses, _⟩ := bindPeers_ok peers
  refine ⟨⟨?_, ids, addresses, Dict.contains_iff.mp own, ?_⟩, ?_⟩
  · simpa using address
  · intro route member id inside
    exact Dict.contains_iff.mp (checkRoutes_ok routes route member id inside)
  · intro old current
    simpa [current, and_assoc] using identity

namespace Snapshot.Bound

variable {snapshot : Snapshot} {ips : Dict String Ipv4Addr}

theorem peer_of_id (bound : snapshot.Bound ips) {peer other} (first : peer ∈ snapshot.peers)
    (second : other ∈ snapshot.peers) (same : peer.id = other.id) :
    peer = other :=
  List.inj_on_of_nodup_map bound.ids first second same

theorem peer_of_address (bound : snapshot.Bound ips) {peer other} (first : peer ∈ snapshot.peers)
    (second : other ∈ snapshot.peers) (same : peer.ip = other.ip) :
    peer = other :=
  List.inj_on_of_nodup_map bound.addresses first second same

end Snapshot.Bound

end PortHub.Network
