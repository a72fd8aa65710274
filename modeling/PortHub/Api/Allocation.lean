import PortHub.Api.Address
import PortHub.Api.Input
import PortHub.Lib.Panics

/-! # Addresses of new machines

A machine gets the first free address on a walk through the hosts of a range. The
walk starts where the fingerprint of the machine's id says and comes back to the
first host behind the last. The fingerprint is the number in the first eight
bytes of a digest, which is a parameter. Sums stop the program when they overflow.
-/

namespace PortHub.Api.Network

open Panics

variable (network : Network)

def full : ApiError := .badRequest "The private address range is full"

/-- The address at an offset of the walk. -/
def host (count start offset : Nat) : Guarded Ipv4Addr := do
  let place ← add 32 start offset
  let address ← add 32 network.base (place % count)
  return .ofBits (← add 32 address 1)

/-- The loop over the offsets that remain. -/
def search (count start : Nat) (occupied : Finset (List Char)) :
    List Nat → Guarded (ApiResult (List Char))
  | [] => .ok (.error full)
  | offset :: rest => do
      let ip := (← network.host count start offset).render
      if ip ∈ occupied then search count start occupied rest else return .ok ip

/-- `(1u32 << (32 - bits)) - 2`. -/
def hostCount : Guarded Nat := do sub (1 <<< (← sub 32 network.bits) % 2 ^ 32) 2

def allocate (fingerprint : String → UInt64) (machineId : String)
    (occupied : Finset (List Char)) : Guarded (ApiResult (List Char)) := do
  let count ← network.hostCount
  let start := (fingerprint machineId).toNat % count
  network.search count start occupied (List.range count)

/-- The last address of a range. -/
def broadcast : Nat := network.base + 2 ^ (32 - network.bits) - 1

/-- An address strictly between the first and the last of the range. -/
def IsHost (ip : Ipv4Addr) : Prop := network.base < ip.toBits ∧ ip.toBits < network.broadcast

theorem hostCount_ok : network.hostCount = .ok (2 ^ (32 - network.bits) - 2) := by
  have sized := network.sized
  have shift : 2 ^ (32 - network.bits) < 2 ^ 32 := Nat.pow_lt_pow_right (by decide) (by omega)
  have large : 2 ^ 4 ≤ 2 ^ (32 - network.bits) := Nat.pow_le_pow_right (by decide) (by omega)
  unfold hostCount
  rw [sub_ok (by omega)]
  simp only [bind, Except.bind]
  rw [Nat.shiftLeft_eq, Nat.one_mul, Nat.mod_eq_of_lt shift, sub_ok (by omega)]

/-- A range ends within the addresses. -/
theorem broadcast_lt : network.broadcast < 2 ^ 32 := by
  have sized := network.sized
  have bounded := network.bounded
  have aligned := network.aligned
  have positive := Nat.two_pow_pos (32 - network.bits)
  rw [mask, Dyadic.and_mask network.bounded] at aligned
  have whole : 2 ^ 32 = 2 ^ network.bits * 2 ^ (32 - network.bits) := by
    rw [← Nat.pow_add]
    congr 1
    omega
  have below : network.base / 2 ^ (32 - network.bits) < 2 ^ network.bits :=
    Nat.div_lt_of_lt_mul (by rw [Nat.mul_comm, ← whole]; exact bounded)
  have fits := Nat.mul_le_mul_right (2 ^ (32 - network.bits)) (Nat.succ_le_of_lt below)
  rw [← whole, Nat.succ_mul, aligned] at fits
  unfold broadcast
  omega

theorem one_lt_count : 1 < 2 ^ (32 - network.bits) - 2 := by
  have sized := network.sized
  have large : 2 ^ 4 ≤ 2 ^ (32 - network.bits) := Nat.pow_le_pow_right (by decide) (by omega)
  omega

/-- The walk from a start, as numbers of the hosts. -/
theorem walk_eq_rotate {count start} :
    ((List.range count).map fun offset => (start + offset) % count) =
      (List.range count).rotate start := by
  refine List.ext_getElem (by simp) fun i _ _ => ?_
  simp [List.getElem_rotate, Nat.add_comm]

section Walk

variable {network} {start : Nat}

/-- The host of a given number. -/
def nthHost (network : Network) (n : Nat) : Ipv4Addr := .ofBits (network.base + n + 1)

theorem nthHost_toBits {n} (inside : n < 2 ^ (32 - network.bits) - 2) :
    (network.nthHost n).toBits = network.base + n + 1 := by
  have last := network.broadcast_lt
  unfold broadcast at last
  exact Ipv4Addr.toBits_ofBits (by omega)

theorem isHost_iff {ip} :
    network.IsHost ip ↔ ∃ n < 2 ^ (32 - network.bits) - 2, ip = network.nthHost n := by
  unfold IsHost
  constructor
  · rintro ⟨above, below⟩
    unfold broadcast at below
    refine ⟨ip.toBits - network.base - 1, by omega, ?_⟩
    have place : network.base + (ip.toBits - network.base - 1) + 1 = ip.toBits := by omega
    rw [nthHost, place, Ipv4Addr.ofBits_toBits]
  · rintro ⟨n, inside, rfl⟩
    rw [nthHost_toBits inside]
    unfold broadcast
    omega

/-- No sum of the walk overflows. -/
theorem host_ok (first : start < 2 ^ (32 - network.bits) - 2) {offset}
    (inside : offset < 2 ^ (32 - network.bits) - 2) :
    network.host (2 ^ (32 - network.bits) - 2) start offset =
      .ok (network.nthHost ((start + offset) % (2 ^ (32 - network.bits) - 2))) := by
  have sized := network.sized
  have last := network.broadcast_lt
  unfold broadcast at last
  have small : 2 ^ (32 - network.bits) ≤ 2 ^ 16 := Nat.pow_le_pow_right (by decide) (by omega)
  have wrapped : (start + offset) % (2 ^ (32 - network.bits) - 2) < 2 ^ (32 - network.bits) - 2 :=
    Nat.mod_lt _ (by omega)
  unfold host
  rw [add_ok (by omega)]
  simp only [bind, Except.bind]
  rw [add_ok (by omega)]
  dsimp only
  rw [add_ok (by omega)]
  rfl

/-- The hosts in the order of the walk. -/
def walk (network : Network) (start : Nat) : List Ipv4Addr :=
  ((List.range (2 ^ (32 - network.bits) - 2)).rotate start).map network.nthHost

theorem mem_walk {ip} : ip ∈ network.walk start ↔ network.IsHost ip := by
  simp only [walk, List.mem_map, List.mem_rotate, List.mem_range, isHost_iff, eq_comm]

theorem walk_nodup : (network.walk start).Nodup := by
  refine List.Nodup.map_on ?_ (List.nodup_rotate.mpr List.nodup_range)
  intro m left n right same
  rw [List.mem_rotate, List.mem_range] at left right
  have bits := congrArg Ipv4Addr.toBits same
  rw [nthHost_toBits left, nthHost_toBits right] at bits
  omega

/-- The offsets of the loop lead through the walk. -/
theorem hosts_eq_walk (first : start < 2 ^ (32 - network.bits) - 2) :
    (List.range (2 ^ (32 - network.bits) - 2)).mapM (network.host (2 ^ (32 - network.bits) - 2) start) =
      .ok (network.walk start) := by
  rw [mapM_ok fun offset inside => host_ok first (List.mem_range.mp inside), walk, ← walk_eq_rotate,
    List.map_map]
  rfl

/-- The search takes the first free address. -/
theorem search_eq_find (first : start < 2 ^ (32 - network.bits) - 2) (occupied : Finset (List Char))
    {offsets} (inside : ∀ offset ∈ offsets, offset < 2 ^ (32 - network.bits) - 2) :
    network.search (2 ^ (32 - network.bits) - 2) start occupied offsets =
      .ok (match (offsets.map fun offset =>
            network.nthHost ((start + offset) % (2 ^ (32 - network.bits) - 2))).find?
              fun ip => decide (ip.render ∉ occupied) with
        | some ip => .ok ip.render
        | none => .error full) := by
  induction offsets with
  | nil => rfl
  | cons offset rest ih =>
      rw [List.forall_mem_cons] at inside
      unfold search
      rw [host_ok first inside.1]
      simp only [bind, Except.bind, List.map_cons, List.find?_cons]
      split
      · rename_i taken
        rw [ih inside.2]
        simp [taken]
      · rename_i free
        simp [free]
        rfl

end Walk

/-- The hosts of every accepted range are walked through once each, whatever the
    fingerprint says and without overflow. A machine gets a free one, and is refused
    exactly when none is free. -/
theorem allocation_is_complete {ipv6 : List Char → Option Nat} {value : List Char}
    {network : Network} (_ : parse ipv6 value = .ok network) (fingerprint : String → UInt64)
    (machineId : String) (occupied : Finset (List Char)) :
    (∃ count walk, network.hostCount = .ok count ∧
      (List.range count).mapM (network.host count ((fingerprint machineId).toNat % count)) = .ok walk ∧
      walk.Nodup ∧ ∀ ip, ip ∈ walk ↔ network.IsHost ip) ∧
    ∃ result, network.allocate fingerprint machineId occupied = .ok result ∧
      (∀ text, result = .ok text →
        text ∉ occupied ∧ ∃ ip, network.IsHost ip ∧ text = ip.render) ∧
      ((∃ error, result = .error error) ↔ ∀ ip, network.IsHost ip → ip.render ∈ occupied) ∧
      (∀ error, result = .error error → error = full) := by
  have several := network.one_lt_count
  have counted := network.hostCount_ok
  have first : (fingerprint machineId).toNat % (2 ^ (32 - network.bits) - 2) <
      2 ^ (32 - network.bits) - 2 := Nat.mod_lt _ (by omega)
  refine ⟨⟨_, _, counted, hosts_eq_walk first, walk_nodup, fun _ => mem_walk⟩, ?_⟩
  have searched := search_eq_find first occupied fun offset inside => List.mem_range.mp inside
  have walked : ((List.range (2 ^ (32 - network.bits) - 2)).map fun offset => network.nthHost
      (((fingerprint machineId).toNat % (2 ^ (32 - network.bits) - 2) + offset) %
        (2 ^ (32 - network.bits) - 2))) =
      network.walk ((fingerprint machineId).toNat % (2 ^ (32 - network.bits) - 2)) := by
    rw [walk, ← walk_eq_rotate, List.map_map]
    rfl
  rw [walked] at searched
  refine ⟨_, by rw [allocate, counted]; exact searched, ?_⟩
  cases found : (network.walk ((fingerprint machineId).toNat % (2 ^ (32 - network.bits) - 2))).find?
      fun ip => decide (ip.render ∉ occupied) with
  | none =>
      rw [List.find?_eq_none] at found
      refine ⟨by simp, ⟨fun _ ip inside => ?_, fun _ => ⟨full, rfl⟩⟩, ?_⟩
      · simpa using found ip (mem_walk.mpr inside)
      · rintro error same
        exact (Except.error.inj same).symm
  | some ip =>
      have inside := mem_walk.mp (List.mem_of_find?_eq_some found)
      have free : ip.render ∉ occupied := by simpa using List.find?_some found
      refine ⟨?_, ⟨by simp, fun all => absurd (all ip inside) free⟩, by simp⟩
      rintro text same
      cases same
      exact ⟨free, ip, inside, rfl⟩

/-- The last host of a small range is given to a machine whose walk starts there. -/
theorem small_range_is_allocated : ∃ network,
    parse (fun _ => none) "10.203.0.16/28".toList = .ok network ∧
      ∃ text, network.allocate (fun _ => 13) "machine" ∅ = .ok (.ok text) ∧
        ∃ ip, network.IsHost ip ∧ text = ip.render := by
  have accepted : (parse (fun _ => none) "10.203.0.16/28".toList).isOk = true := by decide
  cases parsed : parse (fun _ => none) "10.203.0.16/28".toList with
  | error message =>
      rw [parsed] at accepted
      cases accepted
  | ok network =>
      obtain ⟨_, result, allocated, served, refused, _⟩ :=
        allocation_is_complete parsed (fun _ => 13) "machine" ∅
      have several := network.one_lt_count
      cases result with
      | error error =>
          have inside : network.IsHost (network.nthHost 0) := isHost_iff.mpr ⟨0, by omega, rfl⟩
          exact absurd (refused.mp ⟨error, rfl⟩ _ inside) (Finset.notMem_empty _)
      | ok text => exact ⟨network, rfl, text, allocated, (served text rfl).2⟩

end PortHub.Api.Network
