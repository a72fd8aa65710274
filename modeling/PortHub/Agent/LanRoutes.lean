import PortHub.Agent.ExitRoutes
import PortHub.Lib.Sorted

/-! # LAN networks behind exits

Exits advertise private networks. A network is an aligned block that lies inside
one RFC 1918 range; its text reads back as the network. For a private target the
exit with the most specific network is chosen, and the host's exit routes cover
every target for which that finds one.
-/

namespace PortHub

/-- The RFC 1918 ranges as intervals of numbers. -/
theorem Ipv4Addr.isPrivate_iff {ip : Ipv4Addr} : ip.isPrivate = true ↔
    (10 * 2 ^ 24 ≤ ip.toBits ∧ ip.toBits < 11 * 2 ^ 24) ∨
    (172 * 2 ^ 24 + 16 * 2 ^ 16 ≤ ip.toBits ∧ ip.toBits < 172 * 2 ^ 24 + 32 * 2 ^ 16) ∨
    (192 * 2 ^ 24 + 168 * 2 ^ 16 ≤ ip.toBits ∧ ip.toBits < 192 * 2 ^ 24 + 169 * 2 ^ 16) := by
  obtain ⟨a, b, c, d⟩ := ip
  have := a.toNat_lt
  have := b.toNat_lt
  have := c.toNat_lt
  have := d.toNat_lt
  simp only [isPrivate, toBits, Bool.or_eq_true, Bool.and_eq_true, beq_iff_eq, decide_eq_true_eq,
    UInt8.le_iff_toNat_le, ← UInt8.toNat_inj, UInt8.reduceToNat]
  omega

namespace Agent.ExitRoutes

namespace Network

variable {ip address : Ipv4Addr} {length : Nat} {network : Network}

/-- Addresses of the block of an order around a number. -/
theorem private_block {k base} (order : k ≤ 31) (aligned : base / 2 ^ k * 2 ^ k = base)
    (bounded : base + 2 ^ k ≤ 2 ^ 32) (first : (Ipv4Addr.ofBits base).isPrivate = true)
    (last : (Ipv4Addr.ofBits (base + (2 ^ k - 1))).isPrivate = true) (lower : base ≤ ip.toBits)
    (upper : ip.toBits < base + 2 ^ k) : ip.isPrivate = true := by
  have positive : 0 < 2 ^ k := Nat.two_pow_pos k
  have half : 2 ^ k ≤ 2 ^ 31 := Nat.pow_le_pow_right (by decide) order
  rw [Ipv4Addr.isPrivate_iff, Ipv4Addr.toBits_ofBits (by omega)] at first last
  rw [Ipv4Addr.isPrivate_iff]
  -- Ends in two ranges: only a block of order 29 or more reaches from the second to the third.
  have middle : 172 * 2 ^ 24 + 16 * 2 ^ 16 ≤ base → base < 172 * 2 ^ 24 + 32 * 2 ^ 16 →
      base + (2 ^ k - 1) < 192 * 2 ^ 24 + 168 * 2 ^ 16 := by
    by_contra beyond
    have large : 29 ≤ k := by
      by_contra small
      have short : 2 ^ k ≤ 2 ^ 28 := Nat.pow_le_pow_right (by decide) (by omega)
      omega
    have multiple : 2 ^ 29 ∣ base := by
      rw [← aligned]
      exact (Nat.pow_dvd_pow 2 large).mul_left _
    omega
  omega

/-- The bits that the mask of an order leaves out. -/
theorem host_bits : ∀ k ≤ 31, 2 ^ 32 - 1 - (2 ^ 32 - 1) <<< k % 2 ^ 32 = 2 ^ k - 1 := by
  decide

/-- The order of the block of a network. -/
def order (network : Network) : Nat := 32 - network.length

/-- The first address of a network as a number. -/
def base (network : Network) : Nat := network.address.toBits

theorem networkAddress_iff {base} :
    networkAddress address length = some base ↔ 1 ≤ length ∧ length ≤ 32 ∧
      base.toBits = address.toBits / 2 ^ (32 - length) * 2 ^ (32 - length) ∧
      base.isPrivate = true ∧
      (Ipv4Addr.ofBits (base.toBits + (2 ^ (32 - length) - 1))).isPrivate = true := by
  have reduced : address.toBits / 2 ^ (32 - length) * 2 ^ (32 - length) < 2 ^ 32 :=
    (Nat.div_mul_le_self _ _).trans_lt address.toBits_lt
  unfold networkAddress
  by_cases sized : 1 ≤ length ∧ length ≤ 32
  · have low : 2 ^ (32 - length) - 1 < 2 ^ (32 - length) :=
      Nat.sub_lt (Nat.two_pow_pos _) (by decide)
    have top : address.toBits / 2 ^ (32 - length) * 2 ^ (32 - length) ||| (2 ^ (32 - length) - 1) =
        address.toBits / 2 ^ (32 - length) * 2 ^ (32 - length) + (2 ^ (32 - length) - 1) := by
      rw [Nat.mul_comm, Nat.two_pow_add_eq_or_of_lt low]
    rw [if_pos sized]
    simp only [Dyadic.and_mask address.toBits_lt, host_bits _ (show 32 - length ≤ 31 by omega),
      Ipv4Addr.toBits_ofBits reduced, top]
    constructor
    · intro found
      split at found
      · rename_i reserved
        cases found
        obtain ⟨first, last⟩ := Bool.and_eq_true_iff.mp reserved
        rw [Ipv4Addr.toBits_ofBits reduced]
        exact ⟨sized.1, sized.2, rfl, first, last⟩
      · cases found
    · rintro ⟨_, _, same, first, last⟩
      have own : Ipv4Addr.ofBits (address.toBits / 2 ^ (32 - length) * 2 ^ (32 - length)) = base := by
        rw [← same, Ipv4Addr.ofBits_toBits]
      rw [own, ← same, first, last]
      rfl
  · rw [if_neg sized]
    constructor
    · nofun
    · rintro ⟨lower, upper, _⟩
      exact absurd ⟨lower, upper⟩ sized

/-- What it is to be a network: an aligned block with private ends. -/
theorem shape (network : Network) : network.order ≤ 31 ∧
    network.base / 2 ^ network.order * 2 ^ network.order = network.base ∧
    network.base + 2 ^ network.order ≤ 2 ^ 32 ∧ (Ipv4Addr.ofBits network.base).isPrivate = true ∧
    (Ipv4Addr.ofBits (network.base + (2 ^ network.order - 1))).isPrivate = true := by
  obtain ⟨lower, _, aligned, first, last⟩ := networkAddress_iff.mp network.canonical
  have small := network.address.toBits_lt
  have bounded : network.base + 2 ^ network.order ≤ 2 ^ 32 := by
    have fits : 2 ^ network.order ∣ 2 ^ 32 := Nat.pow_dvd_pow 2 (Nat.sub_le 32 network.length)
    have multiple : 2 ^ network.order ∣ network.base := ⟨_, aligned.trans (Nat.mul_comm _ _)⟩
    exact Nat.le_of_lt_add_of_dvd (Nat.add_lt_add_right small _) (Nat.dvd_add_self_right.mpr multiple)
      fits
  refine ⟨by unfold order; omega, aligned.symm, bounded, ?_, last⟩
  rw [base, Ipv4Addr.ofBits_toBits]
  exact first

/-- `u32::from(address) >> (32 - prefix)` agrees with that of the network. -/
def contains (network : Network) (address : Ipv4Addr) : Bool :=
  address.toBits >>> (32 - network.length) == network.address.toBits >>> (32 - network.length)

def overlaps (network other : Network) : Bool :=
  network.contains other.address || other.contains network.address

theorem contains_block :
    network.contains ip = true ↔ Dyadic.Block network.order network.base ip.toBits := by
  simp only [contains, beq_iff_eq, Nat.shiftRight_eq_div_pow]
  rfl

/-- A network contains the addresses of its block and no others. -/
theorem contains_iff : network.contains ip = true ↔
    network.base ≤ ip.toBits ∧ ip.toBits < network.base + 2 ^ network.order := by
  have positive : 0 < 2 ^ network.order := Nat.two_pow_pos _
  have aligned := network.shape.2.1
  rw [contains_block, Dyadic.block_iff aligned]
  constructor
  · intro same
    have whole := Nat.div_add_mod ip.toBits (2 ^ network.order)
    have rest := Nat.mod_lt ip.toBits positive
    rw [Nat.mul_comm] at whole
    omega
  · rintro ⟨lower, upper⟩
    have quotient : ip.toBits / 2 ^ network.order = network.base / 2 ^ network.order := by
      apply Nat.div_eq_of_lt_le
      · rwa [aligned]
      · rwa [Nat.add_mul, aligned, Nat.one_mul]
    rw [quotient, aligned]

/-- Every address of a network is private, though only its ends were checked. -/
theorem isPrivate_of_contains (inside : network.contains ip = true) : ip.isPrivate = true := by
  obtain ⟨order, aligned, bounded, first, last⟩ := network.shape
  obtain ⟨lower, upper⟩ := contains_iff.mp inside
  exact private_block order aligned bounded first last lower upper

/-- Networks overlap when they share an address, and then one includes the other. -/
theorem overlaps_iff {other} : network.overlaps other = true ↔
    ∃ ip, network.contains ip = true ∧ other.contains ip = true := by
  simp only [overlaps, Bool.or_eq_true, contains_block]
  constructor
  · rintro (inside | inside)
    · exact ⟨other.address, inside, Dyadic.block_self _ _⟩
    · exact ⟨network.address, Dyadic.block_self _ _, inside⟩
  · rintro ⟨ip, left, right⟩
    exact Dyadic.meet_iff.mp ⟨ip.toBits, left, right⟩

theorem overlaps_iff_includes {other} : network.overlaps other = true ↔
    (∀ ip, other.contains ip = true → network.contains ip = true) ∨
      ∀ ip, network.contains ip = true → other.contains ip = true := by
  constructor
  · rw [overlaps_iff]
    rintro ⟨shared, left, right⟩
    simp only [contains_block] at left right ⊢
    rcases le_total network.order other.order with smaller | larger
    · refine .inr fun ip inside => ?_
      exact right.trans ((left.symm.trans inside).widen smaller)
    · refine .inl fun ip inside => ?_
      exact left.trans ((right.symm.trans inside).widen larger)
  · simp only [overlaps, Bool.or_eq_true]
    rintro (includes | includes)
    · exact .inl (includes other.address (contains_block.mpr (Dyadic.block_self _ _)))
    · exact .inr (includes network.address (contains_block.mpr (Dyadic.block_self _ _)))

/-! ### Text -/

/-- The digit loop of `str::parse::<u8>`. -/
def readU8 : Nat → List Char → Result Nat
  | value, [] => .ok value
  | value, c :: rest =>
      if !c.isDigit then .error "invalid digit found in string"
      else if 255 < value * 10 + (c.toNat - 48) then
        .error "number too large to fit in target type"
      else readU8 (value * 10 + (c.toNat - 48)) rest

/-- `str::parse::<u8>`, which allows a leading plus sign. -/
def parseU8 (text : List Char) : Result Nat :=
  if text.isEmpty then .error "cannot parse integer from empty string"
  else if text = ['+'] then .error "invalid digit found in string"
  else readU8 0 (if text.head? = some '+' then text.tail else text)

/-- `Network::from_address` with its messages. -/
def tryFromAddress (address : Ipv4Addr) (length : Nat) : Result Network :=
  if ¬(1 ≤ length ∧ length ≤ 32) then .error "invalid LAN prefix length"
  else
    match fromAddress address length with
    | none => .error "LAN advertisements must stay inside a private IPv4 range"
    | some network => .ok network

/-- `Network::from_str`. -/
def parse (value : List Char) : Result Network :=
  if 18 < Text.byteLen value then .error "LAN prefix exceeds size limit"
  else
    match Text.splitOnce '/' value with
    | none => .error "LAN prefix requires CIDR notation"
    | some (address, suffix) =>
        match Ipv4Addr.parse address with
        | none => .error "invalid IPv4 address syntax"
        | some address =>
            match parseU8 suffix with
            | .error message => .error message
            | .ok length => do
                let network ← tryFromAddress address length
                ensure (network.address == address) "LAN prefix must use its network address"
                return network

/-- `Display`. -/
def render (network : Network) : List Char :=
  network.address.render ++ '/' :: Decimal.render network.length

theorem parseU8_render : ∀ length ≤ 32, parseU8 (Decimal.render length) = .ok length := by
  decide

theorem tryFromAddress_ok :
    tryFromAddress address length = .ok network ↔ fromAddress address length = some network := by
  unfold tryFromAddress
  split
  · rename_i unsized
    have nothing : fromAddress address length = none := by
      unfold fromAddress
      split
      · rfl
      · rename_i base found
        obtain ⟨lower, upper, _⟩ := networkAddress_iff.mp found
        exact absurd ⟨lower, upper⟩ unsized
    simp [nothing]
  · cases fromAddress address length <;> simp

theorem fromAddress_iff :
    fromAddress address length = some network ↔
      networkAddress address length = some network.address ∧ network.length = length := by
  unfold fromAddress
  split
  · rename_i absent
    simp [absent]
  · rename_i base found
    constructor
    · intro built
      cases built
      exact ⟨found, rfl⟩
    · rintro ⟨same, rfl⟩
      obtain rfl := Option.mem_unique found same
      rfl

theorem render_length (ip : Ipv4Addr) : ip.render.length ≤ 15 := by
  have each (n : UInt8) : (Decimal.render n.toNat).length ≤ 3 :=
    Decimal.render_length_le (by decide) (show n.toNat < 10 ^ 3 from lt_trans n.toNat_lt (by decide))
  have a := each ip.a
  have b := each ip.b
  have c := each ip.c
  have d := each ip.d
  simp only [Ipv4Addr.render, List.intercalate, List.intersperse, List.flatten_cons,
    List.flatten_nil, List.length_append, List.length_singleton, List.length_nil]
  omega

theorem byteLen_ascii {text} (ascii : ∀ c ∈ text, c.isDigit = true ∨ c = '.' ∨ c = '/') :
    Text.byteLen text = text.length := by
  have one : ∀ c ∈ text, c.utf8Size = 1 := by
    intro c member
    rcases ascii c member with digit | rfl | rfl
    · have bound : c.val ≤ 57 := by
        simp only [Char.isDigit, Bool.and_eq_true, decide_eq_true_eq] at digit
        exact digit.2
      rw [Char.utf8Size_eq_one_iff]
      exact UInt32.le_trans bound (by decide)
    · rfl
    · rfl
  unfold Text.byteLen
  rw [List.map_congr_left one]
  simp

/-- The text of a network reads back as the network. -/
theorem parse_render (network : Network) : parse network.render = .ok network := by
  have sized := network.length_le
  have clear : '/' ∉ network.address.render := by
    intro member
    rcases Ipv4Addr.mem_render member with digit | dot
    · cases digit
    · cases dot
  have small : ¬ 18 < Text.byteLen network.render := by
    have address := render_length network.address
    have suffix := Decimal.render_length_le (k := 2) (by decide) (show network.length < 10 ^ 2 by omega)
    rw [byteLen_ascii]
    · simp only [render, List.length_append, List.length_cons]
      omega
    · intro c member
      rcases List.mem_append.mp member with front | back
      · rcases Ipv4Addr.mem_render front with digit | dot
        · exact .inl digit
        · exact .inr (.inl dot)
      · rcases List.mem_cons.mp back with slash | digit
        · exact .inr (.inr slash)
        · exact .inl (Decimal.render_isDigit digit)
  have built := tryFromAddress_ok.mpr (fromAddress_self network)
  unfold parse
  rw [if_neg small, render, Text.splitOnce_append clear]
  simp only [Ipv4Addr.parse_render, parseU8_render _ sized, bind_eq_ok, ensure_eq_ok, pure_eq_ok]
  exact ⟨network, built, (), by simp, rfl⟩

/-- What is read has no bits behind its prefix. -/
theorem parse_ok {text} (read : parse text = .ok network) :
    ∃ address suffix, Text.splitOnce '/' text = some (address, suffix) ∧
      Ipv4Addr.parse address = some network.address ∧ parseU8 suffix = .ok network.length := by
  unfold parse at read
  split at read
  · cases read
  · split at read
    · cases read
    · rename_i address suffix parts
      split at read
      · cases read
      · rename_i ip parsed
        split at read
        · cases read
        · rename_i length sized
          simp only [bind_eq_ok, ensure_eq_ok, pure_eq_ok, beq_iff_eq] at read
          obtain ⟨built, found, _, same, rfl⟩ := read
          obtain ⟨_, rfl⟩ := fromAddress_iff.mp (tryFromAddress_ok.mp found)
          exact ⟨address, suffix, parts, same ▸ parsed, sized⟩

theorem block_of_fromAddress (built : fromAddress address length = some network) (ip : Ipv4Addr) :
    network.contains ip = true ↔
      ip.toBits / 2 ^ (32 - length) = address.toBits / 2 ^ (32 - length) := by
  have positive : 0 < 2 ^ (32 - length) := Nat.two_pow_pos _
  obtain ⟨found, rfl⟩ := fromAddress_iff.mp built
  obtain ⟨_, _, same, _⟩ := networkAddress_iff.mp found
  simp only [contains, beq_iff_eq, Nat.shiftRight_eq_div_pow, same, Nat.mul_div_cancel _ positive]

end Network

/-- Every address in the block of an accepted network is private. A network
    contains exactly the addresses of its block, overlapping is sharing an address
    and is inclusion one way or the other. The text of a network reads back, and no
    text with bits behind its prefix is read. -/
theorem networks_are_private_blocks :
    (∀ address length network, Network.tryFromAddress address length = .ok network →
      ∀ ip : Ipv4Addr, ip.toBits / 2 ^ (32 - length) = address.toBits / 2 ^ (32 - length) →
        ip.isPrivate = true) ∧
    (∀ (network : Network) ip, network.contains ip = true ↔
      network.address.toBits ≤ ip.toBits ∧
        ip.toBits < network.address.toBits + 2 ^ (32 - network.length)) ∧
    (∀ network other : Network, (network.overlaps other = true ↔
      ∃ ip, network.contains ip = true ∧ other.contains ip = true) ∧
      (network.overlaps other = true ↔
        (∀ ip, other.contains ip = true → network.contains ip = true) ∨
          ∀ ip, network.contains ip = true → other.contains ip = true)) ∧
    (∀ network : Network, Network.parse network.render = .ok network) ∧
    ∀ text address suffix ip length, Text.splitOnce '/' text = some (address, suffix) →
      Ipv4Addr.parse address = some ip → Network.parseU8 suffix = .ok length →
      ip.toBits % 2 ^ (32 - length) ≠ 0 → ∃ message, Network.parse text = .error message := by
  refine ⟨?_, fun network ip => Network.contains_iff,
    fun network other => ⟨Network.overlaps_iff, Network.overlaps_iff_includes⟩,
    Network.parse_render, ?_⟩
  · intro address length network accepted ip same
    have built := Network.tryFromAddress_ok.mp accepted
    exact Network.isPrivate_of_contains ((Network.block_of_fromAddress built ip).mpr same)
  · intro text address suffix ip length parts parsed sized hosts
    cases read : Network.parse text with
    | error message => exact ⟨message, rfl⟩
    | ok network =>
        obtain ⟨head, tail, found, own, bits⟩ := Network.parse_ok read
        obtain ⟨rfl, rfl⟩ := Prod.mk.inj (Option.mem_unique parts found)
        obtain rfl := Option.mem_unique parsed own
        obtain rfl := Except.ok.inj (sized.symm.trans bits)
        have aligned := network.shape.2.1
        exact absurd (Nat.mod_eq_zero_of_dvd ⟨_, (aligned.symm.trans (Nat.mul_comm _ _))⟩) hosts

/-- A host address with its prefix length is not a network. -/
theorem host_address_is_refused :
    ∃ message, Network.parse "192.168.0.1/24".toList = .error message :=
  networks_are_private_blocks.2.2.2.2 _ "192.168.0.1".toList "24".toList ⟨192, 168, 0, 1⟩ 24
    (by decide) (by decide) (by decide) (by decide)

/-! ## Choosing an exit by its networks -/

/-- The longest advertised prefix that contains the target. -/
def longestPrefix (target : Ipv4Addr) (networks : List Network) : Option Nat :=
  ((networks.filter fun network => network.contains target).map Network.length).max?

structure Selecting where
  chosen : Option String
  longest : Nat
  single : Option String
  /-- An `i32`: a policy has at most 4096 routing peers. -/
  count : Nat

def selectStep (target : Ipv4Addr) (state : Selecting) (entry : String × List Network) : Selecting :=
  let state := { state with count := state.count + 1, single := some entry.1 }
  match longestPrefix target entry.2 with
  | none => state
  | some length =>
      if state.chosen.isNone || decide (state.longest < length) then
        { state with chosen := some entry.1, longest := length }
      else state

def select (target : Ipv4Addr) (peers : List (String × List Network)) (fallback : Bool) :
    Option String :=
  let final := peers.foldl (selectStep target) ⟨none, 0, none, 0⟩
  final.chosen.or (if fallback && final.count == 1 && target.isPrivate then final.single else none)

def choose (target : Ipv4Addr) (peers : List (String × List Network)) : Option String :=
  select target peers false

def chooseWithSingleFallback (target : Ipv4Addr) (peers : List (String × List Network)) :
    Option String :=
  select target peers true

/-- The three private ranges, which `expect` reads from their text. -/
def wholeRanges : List Network :=
  ["10.0.0.0/8", "172.16.0.0/12", "192.168.0.0/16"].filterMap fun text =>
    (Network.parse text.toList).toOption

/-- `exit_plan::lan_networks`. -/
def lanNetworks (peers : List (String × List Network)) (available : String → Bool) : List Network :=
  if peers.length == 1 || (peers.filter fun entry => available entry.1).length == 1 then wholeRanges
  else Sorted.arrange (peers.flatMap Prod.snd)

variable {target : Ipv4Addr} {peers : List (String × List Network)} {id : String}

theorem longestPrefix_eq_none {networks} :
    longestPrefix target networks = none ↔
      ∀ network ∈ networks, network.contains target = false := by
  simp [longestPrefix, List.filter_eq_nil_iff]

theorem longestPrefix_eq_some {networks length} :
    longestPrefix target networks = some length ↔
      (∃ network ∈ networks, network.contains target = true ∧ network.length = length) ∧
      ∀ network ∈ networks, network.contains target = true → network.length ≤ length := by
  simp only [longestPrefix, List.max?_eq_some_iff, List.mem_map, List.mem_filter, and_assoc,
    forall_exists_index, and_imp]
  refine and_congr_right fun _ => ⟨fun bound network member inside => ?_, ?_⟩
  · exact bound network.length network member inside rfl
  · rintro bound _ network member inside rfl
    exact bound network member inside

/-- The peer at a place advertises the target with a longest prefix, and no
    earlier peer does. -/
def Leads (target : Ipv4Addr) (peers : List (String × List Network)) (i : Nat) (id : String)
    (length : Nat) : Prop :=
  ∃ networks, peers[i]? = some (id, networks) ∧ longestPrefix target networks = some length ∧
    ∀ (j : Nat) (entry : String × List Network), peers[j]? = some entry →
      ∀ other, longestPrefix target entry.2 = some other → other ≤ length ∧ (j < i → other < length)

/-- What the loop knows about the peers it has seen. -/
structure Surveyed (target : Ipv4Addr) (seen : List (String × List Network)) (state : Selecting) :
    Prop where
  unmatched : state.chosen = none → ∀ entry ∈ seen, longestPrefix target entry.2 = none
  leader : ∀ id, state.chosen = some id → ∃ i, Leads target seen i id state.longest
  count : state.count = seen.length
  single : state.single = seen.getLast?.map Prod.fst

theorem Leads.snoc {target seen i length id} (leads : Leads target seen i id length)
    {entry : String × List Network}
    (behind : ∀ other, longestPrefix target entry.2 = some other → other ≤ length) :
    Leads target (seen ++ [entry]) i id length := by
  obtain ⟨networks, found, longest, best⟩ := leads
  have inside : i < seen.length := (List.getElem?_eq_some_iff.mp found).1
  refine ⟨networks, by rw [List.getElem?_append_left inside, found], longest, ?_⟩
  intro j other place
  rw [List.getElem?_append] at place
  split at place
  · exact best j other place
  · intro length found
    have last := List.mem_of_getElem? place
    obtain rfl := List.mem_singleton.mp last
    exact ⟨behind length found, by omega⟩

theorem Surveyed.step {target seen state} (surveyed : Surveyed target seen state)
    (entry : String × List Network) :
    Surveyed target (seen ++ [entry]) (selectStep target state entry) := by
  have counted : state.count + 1 = (seen ++ [entry]).length := by simp [surveyed.count]
  have last : some entry.1 = (seen ++ [entry]).getLast?.map Prod.fst := by simp
  unfold selectStep
  dsimp only
  split
  · rename_i absent
    refine ⟨?_, ?_, counted, last⟩
    · intro unchosen other member
      rcases Runs.mem_snoc.mp member with old | new
      · exact surveyed.unmatched unchosen other old
      · rwa [new]
    · intro id chosen
      obtain ⟨i, leads⟩ := surveyed.leader id chosen
      exact ⟨i, leads.snoc (by simp [absent])⟩
  · rename_i length present
    split
    · rename_i better
      refine ⟨by simp, ?_, counted, last⟩
      intro id chosen
      cases chosen
      -- The peers before this one have no network, or all have a shorter one.
      have ahead : ∀ other ∈ seen, ∀ found, longestPrefix target other.2 = some found →
          found < length := by
        intro other member found advertised
        cases first : state.chosen with
        | none => simp [surveyed.unmatched first other member] at advertised
        | some id =>
            obtain ⟨i, networks, _, _, best⟩ := surveyed.leader id first
            obtain ⟨j, place⟩ := List.mem_iff_getElem?.mp member
            have bound := (best j other place found advertised).1
            simp only [first, Option.isNone_some, Bool.false_or, decide_eq_true_eq] at better
            omega
      refine ⟨seen.length, entry.2, by simp, present, ?_⟩
      intro j other place found advertised
      rcases Runs.mem_snoc.mp (List.mem_of_getElem? place) with old | rfl
      · have shorter := ahead other old found advertised
        exact ⟨shorter.le, fun _ => shorter⟩
      · obtain rfl := Option.mem_unique present advertised
        have bound := (List.getElem?_eq_some_iff.mp place).1
        refine ⟨le_rfl, fun early => ?_⟩
        rw [List.getElem?_append_left early] at place
        exact ahead other (List.mem_of_getElem? place) length present
    · rename_i worse
      simp only [Bool.or_eq_true, Option.isNone_iff_eq_none, decide_eq_true_eq, not_or] at worse
      refine ⟨fun unchosen => absurd unchosen worse.1, ?_, counted, last⟩
      intro id chosen
      obtain ⟨i, leads⟩ := surveyed.leader id chosen
      refine ⟨i, leads.snoc ?_⟩
      intro other advertised
      obtain rfl := Option.mem_unique present advertised
      exact Nat.le_of_not_lt worse.2

theorem surveyed_foldl (target : Ipv4Addr) (peers : List (String × List Network)) :
    Surveyed target peers (peers.foldl (selectStep target) ⟨none, 0, none, 0⟩) := by
  induction peers using List.reverseRecOn with
  | nil => exact ⟨by simp, by simp, rfl, rfl⟩
  | append_singleton seen entry ih =>
      rw [List.foldl_append]
      exact ih.step entry

theorem Leads.unique {i j other length size} (left : Leads target peers i id length)
    (right : Leads target peers j other size) :
    id = other := by
  obtain ⟨networks, found, longest, best⟩ := left
  obtain ⟨others, place, largest, most⟩ := right
  have upper := best j _ place size largest
  have lower := most i _ found length longest
  have same : i = j := by omega
  subst same
  exact (Prod.mk.inj (Option.mem_unique found place)).1

theorem choose_eq :
    choose target peers = (peers.foldl (selectStep target) ⟨none, 0, none, 0⟩).chosen := by
  simp [choose, select]

theorem choose_eq_some :
    choose target peers = some id ↔ ∃ i length, Leads target peers i id length := by
  have surveyed := surveyed_foldl target peers
  rw [choose_eq]
  constructor
  · intro chosen
    obtain ⟨i, leads⟩ := surveyed.leader id chosen
    exact ⟨i, _, leads⟩
  · rintro ⟨i, length, leads⟩
    cases chosen : (peers.foldl (selectStep target) ⟨none, 0, none, 0⟩).chosen with
    | none =>
        obtain ⟨networks, found, longest, _⟩ := leads
        have absent := surveyed.unmatched chosen _ (List.mem_of_getElem? found)
        cases longest.symm.trans absent
    | some other =>
        obtain ⟨j, leading⟩ := surveyed.leader other chosen
        rw [leads.unique leading]

theorem choose_eq_none :
    choose target peers = none ↔ ∀ entry ∈ peers, longestPrefix target entry.2 = none := by
  constructor
  · intro unchosen
    exact (surveyed_foldl target peers).unmatched (choose_eq ▸ unchosen)
  · intro absent
    cases chosen : choose target peers with
    | none => rfl
    | some id =>
        obtain ⟨i, length, networks, found, longest, _⟩ := choose_eq_some.mp chosen
        rw [absent _ (List.mem_of_getElem? found)] at longest
        cases longest

theorem chooseWithSingleFallback_eq (target : Ipv4Addr) (peers : List (String × List Network)) :
    chooseWithSingleFallback target peers =
      if peers.length = 1 ∧ target.isPrivate = true then
        (choose target peers).or (peers.getLast?.map Prod.fst)
      else choose target peers := by
  have surveyed := surveyed_foldl target peers
  rw [choose_eq, chooseWithSingleFallback, select]
  simp only [surveyed.count, surveyed.single, Bool.true_and, Bool.and_eq_true, beq_iff_eq]
  split
  · rfl
  · simp

/-- The whole ranges leave no private address out. -/
theorem wholeRanges_cover (reserved : target.isPrivate = true) :
    ∃ network ∈ wholeRanges, network.contains target = true := by
  have listed : (∃ network ∈ wholeRanges, network.base = 10 * 2 ^ 24 ∧ network.order = 24) ∧
      (∃ network ∈ wholeRanges, network.base = 172 * 2 ^ 24 + 16 * 2 ^ 16 ∧ network.order = 20) ∧
      ∃ network ∈ wholeRanges, network.base = 192 * 2 ^ 24 + 168 * 2 ^ 16 ∧ network.order = 16 := by
    decide
  obtain ⟨⟨ten, inTen, tenBase, tenOrder⟩, ⟨mid, inMid, midBase, midOrder⟩,
    ⟨low, inLow, lowBase, lowOrder⟩⟩ := listed
  rcases Ipv4Addr.isPrivate_iff.mp reserved with inside | inside | inside
  · refine ⟨ten, inTen, Network.contains_iff.mpr ?_⟩
    rw [tenBase, tenOrder]
    omega
  · refine ⟨mid, inMid, Network.contains_iff.mpr ?_⟩
    rw [midBase, midOrder]
    omega
  · refine ⟨low, inLow, Network.contains_iff.mpr ?_⟩
    rw [lowBase, lowOrder]
    omega

theorem lanNetworks_cover {available : String → Bool}
    (chosen : chooseWithSingleFallback target (peers.filter fun entry => available entry.1) = some id)
    (reserved : target.isPrivate = true) :
    ∃ network ∈ lanNetworks peers available, network.contains target = true := by
  unfold lanNetworks
  split
  · exact wholeRanges_cover reserved
  · rename_i several
    simp only [Bool.or_eq_true, beq_iff_eq, not_or] at several
    rw [chooseWithSingleFallback_eq, if_neg (fun only => several.2 only.1)] at chosen
    obtain ⟨i, length, networks, found, longest, _⟩ := choose_eq_some.mp chosen
    obtain ⟨network, member, inside, _⟩ := (longestPrefix_eq_some.mp longest).1
    have listed : (id, networks) ∈ peers := List.mem_of_mem_filter (List.mem_of_getElem? found)
    exact ⟨network, Sorted.mem_arrange.mpr (List.mem_flatMap.mpr ⟨_, listed, member⟩), inside⟩

/-- The chosen exit is the earliest one whose networks contain the target with the
    longest prefix, and none is chosen exactly when no network contains it. The
    fallback matters for a sole peer and a private target only. The host's exit
    routes contain every private target for which an available exit is chosen. -/
theorem exit_routes_cover_the_selector (target : Ipv4Addr) :
    (∀ (peers : List (String × List Network)) (id : String), choose target peers = some id ↔
      ∃ (i : Nat) (networks : List Network), peers[i]? = some (id, networks) ∧
        ∃ network ∈ networks, network.contains target = true ∧
          ∀ (j : Nat) (entry : String × List Network), peers[j]? = some entry →
            ∀ other ∈ entry.2, other.contains target = true →
              other.length ≤ network.length ∧ (j < i → other.length < network.length)) ∧
    (∀ peers : List (String × List Network), choose target peers = none ↔
      ∀ entry ∈ peers, ∀ network ∈ entry.2, network.contains target = false) ∧
    (∀ peers : List (String × List Network),
      chooseWithSingleFallback target peers ≠ choose target peers →
        peers.length = 1 ∧ target.isPrivate = true) ∧
    ∀ (peers : List (String × List Network)) (available : String → Bool) (id : String),
      chooseWithSingleFallback target (peers.filter fun entry => available entry.1) = some id →
      target.isPrivate = true →
        ∃ network ∈ lanNetworks peers available, network.contains target = true := by
  refine ⟨?_, ?_, ?_, fun peers available id => lanNetworks_cover⟩
  · intro peers id
    rw [choose_eq_some]
    constructor
    · rintro ⟨i, length, networks, found, longest, best⟩
      obtain ⟨⟨network, member, inside, rfl⟩, _⟩ := longestPrefix_eq_some.mp longest
      refine ⟨i, networks, found, network, member, inside, ?_⟩
      intro j entry place other listed within
      cases largest : longestPrefix target entry.2 with
      | none => simp [longestPrefix_eq_none.mp largest other listed] at within
      | some size =>
          have bound := (longestPrefix_eq_some.mp largest).2 other listed within
          have ahead := best j entry place size largest
          exact ⟨bound.trans ahead.1, fun early => bound.trans_lt (ahead.2 early)⟩
    · rintro ⟨i, networks, found, network, member, inside, best⟩
      refine ⟨i, network.length, networks, found, longestPrefix_eq_some.mpr ⟨⟨network, member,
        inside, rfl⟩, fun other listed within => (best i _ found other listed within).1⟩, ?_⟩
      intro j entry place size largest
      obtain ⟨⟨other, listed, within, rfl⟩, _⟩ := longestPrefix_eq_some.mp largest
      exact best j entry place other listed within
  · intro peers
    simp only [choose_eq_none, longestPrefix_eq_none]
  · intro peers differs
    rw [chooseWithSingleFallback_eq] at differs
    by_contra other
    rw [if_neg other] at differs
    exact differs rfl

/-- With the other exit offline, the sole available one carries a target that
    neither advertises, and the host's routes contain it. -/
theorem sole_available_exit_is_routed :
    ∃ network ∈ lanNetworks [("broad", wholeRanges.drop 2), ("deep", wholeRanges.take 1)]
        fun id => id == "deep",
      network.contains ⟨172, 16, 0, 9⟩ = true :=
  (exit_routes_cover_the_selector ⟨172, 16, 0, 9⟩).2.2.2 _ _ "deep" (by decide)
    (by decide)

end Agent.ExitRoutes

end PortHub
