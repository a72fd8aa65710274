import PortHub.Api.PrivateNetworks
import PortHub.Lib.Runs

/-! # Disjoint ranges over whole runs

An operation writes at most the document of its own tenant. What it writes was
compared with every range and address of the other tenants, or is the range that
the tenant had before, so the ranges stay separate.
-/

namespace PortHub.Api.PrivateNetworks

section Candidates

/-- The text that is parsed is the one of the candidate. -/
theorem candidate_cidr (offset : Nat) : (candidate offset).cidr = candidateText offset := by
  have small := index_lt offset
  have octets : Ipv4Addr.ofBits (candidate offset).base =
      ⟨10, UInt8.ofNat (index offset / 256), UInt8.ofNat (index offset % 256), 0⟩ := by
    simp only [Ipv4Addr.ofBits, candidate, Ipv4Addr.mk.injEq]
    refine ⟨?_, ?_, ?_, ?_⟩ <;> apply UInt8.toNat_inj.mp <;> simp only [UInt8.toNat_ofNat'] <;>
      simp <;> omega
  have second : (UInt8.ofNat (index offset / 256)).toNat = index offset / 256 := by
    rw [UInt8.toNat_ofNat']
    omega
  have third : (UInt8.ofNat (index offset % 256)).toNat = index offset % 256 := by
    rw [UInt8.toNat_ofNat']
    omega
  simp only [Network.cidr, octets, Ipv4Addr.render, second, third, candidateText, List.intercalate,
    List.intersperse, List.flatten_cons, List.flatten_nil]
  simp [candidate, Decimal.render, Decimal.digit]

/-- `expect("private /24")` never fails. -/
theorem parse_candidateText (ipv6 : List Char → Option Nat) (offset : Nat) :
    Network.parse ipv6 (candidateText offset) = .ok (candidate offset) := by
  rw [← candidate_cidr, Network.parse_cidr]

variable {free : Network → Bool}

theorem search_some {offset count chosen} (found : search free offset count = some chosen) :
    free chosen = true := by
  induction count generalizing offset with
  | zero => cases found
  | succ count ih =>
      unfold search at found
      split at found
      · rename_i taken
        cases found
        exact taken
      · exact ih found

theorem search_none {offset count} (missed : search free offset count = none) {other}
    (from_ : offset ≤ other) (below : other < offset + count) : free (candidate other) = false := by
  induction count generalizing offset with
  | zero => omega
  | succ count ih =>
      unfold search at missed
      split at missed
      · cases missed
      · rename_i refused
        rcases Nat.eq_or_lt_of_le from_ with rfl | later
        · simpa using refused
        · exact ih missed later (by omega)

/-- A tenant with peers under its id takes the first candidate. -/
theorem search_all (every : ∀ range, free range = true) :
    search free 0 65536 = some defaultRange := by
  rw [search, if_pos (every _)]
  rfl

end Candidates

section Documents

variable {numbers : Numbers} {ipv6 : List Char → Option Nat}

/-- The field with the range is read as its text says; errors go elsewhere. -/
theorem networkField_run (numbers : Numbers) (model : Model) {text}
    (written : model.field "cidr" = some (.string text)) :
    ((networkField numbers ipv6).run model).1 = Network.parse ipv6 text.toList := by
  have read : (Check.requiredString numbers "cidr").run model = (text, model) := by
    rw [Check.requiredString, Check.bind_run, Check.get_run, written]
    rfl
  unfold networkField
  rw [Check.bind_run, Check.get_run]
  rw [if_pos (by rw [written]; rfl), Check.bind_run, read, Check.bind_run, Check.get_run]
  split
  · cases Network.parse ipv6 text.toList with
    | error message => rw [Check.bind_run]; rfl
    | ok range => rfl
  · rfl

/-- The range a document is read as is the one its text stands for. -/
theorem preferences_range {document : Fields} {text range suffix}
    (written : document.lookup "cidr" = some (.string text))
    (read : preferences numbers ipv6 document = .ok (range, suffix)) :
    Network.parse ipv6 text.toList = .ok range := by
  have first : ((fields numbers ipv6).run ⟨document, [.key "body"], []⟩).1.1 =
      Network.parse ipv6 text.toList := by
    rw [← networkField_run numbers ⟨document, [.key "body"], []⟩ written,
      fields, Check.bind_run, Check.bind_run]
    rfl
  obtain ⟨model, made, read⟩ := bind_eq_ok.mp read
  cases made
  generalize (fields numbers ipv6).run ⟨document, [.key "body"], []⟩ = result at first read
  obtain ⟨⟨network, other⟩, final⟩ := result
  obtain ⟨_, _, read⟩ := bind_eq_ok.mp read
  dsimp only at first read
  rw [← first]
  cases network with
  | error message => cases read
  | ok network =>
      obtain ⟨rfl, _⟩ := Prod.mk.inj (pure_eq_ok.mp read)
      rfl

theorem lookup_map_self (document : Fields) (key : String) (value : Value)
    (present : (document.any fun field => field.1 == key) = true) :
    (document.map fun field => if field.1 == key then (key, value) else field).lookup key =
      some value := by
  induction document with
  | nil => cases present
  | cons field rest ih =>
      obtain ⟨name, old⟩ := field
      by_cases same : name = key
      · simp [same]
      · have later : (rest.any fun field => field.1 == key) = true := by
          simpa [List.any_cons, same] using present
        have missed : (key == name) = false := by simpa using Ne.symm same
        simpa [List.lookup_cons, same, missed] using ih later

theorem lookup_insert_self (document : Fields) (key : String) (value : Value) :
    (document.insert key value).lookup key = some value := by
  unfold Fields.insert
  split
  · rename_i present
    exact lookup_map_self document key value present
  · rename_i absent
    induction document with
    | nil => simp
    | cons field rest ih =>
        obtain ⟨name, old⟩ := field
        simp only [List.any_cons, Bool.or_eq_true, beq_iff_eq, not_or] at absent
        have missed : (key == name) = false := by simpa using Ne.symm absent.1
        simpa [List.lookup_cons, missed] using ih absent.2

theorem lookup_insert_ne (document : Fields) {key other} (value : Value) (different : other ≠ key) :
    (document.insert key value).lookup other = document.lookup other := by
  have missed : (other == key) = false := by simpa using different
  unfold Fields.insert
  split
  · rename_i present
    clear present
    induction document with
    | nil => rfl
    | cons field rest ih =>
        obtain ⟨name, old⟩ := field
        by_cases same : name = key
        · simpa [List.lookup_cons, same, missed] using ih
        · have kept : (name == key) = false := by simpa using same
          simp only [List.map_cons, kept, Bool.false_eq_true, if_false, List.lookup_cons, ih]
  · rename_i absent
    clear absent
    induction document with
    | nil => simp [List.lookup_cons, missed]
    | cons field rest ih =>
        obtain ⟨name, old⟩ := field
        simp only [List.cons_append, List.lookup_cons, ih]

end Documents

section Ranges

variable {α : Type} (ids : ObjectIds α) (numbers : Numbers) (ipv6 : List Char → Option Nat)

/-- The tenant has an address of its own. -/
def Database.enrolled (db : Database α) (tenant : String) : Bool :=
  db.peers.any fun peer => peer.tenant ids == tenant

/-- The configured range of a tenant, or the default that its peers reserve. -/
def Database.range (db : Database α) (tenant : String) : Option Network :=
  match db.networks.get? tenant with
  | some document => (preferences numbers ipv6 document).toOption.map Prod.fst
  | none => if db.enrolled ids tenant then some defaultRange else none

/-- No other tenant has a part of the range. -/
structure Fits (db : Database α) (tenant : String) (range : Network) : Prop where
  ranges : ∀ other theirs, other ≠ tenant → db.range ids numbers ipv6 other = some theirs →
    ¬∃ ip, range.contains ip = true ∧ theirs.contains ip = true
  addresses : ∀ peer ∈ db.peers, ∀ ip, peer.address = some ip → range.contains ip = true →
    peer.tenant ids = tenant

/-- Every range is its tenant's own. -/
def Separate (db : Database α) : Prop :=
  ∀ tenant range, db.range ids numbers ipv6 tenant = some range →
    Fits ids numbers ipv6 db tenant range

end Ranges

section Occupied

variable {α : Type} {ids : ObjectIds α} {numbers : Numbers} {ipv6 : List Char → Option Nat}
  {owner : String} {faults : Faults} {db : Database α}

theorem answer_eq_ok {β : Type} {failed : Bool} {value result : β} :
    answer failed value = .ok result ↔ failed = false ∧ value = result := by
  cases failed <;> simp [answer]

theorem reserve_own {peer : Peer α} (own : peer.tenant ids = owner) (configured : List String)
    (rest : List (Peer α)) :
    reserve ids owner configured (peer :: rest) = reserve ids owner configured rest := by
  rw [reserve, if_pos own]

theorem reserve_foreign {peer : Peer α} (foreign : peer.tenant ids ≠ owner)
    (configured : List String) (rest : List (Peer α)) :
    reserve ids owner configured (peer :: rest) =
      let (ranges, addresses) := reserve ids owner (peer.tenant ids :: configured) rest
      (if configured.contains (peer.tenant ids) then ranges else defaultRange :: ranges,
        peer.address.toList ++ addresses) := by
  rw [reserve, if_neg foreign]
  cases peer.address <;> rfl

/-- The addresses of the other tenants are collected. -/
theorem mem_reserve_addresses {configured peers ip} :
    ip ∈ (reserve ids owner configured peers).2 ↔
      ∃ peer ∈ peers, peer.tenant ids ≠ owner ∧ peer.address = some ip := by
  induction peers generalizing configured with
  | nil => simp [reserve]
  | cons peer rest ih =>
      by_cases own : peer.tenant ids = owner
      · simp [reserve_own own, ih, own]
      · simp [reserve_foreign own, ih, own]

/-- Only the default is reserved, and only for others without a document. -/
theorem mem_reserve_ranges {configured peers range} :
    range ∈ (reserve ids owner configured peers).1 ↔
      range = defaultRange ∧ ∃ peer ∈ peers, peer.tenant ids ≠ owner ∧
        peer.tenant ids ∉ configured := by
  induction peers generalizing configured with
  | nil => simp [reserve]
  | cons peer rest ih =>
      by_cases own : peer.tenant ids = owner
      · simp [reserve_own own, ih, own]
      · rw [reserve_foreign own]
        by_cases known : peer.tenant ids ∈ configured
        · have same (other : Peer α) : other.tenant ids ∉ peer.tenant ids :: configured ↔
              other.tenant ids ∉ configured := by
            simp only [List.mem_cons, not_or, and_iff_right_iff_imp]
            intro fresh equal
            exact fresh (equal ▸ known)
          dsimp only
          rw [if_pos (by simpa using known), ih]
          simp only [same]
          simp only [List.mem_cons, exists_eq_or_imp, known, not_true_eq_false, and_false, false_or]
        · dsimp only
          rw [if_neg (by simpa using known), List.mem_cons, ih]
          constructor
          · rintro (rfl | ⟨rfl, _⟩) <;> exact ⟨rfl, peer, List.mem_cons_self, own, known⟩
          · rintro ⟨rfl, _⟩
            exact .inl rfl

/-- What `occupied` returns is what the other tenants have. -/
theorem occupied_spec {ranges : List Network} {addresses : List Ipv4Addr}
    (found : occupied ids numbers ipv6 faults owner db = .ok (ranges, addresses)) :
    (∀ range, range ∈ ranges ↔
      ∃ other, other ≠ owner ∧ db.range ids numbers ipv6 other = some range) ∧
    ∀ ip, ip ∈ addresses ↔
      ∃ peer ∈ db.peers, peer.tenant ids ≠ owner ∧ peer.address = some ip := by
  obtain ⟨networks, answered, found⟩ := bind_eq_ok.mp found
  obtain ⟨_, rfl⟩ := answer_eq_ok.mp answered
  obtain ⟨configured, read, found⟩ := bind_eq_ok.mp found
  obtain ⟨peers, answered, found⟩ := bind_eq_ok.mp found
  obtain ⟨_, rfl⟩ := answer_eq_ok.mp answered
  obtain ⟨rfl, rfl⟩ := Prod.mk.inj (pure_eq_ok.mp found)
  refine ⟨?_, fun ip => mem_reserve_addresses⟩
  intro range
  rw [List.mem_append, mem_mapM_ok_iff read, mem_reserve_ranges]
  constructor
  · rintro (⟨⟨other, document⟩, member, reads⟩ | ⟨rfl, peer, inside, foreign, absent⟩)
    · obtain ⟨⟨found, suffix⟩, parsed, reads⟩ := bind_eq_ok.mp reads
      obtain rfl := pure_eq_ok.mp reads
      obtain ⟨different, stored⟩ := Dict.get?_of_erase (Dict.get?_eq_some_iff.mpr member)
      refine ⟨other, different, ?_⟩
      rw [Database.range, stored]
      dsimp only
      rw [parsed]
      rfl
    · refine ⟨peer.tenant ids, foreign, ?_⟩
      have missing : db.networks.get? (peer.tenant ids) = none := by
        rw [← Dict.get?_erase_ne _ foreign]
        exact Dict.get?_eq_none_iff.mpr absent
      have enrolled : db.enrolled ids (peer.tenant ids) = true :=
        List.any_eq_true.mpr ⟨peer, inside, beq_self_eq_true _⟩
      rw [Database.range, missing]
      rw [if_pos enrolled]
  · rintro ⟨other, different, ranged⟩
    unfold Database.range at ranged
    cases stored : db.networks.get? other with
    | some document =>
        rw [stored] at ranged
        have member := Dict.get?_eq_some_iff.mp ((Dict.get?_erase_ne _ different).trans stored)
        obtain ⟨value, parsed⟩ := mapM_ok_all read _ member
        obtain ⟨⟨found, suffix⟩, readable, _⟩ := bind_eq_ok.mp parsed
        dsimp only at readable ranged
        rw [readable] at ranged
        cases ranged
        exact .inl ⟨(other, document), member, bind_eq_ok.mpr ⟨_, readable, rfl⟩⟩
    | none =>
        rw [stored] at ranged
        dsimp only at ranged
        split at ranged
        · rename_i enrolled
          cases ranged
          obtain ⟨peer, inside, same⟩ := List.any_eq_true.mp enrolled
          obtain rfl := beq_iff_eq.mp same
          refine .inr ⟨rfl, peer, inside, different, ?_⟩
          exact Dict.get?_eq_none_iff.mp ((Dict.get?_erase_ne _ different).trans stored)
        · cases ranged

/-- A free range avoids the ranges and the addresses of everyone else. -/
theorem available_fits {ranges addresses range}
    (found : occupied ids numbers ipv6 faults owner db = .ok (ranges, addresses))
    (free : available range ranges addresses = true) : Fits ids numbers ipv6 db owner range := by
  obtain ⟨mine, theirs⟩ := occupied_spec found
  simp only [available, Bool.and_eq_true, Bool.not_eq_true', List.any_eq_false,
    Bool.not_eq_true] at free
  constructor
  · intro other taken different ranged shared
    have apart := free.1 taken ((mine taken).mpr ⟨other, different, ranged⟩)
    rw [Network.overlaps_iff.mpr shared] at apart
    cases apart
  · intro peer inside ip assigned within
    by_contra foreign
    have outside := free.2 ip ((theirs ip).mpr ⟨peer, inside, foreign, assigned⟩)
    cases within.symm.trans outside

/-- Writing a document whose range fits keeps everything separate. -/
theorem Separate.insert (separate : Separate ids numbers ipv6 db) {document}
    (fits : ∀ range suffix, preferences numbers ipv6 document = .ok (range, suffix) →
      Fits ids numbers ipv6 db owner range) :
    Separate ids numbers ipv6 { db with networks := db.networks.insert owner document } := by
  -- only the range of the owner changes
  have others : ∀ other, other ≠ owner →
      Database.range ids numbers ipv6 { db with networks := db.networks.insert owner document }
        other = db.range ids numbers ipv6 other := by
    intro other different
    simp only [Database.range, Database.enrolled, Dict.get?_insert_ne _ document different]
    rfl
  have own : ∀ range, Database.range ids numbers ipv6
      { db with networks := db.networks.insert owner document } owner = some range →
      Fits ids numbers ipv6 db owner range := by
    intro range ranged
    simp only [Database.range, Dict.get?_insert_self] at ranged
    cases read : preferences numbers ipv6 document with
    | error error =>
        rw [read] at ranged
        cases ranged
    | ok result =>
        rw [read] at ranged
        cases ranged
        exact fits result.1 result.2 read
  intro tenant range ranged
  by_cases mine : tenant = owner
  · subst mine
    have fit := own range ranged
    refine ⟨?_, fit.addresses⟩
    intro other theirs different ranged
    rw [others other different] at ranged
    exact fit.ranges other theirs different ranged
  · rw [others tenant mine] at ranged
    have fit := separate tenant range ranged
    refine ⟨?_, fit.addresses⟩
    intro other theirs different otherRanged
    by_cases isOwner : other = owner
    · subst isOwner
      rintro ⟨ip, inside, within⟩
      exact (own theirs otherRanged).ranges tenant range different.symm ranged ⟨ip, within, inside⟩
    · rw [others other isOwner] at otherRanged
      exact fit.ranges other theirs different otherRanged

/-- The document is stored, or the write did nothing. -/
theorem Write.perform_cases {β : Type} (write : Write) (value : β) (document : Fields) :
    (write.perform value owner document db).2 = db ∨
      (write.perform value owner document db).2 =
        { db with networks := db.networks.insert owner document } := by
  cases write with
  | done => exact .inr rfl
  | refused => exact .inl rfl
  | unconfirmed => exact .inr rfl

/-- A write that reports an error did nothing, or what it would have done. -/
theorem Write.perform_error {β : Type} {write : Write} {value : β} {document error}
    (failed : (write.perform value owner document db).1 = .error error) :
    (write.perform value owner document db).2 = db ∨ write = .unconfirmed ∧
      (write.perform value owner document db).2 = (Write.done.perform value owner document db).2 := by
  cases write with
  | done => cases failed
  | refused => exact .inl rfl
  | unconfirmed => exact .inr ⟨rfl, rfl⟩

/-- Only what was permitted is written. -/
theorem save_spec (network : Network) (suffix : String) (now : Value) :
    (save ids numbers ipv6 faults owner network suffix now db).2 = db ∨
    ∃ current, permit ids numbers ipv6 faults owner network db = .ok current ∧
      (save ids numbers ipv6 faults owner network suffix now db).2 = { db with
        networks := db.networks.insert owner (update owner network suffix now current) } := by
  unfold save
  split
  · exact .inl rfl
  · rename_i current permitted
    rcases Write.perform_cases faults.write () (update owner network suffix now current) with
      same | stored
    · exact .inl same
    · exact .inr ⟨current, permitted, stored⟩

/-- What is saved is free, or is the range that the owner has. -/
theorem permit_fits {network : Network} {current : Option Fields}
    (separate : Separate ids numbers ipv6 db)
    (permitted : permit ids numbers ipv6 faults owner network db = .ok current) :
    Fits ids numbers ipv6 db owner network := by
  obtain ⟨⟨ranges, addresses⟩, found, permitted⟩ := bind_eq_ok.mp permitted
  obtain ⟨stored, answered, permitted⟩ := bind_eq_ok.mp permitted
  obtain ⟨_, rfl⟩ := answer_eq_ok.mp answered
  dsimp only at permitted
  split at permitted
  · cases permitted
  · rename_i allowed
    simp only [Bool.and_eq_true, Bool.not_eq_true', not_and, Bool.not_eq_false] at allowed
    cases unchanged : ((db.networks.get? owner).bind fun document =>
        (preferences numbers ipv6 document).toOption).any fun preferences =>
          preferences.1.cidr == network.cidr with
    | false => exact available_fits found (allowed unchanged)
    | true =>
        obtain ⟨⟨range, suffix⟩, bound, same⟩ := (Option.any_eq_true _ _).mp unchanged
        obtain rfl := Network.cidr_injective (beq_iff_eq.mp same)
        obtain ⟨document, present, read⟩ := Option.bind_eq_some_iff.mp bound
        apply separate
        simp [Database.range, present, read]

theorem update_cidr (owner suffix : String) (network : Network) (now : Value)
    (current : Option Fields) : (update owner network suffix now current).lookup "cidr" =
      some (.string (String.ofList network.cidr)) := by
  unfold update
  rw [lookup_insert_ne _ _ (by decide), lookup_insert_ne _ _ (by decide), lookup_insert_self]

end Occupied

section Assign

variable {α : Type} [DecidableEq α] {ids : ObjectIds α} {numbers : Numbers}
  {ipv6 : List Char → Option Nat}

theorem ensureLocked_spec (faults : Faults) (owner : String) (db : Database α) :
    (ensureLocked ids numbers ipv6 faults owner db).2 = db ∨
    ∃ chosen, db.networks.get? owner = none ∧
      choose ids numbers ipv6 faults owner db = .ok chosen ∧
      (ensureLocked ids numbers ipv6 faults owner db).2 =
        { db with networks := db.networks.insert owner (newDocument owner chosen) } := by
  unfold ensureLocked
  split
  · exact .inl rfl
  · exact .inl rfl
  · rename_i answered
    split
    · exact .inl rfl
    · rename_i chosen picked
      rcases Write.perform_cases faults.write (newDocument owner chosen) (newDocument owner chosen)
        with same | stored
      · exact .inl same
      · exact .inr ⟨chosen, (answer_eq_ok.mp answered).2, picked, stored⟩

/-- The chosen range is free, or is the default that the tenant already holds. -/
theorem choose_fits {faults : Faults} {tenant : α} {db : Database α} {chosen : Network}
    (separate : Separate ids numbers ipv6 db)
    (missing : db.networks.get? (ids.toHex tenant) = none)
    (picked : choose ids numbers ipv6 faults (ids.toHex tenant) db = .ok chosen) :
    Fits ids numbers ipv6 db (ids.toHex tenant) chosen := by
  unfold choose at picked
  rw [ids.parse_toHex] at picked
  obtain ⟨legacy, answered, picked⟩ := bind_eq_ok.mp picked
  obtain ⟨_, rfl⟩ := answer_eq_ok.mp answered
  obtain ⟨⟨ranges, addresses⟩, found, picked⟩ := bind_eq_ok.mp picked
  dsimp only at picked
  cases legacy : db.peers.any fun peer => decide (peer.workspace = .objectId tenant) with
  | true =>
      rw [legacy, search_all (by simp)] at picked
      obtain rfl := pure_eq_ok.mp picked
      obtain ⟨peer, inside, same⟩ := List.any_eq_true.mp legacy
      have own : peer.tenant ids = ids.toHex tenant := by
        rw [Peer.tenant, of_decide_eq_true same]
        rfl
      have enrolled : db.enrolled ids (ids.toHex tenant) = true :=
        List.any_eq_true.mpr ⟨peer, inside, beq_iff_eq.mpr own⟩
      apply separate
      rw [Database.range, missing]
      rw [if_pos enrolled]
  | false =>
      simp only [legacy, Bool.false_or] at picked
      cases searched : search (fun range => available range ranges addresses) 0 65536 with
      | none =>
          rw [searched] at picked
          cases picked
      | some range =>
          rw [searched] at picked
          obtain rfl := pure_eq_ok.mp picked
          exact available_fits found (search_some searched)

end Assign

section Runs

variable {α : Type} [DecidableEq α] (ids : ObjectIds α) (numbers : Numbers)
  (ipv6 : List Char → Option Nat) {db : Database α} {faults : Faults}

/-- The operations that hold the allocation lock. -/
inductive Op (α : Type) where
  | ensure (tenant : α) (faults : Faults)
  | save (tenant : α) (network : Network) (suffix : String) (now : Value) (faults : Faults)

/-- One serialized operation. -/
def step (db : Database α) : Op α → Database α × ApiResult (Option Fields)
  | .ensure tenant faults =>
      let (result, after) := ensureLocked ids numbers ipv6 faults (ids.toHex tenant) db
      (after, result.map some)
  | .save tenant network suffix now faults =>
      let (result, after) := save ids numbers ipv6 faults (ids.toHex tenant) network suffix now db
      (after, result.map fun _ => none)

def Op.write : Op α → Write
  | .ensure _ faults => faults.write
  | .save _ _ _ _ faults => faults.write

/-- The same call where the write succeeds. -/
def Op.confirmed : Op α → Op α
  | .ensure tenant faults => .ensure tenant { faults with write := .done }
  | .save tenant network suffix now faults =>
      .save tenant network suffix now { faults with write := .done }

open Runs

theorem Separate.step {db after event} (separate : Separate ids numbers ipv6 db)
    (taken : answers (step ids numbers ipv6) db event after) : Separate ids numbers ipv6 after := by
  obtain ⟨op, output⟩ := event
  obtain rfl : (PrivateNetworks.step ids numbers ipv6 db op).1 = after := congrArg Prod.fst taken
  cases op with
  | ensure tenant faults =>
      have spec := @ensureLocked_spec α _ ids numbers ipv6 faults (ids.toHex tenant) db
      simp only [PrivateNetworks.step]
      rcases spec with same | ⟨chosen, missing, picked, stored⟩
      · rw [same]
        exact separate
      · rw [stored]
        apply separate.insert
        intro range suffix read
        have written : (newDocument (ids.toHex tenant) chosen).lookup "cidr" =
            some (.string (String.ofList chosen.cidr)) := rfl
        have text := preferences_range written read
        rw [String.toList_ofList, Network.parse_cidr] at text
        cases text
        exact choose_fits separate missing picked
  | save tenant network suffix now faults =>
      have spec := @save_spec α ids numbers ipv6 (ids.toHex tenant) faults db network suffix now
      simp only [PrivateNetworks.step]
      rcases spec with same | ⟨current, permitted, stored⟩
      · rw [same]
        exact separate
      · rw [stored]
        apply separate.insert
        intro range other read
        have text := preferences_range (update_cidr _ _ _ _ _) read
        rw [String.toList_ofList, Network.parse_cidr] at text
        cases text
        exact permit_fits separate permitted

theorem ensureLocked_error {owner error}
    (failed : (ensureLocked ids numbers ipv6 faults owner db).1 = .error error) :
    (ensureLocked ids numbers ipv6 faults owner db).2 = db ∨ faults.write = .unconfirmed ∧
      (ensureLocked ids numbers ipv6 faults owner db).2 =
        (ensureLocked ids numbers ipv6 { faults with write := .done } owner db).2 := by
  -- the range is chosen before the write
  have same : choose ids numbers ipv6 { faults with write := .done } owner db =
      choose ids numbers ipv6 faults owner db := rfl
  unfold ensureLocked at failed ⊢
  rw [same]
  cases answered : answer faults.existing (db.networks.get? owner) with
  | error error => exact .inl rfl
  | ok existing =>
      cases existing with
      | some document => exact .inl rfl
      | none =>
          cases picked : choose ids numbers ipv6 faults owner db with
          | error error => exact .inl rfl
          | ok chosen =>
              rw [answered, picked] at failed
              exact Write.perform_error failed

omit [DecidableEq α] in
theorem save_error {owner error} {network : Network} {suffix : String} {now : Value}
    (failed : (save ids numbers ipv6 faults owner network suffix now db).1 = .error error) :
    (save ids numbers ipv6 faults owner network suffix now db).2 = db ∨
      faults.write = .unconfirmed ∧ (save ids numbers ipv6 faults owner network suffix now db).2 =
        (save ids numbers ipv6 { faults with write := .done } owner network suffix now db).2 := by
  have same : permit ids numbers ipv6 { faults with write := .done } owner network db =
      permit ids numbers ipv6 faults owner network db := rfl
  unfold save at failed ⊢
  rw [same]
  cases permitted : permit ids numbers ipv6 faults owner network db with
  | error error => exact .inl rfl
  | ok current =>
      rw [permitted] at failed
      exact Write.perform_error failed

theorem map_error {β γ : Type} {f : β → γ} {result : ApiResult β} {error}
    (failed : result.map f = .error error) : result = .error error := by
  cases result with
  | error other => exact congrArg _ (Except.error.inj failed)
  | ok value => cases failed

theorem step_error {op error} (failed : (step ids numbers ipv6 db op).2 = .error error) :
    (step ids numbers ipv6 db op).1 = db ∨ op.write = .unconfirmed ∧
      (step ids numbers ipv6 db op).1 = (step ids numbers ipv6 db op.confirmed).1 := by
  cases op with
  | ensure tenant faults => exact ensureLocked_error ids numbers ipv6 (map_error failed)
  | save tenant network suffix now faults => exact save_error ids numbers ipv6 (map_error failed)

/-- Another tenant holds an address of the range. -/
def Taken (db : Database α) (tenant : String) (range : Network) : Prop :=
  (∃ other theirs, other ≠ tenant ∧ db.range ids numbers ipv6 other = some theirs ∧
    ∃ ip, range.contains ip = true ∧ theirs.contains ip = true) ∨
  ∃ peer ∈ db.peers, peer.tenant ids ≠ tenant ∧ ∃ ip, peer.address = some ip ∧
    range.contains ip = true

omit [DecidableEq α] in
theorem preferences_error {document} :
    preferences numbers ipv6 document ≠ .error noRange := by
  intro failed
  rcases bind_eq_error.mp failed with refused | ⟨model, _, failed⟩
  · cases refused
  · generalize (fields numbers ipv6).run model = result at failed
    obtain ⟨⟨network, suffix⟩, final⟩ := result
    rcases bind_eq_error.mp failed with invalid | ⟨_, _, failed⟩
    · unfold Model.finish at invalid
      split at invalid <;> cases invalid
    · cases network with
      | ok network => cases failed
      | error message => simp [noRange, throw, throwThe, MonadExceptOf.throw] at failed

theorem answer_error {β : Type} {failed : Bool} {value : β} : answer failed value ≠ .error noRange := by
  cases failed <;> simp [answer, databaseError, noRange]

omit [DecidableEq α] in
/-- Failures on the way to the search are not reported as a full space. -/
theorem occupied_error {owner : String} :
    occupied ids numbers ipv6 faults owner db ≠ .error noRange := by
  intro failed
  rcases bind_eq_error.mp failed with refused | ⟨networks, _, failed⟩
  · exact answer_error refused
  · rcases bind_eq_error.mp failed with refused | ⟨configured, _, failed⟩
    · obtain ⟨entry, _, refused⟩ := mapM_error refused
      rcases bind_eq_error.mp refused with unread | ⟨_, _, refused⟩
      · exact preferences_error _ _ unread
      · cases refused
    · rcases bind_eq_error.mp failed with refused | ⟨peers, _, failed⟩
      · exact answer_error refused
      · cases failed

/-- The search gives up only when every candidate is taken. -/
theorem choose_exhausted {tenant : α}
    (failed : choose ids numbers ipv6 faults (ids.toHex tenant) db = .error noRange) :
    ∀ offset < 65536, Taken ids numbers ipv6 db (ids.toHex tenant) (candidate offset) := by
  unfold choose at failed
  rw [ids.parse_toHex] at failed
  rcases bind_eq_error.mp failed with refused | ⟨legacy, _, failed⟩
  · exact absurd refused answer_error
  rcases bind_eq_error.mp failed with refused | ⟨⟨ranges, addresses⟩, found, failed⟩
  · exact absurd refused (occupied_error _ _ _)
  dsimp only at failed
  cases searched : search (fun range => legacy || available range ranges addresses) 0 65536 with
  | some chosen =>
      rw [searched] at failed
      cases failed
  | none =>
      intro offset bounded
      have refused := search_none searched (Nat.zero_le offset) (by omega)
      obtain ⟨mine, theirs⟩ := occupied_spec found
      simp only [Bool.or_eq_false_iff, available, Bool.and_eq_false_iff, Bool.not_eq_false',
        List.any_eq_true] at refused
      rcases refused.2 with ⟨range, inside, overlap⟩ | ⟨ip, inside, within⟩
      · obtain ⟨other, different, ranged⟩ := (mine range).mp inside
        exact .inl ⟨other, range, different, ranged, Network.overlaps_iff.mp overlap⟩
      · obtain ⟨peer, member, foreign, assigned⟩ := (theirs ip).mp inside
        exact .inr ⟨peer, member, foreign, ip, assigned, within⟩

theorem ensureLocked_noRange {owner : String}
    (failed : (ensureLocked ids numbers ipv6 faults owner db).1 = .error noRange) :
    choose ids numbers ipv6 faults owner db = .error noRange := by
  unfold ensureLocked at failed
  cases answered : answer faults.existing (db.networks.get? owner) with
  | error error =>
      rw [answered] at failed
      obtain rfl := Except.error.inj failed
      exact absurd answered answer_error
  | ok existing =>
      rw [answered] at failed
      cases existing with
      | some document => cases failed
      | none =>
          cases picked : choose ids numbers ipv6 faults owner db with
          | error error =>
              rw [picked] at failed
              rw [Except.error.inj failed]
          | ok chosen =>
              rw [picked] at failed
              cases written : faults.write with
              | done => simp [written, Write.perform] at failed
              | refused | unconfirmed =>
                  simp [written, Write.perform, databaseError, noRange] at failed

/-- From a database whose ranges are separate, every sequence of operations keeps
    them separate. An operation that fails changes nothing, unless it is the write
    that reports an error and was applied all the same, and a tenant is left without
    a range only when every candidate is taken. -/
theorem ranges_stay_separate {db : Database α} (separate : Separate ids numbers ipv6 db)
    {history : List (Op α × ApiResult (Option Fields))} {final : Database α}
    (run : Run (answers (step ids numbers ipv6)) db history final) :
    Separate ids numbers ipv6 final ∧
    (∀ op error, (step ids numbers ipv6 final op).2 = .error error →
      (step ids numbers ipv6 final op).1 = final ∨ op.write = .unconfirmed ∧
        (step ids numbers ipv6 final op).1 = (step ids numbers ipv6 final op.confirmed).1) ∧
    ∀ tenant faults, (step ids numbers ipv6 final (.ensure tenant faults)).2 = .error noRange →
      ∀ offset < 65536, Taken ids numbers ipv6 final (ids.toHex tenant) (candidate offset) := by
  refine ⟨?_, fun op error => step_error ids numbers ipv6, ?_⟩
  · induction run with
    | start => exact separate
    | snoc _ taken ih => exact ih.step ids numbers ipv6 taken
  · intro tenant faults failed
    exact choose_exhausted ids numbers ipv6
      (ensureLocked_noRange ids numbers ipv6 (map_error failed))

def noFaults : Faults := ⟨false, false, false, false, .done⟩

def firstTenant : SampleId := ⟨"64b7f0a1c2d3e4f501020304".toList, by decide⟩

def secondTenant : SampleId := ⟨"64b7f0a1c2d3e4f501020305".toList, by decide⟩

theorem separate_empty : Separate sampleIds Numbers.plain (fun _ => none) ⟨.empty, []⟩ := by
  intro tenant range ranged
  cases ranged

/-- Two tenants of an empty database get neighbouring ranges, though the first write
    reports an error. -/
theorem two_tenants_are_separate :
    let final := (feed (step sampleIds Numbers.plain fun _ => none) ⟨.empty, []⟩
      [.ensure firstTenant { noFaults with write := .unconfirmed },
        .ensure secondTenant noFaults]).2
    Separate sampleIds Numbers.plain (fun _ => none) final ∧
    final.range sampleIds Numbers.plain (fun _ => none) (sampleIds.toHex firstTenant) =
      some (candidate 0) ∧
    final.range sampleIds Numbers.plain (fun _ => none) (sampleIds.toHex secondTenant) =
      some (candidate 1) := by
  refine ⟨?_, by decide, by decide⟩
  exact (ranges_stay_separate sampleIds Numbers.plain (fun _ => none) separate_empty
    (feed_run _ _ _)).1

/-- The call reports an error, and its document is stored. -/
theorem failed_write_is_stored :
    let start : Database SampleId := ⟨.empty, []⟩
    let after := step sampleIds Numbers.plain (fun _ => none) start
      (.ensure firstTenant { noFaults with write := .unconfirmed })
    Separate sampleIds Numbers.plain (fun _ => none) start ∧ after.2 = .error databaseError ∧
      after.1 ≠ start := by
  intro start after
  refine ⟨separate_empty, rfl, fun same => ?_⟩
  have stored : (start.networks.get? (sampleIds.toHex firstTenant)).isSome = true := by
    rw [← same]
    decide
  cases stored

end Runs

end PortHub.Api.PrivateNetworks
