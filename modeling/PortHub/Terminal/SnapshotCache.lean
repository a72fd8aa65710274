import PortHub.Lib.Dict
import PortHub.Terminal.Protocol

/-! # Frozen history of the attached viewers

An attachment owns at most one frozen copy of the scrollback. A capture runs
outside the cache, so it is announced by a reservation and installed later, when
the reservation may have been overtaken. Storage is counted while snapshots come
and go, and a snapshot that nobody read for long enough is dropped.
-/

namespace PortHub.Terminal

def maxSnapshot : Nat := 64 * 1024 * 1024

/-- A captured copy, with what `Snapshot::new` made sure of. -/
structure Snapshot where
  id : String
  pane : String
  bytes : List UInt8
  offsets : List Nat
  named : token id 32 = true
  resolved : historyRequest pane 0 1 = .ok ()
  bounded : bytes.length ≤ maxSnapshot ∧ offsets.length ≤ 200001

namespace Snapshot

/-- Where the lines start, and where an unfinished last one ends. -/
def lineOffsets (bytes : List UInt8) : List Nat :=
  let starts := 0 :: (bytes.zipIdx.filter fun (byte, _) => byte == 10).map fun (_, index) => index + 1
  if starts.getLast? = some bytes.length then starts else starts ++ [bytes.length]

/-- `Snapshot::new` with the random identity it draws. -/
def new (id pane : String) (named : token id 32 = true) (bytes : List UInt8) : Result Snapshot :=
  match resolved : historyRequest pane 0 1 with
  | .error message => throw message
  | .ok () => do
      ensure (!pane.isEmpty) "snapshot requires a resolved pane"
      if small : bytes.length ≤ maxSnapshot then
        if few : (lineOffsets bytes).length ≤ 200001 then
          return ⟨id, pane, bytes, lineOffsets bytes, named, resolved, small, few⟩
        else throw "history snapshot exceeds line limit"
      else throw "history snapshot exceeds host storage limit"

/-- The terminal bytes and the index of eight bytes a line. -/
def storageBytes (snapshot : Snapshot) : Nat := snapshot.bytes.length + snapshot.offsets.length * 8

end Snapshot

structure CaptureReservation where
  cache : String
  client : UInt64
  epoch : Nat
  deriving DecidableEq, Repr

structure Retained where
  snapshot : Snapshot
  accessed : Nat

structure Entry where
  pending : Option Nat
  retained : Option Retained

/-- What an entry adds to the storage in use. -/
def Entry.bytes (entry : Entry) : Nat :=
  (entry.retained.map fun retained => retained.snapshot.storageBytes).getD 0

structure SnapshotCache where
  identity : String
  entries : Dict UInt64 Entry
  epoch : Nat
  used : Nat
  limit : UInt64
  idle : Nat

namespace SnapshotCache

/-- `SnapshotCache::new` with the random identity it draws. -/
def new (identity : String) (limit : UInt64) (idle : Nat) : Result SnapshotCache := do
  ensure (decide (0 < limit) && decide (idle ≠ 0)) "invalid history snapshot limits"
  return ⟨identity, .empty, 0, 0, limit, idle⟩

def attach (cache : SnapshotCache) (client : UInt64) : SnapshotCache × Result Unit :=
  if cache.entries.len < maxViewers ∧ cache.entries.contains client = false then
    ({ cache with entries := cache.entries.insert client ⟨none, none⟩ }, .ok ())
  else (cache, .error "invalid snapshot attachment")

def detach (cache : SnapshotCache) (client : UInt64) : SnapshotCache :=
  match cache.entries.get? client with
  | none => cache
  | some entry =>
      let used := match entry.retained with
        | none => cache.used
        | some retained => usizeSub cache.used retained.snapshot.storageBytes
      { cache with entries := cache.entries.erase client, used }

def expired (cache : SnapshotCache) (now : Nat) (retained : Retained) : Bool :=
  decide (cache.idle ≤ now - retained.accessed)

def stale (cache : SnapshotCache) (now : Nat) (entry : Entry) : Bool :=
  entry.retained.any (cache.expired now)

def reapEntry (cache : SnapshotCache) (now : Nat) (entry : Entry) : Entry :=
  if cache.stale now entry then { entry with retained := none } else entry

def reap (cache : SnapshotCache) (now : Nat) : SnapshotCache :=
  let gone := cache.entries.values.filter (cache.stale now)
  { cache with
    entries := cache.entries.map fun _ => cache.reapEntry now
    used := gone.foldl (fun used entry => usizeSub used entry.bytes) cache.used }

/-- `begin`; the epoch is a 64-bit counter that refuses to wrap around. -/
def begin (cache : SnapshotCache) (client : UInt64) :
    SnapshotCache × Result CaptureReservation :=
  match cache.entries.get? client with
  | none => (cache, .error "history guest detached")
  | some entry =>
      let epoch := cache.epoch + 1
      if epoch < 2 ^ 64 then
        ({ cache with entries := cache.entries.insert client { entry with pending := some epoch }, epoch },
          .ok ⟨cache.identity, client, epoch⟩)
      else (cache, .error "snapshot generation exhausted")

/-- The rest of `install`, once expired snapshots are gone. -/
def retain (cache : SnapshotCache) (reservation : CaptureReservation) (snapshot : Snapshot)
    (now : Nat) : SnapshotCache × Result Unit :=
  match cache.entries.get? reservation.client with
  | none => (cache, .error "history guest detached")
  | some entry =>
      if entry.pending ≠ some reservation.epoch then (cache, .error "history capture superseded")
      else
        let next := usizeSub cache.used entry.bytes + snapshot.storageBytes
        if 2 ^ 64 ≤ next then (cache, .error "snapshot quota exceeded")
        else if next ≤ cache.limit.toNat then
          ({ cache with
              entries := cache.entries.insert reservation.client ⟨none, some ⟨snapshot, now⟩⟩
              used := next }, .ok ())
        else (cache, .error
          "history snapshot storage is busy; try again after another viewer releases history")

def install (cache : SnapshotCache) (reservation : CaptureReservation) (snapshot : Snapshot)
    (now : Nat) : SnapshotCache × Result Unit :=
  if reservation.cache = cache.identity then (cache.reap now).retain reservation snapshot now
  else (cache, .error "history capture belongs to another attachment generation")

/-- The rest of `get`, once expired snapshots are gone. -/
def access (cache : SnapshotCache) (client : UInt64) (identity pane : String) (now : Nat) :
    SnapshotCache × Result Snapshot :=
  match cache.entries.get? client with
  | some ⟨pending, some retained⟩ =>
      if retained.snapshot.id = identity ∧ (pane = "" ∨ pane = retained.snapshot.pane) then
        ({ cache with
            entries := cache.entries.insert client ⟨pending, some { retained with accessed := now }⟩ },
          .ok retained.snapshot)
      else (cache, .error "history snapshot unavailable; refresh history")
  | _ => (cache, .error "history snapshot expired; refresh history")

def get (cache : SnapshotCache) (client : UInt64) (identity pane : String) (now : Nat) :
    SnapshotCache × Result Snapshot :=
  if token identity 32 then
    match historyRequest pane 0 1 with
    | .error message => (cache, .error message)
    | .ok () => (cache.reap now).access client identity pane now
  else (cache, .error "invalid history snapshot identity")

/-- The storage of everything retained. -/
def total (cache : SnapshotCache) : Nat := cache.entries.weight Entry.bytes

/-- The counter is exact and within the limit. -/
structure Accounted (cache : SnapshotCache) : Prop where
  exact : cache.used = cache.total
  within : cache.used ≤ cache.limit.toNat

variable {cache : SnapshotCache} {entry : Entry}

theorem bytes_le_total {client} (found : cache.entries.get? client = some entry) :
    entry.bytes ≤ cache.total := by
  have weight := Dict.weight_erase Entry.bytes cache.entries client
  simp only [found, Option.map_some, Option.getD_some] at weight
  unfold total
  omega

theorem Accounted.subtract (accounted : cache.Accounted) {client}
    (found : cache.entries.get? client = some entry) :
    usizeSub cache.used entry.bytes = (cache.entries.erase client).weight Entry.bytes := by
  have weight := Dict.weight_erase Entry.bytes cache.entries client
  have bounded := cache.limit.toNat_lt
  have below := bytes_le_total found
  rw [usizeSub_eq (by have := accounted.exact; omega) (by have := accounted.within; omega)]
  simp only [found, Option.map_some, Option.getD_some] at weight
  have := accounted.exact
  unfold total at this
  omega

theorem reapEntry_bytes (cache : SnapshotCache) (now : Nat) (entry : Entry) :
    (cache.reapEntry now entry).bytes = if cache.stale now entry then 0 else entry.bytes := by
  unfold reapEntry
  split <;> rfl

theorem reapEntry_retained {now kept} :
    (cache.reapEntry now entry).retained = some kept ↔
      entry.retained = some kept ∧ cache.expired now kept = false := by
  obtain ⟨pending, retained⟩ := entry
  cases retained with
  | none => simp [reapEntry, stale]
  | some retained =>
      cases late : cache.expired now retained with
      | false =>
          simp only [reapEntry, stale, Option.any_some, late, Bool.false_eq_true, if_false,
            Option.some.injEq, iff_self_and]
          rintro rfl
          exact late
      | true =>
          simp only [reapEntry, stale, Option.any_some, late, if_true, reduceCtorEq,
            Option.some.injEq, false_iff, not_and, Bool.not_eq_false]
          rintro rfl
          exact late

theorem reapEntry_pending (cache : SnapshotCache) (now : Nat) (entry : Entry) :
    (cache.reapEntry now entry).pending = entry.pending := by
  unfold reapEntry
  split <;> rfl

/-- Subtracting one after the other takes off exactly what was dropped. -/
theorem subtract_stale (cache : SnapshotCache) (now : Nat) (entries : List Entry) (rest : Nat)
    (bounded : (entries.map Entry.bytes).sum + rest < 2 ^ 64) :
    (entries.filter (cache.stale now)).foldl (fun used entry => usizeSub used entry.bytes)
        ((entries.map Entry.bytes).sum + rest) =
      (entries.map fun entry => (cache.reapEntry now entry).bytes).sum + rest := by
  induction entries generalizing rest with
  | nil => simp
  | cons entry tail ih =>
      simp only [List.map_cons, List.sum_cons, reapEntry_bytes] at bounded ⊢
      cases late : cache.stale now entry with
      | true =>
          rw [List.filter_cons_of_pos late, List.foldl_cons, usizeSub_eq (by omega) bounded]
          have rests := ih rest (by omega)
          simp only [reapEntry_bytes] at rests
          simp only [if_true, Nat.zero_add]
          rw [← rests]
          congr 1
          omega
      | false =>
          rw [List.filter_cons_of_neg (by simp [late])]
          have rests := ih (entry.bytes + rest) (by omega)
          simp only [reapEntry_bytes] at rests
          simp only [Bool.false_eq_true, if_false]
          rw [Nat.add_comm entry.bytes, Nat.add_assoc, rests]
          omega

theorem reap_total (cache : SnapshotCache) (now : Nat) : (cache.reap now).total ≤ cache.total := by
  apply Dict.weight_map_le
  intro entry
  rw [reapEntry_bytes]
  split <;> omega

theorem Accounted.reap (accounted : cache.Accounted) (now : Nat) :
    (cache.reap now).Accounted := by
  have start := accounted.exact
  have within := accounted.within
  have bounded := cache.limit.toNat_lt
  have exact : (cache.reap now).used = (cache.reap now).total := by
    simp only [total, Dict.weight] at start
    have step := subtract_stale cache now cache.entries.values 0 (by omega)
    simpa only [total, SnapshotCache.reap, Dict.weight, Dict.values_map, List.map_map,
      Function.comp_def, Nat.add_zero, start] using step
  have less := reap_total cache now
  refine ⟨exact, ?_⟩
  change (cache.reap now).used ≤ cache.limit.toNat
  omega

end SnapshotCache

end PortHub.Terminal
