import PortHub.Lib.Runs
import PortHub.Terminal.SnapshotCache

/-! # Captures are fenced by their attachment

A run of the cache is compared with what each client owns according to the
answers alone: nothing until it attaches, then its latest reservation and the
snapshot that was installed for it. Whatever the cache retains or hands out is
owned in this sense, and the storage counter is exact in every state.
-/

namespace PortHub.Terminal.SnapshotCache

open Runs

inductive Op where
  | attach (client : UInt64)
  | detach (client : UInt64)
  | begin (client : UInt64)
  | install (reservation : CaptureReservation) (snapshot : Snapshot) (now : Nat)
  | get (client : UInt64) (identity pane : String) (now : Nat)
  | reap (now : Nat)

inductive Answer where
  | done (result : Result Unit)
  | reserved (result : Result CaptureReservation)
  | snapshot (result : Result Snapshot)

abbrev Event := Op × Answer

def step (cache : SnapshotCache) : Op → SnapshotCache × Answer
  | .attach client =>
      let (next, result) := cache.attach client
      (next, .done result)
  | .detach client => (cache.detach client, .done (.ok ()))
  | .begin client =>
      let (next, result) := cache.begin client
      (next, .reserved result)
  | .install reservation snapshot now =>
      let (next, result) := cache.install reservation snapshot now
      (next, .done result)
  | .get client identity pane now =>
      let (next, result) := cache.get client identity pane now
      (next, .snapshot result)
  | .reap now => (cache.reap now, .done (.ok ()))

/-- What an attached client owns: its latest reservation, unless it was used,
    and the last snapshot installed for it. -/
structure Owner where
  reservation : Option CaptureReservation
  snapshot : Option Snapshot

abbrev Owners := UInt64 → Option Owner

/-- Read off one event; refused calls change nothing. -/
def note (owners : Owners) : Event → Owners
  | (.attach client, .done (.ok ())) => Function.update owners client (some ⟨none, none⟩)
  | (.detach client, _) => Function.update owners client none
  | (.begin client, .reserved (.ok reservation)) =>
      Function.update owners client
        ((owners client).map fun owner => { owner with reservation := some reservation })
  | (.install reservation snapshot _, .done (.ok ())) =>
      Function.update owners reservation.client
        ((owners reservation.client).map fun _ => ⟨none, some snapshot⟩)
  | _ => owners

def owners (history : List Event) : Owners := history.foldl note fun _ => none

theorem owners_append (history : List Event) (event : Event) :
    owners (history ++ [event]) = note (owners history) event := by
  simp [owners]

/-- An entry of the cache keeps no more than its client owns. -/
inductive Keeps (identity : String) (client : UInt64) : Option Owner → Option Entry → Prop where
  | detached : Keeps identity client none none
  | attached {owner entry} (pending : entry.pending = owner.reservation.map CaptureReservation.epoch)
      (reserved : ∀ reservation, owner.reservation = some reservation →
        reservation.cache = identity ∧ reservation.client = client)
      (retained : ∀ kept, entry.retained = some kept → owner.snapshot = some kept.snapshot) :
      Keeps identity client (some owner) (some entry)

/-- What holds after every run. -/
structure Fenced (identity : String) (owners : Owners) (cache : SnapshotCache) : Prop where
  named : cache.identity = identity
  accounted : cache.Accounted
  keeps : ∀ client, Keeps identity client (owners client) (cache.entries.get? client)

namespace Fenced

variable {identity : String} {owners : Owners} {cache : SnapshotCache} {client : UInt64}
  {next : SnapshotCache} {reservation : CaptureReservation} {now : Nat} {result : Result Snapshot}

theorem start {limit idle origin} (created : SnapshotCache.new identity limit idle = .ok origin) :
    Fenced identity (fun _ => none) origin := by
  simp only [SnapshotCache.new, bind_eq_ok, pure_eq_ok] at created
  obtain ⟨_, _, rfl⟩ := created
  exact ⟨rfl, ⟨rfl, Nat.zero_le _⟩, fun _ => .detached⟩

/-- The owner behind an entry. -/
theorem owned (fenced : Fenced identity owners cache) {entry}
    (found : cache.entries.get? client = some entry) :
    ∃ owner, owners client = some owner ∧
      entry.pending = owner.reservation.map CaptureReservation.epoch ∧
      (∀ reservation, owner.reservation = some reservation →
        reservation.cache = identity ∧ reservation.client = client) ∧
      ∀ kept, entry.retained = some kept → owner.snapshot = some kept.snapshot := by
  have keeps := fenced.keeps client
  rw [found] at keeps
  generalize held : owners client = owner at keeps
  cases keeps with
  | attached pending reserved retained => exact ⟨_, rfl, pending, reserved, retained⟩

theorem reap (fenced : Fenced identity owners cache) (now : Nat) :
    Fenced identity owners (cache.reap now) where
  named := fenced.named
  accounted := fenced.accounted.reap now
  keeps client := by
    have keeps := fenced.keeps client
    simp only [SnapshotCache.reap, Dict.get?_map]
    generalize cache.entries.get? client = entry at keeps ⊢
    generalize owners client = owner at keeps ⊢
    cases keeps with
    | detached => exact .detached
    | attached pending reserved retained =>
        refine .attached ((reapEntry_pending cache now _).trans pending) reserved ?_
        intro kept present
        exact retained kept (reapEntry_retained.mp present).1

/-- One entry is replaced, together with what its client owns. -/
theorem replace (fenced : Fenced identity owners cache) {entry owner}
    (named : next.identity = cache.identity)
    (entries : next.entries = cache.entries.insert client entry) (accounted : next.Accounted)
    (keeps : Keeps identity client owner (some entry)) :
    Fenced identity (Function.update owners client owner) next where
  named := named.trans fenced.named
  accounted := accounted
  keeps other := by
    rw [entries]
    by_cases same : other = client
    · subst same
      simpa using keeps
    · simpa [same] using fenced.keeps other

theorem attach (fenced : Fenced identity owners cache) {client next result}
    (called : cache.attach client = (next, result)) :
    Fenced identity (note owners (.attach client, .done result)) next := by
  unfold SnapshotCache.attach at called
  split at called
  · rename_i free
    cases called
    have absent : cache.entries.get? client = none := by
      simpa [Dict.contains] using free.2
    have weight := Dict.weight_erase Entry.bytes cache.entries client
    simp only [absent, Option.map_none, Option.getD_none] at weight
    refine fenced.replace rfl rfl ⟨?_, fenced.accounted.within⟩ (.attached rfl ?_ ?_)
    · have := fenced.accounted.exact
      simp only [total, Dict.weight_insert, Entry.bytes] at this ⊢
      simp only [Option.map_none, Option.getD_none]
      omega
    · simp
    · simp
  · cases called
    exact fenced

section

variable (fenced : Fenced identity owners cache)

include fenced

theorem detach (client : UInt64) :
    Fenced identity (Function.update owners client none) (cache.detach client) := by
  have dropped : ∀ used, { cache with entries := cache.entries.erase client, used }.Accounted →
      Fenced identity (Function.update owners client none)
        { cache with entries := cache.entries.erase client, used } := by
    intro used accounted
    refine ⟨fenced.named, accounted, fun other => ?_⟩
    by_cases same : other = client
    · subst same
      simpa using Keeps.detached
    · simpa [same] using fenced.keeps other
  unfold SnapshotCache.detach
  cases found : cache.entries.get? client with
  | none =>
      refine ⟨fenced.named, fenced.accounted, fun other => ?_⟩
      by_cases same : other = client
      · subst same
        simpa [found] using Keeps.detached
      · simpa [same] using fenced.keeps other
  | some entry =>
      apply dropped
      have within := fenced.accounted.within
      have exact := fenced.accounted.exact
      have weight := Dict.weight_erase Entry.bytes cache.entries client
      have subtract := fenced.accounted.subtract found
      simp only [found, Option.map_some, Option.getD_some] at weight
      obtain ⟨pending, retained⟩ := entry
      cases retained with
      | none =>
          simp only [Entry.bytes, Option.map_none, Option.getD_none] at weight
          exact ⟨by simp only [total] at exact ⊢; omega, within⟩
      | some retained =>
          simp only [Entry.bytes, Option.map_some, Option.getD_some] at weight subtract
          simp only [total] at exact
          exact ⟨subtract, by dsimp only; omega⟩

theorem begin {result}
    (called : cache.begin client = (next, result)) :
    Fenced identity (note owners (.begin client, .reserved result)) next := by
  unfold SnapshotCache.begin at called
  split at called
  · cases called
    exact fenced
  · rename_i entry found
    dsimp only at called
    split at called
    · cases called
      obtain ⟨owner, held, _, _, retained⟩ := fenced.owned found
      have weight := Dict.weight_erase Entry.bytes cache.entries client
      simp only [found, Option.map_some, Option.getD_some] at weight
      simp only [note, held, Option.map_some]
      refine fenced.replace rfl rfl ⟨?_, fenced.accounted.within⟩ (.attached rfl ?_ retained)
      · have := fenced.accounted.exact
        simp only [total, Dict.weight_insert, Entry.bytes] at this weight ⊢
        omega
      · rintro reservation ⟨⟩
        exact ⟨fenced.named, rfl⟩
    · cases called
      exact fenced

/-- A snapshot goes in only for the reservation its client waits for. -/
theorem retain {snapshot result}
    (mine : reservation.cache = identity)
    (called : cache.retain reservation snapshot now = (next, result)) :
    Fenced identity (note owners (.install reservation snapshot now, .done result)) next ∧
      ((∃ message, result = .error message ∧ next = cache) ∨
        (result = .ok () ∧ ∃ owner, owners reservation.client = some owner ∧
          owner.reservation = some reservation)) := by
  unfold SnapshotCache.retain at called
  split at called
  · cases called
    exact ⟨fenced, .inl ⟨_, rfl, rfl⟩⟩
  · rename_i entry found
    dsimp only at called
    split at called
    · cases called
      exact ⟨fenced, .inl ⟨_, rfl, rfl⟩⟩
    · rename_i current
      split at called
      · cases called
        exact ⟨fenced, .inl ⟨_, rfl, rfl⟩⟩
      · split at called
        · rename_i room
          cases called
          obtain ⟨owner, held, pending, reserved, _⟩ := fenced.owned found
          have waiting : owner.reservation = some reservation := by
            rw [not_not.mp current] at pending
            obtain ⟨other, holds, epoch⟩ := Option.map_eq_some_iff.mp pending.symm
            obtain ⟨named, client⟩ := reserved other holds
            cases other
            cases reservation
            simp_all
          refine ⟨?_, .inr ⟨rfl, owner, held, waiting⟩⟩
          simp only [note, held, Option.map_some]
          refine fenced.replace rfl rfl ⟨?_, room⟩ (.attached rfl ?_ ?_)
          · rw [fenced.accounted.subtract found]
            simp only [total, Dict.weight_insert, Entry.bytes, Option.map_some, Option.getD_some]
            omega
          · simp
          · rintro kept ⟨⟩
            rfl
        · cases called
          exact ⟨fenced, .inl ⟨_, rfl, rfl⟩⟩

theorem install {snapshot result}
    (called : cache.install reservation snapshot now = (next, result)) :
    Fenced identity (note owners (.install reservation snapshot now, .done result)) next ∧
      ((∃ message, result = .error message ∧ (next = cache ∨ next = cache.reap now)) ∨
        (result = .ok () ∧ ∃ owner, owners reservation.client = some owner ∧
          owner.reservation = some reservation)) := by
  unfold SnapshotCache.install at called
  split at called
  · rename_i mine
    obtain ⟨kept, failed | waiting⟩ := (fenced.reap now).retain (mine.trans fenced.named) called
    · obtain ⟨message, refused, same⟩ := failed
      exact ⟨kept, .inl ⟨message, refused, .inr same⟩⟩
    · exact ⟨kept, .inr waiting⟩
  · cases called
    exact ⟨fenced, .inl ⟨_, rfl, .inl rfl⟩⟩

theorem access {wanted pane}
    (called : cache.access client wanted pane now = (next, result)) :
    Fenced identity owners next ∧ ∀ snapshot, result = .ok snapshot →
      snapshot.id = wanted ∧ (pane = "" ∨ pane = snapshot.pane) ∧
        ∃ owner, owners client = some owner ∧ owner.snapshot = some snapshot := by
  unfold SnapshotCache.access at called
  split at called
  · rename_i pending retained found
    split at called
    · rename_i wantedPane
      cases called
      obtain ⟨owner, held, waiting, reserved, kept⟩ := fenced.owned found
      have weight := Dict.weight_erase Entry.bytes cache.entries client
      simp only [found, Option.map_some, Option.getD_some] at weight
      constructor
      · have same : Function.update owners client (some owner) = owners := by
          rw [← held, Function.update_eq_self]
        rw [← same]
        refine fenced.replace rfl rfl ⟨?_, fenced.accounted.within⟩ (.attached waiting reserved ?_)
        · have := fenced.accounted.exact
          simp only [total, Dict.weight_insert, Entry.bytes, Option.map_some, Option.getD_some]
            at this weight ⊢
          omega
        · rintro other ⟨⟩
          exact kept retained rfl
      · rintro snapshot ⟨⟩
        exact ⟨wantedPane.1, wantedPane.2, owner, held, kept retained rfl⟩
    · cases called
      exact ⟨fenced, by simp⟩
  · cases called
    exact ⟨fenced, by simp⟩

theorem get {wanted pane}
    (called : cache.get client wanted pane now = (next, result)) :
    Fenced identity owners next ∧ ∀ snapshot, result = .ok snapshot →
      snapshot.id = wanted ∧ (pane = "" ∨ pane = snapshot.pane) ∧
        ∃ owner, owners client = some owner ∧ owner.snapshot = some snapshot := by
  unfold SnapshotCache.get at called
  split at called
  · split at called
    · cases called
      exact ⟨fenced, by simp⟩
    · exact (fenced.reap now).access called
  · cases called
    exact ⟨fenced, by simp⟩

end

theorem step (fenced : Fenced identity owners cache) {event next}
    (taken : answers SnapshotCache.step cache event next) :
    Fenced identity (note owners event) next := by
  obtain ⟨op, answer⟩ := event
  cases op with
  | attach client =>
      cases taken
      exact fenced.attach rfl
  | detach client =>
      cases taken
      exact fenced.detach client
  | begin client =>
      cases taken
      exact fenced.begin rfl
  | install reservation snapshot now =>
      cases taken
      exact (fenced.install rfl).1
  | get client wanted pane now =>
      cases taken
      exact (fenced.get rfl).1
  | reap now =>
      cases taken
      exact fenced.reap now

end Fenced

/-- The event ends an attachment of the client, or starts one. -/
def Ends (client : UInt64) : Event → Prop
  | (.attach other, .done (.ok ())) => other = client
  | (.detach other, _) => other = client
  | _ => False

/-- The event installs a snapshot for the client. -/
def Installs (client : UInt64) : Event → Prop
  | (.install reservation _ _, .done (.ok ())) => reservation.client = client
  | _ => False

/-- The event reserves a capture for the client. -/
def Reserves (client : UInt64) : Event → Prop
  | (.begin other, .reserved (.ok _)) => other = client
  | _ => False

/-- The event happened, and none of these happened after it. -/
def Latest (history : List Event) (event : Event) (overtaken : Event → Prop) : Prop :=
  ∃ before after, history = before ++ event :: after ∧ ∀ later ∈ after, ¬ overtaken later

theorem Latest.last (history : List Event) (event : Event) (overtaken : Event → Prop) :
    Latest (history ++ [event]) event overtaken := ⟨history, [], rfl, by simp⟩

variable {history : List Event} {owner : Owner} {client : UInt64} {cache : SnapshotCache}

theorem Latest.extend {event} {overtaken : Event → Prop} (latest : Latest history event overtaken)
    {next} (harmless : ¬ overtaken next) :
    Latest (history ++ [next]) event overtaken := by
  obtain ⟨before, after, rfl, none⟩ := latest
  refine ⟨before, after ++ [next], by simp, ?_⟩
  intro later member
  rcases mem_snoc.mp member with earlier | now
  · exact none later earlier
  · rwa [now]

/-- One event changes what a client owns only as it says. -/
theorem note_cases (held : Owners) (event : Event) (client : UInt64)
    (now : note held event client = some owner) :
    (event = (.attach client, .done (.ok ())) ∧ owner = ⟨none, none⟩) ∨
    (∃ reservation old, event = (.begin client, .reserved (.ok reservation)) ∧
      held client = some old ∧ owner = ⟨some reservation, old.snapshot⟩) ∨
    (∃ reservation snapshot at_, event = (.install reservation snapshot at_, .done (.ok ())) ∧
      reservation.client = client ∧ owner = ⟨none, some snapshot⟩) ∨
    (¬ Ends client event ∧ ¬ Reserves client event ∧ ¬ Installs client event ∧
      held client = some owner) := by
  unfold note at now
  split at now
  · rename_i other
    by_cases same : client = other
    · subst same
      rw [Function.update_self] at now
      exact .inl ⟨rfl, (Option.some.inj now).symm⟩
    · rw [Function.update_of_ne same] at now
      exact .inr (.inr (.inr ⟨Ne.symm same, id, id, now⟩))
  · rename_i other _
    by_cases same : client = other
    · subst same
      rw [Function.update_self] at now
      cases now
    · rw [Function.update_of_ne same] at now
      exact .inr (.inr (.inr ⟨Ne.symm same, id, id, now⟩))
  · rename_i other reservation
    by_cases same : client = other
    · subst same
      rw [Function.update_self] at now
      obtain ⟨old, before, rfl⟩ := Option.map_eq_some_iff.mp now
      exact .inr (.inl ⟨reservation, old, rfl, before, rfl⟩)
    · rw [Function.update_of_ne same] at now
      exact .inr (.inr (.inr ⟨id, Ne.symm same, id, now⟩))
  · rename_i reservation snapshot at_
    by_cases same : client = reservation.client
    · subst same
      rw [Function.update_self] at now
      obtain ⟨old, before, rfl⟩ := Option.map_eq_some_iff.mp now
      exact .inr (.inr (.inl ⟨reservation, snapshot, at_, rfl, rfl, rfl⟩))
    · rw [Function.update_of_ne same] at now
      exact .inr (.inr (.inr ⟨id, id, Ne.symm same, now⟩))
  · rename_i attached detached begun installed
    refine .inr (.inr (.inr ⟨?_, ?_, ?_, now⟩))
    · unfold Ends
      split
      · exact absurd rfl (attached _)
      · exact absurd rfl (detached _ _)
      · exact id
    · unfold Reserves
      split
      · exact absurd rfl (begun _ _)
      · exact id
    · unfold Installs
      split
      · exact absurd rfl (installed _ _ _)
      · exact id

/-- A client that owns anything attached, and did not leave since. -/
theorem attach_latest (held : owners history client = some owner) :
    Latest history (.attach client, .done (.ok ())) (Ends client) := by
  induction history using List.reverseRecOn generalizing owner with
  | nil => cases held
  | append_singleton earlier event ih =>
      rw [owners_append] at held
      obtain ⟨rfl, _⟩ | ⟨_, old, rfl, before, _⟩ | ⟨_, _, _, rfl, rfl, _⟩ | ⟨stays, _, _, before⟩ :=
        note_cases _ _ _ held
      · exact .last _ _ _
      · exact (ih before).extend id
      · rw [note, Function.update_self] at held
        obtain ⟨old, before, _⟩ := Option.map_eq_some_iff.mp held
        exact (ih before).extend id
      · exact (ih before).extend stays

/-- The reservation a client owns is the last one it was given, and since then
    it neither left nor came back nor had anything installed. -/
theorem reservation_latest {reservation} (held : owners history client = some owner)
    (waiting : owner.reservation = some reservation) :
    Latest history (.begin client, .reserved (.ok reservation))
      fun event => Ends client event ∨ Reserves client event ∨ Installs client event := by
  induction history using List.reverseRecOn generalizing owner with
  | nil => cases held
  | append_singleton earlier event ih =>
      rw [owners_append] at held
      obtain ⟨_, rfl⟩ | ⟨next, old, rfl, before, rfl⟩ | ⟨_, _, _, _, _, rfl⟩ |
        ⟨stays, unreserved, uninstalled, before⟩ := note_cases _ _ _ held
      · cases waiting
      · cases waiting
        exact .last _ _ _
      · cases waiting
      · exact (ih before waiting).extend (by simp [stays, unreserved, uninstalled])

/-- The snapshot a client owns was installed for it in its present attachment. -/
theorem snapshot_latest {snapshot} (held : owners history client = some owner)
    (kept : owner.snapshot = some snapshot) : ∃ reservation at_, reservation.client = client ∧
      Latest history (.install reservation snapshot at_, .done (.ok ()))
        fun event => Ends client event ∨ Installs client event := by
  induction history using List.reverseRecOn generalizing owner with
  | nil => cases held
  | append_singleton earlier event ih =>
      rw [owners_append] at held
      obtain ⟨_, rfl⟩ | ⟨next, old, rfl, before, rfl⟩ | ⟨reservation, _, at_, rfl, mine, rfl⟩ |
        ⟨stays, _, uninstalled, before⟩ := note_cases _ _ _ held
      · cases kept
      · obtain ⟨reservation, at_, mine, latest⟩ := ih before kept
        exact ⟨reservation, at_, mine, latest.extend (by simp [Ends, Installs])⟩
      · cases kept
        exact ⟨reservation, at_, mine, .last _ _ _⟩
      · obtain ⟨reservation, at_, mine, latest⟩ := ih before kept
        exact ⟨reservation, at_, mine, latest.extend (by simp [stays, uninstalled])⟩

theorem Fenced.run {identity limit idle origin}
    (created : SnapshotCache.new identity limit idle = .ok origin)
    (run : Run (answers SnapshotCache.step) origin history cache) :
    Fenced identity (owners history) cache := by
  induction run with
  | start => exact Fenced.start created
  | snoc _ taken ih =>
      rw [owners_append]
      exact ih.step taken

theorem retain_frame (cache : SnapshotCache) (reservation : CaptureReservation) (snapshot : Snapshot)
    (now : Nat) : (cache.retain reservation snapshot now).1.limit = cache.limit ∧
      (cache.retain reservation snapshot now).1.epoch = cache.epoch := by
  unfold retain
  split
  · exact ⟨rfl, rfl⟩
  · dsimp only
    split
    · exact ⟨rfl, rfl⟩
    · split
      · exact ⟨rfl, rfl⟩
      · split <;> exact ⟨rfl, rfl⟩

theorem access_frame (cache : SnapshotCache) (client : UInt64) (wanted pane : String) (now : Nat) :
    (cache.access client wanted pane now).1.limit = cache.limit ∧
      (cache.access client wanted pane now).1.epoch = cache.epoch := by
  unfold access
  split
  · split <;> exact ⟨rfl, rfl⟩
  · exact ⟨rfl, rfl⟩

/-- Only a granted reservation moves the epoch, and it takes the new one. -/
theorem step_epoch {next event} (taken : answers step cache event next) :
    next.limit = cache.limit ∧ ((next.epoch = cache.epoch ∧ ∀ client, ¬ Reserves client event) ∨
      ∃ client reservation, event = (.begin client, .reserved (.ok reservation)) ∧
        reservation.epoch = cache.epoch + 1 ∧ next.epoch = cache.epoch + 1) := by
  obtain ⟨op, answer⟩ := event
  obtain ⟨rfl, rfl⟩ : (step cache op).1 = next ∧ (step cache op).2 = answer := Prod.ext_iff.mp taken
  cases op with
  | attach client =>
      dsimp only [step]
      unfold attach
      split <;> exact ⟨rfl, .inl ⟨rfl, fun _ => id⟩⟩
  | detach client =>
      dsimp only [step]
      unfold detach
      split <;> exact ⟨rfl, .inl ⟨rfl, fun _ => id⟩⟩
  | begin client =>
      dsimp only [step]
      unfold SnapshotCache.begin
      split
      · exact ⟨rfl, .inl ⟨rfl, fun _ => id⟩⟩
      · dsimp only
        split
        · exact ⟨rfl, .inr ⟨client, _, rfl, rfl, rfl⟩⟩
        · exact ⟨rfl, .inl ⟨rfl, fun _ => id⟩⟩
  | install reservation snapshot now =>
      dsimp only [step]
      unfold install
      split
      · have frame := (cache.reap now).retain_frame reservation snapshot now
        exact ⟨frame.1, .inl ⟨frame.2, fun _ => id⟩⟩
      · exact ⟨rfl, .inl ⟨rfl, fun _ => id⟩⟩
  | get client wanted pane now =>
      dsimp only [step]
      unfold get
      split
      · split
        · exact ⟨rfl, .inl ⟨rfl, fun _ => id⟩⟩
        · have frame := (cache.reap now).access_frame client wanted pane now
          exact ⟨frame.1, .inl ⟨frame.2, fun _ => id⟩⟩
      · exact ⟨rfl, .inl ⟨rfl, fun _ => id⟩⟩
  | reap now =>
      exact ⟨rfl, .inl ⟨rfl, fun _ => id⟩⟩

/-- The epoch is never behind a reservation that was granted. -/
theorem epoch_bounds {origin} (run : Run (answers step) origin history cache) :
    cache.limit = origin.limit ∧ ∀ client reservation,
      (.begin client, .reserved (.ok reservation)) ∈ history → reservation.epoch ≤ cache.epoch := by
  induction run with
  | start => exact ⟨rfl, by simp⟩
  | snoc _ taken ih =>
      obtain ⟨limit, bounds⟩ := ih
      obtain ⟨same, moved⟩ := step_epoch taken
      refine ⟨same.trans limit, ?_⟩
      intro client reservation member
      rcases mem_snoc.mp member with earlier | rfl
      · have := bounds client reservation earlier
        rcases moved with ⟨still, _⟩ | ⟨_, _, _, _, later⟩ <;> omega
      · rcases moved with ⟨_, silent⟩ | ⟨_, _, granted, fresh, later⟩
        · exact absurd rfl (silent client)
        · cases granted
          omega

/-- A snapshot that is not expired yet is handed to its client. -/
theorem get_retained {entry kept now} (found : cache.entries.get? client = some entry)
    (held : entry.retained = some kept) (fresh : cache.expired now kept = false) {pane}
    (asked : pane = "" ∨ pane = kept.snapshot.pane) :
    (cache.get client kept.snapshot.id pane now).2 = .ok kept.snapshot := by
  have valid : historyRequest pane 0 1 = .ok () := by
    rcases asked with rfl | rfl
    · rfl
    · exact kept.snapshot.resolved
  have present : (cache.reap now).entries.get? client = some (cache.reapEntry now entry) := by
    simp [reap, found]
  have retained := reapEntry_retained.mpr ⟨held, fresh⟩
  unfold get access
  rw [if_pos kept.snapshot.named, valid]
  generalize cache.reapEntry now entry = reaped at present retained
  obtain ⟨pending, _⟩ := reaped
  obtain rfl := retained
  simp only [present, true_and]
  rw [if_pos asked]

/-- Storage is counted exactly and within the limit, only attached clients have an
    entry or are given a reservation, a capture is retained only for the reservation
    its client waits for, clients read only their own snapshots, and a refused
    capture costs nobody a snapshot. -/
theorem captures_are_fenced {identity : String} {limit : UInt64} {idle : Nat}
    {origin cache : SnapshotCache} {history : List Event}
    (created : SnapshotCache.new identity limit idle = .ok origin)
    (run : Run (answers step) origin history cache) :
    (cache.used = cache.total ∧ cache.used ≤ limit.toNat ∧
      ∀ client entry, cache.entries.get? client = some entry → entry.bytes ≤ cache.used) ∧
    (∀ client entry, cache.entries.get? client = some entry →
      Latest history (.attach client, .done (.ok ())) (Ends client)) ∧
    (∀ client entry kept, cache.entries.get? client = some entry → entry.retained = some kept →
      ∃ reservation at_, reservation.client = client ∧
        Latest history (.install reservation kept.snapshot at_, .done (.ok ()))
          fun event => Ends client event ∨ Installs client event) ∧
    (∀ client next reservation, cache.begin client = (next, .ok reservation) →
      Latest history (.attach client, .done (.ok ())) (Ends client) ∧
        reservation.cache = identity ∧ reservation.client = client ∧
        ∀ other, (.begin other, .reserved (.ok reservation)) ∉ history) ∧
    (∀ reservation snapshot now next, cache.install reservation snapshot now = (next, .ok ()) →
      Latest history (.begin reservation.client, .reserved (.ok reservation)) fun event =>
        Ends reservation.client event ∨ Reserves reservation.client event ∨
          Installs reservation.client event) ∧
    (∀ client wanted pane now next snapshot,
      cache.get client wanted pane now = (next, .ok snapshot) →
      snapshot.id = wanted ∧ (pane = "" ∨ pane = snapshot.pane) ∧
        ∃ reservation at_, reservation.client = client ∧
          Latest history (.install reservation snapshot at_, .done (.ok ()))
            fun event => Ends client event ∨ Installs client event) ∧
    ∀ reservation snapshot now next message,
      cache.install reservation snapshot now = (next, .error message) →
      ∀ client entry kept, cache.entries.get? client = some entry → entry.retained = some kept →
      cache.expired now kept = false → ∀ pane later, pane = "" ∨ pane = kept.snapshot.pane →
      cache.expired later kept = false →
        (next.get client kept.snapshot.id pane later).2 = .ok kept.snapshot := by
  have fenced := Fenced.run created run
  have bounds := epoch_bounds run
  have limited : cache.limit = limit := by
    simp only [SnapshotCache.new, bind_eq_ok, pure_eq_ok] at created
    obtain ⟨_, _, rfl⟩ := created
    exact bounds.1
  have present : ∀ client entry, cache.entries.get? client = some entry →
      Latest history (.attach client, .done (.ok ())) (Ends client) := by
    intro client entry found
    obtain ⟨owner, owned, _⟩ := fenced.owned found
    exact attach_latest owned
  refine ⟨⟨fenced.accounted.exact, limited ▸ fenced.accounted.within, ?_⟩, present, ?_, ?_, ?_, ?_,
    ?_⟩
  · intro client entry found
    exact (bytes_le_total found).trans_eq fenced.accounted.exact.symm
  · intro client entry kept found held
    obtain ⟨owner, owned, _, _, retained⟩ := fenced.owned found
    exact snapshot_latest owned (retained kept held)
  · intro client next reservation called
    have taken : answers step cache (.begin client, .reserved (.ok reservation)) next := by
      simp [answers, step, called]
    obtain ⟨_, ⟨_, silent⟩ | ⟨_, _, granted, fresh, _⟩⟩ := step_epoch taken
    · exact absurd rfl (silent client)
    · cases granted
      have unused : ∀ other, (.begin other, .reserved (.ok reservation)) ∉ history := by
        intro other member
        have := bounds.2 other reservation member
        omega
      unfold SnapshotCache.begin at called
      split at called
      · cases called
      · rename_i entry found
        dsimp only at called
        split at called
        · cases called
          exact ⟨present client entry found, fenced.named, rfl, unused⟩
        · cases called
  · intro reservation snapshot now next called
    obtain ⟨_, ⟨_, failed, _⟩ | ⟨_, owner, held, waiting⟩⟩ := fenced.install called
    · cases failed
    · exact reservation_latest held waiting
  · intro client wanted pane now next snapshot called
    obtain ⟨same, asked, owner, held, kept⟩ := (fenced.get called).2 snapshot rfl
    exact ⟨same, asked, snapshot_latest held kept⟩
  · intro reservation snapshot now next message called client entry kept found held fresh pane later
      asked stillFresh
    obtain ⟨_, ⟨_, _, rfl | rfl⟩ | ⟨succeeded, _⟩⟩ := fenced.install called
    · exact get_retained found held stillFresh asked
    · have present : (cache.reap now).entries.get? client = some (cache.reapEntry now entry) := by
        simp [reap, found]
      exact get_retained present (reapEntry_retained.mpr ⟨held, fresh⟩) stillFresh asked
    · cases succeeded

/-- A cache of 100 bytes, and one line of history. -/
def exampleCache : SnapshotCache := ⟨"cache", .empty, 0, 0, 100, seconds 600⟩

def exampleSnapshot : Snapshot where
  id := "aaaaaaaaaaaaaaaaaaaaaaaaaaaaaaaa"
  pane := "%0"
  bytes := [104, 105, 10]
  offsets := [0, 3]
  named := by decide
  resolved := rfl
  bounded := by decide

def exampleOps : List Op :=
  [.attach 7, .begin 7, .install ⟨"cache", 7, 1⟩ exampleSnapshot (seconds 5)]

theorem installed_page_is_owned :
    ((feed step exampleCache exampleOps).2.get 7 exampleSnapshot.id "%0" (seconds 6)).2 =
      .ok exampleSnapshot ∧
    ∃ reservation at_, reservation.client = 7 ∧
      Latest (feed step exampleCache exampleOps).1
        (.install reservation exampleSnapshot at_, .done (.ok ()))
        fun event => Ends 7 event ∨ Installs 7 event := by
  have read : ((feed step exampleCache exampleOps).2.get 7 exampleSnapshot.id "%0" (seconds 6)).2 =
      .ok exampleSnapshot := rfl
  have created : SnapshotCache.new "cache" 100 (seconds 600) = .ok exampleCache := rfl
  have fenced := captures_are_fenced created (feed_run step exampleCache exampleOps)
  exact ⟨read, (fenced.2.2.2.2.2.1 7 _ "%0" (seconds 6) _ _ (Prod.ext rfl read)).2.2⟩

end PortHub.Terminal.SnapshotCache
