import Mathlib.Data.Fintype.EquivFin
import PortHub.Lib.Runs

/-! # Watched synchronisation

The callback of the watcher notes the changed paths and asks for attention through a
channel with one place; the loop takes what was noted as a whole and uploads it. Both
hold the lock while they touch the notes and the channel together, so that each of the
two is one step here.
-/

namespace PortHub.Transfer.Watching

open Runs

/-- A path, by its components. -/
abbrev Path := List String

structure Dirty where
  full : Bool
  paths : Finset Path
  deriving DecidableEq

/-- `Dirty::default`. -/
def Dirty.empty : Dirty := ⟨false, ∅⟩

def Dirty.isEmpty (dirty : Dirty) : Prop := dirty.full = false ∧ dirty.paths = ∅

instance (dirty : Dirty) : Decidable dirty.isEmpty := inferInstanceAs (Decidable (_ ∧ _))

/-- What the watcher reports. -/
inductive Report where
  | error
  | event (access needRescan : Bool) (paths : List Path)
  deriving DecidableEq

section Callback

variable (watchedRoot : Path)

def Dirty.note (dirty : Dirty) (path : Path) : Dirty :=
  if path = watchedRoot then { dirty with full := true }
  else if watchedRoot <+: path ∧ dirty.full = false then { dirty with paths := insert path dirty.paths }
  else dirty

/-- The notes after the report was matched. -/
def Dirty.report (dirty : Dirty) : Report → Dirty
  | .event _ needRescan paths =>
      if needRescan = false ∧ paths ≠ [] then
        let dirty := paths.foldl (Dirty.note watchedRoot) dirty
        if 1024 < dirty.paths.card then { dirty with full := true } else dirty
      else { dirty with full := true }
  | .error => { dirty with full := true }

/-- The callback, and whether it asks for attention. -/
def callback (dirty : Dirty) (report : Report) : Dirty × Bool :=
  match report with
  | .event true _ _ => (dirty, false)
  | report =>
      let dirty := dirty.report watchedRoot report
      let dirty := if dirty.full then { dirty with paths := ∅ } else dirty
      (dirty, decide (¬ dirty.isEmpty))

end Callback

/-- Where the loop is. -/
inductive Phase where
  | looping
  /-- It found nothing and waits for an event. -/
  | idle
  | running (changes : Dirty)
  /-- The run has ended; the status is about to be written. -/
  | ended (changes : Dirty) (ok : Bool)
  | backoff
  /-- It waits for an event after a run. -/
  | resting
  /-- It gathers more events until a timer ends. -/
  | debouncing
  | stopped
  deriving DecidableEq

structure World where
  dirty : Dirty
  /-- The place of the channel is taken. -/
  queued : Bool
  phase : Phase
  deriving DecidableEq

def World.new : World := ⟨⟨true, ∅⟩, false, .looping⟩

inductive Label where
  | report (report : Report)
  /-- The loop takes the notes and finds nothing. -/
  | rest
  /-- The loop takes the notes and starts a run for them. -/
  | start (changes : Dirty)
  | receive
  | finish (ok : Bool)
  /-- The result of a run is dealt with. -/
  | settle
  | timer
  | cancel
  deriving DecidableEq

def Phase.receive : Phase → Option Phase
  | .idle => some .looping
  | .resting => some .debouncing
  | .debouncing => some .debouncing
  | _ => none

def Phase.timer : Phase → Option Phase
  | .backoff => some .looping
  | .debouncing => some .looping
  | _ => none

/-- The loop hears of a cancellation wherever it waits. -/
def Phase.cancelled : Phase → Option Phase
  | .idle | .running _ | .backoff | .resting | .debouncing => some .stopped
  | _ => none

def World.step (watchedRoot : Path) (world : World) : Label → Option World
  | .report report =>
      let (dirty, send) := callback watchedRoot world.dirty report
      some { world with dirty, queued := world.queued || send }
  | .rest =>
      if world.phase = .looping ∧ world.dirty.isEmpty then some ⟨.empty, false, .idle⟩ else none
  | .start changes =>
      if world.phase = .looping ∧ world.dirty = changes ∧ ¬ changes.isEmpty then
        some ⟨.empty, false, .running changes⟩
      else none
  | .receive =>
      if world.queued then world.phase.receive.map fun phase => { world with queued := false, phase } else none
  | .finish ok =>
      match world.phase with
      | .running changes => some { world with phase := .ended changes ok }
      | _ => none
  | .settle =>
      match world.phase with
      | .ended _ true => some { world with phase := .resting }
      | .ended _ false => some { world with dirty := { world.dirty with full := true }, phase := .backoff }
      | _ => none
  | .timer => world.phase.timer.map fun phase => { world with phase }
  | .cancel => world.phase.cancelled.map fun phase => { world with phase }

section Notes

variable {watchedRoot : Path} {dirty : Dirty} {path : Path} {report : Report}

/-- The next run for these notes uploads the path. -/
def Dirty.Notes (dirty : Dirty) (path : Path) : Prop := dirty.full = true ∨ path ∈ dirty.paths

/-- The watcher reports a change of a path in the watched directory. -/
def Report.Changes (watchedRoot : Path) (report : Report) (path : Path) : Prop :=
  ∃ needRescan paths, report = .event false needRescan paths ∧ path ∈ paths ∧ watchedRoot <+: path

theorem Dirty.Notes.not_empty (notes : dirty.Notes path) : ¬ dirty.isEmpty := by
  rintro ⟨part, none⟩
  rcases notes with full | inside
  · cases part.symm.trans full
  · simp [none] at inside

theorem Dirty.note_keeps {other} (notes : dirty.Notes path) :
    (dirty.note watchedRoot other).Notes path := by
  unfold Dirty.note
  split
  · exact .inl rfl
  · split
    · rcases notes with full | inside
      · exact .inl full
      · exact .inr (Finset.mem_insert_of_mem inside)
    · exact notes

theorem Dirty.note_self (inside : watchedRoot <+: path) : (dirty.note watchedRoot path).Notes path := by
  unfold Dirty.note
  split
  · exact .inl rfl
  · split
    · exact .inr (Finset.mem_insert_self _ _)
    · rename_i other
      refine .inl ?_
      by_contra part
      exact other ⟨inside, by simpa using part⟩

theorem Dirty.foldl_keeps {paths : List Path} (notes : dirty.Notes path) :
    (paths.foldl (Dirty.note watchedRoot) dirty).Notes path := by
  induction paths generalizing dirty with
  | nil => exact notes
  | cons other paths ih => exact ih (note_keeps notes)

theorem Dirty.foldl_notes {paths : List Path} (member : path ∈ paths) (inside : watchedRoot <+: path) :
    (paths.foldl (Dirty.note watchedRoot) dirty).Notes path := by
  induction paths generalizing dirty with
  | nil => cases member
  | cons other paths ih =>
      rcases List.mem_cons.mp member with rfl | later
      · rw [List.foldl_cons]
        exact foldl_keeps (note_self inside)
      · exact ih later

/-- A report notes its paths and keeps what was noted. -/
theorem Dirty.report_notes (noted : dirty.Notes path ∨ report.Changes watchedRoot path) :
    (dirty.report watchedRoot report).Notes path := by
  unfold Dirty.report
  split
  · split
    · have folded : ∀ paths : List Path, (dirty.Notes path ∨ (path ∈ paths ∧ watchedRoot <+: path)) →
          (paths.foldl (Dirty.note watchedRoot) dirty).Notes path := by
        rintro paths (before | ⟨member, inside⟩)
        · exact foldl_keeps before
        · exact foldl_notes member inside
      dsimp only
      split
      · exact .inl rfl
      · refine folded _ (noted.imp_right ?_)
        rintro ⟨_, _, same, member, inside⟩
        cases same
        exact ⟨member, inside⟩
    · exact .inl rfl
  · exact .inl rfl

theorem callback_notes (noted : dirty.Notes path ∨ report.Changes watchedRoot path) :
    (callback watchedRoot dirty report).1.Notes path := by
  unfold callback
  split
  · rcases noted with before | ⟨_, _, same, _⟩
    · exact before
    · cases same
  · have kept := @Dirty.report_notes watchedRoot dirty path report noted
    dsimp only
    split
    · exact .inl ‹_›
    · exact kept

/-- Only a full pass covers every path. -/
theorem Dirty.full_iff : dirty.full = true ↔ ∀ path, dirty.Notes path := by
  refine ⟨fun full _ => .inl full, fun all => ?_⟩
  obtain ⟨path, outside⟩ := Infinite.exists_notMem_finset dirty.paths
  exact (all path).resolve_right outside

/-- The callback asks for attention whenever it leaves notes of its own. -/
theorem callback_sends : (callback watchedRoot dirty report) = (dirty, false) ∨
    (callback watchedRoot dirty report).1.isEmpty ∨ (callback watchedRoot dirty report).2 = true := by
  unfold callback
  split
  · exact .inl rfl
  · dsimp only
    refine .inr ?_
    rw [decide_eq_true_eq]
    exact Classical.em _

end Notes

section Steps

variable {watchedRoot : Path} {world next : World} {path : Path} {label : Label}

theorem World.step_report {report} : world.step watchedRoot (.report report) =
    some { world with
      dirty := (callback watchedRoot world.dirty report).1
      queued := world.queued || (callback watchedRoot world.dirty report).2 } := rfl

/-- While a run is under way or the loop waits for an event, notes have their event. -/
def World.Attended (world : World) : Prop :=
  world.phase = .looping ∨ world.phase = .backoff ∨ world.phase = .debouncing ∨ world.phase = .stopped ∨
    world.dirty.isEmpty ∨ world.queued = true

theorem World.Attended.step (attended : world.Attended) (taken : world.step watchedRoot label = some next) :
    next.Attended := by
  cases label with
  | report report =>
      rw [World.step_report] at taken
      cases taken
      rcases attended with phase | phase | phase | phase | empty | queued
      · exact .inl phase
      · exact .inr (.inl phase)
      · exact .inr (.inr (.inl phase))
      · exact .inr (.inr (.inr (.inl phase)))
      · rcases @callback_sends watchedRoot world.dirty report with same | none | sends
        · refine .inr (.inr (.inr (.inr (.inl ?_))))
          rw [same]
          exact empty
        · exact .inr (.inr (.inr (.inr (.inl none))))
        · exact .inr (.inr (.inr (.inr (.inr (by simp [sends])))))
      · exact .inr (.inr (.inr (.inr (.inr (by simp [queued])))))
  | rest | start changes =>
      simp only [World.step, Option.ite_none_right_eq_some, Option.some.injEq] at taken
      rw [← taken.2]
      exact .inr (.inr (.inr (.inr (.inl ⟨rfl, rfl⟩))))
  | receive =>
      simp only [World.step, Option.ite_none_right_eq_some, Option.map_eq_some_iff] at taken
      obtain ⟨_, phase, moved, rfl⟩ := taken
      cases shape : world.phase <;> rw [shape] at moved <;> cases moved <;> simp [World.Attended]
  | finish ok =>
      simp only [World.step] at taken
      split at taken
      · rename_i changes phase
        cases taken
        simpa [World.Attended, phase] using attended
      · cases taken
  | settle =>
      simp only [World.step] at taken
      split at taken
      · rename_i phase
        cases taken
        simpa [World.Attended, phase] using attended
      · cases taken
        exact .inr (.inl rfl)
      · cases taken
  | timer | cancel =>
      simp only [World.step, Option.map_eq_some_iff] at taken
      obtain ⟨phase, moved, rfl⟩ := taken
      cases shape : world.phase <;> rw [shape] at moved <;> cases moved <;> simp [World.Attended]

/-- The run under way uploads the path. -/
def World.Uploads (world : World) (path : Path) : Prop :=
  ∃ changes, (world.phase = .running changes ∨ world.phase = .ended changes false) ∧ changes.Notes path

/-- The steps behind a report hold a run that succeeded. -/
def Synced (later : List Label) : Prop :=
  ∃ before changes after, later = before ++ .start changes :: after ∧ .finish true ∈ after

theorem Synced.append {later more} (synced : Synced later) : Synced (later ++ more) := by
  obtain ⟨before, changes, after, rfl, done⟩ := synced
  exact ⟨before, changes, after ++ more, by simp, List.mem_append_left _ done⟩

/-- The path of a report waits to be taken, or the run that took it is under way. -/
def World.Keeps (world : World) (later : List Label) (path : Path) : Prop :=
  world.phase = .stopped ∨ world.dirty.Notes path ∨
    (world.Uploads path ∧ ∃ changes, .start changes ∈ later)

/-- The loop is not at work for a run that may fail, and not stopped. -/
def Phase.waits : Phase → Bool
  | .running _ | .ended _ false | .stopped => false
  | _ => true

theorem World.Keeps.noted {later} (keeps : world.Keeps later path)
    (waits : world.phase.waits = true) : world.dirty.Notes path := by
  rcases keeps with stopped | notes | ⟨⟨_, running | running, _⟩, _⟩
  · rw [stopped] at waits
    cases waits
  · exact notes
  · rw [running] at waits
    cases waits
  · rw [running] at waits
    cases waits

theorem World.Keeps.step {later} (keeps : world.Keeps later path)
    (taken : world.step watchedRoot label = some next) (unsynced : ¬ Synced (later ++ [label])) :
    next.Keeps (later ++ [label]) path := by
  have earlier (started : ∃ changes, .start changes ∈ later) :
      ∃ changes, .start changes ∈ later ++ [label] := by
    obtain ⟨changes, member⟩ := started
    exact ⟨changes, List.mem_append_left _ member⟩
  cases label with
  | report report =>
      cases taken
      rcases keeps with stopped | notes | ⟨uploads, started⟩
      · exact .inl stopped
      · exact .inr (.inl (callback_notes (.inl notes)))
      · exact .inr (.inr ⟨uploads, earlier started⟩)
  | rest =>
      simp only [World.step, Option.ite_none_right_eq_some, Option.some.injEq] at taken
      obtain ⟨⟨phase, empty⟩, rfl⟩ := taken
      have notes := keeps.noted (by rw [phase]; rfl)
      exact absurd empty notes.not_empty
  | start changes =>
      simp only [World.step, Option.ite_none_right_eq_some, Option.some.injEq] at taken
      obtain ⟨⟨phase, rfl, _⟩, rfl⟩ := taken
      have notes := keeps.noted (by rw [phase]; rfl)
      exact .inr (.inr ⟨⟨_, .inl rfl, notes⟩, world.dirty, by simp⟩)
  | receive =>
      simp only [World.step, Option.ite_none_right_eq_some, Option.map_eq_some_iff] at taken
      obtain ⟨_, phase, moved, rfl⟩ := taken
      refine .inr (.inl (keeps.noted ?_))
      cases shape : world.phase <;> rw [shape] at moved <;> cases moved <;> rfl
  | finish ok =>
      simp only [World.step] at taken
      split at taken
      · rename_i changes phase
        cases taken
        rcases keeps with stopped | notes | ⟨⟨other, running | running, notes⟩, started⟩
        · cases phase.symm.trans stopped
        · exact .inr (.inl notes)
        · cases ok with
          | true =>
              -- the run started behind the report
              obtain ⟨first, member⟩ := started
              obtain ⟨before, after, rfl⟩ := List.append_of_mem member
              exact absurd ⟨before, first, after ++ [.finish true], by simp, by simp⟩ unsynced
          | false =>
              cases phase.symm.trans running
              exact .inr (.inr ⟨⟨changes, .inr rfl, notes⟩, earlier started⟩)
        · cases phase.symm.trans running
      · cases taken
  | settle =>
      simp only [World.step] at taken
      split at taken
      · rename_i phase
        cases taken
        refine .inr (.inl (keeps.noted ?_))
        rw [phase]
        rfl
      · cases taken
        exact .inr (.inl (.inl rfl))
      · cases taken
  | timer =>
      simp only [World.step, Option.map_eq_some_iff] at taken
      obtain ⟨phase, moved, rfl⟩ := taken
      refine .inr (.inl (keeps.noted ?_))
      cases shape : world.phase <;> rw [shape] at moved <;> cases moved <;> rfl
  | cancel =>
      simp only [World.step, Option.map_eq_some_iff] at taken
      obtain ⟨phase, moved, rfl⟩ := taken
      cases shape : world.phase <;> rw [shape] at moved <;> cases moved <;> exact .inl rfl

/-- After a failed run only time passes before a full pass. -/
def World.Recovers (world : World) : Prop :=
  (∃ changes, world.phase = .ended changes false) ∨ world.phase = .stopped ∨
    ((world.phase = .backoff ∨ world.phase = .looping) ∧ world.dirty.full = true)

theorem World.Recovers.step (recovers : world.Recovers) (taken : world.step watchedRoot label = some next) :
    (∃ changes, label = .start changes ∧ changes.full = true) ∨ next.Recovers := by
  cases label with
  | report report =>
      cases taken
      rcases recovers with ended | stopped | ⟨phase, full⟩
      · exact .inr (.inl ended)
      · exact .inr (.inr (.inl stopped))
      · refine .inr (.inr (.inr ⟨phase, Dirty.full_iff.mpr fun path => ?_⟩))
        exact callback_notes (.inl (Dirty.full_iff.mp full path))
  | rest =>
      simp only [World.step, Option.ite_none_right_eq_some, Option.some.injEq] at taken
      obtain ⟨⟨phase, empty⟩, rfl⟩ := taken
      simp only [World.Recovers, phase, empty.1, reduceCtorEq, exists_false, Bool.false_eq_true,
        and_false, or_self] at recovers
  | start changes =>
      simp only [World.step, Option.ite_none_right_eq_some, Option.some.injEq] at taken
      obtain ⟨⟨phase, rfl, _⟩, rfl⟩ := taken
      simp only [World.Recovers, phase, reduceCtorEq, exists_false, false_or, or_true, true_and] at recovers
      exact .inl ⟨_, rfl, recovers⟩
  | receive =>
      simp only [World.step, Option.ite_none_right_eq_some, Option.map_eq_some_iff] at taken
      obtain ⟨_, phase, moved, rfl⟩ := taken
      rcases recovers with ⟨_, shape⟩ | shape | ⟨shape | shape, _⟩ <;> rw [shape] at moved <;> cases moved
  | finish ok =>
      simp only [World.step] at taken
      split at taken
      · rename_i changes phase
        simp only [World.Recovers, phase, reduceCtorEq, exists_false, or_self, false_and] at recovers
      · cases taken
  | settle =>
      simp only [World.step] at taken
      split at taken
      · rename_i phase
        simp only [World.Recovers, phase, reduceCtorEq, Phase.ended.injEq, Bool.true_eq_false, and_false,
          exists_false, or_self, false_and] at recovers
      · cases taken
        exact .inr (.inr (.inr ⟨.inl rfl, rfl⟩))
      · cases taken
  | timer =>
      simp only [World.step, Option.map_eq_some_iff] at taken
      obtain ⟨phase, moved, rfl⟩ := taken
      rcases recovers with ⟨_, shape⟩ | shape | ⟨shape | shape, full⟩ <;> rw [shape] at moved <;> cases moved
      exact .inr (.inr (.inr ⟨.inr rfl, full⟩))
  | cancel =>
      simp only [World.step, Option.map_eq_some_iff] at taken
      obtain ⟨phase, moved, rfl⟩ := taken
      cases shape : world.phase <;> rw [shape] at moved <;> cases moved <;> exact .inr (.inr (.inl rfl))

end Steps

section Runs

variable {watchedRoot : Path} {world : World} {history earlier later : List Label}

/-- The steps of the callback and the loop, in any order. -/
def Steps (watchedRoot : Path) (world : World) (label : Label) (next : World) : Prop :=
  world.step watchedRoot label = some next

theorem run_attended (run : Run (Steps watchedRoot) .new history world) : world.Attended :=
  @Run.historyInvariant _ _ _ _ (fun _ => World.Attended) (.inl rfl)
    (fun _ _ _ _ _ before taken => before.step taken) _ _ run

theorem run_keeps {report path} (run : Run (Steps watchedRoot) .new
      (earlier ++ .report report :: later) world) (reported : report.Changes watchedRoot path)
    (unsynced : ¬ Synced later) : world.Keeps later path := by
  obtain ⟨before, after, _, taken, rest⟩ := run.splitAt
  cases taken
  have invariant := @Run.historyInvariant _ _ _ _
    (fun later world => ¬ Synced later → World.Keeps world later path)
    (fun _ => .inr (.inl (callback_notes (.inr reported))))
    (fun later s label t _ keeps taken unsynced =>
      (keeps fun synced => unsynced synced.append).step taken unsynced) _ _ rest
  exact invariant unsynced

theorem run_recovers (run : Run (Steps watchedRoot) .new (earlier ++ .finish false :: later) world)
    (waiting : ∀ changes, .start changes ∉ later) : world.Recovers := by
  obtain ⟨before, after, _, taken, rest⟩ := run.splitAt
  have ended : after.Recovers := by
    simp only [Steps, World.step] at taken
    split at taken
    · cases taken
      exact .inl ⟨_, rfl⟩
    · cases taken
  have invariant := @Run.historyInvariant _ _ _ _
    (fun later world => (∀ changes, .start changes ∉ later) → World.Recovers world) (fun _ => ended)
    (fun later s label t _ recovers taken waiting => by
      rcases (recovers fun changes member => waiting changes (List.mem_append_left _ member)).step taken with
        ⟨changes, rfl, _⟩ | recovers
      · exact absurd (List.mem_append_right later (List.mem_singleton_self _)) (waiting changes)
      · exact recovers) _ _ rest
  exact invariant waiting

end Runs

/-- No change is forgotten: the loop never waits for an event while something is noted
    and no event is there; a reported path stays noted, or in the run under way, until a run
    behind the report has succeeded; and the run behind a failed one is a full pass, which
    the loop does not wait for an event to start. -/
theorem no_change_is_forgotten (watchedRoot : Path) (history : List Label) (world : World)
    (run : Run (Steps watchedRoot) .new history world) :
    (world.phase = .idle ∨ world.phase = .resting → ¬ world.dirty.isEmpty → world.queued = true) ∧
    (∀ earlier report later path, history = earlier ++ .report report :: later →
      report.Changes watchedRoot path → ¬ Synced later → world.phase ≠ .stopped →
      path ∈ world.dirty.paths ∨ world.dirty.full = true ∨ world.Uploads path) ∧
    (∀ earlier later changes rest, history = earlier ++ .finish false :: (later ++ .start changes :: rest) →
      (∀ other, .start other ∉ later) → changes.full = true) ∧
    (∀ earlier later, history = earlier ++ .finish false :: later → (∀ other, .start other ∉ later) →
      world.Recovers) := by
  refine ⟨fun waits noted => ?_, ?_, ?_, ?_⟩
  · rcases run_attended run with phase | phase | phase | phase | empty | queued
    iterate 4
      rw [phase] at waits
      simp at waits
    · exact absurd empty noted
    · exact queued
  · rintro earlier report later path rfl reported unsynced running
    rcases run_keeps run reported unsynced with stopped | (full | inside) | ⟨uploads, _⟩
    · exact absurd stopped running
    · exact .inr (.inl full)
    · exact .inl inside
    · exact .inr (.inr uploads)
  · rintro earlier later changes rest rfl waiting
    rw [← List.cons_append, ← List.append_assoc] at run
    obtain ⟨before, after, prior, taken, _⟩ := run.splitAt
    rcases (run_recovers prior waiting).step taken with ⟨_, same, full⟩ | recovers
    · cases same
      exact full
    · simp only [Steps, World.step, Option.ite_none_right_eq_some, Option.some.injEq] at taken
      rw [← taken.2] at recovers
      simp [World.Recovers] at recovers
  · rintro earlier later rfl waiting
    exact run_recovers run waiting

/-- The first pass fails while a file changes. -/
def unluckyStart : List Label :=
  [.start ⟨true, ∅⟩, .report (.event false false [["home", "notes"]]), .finish false, .settle, .timer]

theorem change_survives_a_failure : ∃ world, Run (Steps ["home"]) .new unluckyStart world ∧
    world.phase = .looping ∧ world.dirty.full = true ∧ world.Recovers := by
  obtain ⟨world, ended, shape⟩ := Option.map_eq_some_iff.mp (show (unluckyStart.foldlM
    (World.step ["home"]) .new).map (fun world => (world.phase, world.dirty.full)) = some (.looping, true) by
      decide)
  have run : Run (Steps ["home"]) .new unluckyStart world := .of_foldlM ended
  obtain ⟨phase, full⟩ := Prod.mk.inj shape
  have promises := no_change_is_forgotten ["home"] unluckyStart world run
  exact ⟨world, run, phase, full, promises.2.2.2
    [.start ⟨true, ∅⟩, .report (.event false false [["home", "notes"]])] [.settle, .timer] rfl (by simp)⟩

end PortHub.Transfer.Watching
