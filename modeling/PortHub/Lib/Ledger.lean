import PortHub.Lib.Runs

/-! # Lives of table entries

A table binds keys to entries that begin, go on and end while the table runs. A
ledger beside it notes for every key what its present entry has received since it
began. The ledger never decides anything: it is there to state what an entry is
as a function of its own past.
-/

namespace Ledger

open Runs

variable {κ α τ σ ι ο : Type}

/-- What one step does to the entry under a key. -/
inductive Turn (τ : Type) where
  /-- The entry is left alone, or dropped. -/
  | stays
  | begins (item : τ)
  | goesOn (item : τ)

def Turn.record : Turn τ → List τ → List τ
  | .stays, log => log
  | .begins item, _ => [item]
  | .goesOn item, log => log ++ [item]

/-- An entry with everything it has received. -/
inductive Lives (begins : τ → α → Prop) (goesOn : α → τ → α → Prop) : List τ → α → Prop where
  | begun {item entry} (new : begins item entry) : Lives begins goesOn [item] entry
  | gone {log entry item next} (earlier : Lives begins goesOn log entry)
      (moved : goesOn entry item next) : Lives begins goesOn (log ++ [item]) next

/-- The turn accounts for the entry found after a step. -/
def Turn.Explains (begins : τ → α → Prop) (goesOn : α → τ → α → Prop) (before after : Option α) :
    Turn τ → Prop
  | .stays => ∀ entry, after = some entry → before = some entry
  | .begins item => ∀ entry, after = some entry → begins item entry
  | .goesOn item => ∀ next, after = some next → ∃ entry, before = some entry ∧ goesOn entry item next

variable {begins : τ → α → Prop} {goesOn : α → τ → α → Prop}

theorem Turn.Explains.lives {turn : Turn τ} {before after log}
    (explained : turn.Explains begins goesOn before after)
    (lived : ∀ entry, before = some entry → Lives begins goesOn log entry) :
    ∀ entry, after = some entry → Lives begins goesOn (turn.record log) entry := by
  intro entry found
  cases turn with
  | stays => exact lived entry (explained entry found)
  | begins item => exact .begun (explained entry found)
  | goesOn item =>
      obtain ⟨earlier, present, moved⟩ := explained entry found
      exact .gone (lived earlier present) moved

/-- The item of a log with which a property of the log came to hold first. -/
def FirstAt (holds : List τ → Bool) (log : List τ) (item : τ) : Prop :=
  ∃ before after, log = before ++ item :: after ∧ holds before = false ∧
    holds (before ++ [item]) = true

theorem FirstAt.here {holds : List τ → Bool} {log item} (open_ : holds log = false)
    (now : holds (log ++ [item]) = true) : FirstAt holds (log ++ [item]) item :=
  ⟨log, [], rfl, open_, now⟩

theorem FirstAt.snoc {holds : List τ → Bool} {log item} (first : FirstAt holds log item) (more : τ) :
    FirstAt holds (log ++ [more]) item := by
  obtain ⟨before, after, rfl, open_, now⟩ := first
  exact ⟨before, after ++ [more], by simp, open_, now⟩

/-- A component with a ledger beside it. -/
def logged (machine : σ → ι → σ × ο) (turn : σ → ι → κ → Turn τ) (state : σ × (κ → List τ))
    (input : ι) : (σ × (κ → List τ)) × ο :=
  (((machine state.1 input).1, fun key => (turn state.1 input key).record (state.2 key)),
    (machine state.1 input).2)

variable {machine : σ → ι → σ × ο} {turn : σ → ι → κ → Turn τ} {origin : σ}

/-- The ledger only watches: every run of the component is one with a ledger. -/
theorem logged_run (turn : σ → ι → κ → Turn τ) {history s}
    (run : Run (answers machine) origin history s) :
    ∃ log, Run (answers (logged machine turn)) (origin, fun _ => []) history (s, log) := by
  induction run with
  | start => exact ⟨_, .start⟩
  | @snoc history s event t _ taken ih =>
      obtain ⟨log, run⟩ := ih
      refine ⟨fun key => (turn s event.1 key).record (log key), run.snoc ?_⟩
      unfold answers at taken ⊢
      simp only [logged, taken]

/-- Every entry of a running table has lived through what the ledger says. -/
theorem lives_of_run {begins : κ → τ → α → Prop} {goesOn : κ → α → τ → α → Prop}
    (entries : σ → κ → Option α) (empty : ∀ key, entries origin key = none)
    (explains : ∀ s input key, (turn s input key).Explains (begins key) (goesOn key)
      (entries s key) (entries (machine s input).1 key)) {history s} {log : κ → List τ}
    (run : Run (answers (logged machine turn)) (origin, fun _ => []) history (s, log)) {key entry}
    (found : entries s key = some entry) :
    Lives (begins key) (goesOn key) (log key) entry := by
  let lived (_ : List (ι × ο)) (state : σ × (κ → List τ)) : Prop := ∀ key entry,
    entries state.1 key = some entry → Lives (begins key) (goesOn key) (state.2 key) entry
  have all : lived history (s, log) := by
    apply run.historyInvariant
    · intro key entry present
      rw [empty key] at present
      cases present
    · intro _ state event next _ lived taken key
      obtain rfl := taken.next
      exact (explains state.1 event.1 key).lives (lived key)
  exact all key entry found

end Ledger
