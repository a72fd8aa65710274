import Mathlib.Data.List.Basic

/-! # Runs of labelled transition systems

A run records every label in the order it was taken. Properties of whole runs
are derived from one step by an invariant that sees the history. Deterministic
components give their step as a function that returns an output.
-/

namespace Runs

variable {σ ε ι ο : Type}

theorem mem_snoc {history : List ε} {event label : ε} :
    event ∈ history ++ [label] ↔ event ∈ history ∨ event = label := by
  rw [List.mem_append, List.mem_singleton]

/-- A label of a longer history is the last one, or one of the history. -/
theorem split_snoc {history before after : List ε} {event label : ε}
    (whole : history ++ [label] = before ++ event :: after) :
    (history = before ∧ label = event ∧ after = []) ∨
      ∃ rest, after = rest ++ [label] ∧ history = before ++ event :: rest := by
  rcases List.eq_nil_or_concat after with rfl | ⟨rest, last, rfl⟩
  · obtain ⟨rfl, same⟩ := List.append_inj' whole rfl
    exact .inl ⟨rfl, (List.cons.inj same).1, rfl⟩
  · rw [List.concat_eq_append, ← List.cons_append, ← List.append_assoc] at whole
    obtain ⟨rfl, same⟩ := List.append_inj' whole rfl
    obtain rfl := (List.cons.inj same).1
    exact .inr ⟨rest, List.concat_eq_append, rfl⟩

/-- Finite runs from `origin`, extended at the end. -/
inductive Run (step : σ → ε → σ → Prop) (origin : σ) : List ε → σ → Prop where
  | start : Run step origin [] origin
  | snoc {history s event t} :
      Run step origin history s → step s event t → Run step origin (history ++ [event]) t

namespace Run

variable {step : σ → ε → σ → Prop} {origin : σ}

/-- An invariant over the labels taken so far and the state they lead to. -/
theorem historyInvariant {invariant : List ε → σ → Prop} (initial : invariant [] origin)
    (preserved : ∀ history s event t, Run step origin history s → invariant history s →
      step s event t → invariant (history ++ [event]) t)
    {history s} (run : Run step origin history s) : invariant history s := by
  induction run with
  | start => exact initial
  | snoc prior next ih => exact preserved _ _ _ _ prior ih next

theorem single {event t} (next : step origin event t) : Run step origin [event] t := by
  simpa using Run.snoc .start next

theorem trans {earlier later s t} (first : Run step origin earlier s) (second : Run step s later t) :
    Run step origin (earlier ++ later) t := by
  induction second with
  | start => simpa using first
  | snoc _ next ih => simpa only [List.append_assoc] using Run.snoc ih next

/-- A label of a run was taken in a state that the labels before it lead to, and the
    labels behind it lead on from there. -/
theorem splitAt {earlier event later t} (run : Run step origin (earlier ++ event :: later) t) :
    ∃ s next, Run step origin earlier s ∧ step s event next ∧ Run step next later t := by
  generalize whole : earlier ++ event :: later = history at run
  induction run generalizing later with
  | start => cases earlier <;> cases whole
  | snoc prior last ih =>
      rcases split_snoc whole.symm with ⟨rfl, rfl, rfl⟩ | ⟨rest, rfl, rfl⟩
      · exact ⟨_, _, prior, last, .start⟩
      · obtain ⟨s, next, first, middle, second⟩ := ih rfl
        exact ⟨s, next, first, middle, .snoc second last⟩

theorem taken {earlier event later t} (run : Run step origin (earlier ++ event :: later) t) :
    ∃ s next, Run step origin earlier s ∧ step s event next := by
  obtain ⟨s, next, first, middle, _⟩ := run.splitAt
  exact ⟨s, next, first, middle⟩

/-- Steps of a smaller relation are steps of a larger one. -/
theorem mono {larger : σ → ε → σ → Prop} (wider : ∀ s event t, step s event t → larger s event t)
    {history s} (run : Run step origin history s) : Run larger origin history s := by
  induction run with
  | start => exact .start
  | snoc _ next ih => exact .snoc ih (wider _ _ _ next)

/-- The inputs that a partial component takes one after the other. -/
theorem of_foldlM {machine : σ → ε → Option σ} {s t} {inputs : List ε}
    (ended : inputs.foldlM machine s = some t) :
    Run (fun s event t => machine s event = some t) s inputs t := by
  induction inputs generalizing s with
  | nil =>
      cases ended
      exact .start
  | cons input rest ih =>
      obtain ⟨next, taken, ended⟩ := Option.bind_eq_some_iff.mp ended
      exact Run.trans (.single taken) (ih ended)

/-- Labels that are all allowed. -/
theorem restrict {allowed : ε → Prop} {history s} (run : Run step origin history s)
    (all : ∀ event ∈ history, allowed event) :
    Run (fun s event t => step s event t ∧ allowed event) origin history s := by
  induction run with
  | start => exact .start
  | snoc _ next ih =>
      rw [List.forall_mem_append, List.forall_mem_singleton] at all
      exact .snoc (ih all.1) ⟨next, all.2⟩

end Run

/-- The step relation of a deterministic component. A label is an input with
    the output it produced. -/
def answers (machine : σ → ι → σ × ο) (s : σ) (event : ι × ο) (t : σ) : Prop :=
  machine s event.1 = (t, event.2)

theorem answers.next {machine : σ → ι → σ × ο} {s t event} (taken : answers machine s event t) :
    t = (machine s event.1).1 := by
  rw [taken]

/-- An output of a longer history is one of the history, or the last one. -/
theorem output_append {history : List (ι × ο)} {label output}
    (given : ∃ input, (input, output) ∈ history ++ [label]) :
    (∃ input, (input, output) ∈ history) ∨ label.2 = output := by
  obtain ⟨input, member⟩ := given
  rcases mem_snoc.mp member with inside | inside
  · exact .inl ⟨input, inside⟩
  · exact .inr (by rw [← inside])

/-- Feed a list of inputs to a component, collecting the labels. -/
def feed (machine : σ → ι → σ × ο) : σ → List ι → List (ι × ο) × σ
  | s, [] => ([], s)
  | s, input :: rest =>
      let (t, output) := machine s input
      let (labels, final) := feed machine t rest
      ((input, output) :: labels, final)

theorem feed_run (machine : σ → ι → σ × ο) (s : σ) (inputs : List ι) :
    Run (answers machine) s (feed machine s inputs).1 (feed machine s inputs).2 := by
  induction inputs generalizing s with
  | nil => exact .start
  | cons input rest ih =>
      have first : Run (answers machine) s [(input, (machine s input).2)] (machine s input).1 :=
        .single rfl
      exact first.trans (ih (machine s input).1)

/-- A test passes before every input that is fed. -/
def feedPasses (machine : σ → ι → σ × ο) (test : σ → ι → Bool) : σ → List ι → Bool
  | _, [] => true
  | s, input :: rest => test s input && feedPasses machine test (machine s input).1 rest

/-- Inputs that pass a test make a run of every relation that the test implies. -/
theorem feed_run_of_passes {machine : σ → ι → σ × ο} {test : σ → ι → Bool}
    {step : σ → ι × ο → σ → Prop}
    (implies : ∀ s input, test s input = true → step s (input, (machine s input).2) (machine s input).1)
    {s inputs} (passes : feedPasses machine test s inputs = true) :
    Run step s (feed machine s inputs).1 (feed machine s inputs).2 := by
  induction inputs generalizing s with
  | nil => exact .start
  | cons input rest ih =>
      obtain ⟨here, later⟩ := Bool.and_eq_true_iff.mp passes
      have first : Run step s [(input, (machine s input).2)] (machine s input).1 :=
        .single (implies s input here)
      exact first.trans (ih later)

theorem feed_inputs (machine : σ → ι → σ × ο) (s : σ) (inputs : List ι) :
    (feed machine s inputs).1.map Prod.fst = inputs := by
  induction inputs generalizing s with
  | nil => rfl
  | cons input rest ih => exact congrArg (input :: ·) (ih _)

/-- What was put out, was put out for an input. -/
theorem exists_input {history : List (ι × ο)} {output} (put : output ∈ history.map Prod.snd) :
    ∃ input, (input, output) ∈ history := by
  obtain ⟨⟨input, _⟩, member, rfl⟩ := List.mem_map.mp put
  exact ⟨input, member⟩

theorem feed_append (machine : σ → ι → σ × ο) (s : σ) (inputs more : List ι) :
    (feed machine s (inputs ++ more)).2 = (feed machine (feed machine s inputs).2 more).2 := by
  induction inputs generalizing s with
  | nil => rfl
  | cons input rest ih => exact ih _

/-- The inputs of a run lead to its state. -/
theorem Run.fed {machine : σ → ι → σ × ο} {s t history} (run : Run (answers machine) s history t) :
    t = (feed machine s (history.map Prod.fst)).2 := by
  induction run with
  | start => rfl
  | snoc _ taken ih =>
      rw [List.map_append, feed_append, ← ih]
      exact taken.next

end Runs
