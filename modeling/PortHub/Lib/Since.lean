import PortHub.Lib.Runs

/-! # What has happened since

Over the events of a run so far: one kind of event has occurred, and none of
another kind after it. The two facts that an invariant needs are what a new event
does to it, and that nothing has happened at the start.
-/

namespace Runs

variable {ε : Type} {started ended : ε → Prop}

/-- Some event started, and none after it ended. -/
def Since (started ended : ε → Prop) (history : List ε) : Prop :=
  ∃ before event after, history = before ++ event :: after ∧ started event ∧
    ∀ later ∈ after, ¬ ended later

@[simp] theorem not_since_nil : ¬ Since started ended [] := by
  rintro ⟨before, event, after, whole, _⟩
  simp at whole

theorem since_snoc {history event} :
    Since started ended (history ++ [event]) ↔
      started event ∨ Since started ended history ∧ ¬ ended event := by
  constructor
  · rintro ⟨before, first, after, whole, starts, calm⟩
    rcases split_snoc whole with ⟨_, rfl, _⟩ | ⟨after, rfl, rfl⟩
    · exact .inl starts
    · refine .inr ⟨⟨before, first, after, rfl, starts, fun later member => calm later ?_⟩, calm _ ?_⟩
      · simp [member]
      · simp
  · rintro (starts | ⟨⟨before, first, after, rfl, starts, calm⟩, quiet⟩)
    · exact ⟨history, event, [], rfl, starts, by simp⟩
    · refine ⟨before, first, after ++ [event], by simp, starts, ?_⟩
      intro later member
      rcases mem_snoc.mp member with earlier | rfl
      · exact calm later earlier
      · exact quiet

/-- Some event started and none after it ended, where both may depend on all that
    happened before. -/
def SinceIn (started ended : List ε → ε → Prop) (history : List ε) : Prop :=
  ∃ before event after, history = before ++ event :: after ∧ started before event ∧
    ∀ middle later rest, after = middle ++ later :: rest → ¬ ended (before ++ event :: middle) later

variable {starts ends : List ε → ε → Prop}

@[simp] theorem not_sinceIn_nil : ¬ SinceIn starts ends [] := by
  rintro ⟨before, event, after, whole, _⟩
  simp at whole

theorem sinceIn_snoc {history event} :
    SinceIn starts ends (history ++ [event]) ↔
      starts history event ∨ SinceIn starts ends history ∧ ¬ ends history event := by
  constructor
  · rintro ⟨before, first, after, whole, starting, calm⟩
    rcases split_snoc whole with ⟨rfl, rfl, _⟩ | ⟨after, rfl, rfl⟩
    · exact .inl starting
    · refine .inr ⟨⟨before, first, after, rfl, starting, ?_⟩, calm after event [] (by simp)⟩
      rintro middle later rest rfl
      exact calm middle later (rest ++ [event]) (by simp)
  · rintro (starting | ⟨⟨before, first, after, rfl, starting, calm⟩, quiet⟩)
    · exact ⟨history, event, [], rfl, starting, by simp⟩
    · refine ⟨before, first, after ++ [event], by simp, starting, ?_⟩
      intro middle later rest whole
      rcases split_snoc whole with ⟨rfl, rfl, _⟩ | ⟨rest, rfl, rfl⟩
      · exact quiet
      · exact calm middle later rest rfl

end Runs
