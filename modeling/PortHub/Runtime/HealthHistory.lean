import PortHub.Lib.Since
import PortHub.Runtime.Retries

/-! # The health of a binding

Probes and requests report outcomes of a binding. Whether it is down is a function
of the outcomes so far: the last failure that takes it down counts, unless a success
after it brings it up again. Two counters and the state before are enough to know.
-/

namespace PortHub.Runtime

open Runs

/-- What is reported about a binding. -/
inductive Report where
  | outcome (id : String) (success : Bool) (status : Option Nat) (latency : Nat) (probe : Bool)
      (reason : Option String) (now : Nat) (wall : Int)
  | applicationError (id : String) (status : Nat) (wall : Int)

def Report.apply (pool : Upstreams) (live : Live) : Report → Live
  | .outcome id success status latency probe reason now wall =>
      pool.outcome live id success status latency probe reason now wall
  | .applicationError id status wall => live.applicationError id status wall

/-- What an outcome says about health. -/
structure Outcome where
  success : Bool
  probe : Bool
  deriving DecidableEq, Repr

/-- The outcome of a binding that is reported, if it is one. -/
def Report.outcomeOf (id : String) : Report → Option Outcome
  | .outcome other success _ _ probe _ _ _ => if other = id then some ⟨success, probe⟩ else none
  | .applicationError _ _ _ => none

/-- How many outcomes of one kind the history ends with. -/
def streak (success : Bool) (history : List Outcome) : Nat :=
  (history.reverse.takeWhile fun outcome => outcome.success == success).length

/-- A failure that takes a binding down: that of a request, or one of enough in a row. -/
def TakesDown (config : HealthConfig) (before : List Outcome) (outcome : Outcome) : Prop :=
  outcome.success = false ∧
    (outcome.probe = false ∨ config.unhealthyAfter ≤ streak false (before ++ [outcome]))

/-- A success that brings a binding up: that of a request, or one of enough in a row. -/
def BringsUp (config : HealthConfig) (before : List Outcome) (outcome : Outcome) : Prop :=
  outcome.success = true ∧
    (outcome.probe = false ∨ config.healthyAfter ≤ streak true (before ++ [outcome]))

/-- Some failure took the binding down, and after the last such failure no success
    brought it up. -/
def IsDown (config : HealthConfig) (history : List Outcome) : Prop :=
  SinceIn (TakesDown config)
    (fun before outcome => TakesDown config before outcome ∨ BringsUp config before outcome) history

theorem streak_snoc (wanted : Bool) (history : List Outcome) (outcome : Outcome) :
    streak wanted (history ++ [outcome]) =
      if outcome.success = wanted then streak wanted history + 1 else 0 := by
  by_cases same : outcome.success = wanted <;> simp [streak, same]

/-- The counters hold the streaks as far as they go, and the binding is down as its
    history says. -/
structure Follows (config : HealthConfig) (history : List Outcome) (health : Health) : Prop where
  successes : health.successes = min (streak true history) (2 ^ 32 - 1)
  failures : health.failures = min (streak false history) (2 ^ 32 - 1)
  down : health.down = true ↔ IsDown config history

/-- A counter that stops at its limit reaches a threshold when the streak does. -/
theorem threshold_iff {threshold count} (fits : threshold < 2 ^ 32) :
    threshold ≤ saturatingSucc (min count (2 ^ 32 - 1)) ↔ threshold ≤ count + 1 := by
  unfold saturatingSucc
  omega

theorem saturatingSucc_min (count : Nat) :
    saturatingSucc (min count (2 ^ 32 - 1)) = min (count + 1) (2 ^ 32 - 1) := by
  unfold saturatingSucc
  omega

section Steps

variable {pool : Upstreams} {live : Live} {id : String} {history : List Outcome}

theorem isDown_snoc_success {config} (probe : Bool) :
    IsDown config (history ++ [⟨true, probe⟩]) ↔
      IsDown config history ∧ ¬(probe = false ∨ config.healthyAfter ≤ streak true history + 1) := by
  unfold IsDown
  rw [sinceIn_snoc]
  simp [TakesDown, BringsUp, streak_snoc]

theorem isDown_snoc_failure {config} (probe : Bool) :
    IsDown config (history ++ [⟨false, probe⟩]) ↔
      IsDown config history ∨ probe = false ∨ config.unhealthyAfter ≤ streak false history + 1 := by
  unfold IsDown
  rw [sinceIn_snoc]
  simp only [TakesDown, BringsUp, streak_snoc, true_and, if_true, Bool.false_eq_true, false_and, or_false]
  tauto

section

variable (status : Option Nat) (latency : Nat) (probe : Bool) (reason : Option String) (now : Nat)
  (wall : Int)

/-- The counters and the state after a success. -/
theorem outcome_success :
    let before := live.health id
    let after := (pool.outcome live id true status latency probe reason now wall).health id
    after.successes = saturatingSucc before.successes ∧ after.failures = 0 ∧
      (after.down = true ↔ before.down = true ∧
        ¬(probe = false ∨ pool.config.health.healthyAfter ≤ saturatingSucc before.successes)) := by
  simp only [Upstreams.outcome, if_true, Function.update_self, true_and]
  cases (live.health id).down <;> cases probe <;> simp

/-- The counters and the state after a failure. -/
theorem outcome_failure :
    let before := live.health id
    let after := (pool.outcome live id false status latency probe reason now wall).health id
    after.successes = 0 ∧ after.failures = saturatingSucc before.failures ∧
      (after.down = true ↔ before.down = true ∨
        probe = false ∨ pool.config.health.unhealthyAfter ≤ saturatingSucc before.failures) := by
  simp only [Upstreams.outcome, Bool.false_eq_true, if_false, Function.update_self]
  cases probe with
  | false => simp
  | true =>
      by_cases low : pool.config.health.unhealthyAfter ≤ saturatingSucc (live.health id).failures
      · simp [low]
      · simp [low]

end

theorem outcome_follows (unhealthy : pool.config.health.unhealthyAfter < 2 ^ 32)
    (healthy : pool.config.health.healthyAfter < 2 ^ 32)
    (follows : Follows pool.config.health history (live.health id)) (success : Bool)
    (status : Option Nat) (latency : Nat) (probe : Bool) (reason : Option String) (now : Nat)
    (wall : Int) :
    Follows pool.config.health (history ++ [⟨success, probe⟩])
      ((pool.outcome live id success status latency probe reason now wall).health id) := by
  obtain ⟨successes, failures, down⟩ := follows
  cases success with
  | true =>
      obtain ⟨counted, reset, state⟩ := @outcome_success pool live id status latency probe reason now wall
      rw [successes] at counted state
      refine ⟨?_, ?_, ?_⟩
      · rw [counted, saturatingSucc_min, streak_snoc]
        rfl
      · rw [reset, streak_snoc]
        rfl
      · rw [state, isDown_snoc_success, ← down, threshold_iff healthy]
  | false =>
      obtain ⟨reset, counted, state⟩ := @outcome_failure pool live id status latency probe reason now wall
      rw [failures] at counted state
      refine ⟨?_, ?_, ?_⟩
      · rw [reset, streak_snoc]
        rfl
      · rw [counted, saturatingSucc_min, streak_snoc]
        rfl
      · rw [state, isDown_snoc_failure, ← down, threshold_iff unhealthy]

/-- An application error changes no counter and no state. -/
theorem applicationError_keeps (other : String) (status : Nat) (wall : Int) :
    let after := (live.applicationError other status wall).health id
    after.successes = (live.health id).successes ∧ after.failures = (live.health id).failures ∧
      after.down = (live.health id).down := by
  simp only [Live.applicationError]
  by_cases same : id = other
  · subst same
    simp
  · simp [same]

theorem apply_follows (unhealthy : pool.config.health.unhealthyAfter < 2 ^ 32)
    (healthy : pool.config.health.healthyAfter < 2 ^ 32)
    (follows : Follows pool.config.health history (live.health id)) (report : Report) :
    Follows pool.config.health (history ++ (report.outcomeOf id).toList)
      ((report.apply pool live).health id) := by
  cases report with
  | outcome other success status latency probe reason now wall =>
      by_cases same : other = id
      · subst same
        simp only [Report.outcomeOf, if_true, Option.toList_some]
        exact outcome_follows unhealthy healthy follows success status latency probe reason now wall
      · simp only [Report.outcomeOf, if_neg same, Option.toList_none, List.append_nil, Report.apply]
        rw [outcome_health (Ne.symm same)]
        exact follows
  | applicationError other status wall =>
      obtain ⟨successes, failures, down⟩ := @applicationError_keeps live id other status wall
      simp only [Report.outcomeOf, Option.toList_none, List.append_nil, Report.apply]
      exact ⟨successes.trans follows.successes, failures.trans follows.failures,
        by rw [down]; exact follows.down⟩

end Steps

/-- Every report in turn. -/
def Upstreams.reported (pool : Upstreams) (live : Live) (reports : List Report) : Live :=
  reports.foldl (Report.apply pool) live

theorem reported_follows {pool : Upstreams} {id}
    (unhealthy : pool.config.health.unhealthyAfter < 2 ^ 32)
    (healthy : pool.config.health.healthyAfter < 2 ^ 32) {live : Live} {history}
    (follows : Follows pool.config.health history (live.health id)) (reports : List Report) :
    Follows pool.config.health (history ++ reports.filterMap (Report.outcomeOf id))
      ((pool.reported live reports).health id) := by
  induction reports generalizing live history with
  | nil =>
      rw [List.filterMap_nil, List.append_nil]
      exact follows
  | cons report rest ih =>
      have later := ih (apply_follows unhealthy healthy follows report)
      rw [List.append_assoc] at later
      rw [List.filterMap_cons]
      cases known : report.outcomeOf id with
      | none => rwa [known] at later
      | some outcome => rwa [known] at later

/-- Whether a binding is down is a function of its outcomes; application errors do not
    change it; and while health checks are enabled no candidate is down. -/
theorem health_is_a_function_of_outcomes (pool : Upstreams)
    (unhealthy : pool.config.health.unhealthyAfter < 2 ^ 32)
    (healthy : pool.config.health.healthyAfter < 2 ^ 32) (live : Live) :
    (∀ id, (live.health id).down = false → (live.health id).successes = 0 →
      (live.health id).failures = 0 → ∀ reports,
        (((pool.reported live reports).health id).down = true ↔
          IsDown pool.config.health (reports.filterMap (Report.outcomeOf id)))) ∧
    (∀ id other status wall,
      ((live.applicationError other status wall).health id).down = (live.health id).down) ∧
    (pool.config.health.enabled = true → ∀ now excluded sticky,
      ∀ binding ∈ (pool.candidates live now excluded sticky).1,
        (live.health binding.id).down = false) := by
  refine ⟨?_, ?_, ?_⟩
  · intro id up successes failures reports
    have start : Follows pool.config.health [] (live.health id) :=
      ⟨successes, failures, by simp [up, IsDown]⟩
    have follows := reported_follows unhealthy healthy start reports
    exact follows.down
  · intro id other status wall
    exact (applicationError_keeps other status wall).2.2
  · intro enabled now excluded sticky binding member
    obtain ⟨_, usable⟩ := (candidates_spec pool live now excluded sticky).1 binding member
    obtain ⟨_, _, passive | up | ⟨disabled, _⟩⟩ := usable_iff.mp usable
    · simp [Upstreams.passiveSingle, enabled] at passive
    · exact up
    · cases enabled.symm.trans disabled

/-- One successful probe does not bring a binding up after a request has failed. -/
theorem one_probe_is_not_enough :
    let reports := [
      Report.outcome "first" false none 3 false none 0 0, .applicationError "first" 503 1,
      .outcome "first" true (some 200) 3 true none 10 10]
    ((samplePool.reported .fresh reports).health "first").down = true ∧
      IsDown samplePool.config.health [⟨false, false⟩, ⟨true, true⟩] := by
  intro reports
  have follows := (health_is_a_function_of_outcomes samplePool (by decide) (by decide) .fresh).1
    "first" rfl rfl rfl reports
  exact ⟨rfl, follows.mp rfl⟩

end PortHub.Runtime
