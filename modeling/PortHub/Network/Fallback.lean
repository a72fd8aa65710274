import Mathlib.Data.Nat.Find
import PortHub.Rust

/-! # Falling back to a direct connection

When no exit is available for five seconds, an allowed bypass opens, and it
closes after five seconds of availability. Losing the permission or the policy
closes it at once. The state keeps one switch and one candidate for it; what it
answers is stated over the whole history of calls.
-/

namespace PortHub.Network

structure Fallback where
  bypass : Bool
  candidate : Option (Bool × Nat)
  deriving DecidableEq, Repr

/-- The arguments of one `update`. -/
structure Health where
  allowed : Bool
  available : Nat
  valid : Bool
  now : Nat
  deriving DecidableEq, Repr

namespace Fallback

/-- `Fallback::default`. -/
def start : Fallback := ⟨false, none⟩

/-- The state after `update`, which returns its `bypass`. -/
def update (state : Fallback) (health : Health) : Fallback :=
  if !health.allowed || !health.valid then ⟨false, none⟩
  else
    let wanted := health.available == 0
    if wanted == state.bypass then { state with candidate := none }
    else
      let (candidate, since) := state.candidate.getD (wanted, health.now)
      let since := if candidate != wanted then health.now else since
      if seconds 5 ≤ health.now - since then ⟨wanted, none⟩
      else ⟨state.bypass, some (wanted, since)⟩

/-- The state after the first `count` calls. -/
def after (calls : Nat → Health) : Nat → Fallback
  | 0 => start
  | count + 1 => (after calls count).update (calls count)

/-- What call `i` returns. -/
def answer (calls : Nat → Health) (i : Nat) : Bool := (after calls (i + 1)).bypass

end Fallback

namespace Health

def permitted (health : Health) : Bool := health.allowed && health.valid

def down (health : Health) : Bool := health.available == 0

end Health

section Steps

variable {state : Fallback} {health : Health}

theorem update_refused (refused : health.permitted = false) : state.update health = ⟨false, none⟩ := by
  have closed : (!health.allowed || !health.valid) = true := by
    rw [← Bool.not_and, ← Health.permitted, refused]
    rfl
  simp only [Fallback.update, closed, if_true]

theorem update_settled (permitted : health.permitted = true) (settled : health.down = state.bypass) :
    state.update health = { state with candidate := none } := by
  have open_ : (!health.allowed || !health.valid) = false := by
    rw [← Bool.not_and, ← Health.permitted, permitted]
    rfl
  have same : ((health.available == 0) == state.bypass) = true := beq_iff_eq.mpr settled
  simp only [Fallback.update, open_, Bool.false_eq_true, if_false, same, if_true]

/-- Since when the switch has been due, from the stored candidate or from now. -/
def Fallback.since (state : Fallback) (health : Health) : Nat :=
  let (candidate, since) := state.candidate.getD (health.down, health.now)
  if candidate != health.down then health.now else since

theorem update_pending (permitted : health.permitted = true) (due : health.down ≠ state.bypass) :
    state.update health =
      if seconds 5 ≤ health.now - state.since health then ⟨health.down, none⟩
      else ⟨state.bypass, some (health.down, state.since health)⟩ := by
  have open_ : (!health.allowed || !health.valid) = false := by
    rw [← Bool.not_and, ← Health.permitted, permitted]
    rfl
  have different : ((health.available == 0) == state.bypass) = false := beq_eq_false_iff_ne.mpr due
  simp only [Fallback.update, open_, Bool.false_eq_true, if_false, different]
  rfl

end Steps

section Histories

variable {calls : Nat → Health} {first last i : Nat} {wanted : Bool}

/-- Permission held and availability was the same at every call of a stretch. -/
def Steady (calls : Nat → Health) (wanted : Bool) (first last : Nat) : Prop :=
  ∀ k, first ≤ k → k ≤ last → (calls k).permitted = true ∧ (calls k).down = wanted

theorem Steady.snoc (steady : Steady calls wanted first last)
    (permitted : (calls (last + 1)).permitted = true) (same : (calls (last + 1)).down = wanted) :
    Steady calls wanted first (last + 1) := by
  intro k lower upper
  rcases Nat.lt_or_ge last k with beyond | within
  · obtain rfl : k = last + 1 := by omega
    exact ⟨permitted, same⟩
  · exact steady k lower within

theorem Steady.single (permitted : (calls i).permitted = true) : Steady calls (calls i).down i i := by
  intro k lower upper
  obtain rfl : k = i := by omega
  exact ⟨permitted, rfl⟩

/-- A stored candidate opposes the switch and has been wanted at every call
    since one whose time it carries. -/
def Grounded (calls : Nat → Health) (count : Nat) (state : Fallback) : Prop :=
  ∀ wanted since, state.candidate = some (wanted, since) → wanted ≠ state.bypass ∧
    ∃ first, first < count ∧ (calls first).now = since ∧ Steady calls wanted first (count - 1)

/-- Since when a due switch has been due, as a call of the history. -/
theorem Grounded.since {state} (grounded : Grounded calls i state)
    (permitted : (calls i).permitted = true) (due : (calls i).down ≠ state.bypass) :
    ∃ first, first ≤ i ∧ (calls first).now = state.since (calls i) ∧
      Steady calls (calls i).down first i := by
  unfold Fallback.since
  cases stored : state.candidate with
  | none =>
      refine ⟨i, le_rfl, ?_, .single permitted⟩
      simp
  | some held =>
      obtain ⟨wanted, since⟩ := held
      obtain ⟨opposes, first, earlier, time, steady⟩ := grounded wanted since stored
      have same : wanted = (calls i).down := by
        revert opposes due
        cases wanted <;> cases (calls i).down <;> cases state.bypass <;> simp
      refine ⟨first, by omega, by simp [same, time], ?_⟩
      obtain ⟨before, rfl⟩ : ∃ before, i = before + 1 := ⟨i - 1, by omega⟩
      exact (same ▸ steady).snoc permitted rfl

theorem grounded_after (calls : Nat → Health) (count : Nat) :
    Grounded calls count (Fallback.after calls count) := by
  induction count with
  | zero => simp [Grounded, Fallback.after, Fallback.start]
  | succ i ih =>
      intro wanted since stored
      simp only [Fallback.after] at stored ⊢
      generalize Fallback.after calls i = state at ih stored
      cases permitted : (calls i).permitted with
      | false => simp [update_refused permitted] at stored
      | true =>
          by_cases due : (calls i).down = state.bypass
          · simp [update_settled permitted due] at stored
          · obtain ⟨first, earlier, time, steady⟩ := ih.since permitted due
            rw [update_pending permitted due] at stored ⊢
            split at stored
            · cases stored
            · rename_i short
              rw [if_neg short]
              obtain ⟨rfl, rfl⟩ := stored
              exact ⟨due, first, by omega, time, by simpa using steady⟩

/-- Clock readings that do not go back up to a call. -/
def Ordered (calls : Nat → Health) (i : Nat) : Prop :=
  ∀ j k, j ≤ k → k ≤ i → (calls j).now ≤ (calls k).now

theorem answer_eq (calls : Nat → Health) (i : Nat) :
    Fallback.answer calls i = ((Fallback.after calls i).update (calls i)).bypass := rfl

/-- A stretch brings the switch over, or has kept it due since no later than its first call. -/
theorem Steady.due (steady : Steady calls wanted first last) (ordered : Ordered calls last) {k}
    (lower : first ≤ k) (upper : k ≤ last) :
    Fallback.answer calls k = wanted ∨ ∃ since, since ≤ (calls first).now ∧
      (calls k).now < since + seconds 5 ∧
      (Fallback.after calls (k + 1)).candidate = some (wanted, since) := by
  -- One call: the candidate was stored no later than the stretch began.
  have call (k : Nat) (lower : first ≤ k) (upper : k ≤ last)
      (held : (Fallback.after calls k).bypass ≠ wanted →
        (Fallback.after calls k).since (calls k) ≤ (calls first).now) :
      Fallback.answer calls k = wanted ∨ ∃ since, since ≤ (calls first).now ∧
        (calls k).now < since + seconds 5 ∧
        (Fallback.after calls (k + 1)).candidate = some (wanted, since) := by
    obtain ⟨permitted, same⟩ := steady k lower upper
    rw [answer_eq, Fallback.after]
    by_cases settled : (Fallback.after calls k).bypass = wanted
    · rw [update_settled permitted (same.trans settled.symm)]
      exact .inl settled
    · rw [update_pending permitted (by rw [same]; exact Ne.symm settled), same]
      split
      · exact .inl rfl
      · rename_i short
        exact .inr ⟨_, held settled, by omega, rfl⟩
  induction k, lower using Nat.le_induction with
  | base =>
      refine call first le_rfl upper ?_
      intro due
      obtain ⟨permitted, same⟩ := steady first le_rfl upper
      obtain ⟨origin, earlier, time, _⟩ := (grounded_after calls first).since permitted
        (by rw [same]; exact Ne.symm due)
      rw [← time]
      exact ordered origin first earlier upper
  | succ k lower ih =>
      have held := ih (by omega)
      refine call (k + 1) (by omega) upper ?_
      intro due
      rcases held with settled | ⟨since, early, _, stored⟩
      · exact absurd settled due
      · have same := (steady (k + 1) (by omega) upper).2
        simpa [Fallback.since, stored, same] using early

/-- Five seconds of one availability bring the switch over. -/
theorem Steady.settles (steady : Steady calls wanted first last) (ordered : Ordered calls last)
    (within : first ≤ last) (lasting : seconds 5 ≤ (calls last).now - (calls first).now) :
    Fallback.answer calls last = wanted := by
  rcases steady.due ordered within le_rfl with settled | ⟨since, early, short, _⟩
  · exact settled
  · have late : seconds 5 + (calls first).now ≤ (calls last).now := by
      have positive : 0 < seconds 5 := by decide
      omega
    omega

/-- The switch moves over only at the end of five such seconds, or back when the
    permission is gone. -/
theorem switched (before : (Fallback.after calls i).bypass ≠ wanted)
    (now : Fallback.answer calls i = wanted) :
    (wanted = false ∧ (calls i).permitted = false) ∨
      ∃ first, first ≤ i ∧ seconds 5 ≤ (calls i).now - (calls first).now ∧
        Steady calls wanted first i := by
  rw [answer_eq] at now
  cases permitted : (calls i).permitted with
  | false =>
      rw [update_refused permitted] at now
      exact .inl ⟨now.symm, rfl⟩
  | true =>
      by_cases settled : (calls i).down = (Fallback.after calls i).bypass
      · rw [update_settled permitted settled] at now
        exact absurd now before
      · obtain ⟨first, earlier, time, steady⟩ := (grounded_after calls i).since permitted settled
        rw [update_pending permitted settled] at now
        split at now
        · rename_i lasting
          subst now
          exact .inr ⟨first, earlier, time ▸ lasting, steady⟩
        · exact absurd now before

/-- No exit was available during at least five seconds of permission. -/
structure Outage (calls : Nat → Health) (start first last : Nat) : Prop where
  begins : start ≤ first
  ends : first ≤ last
  down : ∀ k, first ≤ k → k ≤ last → (calls k).available = 0
  lasting : seconds 5 ≤ (calls last).now - (calls first).now

/-- An exit was available during at least five seconds after a call. -/
structure Recovery (calls : Nat → Health) (since first last : Nat) : Prop where
  begins : since < first
  ends : first ≤ last
  up : ∀ k, first ≤ k → k ≤ last → 0 < (calls k).available
  lasting : seconds 5 ≤ (calls last).now - (calls first).now

theorem permitted_iff {health : Health} :
    health.permitted = true ↔ health.allowed = true ∧ health.valid = true := by
  simp [Health.permitted]

theorem Outage.steady {start} (outage : Outage calls start first last)
    (permitted : ∀ k, start ≤ k → k ≤ last → (calls k).permitted = true) :
    Steady calls true first last := by
  intro k lower upper
  exact ⟨permitted k (outage.begins.trans lower) upper, by simp [Health.down, outage.down k lower upper]⟩

theorem Recovery.steady {since} (recovery : Recovery calls since first last)
    (permitted : ∀ k, since ≤ k → k ≤ last → (calls k).permitted = true) :
    Steady calls false first last := by
  intro k lower upper
  have up := recovery.up k lower upper
  refine ⟨permitted k (recovery.begins.le.trans lower) upper, ?_⟩
  simp only [Health.down, beq_eq_false_iff_ne]
  omega

theorem answer_refused (refused : (calls i).permitted = false) : Fallback.answer calls i = false := by
  rw [answer_eq, update_refused refused]

/-- An open bypass was opened by an outage and has been open ever since. -/
theorem opened_by_outage (open_ : Fallback.answer calls i = true) :
    ∃ first last, last ≤ i ∧ Outage calls first first last ∧ Steady calls true first last ∧
      ∀ k, last ≤ k → k ≤ i → Fallback.answer calls k = true := by
  induction i with
  | zero =>
      rcases switched (by simp [Fallback.after, Fallback.start]) open_ with
        ⟨closed, _⟩ | ⟨first, earlier, lasting, steady⟩
      · cases closed
      · refine ⟨first, 0, le_rfl, ⟨le_rfl, earlier, ?_, lasting⟩, steady, ?_⟩
        · intro k lower upper
          simpa [Health.down] using (steady k lower upper).2
        · intro k _ upper
          obtain rfl : k = 0 := by omega
          exact open_
  | succ i ih =>
      by_cases before : Fallback.answer calls i = true
      · obtain ⟨first, last, earlier, outage, steady, since⟩ := ih before
        refine ⟨first, last, by omega, outage, steady, ?_⟩
        intro k lower upper
        rcases Nat.lt_or_ge i k with beyond | within
        · obtain rfl : k = i + 1 := by omega
          exact open_
        · exact since k lower within
      · rcases switched before open_ with ⟨closed, _⟩ | ⟨first, earlier, lasting, steady⟩
        · cases closed
        · refine ⟨first, i + 1, le_rfl, ⟨le_rfl, earlier, ?_, lasting⟩, steady, ?_⟩
          · intro k lower upper
            simpa [Health.down] using (steady k lower upper).2
          · intro k lower upper
            obtain rfl : k = i + 1 := by omega
            exact open_

/-- An open bypass stays open while the permission holds and no recovery completes. -/
theorem stays_open (open_ : Fallback.answer calls last = true) (down : (calls last).available = 0)
    (within : last ≤ i) (permitted : ∀ k, last ≤ k → k ≤ i → (calls k).permitted = true)
    (unrecovered : ¬ ∃ first until_, Recovery calls last first until_ ∧ until_ ≤ i) :
    Fallback.answer calls i = true := by
  induction i, within using Nat.le_induction with
  | base => exact open_
  | succ i within ih =>
      have before : Fallback.answer calls i = true := by
        refine ih (fun k lower upper => permitted k lower (by omega)) ?_
        rintro ⟨first, until_, recovery, upper⟩
        exact unrecovered ⟨first, until_, recovery, by omega⟩
      by_contra closed
      have held : (Fallback.after calls (i + 1)).bypass ≠ false := by
        rw [show (Fallback.after calls (i + 1)).bypass = true from before]
        simp
      rcases switched held (Bool.eq_false_iff.mpr closed) with ⟨_, refused⟩ | ⟨first, earlier, lasting, steady⟩
      · rw [permitted (i + 1) (by omega) le_rfl] at refused
        cases refused
      · have up (k : Nat) (lower : first ≤ k) (upper : k ≤ i + 1) : 0 < (calls k).available := by
          have same := (steady k lower upper).2
          simp only [Health.down, beq_eq_false_iff_ne] at same
          omega
        have later : last < first := by
          by_contra covers
          have inside := up last (by omega) (by omega)
          omega
        exact unrecovered ⟨first, i + 1, ⟨later, earlier, up, lasting⟩, le_rfl⟩

/-- A call answers that the bypass is open exactly if permission has held since
    before a five-second outage, and after the last such outage no recovery of
    five seconds has completed. -/
theorem bypass_iff_lasting_outage (calls : Nat → Health) (i : Nat) (ordered : Ordered calls i) :
    Fallback.answer calls i = true ↔
      ∃ start, start ≤ i ∧
        (∀ k, start ≤ k → k ≤ i → (calls k).allowed = true ∧ (calls k).valid = true) ∧
        ∃ last, last ≤ i ∧ (∃ first, Outage calls start first last) ∧
          (∀ later, last < later → later ≤ i → ¬ ∃ first, Outage calls start first later) ∧
          ¬ ∃ first until_, Recovery calls last first until_ ∧ until_ ≤ i := by
  have prior (last : Nat) (within : last ≤ i) : Ordered calls last :=
    fun j k lower upper => ordered j k lower (upper.trans within)
  constructor
  · intro open_
    obtain ⟨start, opened, earlier, outage, steady, since⟩ := opened_by_outage open_
    have permitted (k : Nat) (lower : start ≤ k) (upper : k ≤ i) : (calls k).permitted = true := by
      rcases Nat.lt_or_ge k opened with before | beyond
      · exact (steady k lower before.le).1
      · by_contra refused
        have closed := answer_refused (Bool.eq_false_iff.mpr refused)
        rw [since k beyond upper] at closed
        cases closed
    classical
    -- The last end of an outage lies at or behind the one that opened the bypass.
    let ends (last : Nat) : Prop := ∃ first, Outage calls start first last
    have present : ends opened := ⟨start, outage⟩
    have found : ends (Nat.findGreatest ends i) := Nat.findGreatest_spec earlier present
    refine ⟨start, (outage.ends.trans earlier), fun k lower upper =>
      permitted_iff.mp (permitted k lower upper), Nat.findGreatest ends i, Nat.findGreatest_le i, found,
      fun later beyond upper => Nat.findGreatest_is_greatest beyond upper, ?_⟩
    rintro ⟨first, until_, recovery, upper⟩
    have behind : opened ≤ Nat.findGreatest ends i := Nat.le_findGreatest earlier present
    have begun : start ≤ Nat.findGreatest ends i := outage.ends.trans behind
    have closed := (recovery.steady fun k lower within =>
      permitted k (begun.trans lower) (within.trans upper)).settles (prior until_ upper)
      recovery.ends recovery.lasting
    have after := recovery.begins
    have within := recovery.ends
    rw [since until_ (by omega) upper] at closed
    cases closed
  · rintro ⟨start, _, permission, last, within, ⟨first, outage⟩, _, unrecovered⟩
    have permitted (k : Nat) (lower : start ≤ k) (upper : k ≤ i) : (calls k).permitted = true :=
      permitted_iff.mpr (permission k lower upper)
    have begun : start ≤ last := outage.begins.trans outage.ends
    have open_ := (outage.steady fun k lower upper =>
      permitted k lower (upper.trans within)).settles (prior last within) outage.ends outage.lasting
    exact stays_open open_ (outage.down last outage.ends le_rfl) within
      (fun k lower upper => permitted k (begun.trans lower) upper) unrecovered

/-- An outage of five seconds opens the bypass at its second call. -/
theorem outage_opens_bypass :
    let calls : Nat → Health := fun k => ⟨true, 0, true, seconds (5 * k)⟩
    Ordered calls 1 ∧ Fallback.answer calls 1 = true ∧
      ∃ last, last ≤ 1 ∧ ∃ first, Outage calls 0 first last := by
  intro calls
  have ordered : Ordered calls 1 := by
    intro j k lower _
    simp only [calls, seconds]
    omega
  have open_ : Fallback.answer calls 1 = true := by decide
  obtain ⟨start, _, _, last, within, ⟨first, outage⟩, _⟩ :=
    (bypass_iff_lasting_outage calls 1 ordered).mp open_
  exact ⟨ordered, open_, last, within, first, { outage with begins := Nat.zero_le _ }⟩

end Histories

end PortHub.Network
