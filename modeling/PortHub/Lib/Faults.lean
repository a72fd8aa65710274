import Mathlib.Data.List.Basic

/-! # Programs whose operations fail

A program works on a state by operations that the environment decides about: an
operation takes effect, fails without effect, or is where the process ends. The
decisions are read from a tape; when it is used up, nothing fails any more. An
error is passed on until it is caught, the end of the process cannot be caught.
The rules below reason about all tapes at once, and lead a change back to the
part of a program that made it.
-/

namespace Faults

/-- What the environment does to an operation. -/
inductive Verdict where
  | pass
  | fail
  | die
deriving DecidableEq

inductive Result (ε α : Type) where
  | done (value : α)
  | failed (error : ε)
  | died
deriving DecidableEq

def Prog (σ ε α : Type) := σ → List Verdict → Result ε α × σ × List Verdict

namespace Prog

variable {σ τ ε α β : Type}

protected def pure (value : α) : Prog σ ε α := fun s tape => (.done value, s, tape)

protected def bind (first : Prog σ ε α) (rest : α → Prog σ ε β) : Prog σ ε β := fun s tape =>
  match first s tape with
  | (.done value, s, tape) => rest value s tape
  | (.failed error, s, tape) => (.failed error, s, tape)
  | (.died, s, tape) => (.died, s, tape)

instance : Monad (Prog σ ε) where
  pure := Prog.pure
  bind := Prog.bind

def throw (error : ε) : Prog σ ε α := fun s tape => (.failed error, s, tape)

def get : Prog σ ε σ := fun s tape => (.done s, s, tape)

/-- A change that cannot fail. -/
def modify (f : σ → σ) : Prog σ ε Unit := fun s tape => (.done (), f s, tape)

/-- One operation. The state may refuse it. -/
def op (error : ε) (effect : σ → Option (α × σ)) : Prog σ ε α := fun s tape =>
  match tape.headD .pass with
  | .pass =>
      match effect s with
      | none => (.failed error, s, tape.tail)
      | some (value, next) => (.done value, next, tape.tail)
  | .fail => (.failed error, s, tape.tail)
  | .die => (.died, s, tape.tail)

def ensure (error : ε) (condition : Bool) : Prog σ ε Unit :=
  if condition then pure () else throw error

def onlyIf (condition : Bool) (program : Prog σ ε Unit) : Prog σ ε Unit :=
  if condition then program else pure ()

def each (body : α → Prog σ ε Unit) : List α → Prog σ ε Unit
  | [] => pure ()
  | x :: rest => do
      body x
      each body rest

/-- Run a program on a part of the state. -/
def zoom (view : σ → τ) (put : τ → σ → σ) (inner : Prog τ ε α) : Prog σ ε α := fun s tape =>
  match inner (view s) tape with
  | (result, t, tape) => (result, put t s, tape)

/-- An error becomes a value. -/
def caught (inner : Prog σ ε α) : Prog σ ε (Except ε α) := fun s tape =>
  match inner s tape with
  | (.done value, s, tape) => (.done (.ok value), s, tape)
  | (.failed error, s, tape) => (.done (.error error), s, tape)
  | (.died, s, tape) => (.died, s, tape)

end Prog

/-- How a program may end. -/
structure Ends (σ ε α : Type) where
  done : α → σ → Prop
  failed : ε → σ → Prop
  died : σ → Prop

def Ends.hold {σ ε α : Type} (ends : Ends σ ε α) : Result ε α × σ × List Verdict → Prop
  | (.done value, s, _) => ends.done value s
  | (.failed error, s, _) => ends.failed error s
  | (.died, s, _) => ends.died s

/-- The same of the state in every case. -/
abbrev Ends.all {σ ε α : Type} (holds : σ → Prop) : Ends σ ε α := ⟨fun _ => holds, fun _ => holds, holds⟩

theorem Ends.hold_all {σ ε α : Type} {holds : σ → Prop} {result : Result ε α × σ × List Verdict} :
    (all holds).hold result ↔ holds result.2.1 := by
  obtain ⟨result, t, rest⟩ := result
  cases result with
  | done | failed | died => exact .rfl

namespace Prog

variable {σ τ ε α β : Type} {s : σ}

/-- However the operations go, the program ends as said. -/
def Meets (program : Prog σ ε α) (s : σ) (ends : Ends σ ε α) : Prop :=
  ∀ tape, ends.hold (program s tape)

namespace Meets

variable {program : Prog σ ε α} {ends : Ends σ ε α} {error : ε} {rest : α → Prog σ ε β}

theorem mono {other} (meets : program.Meets s other)
    (done : ∀ value t, other.done value t → ends.done value t)
    (failed : ∀ error t, other.failed error t → ends.failed error t)
    (died : ∀ t, other.died t → ends.died t) : program.Meets s ends := by
  intro tape
  have known := meets tape
  rcases outcome : program s tape with ⟨result, t, rest⟩
  rw [outcome] at known
  cases result with
  | done value => exact done value t known
  | failed error => exact failed error t known
  | died => exact died t known

theorem pure {value} (done : ends.done value s) :
    (Pure.pure value : Prog σ ε α).Meets s ends := fun _ => done

theorem throw (failed : ends.failed error s) :
    (throw error : Prog σ ε α).Meets s ends := fun _ => failed

theorem get {ends : Ends σ ε σ} (done : ends.done s s) : (get : Prog σ ε σ).Meets s ends :=
  fun _ => done

theorem modify {f : σ → σ} {ends : Ends σ ε Unit} (done : ends.done () (f s)) :
    (modify f : Prog σ ε Unit).Meets s ends := fun _ => done

theorem bind {ends}
    (first : program.Meets s ⟨fun value t => (rest value).Meets t ends, ends.failed, ends.died⟩) :
    (program >>= rest).Meets s ends := by
  intro tape
  have known := first tape
  change ends.hold (Prog.bind program rest s tape)
  unfold Prog.bind
  rcases outcome : program s tape with ⟨result, t, after⟩
  rw [outcome] at known
  cases result with
  | done value => exact known after
  | failed error => exact known
  | died => exact known

/-- A sequence with an assertion in the middle. -/
theorem seq {ends : Ends σ ε β} (between : α → σ → Prop)
    (first : program.Meets s ⟨between, ends.failed, ends.died⟩)
    (next : ∀ value t, between value t → (rest value).Meets t ends) :
    (program >>= rest).Meets s ends :=
  bind (first.mono next (fun _ _ failed => failed) fun _ died => died)

theorem op {effect : σ → Option (α × σ)}
    (done : ∀ value t, effect s = some (value, t) → ends.done value t)
    (failed : ends.failed error s) (died : ends.died s) :
    (op error effect).Meets s ends := by
  intro tape
  unfold Prog.op
  split
  · cases known : effect s with
    | none => exact failed
    | some next => exact done next.1 next.2 known
  · exact failed
  · exact died

theorem ensure {condition} {ends : Ends σ ε Unit} (done : condition = true → ends.done () s)
    (failed : condition = false → ends.failed error s) :
    (ensure error condition : Prog σ ε Unit).Meets s ends := by
  cases condition with
  | true => exact pure (done rfl)
  | false => exact throw (failed rfl)

theorem onlyIf {condition} {program : Prog σ ε Unit} {ends}
    (runs : condition = true → program.Meets s ends) (skips : condition = false → ends.done () s) :
    (onlyIf condition program).Meets s ends := by
  cases condition with
  | true => exact runs rfl
  | false => exact pure (skips rfl)

/-- A loop keeps what every round keeps. The invariant sees what is done. -/
theorem each {body : β → Prog σ ε Unit} {list} {ends : Ends σ ε Unit}
    (invariant : List β → σ → Prop) (start : invariant [] s)
    (round : ∀ before x after t, list = before ++ x :: after → invariant before t →
      (body x).Meets t ⟨fun _ u => invariant (before ++ [x]) u, ends.failed, ends.died⟩)
    (finish : ∀ t, invariant list t → ends.done () t) : (each body list).Meets s ends := by
  have general : ∀ rest before t, list = before ++ rest → invariant before t →
      (Prog.each body rest).Meets t ends := by
    intro rest
    induction rest with
    | nil =>
        intro before t whole holds
        rw [List.append_nil] at whole
        exact pure (finish t (whole ▸ holds))
    | cons x rest ih =>
        intro before t whole holds
        refine bind ((round before x rest t whole holds).mono ?_ ?_ ?_)
        · intro _ u next
          exact ih (before ++ [x]) u (by rw [whole, List.append_assoc, List.singleton_append]) next
        · exact fun _ _ failed => failed
        · exact fun _ died => died
  exact general list [] s rfl start

theorem zoom {view : σ → τ} {put : τ → σ → σ} {inner : Prog τ ε α}
    (meets : inner.Meets (view s) ⟨fun value t => ends.done value (put t s),
      fun error t => ends.failed error (put t s), fun t => ends.died (put t s)⟩) :
    (zoom view put inner).Meets s ends := by
  intro tape
  have known := meets tape
  unfold Prog.zoom
  rcases outcome : inner (view s) tape with ⟨result, t, after⟩
  rw [outcome] at known
  cases result with
  | done | failed | died => exact known

theorem caught {ends : Ends σ ε (Except ε α)}
    (meets : program.Meets s ⟨fun value t => ends.done (.ok value) t,
      fun error t => ends.done (.error error) t, ends.died⟩) :
    (caught program).Meets s ends := by
  intro tape
  have known := meets tape
  unfold Prog.caught
  rcases outcome : program s tape with ⟨result, t, after⟩
  rw [outcome] at known
  cases result with
  | done | failed | died => exact known

end Meets

/-- The program leaves the state as it is, and returns a value as said. -/
def Watches (program : Prog σ ε α) (s : σ) (seen : α → Prop) : Prop :=
  program.Meets s ⟨fun value t => t = s ∧ seen value, fun _ t => t = s, fun t => t = s⟩

namespace Watches

variable {program : Prog σ ε α} {seen : α → Prop} {error : ε} {rest : α → Prog σ ε β}

theorem pure {value} (holds : seen value) : (Pure.pure value : Prog σ ε α).Watches s seen :=
  Meets.pure ⟨rfl, holds⟩

theorem weaken {other : α → Prop} (watches : program.Watches s seen)
    (weaker : ∀ value, seen value → other value) : program.Watches s other := by
  refine watches.mono ?_ (fun _ _ same => same) fun _ same => same
  rintro value t ⟨same, holds⟩
  exact ⟨same, weaker value holds⟩

theorem throw : (throw error : Prog σ ε α).Watches s seen := Meets.throw rfl

theorem op {effect : σ → Option (α × σ)}
    (reads : ∀ value t, effect s = some (value, t) → t = s ∧ seen value) :
    (op error effect).Watches s seen := Meets.op reads rfl rfl

theorem ensure {condition} {seen : Unit → Prop} (holds : condition = true → seen ()) :
    (ensure error condition : Prog σ ε Unit).Watches s seen :=
  Meets.ensure (fun met => ⟨rfl, holds met⟩) fun _ => rfl

theorem bind {last : β → Prop} (first : program.Watches s seen)
    (next : ∀ value, seen value → (rest value).Watches s last) :
    (program >>= rest).Watches s last := by
  refine Meets.seq (fun value t => t = s ∧ seen value) first ?_
  rintro value t ⟨rfl, holds⟩
  exact next value holds

theorem caught {seen : Except ε α → Prop}
    (meets : program.Watches s fun value => seen (.ok value)) (failed : ∀ error, seen (.error error)) :
    (caught program).Watches s seen :=
  Meets.caught (meets.mono (fun _ _ holds => holds) (fun error _ same => ⟨same, failed error⟩)
    fun _ same => same)

/-- What follows a program that only watches. -/
theorem then_ {ends} (first : program.Watches s seen)
    (next : ∀ value, seen value → (rest value).Meets s ends) (failed : ∀ error, ends.failed error s)
    (died : ends.died s) : (program >>= rest).Meets s ends := by
  refine Meets.bind (Meets.mono first ?_ ?_ ?_)
  · rintro value t ⟨rfl, holds⟩
    exact next value holds
  · rintro error t rfl
    exact failed error
  · rintro t rfl
    exact died

end Watches

/-- However the program ends, the state that it leaves is related to the first. -/
def Moves (related : σ → σ → Prop) (program : Prog σ ε α) : Prop :=
  ∀ s tape, related s (program s tape).2.1

namespace Moves

variable {related : σ → σ → Prop} {program : Prog σ ε α}

theorem meets (moves : program.Moves related) (s : σ) : program.Meets s (.all (related s)) :=
  fun tape => Ends.hold_all.mpr (moves s tape)

theorem of_meets (meets : ∀ s, program.Meets s (.all (related s))) : program.Moves related :=
  fun s tape => Ends.hold_all.mp (meets s tape)

theorem mono {wider : σ → σ → Prop} (moves : program.Moves related)
    (weaken : ∀ s t, related s t → wider s t) : program.Moves wider :=
  fun s tape => weaken s _ (moves s tape)

/-- What a program moves to, together with how it ends. -/
theorem and_meets {ends} (moves : program.Moves related) (meets : program.Meets s ends) :
    program.Meets s ⟨fun value t => ends.done value t ∧ related s t,
      fun error t => ends.failed error t ∧ related s t, fun t => ends.died t ∧ related s t⟩ := by
  intro tape
  have moved := moves s tape
  have known := meets tape
  rcases outcome : program s tape with ⟨result, t, rest⟩
  rw [outcome] at moved known
  cases result with
  | done | failed | died => exact ⟨known, moved⟩

/-- A program that goes on from a state that was reached. -/
theorem after (trans : ∀ {s t u}, related s t → related t u → related s u)
    (moves : program.Moves related) {s t} (before : related s t) :
    program.Meets t (.all (related s)) :=
  (moves.meets t).mono (fun _ _ next => trans before next) (fun _ _ next => trans before next)
    fun _ next => trans before next

theorem bind {rest : α → Prog σ ε β} (first : program.Moves related)
    (next : ∀ value, (rest value).Moves related)
    (trans : ∀ {s t u}, related s t → related t u → related s u) : (program >>= rest).Moves related := by
  refine of_meets fun s => Meets.seq (fun _ t => related s t) (first.meets s) ?_
  intro value t before
  exact @Moves.after _ _ _ related _ trans (next value) s t before

section Preorder

variable (refl : ∀ s, related s s) (trans : ∀ {s t u}, related s t → related t u → related s u)

include refl

theorem pure (value : α) : (Pure.pure value : Prog σ ε α).Moves related := fun s _ => refl s

theorem throw (error : ε) : (throw error : Prog σ ε α).Moves related := fun s _ => refl s

theorem ensure (error : ε) (condition : Bool) :
    (ensure error condition : Prog σ ε Unit).Moves related := by
  cases condition with
  | true => exact Moves.pure refl ()
  | false => exact Moves.throw refl error

theorem op {error : ε} {effect : σ → Option (α × σ)}
    (takes : ∀ s value t, effect s = some (value, t) → related s t) :
    (op error effect).Moves related := by
  refine of_meets fun s => Meets.op ?_ (refl s) (refl s)
  intro value t found
  exact takes s value t found

theorem onlyIf {condition} {program : Prog σ ε Unit}
    (moves : condition = true → program.Moves related) :
    (onlyIf condition program).Moves related := by
  cases condition with
  | true => exact moves rfl
  | false => exact Moves.pure refl ()

include trans

theorem each {body : β → Prog σ ε Unit} {list} (moves : ∀ x ∈ list, (body x).Moves related) :
    (each body list).Moves related := by
  induction list with
  | nil => exact Moves.pure refl ()
  | cons x rest ih =>
      refine (moves x List.mem_cons_self).bind (fun _ => ?_) trans
      exact ih fun y member => moves y (List.mem_cons_of_mem x member)

end Preorder

end Moves

/-- The program returns a value only when every operation that it made passed. -/
def Strict (program : Prog σ ε α) : Prop :=
  ∀ s tape value t rest, program s tape = (.done value, t, rest) →
    ∃ used, tape = used ++ rest ∧ ∀ verdict ∈ used, verdict = .pass

theorem bind_done {program : Prog σ ε α} {rest : α → Prog σ ε β} {tape last u left}
    (ended : (program >>= rest) s tape = (.done last, u, left)) :
    ∃ value t later, program s tape = (.done value, t, later) ∧ rest value t later = (.done last, u, left) := by
  change Prog.bind program rest s tape = _ at ended
  unfold Prog.bind at ended
  rcases outcome : program s tape with ⟨result, t, later⟩
  rw [outcome] at ended
  cases result with
  | done value => exact ⟨value, t, later, rfl, ended⟩
  | failed error => cases ended
  | died => cases ended

namespace Strict

variable {error : ε}

theorem pure (value : α) : (Pure.pure value : Prog σ ε α).Strict := by
  intro s tape value t rest ended
  cases ended
  exact ⟨[], rfl, by simp⟩

theorem throw : (throw error : Prog σ ε α).Strict := by
  intro s tape value t rest ended
  cases ended

theorem op {effect : σ → Option (α × σ)} : (op error effect).Strict := by
  intro s tape value t rest ended
  unfold Prog.op at ended
  split at ended
  · next passed =>
      have left : tape.tail = rest := by
        split at ended
        · cases ended
        · exact congrArg (fun outcome => outcome.2.2) ended
      cases tape with
      | nil => exact ⟨[], left, by simp⟩
      | cons verdict tape => exact ⟨[verdict], congrArg (verdict :: ·) left, by simpa using passed⟩
  · cases ended
  · cases ended

theorem ensure {condition} : (ensure error condition : Prog σ ε Unit).Strict := by
  cases condition with
  | true => exact pure ()
  | false => exact throw

theorem onlyIf {condition} {program : Prog σ ε Unit} (strict : program.Strict) :
    (onlyIf condition program).Strict := by
  cases condition with
  | true => exact strict
  | false => exact pure ()

theorem bind {program : Prog σ ε α} {rest : α → Prog σ ε β} (first : program.Strict)
    (next : ∀ value, (rest value).Strict) : (program >>= rest).Strict := by
  intro s tape last u left ended
  obtain ⟨value, t, later, before, after⟩ := bind_done ended
  obtain ⟨used, rfl, passed⟩ := first s tape value t later before
  obtain ⟨more, rfl, also⟩ := next value t later last u left after
  exact ⟨used ++ more, (List.append_assoc ..).symm, List.forall_mem_append.mpr ⟨passed, also⟩⟩

theorem each {body : β → Prog σ ε Unit} {list} (strict : ∀ x, (body x).Strict) :
    (each body list).Strict := by
  induction list with
  | nil => exact pure ()
  | cons x rest ih => exact bind (strict x) fun _ => ih

end Strict

section Breaks

variable {holds : σ → Prop} {tape : List Verdict}

end Breaks

/-- When no operation fails, the program ends with a value as said. -/
def Completes (program : Prog σ ε α) (s : σ) (done : α → σ → Prop) : Prop :=
  ∃ value t, program s [] = (.done value, t, []) ∧ done value t

namespace Completes

variable {program : Prog σ ε α} {done : α → σ → Prop}

theorem pure {value} (holds : done value s) :
    (Pure.pure value : Prog σ ε α).Completes s done := ⟨value, s, rfl, holds⟩

/-- What a program ends with in any case, it ends with when nothing fails. -/
theorem and_meets {ends} (completes : program.Completes s done) (meets : program.Meets s ends) :
    program.Completes s ends.done := by
  obtain ⟨value, t, outcome, _⟩ := completes
  have known := meets []
  rw [outcome] at known
  exact ⟨value, t, outcome, known⟩

theorem get {done : σ → σ → Prop} (holds : done s s) : (get : Prog σ ε σ).Completes s done :=
  ⟨s, s, rfl, holds⟩

theorem modify {f : σ → σ} {done : Unit → σ → Prop} (holds : done () (f s)) :
    (modify f : Prog σ ε Unit).Completes s done := ⟨(), f s, rfl, holds⟩

theorem bind {rest : α → Prog σ ε β} {done : β → σ → Prop}
    (first : program.Completes s fun value t => (rest value).Completes t done) :
    (program >>= rest).Completes s done := by
  obtain ⟨value, t, outcome, last, u, next, holds⟩ := first
  refine ⟨last, u, ?_, holds⟩
  change Prog.bind program rest s [] = _
  unfold Prog.bind
  rw [outcome]
  exact next

theorem op {error : ε} {effect : σ → Option (α × σ)} {value : α} {t : σ}
    (takes : effect s = some (value, t)) (holds : done value t) :
    (op error effect).Completes s done := by
  refine ⟨value, t, ?_, holds⟩
  unfold Prog.op
  rw [takes]
  rfl

theorem ensure {error condition} {done : Unit → σ → Prop} (met : condition = true)
    (holds : done () s) : (ensure error condition : Prog σ ε Unit).Completes s done := by
  rw [Prog.ensure, met]
  exact pure holds

theorem onlyIf {condition} {program : Prog σ ε Unit} {done : Unit → σ → Prop}
    (runs : condition = true → program.Completes s done) (skips : condition = false → done () s) :
    (onlyIf condition program).Completes s done := by
  cases condition with
  | true => exact runs rfl
  | false => exact pure (skips rfl)

theorem each {body : β → Prog σ ε Unit} {list} {done : Unit → σ → Prop}
    (invariant : List β → σ → Prop) (start : invariant [] s)
    (round : ∀ before x after t, list = before ++ x :: after → invariant before t →
      (body x).Completes t fun _ u => invariant (before ++ [x]) u)
    (finish : ∀ t, invariant list t → done () t) : (each body list).Completes s done := by
  have general : ∀ rest before t, list = before ++ rest → invariant before t →
      (Prog.each body rest).Completes t done := by
    intro rest
    induction rest with
    | nil =>
        intro before t whole holds
        rw [List.append_nil] at whole
        exact pure (finish t (whole ▸ holds))
    | cons x rest ih =>
        intro before t whole holds
        obtain ⟨value, u, outcome, next⟩ := round before x rest t whole holds
        refine bind ⟨value, u, outcome, ?_⟩
        exact ih (before ++ [x]) u (by rw [whole, List.append_assoc, List.singleton_append]) next
  exact general list [] s rfl start

theorem zoom {view : σ → τ} {put : τ → σ → σ} {inner : Prog τ ε α}
    (completes : inner.Completes (view s) fun value t => done value (put t s)) :
    (zoom view put inner).Completes s done := by
  obtain ⟨value, t, outcome, holds⟩ := completes
  refine ⟨value, put t s, ?_, holds⟩
  unfold Prog.zoom
  rw [outcome]

end Completes

end Prog

end Faults
