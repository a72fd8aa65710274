import PortHub.Api.Input

/-! # What checks read

A check either leaves its model as it is and yields a value, or it adds errors. So it
reads the model as a partial function does, and a sequence of checks reads what the
composition of these functions reads. A model without errors stays valid exactly when
the function yields a value.
-/

namespace PortHub.Api.Check

open Model

variable {α β : Type}

/-- The check yields what the function does, or adds errors where that is nothing. -/
def Reads (check : Check α) (read : Model → Option α) : Prop :=
  ∀ model : Model,
    (∃ value, read model = some value ∧ check.run model = (value, model)) ∨
    (read model = none ∧ ∃ value error more,
      check.run model = (value, { model with errors := model.errors ++ error :: more }))

namespace Reads

variable {check : Check α} {read : Model → Option α} {model : Model} {first : Check α}
  {views : α → Model → Option β} {left right : Model → Option α}

theorem congr {other : Model → Option α} (reads : Reads check read)
    (same : ∀ model, other model = read model) : Reads check other := by
  rwa [funext same]

theorem pure (value : α) : Reads (Pure.pure value : Check α) fun _ => some value :=
  fun _ => .inl ⟨value, rfl, rfl⟩

theorem get : Reads (MonadState.get : Check Model) some := fun model => .inl ⟨model, rfl, rfl⟩

theorem bind {next : α → Check β} {view : Model → Option α} (head : Reads first view)
    (tail : ∀ value, Reads (next value) (views value)) :
    Reads (first >>= next) fun model => (view model).bind fun value => views value model := by
  intro model
  dsimp only
  rcases head model with ⟨value, found, run⟩ | ⟨none, value, error, more, run⟩
  · rw [bind_run, run, found]
    exact tail value model
  · rw [bind_run, run, none]
    refine .inr ⟨rfl, ?_⟩
    rcases tail value { model with errors := model.errors ++ error :: more } with
      ⟨other, _, run⟩ | ⟨_, other, later, others, run⟩
    · exact ⟨other, error, more, run⟩
    · exact ⟨other, error, more ++ later :: others, by rw [run]; simp⟩

/-- After the model was looked at, the check may depend on it. -/
theorem look {next : Model → Check β} (views : Model → Model → Option β)
    (tail : ∀ seen, Reads (next seen) (views seen)) :
    Reads (MonadState.get >>= next) fun model => views model model :=
  .bind .get tail

theorem ite {condition : Prop} [Decidable condition] {second} (yes : Reads first left)
    (no : Reads second right) :
    Reads (if condition then first else second) fun model =>
      if condition then left model else right model := by
  split
  · exact yes
  · exact no

theorem addAt {key msg type ctx} :
    Reads (Check.addAt key msg type ctx) fun _ => none :=
  fun _ => .inr ⟨rfl, (), _, [], rfl⟩

/-- An error and a value that stands in. -/
theorem fail {first : Check Unit} (fails : Reads first fun _ => none) (value : α) :
    Reads (first >>= fun _ => Pure.pure value) fun _ => none := .bind fails fun _ => .pure value

/-- An error where the model fails a test, and the rest in any case. -/
theorem guarded {test : Model → Bool} {first : Check Unit} {rest : Check β} {view : Model → Option β}
    (fails : Reads first fun _ => none) (tail : Reads rest view) :
    Reads (MonadState.get >>= fun seen => if test seen = true then first >>= fun _ => rest else rest)
      fun model => (if test model = true then none else some ()).bind fun _ => view model := by
  refine .congr (.look (fun seen model => if test seen = true then none else view model) fun seen =>
    .ite (.bind fails fun _ => tail) tail) fun model => ?_
  split <;> rfl

/-- Two ways to a value, and the rest with either. -/
theorem branched {test : Model → Bool} {second} {rest : α → Check β} (yes : Reads first left)
    (no : Reads second right) (tail : ∀ value, Reads (rest value) (views value)) :
    Reads (MonadState.get >>= fun seen => if test seen = true then first >>= rest else second >>= rest)
      fun model => (if test model = true then left model else right model).bind fun value =>
        views value model := by
  refine .congr (.look (fun seen model => if test seen = true
      then (left model).bind fun value => views value model
      else (right model).bind fun value => views value model) fun seen =>
    .ite (.bind yes tail) (.bind no tail)) fun model => ?_
  split <;> rfl

theorem merge (child : Model) :
    Reads (merge child) fun _ => if child.errors = [] then some () else none := by
  intro model
  have run : (Check.merge child).run model =
      ((), { model with errors := model.errors ++ child.errors }) := rfl
  cases errors : child.errors with
  | nil =>
      rw [errors, List.append_nil] at run
      exact .inl ⟨(), rfl, run⟩
  | cons error more =>
      rw [errors] at run
      exact .inr ⟨rfl, (), error, more, run⟩

end Reads

section Fields

variable (numbers : Numbers) (key : String)

theorem missing_reads : Reads (missing key) fun _ => none := .addAt

theorem null_reads : Reads (null key) fun _ => none := .addAt

theorem requiredString_reads :
    Reads (requiredString numbers key) fun model => (model.field key).bind (stringOf numbers) := by
  refine .look (fun seen _ => (seen.field key).bind (stringOf numbers)) fun seen => ?_
  cases seen.field key with
  | none => exact .fail (missing_reads key) _
  | some value =>
      cases value with
      | null => exact .fail (null_reads key) _
      | bool value => cases value <;> exact .pure _
      | number text => exact .pure _
      | string text => exact .pure _
      | array items => exact .fail .addAt _
      | object fields => exact .fail .addAt _

theorem requiredBool_reads :
    Reads (requiredBool numbers key) fun model => (model.field key).bind (boolOf numbers) := by
  refine .look (fun seen _ => (seen.field key).bind (boolOf numbers)) fun seen => ?_
  cases seen.field key with
  | none => exact .fail (missing_reads key) _
  | some value =>
      cases value with
      | null => exact .fail (null_reads key) _
      | _ =>
          dsimp only [Option.bind_some]
          generalize boolOf numbers _ = parsed
          cases parsed with
          | none => exact .fail .addAt _
          | some value => exact .pure value

/-- The length of a string is checked where the field has no error yet. -/
theorem stringLength_reads (value : String) (minimum maximum : Nat) :
    Reads (stringLength key value minimum maximum) fun model =>
      if model.fieldValid key = true ∧ ¬(minimum ≤ value.length ∧ value.length ≤ maximum) then none
      else some () := by
  refine .look (fun seen _ => if seen.fieldValid key = true ∧
    ¬(minimum ≤ value.length ∧ value.length ≤ maximum) then none else some ()) fun seen => ?_
  split
  · rename_i valid
    dsimp only
    split
    · rw [if_pos ⟨valid, by omega⟩]
      exact .addAt
    · split
      · rw [if_pos ⟨valid, by omega⟩]
        exact .addAt
      · rw [if_neg (by omega)]
        exact .pure ()
  · rename_i invalid
    rw [if_neg fun both => invalid both.1]
    exact .pure ()

/-- The word in a field, or the default where there is none. -/
def literalView (default : String) (permitted : List String) (model : Model) : Option String :=
  match model.field key with
  | none => some default
  | some value => value.asStr.filter permitted.contains

theorem literal_reads (default : String) (permitted : List String) :
    Reads (literal key default permitted) (literalView key default permitted) := by
  refine .look (fun seen _ => literalView key default permitted seen) fun seen => ?_
  unfold literalView
  cases seen.field key with
  | none => exact .pure default
  | some value =>
      cases value with
      | null => exact .fail (null_reads key) _
      | _ =>
          dsimp only
          generalize Option.filter permitted.contains _ = parsed
          cases parsed with
          | none => exact .fail .addAt _
          | some value => exact .pure value

/-- The values of the list in a field. -/
def listView (model : Model) : Option (List Value) :=
  match model.field key with
  | none => some []
  | some (.array values) => some values
  | some _ => none

theorem list_reads : Reads (list key) (listView key) := by
  refine .look (fun seen _ => listView key seen) fun seen => ?_
  unfold listView
  cases seen.field key with
  | none => exact .pure []
  | some value =>
      cases value with
      | null => exact .fail (null_reads key) _
      | array values => exact .pure values
      | _ => exact .fail .addAt _

theorem boundedList_reads (required : Bool) (minimum maximum : Nat) :
    Reads (boundedList key required minimum maximum) fun model =>
      if (model.field key).isNone && required then none
      else
        (listView key model).bind fun values =>
          if !model.fieldValid key then some []
          else if values.length < minimum ∨ maximum < values.length then none
          else some values := by
  refine .look (fun seen model =>
    if (seen.field key).isNone && required then none
    else
      (listView key model).bind fun values =>
        if !model.fieldValid key then some []
        else if values.length < minimum ∨ maximum < values.length then none
        else some values) fun seen => ?_
  refine .ite (.fail (missing_reads key) _) (.bind (list_reads key) fun values => ?_)
  refine .look (fun seen _ =>
    if !seen.fieldValid key then some []
    else if values.length < minimum ∨ maximum < values.length then none
    else some values) fun seen => ?_
  refine .ite (.pure []) ?_
  split
  · rw [if_pos (.inl ‹_›)]
    exact .fail .addAt _
  · split
    · rw [if_pos (.inr ‹_›)]
      exact .fail .addAt _
    · rw [if_neg (by omega)]
      exact .pure values

end Fields

end PortHub.Api.Check
