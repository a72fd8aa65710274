import Mathlib.Data.List.Infix

/-! # Frames in a stream

A stream of frames arrives in pieces that have nothing to do with the frames. At
every moment some frames are complete and one more may have begun.
-/

namespace Framing

variable {α : Type}

/-- The beginning `stream` of a sequence of frames holds the frames `whole` and
    then `tail`, which is not yet a frame. -/
def Cut (frames : List (List α)) (stream : List α) (whole : List (List α)) (tail : List α) : Prop :=
  ∃ rest, frames = whole ++ rest ∧ stream = whole.flatten ++ tail ∧ tail <+: rest.flatten ∧
    ∀ next ∈ rest.head?, tail.length < next.length

variable {frames rest whole more : List (List α)} {stream piece tail later : List α}

theorem cut_short (begun : tail <+: frames.flatten) (short : ∀ next ∈ frames.head?, tail.length < next.length) :
    Cut frames tail [] tail :=
  ⟨frames, rfl, rfl, begun, short⟩

theorem cut_nil (filled : ∀ frame ∈ frames, 0 < frame.length) : Cut frames [] [] [] :=
  cut_short List.nil_prefix fun next first => filled next (List.mem_of_mem_head? first)

/-- A frame that is complete comes first. -/
theorem cut_cons (frame : List α) (cut : Cut frames stream whole tail) :
    Cut (frame :: frames) (frame ++ stream) (frame :: whole) tail := by
  obtain ⟨rest, rfl, rfl, begun, short⟩ := cut
  exact ⟨rest, rfl, by simp, begun, short⟩

/-- What is left of the sequence after the complete frames. -/
theorem Cut.remaining (cut : Cut frames stream whole tail) (arrived : stream ++ piece <+: frames.flatten) :
    ∃ rest, frames = whole ++ rest ∧ tail ++ piece <+: rest.flatten ∧
      ∀ {more later}, Cut rest (tail ++ piece) more later →
        Cut frames (stream ++ piece) (whole ++ more) later := by
  obtain ⟨rest, rfl, rfl, -, -⟩ := cut
  rw [List.flatten_append, List.append_assoc, List.prefix_append_right_inj] at arrived
  refine ⟨rest, rfl, arrived, ?_⟩
  intro more later next
  obtain ⟨unread, rfl, split, begun, short⟩ := next
  refine ⟨unread, by simp, ?_, begun, short⟩
  rw [List.append_assoc, split, List.flatten_append, List.append_assoc]

/-- Once everything has arrived, every frame is complete. -/
theorem Cut.complete (cut : Cut frames frames.flatten whole tail) : whole = frames ∧ tail = [] := by
  obtain ⟨rest, rfl, all, begun, short⟩ := cut
  rw [List.flatten_append, List.append_cancel_left_eq] at all
  subst all
  cases rest with
  | nil => simp
  | cons next others =>
      have shorter := short next rfl
      rw [List.flatten_cons, List.length_append] at shorter
      omega

end Framing
