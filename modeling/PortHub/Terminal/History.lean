import Mathlib.Data.List.TakeDrop
import PortHub.Lib.Lines
import PortHub.Lib.Panics
import PortHub.Terminal.SnapshotCache

/-! # Pages of a frozen history

A viewer asks for the lines before those it already has. A page is cut out of the
frozen bytes at the bounds of its lines, and is shortened if it is too large.
Pages that follow each other cover the end of the history without a gap.
-/

namespace PortHub.Terminal.Snapshot

open Panics Lines

def maxCapture : Nat := 128 * 1024

structure CapturedPage where
  bytes : List UInt8
  total : UInt32
  lines : UInt16
  truncated : Bool
  pane : String

def total (snapshot : Snapshot) : UInt32 := UInt32.ofNat (snapshot.offsets.length - 1)

def page (snapshot : Snapshot) (before : UInt32) (lines : UInt16) : Guarded (Result CapturedPage) :=
  match historyRequest snapshot.pane before lines with
  | .error message => .ok (.error message)
  | .ok () => do
      let last := snapshot.total.toNat - before.toNat
      let count := min last lines.toNat
      let start ← index snapshot.offsets (← sub last count)
      let finish ← index snapshot.offsets last
      let limit := min finish (min (start + maxCapture) (2 ^ 64 - 1))
      let bytes ← slice snapshot.bytes start limit
      return .ok ⟨bytes, snapshot.total, UInt16.ofNat count, decide (limit < finish), snapshot.pane⟩

/-- Page after page towards the beginning, each before the lines of the pages
    that were returned; and how many lines those were. -/
def browse (snapshot : Snapshot) : UInt32 → List UInt16 → Guarded (Result (List CapturedPage × UInt32))
  | before, [] => .ok (.ok ([], before))
  | before, lines :: rest => do
      match ← snapshot.page before lines with
      | .error message => return .error message
      | .ok page =>
          match ← snapshot.browse (before + page.lines.toUInt32) rest with
          | .error message => return .error message
          | .ok (pages, last) => return .ok (page :: pages, last)

/-- The lines of some bytes, with their ends. -/
def textLines (bytes : List UInt8) : List (List UInt8) := Lines.lines (· == 10) bytes

section Offsets

/-- The end is added unless it is there already. -/
def sealed (starts : List Nat) (finish : Nat) : List Nat :=
  if starts.getLast? = some finish then starts else starts ++ [finish]

/-- The places behind the ends of lines. -/
def marks (start : Nat) (bytes : List UInt8) : List Nat :=
  ((bytes.zipIdx start).filter fun (byte, _) => byte == 10).map fun (_, index) => index + 1

theorem lineOffsets_eq_sealed (bytes : List UInt8) :
    lineOffsets bytes = sealed (0 :: marks 0 bytes) (0 + bytes.length) := by
  simp [lineOffsets, sealed, marks]

theorem sealed_cons_cons (first second : Nat) (rest : List Nat) (finish : Nat) :
    sealed (first :: second :: rest) finish = first :: sealed (second :: rest) finish := by
  unfold sealed
  rw [List.getLast?_cons_cons]
  split
  · rfl
  · rfl

/-- The first start does not decide about the end unless it is the only one. -/
theorem sealed_cons_eq {first second finish rest tail} (before : first < finish)
    (apart : second < finish) (same : sealed (second :: rest) finish = second :: tail) :
    sealed (first :: rest) finish = first :: tail := by
  cases rest with
  | nil =>
      simp only [sealed, List.getLast?_singleton, Option.some.injEq, if_neg (Nat.ne_of_lt apart),
        List.singleton_append, List.cons.injEq, true_and] at same
      simp only [sealed, List.getLast?_singleton, Option.some.injEq, if_neg (Nat.ne_of_lt before),
        List.singleton_append, same]
  | cons next others =>
      rw [sealed_cons_cons, List.cons.injEq] at same
      rw [sealed_cons_cons, same.2]

/-- The table of offsets holds the bounds of the lines. -/
theorem sealed_eq_bounds (start : Nat) (bytes : List UInt8) :
    sealed (start :: marks start bytes) (start + bytes.length) = bounds start (textLines bytes) := by
  induction bytes generalizing start with
  | nil => simp [sealed, marks, textLines, Lines.lines, bounds]
  | cons byte rest ih =>
      have shifted : start + (byte :: rest).length = start + 1 + rest.length := by
        rw [List.length_cons]
        omega
      unfold textLines Lines.lines
      rw [shifted]
      split
      · rename_i closes
        have first : marks start (byte :: rest) = (start + 1) :: marks (start + 1) rest := by
          simp [marks, closes]
        rw [first, sealed_cons_cons, ih]
        rfl
      · rename_i continues
        have same : marks start (byte :: rest) = marks (start + 1) rest := by
          simp [marks, continues]
        rw [same]
        have later := ih (start + 1)
        unfold textLines at later
        split
        · rename_i empty
          obtain rfl := (lines_eq_nil _).mp empty
          simp [sealed, marks, bounds]
        · rename_i first others found
          rw [found, bounds] at later
          have nonempty : rest ≠ [] := by
            rintro rfl
            cases found
          have positive := List.length_pos_of_ne_nil nonempty
          rw [sealed_cons_eq (by omega) (by omega) later, bounds, List.length_cons, Nat.add_right_comm,
            Nat.add_assoc start]

theorem lineOffsets_eq_bounds (bytes : List UInt8) :
    lineOffsets bytes = bounds 0 (textLines bytes) := by
  rw [lineOffsets_eq_sealed, sealed_eq_bounds]

end Offsets

/-- What `Snapshot::new` made of some bytes. -/
structure Holds (snapshot : Snapshot) (bytes : List UInt8) : Prop where
  frozen : snapshot.bytes = bytes
  offsets : snapshot.offsets = bounds 0 (textLines bytes)
  total : snapshot.total.toNat = (textLines bytes).length
  few : (textLines bytes).length ≤ 200000
  small : bytes.length ≤ maxSnapshot

theorem new_holds {id pane named bytes snapshot} (created : new id pane named bytes = .ok snapshot) :
    Holds snapshot bytes := by
  unfold new at created
  split at created
  · cases created
  · obtain ⟨_, _, created⟩ := bind_eq_ok.mp created
    split at created
    · rename_i small
      split at created
      · rename_i few
        obtain rfl := pure_eq_ok.mp created
        have offsets := lineOffsets_eq_bounds bytes
        have length : (lineOffsets bytes).length = (textLines bytes).length + 1 := by
          rw [offsets, bounds_length]
        refine ⟨rfl, offsets, ?_, by omega, small⟩
        simp only [total, length, Nat.add_sub_cancel, UInt32.toNat_ofNat']
        omega
      · cases created
    · cases created

section Pages

variable {snapshot : Snapshot} {bytes : List UInt8}

/-- The lines of a page: `count` of them, before the last `before`. -/
def pageText (bytes : List UInt8) (before count : Nat) : List UInt8 :=
  let last := (textLines bytes).length - before
  (((textLines bytes).take last).drop (last - count)).flatten

theorem request_ok (snapshot : Snapshot) {before lines} (reached : before ≤ 200000)
    (some : 1 ≤ lines) (bounded : lines ≤ 512) :
    historyRequest snapshot.pane before lines = .ok () :=
  historyRequest_again snapshot.resolved reached some bounded

/-- Where a page ends, beside where it starts. -/
theorem pageText_length (bytes : List UInt8) (before count : Nat) :
    let last := (textLines bytes).length - before
    ((textLines bytes).take (last - count)).flatten.length + (pageText bytes before count).length =
      ((textLines bytes).take last).flatten.length := by
  intro last
  have parts : ((textLines bytes).take last).flatten =
      ((textLines bytes).take (last - count)).flatten ++ pageText bytes before count := by
    have earlier : (textLines bytes).take (last - count) = ((textLines bytes).take last).take (last - count) := by
      rw [List.take_take, Nat.min_eq_left (Nat.sub_le _ _)]
    rw [earlier, pageText, ← List.flatten_append, List.take_append_drop]
  rw [parts, List.length_append]

/-- The bytes of a page, cut out of the history. -/
theorem pageText_eq (bytes : List UInt8) (before count : Nat) :
    let last := (textLines bytes).length - before
    pageText bytes before count = (bytes.take ((textLines bytes).take last).flatten.length).drop
      ((textLines bytes).take (last - count)).flatten.length := by
  intro last
  have whole : (textLines bytes).flatten = bytes := lines_flatten _ bytes
  have cut := flatten_slice (textLines bytes) (Nat.sub_le last count)
  rw [whole] at cut
  exact cut.symm

theorem cut_limited {bytes : List UInt8} {start finish limit}
    (limited : limit = min finish (start + maxCapture)) :
    (bytes.take limit).drop start = ((bytes.take finish).drop start).take maxCapture := by
  rw [List.drop_take, List.drop_take, List.take_take]
  congr 1
  omega

/-- A place in a snapshot is far from the largest number. -/
theorem saturates_not {start} (small : start ≤ maxSnapshot) : start + maxCapture ≤ 2 ^ 64 - 1 := by
  have far : maxSnapshot + maxCapture ≤ 2 ^ 64 - 1 := by decide
  omega

/-- Every index is in range, and the page holds its lines up to the limit. -/
theorem page_ok (holds : Holds snapshot bytes) {before lines}
    (requested : historyRequest snapshot.pane before lines = .ok ()) :
    let count := min ((textLines bytes).length - before.toNat) lines.toNat
    let text := pageText bytes before.toNat count
    snapshot.page before lines = .ok (.ok ⟨text.take maxCapture, snapshot.total, UInt16.ofNat count,
      decide (maxCapture < text.length), snapshot.pane⟩) := by
  obtain ⟨frozen, offsets, total, few, small⟩ := holds
  intro count text
  let last := (textLines bytes).length - before.toNat
  let start := ((textLines bytes).take (last - count)).flatten.length
  let finish := ((textLines bytes).take last).flatten.length
  have within : last ≤ (textLines bytes).length := Nat.sub_le _ _
  have counted : count ≤ last := Nat.min_le_left _ _
  have startAt : index snapshot.offsets (last - count) = .ok start := by
    rw [index, offsets, bounds_get 0 _ (by omega), Nat.zero_add]
  have finishAt : index snapshot.offsets last = .ok finish := by
    rw [index, offsets, bounds_get 0 _ within, Nat.zero_add]
  have sized : start + text.length = finish := pageText_length bytes before.toNat count
  have contained : finish ≤ bytes.length := by
    have whole : (textLines bytes).flatten = bytes := lines_flatten _ bytes
    have parts := congrArg List.length (List.take_append_drop last (textLines bytes) ▸ whole)
    rw [List.flatten_append, List.length_append] at parts
    omega
  let limit := min finish (min (start + maxCapture) (2 ^ 64 - 1))
  have limited : limit = min finish (start + maxCapture) := by
    have fits : start + maxCapture ≤ 2 ^ 64 - 1 := saturates_not (by omega)
    rw [← Nat.min_eq_left fits]
  have cut : slice snapshot.bytes start limit = .ok (text.take maxCapture) := by
    rw [frozen, slice_ok (by omega) (by omega), cut_limited limited]
    exact congrArg (fun text => Except.ok (text.take maxCapture)) (pageText_eq bytes before.toNat count).symm
  have shortened : decide (limit < finish) = decide (maxCapture < text.length) := by
    rw [decide_eq_decide]
    omega
  unfold page
  rw [requested]
  dsimp only
  rw [total, sub_ok counted]
  simp only [bind, Except.bind]
  rw [startAt, finishAt]
  dsimp only
  rw [cut, shortened]
  rfl

/-- The lines that come last. -/
def lastLines (bytes : List UInt8) (count : Nat) : List UInt8 :=
  ((textLines bytes).drop ((textLines bytes).length - count)).flatten

theorem lastLines_all (bytes : List UInt8) : lastLines bytes (textLines bytes).length = bytes := by
  rw [lastLines, Nat.sub_self, List.drop_zero]
  exact lines_flatten _ bytes

/-- A page and what comes after it. -/
theorem pageText_append (bytes : List UInt8) (before count : Nat)
    (inside : before + count ≤ (textLines bytes).length) :
    pageText bytes before count ++ lastLines bytes before = lastLines bytes (before + count) := by
  have earlier : (textLines bytes).length - before - count ≤ (textLines bytes).length - before :=
    Nat.sub_le _ _
  have whole : (textLines bytes).length - before - count = (textLines bytes).length - (before + count) :=
    Nat.sub_sub _ _ _
  rw [pageText, lastLines, lastLines, ← List.flatten_append, ← whole]
  congr 1
  rw [← List.drop_append_of_le_length, List.take_append_drop]
  rw [List.length_take]
  omega

/-- Pages that follow each other are the lines before those that were there. -/
theorem browse_ok (holds : Holds snapshot bytes) {sizes}
    (valid : ∀ lines ∈ sizes, 1 ≤ lines ∧ lines ≤ 512) {before : UInt32}
    (reached : before.toNat ≤ (textLines bytes).length) :
    ∃ pages last, snapshot.browse before sizes = .ok (.ok (pages, last)) ∧
      last.toNat = min (textLines bytes).length (before.toNat + (sizes.map UInt16.toNat).sum) ∧
      ((∀ page ∈ pages, page.truncated = false) →
        (pages.reverse.map (·.bytes)).flatten ++ lastLines bytes before.toNat =
          lastLines bytes last.toNat) := by
  induction sizes generalizing before with
  | nil =>
      refine ⟨[], before, rfl, ?_, fun _ => rfl⟩
      simp only [List.map_nil, List.sum_nil]
      omega
  | cons lines rest ih =>
      obtain ⟨⟨positive, bounded⟩, others⟩ := List.forall_mem_cons.mp valid
      have few := holds.few
      have early : before ≤ 200000 := UInt32.le_iff_toNat_le.mpr (reached.trans few)
      let count := min ((textLines bytes).length - before.toNat) lines.toNat
      let text := pageText bytes before.toNat count
      let shown : CapturedPage := ⟨text.take maxCapture, snapshot.total, UInt16.ofNat count,
        decide (maxCapture < text.length), snapshot.pane⟩
      have opened : snapshot.page before lines = .ok (.ok shown) :=
        page_ok holds (request_ok snapshot early positive bounded)
      have small : count < 65536 := Nat.lt_of_le_of_lt (Nat.min_le_right _ _) lines.toNat_lt
      have counted : (UInt16.ofNat count).toNat = count := by
        exact Nat.mod_eq_of_lt small
      have moved : (before + (UInt16.ofNat count).toUInt32).toNat = before.toNat + count := by
        rw [UInt32.toNat_add, UInt16.toNat_toUInt32, counted]
        omega
      obtain ⟨pages, last, browsed, lastly, joined⟩ :=
        @ih others (before + (UInt16.ofNat count).toUInt32) (by rw [moved]; omega)
      refine ⟨shown :: pages, last, ?_, ?_, ?_⟩
      · unfold browse
        rw [opened]
        simp only [bind, Except.bind]
        rw [browsed]
        rfl
      · rw [lastly, moved, List.map_cons, List.sum_cons]
        omega
      · intro whole
        obtain ⟨full, remaining⟩ := List.forall_mem_cons.mp whole
        have complete : text.take maxCapture = text :=
          List.take_of_length_le (Nat.le_of_not_lt (of_decide_eq_false full))
        rw [List.reverse_cons, List.map_append, List.flatten_append, List.map_singleton,
          List.flatten_singleton, List.append_assoc, ← joined remaining, moved]
        congr 1
        rw [← pageText_append bytes before.toNat count (by omega)]
        exact congrArg (· ++ lastLines bytes before.toNat) complete

end Pages

/-- A snapshot has as many lines as its bytes, every page is cut within the
    tables, is marked exactly when it was shortened, and pages that follow each
    other make up the end of the history and finally all of it. -/
theorem pages_tile_the_history {id pane : String} {named : token id 32 = true} {bytes : List UInt8}
    {snapshot : Snapshot} (created : new id pane named bytes = .ok snapshot) :
    snapshot.total.toNat = bytes.count 10 + (if bytes.getLast?.all (· == 10) then 0 else 1) ∧
    (∀ before lines, ∃ result, snapshot.page before lines = .ok result ∧
      ∀ page, result = .ok page →
        page.bytes = (pageText bytes before.toNat page.lines.toNat).take maxCapture ∧
        (page.truncated = true ↔ page.bytes ≠ pageText bytes before.toNat page.lines.toNat)) ∧
    ∀ sizes : List UInt16, (∀ lines ∈ sizes, 1 ≤ lines ∧ lines ≤ 512) →
      ∃ pages last, snapshot.browse 0 sizes = .ok (.ok (pages, last)) ∧
        last.toNat = min snapshot.total.toNat (sizes.map UInt16.toNat).sum ∧
        ((∀ page ∈ pages, page.truncated = false) →
          (pages.reverse.map (·.bytes)).flatten = lastLines bytes last.toNat ∧
          (snapshot.total.toNat ≤ (sizes.map UInt16.toNat).sum →
            (pages.reverse.map (·.bytes)).flatten = bytes)) := by
  have holds := new_holds created
  refine ⟨?_, ?_, ?_⟩
  · rw [holds.total]
    exact lines_length (· == 10) bytes
  · intro before lines
    cases requested : historyRequest snapshot.pane before lines with
    | error message =>
        refine ⟨.error message, ?_, ?_⟩
        · unfold page
          rw [requested]
        · nofun
    | ok =>
        let count := min ((textLines bytes).length - before.toNat) lines.toNat
        refine ⟨_, page_ok holds requested, ?_⟩
        intro page shown
        cases shown
        have counted : (UInt16.ofNat count).toNat = count := by
          exact Nat.mod_eq_of_lt (Nat.lt_of_le_of_lt (Nat.min_le_right _ _) lines.toNat_lt)
        rw [counted]
        refine ⟨rfl, ?_⟩
        rw [decide_eq_true_iff, ne_eq, List.take_eq_self_iff, Nat.not_le]
  · intro sizes valid
    have origin : (0 : UInt32).toNat ≤ (textLines bytes).length := Nat.zero_le _
    obtain ⟨pages, last, browsed, lastly, joined⟩ := browse_ok holds valid origin
    have none : lastLines bytes (0 : UInt32).toNat = [] := by
      simp [lastLines]
    rw [show (0 : UInt32).toNat = 0 from rfl, Nat.zero_add, ← holds.total] at lastly
    refine ⟨pages, last, browsed, lastly, fun whole => ?_⟩
    have suffix := joined whole
    rw [none, List.append_nil] at suffix
    refine ⟨suffix, fun enough => ?_⟩
    rw [suffix, lastly, Nat.min_eq_left enough, holds.total, lastLines_all]

theorem example_id_is_token : token "00112233445566778899aabbccddeeff" 32 = true := by
  decide

/-- Three lines, the last without an end, asked for in pages of two. -/
theorem unfinished_line_is_paged :
    ∃ snapshot, new "00112233445566778899aabbccddeeff" "%1" example_id_is_token [97, 10, 98, 10, 99] =
        .ok snapshot ∧
      snapshot.total.toNat = 3 ∧
      ∃ pages last, snapshot.browse 0 [2, 2] = .ok (.ok (pages, last)) ∧
        ((∀ page ∈ pages, page.truncated = false) →
          (pages.reverse.map (·.bytes)).flatten = [97, 10, 98, 10, 99]) := by
  have accepted : (new "00112233445566778899aabbccddeeff" "%1" example_id_is_token
      [97, 10, 98, 10, 99]).isOk = true := by
    decide
  cases created : new "00112233445566778899aabbccddeeff" "%1" example_id_is_token
      [97, 10, 98, 10, 99] with
  | error message =>
      rw [created] at accepted
      cases accepted
  | ok snapshot =>
      obtain ⟨total, _, tiled⟩ := pages_tile_the_history created
      have three : snapshot.total.toNat = 3 := total
      obtain ⟨pages, last, browsed, _, joined⟩ := tiled [2, 2] (by simp)
      refine ⟨snapshot, rfl, three, pages, last, browsed, fun whole => ?_⟩
      exact (joined whole).2 (by rw [three]; decide)

end PortHub.Terminal.Snapshot
