import PortHub.Lib.Pieces
import PortHub.Runtime.Journal

/-! # Reads of the journal

Repeated reads return the batches of the lines after the checkpoint, each once. A line
of at least the read limit is skipped in stretches of that limit, and what is left of it
is read as a line of its own.
-/

namespace PortHub.Runtime.Activity

open Pieces

section Lines

/-- What is left of a line when whole stretches of the limit are skipped. -/
def remainder (line : List UInt8) : List UInt8 := line.drop (line.length / maxRead * maxRead)

theorem remainder_of_short {line : List UInt8} (short : line.length < maxRead) : remainder line = line := by
  rw [remainder, Nat.div_eq_of_lt short, Nat.zero_mul, List.drop_zero]

theorem remainder_append {stretch : List UInt8} (full : stretch.length = maxRead) (line : List UInt8) :
    remainder (stretch ++ line) = remainder line := by
  have positive : 0 < maxRead := by decide
  have count : (stretch ++ line).length / maxRead * maxRead =
      stretch.length + line.length / maxRead * maxRead := by
    rw [List.length_append, full, Nat.add_div_left _ positive, Nat.succ_mul, Nat.add_comm]
  rw [remainder, remainder, count, List.drop_length_add_append]

/-- Newline-terminated lines of a text. -/
def lines (text : List UInt8) : List (List UInt8) := complete newline text

/-- The incomplete line at the end of a text. -/
def tail (text : List UInt8) : List UInt8 := leftover newline text

variable (lib : Libraries)

/-- The batch that a line gives. -/
def returned (line : List UInt8) : Option Batch :=
  if remainder line = [] then none else accepted lib (remainder line)

/-- A line that is no batch, or too long. Empty lines are skipped. -/
def flawed (line : List UInt8) : Bool :=
  decide (maxRead ≤ line.length) || (!(remainder line).isEmpty && (accepted lib (remainder line)).isNone)

def batchesOf (text : List UInt8) : List Batch := (lines text).filterMap (returned lib)

/-- Something in the text raises the gap. -/
def spoiled (closed : Bool) (text : List UInt8) : Bool :=
  (lines text).any (flawed lib) || if closed then !(tail text).isEmpty else decide (maxRead ≤ (tail text).length)

end Lines

/-- A text whose beginning was read, and what the read made of it. -/
structure Consumed (lib : Libraries) (closed : Bool) (text : List UInt8) (batches : List Batch) (gap : Bool)
    (after : List UInt8) : Prop where
  batches : batchesOf lib text = batches ++ batchesOf lib after
  gap : spoiled lib closed text = (gap || spoiled lib closed after)
  tail : closed = false → remainder (tail text) = remainder (tail after)

section Consuming

variable {lib : Libraries} {closed : Bool} {text : List UInt8}

theorem Consumed.nothing : Consumed lib closed text [] false text := ⟨rfl, rfl, fun _ => rfl⟩

/-- Whole lines within the limit. -/
theorem Consumed.whole {front : List UInt8} {after} (short : front.length < maxRead) :
    Consumed lib closed (front ++ newline :: after)
      (((front.splitOn newline).filter (!·.isEmpty)).filterMap (accepted lib))
      (((front.splitOn newline).filter (!·.isEmpty)).any fun line => (accepted lib line).isNone) after := by
  have within : ∀ line ∈ front.splitOn newline, line.length < maxRead := by
    intro line member
    exact (mem_splitOn member).2.length_le.trans_lt short
  have same : ∀ line ∈ front.splitOn newline, remainder line = line := by
    intro line member
    exact remainder_of_short (within line member)
  constructor
  · rw [batchesOf, lines, complete_append_cons, List.filterMap_append, List.filterMap_filter]
    congr 1
    refine List.filterMap_congr fun line member => ?_
    cases line with
    | nil => rw [returned, same [] member, if_pos rfl]; rfl
    | cons byte rest => rw [returned, same _ member, if_neg (List.cons_ne_nil _ _)]; rfl
  · rw [spoiled, spoiled, lines, complete_append_cons, List.any_append, Bool.or_assoc, List.any_filter,
      Activity.tail, leftover_append_cons]
    congr 1
    rw [Bool.eq_iff_iff, List.any_eq_true, List.any_eq_true]
    refine exists_congr fun line => and_congr_right fun member => ?_
    have fits : ¬maxRead ≤ line.length := Nat.not_le.mpr (within line member)
    simp [flawed, same line member, fits]
  · intro _
    rw [Activity.tail, Activity.tail, leftover_append_cons]

theorem flawed_of_long {line : List UInt8} (long : maxRead ≤ line.length) : flawed lib line = true := by
  simp [flawed, long]

/-- A stretch of the limit without the end of a line. -/
theorem Consumed.stretch {front after} (clear : newline ∉ front) (full : front.length = maxRead) :
    Consumed lib closed (front ++ after) [] true after := by
  have long : ∀ line : List UInt8, maxRead ≤ (front ++ line).length := by
    intro line
    rw [List.length_append, full]
    exact Nat.le_add_right _ _
  have pieces := splitOn_append_of_not_mem clear after
  cases split : after.splitOn newline with
  | nil => exact absurd split (List.splitOn_ne_nil _ _)
  | cons first others =>
      rw [split, List.modifyHead_cons] at pieces
      cases others with
      | nil =>
          have nonempty : front ++ first ≠ [] := by
            intro empty
            have := long first
            rw [empty] at this
            exact absurd this (by decide)
          have tail : Activity.tail (front ++ after) = front ++ first := by
            rw [Activity.tail, leftover, pieces]
            rfl
          have rest : Activity.tail after = first := by
            rw [Activity.tail, leftover, split]
            rfl
          constructor
          · rw [batchesOf, batchesOf, lines, lines, complete, complete, pieces, split]
            rfl
          · rw [spoiled, tail]
            cases closed
            · simp only [Bool.false_eq_true, if_false, decide_eq_true (long first), Bool.or_true, Bool.true_or]
            · simp [nonempty]
          · intro _
            rw [tail, rest]
            exact remainder_append full first
      | cons second others =>
          have tail : Activity.tail (front ++ after) = Activity.tail after := by
            rw [Activity.tail, Activity.tail, leftover, leftover, pieces, split]
            simp only [List.getLastD_cons]
          have same : returned lib (front ++ first) = returned lib first := by
            rw [returned, returned, remainder_append full]
          constructor
          · rw [batchesOf, batchesOf, lines, lines, complete, complete, pieces, split, List.dropLast_cons_cons,
              List.dropLast_cons_cons, List.filterMap_cons, List.filterMap_cons, same, List.nil_append]
          · rw [spoiled, lines, complete, pieces, List.dropLast_cons_cons, List.any_cons,
              flawed_of_long (long first), Bool.true_or, Bool.true_or, Bool.true_or]
          · intro _
            rw [tail]

/-- The incomplete tail of a closed segment. -/
theorem Consumed.torn (clear : newline ∉ text) (nonempty : text ≠ []) :
    Consumed lib true text [] true [] := by
  refine ⟨?_, ?_, by simp⟩
  · rw [batchesOf, lines, complete_of_not_mem clear]
    rfl
  · rw [spoiled, lines, complete_of_not_mem clear, Activity.tail, leftover_of_not_mem clear]
    simp [nonempty]

theorem Consumed.trans {middle after first second early late}
    (front : Consumed lib closed text first early middle)
    (back : Consumed lib closed middle second late after) :
    Consumed lib closed text (first ++ second) (early || late) after := by
  constructor
  · rw [front.batches, back.batches, List.append_assoc]
  · rw [front.gap, back.gap, Bool.or_assoc]
  · intro last
    rw [front.tail last, back.tail last]

end Consuming

section Segments

/-- The last newline of a text, or none. -/
theorem lastEnd_spec (bytes : List UInt8) :
    (newline ∉ bytes ∧ lastEnd bytes = 0) ∨
      ∃ front tail, bytes = front ++ newline :: tail ∧ newline ∉ tail ∧ lastEnd bytes = front.length + 1 := by
  unfold lastEnd
  cases found : bytes.reverse.findIdx? (· == newline) with
  | none =>
      left
      refine ⟨?_, rfl⟩
      intro member
      have none := List.findIdx?_eq_none_iff.mp found newline (List.mem_reverse.mpr member)
      simp at none
  | some index =>
      right
      obtain ⟨inside, here, before⟩ := List.findIdx?_eq_some_iff_getElem.mp found
      have same : bytes.reverse[index] = newline := beq_iff_eq.mp here
      have cut : bytes.reverse = bytes.reverse.take index ++ newline :: bytes.reverse.drop (index + 1) := by
        rw [← same, ← List.drop_eq_getElem_cons inside, List.take_append_drop]
      refine ⟨(bytes.reverse.drop (index + 1)).reverse, (bytes.reverse.take index).reverse, ?_, ?_, ?_⟩
      · have back := congrArg List.reverse cut
        rw [List.reverse_reverse] at back
        exact back.trans (by simp)
      · intro member
        obtain ⟨place, low, equal⟩ := List.getElem_of_mem (List.mem_reverse.mp member)
        rw [List.length_take] at low
        rw [List.getElem_take] at equal
        exact before place (by omega) (beq_iff_eq.mpr equal)
      · rw [List.length_reverse] at inside
        simp only [Option.map_some, Option.getD_some, List.length_reverse, List.length_drop]
        omega

variable {lib : Libraries}

/-- How far a segment was read, and what is left where the budget is not spent. -/
structure Advanced (lib : Libraries) (closed : Bool) (contents : List UInt8) (start budget : Nat)
    (chunk : Chunk) : Prop where
  inside : chunk.offset ≤ contents.length
  forward : start ≤ chunk.offset
  read : Consumed lib closed (contents.drop start) chunk.batches chunk.gap (contents.drop chunk.offset)
  size : chunk.size ≤ budget
  progress : chunk.size = budget → budget = maxRead → start < chunk.offset
  rest : chunk.size < budget → newline ∉ contents.drop chunk.offset ∧
    (contents.drop chunk.offset).length < maxRead

theorem readLines_advanced (closed : Bool) {contents : List UInt8} {start budget}
    (inside : start ≤ contents.length) (positive : 0 < budget) (within : budget ≤ maxRead) :
    Advanced lib closed contents start budget (readLines lib contents start budget) := by
  have size : ((contents.drop start).take budget).length ≤ budget := List.length_take_le _ _
  have available : ((contents.drop start).take budget).length ≤ contents.length - start := by
    rw [← List.length_drop]
    exact List.length_take_le' _ _
  have cut : contents.drop start = (contents.drop start).take budget ++ (contents.drop start).drop budget :=
    (List.take_append_drop _ _).symm
  -- a read that leaves a part of the budget reaches the end
  have ended : ((contents.drop start).take budget).length < budget →
      contents.drop start = (contents.drop start).take budget := by
    intro less
    rw [List.length_take] at less
    exact (List.take_of_length_le (by omega)).symm
  generalize named : (contents.drop start).take budget = bytes at *
  rcases lastEnd_spec bytes with ⟨clear, none⟩ | ⟨front, tail, shape, clear, stop⟩
  · by_cases full : bytes.length = maxRead
    · have chunk : readLines lib contents start budget = ⟨[], true, start + bytes.length, bytes.length⟩ := by
        simp [readLines, named, none, full]
      have whole : bytes.length = budget := Nat.le_antisymm size (full ▸ within)
      have after : contents.drop (start + bytes.length) = (contents.drop start).drop budget := by
        rw [whole, List.drop_drop]
      rw [chunk]
      refine ⟨by dsimp only; omega, Nat.le_add_right _ _, ?_, size, ?_, ?_⟩
      · dsimp only
        rw [after]
        nth_rewrite 1 [cut]
        exact Consumed.stretch clear full
      · intro _ _
        dsimp only
        omega
      · intro less
        exact absurd whole (Nat.ne_of_lt less)
    · have chunk : readLines lib contents start budget = ⟨[], false, start, bytes.length⟩ := by
        simp [readLines, named, none, full]
      rw [chunk]
      refine ⟨inside, le_rfl, Consumed.nothing, size, ?_, ?_⟩
      · intro spent limit
        exact absurd (spent.trans limit) full
      · intro less
        dsimp only at less ⊢
        rw [ended less]
        exact ⟨clear, less.trans_le within⟩
  · have length : bytes.length = front.length + 1 + tail.length := by
      rw [shape, List.length_append, List.length_cons]
      omega
    have taken : bytes.take (front.length + 1) = front ++ [newline] := by
      rw [shape, List.take_length_add_append]
      rfl
    have pieces : (bytes.take (front.length + 1)).splitOn newline = front.splitOn newline ++ [[]] := by
      rw [taken, List.splitOn_append_cons_self]
      rfl
    have chunk : readLines lib contents start budget =
        ⟨((front.splitOn newline).filter (!·.isEmpty)).filterMap (accepted lib),
          ((front.splitOn newline).filter (!·.isEmpty)).any fun line => (accepted lib line).isNone,
          start + (front.length + 1), bytes.length⟩ := by
      have some : (front.length + 1 == 0) = false := rfl
      simp only [readLines, named, stop, pieces, List.filter_append, some]
      simp
    have text : contents.drop start = front ++ newline :: (tail ++ (contents.drop start).drop budget) := by
      rw [← List.cons_append, ← List.append_assoc, ← shape, ← cut]
    have after : contents.drop (start + (front.length + 1)) = tail ++ (contents.drop start).drop budget := by
      have dropped := congrArg (List.drop (front.length + 1)) text
      rw [List.drop_length_add_append, List.drop_drop] at dropped
      exact dropped
    rw [chunk]
    refine ⟨by dsimp only; omega, Nat.le_add_right _ _, ?_, size, ?_, ?_⟩
    · dsimp only
      rw [after]
      nth_rewrite 1 [text]
      exact Consumed.whole (by omega)
    · intro _ _
      dsimp only
      omega
    · intro less
      dsimp only at less ⊢
      have all : (contents.drop start).drop budget = [] := by
        rw [ended less]
        exact List.drop_of_length_le size
      rw [after, all, List.append_nil]
      exact ⟨clear, by omega⟩

/-- The rule for closed segments. -/
theorem readSegment_advanced (closed : Bool) {contents : List UInt8} {start budget}
    (inside : start ≤ contents.length) (positive : 0 < budget) (within : budget ≤ maxRead) :
    Advanced lib closed contents start budget (readSegment lib closed contents start budget) ∧
      (closed = true → (readSegment lib closed contents start budget).size < budget →
        (readSegment lib closed contents start budget).offset = contents.length) := by
  have known : decide (contents.length < start) = false := decide_eq_false (Nat.not_lt.mpr inside)
  have advanced : Advanced lib closed contents start budget (readLines lib contents start budget) :=
    readLines_advanced closed inside positive within
  unfold readSegment
  simp only [known, Bool.false_eq_true, if_false, Bool.false_or]
  generalize readLines lib contents start budget = chunk at advanced
  by_cases torn : closed = true ∧ chunk.offset < contents.length ∧ chunk.size < budget
  · obtain ⟨rfl, short, spare⟩ := torn
    have flag : (true && decide (chunk.offset < contents.length) && decide (chunk.size < maxRead)
        && decide (0 < budget - chunk.size)) = true := by
      simp only [short, decide_true, Bool.true_and, Bool.and_eq_true, decide_eq_true_eq]
      omega
    obtain ⟨clear, few⟩ := advanced.rest spare
    have nonempty : contents.drop chunk.offset ≠ [] := by
      intro empty
      rw [List.drop_eq_nil_iff] at empty
      omega
    simp only [flag, if_true, Bool.or_true]
    refine ⟨⟨le_rfl, inside, ?_, advanced.size, ?_, ?_⟩, fun _ _ => trivial⟩
    · have read := advanced.read.trans (Consumed.torn clear nonempty)
      simpa using read
    · intro spent _
      exact absurd spent (Nat.ne_of_lt spare)
    · intro _
      simp [maxRead]
  · have flag : (closed && decide (chunk.offset < contents.length) && decide (chunk.size < maxRead)
        && decide (0 < budget - chunk.size)) = false := by
      rw [← Bool.not_eq_true]
      intro set
      simp only [Bool.and_eq_true, decide_eq_true_eq] at set
      exact torn ⟨set.1.1.1, set.1.1.2, by omega⟩
    simp only [flag, Bool.false_eq_true, if_false, Bool.or_false]
    refine ⟨advanced, fun shut spare => ?_⟩
    have := advanced.inside
    by_contra other
    exact torn ⟨shut, by omega, spare⟩

end Segments

section Positions

/-- Where a read continues. -/
structure Position where
  segment : Segment
  rest : List Segment
  offset : Nat
  inside : offset ≤ segment.bytes.length

/-- The texts after a position, in segment order. -/
def Position.texts (position : Position) : List (List UInt8) :=
  position.segment.bytes.drop position.offset :: position.rest.map Segment.bytes

/-- The bytes and the segments that are left. -/
def Position.left (position : Position) : Nat :=
  (position.texts.map List.length).sum + position.rest.length

def allBatches (lib : Libraries) (texts : List (List UInt8)) : List Batch := texts.flatMap (batchesOf lib)

/-- All texts but the last one are closed. -/
def anySpoiled (lib : Libraries) : List (List UInt8) → Bool
  | [] => false
  | text :: rest => spoiled lib (!rest.isEmpty) text || anySpoiled lib rest

/-- The incomplete line at the end of the last text, without what is skipped of it. -/
def residue (texts : List (List UInt8)) : List UInt8 := remainder (tail (texts.getLastD []))

/-- A read from one position to another. -/
structure Moved (lib : Libraries) (before : Position) (read : Read) (after : Position) : Prop where
  suffix : (after.segment :: after.rest) <:+ (before.segment :: before.rest)
  checkpoint : read.checkpoint = ⟨after.segment.identity, after.offset⟩
  batches : allBatches lib before.texts = read.batches ++ allBatches lib after.texts
  gap : anySpoiled lib before.texts = (read.gap || anySpoiled lib after.texts)
  residue : residue before.texts = residue after.texts
  left : after.left ≤ before.left
  done : read.more = false → after.rest = [] ∧
    newline ∉ after.segment.bytes.drop after.offset ∧ (after.segment.bytes.drop after.offset).length < maxRead

variable {lib : Libraries}

/-- What a second read adds. -/
def Read.join (first later : Read) : Read :=
  { later with batches := first.batches ++ later.batches, gap := first.gap || later.gap }

theorem Moved.join {before middle after first later} (front : Moved lib before first middle)
    (back : Moved lib middle later after) : Moved lib before (first.join later) after where
  suffix := back.suffix.trans front.suffix
  __ := back
  batches := by rw [front.batches, back.batches, Read.join, List.append_assoc]
  gap := by rw [front.gap, back.gap, Read.join, Bool.or_assoc]
  residue := front.residue.trans back.residue
  left := back.left.trans front.left

/-- Within one segment. -/
theorem Advanced.moved {segment : Segment} {rest : List Segment} {start budget chunk more}
    (inside : start ≤ segment.bytes.length)
    (advanced : Advanced lib (!rest.isEmpty) segment.bytes start budget chunk)
    (done : more = false → rest = [] ∧ newline ∉ segment.bytes.drop chunk.offset ∧
      (segment.bytes.drop chunk.offset).length < maxRead) :
    Moved lib ⟨segment, rest, start, inside⟩ ⟨⟨segment.identity, chunk.offset⟩, chunk.batches, chunk.gap, more⟩
      ⟨segment, rest, chunk.offset, advanced.inside⟩ := by
  refine ⟨List.suffix_rfl, rfl, ?_, ?_, ?_, ?_, done⟩
  · simp only [allBatches, Position.texts, List.flatMap_cons, advanced.read.batches, List.append_assoc]
  · simp only [Position.texts, anySpoiled, List.isEmpty_map, advanced.read.gap, Bool.or_assoc]
  · cases rest with
    | nil => exact advanced.read.tail rfl
    | cons next rest => rfl
  · have := advanced.forward
    simp only [Position.left, Position.texts, List.map_cons, List.sum_cons, List.length_drop]
    omega

theorem Position.left_next (segment next : Segment) (rest : List Segment) {start}
    (inside : start ≤ segment.bytes.length) :
    Position.left ⟨next, rest, 0, Nat.zero_le _⟩ < Position.left ⟨segment, next :: rest, start, inside⟩ := by
  simp only [Position.left, Position.texts, List.map_cons, List.sum_cons, List.length_drop, List.length_cons]
  omega

/-- From the end of a segment to the next one. -/
theorem Moved.cross (segment next : Segment) (rest : List Segment) {offset}
    (inside : offset ≤ segment.bytes.length) (reached : segment.bytes.length ≤ offset) :
    Moved lib ⟨segment, next :: rest, offset, inside⟩ ⟨⟨next.identity, 0⟩, [], false, true⟩
      ⟨next, rest, 0, Nat.zero_le _⟩ := by
  have ended : segment.bytes.drop offset = [] := List.drop_of_length_le reached
  refine ⟨List.suffix_cons _ _, rfl, ?_, ?_, rfl, (Position.left_next segment next rest inside).le,
    fun done => nomatch done⟩
  · simp only [allBatches, Position.texts, List.flatMap_cons, ended]
    rfl
  · simp only [Position.texts, anySpoiled, ended]
    rfl

/-- A read that stops in this segment. -/
theorem Advanced.stops {segment : Segment} {rest : List Segment} {start budget chunk more}
    (inside : start ≤ segment.bytes.length)
    (advanced : Advanced lib (!rest.isEmpty) segment.bytes start budget chunk)
    (spent : more = true → chunk.size = budget)
    (done : more = false → rest = [] ∧ newline ∉ segment.bytes.drop chunk.offset ∧
      (segment.bytes.drop chunk.offset).length < maxRead) :
    ∃ after, Moved lib ⟨segment, rest, start, inside⟩
        ⟨⟨segment.identity, chunk.offset⟩, chunk.batches, chunk.gap, more⟩ after ∧
      (more = true → budget = maxRead → after.left < Position.left ⟨segment, rest, start, inside⟩) := by
  refine ⟨_, advanced.moved inside done, fun flag limit => ?_⟩
  have forward := advanced.progress (spent flag) limit
  have := advanced.inside
  simp only [Position.left, Position.texts, List.map_cons, List.sum_cons, List.length_drop]
  omega

theorem readSegments_moved (segment : Segment) (rest : List Segment) {start budget}
    (inside : start ≤ segment.bytes.length) (positive : 0 < budget) (within : budget ≤ maxRead) :
    ∃ after, Moved lib ⟨segment, rest, start, inside⟩ (readSegments lib segment rest start budget) after ∧
      ((readSegments lib segment rest start budget).more = true → budget = maxRead →
        after.left < Position.left ⟨segment, rest, start, inside⟩) := by
  induction rest generalizing segment start budget with
  | nil =>
      obtain ⟨advanced, -⟩ := @readSegment_advanced lib false _ _ _ inside positive within
      have size := advanced.size
      rw [readSegments]
      simp only [List.isEmpty_nil, Bool.not_true]
      split
      · refine advanced.stops inside (fun flag => ?_) (fun flag => ⟨rfl, advanced.rest ?_⟩)
        · rw [beq_iff_eq] at flag
          omega
        · rw [beq_eq_false_iff_ne] at flag
          omega
      · rename_i reached
        have ended : segment.bytes.drop (readSegment lib false segment.bytes start budget).offset = [] :=
          List.drop_of_length_le (Nat.not_lt.mp reached)
        have done : newline ∉ segment.bytes.drop (readSegment lib false segment.bytes start budget).offset ∧
            (segment.bytes.drop (readSegment lib false segment.bytes start budget).offset).length < maxRead := by
          rw [ended]
          exact ⟨List.not_mem_nil, by decide⟩
        split
        · exact advanced.stops inside (fun flag => nomatch flag) (fun _ => ⟨rfl, done⟩)
        · exact advanced.stops inside (fun flag => nomatch flag) (fun _ => ⟨rfl, done⟩)
  | cons next rest ih =>
      obtain ⟨advanced, closed⟩ := @readSegment_advanced lib true _ _ _ inside positive within
      have size := advanced.size
      rw [readSegments]
      simp only [List.isEmpty_cons, Bool.not_false]
      split
      · rename_i short
        have spent : (readSegment lib true segment.bytes start budget).size = budget := by
          by_contra other
          have := closed rfl (by omega)
          omega
        refine advanced.stops inside (fun _ => spent) (fun flag => ?_)
        rw [beq_eq_false_iff_ne] at flag
        omega
      · rename_i reached
        split
        · exact advanced.stops inside (fun _ => by omega) (fun flag => nomatch flag)
        · rename_i spare
          obtain ⟨after, moved, -⟩ := ih next (Nat.zero_le _) (Nat.pos_of_ne_zero spare)
            ((Nat.sub_le _ _).trans within)
          have here := @Advanced.moved lib segment (next :: rest) _ _ _ true inside advanced
            (fun flag => nomatch flag)
          have across := here.join (Moved.cross segment next rest advanced.inside (Nat.not_lt.mp reached))
          refine ⟨after, ?_, fun _ _ => moved.left.trans_lt (Position.left_next segment next rest inside)⟩
          simpa only [Read.join, List.append_nil, Bool.or_false] using across.join moved

end Positions

section Journals

/-- The segments of a journal are different files. -/
structure Journal where
  segments : List Segment
  nonempty : segments ≠ []
  distinct : (segments.map Segment.identity).Nodup

/-- A checkpoint in the journal, or its beginning. -/
def Journal.Valid (journal : Journal) (checkpoint : Option Checkpoint) (position : Position) : Prop :=
  (position.segment :: position.rest) <:+ journal.segments ∧
    match checkpoint with
    | none => position.segment :: position.rest = journal.segments ∧ position.offset = 0
    | some checkpoint => checkpoint = ⟨position.segment.identity, position.offset⟩

variable {lib : Libraries}

theorem readBatch_valid {journal : Journal} {checkpoint position}
    (valid : journal.Valid checkpoint position) :
    readBatch lib journal.segments checkpoint =
      some (readSegments lib position.segment position.rest position.offset maxRead) := by
  obtain ⟨⟨front, shape⟩, place⟩ := valid
  unfold readBatch
  cases checkpoint with
  | none =>
      obtain ⟨whole, start⟩ := place
      simp [← whole, start]
  | some checkpoint =>
      subst place
      have earlier : front.findIdx? (·.identity == position.segment.identity) = none := by
        rw [List.findIdx?_eq_none_iff]
        intro segment member
        rw [beq_eq_false_iff_ne]
        intro same
        have distinct := journal.distinct
        rw [← shape, List.map_append, List.map_cons, List.nodup_append] at distinct
        exact distinct.2.2 _ (List.mem_map_of_mem member) _ List.mem_cons_self same
      have found : journal.segments.findIdx? (·.identity == position.segment.identity) = some front.length := by
        rw [← shape, List.findIdx?_append, earlier, List.findIdx?_cons]
        simp
      have dropped : journal.segments.drop front.length = position.segment :: position.rest := by
        rw [← shape, List.drop_left]
      simp [found, dropped]

/-- Reading on from a position comes to an end. -/
theorem reads_from {journal : Journal} {checkpoint position}
    (valid : journal.Valid checkpoint position) :
    ∃ reads after, Reads lib journal.segments checkpoint reads ∧
      ∃ read, reads.getLast? = some read ∧ read.more = false ∧
        Moved lib position ⟨read.checkpoint, reads.flatMap Read.batches, reads.any Read.gap, false⟩ after := by
  induction size : position.left using Nat.strongRecOn generalizing checkpoint position with
  | ind size ih =>
      have made := @readBatch_valid lib _ _ _ valid
      obtain ⟨middle, moved, progress⟩ :=
        @readSegments_moved lib position.segment position.rest _ _ position.inside (by decide) le_rfl
      generalize readSegments lib position.segment position.rest position.offset maxRead = read at *
      cases more : read.more with
      | false =>
          refine ⟨[read], middle, .last made more, read, rfl, more, ?_⟩
          have whole : read = ⟨read.checkpoint, read.batches, read.gap, false⟩ := by rw [← more]
          rw [whole] at moved
          simpa using moved
      | true =>
          have next : journal.Valid (some read.checkpoint) middle := ⟨moved.suffix.trans valid.1, moved.checkpoint⟩
          obtain ⟨reads, after, later, last, ended, done, rest⟩ := ih _ (size ▸ progress more rfl) next rfl
          refine ⟨read :: reads, after, .next made more later, last, ?_, done, ?_⟩
          · rw [List.getLast?_cons, ended]
            rfl
          · simpa [Read.join] using moved.join rest

theorem anySpoiled_iff (texts : List (List UInt8)) :
    anySpoiled lib texts = true ↔ (∃ text ∈ texts, ∃ line ∈ lines text, flawed lib line = true) ∨
      (∃ text ∈ texts.dropLast, tail text ≠ []) ∨ ∃ text ∈ texts.getLast?, maxRead ≤ (tail text).length := by
  induction texts with
  | nil => simp [anySpoiled]
  | cons text rest ih =>
      rw [anySpoiled, Bool.or_eq_true, ih, spoiled, Bool.or_eq_true, List.any_eq_true]
      cases rest with
      | nil => simp
      | cons next rest =>
          simp only [List.isEmpty_cons, Bool.not_false, if_true, Bool.not_eq_true', List.isEmpty_eq_false_iff,
            List.dropLast_cons_cons, List.exists_mem_cons_iff, List.getLast?_cons_cons]
          simp only [or_assoc, or_left_comm]

/-- Nothing is left but an incomplete line. -/
theorem Moved.finished {before after read} (moved : Moved lib before read after)
    (done : read.more = false) :
    read.batches = allBatches lib before.texts ∧ read.gap = anySpoiled lib before.texts ∧
      after.segment.bytes.drop after.offset = Activity.residue before.texts := by
  obtain ⟨last, clear, short⟩ := moved.done done
  have texts : after.texts = [after.segment.bytes.drop after.offset] := by
    rw [Position.texts, last]
    rfl
  have quiet : lines (after.segment.bytes.drop after.offset) = [] := complete_of_not_mem clear
  have own : tail (after.segment.bytes.drop after.offset) = after.segment.bytes.drop after.offset :=
    leftover_of_not_mem clear
  refine ⟨?_, ?_, ?_⟩
  · rw [moved.batches, texts]
    simp [allBatches, batchesOf, quiet]
  · rw [moved.gap, texts]
    have fits : decide (maxRead ≤ (after.segment.bytes.drop after.offset).length) = false :=
      decide_eq_false (Nat.not_le.mpr short)
    simp only [anySpoiled, spoiled, quiet, own, fits, List.any_nil, List.isEmpty_nil, Bool.not_true,
      Bool.false_eq_true, if_false, Bool.or_false]
  · rw [moved.residue, texts]
    simp only [Activity.residue, List.getLastD_cons, List.getLastD_nil, own]
    exact (remainder_of_short short).symm

/-- The last checkpoint stands before the incomplete line of the last segment. -/
theorem Moved.stands {before after read segments} (moved : Moved lib before read after)
    (done : read.more = false) (inside : (before.segment :: before.rest) <:+ segments) :
    ∃ last ∈ segments.getLast?,
      read.checkpoint = ⟨last.identity, last.bytes.length - (Activity.residue before.texts).length⟩ := by
  obtain ⟨-, -, left⟩ := moved.finished done
  refine ⟨after.segment, ?_, ?_⟩
  · obtain ⟨front, shape⟩ := moved.suffix.trans inside
    rw [← shape, (moved.done done).1]
    simp
  · rw [moved.checkpoint, ← left, List.length_drop]
    have := after.inside
    congr 1
    omega

/-- Every line after the checkpoint is read once, and what is lost raises the gap. -/
theorem reads_are_exact {journal : Journal} {checkpoint : Option Checkpoint} {position : Position}
    (valid : journal.Valid checkpoint position) :
    ∃ reads, Reads lib journal.segments checkpoint reads ∧
      reads.flatMap Read.batches = position.texts.flatMap (batchesOf lib) ∧
      (reads.any Read.gap = true ↔ (∃ text ∈ position.texts, ∃ line ∈ lines text, flawed lib line = true) ∨
        (∃ text ∈ position.texts.dropLast, tail text ≠ []) ∨
        ∃ text ∈ position.texts.getLast?, maxRead ≤ (tail text).length) ∧
      ∃ read ∈ reads.getLast?, ∃ last ∈ journal.segments.getLast?,
        read.checkpoint = ⟨last.identity, last.bytes.length - (residue position.texts).length⟩ := by
  obtain ⟨reads, after, made, read, ended, -, moved⟩ := @reads_from lib _ _ _ valid
  obtain ⟨batches, gap, -⟩ := moved.finished rfl
  refine ⟨reads, made, batches, ?_, read, ended, moved.stands rfl valid.1⟩
  rw [← anySpoiled_iff, ← gap]

/-- An empty batch in JSON. -/
def sampleLine : List UInt8 :=
  [123, 34, 118, 101, 114, 115, 105, 111, 110, 34, 58, 49, 44, 34, 105, 100, 34, 58, 34, 54, 55,
    101, 53, 53, 48, 52, 52, 45, 49, 48, 98, 49, 45, 52, 50, 54, 102, 45, 57, 50, 52, 55, 45, 98,
    98, 54, 56, 48, 101, 53, 102, 101, 48, 99, 56, 34, 44, 34, 99, 111, 118, 101, 114, 97, 103,
    101, 95, 119, 97, 114, 110, 105, 110, 103, 34, 58, 102, 97, 108, 115, 101, 44, 34, 114, 101,
    99, 111, 114, 100, 115, 34, 58, 91, 93, 125]

def sampleBatch : Batch := ⟨1, "67e55044-10b1-426f-9247-bb680e5fe0c8", false, []⟩

/-- Libraries that know this line. -/
def readerLibraries : Libraries where
  parse := fun line => if line = sampleLine then some sampleBatch else none
  isUuid := fun id => id == "67e55044-10b1-426f-9247-bb680e5fe0c8"
  representable := fun _ => true
  month := fun _ => 197001

theorem batchesOf_sampleLine : batchesOf readerLibraries (sampleLine ++ [newline]) = [sampleBatch] := by
  decide

/-- A journal with one segment. -/
def single (bytes : List UInt8) : Journal := ⟨[⟨"1:7", bytes⟩], by simp, by simp⟩

def singleStart (bytes : List UInt8) : Position := ⟨⟨"1:7", bytes⟩, [], 0, Nat.zero_le _⟩

theorem single_valid (bytes : List UInt8) : (single bytes).Valid none (singleStart bytes) :=
  ⟨List.suffix_rfl, rfl, rfl⟩

/-- A second segment of two lines and a torn one, between two others. -/
def tornSegment : Segment := ⟨"1:6", sampleLine ++ newline :: sampleLine ++ [newline, 123]⟩

def openSegment : Segment := ⟨"1:7", sampleLine ++ [newline, 123, 34]⟩

def rotated : Journal where
  segments := [⟨"1:5", sampleLine ++ [newline]⟩, tornSegment, openSegment]
  nonempty := by simp
  distinct := by decide

/-- Behind the first line of the second segment. -/
def rotatedStart : Position := ⟨tornSegment, [openSegment], 96, by decide +kernel⟩

/-- A line of each of the last two segments is read, the torn one raises the gap, and the last
    checkpoint is behind the last line. -/
theorem sample_line_is_read : ∃ reads,
    Reads readerLibraries rotated.segments (some ⟨"1:6", 96⟩) reads ∧
      reads.flatMap Read.batches = [sampleBatch, sampleBatch] ∧ reads.any Read.gap = true ∧
      ∃ read ∈ reads.getLast?, read.checkpoint = ⟨"1:7", 96⟩ := by
  have valid : rotated.Valid (some ⟨"1:6", 96⟩) rotatedStart := ⟨List.suffix_cons _ _, rfl⟩
  obtain ⟨reads, made, batches, gap, read, ended, last, final, stands⟩ :=
    @reads_are_exact readerLibraries _ _ _ valid
  have texts : rotatedStart.texts = [sampleLine ++ [newline, 123], sampleLine ++ [newline, 123, 34]] := by decide
  rw [texts] at batches gap stands
  refine ⟨reads, made, batches.trans (by decide), gap.mpr (.inr (.inl ⟨_, List.mem_cons_self, by decide⟩)),
    read, ended, stands.trans ?_⟩
  cases final
  decide

/-- A stretch of the limit without a newline. -/
@[irreducible] def zeros : List UInt8 := List.replicate maxRead 0

theorem zeros_clear : newline ∉ zeros := by
  unfold zeros
  intro member
  exact absurd (List.eq_of_mem_replicate member) (by decide)

theorem zeros_length : zeros.length = maxRead := by
  unfold zeros
  exact List.length_replicate

theorem zeros_tail : tail zeros = zeros := leftover_of_not_mem zeros_clear

theorem zeros_residue : residue (singleStart zeros).texts = [] := by
  have texts : (singleStart zeros).texts = [zeros] := by
    rw [singleStart, Position.texts, List.drop_zero, List.map_nil]
  have stretch := remainder_append zeros_length []
  rw [List.append_nil] at stretch
  rw [residue, texts, List.getLastD_cons, List.getLastD_nil, zeros_tail, stretch]
  exact remainder_of_short (by decide)

theorem blank_reads {reads} (made : Reads readerLibraries (single [newline]).segments none reads) :
    reads.any Read.gap = false := by
  have first : readBatch readerLibraries (single [newline]).segments none = some ⟨⟨"1:7", 1⟩, [], false, false⟩ := by
    decide
  cases made with
  | last made _ =>
      cases first.symm.trans made
      rfl
  | next made more _ =>
      cases first.symm.trans made
      cases more

/-- The line of a stretch and a batch is no batch. -/
theorem long_line : (lines (zeros ++ (sampleLine ++ [newline]))).filterMap (accepted readerLibraries) = [] := by
  have clear : newline ∉ sampleLine := by decide
  have whole : newline ∉ zeros ++ sampleLine := by
    rw [List.mem_append, not_or]
    exact ⟨zeros_clear, clear⟩
  have cut : (zeros ++ sampleLine).splitOn newline = [zeros ++ sampleLine] := by
    have pieces := splitOn_append_of_not_mem whole []
    simpa using pieces
  have other : zeros ++ sampleLine ≠ sampleLine := by
    intro same
    have := congrArg List.length same
    rw [List.length_append, zeros_length] at this
    exact absurd this (by decide)
  rw [← List.append_assoc, lines, complete_append_cons, cut]
  simp [accepted, readerLibraries, other, complete]

/-- An empty line raises no gap, the rest of a long line is read, and a long tail is skipped. -/
theorem blank_and_long_lines_differ :
    (lines [newline] = [[]] ∧ accepted readerLibraries [] = none ∧
      ∀ reads, Reads readerLibraries (single [newline]).segments none reads → reads.any Read.gap = false) ∧
    (∃ reads, Reads readerLibraries (single (zeros ++ (sampleLine ++ [newline]))).segments none reads ∧
      reads.flatMap Read.batches = [sampleBatch] ∧
      (lines (zeros ++ (sampleLine ++ [newline]))).filterMap (accepted readerLibraries) = []) ∧
    ∃ reads, Reads readerLibraries (single zeros).segments none reads ∧ tail zeros = zeros ∧
      ∃ read ∈ reads.getLast?, read.checkpoint = ⟨"1:7", maxRead⟩ := by
  refine ⟨⟨by decide, by decide, fun reads made => blank_reads made⟩, ?_, ?_⟩
  · obtain ⟨reads, after, made, read, -, -, moved⟩ := @reads_from readerLibraries _ _ _
      (single_valid (zeros ++ (sampleLine ++ [newline])))
    have skipped := (@Consumed.stretch readerLibraries false _ (sampleLine ++ [newline]) zeros_clear zeros_length).batches
    refine ⟨reads, made, (moved.finished rfl).1.trans ?_, long_line⟩
    simp only [allBatches, singleStart, Position.texts, List.drop_zero, List.map_nil, List.flatMap_cons,
      List.flatMap_nil, List.append_nil, skipped, List.nil_append, batchesOf_sampleLine]
  · obtain ⟨reads, after, made, read, ended, -, moved⟩ := @reads_from readerLibraries _ _ _ (single_valid zeros)
    obtain ⟨last, listed, stands⟩ := moved.stands rfl (single_valid zeros).1
    obtain rfl : ⟨"1:7", zeros⟩ = last := Option.some.inj listed
    refine ⟨reads, made, zeros_tail, read, ended, stands.trans ?_⟩
    rw [zeros_residue, List.length_nil, Nat.sub_zero]
    exact congrArg (Checkpoint.mk "1:7") zeros_length

end Journals

end PortHub.Runtime.Activity
