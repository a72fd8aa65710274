import PortHub.Lib.Runs
import PortHub.Terminal.Pager

/-! # Runs of the pager

What a pager asks for stays within the limits of a history request, and what it
draws carries no control character of the data. It names a snapshot only together
with `freeze`, as long as the support for snapshots is not withdrawn while a
response that has an identity is under way.
-/

namespace PortHub.Terminal.Pager

open Runs

inductive Call where
  | feed (bytes : List UInt8)
  | resize (cols rows : UInt16)
  | capabilities (snapshots : Bool)
  | request (asked limited pended sent : Nat)
  | page (chunk : HistoryChunk)

inductive Answer where
  | done
  | redraw (wanted : Bool)
  | asked (input : Option ViewerInput)
  | drawn (screen : Result (Option (List UInt8)))

def step (unicode : Unicode) (pager : Pager) : Call → Pager × Answer
  | .feed bytes => ((pager.feed bytes).1, .redraw (pager.feed bytes).2)
  | .resize cols rows => (pager.resize cols rows, .done)
  | .capabilities snapshots => (pager.capabilities snapshots, .done)
  | .request asked limited pended sent =>
      ((pager.request asked limited pended sent).1, .asked (pager.request asked limited pended sent).2)
  | .page chunk => ((pager.page unicode chunk).1, .drawn (pager.page unicode chunk).2)

section Keys

variable {pager : Pager}

/-- What a key can change: nothing that is known about a snapshot is added. -/
structure Moves (pager after : Pager) : Prop where
  before : pager.before.toNat ≤ 200000 → pager.total.toNat ≤ 200000 → after.before.toNat ≤ 200000
  total : after.total = pager.total
  snapshots : after.snapshots = pager.snapshots
  pane : after.pane = pager.pane ∨ after.pane = ""
  snapshot : after.snapshot = pager.snapshot ∨ after.snapshot = none
  response : after.responseSnapshot = pager.responseSnapshot ∨ after.responseSnapshot = none
  pending : after.pending = pager.pending ∨ after.pending = none

theorem Moves.refl (pager : Pager) : Moves pager pager :=
  ⟨fun bounded _ => bounded, rfl, rfl, .inl rfl, .inl rfl, .inl rfl, .inl rfl⟩

theorem unchanged_or {α : Type} {first second third last : α} (early : second = first ∨ second = last)
    (late : third = second ∨ third = last) : third = first ∨ third = last := by
  rcases late with rfl | cleared
  · exact early
  · exact .inr cleared

theorem Moves.trans {middle after : Pager} (first : Moves pager middle) (second : Moves middle after) :
    Moves pager after where
  before := fun bounded limit => second.before (first.before bounded limit) (first.total ▸ limit)
  total := second.total.trans first.total
  snapshots := second.snapshots.trans first.snapshots
  pane := unchanged_or first.pane second.pane
  snapshot := unchanged_or first.snapshot second.snapshot
  response := unchanged_or first.response second.response
  pending := unchanged_or first.pending second.pending

/-- A position that is moved, and nothing else. -/
theorem Moves.position {before : UInt32}
    (bounded : pager.before.toNat ≤ 200000 → pager.total.toNat ≤ 200000 → before.toNat ≤ 200000) :
    Moves pager { pager with before } :=
  { Moves.refl pager with before := bounded }

theorem Moves.whenActive {moved} (moves : Moves pager moved) :
    Moves pager (pager.whenActive moved) := by
  unfold Pager.whenActive
  split
  · exact { moves with }
  · exact { Moves.refl pager with }

theorem toNat_ofNat_bounded {n} (bounded : n ≤ 200000) : (UInt32.ofNat n).toNat ≤ 200000 := by
  rw [UInt32.toNat_ofNat']
  omega

theorem back_moves (step : Nat) : Moves pager (pager.back step) :=
  .position fun _ _ => toNat_ofNat_bounded (Nat.min_le_right _ _)

theorem forth_moves (step : Nat) : Moves pager (pager.forth step) :=
  .position fun bounded _ => toNat_ofNat_bounded (by omega)

theorem oldest_moves : Moves pager { pager with before := pager.oldest } := by
  refine .position fun _ limit => ?_
  unfold oldest
  split
  · exact le_rfl
  · exact toNat_ofNat_bounded (by omega)

theorem toggle_moves : Moves pager pager.toggle.1 := by
  refine ⟨fun _ _ => Nat.zero_le _, rfl, rfl, ?_, ?_, .inl rfl, .inr rfl⟩ <;>
    cases active : pager.active <;> simp [toggle, active]

theorem plain_moves (byte : UInt8) : Moves pager (pager.plain byte).1 := by
  unfold plain
  split
  · exact { Moves.refl pager with }
  · split
    · exact ⟨fun _ _ => Nat.zero_le _, rfl, rfl, .inl rfl, .inr rfl, .inr rfl, .inr rfl⟩
    · split
      · exact { Moves.refl pager with pending := .inr rfl }
      · exact .refl pager

theorem sequence_moves (byte : UInt8) : Moves pager (pager.sequence byte).1 := by
  unfold sequence
  simp only
  split
  · exact toggle_moves
  split
  · exact oldest_moves.whenActive
  split
  · exact (Moves.position fun _ _ => Nat.zero_le _).whenActive
  split
  · exact (back_moves _).whenActive
  split
  · exact (forth_moves _).whenActive
  split
  · split
    · exact (back_moves 3).whenActive
    · exact (forth_moves 3).whenActive
    · exact (Moves.refl pager).whenActive
  split
  · exact { Moves.refl pager with }
  · exact { Moves.refl pager with }

theorem feed_moves (bytes : List UInt8) : Moves pager (pager.feed bytes).1 := by
  induction bytes generalizing pager with
  | nil => exact .refl pager
  | cons byte rest ih =>
      have first : Moves pager (pager.key byte).1 := by
        unfold key
        split
        · exact plain_moves byte
        · exact sequence_moves byte
      exact first.trans ih

end Keys

/-- A pane that a page of the history resolved. -/
def Resolved (history : List (Call × Answer)) (pane : String) : Prop :=
  ∃ chunk answer, (Call.page chunk, answer) ∈ history ∧ chunk.validate = .ok () ∧ chunk.pane = some pane

/-- A snapshot that may be named. -/
def Anchored (pager : Pager) (snapshot : Option String) : Prop :=
  ∀ id, snapshot = some id → token id 32 = true ∧ pager.snapshots = true

structure Sound (history : List (Call × Answer)) (pager : Pager) : Prop where
  before : pager.before.toNat ≤ 200000
  total : pager.total.toNat ≤ 200000
  pane : pager.pane = "" ∨ Resolved history pager.pane
  snapshot : Anchored pager pager.snapshot
  response : pager.pending.isSome = true → Anchored pager pager.responseSnapshot
  buffered : ∀ pending, pager.pending = some pending → pending.bytes.length ≤ captureLimit

section Steps

variable {history : List (Call × Answer)} {pager : Pager}

theorem anchored_none (pager : Pager) : Anchored pager none := by
  intro id named
  cases named

theorem Sound.initial (cols rows : UInt16) : Sound [] (new cols rows) where
  before := Nat.zero_le _
  total := Nat.zero_le _
  pane := .inl rfl
  snapshot := anchored_none _
  response := fun _ => anchored_none _
  buffered := nofun

theorem Sound.mono (sound : Sound history pager) (label : Call × Answer) :
    Sound (history ++ [label]) pager :=
  { sound with
    pane := sound.pane.imp_right fun ⟨chunk, answer, member, found⟩ =>
      ⟨chunk, answer, List.mem_append_left _ member, found⟩ }

theorem Sound.moved {after} (sound : Sound history pager) (moves : Moves pager after) :
    Sound history after where
  before := moves.before sound.before sound.total
  total := moves.total ▸ sound.total
  pane := by
    rcases moves.pane with same | cleared
    · rw [same]
      exact sound.pane
    · exact .inl cleared
  snapshot := by
    intro id named
    rcases moves.snapshot with same | cleared
    · rw [moves.snapshots]
      exact sound.snapshot id (same ▸ named)
    · cases cleared.symm.trans named
  response := by
    intro waiting id named
    rcases moves.response with same | cleared
    · rcases moves.pending with still | dropped
      · rw [moves.snapshots]
        exact sound.response (still ▸ waiting) id (same ▸ named)
      · rw [dropped] at waiting
        cases waiting
    · cases cleared.symm.trans named
  buffered := by
    intro pending waiting
    rcases moves.pending with still | dropped
    · exact sound.buffered pending (still ▸ waiting)
    · cases dropped.symm.trans waiting

theorem Sound.resize (sound : Sound history pager) (cols rows : UInt16) :
    Sound history (pager.resize cols rows) := { sound with }

/-- Support for snapshots is not withdrawn under a response that has an identity. -/
def Careful (pager : Pager) (call : Call) : Prop :=
  call = .capabilities false → pager.pending.isSome = true → pager.responseSnapshot = none

theorem Sound.capabilities (sound : Sound history pager) {snapshots}
    (careful : Careful pager (.capabilities snapshots)) :
    Sound history (pager.capabilities snapshots) := by
  refine { sound with snapshot := anchored_none _, response := fun waiting id named => ?_ }
  cases snapshots with
  | true => exact ⟨(sound.response waiting id named).1, rfl⟩
  | false =>
      have none := careful rfl waiting
      rw [show pager.responseSnapshot = some id from named] at none
      cases none

theorem Sound.dropPending (sound : Sound history pager) : Sound history { pager with pending := none } :=
  { sound with
    response := nofun
    buffered := nofun }

/-- A request that the hub and the host take, for a pane that is known. -/
def Acceptable (history : List (Call × Answer)) : ViewerInput → Prop
  | .history freeze snapshot _ pane before lines =>
      historyRequest pane before lines = .ok () ∧ (pane = "" ∨ Resolved history pane) ∧
        (snapshot.all fun id => freeze && token id 32) = true
  | _ => False

theorem pageLines_bounds (pager : Pager) : 1 ≤ pager.pageLines ∧ pager.pageLines ≤ 512 := by
  simp only [pageLines, UInt16.le_iff_toNat_le, UInt16.toNat_ofNat', UInt16.toNat_ofNat]
  omega

theorem Sound.acceptable (sound : Sound history pager) (serial : UInt32) : Acceptable history
    (.history pager.snapshots pager.snapshot serial pager.pane pager.before pager.pageLines) := by
  obtain ⟨positive, bounded⟩ := pageLines_bounds pager
  have reached : pager.before ≤ 200000 := UInt32.le_iff_toNat_le.mpr sound.before
  refine ⟨?_, sound.pane, ?_⟩
  · rcases sound.pane with live | ⟨chunk, answer, _, valid, named⟩
    · rw [live]
      have passed : historyRequest "" 0 1 = .ok () := by decide
      exact historyRequest_again passed reached positive bounded
    · exact historyRequest_again ((HistoryChunk.validate_ok valid).2.1 _ named) reached positive bounded
  · cases named : pager.snapshot with
    | none => rfl
    | some id =>
        obtain ⟨well, supported⟩ := sound.snapshot id named
        simp [well, supported]

theorem Sound.request (sound : Sound history pager) (asked limited pended sent : Nat) :
    Sound history (pager.request asked limited pended sent).1 ∧
      ∀ input, (pager.request asked limited pended sent).2 = some input → Acceptable history input := by
  unfold Pager.request
  split
  · exact ⟨sound, nofun⟩
  · -- a response that is too old is given up first
    have kept : Sound history (if pager.pending.any fun pending => decide (seconds 3 < asked - pending.at_) then
        { pager with pending := none } else pager) := by
      split
      · exact sound.dropPending
      · exact sound
    generalize (if pager.pending.any fun pending => decide (seconds 3 < asked - pending.at_) then
        { pager with pending := none } else pager) = pager at kept
    simp only
    split
    · exact ⟨kept, nofun⟩
    · refine ⟨{ kept with response := fun _ => kept.snapshot, buffered := ?_ }, ?_⟩
      · intro pending waiting
        cases waiting
        exact Nat.zero_le _
      · intro input emitted
        cases emitted
        exact kept.acceptable _

/-- A chunk brings an identity only where snapshots are supported. -/
theorem Sound.anchor (sound : Sound history pager) (waiting : pager.pending.isSome = true)
    {page : HistoryChunk} (valid : page.validate = .ok ()) {response}
    (fits : pager.anchor page = .ok response) : Anchored pager response := by
  unfold Pager.anchor at fits
  split at fits
  · cases fits
    exact sound.response waiting
  · split at fits
    · rename_i supported
      have fits := ok_of_then (ok_of_then fits)
      obtain rfl := pure_eq_ok.mp fits
      exact fun id named => ⟨(HistoryChunk.validate_ok valid).1 id named, supported⟩
    · have fits := ok_of_then fits
      obtain rfl := pure_eq_ok.mp fits
      exact sound.response waiting

variable (unicode : Unicode)

theorem Sound.complete (sound : Sound history pager) (waiting : pager.pending.isSome = true)
    {page : HistoryChunk} (valid : page.validate = .ok ()) (bytes : List UInt8) (answer : Answer) :
    Sound (history ++ [(.page page, answer)]) (pager.complete unicode page bytes).1 := by
  obtain ⟨_, _, limit⟩ := HistoryChunk.validate_ok valid
  have total : page.total.toNat ≤ 200000 := UInt32.le_iff_toNat_le.mp limit
  unfold Pager.complete
  cases failed : page.error with
  | some error => exact { (sound.mono _).dropPending with }
  | none =>
      simp only
      have drawn : Sound (history ++ [(.page page, answer)]) {
          pager with
          pending := none, snapshot := pager.responseSnapshot, responseSnapshot := none
          pane := page.pane.getD pager.pane, total := page.total, shown := some page.before } := by
        refine { (sound.mono (.page page, answer)).dropPending with
          total, snapshot := sound.response waiting, response := fun _ => anchored_none _, pane := ?_ }
        cases named : page.pane with
        | none => exact (sound.mono _).pane
        | some pane => exact .inr ⟨page, answer, by simp, valid, named⟩
      split
      · exact { drawn with before := toNat_ofNat_bounded (by omega) }
      · exact drawn

theorem Sound.receive (sound : Sound history pager) {pending}
    (waiting : pager.pending = some pending) {page : HistoryChunk} (valid : page.validate = .ok ())
    (answer : Answer) :
    Sound (history ++ [(.page page, answer)]) (pager.receive unicode pending page).1 := by
  have open_ : pager.pending.isSome = true := by simp [waiting]
  unfold Pager.receive
  cases fits : pager.anchor page with
  | error message => exact sound.mono _
  | ok response =>
      have known : Sound history { pager with responseSnapshot := response } :=
        { sound with response := fun _ => sound.anchor open_ valid fits }
      simp only
      cases decodeData page.data with
      | error message => exact known.mono _
      | ok chunk =>
          simp only
          split
          · exact known.mono _
          · rename_i room
            have longer : Sound history { pager with
                responseSnapshot := response
                pending := some { pending with bytes := pending.bytes ++ chunk } } := by
              refine { known with response := fun _ => known.response open_, buffered := ?_ }
              intro collected same
              cases same
              rw [List.length_append]
              exact Nat.le_of_not_lt room
            split
            · exact longer.complete unicode rfl valid _ answer
            · exact longer.mono _

theorem Sound.page (sound : Sound history pager) (chunk : HistoryChunk) (answer : Answer) :
    Sound (history ++ [(.page chunk, answer)]) (pager.page unicode chunk).1 := by
  unfold Pager.page
  cases valid : chunk.validate with
  | error message => exact sound.mono _
  | ok _ =>
      simp only
      split
      · exact sound.mono _
      · split
        · exact sound.mono _
        · rename_i pending waiting
          split
          · exact sound.mono _
          · exact sound.receive unicode waiting valid answer

theorem Sound.step (sound : Sound history pager) {call} (careful : Careful pager call) :
    Sound (history ++ [(call, (step unicode pager call).2)]) (step unicode pager call).1 := by
  cases call with
  | feed bytes => exact (sound.moved (feed_moves bytes)).mono _
  | resize cols rows => exact (sound.resize cols rows).mono _
  | capabilities snapshots => exact (sound.capabilities careful).mono _
  | request asked limited pended sent => exact (sound.request asked limited pended sent).1.mono _
  | page chunk => exact sound.page unicode chunk _

end Steps

/-- A run in which every call is careful. -/
def careful (unicode : Unicode) (pager : Pager) (label : Call × Answer) (after : Pager) : Prop :=
  answers (step unicode) pager label after ∧ Careful pager label.1

theorem run_sound {unicode cols rows history pager}
    (run : Run (careful unicode) (new cols rows) history pager) : Sound history pager := by
  induction run with
  | start => exact .initial cols rows
  | @snoc history pager label after _ taken sound =>
      obtain ⟨call, answer⟩ := label
      obtain ⟨made, allowed⟩ := taken
      have next := sound.step unicode allowed
      rw [show step unicode pager call = (after, answer) from made] at next
      exact next

section Screen

variable (unicode : Unicode)

/-- The sequences that the pager itself writes. -/
def own (rows : UInt16) : List (List Char) :=
  ["\x1b[?25l\x1b[2J\x1b[H".toList, "\r\n".toList, "\x1b[K\r\n".toList, lastRow rows "2K", lastRow rows "7m",
    "\x1b[0m".toList]

/-- Text that is made of the pager's sequences and of pieces without control characters. -/
def Drawn (rows : UInt16) (text : List Char) : Prop :=
  ∃ pieces : List (List Char), text = pieces.flatten ∧ ∀ piece ∈ pieces, piece ∈ own rows ∨ ∀ c ∈ piece, isControl c = false

variable {rows : UInt16}

theorem Drawn.own {piece} (member : piece ∈ own rows) : Drawn rows piece :=
  ⟨[piece], by simp, by simpa using .inl member⟩

theorem Drawn.text {piece} (clean : ∀ c ∈ piece, isControl c = false) : Drawn rows piece :=
  ⟨[piece], by simp, by simpa using .inr clean⟩

theorem Drawn.append {first second} (left : Drawn rows first) (right : Drawn rows second) :
    Drawn rows (first ++ second) := by
  obtain ⟨pieces, rfl, clean⟩ := left
  obtain ⟨others, rfl, also⟩ := right
  refine ⟨pieces ++ others, by simp, fun piece member => ?_⟩
  rcases List.mem_append.mp member with earlier | later
  · exact clean piece earlier
  · exact also piece later

theorem Drawn.flatMap {α : Type} {items : List α} {f : α → List Char} (each : ∀ item, Drawn rows (f item)) :
    Drawn rows (items.flatMap f) := by
  induction items with
  | nil => exact .text (by simp)
  | cons item rest ih => exact (each item).append ih

theorem mem_fitting {limit used graphemes c} (member : c ∈ fitting unicode limit used graphemes) :
    c ∈ graphemes.flatten := by
  induction graphemes generalizing used with
  | nil => cases member
  | cons grapheme rest ih =>
      simp only [fitting] at member
      split at member
      · cases member
      · rw [List.flatten_cons, List.mem_append]
        exact (List.mem_append.mp member).imp_right ih

/-- Clipped text has no control character. -/
theorem clip_drawn (text : List Char) (cols : UInt16) : Drawn rows (clip unicode text cols) := by
  refine .text fun c member => ?_
  have inside := mem_fitting unicode member
  rw [unicode.whole, List.mem_filter] at inside
  simpa using inside.2

theorem errorLine_drawn (pager : Pager) (error : String) :
    Drawn pager.rows (pager.errorLine unicode error) :=
  (Drawn.own (by simp [Pager.own])).append (clip_drawn unicode _ _)

theorem body_drawn (pager : Pager) (bytes : List UInt8) : Drawn pager.rows (pager.body unicode bytes) := by
  unfold body
  split
  · exact clip_drawn unicode _ _
  · exact .flatMap fun line => (clip_drawn unicode line _).append (.own (by simp [Pager.own]))

theorem screen_drawn (pager : Pager) (page : HistoryChunk) (bytes : List UInt8) :
    Drawn pager.rows (pager.screen unicode page bytes) := by
  have sequence {piece : List Char} (member : piece ∈ Pager.own pager.rows) : Drawn pager.rows piece :=
    .own member
  refine ((((((sequence ?_).append (clip_drawn unicode _ _)).append (sequence ?_)).append
    (body_drawn unicode pager bytes)).append (sequence ?_)).append (clip_drawn unicode _ _)).append
    (sequence ?_) <;> simp [Pager.own]

theorem complete_drawn (pager : Pager) (page : HistoryChunk) (bytes : List UInt8) :
    Drawn pager.rows (pager.complete unicode page bytes).2 := by
  unfold complete
  split
  · exact errorLine_drawn unicode pager _
  · simp only
    split <;> exact screen_drawn unicode { pager with .. } page bytes

/-- Bytes that a terminal takes as control codes. -/
def controlByte (byte : UInt8) : Bool := byte < 32 || byte == 127

theorem encoded_clean {c} (clean : isControl c = false) :
    ∀ byte ∈ String.utf8EncodeChar c, controlByte byte = false := by
  have high {n : Nat} (above : 128 ≤ n) (below : n < 256) : controlByte (UInt8.ofNat n) = false := by
    simp only [controlByte, UInt8.lt_iff_toNat_lt, ← UInt8.toNat_inj, beq_eq_decide, UInt8.toNat_ofNat',
      UInt8.reduceToNat, Bool.or_eq_false_iff, decide_eq_false_iff_not]
    omega
  simp only [isControl, Bool.or_eq_false_iff, Bool.and_eq_false_iff, decide_eq_false_iff_not] at clean
  have value : c.val.toNat = c.toNat := rfl
  unfold String.utf8EncodeChar
  simp only [value]
  split
  · rename_i small
    intro byte member
    rw [List.mem_singleton.mp member]
    simp only [controlByte, UInt8.lt_iff_toNat_lt, ← UInt8.toNat_inj, beq_eq_decide, UInt8.toNat_ofNat',
      UInt8.reduceToNat, Bool.or_eq_false_iff, decide_eq_false_iff_not]
    omega
  · split
    · simp only [List.forall_mem_cons, List.not_mem_nil, false_implies, implies_true, and_true]
      exact ⟨high (by omega) (by omega), high (by omega) (by omega)⟩
    · split
      · simp only [List.forall_mem_cons, List.not_mem_nil, false_implies, implies_true, and_true]
        exact ⟨high (by omega) (by omega), high (by omega) (by omega), high (by omega) (by omega)⟩
      · simp only [List.forall_mem_cons, List.not_mem_nil, false_implies, implies_true, and_true]
        exact ⟨high (by omega) (by omega), high (by omega) (by omega), high (by omega) (by omega),
          high (by omega) (by omega)⟩

/-- The bytes of a screen: the pager's sequences, and text without control codes. -/
def Shows (rows : UInt16) (bytes : List UInt8) : Prop :=
  ∃ pieces : List (List Char), bytes = pieces.flatMap (fun piece => utf8 (String.ofList piece)) ∧
    ∀ piece ∈ pieces, piece ∈ Pager.own rows ∨
      ((∀ c ∈ piece, isControl c = false) ∧ ∀ byte ∈ utf8 (String.ofList piece), controlByte byte = false)

theorem utf8_encoded (text : List Char) : utf8 (String.ofList text) = text.flatMap String.utf8EncodeChar := by
  unfold utf8
  rw [String.toByteArray_ofList, List.utf8Encode, List.data_toByteArray, List.toList_toArray]

theorem Drawn.shows {text} (drawn : Drawn rows text) : Shows rows (utf8 (String.ofList text)) := by
  obtain ⟨pieces, rfl, clean⟩ := drawn
  refine ⟨pieces, ?_, fun piece member => (clean piece member).imp_right fun plain => ⟨plain, ?_⟩⟩
  · simp only [utf8_encoded]
    induction pieces with
    | nil => rfl
    | cons piece rest ih =>
        rw [List.flatten_cons, List.flatMap_append, List.flatMap_cons,
          ih fun other member => clean other (List.mem_cons_of_mem _ member)]
  · intro byte inside
    rw [utf8_encoded] at inside
    obtain ⟨c, own, encoded⟩ := List.mem_flatMap.mp inside
    exact encoded_clean (plain c own) byte encoded

end Screen

section Results

variable {unicode : Unicode} {pager : Pager}

/-- A chunk that does not belong to the response under way. -/
def Stale (pager : Pager) (chunk : HistoryChunk) : Prop :=
  pager.active = false ∨ ∀ pending, pager.pending = some pending → pending.request ≠ chunk.request

theorem page_stale {chunk} (stale : Stale pager chunk) :
    (pager.page unicode chunk).1 = pager ∧ ∀ bytes, (pager.page unicode chunk).2 ≠ .ok (some bytes) := by
  have nothing {bytes : List UInt8} : (.ok none : Result (Option (List UInt8))) ≠ .ok (some bytes) := by simp
  unfold Pager.page
  cases chunk.validate with
  | error message => exact ⟨rfl, fun bytes => by simp⟩
  | ok _ =>
      simp only
      split
      · exact ⟨rfl, fun _ => nothing⟩
      · rename_i active
        split
        · exact ⟨rfl, fun _ => nothing⟩
        · rename_i pending waiting
          rcases stale with inactive | other
          · simp [inactive] at active
          · rw [if_pos (other pending waiting)]
            exact ⟨rfl, fun _ => nothing⟩

theorem page_shows {chunk bytes} (drawn : (pager.page unicode chunk).2 = .ok (some bytes)) :
    Shows pager.rows bytes := by
  unfold Pager.page at drawn
  split at drawn
  · cases drawn
  · split at drawn
    · cases drawn
    · split at drawn
      · cases drawn
      · split at drawn
        · cases drawn
        · unfold Pager.receive at drawn
          split at drawn
          · cases drawn
          · simp only at drawn
            split at drawn
            · cases drawn
            · split at drawn
              · cases drawn
              · split at drawn
                · obtain rfl := Option.some.inj (Except.ok.inj drawn)
                  exact (complete_drawn unicode _ _ _).shows
                · cases drawn

/-- The requests, the stale chunks, the buffer and the screen of a pager. -/
theorem pager_keeps_its_promises {cols rows : UInt16} {history : List (Call × Answer)}
    (run : Run (careful unicode) (new cols rows) history pager) :
    (∀ asked limited pended sent input,
      (pager.request asked limited pended sent).2 = some input → Acceptable history input) ∧
    (∀ chunk, Stale pager chunk → (pager.page unicode chunk).1 = pager ∧
      ∀ bytes, (pager.page unicode chunk).2 ≠ .ok (some bytes)) ∧
    (∀ pending, pager.pending = some pending → pending.bytes.length ≤ captureLimit) ∧
    ∀ chunk bytes, (pager.page unicode chunk).2 = .ok (some bytes) → Shows pager.rows bytes := by
  have sound := run_sound run
  exact ⟨fun asked limited pended sent => (sound.request asked limited pended sent).2,
    fun chunk stale => page_stale stale, sound.buffered, fun chunk bytes drawn => page_shows drawn⟩

/-- One grapheme for each character. -/
def plainText : Unicode where
  graphemes := fun text => text.map fun c => [c]
  width := List.length
  whole := fun text => by simp [← List.flatMap_def]

/-- A chunk of a response to the first request. -/
def sampleChunk (snapshot : Option String) (done : Bool) : HistoryChunk where
  snapshot := snapshot
  request := 1
  pane := some "%1"
  data := []
  done := done
  total := 1000
  before := 0
  lines := 21
  truncated := false
  error := none

def sampleId : String := "0123456789abcdef0123456789abcdef"

/-- The test behind `Careful`. -/
def isCareful (pager : Pager) : Call → Bool
  | .capabilities false => pager.pending.isNone || pager.responseSnapshot.isNone
  | _ => true

theorem careful_of_test (call : Call) (test : isCareful pager call = true) :
    careful unicode pager (call, (step unicode pager call).2) (step unicode pager call).1 := by
  refine ⟨rfl, fun withdrawn waiting => ?_⟩
  obtain rfl : call = .capabilities false := withdrawn
  rcases Bool.or_eq_true_iff.mp test with idle | unknown
  · rw [Option.isNone_iff_eq_none.mp idle] at waiting
    cases waiting
  · exact Option.isNone_iff_eq_none.mp unknown

/-- A page is shown and the viewer goes one line back. -/
def browsing : List Call :=
  [.capabilities true, .feed (escape "[18~"), .request 0 0 0 0, .page (sampleChunk (some sampleId) true),
    .feed (escape "[A")]

theorem anchored_request_is_accepted :
    Acceptable (Runs.feed (step plainText) (new 80 24) browsing).1
      (.history true (some sampleId) 2 "%1" 1 21) := by
  have run := @feed_run_of_passes _ _ _ (step plainText) isCareful (careful plainText)
    (fun pager call => careful_of_test call) (new 80 24) browsing (by decide)
  exact (pager_keeps_its_promises run).1 (seconds 9) (seconds 9) (seconds 9) (seconds 9) _ (by decide)

/-- Support for snapshots is withdrawn between two chunks. -/
def withdrawal : List Call :=
  [.capabilities true, .feed (escape "[18~"), .request 0 0 0 0, .page (sampleChunk (some sampleId) false),
    .capabilities false, .page (sampleChunk none true), .feed (escape "[A")]

theorem withdrawn_snapshot_is_named : ∃ history pager,
    Run (answers (step plainText)) (new 80 24) history pager ∧
      ∃ input, (pager.request (seconds 9) (seconds 9) (seconds 9) (seconds 9)).2 = some input ∧
        ¬Acceptable history input := by
  refine ⟨_, _, feed_run (step plainText) (new 80 24) withdrawal,
    .history false (some sampleId) 2 "%1" 1 21, by decide, fun accepted => ?_⟩
  have named := accepted.2.2
  simp at named

end Results

end PortHub.Terminal.Pager
