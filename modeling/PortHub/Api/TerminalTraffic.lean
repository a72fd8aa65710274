import Mathlib.Data.Fintype.Pi
import Mathlib.Tactic.Linarith
import Mathlib.Tactic.Ring
import PortHub.Lib.Runs

/-! # Terminal traffic rollups

The document of one reporting instance. An upload is one update pipeline: the report
replaces the stored one when it is newer and nothing in it went back, and the growth of
each counter is added to the bucket of the receipt time at four widths.
-/

namespace PortHub.Api.TerminalTraffic

open Runs

/-- The byte counters, by the names of their rollup fields. -/
inductive Field where
  | ptyInput
  | ptyOutput
  | udpSent
  | udpReceived
  | relaySent
  | relayReceived
  deriving DecidableEq

/-- `FIELDS`. -/
def Field.all : List Field := [.ptyInput, .ptyOutput, .udpSent, .udpReceived, .relaySent, .relayReceived]

instance : Fintype Field := .ofList Field.all fun field => by cases field <;> decide

structure Snapshot where
  inputBytes : Nat
  outputBytes : Nat
  directUdpSentBytes : Nat
  directUdpReceivedBytes : Nat
  deriving DecidableEq

structure Summary where
  counters : Snapshot
  inst : String
  revision : Nat
  relaySentPayloadBytes : Nat
  relayReceivedPayloadBytes : Nat
  activeSessions : Nat
  activeParticipants : Nat
  reportedSessions : Nat
  activeReportingSessions : Nat
  observedAt : Option Int
  deriving DecidableEq

namespace Summary

/-- `values`, and the paths they are stored at. -/
def value (summary : Summary) : Field → Nat
  | .ptyInput => summary.counters.inputBytes
  | .ptyOutput => summary.counters.outputBytes
  | .udpSent => summary.counters.directUdpSentBytes
  | .udpReceived => summary.counters.directUdpReceivedBytes
  | .relaySent => summary.relaySentPayloadBytes
  | .relayReceived => summary.relayReceivedPayloadBytes

/-- `MAX_COUNTER`, `2^53 - 1`. -/
def maxCounter : Nat := 9007199254740991

def valid (summary : Summary) : Bool :=
  summary.inst.utf8ByteSize = 32 &&
    summary.inst.toList.all (fun c => c.isDigit || ('a' ≤ c && c ≤ 'f')) &&
    decide (1 ≤ summary.revision ∧ summary.revision ≤ maxCounter) &&
    decide (∀ field, summary.value field ≤ maxCounter) &&
    decide (summary.reportedSessions ≤ maxCounter) &&
    decide (summary.activeSessions ≤ 1024) &&
    decide (summary.activeParticipants ≤ 65536) &&
    decide (summary.activeReportingSessions ≤ summary.activeSessions)

end Summary

structure Row where
  at_ : Int
  bytes : Field → Int
  hostReports : Int
  unreportedHosts : Int
  deriving DecidableEq

/-- The arrays of a document. -/
inductive Resolution where
  | recent
  | minutes
  | hours
  | days
  deriving DecidableEq

namespace Resolution

def seconds : Resolution → Int
  | .recent => 5
  | .minutes => 60
  | .hours => 3600
  | .days => 86400

def count : Resolution → Nat
  | .recent => 120
  | .minutes => 1440
  | .hours => 168
  | .days => 30

/-- The width of a bucket in milliseconds. -/
def width (r : Resolution) : Int := r.seconds * 1000

/-- The bucket of a time. -/
def bucket (r : Resolution) (now : Int) : Int := now / r.width * r.width

/-- Where the window of a time begins. -/
def cutoff (r : Resolution) (now : Int) : Int := r.bucket now - (r.count - 1) * r.width

end Resolution

structure Stored where
  owner : String
  machine : String
  summary : Option Summary
  acceptedNonce : Option String
  receivedAt : Option Int
  expiresAt : Int
  rows : Resolution → List Row

structure Upload where
  owner : String
  machine : String
  summary : Summary
  now : Int
  nonce : String

/-- Thirty days in milliseconds. -/
def retention : Int := 2592000000

/-- `$setOnInsert`. -/
def seed (upload : Upload) : Stored where
  owner := upload.owner
  machine := upload.machine
  summary := none
  acceptedNonce := none
  receivedAt := none
  expiresAt := upload.now + retention
  rows _ := []

section Pipeline

variable (upload : Upload) (stored : Stored)

/-- `$ifNull` of a path in the stored summary. -/
def stale (read : Summary → Nat) (otherwise : Int) : Int := (stored.summary.map read).elim otherwise Nat.cast

/-- `conditions`. -/
def newer : Bool :=
  decide (stale stored Summary.revision (-1) < upload.summary.revision) &&
    decide (stale stored Summary.reportedSessions 0 ≤ upload.summary.reportedSessions) &&
    decide (∀ field, stale stored (·.value field) 0 ≤ upload.summary.value field)

def delta (field : Field) : Int :=
  upload.summary.value field - stale stored (·.value field) (upload.summary.value field)

def measured : Bool :=
  decide (0 < upload.summary.activeReportingSessions) ||
    decide (stale stored Summary.reportedSessions 0 < upload.summary.reportedSessions) ||
    [Field.ptyInput, .ptyOutput, .udpSent, .udpReceived].any fun field =>
      decide (stale stored (·.value field) (upload.summary.value field) < upload.summary.value field)

def hostReports : Int := if measured upload stored then 1 else 0

def unreported : Int := (upload.summary.activeSessions - upload.summary.activeReportingSessions : Nat)

def fresh (r : Resolution) : Row where
  at_ := r.bucket upload.now
  bytes := delta upload stored
  hostReports := hostReports upload stored
  unreportedHosts := unreported upload

def changed (row : Row) : Row where
  at_ := row.at_
  bytes field := row.bytes field + delta upload stored field
  hostReports := max row.hostReports (hostReports upload stored)
  unreportedHosts := max row.unreportedHosts (unreported upload)

/-- `$slice` with a negative count. -/
def lastRows (count : Nat) (rows : List Row) : List Row := rows.drop (rows.length - count)

def rolled (r : Resolution) : List Row :=
  let rows := (stored.rows r).filter fun row => r.cutoff upload.now ≤ row.at_
  lastRows r.count
    (if r.bucket upload.now ∈ rows.map Row.at_ then
      rows.map fun row => if row.at_ = r.bucket upload.now then changed upload stored row else row
    else rows ++ [fresh upload stored r])

def replacement : Stored where
  owner := upload.owner
  machine := upload.machine
  summary := some upload.summary
  acceptedNonce := some upload.nonce
  receivedAt := some upload.now
  expiresAt := upload.now + retention
  rows := rolled upload stored

def updatePipeline : Stored := if newer upload stored then replacement upload stored else stored

end Pipeline

inductive Reply where
  | invalidReport
  | invalidState
  | conflict
  | answered (accepted : Bool) (revision : Nat)
  deriving DecidableEq

/-- An authenticated upload. -/
def upload (document : Option Stored) (upload : Upload) : Option Stored × Reply :=
  if upload.summary.valid = false then (document, .invalidReport)
  else
    let saved := updatePipeline upload (document.getD (seed upload))
    (some saved,
      match saved.summary with
      | none => .invalidState
      | some previous =>
          let accepted := saved.acceptedNonce = some upload.nonce
          if ¬ accepted ∧ previous.revision ≤ upload.summary.revision ∧ upload.summary ≠ previous then .conflict
          else .answered accepted previous.revision)

/-! ## One array -/

section Buckets

variable (r : Resolution) {now later : Int}

theorem Resolution.width_pos : 0 < r.width := by cases r <;> decide

theorem Resolution.width_dvd_bucket : r.width ∣ r.bucket now := Dvd.intro_left _ rfl

theorem Resolution.bucket_mono (le : now ≤ later) : r.bucket now ≤ r.bucket later :=
  Int.mul_le_mul_of_nonneg_right (Int.ediv_le_ediv r.width_pos le) r.width_pos.le

theorem Resolution.cutoff_le_bucket : r.cutoff now ≤ r.bucket now := by
  have one : 1 ≤ r.count := by cases r <;> decide
  have wide : 0 ≤ ((r.count : Int) - 1) * r.width :=
    Int.mul_nonneg (by omega) r.width_pos.le
  unfold Resolution.cutoff
  omega

end Buckets

/-- The rows of an array whose last report came at this time. -/
structure Rolls (r : Resolution) (last : Int) (rows : List Row) : Prop where
  ordered : rows.Pairwise fun a b => a.at_ < b.at_
  aligned : ∀ row ∈ rows, r.width ∣ row.at_
  inside : ∀ row ∈ rows, r.cutoff last ≤ row.at_ ∧ row.at_ ≤ r.bucket last

section Rolling

variable {r : Resolution} {rows : List Row} {last lower upper : Int}

/-- Buckets of one width that differ are a width apart. -/
theorem width_apart {a b} (first : r.width ∣ a) (second : r.width ∣ b) (less : a < b) :
    a + r.width ≤ b := by
  have step := Int.le_of_dvd (by omega) (Int.dvd_sub second first)
  omega

theorem length_mul_width_le (ordered : rows.Pairwise fun a b => a.at_ < b.at_)
    (aligned : ∀ row ∈ rows, r.width ∣ row.at_) (inside : ∀ row ∈ rows, lower ≤ row.at_ ∧ row.at_ ≤ upper)
    (room : lower ≤ upper + r.width) : rows.length * r.width ≤ upper + r.width - lower := by
  induction rows generalizing lower with
  | nil =>
      simp only [List.length_nil, Nat.cast_zero, Int.zero_mul]
      omega
  | cons row rest ih =>
      rw [List.pairwise_cons] at ordered
      rw [List.forall_mem_cons] at aligned inside
      have tail := @ih (row.at_ + r.width) ordered.2 aligned.2
        (fun other member => ⟨width_apart aligned.1 (aligned.2 other member) (ordered.1 other member),
          (inside.2 other member).2⟩) (by omega)
      rw [List.length_cons, Nat.cast_succ, Int.add_mul, Int.one_mul]
      omega

/-- The window has no more buckets than rows are kept. -/
theorem Rolls.few (rolls : Rolls r last rows) : rows.length ≤ r.count := by
  have wide := r.width_pos
  have most := length_mul_width_le rolls.ordered rolls.aligned rolls.inside
    (by have : r.cutoff last ≤ r.bucket last := r.cutoff_le_bucket; omega)
  have window : r.bucket last + r.width - r.cutoff last = r.count * r.width := by
    unfold Resolution.cutoff
    ring
  rw [window] at most
  exact_mod_cast Int.le_of_mul_le_mul_right most wide

theorem Rolls.lastRows (rolls : Rolls r last rows) : lastRows r.count rows = rows := by
  have few := rolls.few
  unfold TerminalTraffic.lastRows
  rw [Nat.sub_eq_zero_of_le few]
  rfl

variable {upload : Upload} {stored : Stored}

/-- The array before it is cut. -/
def merged (upload : Upload) (stored : Stored) (r : Resolution) (rows : List Row) : List Row :=
  if r.bucket upload.now ∈ rows.map Row.at_ then
    rows.map fun row => if row.at_ = r.bucket upload.now then changed upload stored row else row
  else rows ++ [fresh upload stored r]

theorem merged_at (rows : List Row) :
    (merged upload stored r rows).map Row.at_ =
      if r.bucket upload.now ∈ rows.map Row.at_ then rows.map Row.at_
      else rows.map Row.at_ ++ [r.bucket upload.now] := by
  unfold merged
  split
  · rw [List.map_map]
    refine List.map_congr_left fun row _ => ?_
    dsimp only [Function.comp]
    split
    · rfl
    · rfl
  · simp [fresh]

theorem rolls_iff : Rolls r last rows ↔ (rows.map Row.at_).Pairwise (· < ·) ∧
    (∀ time ∈ rows.map Row.at_, r.width ∣ time ∧ r.cutoff last ≤ time ∧ time ≤ r.bucket last) := by
  rw [List.pairwise_map, List.forall_mem_map]
  constructor
  · intro rolls
    exact ⟨rolls.ordered, fun row member => ⟨rolls.aligned row member, rolls.inside row member⟩⟩
  · rintro ⟨ordered, each⟩
    exact ⟨ordered, fun row member => (each row member).1, fun row member => (each row member).2⟩

/-- A report that is received no earlier keeps the rows of its window in order. -/
theorem Rolls.merged (rolls : Rolls r last rows) (later : last ≤ upload.now) :
    Rolls r upload.now
      (merged upload stored r (rows.filter fun row => r.cutoff upload.now ≤ row.at_)) := by
  rw [rolls_iff, merged_at]
  have kept : ((rows.filter fun row => decide (r.cutoff upload.now ≤ row.at_)).map Row.at_).Pairwise (· < ·) :=
    (rolls_iff.mp rolls).1.sublist (List.filter_sublist.map _)
  have each : ∀ time ∈ (rows.filter fun row => decide (r.cutoff upload.now ≤ row.at_)).map Row.at_,
      r.width ∣ time ∧ r.cutoff upload.now ≤ time ∧ time ≤ r.bucket upload.now := by
    intro time listed
    obtain ⟨row, kept, rfl⟩ := List.mem_map.mp listed
    obtain ⟨member, window⟩ := List.mem_filter.mp kept
    exact ⟨rolls.aligned row member, by simpa using window,
      (rolls.inside row member).2.trans (r.bucket_mono later)⟩
  split
  · exact ⟨kept, each⟩
  · rename_i absent
    constructor
    · rw [List.pairwise_append]
      refine ⟨kept, List.pairwise_singleton _ _, fun time member other new => ?_⟩
      rw [List.mem_singleton.mp new]
      exact lt_of_le_of_ne (each time member).2.2 fun same => absent (same ▸ member)
    · rw [List.forall_mem_append, List.forall_mem_singleton]
      exact ⟨each, r.width_dvd_bucket, r.cutoff_le_bucket, le_refl _⟩

/-- What a field adds up to over an array. -/
def total (field : Field) (rows : List Row) : Int := (rows.map fun row => row.bytes field).sum

theorem total_changed {field time} (ordered : (rows.map Row.at_).Pairwise (· < ·))
    (listed : time ∈ rows.map Row.at_) :
    total field (rows.map fun row => if row.at_ = time then changed upload stored row else row) =
      total field rows + delta upload stored field := by
  induction rows with
  | nil => cases listed
  | cons row rest ih =>
      rw [List.map_cons, List.pairwise_cons] at ordered
      by_cases here : row.at_ = time
      · have others : (rest.map fun row => if row.at_ = time then changed upload stored row else row) = rest := by
          refine (List.map_congr_left fun other member => ?_).trans rest.map_id
          have less := ordered.1 other.at_ (List.mem_map_of_mem member)
          exact if_neg (by omega)
        rw [List.map_cons, others, if_pos here]
        simp only [total, changed, List.map_cons, List.sum_cons]
        ring
      · have later : time ∈ rest.map Row.at_ := by
          rw [List.map_cons, List.mem_cons] at listed
          exact listed.resolve_left fun same => here same.symm
        have tail := ih ordered.2 later
        rw [List.map_cons, if_neg here]
        simp only [total, List.map_cons, List.sum_cons] at tail ⊢
        rw [tail]
        ring

/-- The growth of a counter is added to its array once. -/
theorem total_merged {field} (ordered : (rows.map Row.at_).Pairwise (· < ·)) :
    total field (merged upload stored r rows) = total field rows + delta upload stored field := by
  unfold merged
  split
  · exact total_changed ordered (by assumption)
  · simp [total, fresh]

end Rolling

/-! ## Sequences of uploads -/

/-- The report is newer than the stored one, and none of its counters is smaller. -/
def Advances (document : Option Stored) (summary : Summary) : Prop :=
  ∀ stored previous, document = some stored → stored.summary = some previous →
    previous.revision < summary.revision ∧ previous.reportedSessions ≤ summary.reportedSessions ∧
      ∀ field, previous.value field ≤ summary.value field

def Reply.accepted : Reply → Bool
  | .answered accepted _ => accepted
  | _ => false

/-- The document of an instance, with the time of its last upload. The rest is only
    remembered here: the first accepted report, and whether all rows of an array are
    still in it. -/
structure Ledger where
  document : Option Stored
  clock : Option Int
  first : Option Summary
  complete : Resolution → Bool

def Ledger.new : Ledger := ⟨none, none, none, fun _ => true⟩

def Ledger.rows (ledger : Ledger) (r : Resolution) : List Row := ledger.document.elim [] (·.rows r)

def Ledger.upload (ledger : Ledger) (input : Upload) : Ledger × Reply :=
  let (document, reply) := TerminalTraffic.upload ledger.document input
  ({ document
     clock := some input.now
     first := if reply.accepted then ledger.first.or (some input.summary) else ledger.first
     complete := fun r => ledger.complete r &&
      (!reply.accepted || (ledger.rows r).all fun row => r.cutoff input.now ≤ row.at_) }, reply)

/-- Server time does not go back, and the nonce of an upload is new. -/
def Uploads (ledger : Ledger) (event : Upload × Reply) (after : Ledger) : Prop :=
  ledger.upload event.1 = (after, event.2) ∧ (∀ time, ledger.clock = some time → time ≤ event.1.now) ∧
    ∀ stored, ledger.document = some stored → stored.acceptedNonce ≠ some event.1.nonce

section Accepting

variable {input : Upload} {stored : Stored} {document : Option Stored}

theorem newer_iff (valid : input.summary.valid = true) :
    newer input stored = true ↔ Advances (some stored) input.summary := by
  have revision : 1 ≤ input.summary.revision := by
    simp only [Summary.valid, Bool.and_eq_true, decide_eq_true_eq] at valid
    exact valid.1.1.1.1.1.2.1
  rw [newer, Bool.and_eq_true, Bool.and_eq_true, decide_eq_true_iff, decide_eq_true_iff, decide_eq_true_iff]
  unfold stale Advances
  cases found : stored.summary with
  | none =>
      simp only [Option.map_none, Option.elim_none]
      refine iff_of_true ⟨⟨by omega, by omega⟩, fun field => by omega⟩ ?_
      intro other previous same summary
      cases same
      cases found.symm.trans summary
  | some previous =>
      simp only [Option.map_some, Option.elim_some, Nat.cast_lt, Nat.cast_le, and_assoc]
      constructor
      · intro advances other summary same held
        cases same
        cases found.symm.trans held
        exact advances
      · intro advances
        exact advances stored previous rfl found

/-- The seed holds no report. -/
theorem advances_getD :
    Advances (some (document.getD (seed input))) input.summary ↔ Advances document input.summary := by
  cases document with
  | none =>
      refine iff_of_true ?_ ?_
      · intro stored previous same held
        cases same
        cases held
      · intro stored previous same
        cases same
  | some stored => exact Iff.rfl

theorem upload_invalid (invalid : input.summary.valid = false) :
    upload document input = (document, .invalidReport) := by
  rw [upload, if_pos invalid]

theorem upload_accepted (valid : input.summary.valid = true) (advances : Advances document input.summary) :
    upload document input =
      (some (replacement input (document.getD (seed input))), .answered true input.summary.revision) := by
  have newer := (newer_iff valid).mpr (advances_getD.mpr advances)
  simp [upload, valid, updatePipeline, newer, replacement]

/-- A report that does not advance finds one stored. -/
theorem upload_rejected (rejects : ¬ Advances document input.summary)
    (new : ∀ stored, document = some stored → stored.acceptedNonce ≠ some input.nonce) :
    (upload document input).1 = document ∧ (upload document input).2.accepted = false := by
  cases valid : input.summary.valid with
  | false => rw [upload_invalid valid]; exact ⟨rfl, rfl⟩
  | true =>
      cases document with
      | none =>
          refine absurd ?_ rejects
          intro stored previous same
          cases same
      | some stored =>
          have older : newer input stored = false := by
            rw [← Bool.not_eq_true, newer_iff valid]
            exact rejects
          have saved : updatePipeline input stored = stored := by simp [updatePipeline, older]
          have answer : upload (some stored) input = (some stored, (upload (some stored) input).2) := by
            simp [upload, valid, saved]
          refine ⟨by rw [answer], ?_⟩
          simp only [upload, valid, Option.getD_some, saved]
          cases found : stored.summary with
          | none => simp [Reply.accepted]
          | some previous =>
              have other : decide (stored.acceptedNonce = some input.nonce) = false :=
                decide_eq_false (new stored rfl)
              simp only [Bool.true_eq_false, if_false, other]
              split
              · rfl
              · rfl

end Accepting

section Telescoping

variable {ledger after : Ledger} {input : Upload} {reply : Reply}

/-- What is stored after uploads: the last accepted report, the arrays of its receipt time,
    and in a complete array the growth since the first accepted report. -/
structure Ledger.Sums (ledger : Ledger) (stored : Stored) (start last : Summary) (received : Int) : Prop where
  summary : stored.summary = some last
  first : ledger.first = some start
  receivedAt : stored.receivedAt = some received
  past : ∃ time, ledger.clock = some time ∧ received ≤ time
  rolls : ∀ r, Rolls r received (stored.rows r)
  telescopes : ∀ r, ledger.complete r = true → ∀ field,
    total field (stored.rows r) = last.value field - start.value field

structure Ledger.Sound (ledger : Ledger) : Prop where
  empty : ledger.document = none → ledger.first = none
  stored : ∀ stored, ledger.document = some stored → ∃ start last received, ledger.Sums stored start last received

/-- The array of an accepted report is its merged window. -/
theorem rolled_eq {stored : Stored} {r last} (rolls : Rolls r last (stored.rows r))
    (later : last ≤ input.now) :
    rolled input stored r =
      merged input stored r ((stored.rows r).filter fun row => r.cutoff input.now ≤ row.at_) :=
  (rolls.merged later).lastRows

/-- The first report starts every array with an empty bucket. -/
theorem rolled_seed (r : Resolution) :
    Rolls r input.now (rolled input (seed input) r) ∧ ∀ field, total field (rolled input (seed input) r) = 0 := by
  have none : Rolls r input.now ((seed input).rows r) := by
    refine ⟨List.Pairwise.nil, ?_, ?_⟩ <;> exact List.forall_mem_nil _
  rw [rolled_eq none (le_refl _)]
  refine ⟨none.merged (le_refl _), fun field => ?_⟩
  rw [total_merged List.Pairwise.nil]
  simp [total, delta, stale, seed]

theorem upload_eq_of_accepted (valid : input.summary.valid = true)
    (advances : Advances ledger.document input.summary) :
    ledger.upload input =
      ({ document := some (replacement input (ledger.document.getD (seed input)))
         clock := some input.now
         first := ledger.first.or (some input.summary)
         complete := fun r => ledger.complete r && (ledger.rows r).all fun row => r.cutoff input.now ≤ row.at_ },
        .answered true input.summary.revision) := by
  simp [Ledger.upload, upload_accepted valid advances, Reply.accepted]

theorem Ledger.Sound.accepted (sound : ledger.Sound) (valid : input.summary.valid = true)
    (advances : Advances ledger.document input.summary)
    (forward : ∀ time, ledger.clock = some time → time ≤ input.now) : (ledger.upload input).1.Sound := by
  rw [upload_eq_of_accepted valid advances]
  refine ⟨fun none => ?_, fun stored same => ?_⟩
  · cases none
  cases same
  cases before : ledger.document with
  | none =>
      refine ⟨input.summary, input.summary, input.now, rfl, ?_, rfl, ⟨_, rfl, le_refl _⟩, fun r => ?_, fun r _ field => ?_⟩
      · simp [sound.empty before]
      · exact (rolled_seed r).1
      · exact ((rolled_seed r).2 field).trans (Int.sub_self _).symm
  | some earlier =>
      obtain ⟨start, last, received, sums⟩ := sound.stored earlier before
      obtain ⟨time, clock, past⟩ := sums.past
      have later : received ≤ input.now := past.trans (forward time clock)
      refine ⟨start, input.summary, input.now, rfl, ?_, rfl, ⟨_, rfl, le_refl _⟩, fun r => ?_, fun r complete field => ?_⟩
      · simp [sums.first]
      · have rolls : Rolls r input.now (merged input earlier r
            ((earlier.rows r).filter fun row => r.cutoff input.now ≤ row.at_)) := (sums.rolls r).merged later
        rwa [← rolled_eq (sums.rolls r) later] at rolls
      · obtain ⟨whole, kept⟩ := Bool.and_eq_true_iff.mp complete
        have rows : ((earlier.rows r).filter fun row => decide (r.cutoff input.now ≤ row.at_)) = earlier.rows r := by
          simpa [Ledger.rows, before] using kept
        have growth : delta input earlier field = input.summary.value field - last.value field := by
          simp [delta, stale, sums.summary]
        calc total field (rolled input earlier r)
            = total field (merged input earlier r (earlier.rows r)) := by
              rw [rolled_eq (sums.rolls r) later, rows]
          _ = total field (earlier.rows r) + delta input earlier field :=
              total_merged (rolls_iff.mp (sums.rolls r)).1
          _ = input.summary.value field - start.value field := by
              rw [sums.telescopes r whole field, growth]
              ring

/-- A rejected report changes nothing but the clock. -/
theorem Ledger.Sound.rejected (sound : ledger.Sound)
    (forward : ∀ time, ledger.clock = some time → time ≤ input.now)
    (same : (TerminalTraffic.upload ledger.document input).1 = ledger.document)
    (refused : (TerminalTraffic.upload ledger.document input).2.accepted = false) :
    (ledger.upload input).1.Sound := by
  have result : (ledger.upload input).1 = { ledger with clock := some input.now } := by
    simp [Ledger.upload, same, refused]
  rw [result]
  refine ⟨sound.empty, fun stored held => ?_⟩
  obtain ⟨start, last, received, sums⟩ := sound.stored stored held
  obtain ⟨time, clock, past⟩ := sums.past
  exact ⟨start, last, received, sums.summary, sums.first, sums.receivedAt,
    ⟨_, rfl, past.trans (forward time clock)⟩, sums.rolls, sums.telescopes⟩

/-- What becomes of one upload. -/
theorem upload_cases {document}
    (new : ∀ stored, document = some stored → stored.acceptedNonce ≠ some input.nonce) :
    ((upload document input).2.accepted = true ↔
      input.summary.valid = true ∧ Advances document input.summary) ∧
    ((upload document input).2.accepted = false → (upload document input).1 = document) := by
  cases valid : input.summary.valid with
  | false =>
      rw [upload_invalid valid]
      simp [Reply.accepted]
  | true =>
      by_cases advances : Advances document input.summary
      · rw [upload_accepted valid advances]
        simp [Reply.accepted, advances]
      · obtain ⟨same, refused⟩ := upload_rejected advances new
        exact ⟨by simp [refused, advances], fun _ => same⟩

theorem run_sound {history} (run : Run Uploads .new history ledger) : ledger.Sound := by
  refine @Run.historyInvariant _ _ _ _ (fun _ ledger => ledger.Sound) ?_ ?_ _ _ run
  · exact ⟨fun _ => rfl, fun stored same => by cases same⟩
  · intro _ ledger event after _ sound ⟨result, forward, new⟩
    obtain rfl : (ledger.upload event.1).1 = after := by rw [result]
    obtain ⟨accepts, rejects⟩ := upload_cases new
    cases accepted : (upload ledger.document event.1).2.accepted with
    | true =>
        obtain ⟨valid, advances⟩ := accepts.mp accepted
        exact sound.accepted valid advances forward
    | false => exact sound.rejected forward (rejects accepted) accepted

/-- The reports that were accepted, in order. -/
def acceptedReports (history : List (Upload × Reply)) : List Summary :=
  (history.filter fun event => event.2.accepted).map fun event => event.1.summary

theorem acceptedReports_snoc (history : List (Upload × Reply)) (event : Upload × Reply) :
    acceptedReports (history ++ [event]) =
      if event.2.accepted then acceptedReports history ++ [event.1.summary] else acceptedReports history := by
  unfold acceptedReports
  cases accepted : event.2.accepted <;> simp [accepted]

/-- The first report that was accepted is remembered, the last one is stored. -/
theorem run_reports {history} (run : Run Uploads .new history ledger) :
    ledger.first = (acceptedReports history).head? ∧
      ledger.document.bind Stored.summary = (acceptedReports history).getLast? := by
  refine @Run.historyInvariant _ _ _ _ (fun history (ledger : Ledger) =>
    ledger.first = (acceptedReports history).head? ∧
      ledger.document.bind Stored.summary = (acceptedReports history).getLast?) ⟨rfl, rfl⟩ ?_ _ _ run
  intro history ledger event after _ ⟨first, last⟩ ⟨result, _, new⟩
  obtain ⟨rfl, answer⟩ : (ledger.upload event.1).1 = after ∧ (upload ledger.document event.1).2 = event.2 := by
    rw [result]
    exact ⟨rfl, congrArg Prod.snd result⟩
  obtain ⟨accepts, rejects⟩ := upload_cases new
  rw [acceptedReports_snoc, ← answer]
  cases accepted : (upload ledger.document event.1).2.accepted with
  | true =>
      obtain ⟨valid, advances⟩ := accepts.mp accepted
      rw [upload_eq_of_accepted valid advances]
      simp [first, List.head?_append, replacement]
  | false =>
      have kept : (ledger.upload event.1).1 = { ledger with clock := some event.1.now } := by
        simp [Ledger.upload, rejects accepted, accepted]
      rw [kept]
      exact ⟨first, last⟩

/-- A valid report is accepted exactly when it advances, and otherwise nothing is stored. The
    arrays stay ordered, aligned, bounded and within the window of the last accepted report,
    and a complete one adds up to the growth since the first. -/
theorem rollups_telescope {history : List (Upload × Reply)} (run : Run Uploads .new history ledger) :
    (∀ input, (∀ stored, ledger.document = some stored → stored.acceptedNonce ≠ some input.nonce) →
      ((upload ledger.document input).2.accepted = true ↔
        input.summary.valid = true ∧ Advances ledger.document input.summary) ∧
      ((upload ledger.document input).2.accepted = false → (upload ledger.document input).1 = ledger.document)) ∧
    ∀ stored, ledger.document = some stored → ∃ start last received,
      (acceptedReports history).head? = some start ∧ (acceptedReports history).getLast? = some last ∧
        stored.summary = some last ∧ stored.receivedAt = some received ∧
        ∀ r, Rolls r received (stored.rows r) ∧ (stored.rows r).length ≤ r.count ∧
          (ledger.complete r = true → ∀ field,
            total field (stored.rows r) = last.value field - start.value field) := by
  refine ⟨fun input new => upload_cases new, fun stored held => ?_⟩
  obtain ⟨start, last, received, sums⟩ := (run_sound run).stored stored held
  obtain ⟨firstAccepted, lastAccepted⟩ := run_reports run
  refine ⟨start, last, received, firstAccepted.symm.trans sums.first, ?_, sums.summary, sums.receivedAt,
    fun r => ⟨sums.rolls r, (sums.rolls r).few, sums.telescopes r⟩⟩
  rw [← lastAccepted, held]
  exact sums.summary

/-- A report with this revision and this many bytes of input. -/
def exampleReport (revision input : Nat) (now : Int) (nonce : String) : Upload where
  owner := "o"
  machine := "m"
  summary := ⟨⟨input, 0, 0, 0⟩, "aaaaaaaaaaaaaaaaaaaaaaaaaaaaaaaa", revision, 0, 0, 0, 0, 0, 0, none⟩
  now := now
  nonce := nonce

def exampleUploads : List Upload :=
  [exampleReport 1 100 0 "a", exampleReport 2 130 4000 "b", exampleReport 2 150 5000 "c",
    exampleReport 3 170 6000 "d"]

def exampleLedger : Ledger := (feed Ledger.upload .new exampleUploads).2

/-- What `Uploads` asks of an upload. -/
def Ledger.allows (ledger : Ledger) (input : Upload) : Bool :=
  ledger.clock.all (· ≤ input.now) && ledger.document.all fun stored => stored.acceptedNonce ≠ some input.nonce

theorem third_report_is_refused :
    Run Uploads .new (feed Ledger.upload .new exampleUploads).1 exampleLedger ∧
      (feed Ledger.upload .new exampleUploads).1.map (fun event => event.2) =
        [.answered true 1, .answered true 2, .conflict, .answered true 3] ∧
      ∃ stored, exampleLedger.document = some stored ∧
        (stored.rows .recent).map (fun row => (row.at_, row.bytes .ptyInput)) = [(0, 30), (5000, 40)] ∧
        total .ptyInput (stored.rows .days) = 70 := by
  have run : Run Uploads .new (feed Ledger.upload .new exampleUploads).1 exampleLedger := by
    refine @feed_run_of_passes _ _ _ _ Ledger.allows _ (fun ledger input allowed => ?_) _ _ (by decide)
    obtain ⟨forward, new⟩ := Bool.and_eq_true_iff.mp allowed
    refine ⟨rfl, fun time clock => ?_, fun stored held => ?_⟩
    · simpa [clock] using forward
    · simpa [held] using new
  refine ⟨run, by decide, ?_⟩
  obtain ⟨stored, held⟩ := Option.isSome_iff_exists.mp (by decide : exampleLedger.document.isSome = true)
  obtain ⟨start, last, _, first, final, _, _, arrays⟩ := (rollups_telescope run).2 stored held
  refine ⟨stored, held, ?_, ?_⟩
  · have rows : exampleLedger.document.map (fun stored =>
        (stored.rows .recent).map fun row => (row.at_, row.bytes .ptyInput)) = some [(0, 30), (5000, 40)] := by
      decide
    simpa [held] using rows
  · have growth := (arrays .days).2.2 (by decide) .ptyInput
    have reports : (acceptedReports (feed Ledger.upload .new exampleUploads).1).head? =
          some (exampleReport 1 100 0 "a").summary ∧
        (acceptedReports (feed Ledger.upload .new exampleUploads).1).getLast? =
          some (exampleReport 3 170 6000 "d").summary := by
      decide
    obtain rfl := Option.mem_unique first reports.1
    obtain rfl := Option.mem_unique final reports.2
    exact growth

end Telescoping

end PortHub.Api.TerminalTraffic
