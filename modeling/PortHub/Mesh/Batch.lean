import PortHub.Rust

/-! # Bounded relay batches

A batch is a magic followed by length-prefixed records. With prefixes, a record
names how many bytes it shares with the record before it and carries only the
rest. Decoding restores the exact records; a frame without a magic is one record
of its own.
-/

namespace PortHub.Mesh.Batch

/-- `LEGACY` and `PREFIX`: the bytes of "PHB1" and "PHB2". -/
def legacy : List UInt8 := [0x50, 0x48, 0x42, 0x31]

def compact : List UInt8 := [0x50, 0x48, 0x42, 0x32]

def magic (prefixes : Bool) : List UInt8 := if prefixes then compact else legacy

def maxRecords : Nat := 32

def maxRecord : Nat := 1441

/-- Bytes a record shares with the one before it, at most 255. -/
def common (prefixes : Bool) (previous record : List UInt8) : Nat :=
  if prefixes then
    (((previous.zip record).take 255).takeWhile fun (a, b) => a == b).length
  else 0

/-- One encoded record. -/
def encodeRecord (prefixes : Bool) (previous record : List UInt8) : List UInt8 :=
  let shared := common prefixes previous record
  let suffix := record.drop shared
  u16BeBytes suffix.length ++ (if prefixes then [UInt8.ofNat shared] else []) ++ suffix

def encodeRecords (prefixes : Bool) (previous : List UInt8) :
    List (List UInt8) → Result (List UInt8)
  | [] => .ok []
  | record :: rest => do
      ensure (!record.isEmpty && decide (record.length ≤ maxRecord)) "invalid relay record size"
      let tail ← encodeRecords prefixes record rest
      return encodeRecord prefixes previous record ++ tail

def encode (records : List (List UInt8)) (prefixes : Bool) : Result (List UInt8) := do
  ensure (!records.isEmpty && decide (records.length ≤ maxRecords)) "invalid relay batch count"
  let body ← encodeRecords prefixes [] records
  return magic prefixes ++ body

/-- The decoded records and `frame[offset..]`. -/
structure Cursor where
  records : List (List UInt8)
  rest : List UInt8
  deriving DecidableEq, Repr

/-- The body of the decoding loop. -/
def decodeRecord (prefixes : Bool) (cursor : Cursor) : Result Cursor := do
  let header := if prefixes then 3 else 2
  ensure (decide (cursor.records.length < maxRecords) && decide (header ≤ cursor.rest.length))
    "invalid relay batch header"
  let length := (be16 (cursor.rest.getD 0 0) (cursor.rest.getD 1 0)).toNat
  let shared := if prefixes then (cursor.rest.getD 2 0).toNat else 0
  let rest := cursor.rest.drop header
  ensure (decide (length ≤ rest.length) && decide (0 < shared + length)
    && decide (shared + length ≤ maxRecord)) "invalid relay record size"
  let previous := cursor.records.getLast?.getD []
  ensure (decide (shared ≤ previous.length)) "invalid relay record prefix"
  return ⟨cursor.records ++ [previous.take shared ++ rest.take length], rest.drop length⟩

/-- The decoding loop; nothing when it is still running after `fuel` rounds. -/
def decodeLoop (prefixes : Bool) : Nat → Cursor → Option (Result (List (List UInt8)))
  | 0, _ => none
  | fuel + 1, cursor =>
      if cursor.rest.isEmpty then some (.ok cursor.records)
      else
        match decodeRecord prefixes cursor with
        | .error message => some (.error message)
        | .ok next => decodeLoop prefixes fuel next

/-- `starts_with` one of the two magics, and which one. -/
def batched (frame : List UInt8) : Option Bool :=
  if compact.isPrefixOf frame then some true
  else if legacy.isPrefixOf frame then some false
  else none

/-- `decode`, with `fuel` rounds of its loop. -/
def decodeWithin (fuel : Nat) (frame : List UInt8) : Option (Result (List (List UInt8))) :=
  match batched frame with
  | none => some (.ok [frame])
  | some prefixes =>
      (decodeLoop prefixes fuel ⟨[], frame.drop 4⟩).map fun result => do
        let records ← result
        ensure (!records.isEmpty) "empty relay batch"
        return records

/-- `decode`. A round adds a record and 32 is the most it may hold. -/
def decode (frame : List UInt8) : Option (Result (List (List UInt8))) :=
  decodeWithin (maxRecords + 1) frame

/-- A record that fits into a batch. -/
def Fits (record : List UInt8) : Prop := 1 ≤ record.length ∧ record.length ≤ maxRecord

theorem zip_common (limit : Nat) (previous record : List UInt8) :
    let shared := (((previous.zip record).take limit).takeWhile fun (a, b) => a == b).length
    shared ≤ limit ∧ shared ≤ previous.length ∧ shared ≤ record.length ∧
      previous.take shared = record.take shared := by
  induction previous generalizing record limit with
  | nil => simp
  | cons a previous ih =>
      cases record with
      | nil => simp
      | cons b record =>
          cases limit with
          | zero => simp
          | succ limit =>
              obtain ⟨bounded, left, right, same⟩ := ih limit record
              by_cases equal : a = b
              · subst equal
                simpa using ⟨bounded, left, right, same⟩
              · simp [equal]

theorem common_shared (prefixes : Bool) (previous record : List UInt8) :
    let shared := common prefixes previous record
    shared ≤ 255 ∧ shared ≤ previous.length ∧ shared ≤ record.length ∧
      previous.take shared = record.take shared := by
  cases prefixes with
  | true => exact zip_common 255 previous record
  | false => simp [common]

variable {prefixes : Bool} {records : List (List UInt8)}

/-- One round of the decoding loop adds one record of a valid size. -/
theorem decodeRecord_ok {cursor next} (decoded : decodeRecord prefixes cursor = .ok next) :
    cursor.records.length < maxRecords ∧
      ∃ record, Fits record ∧ next.records = cursor.records ++ [record] := by
  simp only [decodeRecord, bind_eq_ok, ensure_eq_ok, pure_eq_ok, Bool.and_eq_true,
    decide_eq_true_eq] at decoded
  obtain ⟨_, ⟨room, _⟩, _, ⟨⟨enough, positive⟩, bounded⟩, _, inside, rfl⟩ := decoded
  refine ⟨room, _, ?_, rfl⟩
  simp only [Fits, List.length_append, List.length_take, min_eq_left enough, min_eq_left inside]
  exact ⟨positive, bounded⟩

/-- The loop ends within the rounds that the record limit leaves. -/
theorem decodeLoop_total (prefixes : Bool) {fuel} {cursor : Cursor}
    (bounded : cursor.records.length ≤ maxRecords)
    (enough : maxRecords < cursor.records.length + fuel) :
    ∃ result, decodeLoop prefixes fuel cursor = some result := by
  induction fuel generalizing cursor with
  | zero => omega
  | succ fuel ih =>
      unfold decodeLoop
      split
      · exact ⟨_, rfl⟩
      · cases decoded : decodeRecord prefixes cursor with
        | error message => exact ⟨_, rfl⟩
        | ok next =>
            obtain ⟨room, record, _, grown⟩ := decodeRecord_ok decoded
            apply ih
            · simpa [grown, Nat.succ_le_iff] using room
            · simp only [grown, List.length_append, List.length_singleton]
              omega

theorem decode_total (frame : List UInt8) : ∃ result, decode frame = some result := by
  unfold decode decodeWithin
  cases batched frame with
  | none => exact ⟨_, rfl⟩
  | some prefixes =>
      obtain ⟨result, ended⟩ := @decodeLoop_total prefixes (maxRecords + 1) ⟨[], frame.drop 4⟩
        (by simp) (by simp)
      dsimp only
      rw [ended]
      exact ⟨_, rfl⟩

/-- What the loop returns holds at most 32 records of valid sizes. -/
theorem decodeLoop_fits {fuel} {cursor : Cursor} (bounded : cursor.records.length ≤ maxRecords)
    (valid : ∀ record ∈ cursor.records, Fits record)
    (ended : decodeLoop prefixes fuel cursor = some (.ok records)) :
    records.length ≤ maxRecords ∧ ∀ record ∈ records, Fits record := by
  induction fuel generalizing cursor with
  | zero => cases ended
  | succ fuel ih =>
      unfold decodeLoop at ended
      split at ended
      · simp only [Option.some.injEq, Except.ok.injEq] at ended
        subst ended
        exact ⟨bounded, valid⟩
      · cases decoded : decodeRecord prefixes cursor with
        | error message => simp [decoded] at ended
        | ok next =>
            rw [decoded] at ended
            obtain ⟨room, record, fits, grown⟩ := decodeRecord_ok decoded
            apply ih ?_ ?_ ended
            · simpa [grown, Nat.succ_le_iff] using room
            · intro other member
              rw [grown, List.mem_append, List.mem_singleton] at member
              rcases member with earlier | rfl
              · exact valid other earlier
              · exact fits

/-- The header of an encoded record, as the decoder reads it. -/
theorem encodeRecord_header (prefixes : Bool) (previous record tail : List UInt8)
    (bounded : record.length ≤ maxRecord) :
    let shared := common prefixes previous record
    let bytes := encodeRecord prefixes previous record ++ tail
    let header := if prefixes then 3 else 2
    header ≤ bytes.length ∧
      (be16 (bytes.getD 0 0) (bytes.getD 1 0)).toNat = (record.drop shared).length ∧
      (if prefixes then (bytes.getD 2 0).toNat else 0) = shared ∧
      bytes.drop header = record.drop shared ++ tail := by
  have small : (record.drop (common prefixes previous record)).length < 65536 := by
    simp only [List.length_drop, maxRecord] at bounded ⊢
    omega
  obtain ⟨low, _⟩ := common_shared prefixes previous record
  have size := be16_u16BeBytes small
  cases prefixes with
  | true =>
      refine ⟨by simp [encodeRecord, u16BeBytes], size, ?_, rfl⟩
      exact Nat.mod_eq_of_lt (by omega)
  | false => exact ⟨by simp [encodeRecord, u16BeBytes], size, rfl, rfl⟩

/-- An encoded record at the front of the unread bytes is read back. -/
theorem decodeRecord_encodeRecord (prefixes : Bool) (room : records.length < maxRecords) {record}
    (fits : Fits record) (tail : List UInt8) :
    decodeRecord prefixes ⟨records, encodeRecord prefixes (records.getLast?.getD []) record ++ tail⟩ =
      .ok ⟨records ++ [record], tail⟩ := by
  obtain ⟨_, left, right, same⟩ := common_shared prefixes (records.getLast?.getD []) record
  obtain ⟨enough, length, shared, unread⟩ :=
    encodeRecord_header prefixes (records.getLast?.getD []) record tail fits.2
  generalize common prefixes (records.getLast?.getD []) record = n at left right same length shared unread
  have sizes : n + (record.drop n).length = record.length := by
    rw [List.length_drop]
    omega
  simp only [decodeRecord, bind_eq_ok, ensure_eq_ok, pure_eq_ok, length, shared, unread,
    Bool.and_eq_true, decide_eq_true_eq, List.length_append, sizes]
  refine ⟨(), ⟨room, by simpa using enough⟩, (), ⟨⟨by omega, fits.1⟩, fits.2⟩, (), left, ?_⟩
  rw [same, List.take_left' rfl, List.drop_left' rfl, List.take_append_drop]

theorem decodeLoop_encodeRecords (prefixes : Bool) {done todo : List (List UInt8)} {fuel bytes}
    (bounded : done.length + todo.length ≤ maxRecords) (enough : todo.length < fuel)
    (encoded : encodeRecords prefixes (done.getLast?.getD []) todo = .ok bytes) :
    decodeLoop prefixes fuel ⟨done, bytes⟩ = some (.ok (done ++ todo)) := by
  induction todo generalizing done fuel bytes with
  | nil =>
      obtain rfl : ([] : List UInt8) = bytes := by simpa [encodeRecords] using encoded
      cases fuel with
      | zero => omega
      | succ fuel => simp [decodeLoop]
  | cons record todo ih =>
      simp only [encodeRecords, bind_eq_ok, ensure_eq_ok, pure_eq_ok] at encoded
      obtain ⟨_, fits, tail, rest, rfl⟩ := encoded
      have fits : Fits record := by
        simpa [Fits, Nat.one_le_iff_ne_zero] using fits
      simp only [List.length_cons] at bounded enough
      cases fuel with
      | zero => omega
      | succ fuel =>
          unfold decodeLoop
          rw [if_neg, decodeRecord_encodeRecord prefixes (by omega) fits]
          · dsimp only
            rw [ih (by simp; omega) (by omega) (by simpa using rest)]
            simp
          · simp [encodeRecord, u16BeBytes]

theorem encodeRecords_ok (prefixes : Bool) (valid : ∀ record ∈ records, Fits record)
    (previous : List UInt8) :
    ∃ bytes, encodeRecords prefixes previous records = .ok bytes := by
  induction records generalizing previous with
  | nil => exact ⟨[], rfl⟩
  | cons record records ih =>
      obtain ⟨tail, rest⟩ := ih (fun other member => valid other (.tail _ member)) record
      have fits : (!record.isEmpty && decide (record.length ≤ maxRecord)) = true := by
        simpa [Fits, Nat.one_le_iff_ne_zero] using valid record (.head _)
      refine ⟨encodeRecord prefixes previous record ++ tail, ?_⟩
      simp only [encodeRecords, bind_eq_ok, ensure_eq_ok, pure_eq_ok]
      exact ⟨(), fits, tail, rest, rfl⟩

theorem batched_magic (prefixes : Bool) (body : List UInt8) :
    batched (magic prefixes ++ body) = some prefixes := by
  cases prefixes <;> simp [batched, magic, compact, legacy, List.isPrefixOf]

/-- Any batch of valid records encodes, and decodes to the same records. -/
theorem decode_encode (prefixes : Bool) (nonempty : records ≠ [])
    (bounded : records.length ≤ maxRecords) (valid : ∀ record ∈ records, Fits record) :
    ∃ frame, encode records prefixes = .ok frame ∧ decode frame = some (.ok records) := by
  obtain ⟨body, encoded⟩ := encodeRecords_ok prefixes valid []
  refine ⟨magic prefixes ++ body, ?_, ?_⟩
  · simp only [encode, bind_eq_ok, ensure_eq_ok, pure_eq_ok]
    exact ⟨(), by simp [nonempty, bounded], body, encoded, rfl⟩
  · have ended : decodeLoop prefixes (maxRecords + 1) ⟨[], body⟩ = some (.ok ([] ++ records)) :=
      decodeLoop_encodeRecords prefixes (by simpa using bounded) (Nat.lt_succ_of_le bounded) encoded
    have stripped : (magic prefixes ++ body).drop 4 = body := by cases prefixes <;> rfl
    simp only [decode, decodeWithin, batched_magic, stripped, ended, List.nil_append,
      Option.map_some, Option.some.injEq, bind_eq_ok, ensure_eq_ok, pure_eq_ok]
    exact ⟨records, rfl, (), by simp [nonempty], rfl⟩

/-- Whatever a batch decodes to is a valid batch. -/
theorem decode_fits {frame} (isBatch : batched frame = some prefixes)
    (decoded : decode frame = some (.ok records)) :
    records ≠ [] ∧ records.length ≤ maxRecords ∧ ∀ record ∈ records, Fits record := by
  simp only [decode, decodeWithin, isBatch, Option.map_eq_some_iff, bind_eq_ok, ensure_eq_ok,
    pure_eq_ok] at decoded
  obtain ⟨result, ended, found, rfl, _, nonempty, rfl⟩ := decoded
  obtain ⟨bounded, valid⟩ := decodeLoop_fits (by simp) (by simp) ended
  exact ⟨by simpa using nonempty, bounded, valid⟩

end PortHub.Mesh.Batch
