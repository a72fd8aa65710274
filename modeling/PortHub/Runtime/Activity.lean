import Mathlib.Data.Prod.Lex
import Mathlib.Data.String.Basic
import Mathlib.Order.WithBot
import PortHub.Lib.Dict
import PortHub.Rust

/-! # Request counts and their journal

Requests are counted in buckets by route, month, visitor and minute. `take` cuts a
batch of the oldest keys, and the reader of the journal accepts a batch only if its
records are well formed. The JSON reader, the identifiers and the calendar are
parameters; times are milliseconds since 1970.
-/

namespace PortHub.Runtime.Activity

def maxRecords : Nat := 512

def maxPending : Nat := 16384

/-- `i64::MAX`. -/
def maxCount : Int := 9223372036854775807

structure Record where
  routeId : String
  count : Int
  timestamp : Int
  host : String
  client : Option String
  firstTimestamp : Option Int
  deriving DecidableEq, Repr

structure Batch where
  version : Nat
  id : String
  coverageWarning : Bool
  records : List Record
  deriving DecidableEq, Repr

structure Libraries where
  /-- `serde_json::from_slice::<Batch>`. -/
  parse : List UInt8 → Option Batch
  /-- `Uuid::parse_str(..).is_ok()`. -/
  isUuid : String → Bool
  /-- `DateTime::from_timestamp_millis(..).is_some()`. -/
  representable : Int → Bool
  /-- `year() * 100 + month()` of a time. -/
  month : Int → Int

def isHexdigit (c : Char) : Bool := c.isDigit || ('a' ≤ c && c ≤ 'f') || ('A' ≤ c && c ≤ 'F')

/-- `i64::saturating_sub`. -/
def saturatingSub (a b : Int) : Int := max (-9223372036854775808) (min maxCount (a - b))

section Validation

variable (lib : Libraries)

/-- A visitor and its first time come together. -/
def visitorValid (version : Nat) (record : Record) : Bool :=
  match record.client, record.firstTimestamp with
  | none, none => true
  | some client, some first =>
      version == 2 && decide (0 < record.count) && Text.byteLen client.toList == 64
        && client.toList.all isHexdigit && decide (first ≤ record.timestamp)
        && decide (saturatingSub record.timestamp first < 60000) && lib.representable first
  | _, _ => false

def recordValid (version : Nat) (record : Record) : Bool :=
  !record.routeId.toList.isEmpty && decide (Text.byteLen record.routeId.toList ≤ 128)
    && decide (Text.byteLen record.host.toList ≤ 253) && decide (0 ≤ record.count)
    && visitorValid lib version record && lib.representable record.timestamp

/-- The batches that `read_batch` accepts. -/
def batchValid (batch : Batch) : Bool :=
  (batch.version == 1 || batch.version == 2) && lib.isUuid batch.id
    && decide (batch.records.length ≤ maxRecords) && batch.records.all (recordValid lib batch.version)

end Validation

/-- The key of a bucket: no visitor comes before every visitor. -/
structure Key where
  route : String
  month : Int
  visit : Option (String × Int)
  deriving DecidableEq, Repr

def Key.rank (key : Key) : String ×ₗ (Int ×ₗ WithBot (String ×ₗ Int)) :=
  toLex (key.route, toLex (key.month, (key.visit.map toLex : Option (String ×ₗ Int))))

theorem Key.rank_injective : Function.Injective Key.rank := by
  rintro ⟨route, month, visit⟩ ⟨other, later, second⟩ same
  obtain ⟨rfl, rest⟩ := Prod.mk.inj same
  obtain ⟨rfl, visits⟩ := Prod.mk.inj rest
  have visited : visit = second := Option.map_injective toLex.injective visits
  subst visited
  rfl

instance : LinearOrder Key := LinearOrder.lift' Key.rank Key.rank_injective

structure Pending where
  counts : Dict Key Record
  warning : Bool

def Pending.empty (warning : Bool) : Pending := ⟨Dict.empty, warning⟩

section Recording

variable (lib : Libraries)

def bucket (route : String) (now : Int) (client : Option String) : Key :=
  ⟨route, lib.month now, client.map fun client => (client, now / 60000)⟩

/-- The limit leaves no room for another bucket. -/
def Pending.refuses (pending : Pending) (key : Key) : Bool :=
  decide (maxPending ≤ pending.counts.len) && !pending.counts.contains key

/-- Count one request in its record. -/
def Record.touch (record : Record) (host : String) (now : Int) : Record :=
  let record := {
    record with
    count := min maxCount (record.count + 1), firstTimestamp := record.firstTimestamp.map (min · now) }
  if record.timestamp ≤ now then { record with timestamp := now, host } else record

def recordAtWithClient (pending : Pending) (route host : String) (now : Int) (client : Option String) :
    Pending :=
  let key := bucket lib route now client
  if pending.refuses key then { pending with warning := true }
  else
    let fresh : Record := ⟨route, 0, 0, "", client, client.map fun _ => now⟩
    let record := (pending.counts.get? key).getD fresh
    { pending with counts := pending.counts.insert key (record.touch host now) }

/-- `pop_first`. -/
def popFirst (counts : Dict Key Record) : Option (Record × Dict Key Record) := do
  let key ← (counts.entries.map Prod.fst).min?
  let record ← counts.get? key
  return (record, counts.erase key)

def popUpTo : Nat → Dict Key Record → List Record × Dict Key Record
  | 0, counts => ([], counts)
  | limit + 1, counts =>
      match popFirst counts with
      | none => ([], counts)
      | some (record, counts) =>
          let (records, counts) := popUpTo limit counts
          (record :: records, counts)

/-- `take`, with the identifier that it makes. -/
def take (pending : Pending) (id : String) : Pending × Option Batch :=
  if pending.counts.len = 0 then (pending, none)
  else
    let (records, counts) := popUpTo maxRecords pending.counts
    ({ pending with counts }, some ⟨2, id, pending.warning, records⟩)

end Recording

end PortHub.Runtime.Activity
