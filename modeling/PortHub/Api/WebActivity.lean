import Mathlib.Data.List.Sort
import PortHub.Runtime.Journal

/-! # Merging the request counts

The reads of the journal are merged into one document: requests per route, in all and of
the latest month, and visits. A visit begins with a request of a client that was not seen
for half an hour; the ledger of recent visitors says when it was seen. Documents are read
by their fields: a missing number is zero and a missing text is empty, as `integer` and
`string` have it. The calendar is a parameter.
-/

namespace PortHub.Api.WebActivity

open Runtime.Activity (Record Batch Read Checkpoint maxCount saturatingSub)

/-- `RECENT_BATCHES`. -/
def recentBatches : Nat := 512

/-- `MAX_RECENT_VISITORS`. -/
def maxRecentVisitors : Nat := 32768

/-- `VISIT_WINDOW_SECONDS`, in milliseconds. -/
def window : Int := 1800000

/-- How long a visitor stays in the ledger behind the latest time. -/
def retention : Int := 2 * window + 60000

/-- `i64::saturating_add`. -/
def saturatingAdd (a b : Int) : Int := max (-9223372036854775808) (min maxCount (a + b))

structure Libraries where
  /-- A time as chrono formats it, to the second, if it can represent it. -/
  format : Int → Option String
  /-- `DateTime::parse_from_rfc3339(..).timestamp_millis()`. -/
  parseRfc3339 : String → Option Int

section Texts

/-- A number with six digits. -/
def sixDigits (n : Nat) : String :=
  String.ofList ((List.range 6).map fun place => Char.ofNat (48 + n / 10 ^ (5 - place) % 10))

/-- `store::datetime`. -/
def datetime (lib : Libraries) (millis : Int) : String :=
  match lib.format millis with
  | none => ""
  | some base =>
      let micros := (millis % 1000).toNat * 1000
      if micros = 0 then base else base ++ "." ++ sixDigits micros

def stamp (lib : Libraries) (millis : Int) : String := datetime lib millis ++ "+00:00"

/-- `text.get(..stop)`. -/
def getTo : List Char → Nat → Option (List Char)
  | _, 0 => some []
  | [], _ + 1 => none
  | c :: rest, stop + 1 =>
      if c.utf8Size ≤ stop + 1 then (getTo rest (stop + 1 - c.utf8Size)).map (c :: ·) else none

def month (value : String) : String := String.ofList ((getTo value.toList 7).getD [])

end Texts

structure Metric where
  requests : Int
  lastRequestedAt : String
  /-- The key is missing in old documents. -/
  month : Option String
  monthlyRequests : Int
  lastHost : String
  visits : Int
  monthlyVisits : Int
  lastVisitedAt : String
  deriving DecidableEq, Repr

def Metric.new : Metric := ⟨0, "", none, 0, "", 0, 0, ""⟩

structure State where
  trackingSince : String
  metrics : Dict String Metric
  nativeBatches : List String
  coverageWarning : Bool
  recentVisitors : Dict String Int
  visitsWatermark : Int
  visitsTrackingSince : Option String
  monthlyTrackingSince : Option String
  checkpoint : Option Checkpoint

/-- A document that was just made. -/
def State.new (now : String) : State := ⟨now, .empty, [], false, .empty, 0, none, none, none⟩

/-- The count of an old document belongs to the month in which it began. -/
def Metric.migrate (tracking : String) (metric : Metric) : Metric :=
  let last := metric.lastRequestedAt
  if metric.month.isNone ∧ tracking ≠ "" ∧ WebActivity.month last = WebActivity.month tracking then
    { metric with month := some (WebActivity.month last), monthlyRequests := metric.requests }
  else metric

section Counting

variable (lib : Libraries)

/-- A record with the month of its own, which begins if it is later. -/
def Metric.turn (metric : Metric) (recordMonth : String) : Metric :=
  if metric.month.getD "" < recordMonth then
    { metric with month := some recordMonth, monthlyRequests := 0, monthlyVisits := 0 }
  else metric

def Metric.count (metric : Metric) (record : Record) : Metric :=
  let metric := { metric with requests := saturatingAdd metric.requests record.count }
  let timestamp := stamp lib record.timestamp
  let recordMonth := WebActivity.month timestamp
  let metric := metric.turn recordMonth
  let metric :=
    if recordMonth = metric.month.getD "" then
      { metric with monthlyRequests := saturatingAdd metric.monthlyRequests record.count }
    else metric
  if (lib.parseRfc3339 metric.lastRequestedAt).all (· ≤ record.timestamp) then
    { metric with lastRequestedAt := timestamp, lastHost := record.host }
  else metric

def countRecord (valid : String → Bool) (metrics : Dict String Metric) (record : Record) :
    Dict String Metric :=
  if valid record.routeId then
    metrics.insert record.routeId (((metrics.get? record.routeId).getD .new).count lib record)
  else metrics

/-- Remember the latest batches. -/
def remember (recent : List String) (id : String) : List String :=
  (recent ++ [id]).drop (recent.length + 1 - recentBatches)

/-- What the loop over the batches holds. -/
structure Counted where
  metrics : Dict String Metric
  recent : List String
  warning : Bool
  visitEvents : List Record

def Counted.batch (valid : String → Bool) (counted : Counted) (batch : Batch) : Counted :=
  if batch.id ∈ counted.recent then counted
  else {
    metrics := batch.records.foldl (countRecord lib valid) counted.metrics
    recent := remember counted.recent batch.id
    warning := counted.warning || batch.coverageWarning
    visitEvents := counted.visitEvents ++
      batch.records.filter fun record => valid record.routeId && record.client.isSome }

end Counting

section Visits

variable (lib : Libraries)

/-- How the ledger forgets. -/
structure Ledger where
  /-- The visitors that stay behind a watermark. -/
  prune : Int → Dict String Int → Dict String Int
  isFull : Dict String Int → Bool

/-- The ledger of the source. -/
def Ledger.recent : Ledger where
  prune watermark visitors := visitors.retain fun _ seen => decide (saturatingSub watermark retention ≤ seen)
  isFull visitors := decide (maxRecentVisitors ≤ visitors.len)

/-- A ledger from which nothing is removed. -/
def Ledger.whole : Ledger where
  prune _ visitors := visitors
  isFull _ := false

/-- What the loop over the visits holds. -/
structure Visiting where
  metrics : Dict String Metric
  visitors : Dict String Int
  watermark : Int
  warning : Bool
  since : Option String

/-- A visit of a route begins. -/
def Metric.visit (metric : Metric) (first : Int) : Metric :=
  let metric := { metric with visits := saturatingAdd metric.visits 1 }
  let metric :=
    if WebActivity.month (stamp lib first) = metric.month.getD "" then
      { metric with monthlyVisits := saturatingAdd metric.monthlyVisits 1 }
    else metric
  if (lib.parseRfc3339 metric.lastVisitedAt).getD (-9223372036854775808) ≤ first then
    { metric with lastVisitedAt := stamp lib first }
  else metric

/-- The request comes too late to say whether it belongs to a visit. -/
def Visiting.late (visiting : Visiting) (record : Record) : Bool :=
  decide (record.timestamp < saturatingSub visiting.watermark window)

/-- A request of a client that was not seen within the window. -/
def opens (previous : Option Int) (first : Int) : Bool :=
  previous.all fun last => decide (window ≤ saturatingSub first last)

/-- The ledger at a new visitor, pruned if it was full. -/
def Visiting.room (ledger : Ledger) (visiting : Visiting) (record : Record) (client : String) :
    Dict String Int :=
  if (visiting.visitors.get? client).isNone && ledger.isFull visiting.visitors then
    ledger.prune (max visiting.watermark record.timestamp) visiting.visitors
  else visiting.visitors

/-- Even the pruned ledger has no room for a new visitor. -/
def Visiting.crowded (ledger : Ledger) (visiting : Visiting) (record : Record) (client : String) : Bool :=
  (visiting.visitors.get? client).isNone && ledger.isFull (visiting.room ledger record client)

def Visiting.step (ledger : Ledger) (visiting : Visiting) (record : Record) : Visiting :=
  match record.client, record.firstTimestamp with
  | some client, some first =>
      if visiting.late record then { visiting with warning := true }
      else
        let previous := visiting.visitors.get? client
        let watermark := max visiting.watermark record.timestamp
        let visitors := visiting.room ledger record client
        if visiting.crowded ledger record client then { visiting with visitors, watermark, warning := true }
        else {
          metrics :=
            if opens previous first then
              visiting.metrics.insert record.routeId
                (((visiting.metrics.get? record.routeId).getD .new).visit lib first)
            else visiting.metrics
          visitors := visitors.insert client (max (previous.getD first) record.timestamp)
          watermark
          warning := visiting.warning
          since := some (visiting.since.getD (stamp lib first)) }
  | _, _ => visiting

/-- When a record began. -/
def eventTime (record : Record) : Int := record.firstTimestamp.getD record.timestamp

end Visits

section Merging

variable (lib : Libraries) (valid : String → Bool)

/-- The loop over the batches of a read. -/
def counting (state : State) (read : Read) : Counted :=
  read.batches.foldl (Counted.batch lib valid) {
    metrics := (state.metrics.retain fun id _ => valid id).map fun _ => Metric.migrate state.trackingSince
    recent := state.nativeBatches
    warning := state.coverageWarning || read.gap
    visitEvents := [] }

/-- The records of the visits, in the order of their times. -/
def events (counted : Counted) : List Record :=
  counted.visitEvents.insertionSort fun first second => eventTime first ≤ eventTime second

/-- The ledger and the counters in front of the loop over the visits. -/
def visitingOf (ledger : Ledger) (state : State) (counted : Counted) : Visiting where
  metrics := counted.metrics
  visitors := ledger.prune state.visitsWatermark state.recentVisitors
  watermark := state.visitsWatermark
  warning := counted.warning
  since := state.visitsTrackingSince

def mergeWith (ledger : Ledger) (state : State) (read : Read) (now : String) : State :=
  let counted := counting lib valid state read
  let visiting := (events counted).foldl (Visiting.step lib ledger) (visitingOf ledger state counted)
  {
    trackingSince := state.trackingSince
    metrics := visiting.metrics
    nativeBatches := counted.recent
    coverageWarning := visiting.warning
    recentVisitors := ledger.prune visiting.watermark visiting.visitors
    visitsWatermark := visiting.watermark
    visitsTrackingSince := visiting.since
    monthlyTrackingSince :=
      some ((state.monthlyTrackingSince.filter (· ≠ "")).getD
        (if month state.trackingSince = month now then state.trackingSince else now))
    checkpoint := some read.checkpoint }

def merge (state : State) (read : Read) (now : String) : State := mergeWith lib valid .recent state read now

/-- What a merge is given besides the document. The routes are read anew for each. -/
structure Merge where
  read : Read
  valid : String → Bool
  now : String

/-- Merges one after the other. -/
def mergeEach (ledger : Ledger) (state : State) (merges : List Merge) : State :=
  merges.foldl (fun state merge => mergeWith lib merge.valid ledger state merge.read merge.now) state

/-- Merges while the routes stay the same. -/
def mergeAll (ledger : Ledger) (state : State) (reads : List (Read × String)) : State :=
  mergeEach lib ledger state (reads.map fun read => ⟨read.1, valid, read.2⟩)

end Merging

end PortHub.Api.WebActivity
