import Mathlib.Algebra.Order.BigOperators.Group.List
import Mathlib.Algebra.Ring.Int.Defs
import Mathlib.Data.List.Dedup
import PortHub.Api.VisitLedger

/-! # Request counters and the order of arrival

The counters of a route depend on its records and not on their order: sums stop at the
largest number, the month is the latest one, and the last request has the greatest time.
A batch is counted once, however often it is delivered while its id is remembered.
-/

namespace PortHub.Api.WebActivity

open Runtime.Activity (Record Batch Read maxCount saturatingSub batchValid)

structure Counters where
  requests : Int
  month : Option String
  monthlyRequests : Int
  lastRequestedAt : String
  deriving DecidableEq, Repr

def Metric.counters (metric : Metric) : Counters :=
  ⟨metric.requests, metric.month, metric.monthlyRequests, metric.lastRequestedAt⟩

def countersOf (metrics : Dict String Metric) (route : String) : Option Counters :=
  (metrics.get? route).map Metric.counters

/-- The month of a record. -/
def monthOf (lib : Libraries) (record : Record) : String := month (stamp lib record.timestamp)

namespace Counters

variable (lib : Libraries)

def new : Counters := Metric.new.counters

def migrate (tracking : String) (counters : Counters) : Counters :=
  let last := counters.lastRequestedAt
  if counters.month.isNone ∧ tracking ≠ "" ∧ WebActivity.month last = WebActivity.month tracking then
    { counters with month := some (WebActivity.month last), monthlyRequests := counters.requests }
  else counters

/-- The month that the counters have, or none. -/
def current (counters : Counters) : String := counters.month.getD ""

/-- The request is not before the last one. -/
def isLast (counters : Counters) (record : Record) : Bool :=
  (lib.parseRfc3339 counters.lastRequestedAt).all (· ≤ record.timestamp)

def count (counters : Counters) (record : Record) : Counters where
  requests := saturatingAdd counters.requests record.count
  month := if counters.current < monthOf lib record then some (monthOf lib record) else counters.month
  monthlyRequests :=
    if counters.current < monthOf lib record then saturatingAdd 0 record.count
    else if monthOf lib record = counters.current then saturatingAdd counters.monthlyRequests record.count
    else counters.monthlyRequests
  lastRequestedAt :=
    if counters.isLast lib record then stamp lib record.timestamp else counters.lastRequestedAt

/-- The counters of a route, which its first record makes. -/
def tally (counters : Option Counters) (records : List Record) : Option Counters :=
  records.foldl (fun counters record => some ((counters.getD .new).count lib record)) counters

end Counters

section Views

variable {lib : Libraries} {valid : String → Bool} {route : String}

theorem Metric.counters_migrate (tracking : String) (metric : Metric) :
    (metric.migrate tracking).counters = metric.counters.migrate tracking := by
  unfold Metric.migrate Counters.migrate
  by_cases old : metric.month.isNone ∧ tracking ≠ "" ∧
      WebActivity.month metric.lastRequestedAt = WebActivity.month tracking
  · rw [if_pos old]
    exact (if_pos old).symm
  · rw [if_neg old]
    exact (if_neg old).symm

theorem Metric.counters_count (metric : Metric) (record : Record) :
    (metric.count lib record).counters = metric.counters.count lib record := by
  unfold Metric.count Metric.turn Counters.count Counters.isLast Counters.current monthOf
  dsimp only [Metric.counters]
  by_cases later : metric.month.getD "" < WebActivity.month (stamp lib record.timestamp)
  · simp only [later, if_true, Option.getD_some]
    split_ifs <;> simp_all
  · simp only [later, if_false]
    split_ifs <;> simp_all

theorem Metric.counters_visit (metric : Metric) (first : Int) :
    (metric.visit lib first).counters = metric.counters := by
  unfold Metric.visit
  dsimp only
  split <;> split <;> rfl

/-- The records of a route. -/
def ofRoute (route : String) (records : List Record) : List Record :=
  records.filter fun record => decide (record.routeId = route)

theorem countersOf_countRecord (known : valid route = true) (metrics : Dict String Metric) (record : Record) :
    countersOf (countRecord lib valid metrics record) route =
      Counters.tally lib (countersOf metrics route) (ofRoute route [record]) := by
  unfold countRecord countersOf ofRoute
  by_cases own : record.routeId = route
  · subst own
    rw [if_pos known, Dict.get?_insert_self, List.filter_cons_of_pos (by simp)]
    cases metrics.get? record.routeId with
    | none => exact congrArg some (Metric.counters_count _ record)
    | some metric => exact congrArg some (Metric.counters_count metric record)
  · rw [List.filter_cons_of_neg (by simpa using own)]
    split
    · rw [Dict.get?_insert_ne _ _ (Ne.symm own)]
      rfl
    · rfl

theorem tally_append (counters : Option Counters) (records more : List Record) :
    Counters.tally lib counters (records ++ more) =
      Counters.tally lib (Counters.tally lib counters records) more := List.foldl_append

theorem countersOf_foldl (known : valid route = true) (records : List Record) (metrics : Dict String Metric) :
    countersOf (records.foldl (countRecord lib valid) metrics) route =
      Counters.tally lib (countersOf metrics route) (ofRoute route records) := by
  induction records generalizing metrics with
  | nil => rfl
  | cons record rest ih =>
      rw [List.foldl_cons, ih, countersOf_countRecord known, ← tally_append]
      exact congrArg (Counters.tally lib _) (List.filter_append [record] rest).symm

end Views

section Sums

variable {lib : Libraries} {counters : Counters} {records : List Record}

/-- The sum of the counts of records. -/
def total (records : List Record) : Int := (records.map Record.count).sum

/-- The latest month of records and another one. -/
def latest (lib : Libraries) (start : String) (records : List Record) : String :=
  records.foldl (fun latest record => max latest (monthOf lib record)) start

/-- The greatest time of records and perhaps another one. -/
def lastTime (start : Option Int) (records : List Record) : Option Int :=
  records.foldl (fun time record => some (max (time.getD record.timestamp) record.timestamp)) start

/-- Records with counts and dates that the journal and the calendar promise. -/
structure Dated (lib : Libraries) (record : Record) : Prop where
  count : 0 ≤ record.count
  named : "" < monthOf lib record
  reads : lib.parseRfc3339 (stamp lib record.timestamp) = some record.timestamp

theorem total_nonneg (dated : ∀ record ∈ records, Dated lib record) : 0 ≤ total records := by
  refine List.sum_nonneg fun n member => ?_
  obtain ⟨record, inside, rfl⟩ := List.mem_map.mp member
  exact (dated record inside).count

theorem total_cons (record : Record) (records : List Record) :
    total (record :: records) = record.count + total records := List.sum_cons

theorem saturatingAdd_range (a b : Int) : I64 (saturatingAdd a b) := by
  unfold I64 saturatingAdd maxCount
  omega

/-- Adding twice is adding once, as long as nothing is taken away. -/
theorem saturatingAdd_add {a b c} (range : I64 a) (first : 0 ≤ b) (second : 0 ≤ c) :
    min maxCount (saturatingAdd a b + c) = min maxCount (a + (b + c)) := by
  unfold I64 saturatingAdd maxCount at *
  omega

theorem foldl_requests (dated : ∀ record ∈ records, Dated lib record) (range : I64 counters.requests) :
    (records.foldl (Counters.count lib) counters).requests = min maxCount (counters.requests + total records) := by
  induction records generalizing counters with
  | nil => simp [total, range.2]
  | cons record rest ih =>
      rw [List.forall_mem_cons] at dated
      rw [List.foldl_cons, ih dated.2 (saturatingAdd_range _ _), total_cons]
      exact saturatingAdd_add range dated.1.count (total_nonneg dated.2)

theorem Counters.current_count (record : Record) :
    (counters.count lib record).current = max counters.current (monthOf lib record) := by
  unfold Counters.count Counters.current
  split
  · rename_i later
    rw [max_eq_right later.le]
    rfl
  · rename_i earlier
    exact (max_eq_left (not_lt.mp earlier)).symm

theorem foldl_current : (records.foldl (Counters.count lib) counters).current =
    latest lib counters.current records := by
  induction records generalizing counters with
  | nil => rfl
  | cons record rest ih =>
      rw [List.foldl_cons, ih, Counters.current_count]
      rfl

theorem le_latest (start : String) : start ≤ latest lib start records := by
  induction records generalizing start with
  | nil => exact le_rfl
  | cons record rest ih => exact (le_max_left _ _).trans (ih _)

theorem foldl_monthly (dated : ∀ record ∈ records, Dated lib record) (range : I64 counters.monthlyRequests) :
    (records.foldl (Counters.count lib) counters).monthlyRequests = min maxCount
      ((if latest lib counters.current records = counters.current then counters.monthlyRequests else 0) +
        total (records.filter fun record => decide (monthOf lib record = latest lib counters.current records))) := by
  induction records generalizing counters with
  | nil =>
      simp [latest, total, range.2]
  | cons record rest ih =>
      rw [List.forall_mem_cons] at dated
      have zero : I64 0 := ⟨by decide, by decide⟩
      have next : I64 (counters.count lib record).monthlyRequests := by
        unfold Counters.count
        split
        · exact saturatingAdd_range _ _
        · split
          · exact saturatingAdd_range _ _
          · exact range
      have further : latest lib counters.current (record :: rest) =
          latest lib (counters.count lib record).current rest := by
        rw [Counters.current_count]
        rfl
      rw [List.foldl_cons, ih dated.2 next, further]
      generalize reached : latest lib (counters.count lib record).current rest = month
      have least : (counters.count lib record).current ≤ month := reached ▸ le_latest _
      have more : 0 ≤ total (rest.filter fun record => decide (monthOf lib record = month)) :=
        total_nonneg fun other member => dated.2 other (List.mem_of_mem_filter member)
      rw [Counters.current_count] at least ⊢
      obtain ⟨kept, moved⟩ := max_le_iff.mp least
      unfold Counters.count
      dsimp only
      rcases lt_trichotomy counters.current (monthOf lib record) with later | same | earlier
      · -- the month of the record begins
        rw [if_pos later, max_eq_right later.le, if_neg (later.trans_le moved).ne']
        by_cases own : month = monthOf lib record
        · rw [if_pos own, List.filter_cons_of_pos (by simp [own]), total_cons]
          exact saturatingAdd_add zero dated.1.count more
        · rw [if_neg own, List.filter_cons_of_neg (by simpa using Ne.symm own)]
      · rw [if_neg same.not_lt, if_pos same.symm, max_eq_left same.ge]
        by_cases own : month = counters.current
        · rw [if_pos own, if_pos own, List.filter_cons_of_pos (by simp [own, same]), total_cons]
          exact saturatingAdd_add range dated.1.count more
        · rw [if_neg own, if_neg own, List.filter_cons_of_neg (by simpa [← same] using Ne.symm own)]
      · rw [if_neg earlier.not_gt, if_neg earlier.ne, max_eq_left earlier.le,
          List.filter_cons_of_neg (by simpa using (earlier.trans_le kept).ne)]

/-- No later record moves the time. -/
theorem lastTime_of_earlier {time} (earlier : ∀ record ∈ records, record.timestamp < time) :
    lastTime (some time) records = some time := by
  induction records with
  | nil => rfl
  | cons record rest ih =>
      rw [List.forall_mem_cons] at earlier
      rw [lastTime, List.foldl_cons, Option.getD_some, max_eq_left earlier.1.le]
      exact ih earlier.2

/-- The text of the last request: the greatest time, if that is not before the text. -/
theorem foldl_last (dated : ∀ record ∈ records, Dated lib record) :
    (records.foldl (Counters.count lib) counters).lastRequestedAt =
      if ∃ record ∈ records, counters.isLast lib record = true then
        stamp lib ((lastTime (lib.parseRfc3339 counters.lastRequestedAt) records).getD 0)
      else counters.lastRequestedAt := by
  induction records generalizing counters with
  | nil => simp
  | cons record rest ih =>
      rw [List.forall_mem_cons] at dated
      rw [List.foldl_cons, ih dated.2]
      have text : (counters.count lib record).lastRequestedAt =
          if counters.isLast lib record then stamp lib record.timestamp else counters.lastRequestedAt := rfl
      cases last : counters.isLast lib record with
      | true =>
          rw [last, if_pos rfl] at text
          have time : lastTime (lib.parseRfc3339 counters.lastRequestedAt) (record :: rest) =
              lastTime (some record.timestamp) rest := by
            rw [lastTime, List.foldl_cons]
            unfold Counters.isLast at last
            cases parsed : lib.parseRfc3339 counters.lastRequestedAt with
            | none => rw [Option.getD_none, max_self, ← lastTime]
            | some before =>
                rw [parsed, Option.all_some, decide_eq_true_iff] at last
                rw [Option.getD_some, max_eq_right last, ← lastTime]
          have here : ∃ other ∈ record :: rest, counters.isLast lib other = true :=
            ⟨record, List.mem_cons_self, last⟩
          rw [if_pos here, text, time, dated.1.reads]
          split
          · rfl
          · rename_i none
            have earlier : ∀ other ∈ rest, other.timestamp < record.timestamp := by
              intro other member
              by_contra later
              refine none ⟨other, member, ?_⟩
              rw [Counters.isLast, text, dated.1.reads, Option.all_some, decide_eq_true_iff]
              exact not_lt.mp later
            rw [lastTime_of_earlier earlier, Option.getD_some]
      | false =>
          rw [last, if_neg (by simp)] at text
          have same : ∀ other, (counters.count lib record).isLast lib other = counters.isLast lib other := by
            intro other
            rw [Counters.isLast, text]
            rfl
          have time : lastTime (lib.parseRfc3339 counters.lastRequestedAt) (record :: rest) =
              lastTime (lib.parseRfc3339 counters.lastRequestedAt) rest := by
            unfold Counters.isLast at last
            cases parsed : lib.parseRfc3339 counters.lastRequestedAt with
            | none =>
                rw [parsed] at last
                cases last
            | some before =>
                rw [parsed, Option.all_some, decide_eq_false_iff_not] at last
                rw [lastTime, List.foldl_cons, Option.getD_some, max_eq_left (not_le.mp last).le]
                rfl
          have none : (∃ other ∈ record :: rest, counters.isLast lib other = true) ↔
              ∃ other ∈ rest, counters.isLast lib other = true := by
            simp [last]
          simp only [same, text, time, none]

end Sums

section Order

variable {lib : Libraries} {counters : Counters} {records other : List Record}

theorem latest_perm (same : records.Perm other) (start : String) :
    latest lib start records = latest lib start other := by
  have swaps : RightCommutative fun latest record => max latest (monthOf lib record) :=
    ⟨fun _ _ _ => max_right_comm _ _ _⟩
  exact same.foldl_eq start

theorem lastTime_perm (same : records.Perm other) (start : Option Int) :
    lastTime start records = lastTime start other := by
  have swaps : RightCommutative fun (time : Option Int) (record : Record) =>
      some (max (time.getD record.timestamp) record.timestamp) := by
    refine ⟨fun time first second => ?_⟩
    cases time with
    | none => simp [max_comm]
    | some time => simp [max_right_comm]
  exact same.foldl_eq start

/-- A record leaves a month behind. -/
theorem foldl_month (dated : ∀ record ∈ records, Dated lib record) (some : records ≠ []) :
    (records.foldl (Counters.count lib) counters).month = .some (latest lib counters.current records) := by
  have present : ∀ counters : Counters, ∀ record, Dated lib record →
      (counters.count lib record).month.isSome = true := by
    intro counters record dated
    unfold Counters.count
    split
    · rfl
    · rename_i earlier
      cases known : counters.month with
      | none =>
          rw [Counters.current, known] at earlier
          exact absurd dated.named earlier
      | some month => rfl
  have ends : (records.foldl (Counters.count lib) counters).month.isSome = true := by
    rcases List.eq_nil_or_concat records with rfl | ⟨front, record, rfl⟩
    · exact absurd rfl some
    · rw [List.concat_eq_append, List.foldl_append]
      exact present _ _ (dated record (by simp))
  obtain ⟨month, known⟩ := Option.isSome_iff_exists.mp ends
  rw [known, ← foldl_current, Counters.current, known, Option.getD_some]

/-- The order of the records does not matter. -/
theorem foldl_perm (dated : ∀ record ∈ records, Dated lib record) (same : records.Perm other)
    (requests : I64 counters.requests) (monthly : I64 counters.monthlyRequests) :
    records.foldl (Counters.count lib) counters = other.foldl (Counters.count lib) counters := by
  have also : ∀ record ∈ other, Dated lib record := fun record member => dated record (same.mem_iff.mpr member)
  have sums : ∀ keep : Record → Bool, total (records.filter keep) = total (other.filter keep) :=
    fun keep => ((same.filter keep).map Record.count).sum_eq
  by_cases none : records = []
  · subst none
    rw [same.nil_eq]
  · have some : other ≠ [] := fun empty => none (empty ▸ same).eq_nil
    have months := @latest_perm lib records other same counters.current
    have any : (∃ record ∈ records, counters.isLast lib record = true) ↔
        ∃ record ∈ other, counters.isLast lib record = true := by
      simp only [same.mem_iff]
    have whole : total records = total other := (same.map Record.count).sum_eq
    have fields : ∀ first second : Counters, first.requests = second.requests → first.month = second.month →
        first.monthlyRequests = second.monthlyRequests → first.lastRequestedAt = second.lastRequestedAt →
        first = second := by
      rintro ⟨_, _, _, _⟩ ⟨_, _, _, _⟩ rfl rfl rfl rfl
      rfl
    refine fields _ _ ?_ ?_ ?_ ?_
    · rw [foldl_requests dated requests, foldl_requests also requests, whole]
    · rw [foldl_month dated none, foldl_month also some, months]
    · rw [foldl_monthly dated monthly, foldl_monthly also monthly, months, sums]
    · rw [foldl_last dated, foldl_last also, lastTime_perm same]
      simp only [any]

end Order

section Batches

variable {lib : Libraries} {valid : String → Bool} {route : String}

/-- The ids that are remembered after a batch. -/
def recentAfter (recent : List String) (batch : Batch) : List String :=
  if batch.id ∈ recent then recent else remember recent batch.id

/-- The batches that are counted: those that are not remembered when they arrive. -/
def fresh (recent : List String) : List Batch → List Batch
  | [] => []
  | batch :: rest =>
      if batch.id ∈ recent then fresh (recentAfter recent batch) rest
      else batch :: fresh (recentAfter recent batch) rest

theorem fresh_append (recent : List String) (batches more : List Batch) :
    fresh recent (batches ++ more) =
      fresh recent batches ++ fresh (batches.foldl recentAfter recent) more := by
  induction batches generalizing recent with
  | nil => rfl
  | cons batch rest ih =>
      rw [List.cons_append, fresh, fresh, List.foldl_cons, ih]
      split <;> rfl

/-- The records of the counted batches. -/
def freshRecords (recent : List String) (batches : List Batch) : List Record :=
  (fresh recent batches).flatMap Batch.records

theorem Counted.batch_recent (counted : Counted) (batch : Batch) :
    (counted.batch lib valid batch).recent = recentAfter counted.recent batch := by
  by_cases known : batch.id ∈ counted.recent
  · rw [Counted.batch, recentAfter, if_pos known, if_pos known]
  · rw [Counted.batch, recentAfter, if_neg known, if_neg known]

theorem foldl_batch_recent (batches : List Batch) (counted : Counted) :
    (batches.foldl (Counted.batch lib valid) counted).recent = batches.foldl recentAfter counted.recent := by
  induction batches generalizing counted with
  | nil => rfl
  | cons batch rest ih =>
      rw [List.foldl_cons, List.foldl_cons, ih, Counted.batch_recent]

theorem foldl_batch_counters (known : valid route = true) (batches : List Batch) (counted : Counted) :
    countersOf (batches.foldl (Counted.batch lib valid) counted).metrics route =
      Counters.tally lib (countersOf counted.metrics route)
        (ofRoute route (freshRecords counted.recent batches)) := by
  induction batches generalizing counted with
  | nil => rfl
  | cons batch rest ih =>
      rw [List.foldl_cons, ih, Counted.batch_recent, freshRecords, freshRecords, fresh]
      by_cases known : batch.id ∈ counted.recent
      · rw [Counted.batch, if_pos known, if_pos known]
      · rw [Counted.batch, if_neg known, if_neg known, List.flatMap_cons, ofRoute, ofRoute, List.filter_append,
          tally_append]
        exact congrArg (Counters.tally lib · _) (countersOf_foldl ‹_› batch.records counted.metrics)

/-- Every visitor's route has counters. -/
def Present (metrics : Dict String Metric) (records : List Record) : Prop :=
  ∀ record ∈ records, (metrics.get? record.routeId).isSome = true

theorem countRecord_present {metrics : Dict String Metric} (record : Record)
    (known : (metrics.get? route).isSome = true ∨ (record.routeId = route ∧ valid route = true)) :
    ((countRecord lib valid metrics record).get? route).isSome = true := by
  unfold countRecord
  by_cases own : record.routeId = route
  · subst own
    split
    · rw [Dict.get?_insert_self]
      rfl
    · rename_i invalid
      exact known.resolve_right fun both => invalid both.2
  · have there := known.resolve_right fun both => own both.1
    split
    · rw [Dict.get?_insert_ne _ _ (Ne.symm own)]
      exact there
    · exact there

theorem foldl_countRecord_present {metrics : Dict String Metric} {records : List Record}
    (known : (metrics.get? route).isSome = true ∨
      (∃ record ∈ records, record.routeId = route) ∧ valid route = true) :
    ((records.foldl (countRecord lib valid) metrics).get? route).isSome = true := by
  induction records generalizing metrics with
  | nil => simpa using known
  | cons record rest ih =>
      apply ih
      rcases known with there | ⟨⟨own, member, same⟩, real⟩
      · exact .inl (countRecord_present record (.inl there))
      · rcases List.mem_cons.mp member with rfl | later
        · exact .inl (countRecord_present _ (.inr ⟨same, real⟩))
        · exact .inr ⟨⟨own, later, same⟩, real⟩

theorem foldl_batch_present {batches : List Batch} {counted : Counted}
    (present : Present counted.metrics counted.visitEvents) :
    Present (batches.foldl (Counted.batch lib valid) counted).metrics
      (batches.foldl (Counted.batch lib valid) counted).visitEvents := by
  induction batches generalizing counted with
  | nil => exact present
  | cons batch rest ih =>
      apply ih
      unfold Counted.batch
      split
      · exact present
      · intro record member
        rcases List.mem_append.mp member with before | own
        · exact foldl_countRecord_present (.inl (present record before))
        · obtain ⟨inside, real⟩ := List.mem_filter.mp own
          exact foldl_countRecord_present (.inr ⟨⟨record, inside, rfl⟩, (Bool.and_eq_true_iff.mp real).1⟩)

/-- Visits leave the counters of requests alone. -/
theorem step_counters {ledger} {visiting : Visiting} {record : Record}
    (present : (visiting.metrics.get? record.routeId).isSome = true) :
    countersOf (visiting.step lib ledger record).metrics = countersOf visiting.metrics := by
  unfold Visiting.step
  split
  · split
    · rfl
    · dsimp only
      split
      · rfl
      · dsimp only
        split
        · funext route
          unfold countersOf
          obtain ⟨metric, there⟩ := Option.isSome_iff_exists.mp present
          by_cases own : route = record.routeId
          · subst own
            rw [Dict.get?_insert_self, there, Option.map_some, Option.getD_some, Metric.counters_visit]
            rfl
          · rw [Dict.get?_insert_ne _ _ own]
        · rfl
  · rfl

theorem foldl_counters {ledger} {visiting : Visiting} {records}
    (present : Present visiting.metrics records) :
    countersOf (records.foldl (Visiting.step lib ledger) visiting).metrics = countersOf visiting.metrics := by
  have keys : ∀ first second : Dict String Metric, countersOf first = countersOf second → ∀ route,
      (first.get? route).isSome = (second.get? route).isSome := by
    intro first second same route
    have here := congrFun same route
    unfold countersOf at here
    rw [← Option.isSome_map, here, Option.isSome_map]
  induction records generalizing visiting with
  | nil => rfl
  | cons record rest ih =>
      have own := @step_counters lib ledger visiting record (present record List.mem_cons_self)
      rw [List.foldl_cons, ih, own]
      intro other member
      rw [keys _ _ own]
      exact present other (List.mem_cons_of_mem _ member)

end Batches

section Merges

variable {lib : Libraries} {valid : String → Bool} {route : String} {ledger : Ledger} {state : State}
  {counters : Option Counters} {records : List Record}

theorem tally_cons (record : Record) (records : List Record) :
    Counters.tally lib counters (record :: records) =
      some ((record :: records).foldl (Counters.count lib) (counters.getD .new)) := by
  induction records generalizing counters record with
  | nil => rfl
  | cons next rest ih => exact ih next

/-- What old documents are migrated to stays, also after further records. -/
theorem tally_migrate (tracking : String) (dated : ∀ record ∈ records, Dated lib record) :
    (Counters.tally lib (counters.map (Counters.migrate tracking)) records).map (Counters.migrate tracking) =
      Counters.tally lib (counters.map (Counters.migrate tracking)) records := by
  have named : ∀ counters : Counters, counters.month.isSome = true → counters.migrate tracking = counters := by
    intro counters named
    rw [Counters.migrate, if_neg]
    rintro ⟨none, _⟩
    rw [Option.isNone_iff_eq_none] at none
    rw [none] at named
    cases named
  cases records with
  | nil =>
      refine (Option.map_map ..).trans (Option.map_congr fun counters _ => ?_)
      rw [Function.comp_apply]
      by_cases old : counters.month.isNone ∧ tracking ≠ "" ∧
          month counters.lastRequestedAt = month tracking
      · apply named
        rw [Counters.migrate, if_pos old]
        rfl
      · have same : counters.migrate tracking = counters := if_neg old
        rw [same, same]
  | cons record rest =>
      rw [tally_cons, Option.map_some, named]
      rw [foldl_month dated (List.cons_ne_nil record rest)]
      rfl

/-- One merge, as the counters of a route see it. -/
theorem mergeWith_counters (known : valid route = true) (read : Read) (now : String) :
    countersOf (mergeWith lib valid ledger state read now).metrics route =
      Counters.tally lib ((countersOf state.metrics route).map (Counters.migrate state.trackingSince))
        (ofRoute route (freshRecords state.nativeBatches read.batches)) := by
  have present : Present (counting lib valid state read).metrics (events (counting lib valid state read)) := by
    intro record member
    rw [events, List.mem_insertionSort] at member
    exact foldl_batch_present (fun _ none => absurd none List.not_mem_nil) record member
  have visits := @foldl_counters lib ledger (visitingOf ledger state (counting lib valid state read)) _ present
  refine (congrFun visits route).trans ((foldl_batch_counters known read.batches _).trans ?_)
  refine congrArg (Counters.tally lib · _) ?_
  unfold countersOf
  rw [Dict.get?_map, Dict.get?_retain]
  cases state.metrics.get? route with
  | none => rfl
  | some metric =>
      rw [Option.filter_some, if_pos known]
      exact congrArg some (Metric.counters_migrate state.trackingSince metric)

theorem mergeWith_recent (read : Read) (now : String) :
    (mergeWith lib valid ledger state read now).nativeBatches =
      read.batches.foldl recentAfter state.nativeBatches := foldl_batch_recent ..

/-- The batches that are delivered, one read after the other. -/
def delivered (reads : List (Read × String)) : List Batch := reads.flatMap (·.1.batches)

theorem freshRecords_append (recent : List String) (batches more : List Batch) :
    ofRoute route (freshRecords recent (batches ++ more)) = ofRoute route (freshRecords recent batches) ++
      ofRoute route (freshRecords (batches.foldl recentAfter recent) more) := by
  rw [freshRecords, fresh_append, List.flatMap_append]
  exact List.filter_append ..

theorem mem_fresh {batch recent batches} (member : batch ∈ fresh recent batches) :
    batch ∈ batches := by
  induction batches generalizing recent with
  | nil => exact member
  | cons first rest ih =>
      rw [fresh] at member
      split at member
      · exact List.mem_cons_of_mem _ (ih member)
      · rcases List.mem_cons.mp member with rfl | later
        · exact List.mem_cons_self
        · exact List.mem_cons_of_mem _ (ih later)

/-- All merges together: the first one migrates, and the batches count once. -/
theorem mergeAll_counters (known : valid route = true) (read : Read × String) (rest : List (Read × String))
    (dated : ∀ batch ∈ delivered (read :: rest), ∀ record ∈ batch.records, Dated lib record) :
    countersOf (mergeAll lib valid ledger state (read :: rest)).metrics route =
      Counters.tally lib ((countersOf state.metrics route).map (Counters.migrate state.trackingSince))
        (ofRoute route (freshRecords state.nativeBatches (delivered (read :: rest)))) := by
  have own : ∀ record ∈ ofRoute route (freshRecords state.nativeBatches read.1.batches), Dated lib record := by
    intro record member
    obtain ⟨batch, counted, inside⟩ := List.mem_flatMap.mp (List.mem_of_mem_filter member)
    exact dated batch (List.mem_append_left _ (mem_fresh counted)) record inside
  induction rest generalizing state read with
  | nil =>
      rw [delivered, List.flatMap_singleton]
      exact mergeWith_counters known read.1 read.2
  | cons next rest ih =>
      have later : ∀ batch ∈ delivered (next :: rest), ∀ record ∈ batch.records, Dated lib record :=
        fun batch member => dated batch (List.mem_append_right _ member)
      have whole : delivered (read :: next :: rest) = read.1.batches ++ delivered (next :: rest) := rfl
      refine (ih next later ?_).trans ?_
      · intro record member
        obtain ⟨batch, counted, inside⟩ := List.mem_flatMap.mp (List.mem_of_mem_filter member)
        exact later batch (List.mem_append_left _ (mem_fresh counted)) record inside
      · rw [mergeWith_counters known, mergeWith_recent, whole, freshRecords_append, tally_append]
        exact congrArg (Counters.tally lib · _) (tally_migrate state.trackingSince own)

/-- A batch that was seen before is remembered when it comes again. -/
def Remembered (seen recent : List String) : List Batch → Prop
  | [] => True
  | batch :: rest => (batch.id ∈ seen → batch.id ∈ recent) ∧
      Remembered (batch.id :: seen) (recentAfter recent batch) rest

theorem recentAfter_subset {seen recent} (known : recent ⊆ seen) (batch : Batch) :
    recentAfter recent batch ⊆ batch.id :: seen := by
  unfold recentAfter
  split
  · exact List.subset_cons_of_subset _ known
  · intro id member
    rcases List.mem_append.mp (List.mem_of_mem_drop member) with before | own
    · exact List.mem_cons_of_mem _ (known before)
    · exact List.mem_cons.mpr (.inl (List.mem_singleton.mp own))

/-- The counted batches are new, and none of them is counted twice. -/
theorem fresh_nodup {seen recent batches} (known : recent ⊆ seen)
    (remembered : Remembered seen recent batches) :
    (∀ batch ∈ fresh recent batches, batch.id ∉ seen) ∧ (fresh recent batches).Nodup := by
  induction batches generalizing seen recent with
  | nil => exact ⟨fun _ none => absurd none List.not_mem_nil, List.nodup_nil⟩
  | cons batch rest ih =>
      obtain ⟨unseen, nodup⟩ := ih (recentAfter_subset known batch) remembered.2
      have later : ∀ other ∈ fresh (recentAfter recent batch) rest, other.id ∉ seen :=
        fun other member old => unseen other member (List.mem_cons_of_mem _ old)
      rw [fresh]
      split
      · exact ⟨later, nodup⟩
      · rename_i new
        refine ⟨List.forall_mem_cons.mpr ⟨fun old => new (remembered.1 old), later⟩,
          List.nodup_cons.mpr ⟨fun again => ?_, nodup⟩⟩
        exact unseen batch again List.mem_cons_self

/-- Every delivered batch that is new is counted. -/
theorem mem_fresh_of_new {batch seen recent batches} (known : recent ⊆ seen)
    (member : batch ∈ batches) (new : batch.id ∉ seen)
    (distinct : ∀ other ∈ batches, other.id = batch.id → other = batch) :
    batch ∈ fresh recent batches := by
  induction batches generalizing seen recent with
  | nil => exact member
  | cons first rest ih =>
      rw [List.forall_mem_cons] at distinct
      by_cases same : first.id = batch.id
      · obtain rfl := distinct.1 same
        rw [fresh, if_neg fun old => new (known old)]
        exact List.mem_cons_self
      · have inside : batch ∈ rest := (List.mem_cons.mp member).resolve_left fun here => same (here ▸ rfl)
        have found := ih (recentAfter_subset known first) inside
          (fun old => (List.mem_cons.mp old).elim (fun here => same here.symm) new) distinct.2
        rw [fresh]
        split
        · exact found
        · exact List.mem_cons_of_mem _ found

/-- The delivered batches that the state has not counted yet, once each. -/
def uncounted (state : State) (batches : List Batch) : List Batch :=
  batches.dedup.filter fun batch => decide (batch.id ∉ state.nativeBatches)

theorem fresh_perm {batches}
    (distinct : ∀ first ∈ batches, ∀ second ∈ batches, first.id = second.id → first = second)
    (remembered : Remembered state.nativeBatches state.nativeBatches batches) :
    (fresh state.nativeBatches batches).Perm (uncounted state batches) := by
  obtain ⟨unseen, nodup⟩ := fresh_nodup (List.Subset.refl _) remembered
  refine (List.perm_ext_iff_of_nodup nodup ((List.nodup_dedup batches).filter _)).mpr fun batch => ?_
  rw [List.mem_filter, List.mem_dedup, decide_eq_true_iff]
  constructor
  · intro member
    exact ⟨mem_fresh member, unseen batch member⟩
  · rintro ⟨member, new⟩
    exact mem_fresh_of_new (List.Subset.refl _) member new fun other inside => distinct other inside batch member

theorem uncounted_perm {batches others} (same : ∀ batch, batch ∈ batches ↔ batch ∈ others) :
    (uncounted state batches).Perm (uncounted state others) := by
  refine List.Perm.filter _ ((List.perm_ext_iff_of_nodup (List.nodup_dedup _) (List.nodup_dedup _)).mpr ?_)
  intro batch
  rw [List.mem_dedup, List.mem_dedup, same]

end Merges

section Arrival

variable (lib : Libraries) (journal : Runtime.Activity.Libraries) (valid : String → Bool)

/-- What a sequence of merges delivers: batches of the journal with distinct ids and times of the
    years 1970 to 9999, repeated only while they are remembered. The calendar reads such a time
    as it wrote it. -/
structure Delivers (state : State) (reads : List (Read × String)) : Prop where
  called : reads ≠ []
  journaled : ∀ read ∈ reads, Journaled journal read.1
  distinct : ∀ first ∈ delivered reads, ∀ second ∈ delivered reads, first.id = second.id → first = second
  times : ∀ batch ∈ delivered reads, ∀ record ∈ batch.records,
    0 ≤ record.timestamp ∧ record.timestamp ≤ 253402300799999
  calendar : ∀ batch ∈ delivered reads, ∀ record ∈ batch.records,
    0 ≤ record.timestamp → record.timestamp ≤ 253402300799999 →
      "" < monthOf lib record ∧ lib.parseRfc3339 (stamp lib record.timestamp) = some record.timestamp
  remembered : Remembered state.nativeBatches state.nativeBatches (delivered reads)

variable {lib journal valid} {state : State} {reads : List (Read × String)}

theorem Delivers.dated (delivers : Delivers lib journal state reads) :
    ∀ batch ∈ delivered reads, ∀ record ∈ batch.records, Dated lib record := by
  intro batch member record inside
  obtain ⟨read, listed, here⟩ := List.mem_flatMap.mp member
  have accepted := (delivers.journaled read listed batch here).1
  simp only [batchValid, Bool.and_eq_true, List.all_eq_true] at accepted
  have own := accepted.2 record inside
  simp only [Runtime.Activity.recordValid, Bool.and_eq_true, decide_eq_true_eq] at own
  obtain ⟨least, most⟩ := delivers.times batch member record inside
  obtain ⟨named, reads⟩ := delivers.calendar batch member record inside least most
  exact ⟨own.1.1.2, named, reads⟩

/-- The counters that the initial state has for a route after its migration. -/
def initial (state : State) (route : String) : Option Counters :=
  (countersOf state.metrics route).map (Counters.migrate state.trackingSince)

/-- The records of a route that are delivered and were not counted before. -/
def newRecords (state : State) (reads : List (Read × String)) (route : String) : List Record :=
  ofRoute route ((uncounted state (delivered reads)).flatMap Batch.records)

theorem initial_range {route} (range : ∀ route metric, state.metrics.get? route = some metric →
    I64 metric.requests ∧ I64 metric.monthlyRequests) :
    I64 ((initial state route).getD .new).requests ∧ I64 ((initial state route).getD .new).monthlyRequests := by
  unfold initial countersOf
  cases known : state.metrics.get? route with
  | none =>
      rw [Option.map_none, Option.map_none, Option.getD_none]
      exact ⟨⟨by decide, by decide⟩, by decide, by decide⟩
  | some metric =>
      have bounds := range route metric known
      rw [Option.map_some, Option.map_some, Option.getD_some]
      unfold Counters.migrate
      dsimp only
      split
      · exact ⟨bounds.1, bounds.1⟩
      · exact bounds

/-- The counters after the merges, whatever the order in which the records were counted. -/
theorem Delivers.counters (delivers : Delivers lib journal state reads) {route}
    (known : valid route = true) (range : ∀ route metric, state.metrics.get? route = some metric →
      I64 metric.requests ∧ I64 metric.monthlyRequests) {records}
    (same : (newRecords state reads route).Perm records) :
    countersOf (mergeAll lib valid .recent state reads).metrics route =
      Counters.tally lib (initial state route) records := by
  have perm : (ofRoute route (freshRecords state.nativeBatches (delivered reads))).Perm records :=
    (((fresh_perm delivers.distinct delivers.remembered).flatMap_right _).filter _).trans same
  have dated : ∀ record ∈ ofRoute route (freshRecords state.nativeBatches (delivered reads)),
      Dated lib record := by
    intro record member
    obtain ⟨batch, counted, inside⟩ := List.mem_flatMap.mp (List.mem_of_mem_filter member)
    exact delivers.dated batch (mem_fresh counted) record inside
  obtain ⟨requests, monthly⟩ := @initial_range state route range
  cases reads with
  | nil => exact absurd rfl delivers.called
  | cons read rest =>
      rw [mergeAll_counters known read rest delivers.dated]
      cases records with
      | nil => rw [perm.eq_nil, initial]
      | cons record more =>
          rw [tally_cons, ← foldl_perm dated perm requests monthly, ← initial]
          cases counted : ofRoute route (freshRecords state.nativeBatches (delivered (read :: rest))) with
          | nil => exact absurd (counted ▸ perm).nil_eq (List.cons_ne_nil record more).symm
          | cons first others => exact tally_cons first others

/-- Two sequences of merges that deliver the same batches leave the same counters. The requests
    grow by the counts, and those of the month by the counts of the latest month. Both stop at the
    largest number. -/
theorem counters_ignore_arrival (state : State) (first second : List (Read × String)) (route : String)
    (known : valid route = true)
    (range : ∀ route metric, state.metrics.get? route = some metric →
      I64 metric.requests ∧ I64 metric.monthlyRequests)
    (one : Delivers lib journal state first) (other : Delivers lib journal state second)
    (same : ∀ batch, batch ∈ delivered first ↔ batch ∈ delivered second) :
    countersOf (mergeAll lib valid .recent state first).metrics route =
      countersOf (mergeAll lib valid .recent state second).metrics route ∧
    ∀ counters, countersOf (mergeAll lib valid .recent state first).metrics route = some counters →
      counters.requests = min maxCount
        (((initial state route).getD .new).requests + total (newRecords state first route)) ∧
      counters.current =
        latest lib ((initial state route).getD .new).current (newRecords state first route) ∧
      counters.monthlyRequests = min maxCount
        ((if counters.current = ((initial state route).getD .new).current then
            ((initial state route).getD .new).monthlyRequests else 0) +
          total ((newRecords state first route).filter fun record =>
            decide (monthOf lib record = counters.current))) := by
  have perm : (newRecords state second route).Perm (newRecords state first route) :=
    ((uncounted_perm fun batch => (same batch).symm).flatMap_right _).filter _
  have dated : ∀ record ∈ newRecords state first route, Dated lib record := by
    intro record member
    obtain ⟨batch, counted, inside⟩ := List.mem_flatMap.mp (List.mem_of_mem_filter member)
    exact one.dated batch (List.mem_dedup.mp (List.mem_of_mem_filter counted)) record inside
  obtain ⟨requests, monthly⟩ := @initial_range state route range
  have counted := one.counters known range (List.Perm.refl _)
  refine ⟨counted.trans (other.counters known range perm).symm, fun counters found => ?_⟩
  have whole : counters = (newRecords state first route).foldl (Counters.count lib)
      ((initial state route).getD .new) := by
    rw [counted] at found
    cases listed : newRecords state first route with
    | nil =>
        rw [listed] at found
        have start : initial state route = some counters := found
        rw [start]
        rfl
    | cons record rest =>
        rw [listed, tally_cons] at found
        exact (Option.some.inj found).symm
  rw [whole, foldl_current]
  exact ⟨foldl_requests dated requests, rfl, foldl_monthly dated monthly⟩

end Arrival

def countJournal : Runtime.Activity.Libraries := { sampleJournal with isUuid := fun id => decide (id ∈ sampleIds) }

/-- A batch with one record for one of the ids. -/
def sampleBatch (index : Fin 2) (count : Int) : Batch :=
  ⟨1, sampleIds[index], false,
    [⟨"a", count, if index = 0 then 1783000000000 else 1783000600000, "app.example", none, none⟩]⟩

def sampleReads (groups : List (List Batch)) : List (Read × String) :=
  groups.map fun batches => (⟨⟨"inode", 500⟩, batches, false, false⟩, "")

instance (journal : Runtime.Activity.Libraries) (read : Read) : Decidable (Journaled journal read) :=
  inferInstanceAs (Decidable (∀ batch ∈ read.batches, batchValid journal batch = true ∧
    ∀ record ∈ batch.records, record.timestamp ≤ maxCount))

/-- Two batches one after the other, or the second one first and then once more. -/
theorem seven_requests_in_any_order :
    (countersOf (mergeAll sampleCalendar (fun _ => true) .recent (.new "")
      (sampleReads [[sampleBatch 0 3], [sampleBatch 1 4]])).metrics "a").map Counters.requests = some 7 ∧
    countersOf (mergeAll sampleCalendar (fun _ => true) .recent (.new "")
        (sampleReads [[sampleBatch 0 3], [sampleBatch 1 4]])).metrics "a" =
      countersOf (mergeAll sampleCalendar (fun _ => true) .recent (.new "")
        (sampleReads [[sampleBatch 1 4, sampleBatch 0 3], [sampleBatch 1 4]])).metrics "a" := by
  refine ⟨by decide +kernel, ?_⟩
  have one : Delivers sampleCalendar countJournal (.new "") (sampleReads [[sampleBatch 0 3], [sampleBatch 1 4]]) :=
    ⟨by decide, by decide, by decide, by decide, by decide,
      by decide, by decide, trivial⟩
  have other : Delivers sampleCalendar countJournal (.new "")
      (sampleReads [[sampleBatch 1 4, sampleBatch 0 3], [sampleBatch 1 4]]) :=
    ⟨by decide, by decide, by decide, by decide, by decide,
      by decide, by decide, by decide, trivial⟩
  refine (counters_ignore_arrival (.new "") _ _ "a" rfl (fun _ _ none => nomatch none) one other ?_).1
  simp only [delivered, sampleReads, List.map_cons, List.map_nil, List.flatMap_cons, List.flatMap_nil,
    List.mem_append, List.mem_cons, List.not_mem_nil, or_false]
  tauto

/-- The requests stop at the largest number, though more were delivered. -/
theorem requests_stop_at_the_largest_number :
    Delivers sampleCalendar countJournal (.new "") (sampleReads [[sampleBatch 0 maxCount], [sampleBatch 1 1]]) ∧
    (countersOf (mergeAll sampleCalendar (fun _ => true) .recent (.new "")
      (sampleReads [[sampleBatch 0 maxCount], [sampleBatch 1 1]])).metrics "a").map Counters.requests ≠
      some (0 + total (newRecords (.new "") (sampleReads [[sampleBatch 0 maxCount], [sampleBatch 1 1]]) "a")) := by
  refine ⟨?_, by decide +kernel⟩
  exact ⟨by decide, by decide, by decide, by decide, by decide,
    by decide, by decide, trivial⟩

end PortHub.Api.WebActivity
