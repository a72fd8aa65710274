import Mathlib.Data.List.SplitBy
import PortHub.Api.WebActivity

/-! # The ledger of visitors

A visitor is forgotten only when its next accepted request is a new visit anyway: a
request is accepted up to half an hour behind the latest time, it began at most a minute
before its last time, and a visitor stays for two half hours and a minute. So forgetting
changes no count, and the requests of a client make one visit for each run of them
without a gap of half an hour.
-/

namespace PortHub.Api.WebActivity

open Runtime.Activity (Record Batch Read maxCount saturatingSub batchValid)

/-- The range of `i64`. -/
def I64 (n : Int) : Prop := -9223372036854775808 ≤ n ∧ n ≤ maxCount

/-- What the journal promises about a record of a visitor. -/
structure Visitor (record : Record) (client : String) (first : Int) : Prop where
  named : record.client = some client
  started : record.firstTimestamp = some first
  began : first ≤ record.timestamp
  brief : record.timestamp - first < 60000
  time : record.timestamp ≤ maxCount

section Arithmetic

variable {watermark seen : Int} {record : Record} {client : String} {first : Int}

theorem opens_some {last} : opens (some last) first = true ↔ window ≤ first - last := by
  rw [opens, Option.all_some, decide_eq_true_iff]
  unfold saturatingSub window maxCount
  omega

/-- The next request of a forgotten visitor is a new visit. -/
theorem gap_of_forgotten (visitor : Visitor record client first) (latest : watermark ≤ maxCount)
    (least : -9223372036854775808 ≤ seen) (forgotten : seen < saturatingSub watermark retention)
    (timely : saturatingSub watermark window ≤ record.timestamp) : window ≤ first - seen := by
  have brief := visitor.brief
  unfold saturatingSub retention window at *
  omega

theorem saturatingSub_mono {later} (mono : watermark ≤ later) (n : Int) :
    saturatingSub watermark n ≤ saturatingSub later n := by
  unfold saturatingSub
  omega

end Arithmetic

theorem get?_prune (watermark : Int) (visitors : Dict String Int) (client : String) :
    (Ledger.recent.prune watermark visitors).get? client =
      (visitors.get? client).filter fun seen => decide (saturatingSub watermark retention ≤ seen) :=
  visitors.get?_retain _ client

section Forgetting

/-- The second ledger has what was forgotten in the first one. -/
def Trails (watermark : Int) (recent whole : Dict String Int) : Prop :=
  ∀ client, (∀ seen, whole.get? client = some seen → -9223372036854775808 ≤ seen) ∧
    (recent.get? client = whole.get? client ∨ recent.get? client = none ∧
      ∃ seen, whole.get? client = some seen ∧ seen < saturatingSub watermark retention)

variable {watermark later : Int} {recent whole : Dict String Int}

theorem Trails.mono (trails : Trails watermark recent whole) (mono : watermark ≤ later) :
    Trails later recent whole := by
  intro client
  obtain ⟨least, same | ⟨gone, seen, there, old⟩⟩ := trails client
  · exact ⟨least, .inl same⟩
  · exact ⟨least, .inr ⟨gone, seen, there, old.trans_le (saturatingSub_mono mono _)⟩⟩

theorem Trails.prune (trails : Trails watermark recent whole) :
    Trails watermark (Ledger.recent.prune watermark recent) whole := by
  intro client
  obtain ⟨least, same | ⟨gone, seen, there, old⟩⟩ := trails client
  · refine ⟨least, ?_⟩
    rw [get?_prune, same]
    cases there : whole.get? client with
    | none => exact .inl rfl
    | some seen =>
        by_cases stays : saturatingSub watermark retention ≤ seen
        · rw [Option.filter_some, if_pos (by simpa using stays)]
          exact .inl rfl
        · rw [Option.filter_some, if_neg (by simpa using stays)]
          exact .inr ⟨rfl, seen, rfl, not_le.mp stays⟩
  · refine ⟨least, .inr ⟨?_, seen, there, old⟩⟩
    rw [get?_prune, gone]
    rfl

theorem Trails.insert (trails : Trails watermark recent whole) (client : String) {seen}
    (least : -9223372036854775808 ≤ seen) :
    Trails watermark (recent.insert client seen) (whole.insert client seen) := by
  intro other
  by_cases own : other = client
  · subst own
    simp [least]
  · rw [recent.get?_insert_ne _ own, whole.get?_insert_ne _ own]
    exact trails other

end Forgetting

section Following

variable {lib : Libraries} {ledger : Ledger} {visiting : Visiting} {record : Record} {client : String} {first : Int}

theorem Visiting.step_late (visitor : Visitor record client first) (late : visiting.late record = true) :
    visiting.step lib ledger record = { visiting with warning := true } := by
  rw [Visiting.step, visitor.named, visitor.started]
  simp only [late, if_true]

/-- An accepted request, where the ledger has room. -/
theorem Visiting.step_accepted (visitor : Visitor record client first) (timely : visiting.late record = false)
    (room : visiting.crowded ledger record client = false) :
    visiting.step lib ledger record = {
      metrics :=
        if opens (visiting.visitors.get? client) first then
          visiting.metrics.insert record.routeId
            (((visiting.metrics.get? record.routeId).getD .new).visit lib first)
        else visiting.metrics
      visitors := (visiting.room ledger record client).insert client
        (max ((visiting.visitors.get? client).getD first) record.timestamp)
      watermark := max visiting.watermark record.timestamp
      warning := visiting.warning
      since := some (visiting.since.getD (stamp lib first)) } := by
  rw [Visiting.step, visitor.named, visitor.started]
  simp only [timely, room, Bool.false_eq_true, if_false]

theorem Visiting.step_crowded (visitor : Visitor record client first) (timely : visiting.late record = false)
    (full : visiting.crowded ledger record client = true) :
    visiting.step lib ledger record = {
      visiting with
      visitors := visiting.room ledger record client
      watermark := max visiting.watermark record.timestamp
      warning := true } := by
  rw [Visiting.step, visitor.named, visitor.started]
  simp only [timely, full, Bool.false_eq_true, if_false, if_true]

theorem Visiting.roomy (below : ledger.isFull visiting.visitors = false) :
    visiting.room ledger record client = visiting.visitors ∧ visiting.crowded ledger record client = false := by
  have same : visiting.room ledger record client = visiting.visitors := by
    rw [Visiting.room, below, Bool.and_false]
    rfl
  exact ⟨same, by rw [Visiting.crowded, same, below, Bool.and_false]⟩

/-- The two loops differ in nothing but what the first one forgot. -/
structure Follows (recent whole : Visiting) : Prop where
  metrics : recent.metrics = whole.metrics
  watermark : recent.watermark = whole.watermark
  warning : recent.warning = whole.warning
  since : recent.since = whole.since
  trails : Trails recent.watermark recent.visitors whole.visitors
  latest : recent.watermark ≤ maxCount

theorem Follows.step {recent whole} (follows : Follows recent whole)
    (visitor : Visitor record client first) (below : Ledger.recent.isFull recent.visitors = false) :
    Follows (recent.step lib .recent record) (whole.step lib .whole record) := by
  have late : whole.late record = recent.late record := by
    rw [Visiting.late, Visiting.late, follows.watermark]
  obtain ⟨least, before⟩ := follows.trails client
  cases timely : recent.late record with
  | true =>
      rw [Visiting.step_late visitor timely, Visiting.step_late visitor (late.trans timely)]
      exact ⟨follows.metrics, follows.watermark, rfl, follows.since, follows.trails, follows.latest⟩
  | false =>
      have accepted : saturatingSub recent.watermark window ≤ record.timestamp := by
        simpa [Visiting.late] using timely
      have kept := @Visiting.roomy .recent recent record client below
      have all := @Visiting.roomy .whole whole record client rfl
      rw [Visiting.step_accepted visitor timely kept.2, Visiting.step_accepted visitor (late.trans timely) all.2,
        kept.1, all.1]
      have forward := le_max_left recent.watermark record.timestamp
      -- a forgotten visitor opens a visit either way, and is seen at the same time behind it
      have agree : opens (recent.visitors.get? client) first = opens (whole.visitors.get? client) first ∧
          max ((recent.visitors.get? client).getD first) record.timestamp =
            max ((whole.visitors.get? client).getD first) record.timestamp ∧
          -9223372036854775808 ≤ max ((whole.visitors.get? client).getD first) record.timestamp := by
        have bound : -9223372036854775808 ≤ record.timestamp := (le_max_left _ _).trans accepted
        rcases before with same | ⟨gone, seen, there, old⟩
        · rw [same]
          exact ⟨rfl, rfl, bound.trans (le_max_right _ _)⟩
        · have gap := gap_of_forgotten visitor follows.latest (least seen there) old accepted
          have past : seen ≤ record.timestamp := by
            have := visitor.began
            unfold window at gap
            omega
          rw [gone, there, Option.getD_none, Option.getD_some, max_eq_right visitor.began, max_eq_right past]
          exact ⟨(opens_some.mpr gap).symm, rfl, bound⟩
      refine ⟨?_, ?_, follows.warning, ?_, ?_, max_le follows.latest visitor.time⟩
      · simp only [agree.1, follows.metrics]
      · simp only [follows.watermark]
      · simp only [follows.since]
      · simp only [agree.2.1]
        exact (follows.trails.mono forward).insert client agree.2.2

/-- The ledger is below its capacity at each of the records. -/
def Visiting.Roomy (lib : Libraries) (visiting : Visiting) : List Record → Prop
  | [] => True
  | record :: rest => Ledger.recent.isFull visiting.visitors = false ∧
      Visiting.Roomy lib (visiting.step lib .recent record) rest

theorem Follows.foldl {recent whole records} (follows : Follows recent whole)
    (visitors : ∀ record ∈ records, ∃ client first, Visitor record client first)
    (roomy : recent.Roomy lib records) :
    Follows (records.foldl (Visiting.step lib .recent) recent)
      (records.foldl (Visiting.step lib .whole) whole) := by
  induction records generalizing recent whole with
  | nil => exact follows
  | cons record rest ih =>
      rw [List.forall_mem_cons] at visitors
      obtain ⟨⟨client, first, visitor⟩, others⟩ := visitors
      exact ih (follows.step visitor roomy.1) others roomy.2

end Following

section Merges

variable {lib : Libraries} {journal : Runtime.Activity.Libraries} {valid : String → Bool}

/-- Reads of the journal, with times of `i64`. -/
def Journaled (journal : Runtime.Activity.Libraries) (read : Read) : Prop :=
  ∀ batch ∈ read.batches, batchValid journal batch = true ∧
    ∀ record ∈ batch.records, record.timestamp ≤ maxCount

theorem visitor_of_valid {batch} (accepted : batchValid journal batch = true) {record}
    (member : record ∈ batch.records) (time : record.timestamp ≤ maxCount) {client}
    (named : record.client = some client) : ∃ first, Visitor record client first := by
  simp only [batchValid, Bool.and_eq_true, List.all_eq_true] at accepted
  have own := accepted.2 record member
  simp only [Runtime.Activity.recordValid, Bool.and_eq_true] at own
  have visits := own.1.2
  rw [Runtime.Activity.visitorValid, named] at visits
  cases started : record.firstTimestamp with
  | none =>
      rw [started] at visits
      cases visits
  | some first =>
      rw [started] at visits
      simp only [Bool.and_eq_true, decide_eq_true_eq] at visits
      refine ⟨first, named, started, visits.1.1.2, ?_, time⟩
      have brief := visits.1.2
      unfold saturatingSub maxCount at brief
      omega

/-- The events are records of the batches that a client has. -/
theorem mem_visitEvents {batches : List Batch} {counted record}
    (member : record ∈ (batches.foldl (Counted.batch lib valid) counted).visitEvents) :
    record ∈ counted.visitEvents ∨
      ∃ batch ∈ batches, record ∈ batch.records ∧ record.client.isSome = true := by
  induction batches generalizing counted with
  | nil => exact .inl member
  | cons batch rest ih =>
      rcases ih member with before | ⟨other, listed, inside⟩
      · unfold Counted.batch at before
        split at before
        · exact .inl before
        · rcases List.mem_append.mp before with earlier | own
          · exact .inl earlier
          · obtain ⟨inside, named⟩ := List.mem_filter.mp own
            exact .inr ⟨batch, List.mem_cons_self, inside, (Bool.and_eq_true_iff.mp named).2⟩
      · exact .inr ⟨other, List.mem_cons_of_mem _ listed, inside⟩

theorem events_visit {state read} (journaled : Journaled journal read) :
    ∀ record ∈ events (counting lib valid state read), ∃ client first, Visitor record client first := by
  intro record member
  rw [events, List.mem_insertionSort] at member
  rcases mem_visitEvents member with none | ⟨batch, listed, inside, named⟩
  · cases none
  · obtain ⟨client, named⟩ := Option.isSome_iff_exists.mp named
    obtain ⟨accepted, times⟩ := journaled batch listed
    exact ⟨client, visitor_of_valid accepted inside (times record inside) named⟩

/-- The two documents differ in nothing but what was forgotten. -/
structure State.Follows (recent whole : State) : Prop where
  rest : { recent with recentVisitors := whole.recentVisitors } = whole
  trails : Trails recent.visitsWatermark recent.recentVisitors whole.recentVisitors
  latest : recent.visitsWatermark ≤ maxCount

/-- The ledger is below its capacity throughout the merge. -/
def Roomy (lib : Libraries) (valid : String → Bool) (state : State) (read : Read) : Prop :=
  (visitingOf .recent state (counting lib valid state read)).Roomy lib (events (counting lib valid state read))

theorem State.Follows.merge {recent : State} {whole} (follows : recent.Follows whole) {read}
    (journaled : Journaled journal read) (roomy : Roomy lib valid recent read) (now : String) :
    (mergeWith lib valid .recent recent read now).Follows (mergeWith lib valid .whole whole read now) := by
  have same : counting lib valid whole read = counting lib valid recent read := by
    rw [← follows.rest]
    rfl
  have watermark : recent.visitsWatermark = whole.visitsWatermark := by rw [← follows.rest]
  have since : recent.visitsTrackingSince = whole.visitsTrackingSince := by rw [← follows.rest]
  have tracking : recent.trackingSince = whole.trackingSince := by rw [← follows.rest]
  have monthly : recent.monthlyTrackingSince = whole.monthlyTrackingSince := by rw [← follows.rest]
  have before : WebActivity.Follows (visitingOf .recent recent (counting lib valid recent read))
      (visitingOf .whole whole (counting lib valid recent read)) :=
    ⟨rfl, watermark, rfl, since, follows.trails.prune, follows.latest⟩
  have after := before.foldl (events_visit journaled) roomy
  unfold mergeWith
  rw [same]
  refine ⟨?_, after.trails.prune, after.latest⟩
  simp only [after.metrics, after.warning, after.watermark, after.since, tracking, monthly]

end Merges

section Runs

/-- The second request comes within the window behind the first. -/
def near (first second : Record) : Bool := decide (eventTime second - first.timestamp < window)

/-- The flags of the records say which of them begin a run. -/
def Marked : Option Record → List (Record × Bool) → Prop
  | _, [] => True
  | last, (record, flag) :: rest => flag = last.all (fun before => !near before record) ∧ Marked (some record) rest

/-- The last record, or the one before the list. -/
def lastOf (last : Option Record) (log : List (Record × Bool)) : Option Record :=
  log.foldl (fun _ entry => some entry.1) last

variable {log : List (Record × Bool)}

theorem Marked.append {last more} (first : Marked last log) (second : Marked (lastOf last log) more) :
    Marked last (log ++ more) := by
  induction log generalizing last with
  | nil => exact second
  | cons entry rest ih => exact ⟨first.1, ih first.2 second⟩

theorem splitBy_loop_length {records} {flags : List (Record × Bool)} {record}
    (same : flags.map Prod.fst = records) (marked : Marked (some record) flags)
    (group : List Record) (groups : List (List Record)) :
    (List.splitBy.loop near records record group groups).length =
      groups.length + 1 + (flags.filter Prod.snd).length := by
  induction flags generalizing records record group groups with
  | nil =>
      obtain rfl := same
      simp [List.splitBy.loop]
  | cons entry rest ih =>
      obtain ⟨next, flag⟩ := entry
      obtain rfl := same
      obtain ⟨flagged, later⟩ := marked
      simp only [Option.all_some] at flagged
      rw [List.map_cons, List.splitBy.loop]
      cases close : near record next with
      | true =>
          rw [close] at flagged
          subst flagged
          exact ih rfl later _ _
      | false =>
          rw [close] at flagged
          subst flagged
          rw [ih rfl later, List.length_cons, List.filter_cons_of_pos rfl, List.length_cons]
          omega

/-- The marks count the runs without a gap. -/
theorem Marked.length (marked : Marked none log) :
    (log.filter Prod.snd).length = ((log.map Prod.fst).splitBy near).length := by
  cases log with
  | nil => rfl
  | cons entry rest =>
      obtain ⟨record, flag⟩ := entry
      obtain ⟨flagged, later⟩ := marked
      subst flagged
      rw [List.map_cons, List.splitBy, splitBy_loop_length rfl later, List.filter_cons_of_pos rfl,
        List.length_cons, List.length_nil]
      omega

end Runs

section Clients

variable {lib : Libraries} {visiting : Visiting} {record : Record}

/-- The loop accepts the record: it is not too late, and the ledger has room. -/
def Visiting.accepts (visiting : Visiting) (record : Record) : Bool :=
  record.client.any fun client => !visiting.late record && !visiting.crowded .recent record client

/-- The record of a client that was not seen within the window. -/
def Visiting.begins (visiting : Visiting) (record : Record) : Bool :=
  opens (record.client.bind visiting.visitors.get?) (eventTime record)

/-- The accepted records, each with whether it begins a visit. -/
def visitLog (lib : Libraries) (visiting : Visiting) : List Record → List (Record × Bool)
  | [] => []
  | record :: rest =>
      (if visiting.accepts record then [(record, visiting.begins record)] else []) ++
        visitLog lib (visiting.step lib .recent record) rest

/-- The log of merges one after the other. -/
def mergeLog (lib : Libraries) (state : State) : List Merge → List (Record × Bool)
  | [] => []
  | ⟨read, valid, now⟩ :: rest =>
      visitLog lib (visitingOf .recent state (counting lib valid state read))
          (events (counting lib valid state read)) ++
        mergeLog lib (merge lib valid state read now) rest

/-- The part of a log that is about one client. -/
def ofClient (client : String) (log : List (Record × Bool)) : List (Record × Bool) :=
  log.filter fun entry => decide (entry.1.client = some client)

/-- What the ledger knows about a client, given its last accepted record. -/
def Remembers (watermark : Int) (visitors : Dict String Int) (client : String) : Option Record → Prop
  | none => visitors.get? client = none
  | some last => -9223372036854775808 ≤ last.timestamp ∧ (visitors.get? client = some last.timestamp ∨
      visitors.get? client = none ∧ last.timestamp < saturatingSub watermark retention)

variable {client : String} {last : Option Record} {watermark later : Int} {visitors : Dict String Int}
  {log : List (Record × Bool)}

theorem Remembers.mono (remembers : Remembers watermark visitors client last) (mono : watermark ≤ later) :
    Remembers later visitors client last := by
  cases last with
  | none => exact remembers
  | some last =>
      obtain ⟨least, there | ⟨gone, old⟩⟩ := remembers
      · exact ⟨least, .inl there⟩
      · exact ⟨least, .inr ⟨gone, old.trans_le (saturatingSub_mono mono _)⟩⟩

theorem Remembers.prune (remembers : Remembers watermark visitors client last) :
    Remembers watermark (Ledger.recent.prune watermark visitors) client last := by
  cases last with
  | none =>
      rw [Remembers, get?_prune, remembers]
      rfl
  | some last =>
      obtain ⟨least, there | ⟨gone, old⟩⟩ := remembers
      · refine ⟨least, ?_⟩
        rw [get?_prune, there]
        by_cases stays : saturatingSub watermark retention ≤ last.timestamp
        · rw [Option.filter_some, if_pos (by simpa using stays)]
          exact .inl rfl
        · rw [Option.filter_some, if_neg (by simpa using stays)]
          exact .inr ⟨rfl, not_le.mp stays⟩
      · refine ⟨least, .inr ⟨?_, old⟩⟩
        rw [get?_prune, gone]
        rfl

theorem Remembers.room (remembers : Remembers visiting.watermark visiting.visitors client last)
    (other : String) :
    Remembers (max visiting.watermark record.timestamp) (visiting.room .recent record other) client last := by
  have moved := remembers.mono (le_max_left visiting.watermark record.timestamp)
  unfold Visiting.room
  split
  · exact moved.prune
  · exact moved

/-- The records of the client in a log, in the order of their times. -/
def Timely (last : Option Record) (log : List (Record × Bool)) : Prop :=
  (last.toList ++ log.map Prod.fst).IsChain fun before next => before.timestamp ≤ next.timestamp

theorem Timely.head {entry} (timely : Timely last (entry :: log)) :
    (∀ before ∈ last, before.timestamp ≤ entry.1.timestamp) ∧ Timely (some entry.1) log := by
  cases last with
  | none => exact ⟨by simp, timely⟩
  | some before =>
      obtain ⟨order, rest⟩ := List.isChain_cons_cons.mp timely
      exact ⟨by simpa using order, rest⟩

/-- What one record adds to the log of the client. -/
def Visiting.entry (visiting : Visiting) (record : Record) (client : String) : List (Record × Bool) :=
  ofClient client (if visiting.accepts record then [(record, visiting.begins record)] else [])

theorem Remembers.step {own first} (visitor : Visitor record own first)
    (latest : visiting.watermark ≤ maxCount)
    (remembers : Remembers visiting.watermark visiting.visitors client last)
    (order : ∀ entry ∈ visiting.entry record client, ∀ before ∈ last, before.timestamp ≤ entry.1.timestamp) :
    Marked last (visiting.entry record client) ∧
      Remembers (visiting.step lib .recent record).watermark (visiting.step lib .recent record).visitors client
        (lastOf last (visiting.entry record client)) := by
  have accepts : visiting.accepts record = (!visiting.late record && !visiting.crowded .recent record own) := by
    rw [Visiting.accepts, visitor.named, Option.any_some]
  have time : eventTime record = first := by rw [eventTime, visitor.started, Option.getD_some]
  cases timely : visiting.late record with
  | true =>
      have none : visiting.entry record client = [] := by
        rw [Visiting.entry, accepts, timely]
        rfl
      rw [none, Visiting.step_late visitor timely]
      exact ⟨trivial, remembers⟩
  | false =>
      cases full : visiting.crowded .recent record own with
      | true =>
          have none : visiting.entry record client = [] := by
            rw [Visiting.entry, accepts, timely, full]
            rfl
          rw [none, Visiting.step_crowded visitor timely full]
          exact ⟨trivial, remembers.room own⟩
      | false =>
          rw [Visiting.step_accepted visitor timely full]
          have inside : visiting.entry record client =
              if own = client then [(record, opens (visiting.visitors.get? own) first)] else [] := by
            rw [Visiting.entry, accepts, timely, full, Visiting.begins, visitor.named, time]
            by_cases same : own = client <;> simp [ofClient, visitor.named, same]
          by_cases same : own = client
          · subst same
            rw [if_pos rfl] at inside
            rw [inside] at order ⊢
            have accepted : saturatingSub visiting.watermark window ≤ record.timestamp := by
              simpa [Visiting.late] using timely
            have bound : -9223372036854775808 ≤ record.timestamp := (le_max_left _ _).trans accepted
            have ordered := order _ (List.mem_singleton_self _)
            -- the ledger has the last time of the client, or a time that is too long ago
            have known : opens (visiting.visitors.get? own) first =
                  last.all (fun before => !near before record) ∧
                max ((visiting.visitors.get? own).getD first) record.timestamp = record.timestamp := by
              cases last with
              | none =>
                  rw [Remembers] at remembers
                  rw [remembers]
                  exact ⟨rfl, max_eq_right visitor.began⟩
              | some before =>
                  have far : (!near before record) = true ↔ window ≤ first - before.timestamp := by
                    simp only [near, time, Bool.not_eq_true', decide_eq_false_iff_not, not_lt]
                  obtain ⟨least, there | ⟨gone, old⟩⟩ := remembers
                  · rw [there, Option.all_some, Option.getD_some]
                    exact ⟨Bool.eq_iff_iff.mpr (opens_some.trans far.symm),
                      max_eq_right (ordered before rfl)⟩
                  · have gap := gap_of_forgotten visitor latest least old accepted
                    rw [gone, Option.all_some, far.mpr gap]
                    exact ⟨rfl, max_eq_right visitor.began⟩
            refine ⟨⟨known.1, trivial⟩, bound, .inl ?_⟩
            rw [known.2, Dict.get?_insert_self]
          · rw [if_neg same] at inside
            rw [inside]
            refine ⟨trivial, ?_⟩
            have kept := @Remembers.room visiting record client last remembers own
            have untouched : ∀ seen, ((visiting.room .recent record own).insert own seen).get? client =
                (visiting.room .recent record own).get? client :=
              fun seen => Dict.get?_insert_ne _ seen (Ne.symm same)
            cases last with
            | none => exact (untouched _).trans kept
            | some last => exact ⟨kept.1, by simpa only [untouched] using kept.2⟩

/-- A step moves the watermark to an accepted time at most. -/
theorem Visiting.step_latest {own first} (visitor : Visitor record own first)
    (latest : visiting.watermark ≤ maxCount) :
    (visiting.step lib .recent record).watermark ≤ maxCount := by
  cases timely : visiting.late record with
  | true =>
      rw [Visiting.step_late visitor timely]
      exact latest
  | false =>
      cases full : visiting.crowded .recent record own with
      | true =>
          rw [Visiting.step_crowded visitor timely full]
          exact max_le latest visitor.time
      | false =>
          rw [Visiting.step_accepted visitor timely full]
          exact max_le latest visitor.time

theorem lastOf_append (log more : List (Record × Bool)) :
    lastOf last (log ++ more) = lastOf (lastOf last log) more := List.foldl_append

/-- The log of the client in front of another one. -/
theorem Timely.append {more} (timely : Timely last (log ++ more)) :
    Timely (lastOf last log) more := by
  induction log generalizing last with
  | nil => exact timely
  | cons entry rest ih => exact ih timely.head.2

theorem visitLog_marked {records} (latest : visiting.watermark ≤ maxCount)
    (visitors : ∀ record ∈ records, ∃ own first, Visitor record own first)
    (remembers : Remembers visiting.watermark visiting.visitors client last)
    (timely : Timely last (ofClient client (visitLog lib visiting records))) :
    Marked last (ofClient client (visitLog lib visiting records)) ∧
      Remembers (records.foldl (Visiting.step lib .recent) visiting).watermark
        (records.foldl (Visiting.step lib .recent) visiting).visitors client
        (lastOf last (ofClient client (visitLog lib visiting records))) ∧
      (records.foldl (Visiting.step lib .recent) visiting).watermark ≤ maxCount := by
  induction records generalizing visiting last with
  | nil => exact ⟨trivial, remembers, latest⟩
  | cons record rest ih =>
      rw [List.forall_mem_cons] at visitors
      obtain ⟨⟨own, first, visitor⟩, others⟩ := visitors
      have split : ofClient client (visitLog lib visiting (record :: rest)) =
          visiting.entry record client ++ ofClient client (visitLog lib (visiting.step lib .recent record) rest) :=
        List.filter_append ..
      rw [split] at timely ⊢
      have order : ∀ entry ∈ visiting.entry record client, ∀ before ∈ last,
          before.timestamp ≤ entry.1.timestamp := by
        intro entry member
        have short : (visiting.entry record client).length ≤ 1 := by
          refine (List.length_filter_le _ _).trans ?_
          split <;> simp
        have one : visiting.entry record client = [entry] := by
          obtain ⟨only, shape⟩ := List.length_eq_one_iff.mp (le_antisymm short (List.length_pos_of_mem member))
          rw [shape, List.mem_singleton] at member
          rw [shape, member]
        rw [one] at timely
        exact timely.head.1
      obtain ⟨marked, after⟩ := @Remembers.step lib visiting record client last own first visitor latest
        remembers order
      obtain ⟨later, kept, bound⟩ := ih (Visiting.step_latest visitor latest) others after timely.append
      refine ⟨marked.append later, ?_, bound⟩
      rw [lastOf_append]
      exact kept

end Clients

section Counts

variable {lib : Libraries} {valid : String → Bool} {route : String}

/-- The visits of a route. -/
def visitsOf (metrics : Dict String Metric) (route : String) : Int :=
  ((metrics.get? route).map Metric.visits).getD 0

/-- The entries of a log that begin a visit of the route. -/
def beginnings (route : String) (log : List (Record × Bool)) : Nat :=
  (log.filter fun entry => entry.2 && decide (entry.1.routeId = route)).length

theorem visitsOf_insert (metrics : Dict String Metric) (other : String) (metric : Metric) :
    visitsOf (metrics.insert other metric) route =
      if other = route then metric.visits else visitsOf metrics route := by
  unfold visitsOf
  by_cases same : other = route
  · subst same
    rw [Dict.get?_insert_self, if_pos rfl]
    rfl
  · rw [Dict.get?_insert_ne _ _ (Ne.symm same), if_neg same]

theorem Metric.count_visits (metric : Metric) (record : Record) :
    (metric.count lib record).visits = metric.visits := by
  unfold Metric.count Metric.turn
  dsimp only
  split <;> split <;> split <;> rfl

theorem visitsOf_getD (metrics : Dict String Metric) :
    ((metrics.get? route).getD .new).visits = visitsOf metrics route := by
  unfold visitsOf
  cases metrics.get? route <;> rfl

theorem countRecord_visits (metrics : Dict String Metric) (record : Record) :
    visitsOf (countRecord lib valid metrics record) route = visitsOf metrics route := by
  unfold countRecord
  split
  · rw [visitsOf_insert, Metric.count_visits, visitsOf_getD]
    split
    · rename_i same
      rw [same]
    · rfl
  · rfl

theorem foldl_countRecord_visits (records : List Record) (metrics : Dict String Metric) :
    visitsOf (records.foldl (countRecord lib valid) metrics) route = visitsOf metrics route := by
  induction records generalizing metrics with
  | nil => rfl
  | cons record rest ih => rw [List.foldl_cons, ih, countRecord_visits]

theorem foldl_batch_visits (batches : List Batch) (counted : Counted) :
    visitsOf (batches.foldl (Counted.batch lib valid) counted).metrics route = visitsOf counted.metrics route := by
  induction batches generalizing counted with
  | nil => rfl
  | cons batch rest ih =>
      rw [List.foldl_cons, ih]
      unfold Counted.batch
      split
      · rfl
      · exact foldl_countRecord_visits batch.records counted.metrics

/-- Counting requests leaves the visits of the routes that there are. -/
theorem counting_visits (known : valid route = true) (state : State) (read : Read) :
    visitsOf (counting lib valid state read).metrics route = visitsOf state.metrics route := by
  have migrated : ∀ metric : Metric, (metric.migrate state.trackingSince).visits = metric.visits := by
    intro metric
    unfold Metric.migrate
    dsimp only
    split <;> rfl
  rw [counting, foldl_batch_visits]
  unfold visitsOf
  rw [Dict.get?_map, Dict.get?_retain]
  cases state.metrics.get? route with
  | none => rfl
  | some metric =>
      rw [Option.filter_some, if_pos known]
      exact migrated metric

theorem Metric.visit_visits (metric : Metric) (first : Int) :
    (metric.visit lib first).visits = saturatingAdd metric.visits 1 := by
  unfold Metric.visit
  dsimp only
  split <;> split <;> rfl

theorem step_visits {visiting : Visiting} {record own first} (visitor : Visitor record own first) :
    visitsOf (visiting.step lib .recent record).metrics route =
      if visiting.accepts record ∧ visiting.begins record ∧ record.routeId = route then
        saturatingAdd (visitsOf visiting.metrics route) 1
      else visitsOf visiting.metrics route := by
  have accepts : visiting.accepts record = (!visiting.late record && !visiting.crowded .recent record own) := by
    rw [Visiting.accepts, visitor.named, Option.any_some]
  have begins : visiting.begins record = opens (visiting.visitors.get? own) first := by
    rw [Visiting.begins, visitor.named, eventTime, visitor.started]
    rfl
  cases timely : visiting.late record with
  | true => rw [Visiting.step_late visitor timely, if_neg (by simp [accepts, timely])]
  | false =>
      cases full : visiting.crowded .recent record own with
      | true => rw [Visiting.step_crowded visitor timely full, if_neg (by simp [accepts, full])]
      | false =>
          rw [Visiting.step_accepted visitor timely full]
          cases opened : opens (visiting.visitors.get? own) first with
          | true =>
              rw [if_pos rfl, visitsOf_insert, Metric.visit_visits, visitsOf_getD]
              by_cases same : record.routeId = route
              · rw [if_pos same, if_pos ⟨by simp [accepts, timely, full], begins.trans opened, same⟩, same]
              · rw [if_neg same, if_neg fun all => same all.2.2]
          | false =>
              rw [if_neg (by simp), if_neg fun all => by simp [begins, opened] at all]

theorem foldl_visits {visiting : Visiting} {records}
    (visitors : ∀ record ∈ records, ∃ own first, Visitor record own first)
    (range : I64 (visitsOf visiting.metrics route)) :
    visitsOf (records.foldl (Visiting.step lib .recent) visiting).metrics route =
      min maxCount (visitsOf visiting.metrics route + beginnings route (visitLog lib visiting records)) := by
  induction records generalizing visiting with
  | nil =>
      rw [List.foldl_nil, visitLog]
      simp [beginnings, range.2]
  | cons record rest ih =>
      rw [List.forall_mem_cons] at visitors
      obtain ⟨⟨own, first, visitor⟩, others⟩ := visitors
      have step := @step_visits lib route visiting record own first visitor
      have next : I64 (visitsOf (visiting.step lib .recent record).metrics route) := by
        rw [step]
        split
        · unfold I64 saturatingAdd maxCount at *
          omega
        · exact range
      rw [List.foldl_cons, ih others next, step, visitLog, beginnings, beginnings, List.filter_append,
        List.length_append]
      unfold I64 maxCount at range
      by_cases accepted : visiting.accepts record = true
      · by_cases opened : visiting.begins record = true ∧ record.routeId = route
        · rw [if_pos ⟨accepted, opened⟩, if_pos accepted, List.filter_cons_of_pos (by simp [opened])]
          simp only [List.filter_nil, List.length_singleton, saturatingAdd, maxCount]
          omega
        · rw [if_neg fun all => opened all.2, if_pos accepted, List.filter_cons_of_neg (by simpa using opened)]
          simp
      · rw [if_neg fun all => accepted all.1, if_neg accepted]
        simp

end Counts

section Results

variable {lib : Libraries} {journal : Runtime.Activity.Libraries} {merges : List Merge}

/-- The ledger is below its capacity throughout the merges. -/
def RoomyAll (lib : Libraries) : State → List Merge → Prop
  | _, [] => True
  | state, ⟨read, valid, now⟩ :: rest =>
      Roomy lib valid state read ∧ RoomyAll lib (merge lib valid state read now) rest

theorem follows_all {recent : State} {whole} (follows : recent.Follows whole)
    (journaled : ∀ merge ∈ merges, Journaled journal merge.read)
    (roomy : RoomyAll lib recent merges) :
    (mergeEach lib .recent recent merges).Follows (mergeEach lib .whole whole merges) := by
  induction merges generalizing recent whole with
  | nil => exact follows
  | cons merge rest ih =>
      rw [List.forall_mem_cons] at journaled
      exact ih (follows.merge journaled.1 roomy.1 merge.now) journaled.2 roomy.2

theorem mergeLog_marked {client last} {state : State}
    (journaled : ∀ merge ∈ merges, Journaled journal merge.read)
    (latest : state.visitsWatermark ≤ maxCount)
    (remembers : Remembers state.visitsWatermark state.recentVisitors client last)
    (timely : Timely last (ofClient client (mergeLog lib state merges))) :
    Marked last (ofClient client (mergeLog lib state merges)) := by
  induction merges generalizing state last with
  | nil => trivial
  | cons first rest ih =>
      obtain ⟨read, valid, now⟩ := first
      rw [List.forall_mem_cons] at journaled
      have split : ofClient client (mergeLog lib state (⟨read, valid, now⟩ :: rest)) =
          ofClient client (visitLog lib (visitingOf .recent state (counting lib valid state read))
            (events (counting lib valid state read))) ++
          ofClient client (mergeLog lib (merge lib valid state read now) rest) :=
        List.filter_append ..
      rw [split] at timely ⊢
      have first : Timely last (ofClient client (visitLog lib
          (visitingOf .recent state (counting lib valid state read)) (events (counting lib valid state read)))) := by
        unfold Timely at timely ⊢
        rw [List.map_append, ← List.append_assoc] at timely
        exact timely.left_of_append
      obtain ⟨marked, kept, bound⟩ := visitLog_marked latest (events_visit journaled.1) remembers.prune first
      exact marked.append (ih journaled.2 bound kept.prune timely.append)

theorem mergeEach_visits {route} (known : ∀ merge ∈ merges, merge.valid route = true) {state : State}
    (journaled : ∀ merge ∈ merges, Journaled journal merge.read)
    (range : I64 (visitsOf state.metrics route)) :
    visitsOf (mergeEach lib .recent state merges).metrics route =
      min maxCount (visitsOf state.metrics route + beginnings route (mergeLog lib state merges)) := by
  induction merges generalizing state with
  | nil =>
      rw [mergeLog]
      simp [mergeEach, beginnings, range.2]
  | cons first rest ih =>
      obtain ⟨read, valid, now⟩ := first
      rw [List.forall_mem_cons] at journaled known
      have before : visitsOf (visitingOf .recent state (counting lib valid state read)).metrics route =
          visitsOf state.metrics route := counting_visits known.1 state read
      have merged := @foldl_visits lib route (visitingOf .recent state (counting lib valid state read))
        (events (counting lib valid state read)) (events_visit journaled.1) (before ▸ range)
      rw [before] at merged
      have after : visitsOf (merge lib valid state read now).metrics route = min maxCount
          (visitsOf state.metrics route + beginnings route (visitLog lib
            (visitingOf .recent state (counting lib valid state read))
            (events (counting lib valid state read)))) := merged
      have next : I64 (visitsOf (merge lib valid state read now).metrics route) := by
        unfold I64 maxCount at *
        omega
      have rest := ih known.2 journaled.2 next
      rw [after] at rest
      refine rest.trans ?_
      rw [mergeLog, beginnings, beginnings, beginnings, List.filter_append, List.length_append]
      omega

/-- Forgetting visitors changes no count, whichever routes there are at each merge. Each
    visit of a route that stays is counted once, and the accepted records of a client, in
    the order of their times, begin a visit for each run of them without a gap of the
    window. -/
theorem pruning_keeps_visits (lib : Libraries) (journal : Runtime.Activity.Libraries)
    (state : State) (merges : List Merge) (watermark : I64 state.visitsWatermark)
    (ledger : ∀ client seen, state.recentVisitors.get? client = some seen → I64 seen)
    (journaled : ∀ merge ∈ merges, Journaled journal merge.read) :
    (RoomyAll lib state merges →
      (mergeEach lib .recent state merges).metrics = (mergeEach lib .whole state merges).metrics) ∧
    (∀ route, (∀ merge ∈ merges, merge.valid route = true) → I64 (visitsOf state.metrics route) →
      visitsOf (mergeEach lib .recent state merges).metrics route =
        min maxCount (visitsOf state.metrics route + beginnings route (mergeLog lib state merges))) ∧
    (∀ client, state.recentVisitors.get? client = none →
      (((ofClient client (mergeLog lib state merges)).map Prod.fst).Pairwise fun before next =>
        before.timestamp ≤ next.timestamp) →
      ((ofClient client (mergeLog lib state merges)).filter Prod.snd).length =
        (((ofClient client (mergeLog lib state merges)).map Prod.fst).splitBy near).length) := by
  refine ⟨fun roomy => ?_, fun route known range => mergeEach_visits known journaled range,
    fun client unseen timely => ?_⟩
  · have same : state.Follows state :=
      ⟨rfl, fun client => ⟨fun seen there => (ledger client seen there).1, .inl rfl⟩, watermark.2⟩
    have after := (follows_all same journaled roomy).rest
    rw [← after]
  · have marked : Marked none (ofClient client (mergeLog lib state merges)) :=
      mergeLog_marked journaled watermark.2 unseen timely.isChain
    exact marked.length

end Results

/-- A calendar for the times of the sample. -/
def sampleCalendar : Libraries where
  format time :=
    if time = 1783000000000 then some "2026-07-02T13:46:40"
    else if time = 1783000600000 then some "2026-07-02T13:56:40"
    else if time = 1783003720000 then some "2026-07-02T14:48:40"
    else if time = 1783003780000 then some "2026-07-02T14:49:40"
    else none
  parseRfc3339 text :=
    if text = "2026-07-02T13:46:40+00:00" then some 1783000000000
    else if text = "2026-07-02T13:56:40+00:00" then some 1783000600000
    else if text = "2026-07-02T14:48:40+00:00" then some 1783003720000
    else if text = "2026-07-02T14:49:40+00:00" then some 1783003780000
    else none

def sampleIds : List String :=
  ["67e55044-10b1-426f-9247-bb680e5fe0c8", "67e55044-10b1-426f-9247-bb680e5fe0c9"]

def sampleJournal : Runtime.Activity.Libraries where
  parse _ := none
  isUuid id := decide (id ∈ sampleIds)
  representable _ := true
  month _ := 202607

def sampleVisit (client : Char) (time : Int) : Record :=
  ⟨"a", 1, time, "app.example", some (String.ofList (List.replicate 64 client)), some time⟩

/-- A request, one of another client 62 minutes later, and the first client again a minute
    after that, when there is one more route. -/
def sampleMerges : List Merge :=
  [⟨⟨⟨"inode", 500⟩, [⟨2, sampleIds[0], false,
      [sampleVisit 'a' 1783000000000, sampleVisit 'b' 1783003720000]⟩], false, false⟩,
    fun id => id == "a", ""⟩,
  ⟨⟨⟨"inode", 700⟩, [⟨2, sampleIds[1], false,
      [sampleVisit 'a' 1783003780000]⟩], false, false⟩, fun _ => true, ""⟩]

/-- The first merge forgets its first client. When that client returns, it begins a new
    visit, as it would if the ledger kept all. -/
theorem returning_client_is_a_new_visit :
    (mergeEach sampleCalendar .recent (.new "") (sampleMerges.take 1)).recentVisitors.get?
      (String.ofList (List.replicate 64 'a')) = none ∧
    visitsOf (mergeEach sampleCalendar .recent (.new "") sampleMerges).metrics "a" = 3 ∧
    (mergeEach sampleCalendar .recent (.new "") sampleMerges).metrics =
      (mergeEach sampleCalendar .whole (.new "") sampleMerges).metrics := by
  refine ⟨by decide +kernel, by decide +kernel, ?_⟩
  refine (pruning_keeps_visits sampleCalendar sampleJournal (.new "") sampleMerges
    ⟨by decide, by decide⟩ nofun ?_).1 ?_
  · intro merge member
    simp only [sampleMerges, List.mem_cons, List.not_mem_nil, or_false] at member
    rcases member with rfl | rfl
    · intro batch member
      obtain rfl := List.mem_singleton.mp member
      exact ⟨by decide, by decide⟩
    · intro batch member
      obtain rfl := List.mem_singleton.mp member
      exact ⟨by decide, by decide⟩
  · exact ⟨⟨by decide +kernel, by decide +kernel, trivial⟩, ⟨by decide +kernel, trivial⟩, trivial⟩

end PortHub.Api.WebActivity
