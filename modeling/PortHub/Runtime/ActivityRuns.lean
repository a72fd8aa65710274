import PortHub.Lib.Runs
import PortHub.Runtime.Activity

/-! # Runs of the request counters

Every batch that is taken passes the reader, and no request is lost between the
batches and the buckets: what is not counted was refused, and after that every batch
says so. A bucket holds at most `i64::MAX` requests.
-/

namespace PortHub.Runtime.Activity

open Runs

/-- A call of the counters; `take` gets the identifier of the batch. -/
inductive Call where
  | record (route host : String) (now : Int) (client : Option String)
  | take (id : String)

inductive Answer where
  | counted
  | refused
  | taken (batch : Option Batch)

def step (lib : Libraries) (pending : Pending) : Call → Pending × Answer
  | .record route host now client =>
      (recordAtWithClient lib pending route host now client,
        if pending.refuses (bucket lib route now client) then .refused else .counted)
  | .take id => ((take pending id).1, .taken (take pending id).2)

/-- What a call is given: the names within their limits, a time after 1970. -/
def Proper (lib : Libraries) : Call → Prop
  | .record route host now client =>
      (1 ≤ Text.byteLen route.toList ∧ Text.byteLen route.toList ≤ 128) ∧
        Text.byteLen host.toList ≤ 253 ∧ (0 ≤ now ∧ lib.representable now = true) ∧
        ∀ id ∈ client, Text.byteLen id.toList = 64 ∧ id.toList.all isHexdigit = true
  | .take id => lib.isUuid id = true

def proper (lib : Libraries) (pending : Pending) (label : Call × Answer) (after : Pending) : Prop :=
  answers (step lib) pending label after ∧ Proper lib label.1

section Records

variable {lib : Libraries} {key : Key} {record : Record}

/-- A record of the bucket of its key. -/
structure Kept (lib : Libraries) (key : Key) (record : Record) : Prop where
  route : record.routeId = key.route
  named : 1 ≤ Text.byteLen record.routeId.toList ∧ Text.byteLen record.routeId.toList ≤ 128
  host : Text.byteLen record.host.toList ≤ 253
  count : 1 ≤ record.count ∧ record.count ≤ maxCount
  time : 0 ≤ record.timestamp ∧ lib.representable record.timestamp = true
  client : record.client = key.visit.map Prod.fst
  visitor : ∀ id ∈ record.client, Text.byteLen id.toList = 64 ∧ id.toList.all isHexdigit = true
  first : record.firstTimestamp.isSome = record.client.isSome
  minute : ∀ first ∈ record.firstTimestamp, ∀ visit ∈ key.visit, lib.representable first = true ∧
    first ≤ record.timestamp ∧ first / 60000 = visit.2 ∧ record.timestamp / 60000 = visit.2

/-- A record of a bucket passes the reader. -/
theorem Kept.valid (kept : Kept lib key record) : recordValid lib 2 record = true := by
  have nonempty : record.routeId.toList ≠ [] := by
    intro empty
    have := kept.named.1
    rw [empty] at this
    simp [Text.byteLen] at this
  have visitor : visitorValid lib 2 record = true := by
    unfold visitorValid
    cases named : record.client with
    | none =>
        have absent : record.firstTimestamp = none := by
          have := kept.first
          rw [named] at this
          simpa using this
        rw [absent]
    | some client =>
        obtain ⟨first, began⟩ := Option.isSome_iff_exists.mp
          (show record.firstTimestamp.isSome = true by rw [kept.first, named]; rfl)
        obtain ⟨visit, seen, _⟩ := Option.map_eq_some_iff.mp (kept.client.symm.trans named)
        obtain ⟨known, before, early, late⟩ := kept.minute first began visit seen
        obtain ⟨long, hex⟩ := kept.visitor client named
        have near : saturatingSub record.timestamp first < 60000 := by
          unfold saturatingSub maxCount
          omega
        have positive : 0 < record.count := kept.count.1
        rw [began]
        simp [positive, long, hex, before, near, known]
  have positive : 0 ≤ record.count := le_trans (by decide) kept.count.1
  simp [recordValid, nonempty, kept.named.2, kept.host, positive, visitor, kept.time.2]

/-- A request of the same bucket is counted. -/
theorem Kept.touch {host : String} {now} (kept : Kept lib key record)
    (short : Text.byteLen host.toList ≤ 253) (time : 0 ≤ now ∧ lib.representable now = true)
    (same : ∀ visit ∈ key.visit, now / 60000 = visit.2) : Kept lib key (record.touch host now) := by
  have counted : 1 ≤ min maxCount (record.count + 1) ∧ min maxCount (record.count + 1) ≤ maxCount := by
    have := kept.count
    omega
  have began : (record.firstTimestamp.map (min · now)).isSome = record.client.isSome := by
    rw [Option.isSome_map, kept.first]
  -- the first time stays in its minute, and before the last one
  have earlier : ∀ first ∈ record.firstTimestamp.map (min · now), ∀ visit ∈ key.visit,
      lib.representable first = true ∧ first ≤ now ∧ first ≤ record.timestamp ∧ first / 60000 = visit.2 := by
    intro first minimum visit seen
    obtain ⟨old, there, rfl⟩ := Option.map_eq_some_iff.mp minimum
    obtain ⟨known, before, minute, _⟩ := kept.minute old there visit seen
    refine ⟨?_, min_le_right _ _, le_trans (min_le_left _ _) before, ?_⟩
    · rcases min_choice old now with left | right
      · rw [left, known]
      · rw [right, time.2]
    · rcases min_choice old now with left | right
      · rw [left, minute]
      · rw [right, same visit seen]
  unfold Record.touch
  simp only
  split
  · refine { kept with host := short, count := counted, time := time, first := began, minute := ?_ }
    intro first minimum visit seen
    obtain ⟨known, before, _, minute⟩ := earlier first minimum visit seen
    exact ⟨known, before, minute, same visit seen⟩
  · refine { kept with count := counted, first := began, minute := ?_ }
    intro first minimum visit seen
    obtain ⟨old, there, _⟩ := Option.map_eq_some_iff.mp minimum
    obtain ⟨known, _, before, minute⟩ := earlier first minimum visit seen
    exact ⟨known, before, minute, (kept.minute old there visit seen).2.2.2⟩

/-- The first request of a bucket makes its record. -/
theorem fresh_kept {route host now client} (proper : Proper lib (.record route host now client)) :
    Kept lib (bucket lib route now client)
      (Record.touch ⟨route, 0, 0, "", client, client.map fun _ => now⟩ host now) := by
  obtain ⟨named, short, time, visitor⟩ := proper
  have counted : 1 ≤ min maxCount (0 + 1) ∧ min maxCount (0 + 1) ≤ maxCount := by decide
  have shape : Record.touch ⟨route, 0, 0, "", client, client.map fun _ => now⟩ host now =
      ⟨route, min maxCount (0 + 1), now, host, client, client.map fun _ => now⟩ := by
    simp [Record.touch, time.1, Option.map_map, Function.comp_def]
  rw [shape]
  refine ⟨rfl, named, short, counted, time, ?_, visitor, Option.isSome_map, ?_⟩
  · simp [bucket, Option.map_map, Function.comp_def]
  · intro first began visit seen
    obtain ⟨_, _, rfl⟩ := Option.map_eq_some_iff.mp began
    obtain ⟨_, _, rfl⟩ := Option.map_eq_some_iff.mp seen
    exact ⟨time.2, le_rfl, rfl, rfl⟩

end Records

section Counting

/-- The requests of a route that a record counts. -/
def Record.counts (route : String) (record : Record) : Nat :=
  if record.routeId = route then record.count.toNat else 0

def Batch.counts (route : String) (batch : Batch) : Nat := (batch.records.map (Record.counts route)).sum

/-- The requests of a route in the buckets. -/
def pendingCount (pending : Pending) (route : String) : Nat := pending.counts.weight (Record.counts route)

/-- The requests of a route in the batch of a call. -/
def Answer.counts (route : String) : Answer → Nat
  | .taken (some batch) => batch.counts route
  | _ => 0

def takenCount (history : List (Call × Answer)) (route : String) : Nat :=
  (history.map fun label => label.2.counts route).sum

/-- A call for the route that was not refused. -/
def countedFor (route : String) : Call × Answer → Bool
  | (.record called _ _ _, .counted) => called == route
  | _ => false

def countedCalls (history : List (Call × Answer)) (route : String) : Nat := history.countP (countedFor route)

variable {lib : Libraries}

theorem popFirst_some {counts rest record} (popped : popFirst counts = some (record, rest)) :
    ∃ key, counts.get? key = some record ∧ rest = counts.erase key := by
  obtain ⟨key, _, popped⟩ := Option.bind_eq_some_iff.mp popped
  obtain ⟨found, there, popped⟩ := Option.bind_eq_some_iff.mp popped
  cases popped
  exact ⟨key, there, rfl⟩

/-- Records that are popped leave the buckets, and nothing else changes. -/
theorem popUpTo_spec (limit : Nat) (counts : Dict Key Record) :
    (popUpTo limit counts).1.length ≤ limit ∧
      (∀ record ∈ (popUpTo limit counts).1, ∃ key, counts.get? key = some record) ∧
      (popUpTo limit counts).2.Sub counts ∧
      ∀ measure : Record → Nat, (popUpTo limit counts).2.weight measure +
        ((popUpTo limit counts).1.map measure).sum = counts.weight measure := by
  induction limit generalizing counts with
  | zero => exact ⟨le_rfl, by simp [popUpTo], Dict.Sub.refl counts, fun measure => by simp [popUpTo]⟩
  | succ limit ih =>
      unfold popUpTo
      cases popped : popFirst counts with
      | none => exact ⟨Nat.zero_le _, by simp, Dict.Sub.refl counts, fun measure => by simp⟩
      | some result =>
          obtain ⟨record, rest⟩ := result
          obtain ⟨key, there, rfl⟩ := popFirst_some popped
          obtain ⟨few, known, smaller, balance⟩ := ih (counts.erase key)
          have sub := counts.erase_sub key
          refine ⟨Nat.succ_le_succ few, ?_, smaller.trans sub, fun measure => ?_⟩
          · intro other member
            rcases List.mem_cons.mp member with rfl | later
            · exact ⟨key, there⟩
            · obtain ⟨other, found⟩ := known other later
              exact ⟨other, sub _ _ found⟩
          · have removed := Dict.weight_remove measure there
            have rest := balance measure
            simp only [List.map_cons, List.sum_cons]
            omega

structure Sound (lib : Libraries) (history : List (Call × Answer)) (pending : Pending) : Prop where
  kept : ∀ key record, pending.counts.get? key = some record → Kept lib key record
  bounded : ∀ route, takenCount history route + pendingCount pending route ≤ countedCalls history route
  balanced : ∀ route, countedCalls history route < 2 ^ 63 →
    takenCount history route + pendingCount pending route = countedCalls history route
  warned : (∃ label ∈ history, label.2 = .refused) → pending.warning = true

theorem Sound.initial (lib : Libraries) (warning : Bool) : Sound lib [] (Pending.empty warning) where
  kept := by simp [Pending.empty]
  bounded := by simp [takenCount, pendingCount, countedCalls, Pending.empty, Dict.weight, Dict.values, Dict.empty]
  balanced := by simp [takenCount, pendingCount, countedCalls, Pending.empty, Dict.weight, Dict.values, Dict.empty]
  warned := by simp

theorem takenCount_snoc (history : List (Call × Answer)) (label : Call × Answer) (route : String) :
    takenCount (history ++ [label]) route = takenCount history route + label.2.counts route := by
  simp [takenCount]

theorem countedCalls_snoc (history : List (Call × Answer)) (label : Call × Answer) (route : String) :
    countedCalls (history ++ [label]) route =
      countedCalls history route + if countedFor route label then 1 else 0 := by
  simp [countedCalls, List.countP_append, List.countP_singleton]

variable {history : List (Call × Answer)} {pending : Pending}

theorem Sound.take (sound : Sound lib history pending) (id : String) :
    Sound lib (history ++ [(.take id, .taken (take pending id).2)]) (take pending id).1 := by
  have nobody (route : String) (answer : Answer) : countedFor route (.take id, answer) = false := rfl
  have unwarned (answer : Answer) (calm : answer ≠ .refused) :
      (∃ label ∈ history ++ [(Call.take id, answer)], label.2 = .refused) → pending.warning = true := by
    rintro ⟨label, member, refused⟩
    rcases mem_snoc.mp member with earlier | last
    · exact sound.warned ⟨label, earlier, refused⟩
    · rw [last] at refused
      exact absurd refused calm
  unfold Activity.take
  split
  · refine ⟨sound.kept, fun route => ?_, fun route few => ?_, unwarned _ (by simp)⟩
    · rw [takenCount_snoc, countedCalls_snoc, nobody]
      exact sound.bounded route
    · rw [countedCalls_snoc, nobody] at few
      rw [takenCount_snoc, countedCalls_snoc, nobody]
      exact sound.balanced route few
  · obtain ⟨_, _, smaller, balance⟩ := popUpTo_spec maxRecords pending.counts
    -- what leaves the buckets is in the batch
    have moved (route : String) : Answer.counts route (.taken (some
        ⟨2, id, pending.warning, (popUpTo maxRecords pending.counts).1⟩)) +
          pendingCount { pending with counts := (popUpTo maxRecords pending.counts).2 } route =
            pendingCount pending route := by
      have := balance (Record.counts route)
      simp only [Answer.counts, Batch.counts, pendingCount]
      omega
    refine ⟨fun key record found => sound.kept key record (smaller key record found), fun route => ?_,
      fun route few => ?_, unwarned _ (by simp)⟩
    · have before := sound.bounded route
      have now := moved route
      rw [takenCount_snoc, countedCalls_snoc, nobody, if_neg (by simp), Nat.add_assoc]
      simp only at now ⊢
      omega
    · rw [countedCalls_snoc, nobody, if_neg (by simp)] at few
      have before := sound.balanced route few
      have now := moved route
      rw [takenCount_snoc, countedCalls_snoc, nobody, if_neg (by simp), Nat.add_assoc]
      simp only at now ⊢
      omega

theorem counts_touch (record : Record) (host : String) (now : Int) (route : String) :
    (record.touch host now).counts route =
      if record.routeId = route then (min maxCount (record.count + 1)).toNat else 0 := by
  unfold Record.touch Record.counts
  simp only
  split <;> rfl

/-- The record that a request is counted in. -/
def Pending.slot (lib : Libraries) (pending : Pending) (route : String) (now : Int) (client : Option String) :
    Record :=
  (pending.counts.get? (bucket lib route now client)).getD
    ⟨route, 0, 0, "", client, client.map fun _ => now⟩

/-- The buckets with one request more. -/
def Pending.counted (lib : Libraries) (pending : Pending) (route host : String) (now : Int)
    (client : Option String) : Pending where
  counts := pending.counts.insert (bucket lib route now client)
    ((pending.slot lib route now client).touch host now)
  warning := pending.warning

section

variable (sound : Sound lib history pending)

include sound

theorem Sound.slot (route : String) (now : Int) (client : Option String) :
    (pending.slot lib route now client).routeId = route ∧
      0 ≤ (pending.slot lib route now client).count ∧
      (pending.slot lib route now client).count ≤ maxCount ∧
      (pending.slot lib route now client).count.toNat ≤ pendingCount pending route := by
  unfold Pending.slot
  cases found : pending.counts.get? (bucket lib route now client) with
  | none =>
      have limit : (0 : Int) ≤ maxCount := by decide
      exact ⟨rfl, le_rfl, limit, Nat.zero_le _⟩
  | some record =>
      have kept := sound.kept _ _ found
      have named : record.routeId = route := kept.route
      have removed := Dict.weight_remove (Record.counts route) found
      rw [Record.counts, if_pos named] at removed
      refine ⟨named, le_trans (by decide) kept.count.1, kept.count.2, ?_⟩
      rw [Option.getD_some, pendingCount]
      omega

/-- A request adds one to its route, unless its bucket is full. -/
theorem Sound.gain (route host : String) (now : Int)
    (client : Option String) (other : String) :
    pendingCount (pending.counted lib route host now client) other =
      pendingCount pending other +
        if route = other ∧ (pending.slot lib route now client).count < maxCount then 1 else 0 := by
  obtain ⟨named, positive, limit, _⟩ := sound.slot route now client
  have touched := counts_touch (pending.slot lib route now client) host now other
  rw [named] at touched
  have more : (min maxCount ((pending.slot lib route now client).count + 1)).toNat =
      (pending.slot lib route now client).count.toNat +
        if (pending.slot lib route now client).count < maxCount then 1 else 0 := by
    split <;> omega
  unfold pendingCount Pending.counted
  cases found : pending.counts.get? (bucket lib route now client) with
  | none =>
      have empty : (pending.slot lib route now client).count = 0 := by simp [Pending.slot, found]
      rw [Dict.weight_add _ found, touched, more, empty]
      by_cases same : route = other <;> simp [same]
  | some record =>
      have slot : pending.slot lib route now client = record := by simp [Pending.slot, found]
      rw [slot] at touched more named ⊢
      have replaced := Dict.weight_replace (Record.counts other) found (record.touch host now)
      rw [touched, more, Record.counts, named] at replaced
      by_cases same : route = other
      · simp only [same, if_true, true_and] at replaced ⊢
        omega
      · simp only [same, if_false, false_and] at replaced ⊢
        omega

theorem Sound.refuse (call : Call) :
    Sound lib (history ++ [(call, .refused)]) { pending with warning := true } := by
  have nobody (route : String) : countedFor route (call, .refused) = false := by cases call <;> rfl
  refine ⟨sound.kept, fun route => ?_, fun route few => ?_, fun _ => rfl⟩
  · rw [takenCount_snoc, countedCalls_snoc, nobody]
    exact sound.bounded route
  · rw [countedCalls_snoc, nobody] at few
    rw [takenCount_snoc, countedCalls_snoc, nobody]
    exact sound.balanced route few

theorem Sound.count {route host now client}
    (proper : Proper lib (.record route host now client)) :
    Sound lib (history ++ [(.record route host now client, .counted)])
      (pending.counted lib route host now client) := by
  have gain := sound.gain route host now client
  obtain ⟨_, _, _, held⟩ := sound.slot route now client
  have mine (other : String) : countedFor other (.record route host now client, .counted) =
      decide (route = other) := beq_eq_decide route other
  refine ⟨fun key record found => ?_, fun other => ?_, fun other few => ?_, fun refused => ?_⟩
  · rcases Dict.get?_of_insert found with ⟨rfl, rfl⟩ | ⟨_, old⟩
    · unfold Pending.slot
      cases there : pending.counts.get? (bucket lib route now client) with
      | none => exact fresh_kept proper
      | some old =>
          refine (sound.kept _ _ there).touch proper.2.1 proper.2.2.1 fun visit seen => ?_
          obtain ⟨_, _, rfl⟩ := Option.map_eq_some_iff.mp seen
          rfl
    · exact sound.kept key record old
  · have before := sound.bounded other
    rw [takenCount_snoc, countedCalls_snoc, mine, gain]
    simp only [Answer.counts, decide_eq_true_eq]
    by_cases same : route = other
    · simp only [same, true_and, if_true]
      split <;> omega
    · simp only [same, false_and, if_false]
      omega
  · rw [countedCalls_snoc, mine] at few
    have before := sound.balanced other (by omega)
    have bounded := sound.bounded route
    rw [takenCount_snoc, countedCalls_snoc, mine, gain]
    simp only [Answer.counts, decide_eq_true_eq] at few ⊢
    by_cases same : route = other
    · subst same
      -- a full bucket would already hold more requests than there were
      have room : (pending.slot lib route now client).count < maxCount := by
        rw [if_pos rfl] at few
        unfold maxCount
        omega
      rw [if_pos rfl, if_pos ⟨rfl, room⟩]
      omega
    · simp only [same, false_and, if_false]
      omega
  · obtain ⟨label, member, answer⟩ := refused
    rcases mem_snoc.mp member with earlier | last
    · exact sound.warned ⟨label, earlier, answer⟩
    · rw [last] at answer
      cases answer

theorem Sound.record {route host now client}
    (proper : Proper lib (.record route host now client)) :
    Sound lib (history ++ [(.record route host now client, (step lib pending (.record route host now client)).2)])
      (recordAtWithClient lib pending route host now client) := by
  unfold step recordAtWithClient
  simp only
  split
  · exact sound.refuse _
  · exact sound.count proper

end

theorem run_sound {warning} (run : Run (proper lib) (Pending.empty warning) history pending) :
    Sound lib history pending := by
  induction run with
  | start => exact .initial lib warning
  | @snoc history pending label after _ taken sound =>
      obtain ⟨call, answer⟩ := label
      obtain ⟨made, allowed⟩ := taken
      have made : step lib pending call = (after, answer) := made
      cases call with
      | record route host now client =>
          have next := sound.record allowed
          have same : recordAtWithClient lib pending route host now client = after := congrArg Prod.fst made
          rw [made, same] at next
          exact next
      | take id =>
          cases made
          exact sound.take id

/-- A batch that is taken passes the reader. -/
theorem Sound.batch (sound : Sound lib history pending) {id} (unique : lib.isUuid id = true) {batch}
    (taken : (Activity.take pending id).2 = some batch) :
    batchValid lib batch = true ∧ batch.coverageWarning = pending.warning := by
  unfold Activity.take at taken
  split at taken
  · cases taken
  · obtain rfl := Option.some.inj taken
    obtain ⟨few, known, _, _⟩ := popUpTo_spec maxRecords pending.counts
    refine ⟨?_, rfl⟩
    have valid : ∀ record ∈ (popUpTo maxRecords pending.counts).1, recordValid lib 2 record = true := by
      intro record member
      obtain ⟨key, found⟩ := known record member
      exact (sound.kept key record found).valid
    have records : (popUpTo maxRecords pending.counts).1.all (recordValid lib 2) = true :=
      List.all_eq_true.mpr valid
    simp [batchValid, unique, few, records]

/-- Batches are well formed and complete, up to the limit of a bucket. -/
theorem activity_is_complete {warning : Bool} (run : Run (proper lib) (Pending.empty warning) history pending) :
    (∀ earlier id batch later, history = earlier ++ (.take id, .taken (some batch)) :: later →
      batchValid lib batch = true ∧
        ((∃ label ∈ earlier, label.2 = .refused) → batch.coverageWarning = true)) ∧
    (∀ route, takenCount history route + pendingCount pending route ≤ countedCalls history route) ∧
    ∀ route, countedCalls history route < 2 ^ 63 →
      takenCount history route + pendingCount pending route = countedCalls history route := by
  have sound := run_sound run
  refine ⟨?_, sound.bounded, sound.balanced⟩
  rintro earlier id batch later rfl
  obtain ⟨before, after, prior, made, allowed⟩ := run.taken
  have there := run_sound prior
  have taken : (take before id).2 = some batch := Answer.taken.inj (congrArg Prod.snd made)
  obtain ⟨valid, flagged⟩ := there.batch allowed taken
  exact ⟨valid, fun refused => flagged.trans (there.warned refused)⟩

/-- Libraries that know one identifier and the first month. -/
def sampleLibraries : Libraries where
  parse := fun _ => none
  isUuid := fun id => id == "67e55044-10b1-426f-9247-bb680e5fe0c8"
  representable := fun _ => true
  month := fun _ => 197001

def sampleCall : Call := .record "r" "app.example" 0 none

theorem sampleCall_proper : Proper sampleLibraries sampleCall :=
  ⟨by decide, by decide, ⟨by decide, rfl⟩, by simp⟩

/-- Calls with proper arguments make a run. -/
theorem feed_proper {calls} (allowed : ∀ call ∈ calls, Proper lib call) (start : Pending) :
    Run (proper lib) start (feed (step lib) start calls).1 (feed (step lib) start calls).2 := by
  induction calls generalizing start with
  | nil => exact .start
  | cons call rest ih =>
      rw [List.forall_mem_cons] at allowed
      have first : Run (proper lib) start [(call, (step lib start call).2)] (step lib start call).1 :=
        .single ⟨rfl, allowed.1⟩
      exact first.trans (ih allowed.2 _)

/-- Two requests and a batch with both of them. -/
def sampleCalls : List Call := [sampleCall, sampleCall, .take "67e55044-10b1-426f-9247-bb680e5fe0c8"]

theorem two_requests_are_taken :
    takenCount (feed (step sampleLibraries) (Pending.empty false) sampleCalls).1 "r" +
      pendingCount (feed (step sampleLibraries) (Pending.empty false) sampleCalls).2 "r" = 2 := by
  have allowed : ∀ call ∈ sampleCalls, Proper sampleLibraries call := by
    simp only [sampleCalls, List.forall_mem_cons, List.not_mem_nil, false_implies, implies_true, and_true]
    have unique : sampleLibraries.isUuid "67e55044-10b1-426f-9247-bb680e5fe0c8" = true := by decide
    exact ⟨sampleCall_proper, sampleCall_proper, unique⟩
  have calls : countedCalls (feed (step sampleLibraries) (Pending.empty false) sampleCalls).1 "r" = 2 := by
    decide
  have complete := (activity_is_complete (feed_proper allowed (Pending.empty false))).2.2 "r"
  exact complete (by decide)

theorem saturating_succ (n : Nat) (limit : Int) :
    min limit (min (n : Int) limit + 1) = min ((n + 1 : Nat) : Int) limit := by
  omega

/-- The same request again and again. -/
theorem repeated_calls (n : Nat) : ∃ history pending,
    Run (proper sampleLibraries) (Pending.empty false) history pending ∧
      countedCalls history "r" = n ∧ takenCount history "r" = 0 ∧ pending.counts.len ≤ 1 ∧
      (pending.counts.len = 0 ∨ ∃ record, pending.counts.get? (bucket sampleLibraries "r" 0 none) = some record) ∧
      (pending.slot sampleLibraries "r" 0 none).count = min (n : Int) maxCount ∧
      pendingCount pending "r" = min n (2 ^ 63 - 1) := by
  induction n with
  | zero =>
      refine ⟨[], Pending.empty false, .start, rfl, rfl, Nat.zero_le _, .inl rfl, by decide, by decide⟩
  | succ n ih =>
      obtain ⟨history, pending, run, calls, taken, short, there, count, held⟩ := ih
      have sound := run_sound run
      have room : pending.refuses (bucket sampleLibraries "r" 0 none) = false := by
        have : ¬maxPending ≤ pending.counts.len := by
          unfold maxPending
          omega
        simp [Pending.refuses, this]
      have next : step sampleLibraries pending sampleCall =
          (pending.counted sampleLibraries "r" "app.example" 0 none, .counted) := by
        simp only [step, sampleCall, recordAtWithClient, room]
        rfl
      have bound : (pending.counted sampleLibraries "r" "app.example" 0 none).counts.get?
          (bucket sampleLibraries "r" 0 none) =
            some ((pending.slot sampleLibraries "r" 0 none).touch "app.example" 0) :=
        Dict.get?_insert_self _ _ _
      have counted : proper sampleLibraries pending (sampleCall, .counted)
          (pending.counted sampleLibraries "r" "app.example" 0 none) := ⟨next, sampleCall_proper⟩
      refine ⟨_, _, run.snoc counted, ?_, ?_, ?_, .inr ⟨_, bound⟩, ?_, ?_⟩
      · rw [countedCalls_snoc, calls]
        rfl
      · rw [takenCount_snoc, taken]
        rfl
      · rcases there with vacant | ⟨record, found⟩
        · have := pending.counts.len_insert_le (bucket sampleLibraries "r" 0 none)
            ((pending.slot sampleLibraries "r" 0 none).touch "app.example" 0)
          exact this.trans (by omega)
        · exact (Dict.len_insert_bound found _).trans_le short
      · rw [Pending.slot, bound, Option.getD_some]
        have touched : ((pending.slot sampleLibraries "r" 0 none).touch "app.example" 0).count =
            min maxCount ((pending.slot sampleLibraries "r" 0 none).count + 1) := by
          unfold Record.touch
          simp only
          split <;> rfl
        rw [touched, count]
        exact saturating_succ n maxCount
      · rw [sound.gain, held, count]
        simp only [true_and, maxCount]
        split <;> omega

theorem full_bucket_loses_a_request : ¬∀ history pending,
    Run (proper sampleLibraries) (Pending.empty false) history pending →
      ∀ route, takenCount history route + pendingCount pending route = countedCalls history route := by
  intro complete
  obtain ⟨history, pending, run, calls, taken, _, _, _, held⟩ := repeated_calls (2 ^ 63)
  have equal := complete history pending run "r"
  omega

end Counting

end PortHub.Runtime.Activity
