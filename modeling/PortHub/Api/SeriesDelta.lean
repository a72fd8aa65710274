import Mathlib.Data.List.MinMax
import PortHub.Lib.Dict
import PortHub.Lib.Runs

/-! # Deltas of traffic series

A chart asks again and again for a series and names the one it holds by its token. The
server keeps recent series under the token of their contents, answers with the difference
when it still has the named one, and with the whole series otherwise. The numbers of a
sample are only compared; the digest is a parameter.
-/

namespace PortHub.Api.TrafficSeries

open Runs

structure Sample (ν : Type) where
  timestamp : Nat
  intervalSeconds : ν
  inBytes : ν
  outBytes : ν
  dropBytes : ν
  inRate : ν
  outRate : ν
  dropRate : ν
  deriving DecidableEq

/-- `size_of::<Sample>()`: a `u64` and seven `f64`. -/
def sampleSize : Nat := 64

structure SeriesFrame (ν : Type) where
  context : String
  samples : List (Sample ν)
  used : Nat

structure SeriesCache (ν : Type) where
  frames : Dict String (SeriesFrame ν)
  bytes : Nat

/-- `SeriesCache::default`. -/
def SeriesCache.new {ν : Type} : SeriesCache ν := ⟨.empty, 0⟩

structure SeriesDelta (ν : Type) where
  points : List (Sample ν)
  removed : List Nat
  token : String
  replace : Bool

/-- A call, the two readings of the clock in it, and the order in which the hash map shows
    its entries. -/
structure Call (ν : Type) where
  context : String
  previous : String
  samples : List (Sample ν)
  readAt : Nat
  storedAt : Nat
  iterate : List (String × SeriesFrame ν) → List (String × SeriesFrame ν)

section Server

variable {ν : Type} [DecidableEq ν] (digest : String → List (Sample ν) → String)

def SeriesCache.remove (cache : SeriesCache ν) (key : String) : SeriesCache ν :=
  match cache.frames.get? key with
  | some frame =>
      { frames := cache.frames.erase key, bytes := cache.bytes - frame.samples.length * sampleSize }
  | none => cache

def SeriesCache.crowded (cache : SeriesCache ν) : Bool :=
  512 < cache.frames.len || 8 * 1024 * 1024 < cache.bytes

/-- The loop that evicts. It takes a frame away each time, so as many rounds as there are
    frames are enough. -/
def SeriesCache.evict (iterate : List (String × SeriesFrame ν) → List (String × SeriesFrame ν)) :
    Nat → SeriesCache ν → SeriesCache ν
  | 0, cache => cache
  | rounds + 1, cache =>
      if cache.crowded then
        match (iterate cache.frames.entries).argmin fun entry => entry.2.used with
        | some (key, _) => SeriesCache.evict iterate rounds (cache.remove key)
        | none => cache
      else cache

/-- The frame named by the call, under its own context. -/
def SeriesCache.base (cache : SeriesCache ν) (call : Call ν) : Option (SeriesFrame ν) :=
  (cache.frames.get? call.previous).filter fun frame => frame.context = call.context

def SeriesCache.touch (cache : SeriesCache ν) (call : Call ν) : SeriesCache ν :=
  (cache.base call).elim cache fun frame =>
    { cache with frames := cache.frames.insert call.previous { frame with used := call.readAt } }

def SeriesCache.store (cache : SeriesCache ν) (token : String) (call : Call ν) : SeriesCache ν :=
  match cache.frames.get? token with
  | some frame => { cache with frames := cache.frames.insert token { frame with used := call.storedAt } }
  | none =>
      { bytes := cache.bytes + call.samples.length * sampleSize
        frames := cache.frames.insert token ⟨call.context, call.samples, call.storedAt⟩ }

/-- The sample of a time: a later one of the same time replaces it in the map. -/
def byTime (samples : List (Sample ν)) (time : Nat) : Option (Sample ν) :=
  samples.reverse.find? fun sample => sample.timestamp = time

def seriesDelta (cache : SeriesCache ν) (call : Call ν) : SeriesCache ν × SeriesDelta ν :=
  let token := digest call.context call.samples
  let old := (cache.base call).map SeriesFrame.samples
  let points := call.samples.filter fun sample =>
    (old.bind (byTime · sample.timestamp)).all fun previous => previous ≠ sample
  let times := call.samples.map Sample.timestamp
  let removed := ((old.getD []).filter fun sample => sample.timestamp ∉ times).map Sample.timestamp
  let cache := (cache.touch call).store token call
  (cache.evict call.iterate cache.frames.len, ⟨points, removed, token, old.isNone⟩)

end Server

/-! ## The client -/

section Client

variable {ν : Type}

/-- What the client does with an answer to the series it named. -/
def SeriesDelta.apply (delta : SeriesDelta ν) (series : List (Sample ν)) : List (Sample ν) :=
  if delta.replace then delta.points
  else
    (series.filter fun sample =>
      sample.timestamp ∉ delta.removed ∧ sample.timestamp ∉ delta.points.map Sample.timestamp) ++ delta.points

/-- At most one sample for each time. -/
def Timed (samples : List (Sample ν)) : Prop := (samples.map Sample.timestamp).Nodup

instance (samples : List (Sample ν)) : Decidable (Timed samples) := inferInstanceAs (Decidable (List.Nodup _))

variable {old samples series : List (Sample ν)} {sample : Sample ν}

theorem Timed.unique (timed : Timed samples) {other} (first : sample ∈ samples)
    (second : other ∈ samples) (same : sample.timestamp = other.timestamp) : sample = other :=
  List.inj_on_of_nodup_map timed first second same

theorem Timed.byTime (timed : Timed samples) (time : Nat) :
    byTime samples time = some sample ↔ sample ∈ samples ∧ sample.timestamp = time := by
  unfold TrafficSeries.byTime
  constructor
  · intro found
    exact ⟨List.mem_reverse.mp (List.mem_of_find?_eq_some found), by simpa using List.find?_some found⟩
  · rintro ⟨member, rfl⟩
    cases found : samples.reverse.find? fun other => decide (other.timestamp = sample.timestamp) with
    | none =>
        have absent := List.find?_eq_none.mp found sample (List.mem_reverse.mpr member)
        simp at absent
    | some other =>
        have inside : other ∈ samples := List.mem_reverse.mp (List.mem_of_find?_eq_some found)
        have same : other.timestamp = sample.timestamp := by simpa using List.find?_some found
        rw [timed.unique inside member same]

theorem Timed.perm (timed : Timed samples) (same : series.Perm samples) : Timed series :=
  (same.map Sample.timestamp).nodup_iff.mpr timed

variable [DecidableEq ν]

/-- The difference of two series, as the server forms it. -/
def difference (old samples : List (Sample ν)) : List (Sample ν) × List Nat :=
  (samples.filter fun sample => (byTime old sample.timestamp).all fun previous => previous ≠ sample,
    (old.filter fun sample => sample.timestamp ∉ samples.map Sample.timestamp).map Sample.timestamp)

theorem mem_points (timed : Timed old) :
    sample ∈ (difference old samples).1 ↔ sample ∈ samples ∧ sample ∉ old := by
  simp only [difference, List.mem_filter, Option.all_eq_true, decide_eq_true_eq]
  refine and_congr_right fun _ => ?_
  constructor
  · intro changed member
    exact changed sample ((timed.byTime _).mpr ⟨member, rfl⟩) rfl
  · intro absent previous found same
    exact absent (same ▸ ((timed.byTime _).mp found).1)

theorem mem_removed {time} :
    time ∈ (difference old samples).2 ↔
      time ∈ old.map Sample.timestamp ∧ time ∉ samples.map Sample.timestamp := by
  simp only [difference, List.mem_map, List.mem_filter, decide_eq_true_eq]
  constructor
  · rintro ⟨sample, ⟨member, gone⟩, rfl⟩
    exact ⟨⟨sample, member, rfl⟩, gone⟩
  · rintro ⟨⟨sample, member, rfl⟩, gone⟩
    exact ⟨sample, ⟨member, gone⟩, rfl⟩

/-- Applied to the old series, the difference gives the new one. -/
theorem apply_difference (token : String) (oldTimed : Timed old) (timed : Timed samples)
    (held : series.Perm old) :
    (SeriesDelta.apply ⟨(difference old samples).1, (difference old samples).2, token, false⟩ series).Perm
      samples := by
  have seriesTimed := oldTimed.perm held
  have kept : ∀ sample, sample ∈ series.filter (fun sample =>
      decide (sample.timestamp ∉ (difference old samples).2 ∧
        sample.timestamp ∉ (difference old samples).1.map Sample.timestamp)) ↔
          sample ∈ old ∧ sample ∈ samples := by
    intro sample
    rw [List.mem_filter, held.mem_iff, decide_eq_true_eq]
    refine and_congr_right fun member => ?_
    constructor
    · rintro ⟨stays, unchanged⟩
      have listed : sample.timestamp ∈ samples.map Sample.timestamp := by
        by_contra gone
        exact stays (mem_removed.mpr ⟨List.mem_map_of_mem member, gone⟩)
      obtain ⟨other, inside, same⟩ := List.mem_map.mp listed
      have before : other ∈ old := by
        by_contra absent
        exact unchanged (List.mem_map.mpr ⟨other, (mem_points oldTimed).mpr ⟨inside, absent⟩, same⟩)
      rwa [← oldTimed.unique before member same]
    · intro inside
      refine ⟨fun removed => (mem_removed.mp removed).2 (List.mem_map_of_mem inside), fun changed => ?_⟩
      obtain ⟨other, point, same⟩ := List.mem_map.mp changed
      obtain ⟨new, absent⟩ := (mem_points oldTimed).mp point
      exact absent (timed.unique new inside same ▸ member)
  refine (List.perm_ext_iff_of_nodup ?_ (List.Nodup.of_map _ timed)).mpr fun sample => ?_
  · refine List.nodup_append'.mpr ⟨(List.Nodup.of_map _ seriesTimed).filter _, (List.Nodup.of_map _ timed).filter _, ?_⟩
    intro sample inKept inPoints
    exact ((mem_points oldTimed).mp inPoints).2 ((kept sample).mp inKept).1
  · rw [SeriesDelta.apply, if_neg (by simp), List.mem_append, kept, mem_points oldTimed]
    tauto

end Client

/-! ## The cache -/

section Cache

variable {ν : Type} {digest : String → List (Sample ν) → String}
variable {cache : SeriesCache ν}

def SeriesFrame.size (frame : SeriesFrame ν) : Nat := frame.samples.length * sampleSize

/-- The byte count is right, and every frame is what a call stored under its token. -/
structure SeriesCache.Kept (digest : String → List (Sample ν) → String) (stored : String → List (Sample ν) → Prop)
    (cache : SeriesCache ν) : Prop where
  bytes : cache.bytes = cache.frames.weight SeriesFrame.size
  named : ∀ key frame, cache.frames.get? key = some frame →
    key = digest frame.context frame.samples ∧ stored frame.context frame.samples

variable {stored : String → List (Sample ν) → Prop}

theorem SeriesCache.Kept.mono {more : String → List (Sample ν) → Prop} (kept : cache.Kept digest stored)
    (wider : ∀ context samples, stored context samples → more context samples) : cache.Kept digest more where
  bytes := kept.bytes
  named key frame found := ⟨(kept.named key frame found).1, wider _ _ (kept.named key frame found).2⟩

/-- Another time of use changes neither the sizes nor the contents. -/
theorem SeriesCache.Kept.used (kept : cache.Kept digest stored) {key frame}
    (found : cache.frames.get? key = some frame) (time : Nat) :
    SeriesCache.Kept digest stored
      { cache with frames := cache.frames.insert key { frame with used := time } } where
  bytes := by
    have replaced := Dict.weight_replace SeriesFrame.size found { frame with used := time }
    have same : SeriesFrame.size { frame with used := time } = frame.size := rfl
    have bytes := kept.bytes
    dsimp only
    omega
  named := by
    intro other value bound
    rcases Dict.get?_of_insert bound with ⟨rfl, rfl⟩ | ⟨_, bound⟩
    · exact kept.named _ frame found
    · exact kept.named other value bound

theorem SeriesCache.Kept.touch (kept : cache.Kept digest stored) (call : Call ν) :
    (cache.touch call).Kept digest stored := by
  unfold SeriesCache.touch
  cases based : cache.base call with
  | none => exact kept
  | some frame => exact kept.used (Option.filter_eq_some_iff.mp based).1 _

theorem SeriesCache.Kept.store (kept : cache.Kept digest stored) {call : Call ν}
    (here : stored call.context call.samples) :
    (cache.store (digest call.context call.samples) call).Kept digest stored := by
  unfold SeriesCache.store
  split
  · exact kept.used (by assumption) _
  · rename_i absent
    refine ⟨?_, fun key frame bound => ?_⟩
    · dsimp only
      rw [Dict.weight_add _ absent, ← kept.bytes]
      rfl
    · rcases Dict.get?_of_insert bound with ⟨rfl, rfl⟩ | ⟨_, bound⟩
      · exact ⟨rfl, here⟩
      · exact kept.named key frame bound

theorem SeriesCache.Kept.remove (kept : cache.Kept digest stored) (key : String) :
    (cache.remove key).Kept digest stored := by
  unfold SeriesCache.remove
  split
  · rename_i frame found
    refine ⟨?_, fun other value bound => kept.named other value (Dict.get?_of_erase bound).2⟩
    have removed := Dict.weight_remove SeriesFrame.size found
    have bytes := kept.bytes
    have size : frame.size = frame.samples.length * sampleSize := rfl
    dsimp only
    omega
  · exact kept

theorem SeriesCache.Kept.evict (kept : cache.Kept digest stored)
    (iterate : List (String × SeriesFrame ν) → List (String × SeriesFrame ν)) (rounds : Nat) :
    (cache.evict iterate rounds).Kept digest stored := by
  induction rounds generalizing cache with
  | zero => exact kept
  | succ rounds ih =>
      unfold SeriesCache.evict
      split
      · split
        · exact ih (kept.remove _)
        · exact kept
      · exact kept

/-- An empty cache is never crowded. -/
theorem SeriesCache.Kept.not_crowded (kept : cache.Kept digest stored) (none : cache.frames.entries = []) :
    cache.crowded = false := by
  have bytes : cache.bytes = 0 := by simp [kept.bytes, Dict.weight, Dict.values, none]
  simp [SeriesCache.crowded, Dict.len, none, bytes]

theorem remove_len {key frame} (found : cache.frames.get? key = some frame) :
    (cache.remove key).frames.len + 1 = cache.frames.len := by
  have removed := Dict.weight_remove (fun _ => 1) found
  rw [← Dict.len_eq_weight, ← Dict.len_eq_weight] at removed
  simpa only [SeriesCache.remove, found] using removed

/-- The loop ends with a cache within its bounds. -/
theorem SeriesCache.Kept.evicted (kept : cache.Kept digest stored)
    {iterate : List (String × SeriesFrame ν) → List (String × SeriesFrame ν)}
    (shows : ∀ entries, (iterate entries).Perm entries) {rounds}
    (enough : cache.frames.len ≤ rounds) :
    (cache.evict iterate rounds).crowded = false := by
  induction rounds generalizing cache with
  | zero => exact kept.not_crowded (List.length_eq_zero_iff.mp (Nat.le_zero.mp enough))
  | succ rounds ih =>
      unfold SeriesCache.evict
      split
      · rename_i crowded
        split
        · rename_i key frame least
          have member : (key, frame) ∈ cache.frames.entries :=
            (shows _).mem_iff.mp (List.argmin_mem least)
          have fewer := remove_len (Dict.get?_eq_some_iff.mpr member)
          exact ih (kept.remove key) (by omega)
        · rename_i least
          have empty := shows cache.frames.entries
          rw [List.argmin_eq_none.mp least] at empty
          exact kept.not_crowded empty.symm.eq_nil
      · rename_i room
        simpa using room

end Cache

/-! ## Sequences of calls -/

section Calls

variable {ν : Type} {digest : String → List (Sample ν) → String}

/-- The calls before one. -/
def Before (history : List (Call ν × SeriesDelta ν)) (event : Call ν × SeriesDelta ν)
    (before : List (Call ν × SeriesDelta ν)) : Prop := ∃ later, history = before ++ event :: later

theorem Before.of_mem {history : List (Call ν × SeriesDelta ν)} {event : Call ν × SeriesDelta ν}
    (member : event ∈ history) : ∃ before, Before history event before := by
  obtain ⟨before, later, split⟩ := List.append_of_mem member
  exact ⟨before, later, split⟩

variable [DecidableEq ν]

/-- One call and its answer. The given samples have distinct times, and a hash map shows all
    its entries in some order. -/
def Serves (digest : String → List (Sample ν) → String) (cache : SeriesCache ν)
    (event : Call ν × SeriesDelta ν) (after : SeriesCache ν) : Prop :=
  seriesDelta digest cache event.1 = (after, event.2) ∧ Timed event.1.samples ∧
    ∀ entries, (event.1.iterate entries).Perm entries

/-- A call of the history gave these samples under this context. -/
def Given (history : List (Call ν × SeriesDelta ν)) (context : String) (samples : List (Sample ν)) : Prop :=
  ∃ event ∈ history, event.1.context = context ∧ event.1.samples = samples

/-- What a client holds that has followed the answers of a context up to this token, and the
    samples that were given to the call of its last answer. -/
inductive Holds (history : List (Call ν × SeriesDelta ν)) (context : String) :
    String → List (Sample ν) → List (Sample ν) → Prop where
  | replaced {event} : event ∈ history → event.1.context = context → event.2.replace = true →
      Holds history context event.2.token event.1.samples (event.2.apply [])
  | updated {event given series} : event ∈ history → event.1.context = context → event.2.replace = false →
      Holds history context event.1.previous given series →
      Holds history context event.2.token event.1.samples (event.2.apply series)

/-- What an answer is. -/
structure Answered (digest : String → List (Sample ν) → String) (before : List (Call ν × SeriesDelta ν))
    (call : Call ν) (delta : SeriesDelta ν) : Prop where
  token : delta.token = digest call.context call.samples
  whole : delta.replace = true → delta.points = call.samples
  /-- The difference is to samples that were given under the context of the call. -/
  differs : delta.replace = false → ∃ old, Given before call.context old ∧
    digest call.context old = call.previous ∧ (delta.points, delta.removed) = difference old call.samples

theorem seriesDelta_answered {before} {cache : SeriesCache ν}
    (kept : cache.Kept digest (Given before)) (call : Call ν) :
    Answered digest before call (seriesDelta digest cache call).2 where
  token := rfl
  whole := by
    cases based : cache.base call with
    | none | some frame => simp [seriesDelta, based]
  differs := by
    cases based : cache.base call with
    | none => simp [seriesDelta, based]
    | some frame =>
        intro _
        obtain ⟨found, context⟩ := Option.filter_eq_some_iff.mp based
        have context : frame.context = call.context := by simpa using context
        obtain ⟨named, given⟩ := kept.named _ frame found
        rw [context] at named given
        exact ⟨frame.samples, given, named.symm, by simp [seriesDelta, based, difference]⟩

theorem Serves.kept {history} {cache : SeriesCache ν} {after event}
    (kept : cache.Kept digest (Given history)) (served : Serves digest cache event after) :
    after.Kept digest (Given (history ++ [event])) ∧ after.crowded = false := by
  obtain ⟨result, _, shows⟩ := served
  have more : cache.Kept digest (Given (history ++ [event])) :=
    kept.mono fun _ _ ⟨earlier, member, given⟩ => ⟨earlier, List.mem_append_left _ member, given⟩
  have given : Given (history ++ [event]) event.1.context event.1.samples :=
    ⟨event, List.mem_append_right _ (List.mem_singleton.mpr rfl), rfl, rfl⟩
  have stored := (more.touch event.1).store given
  obtain rfl : (seriesDelta digest cache event.1).1 = after := by rw [result]
  exact ⟨stored.evict _ _, stored.evicted shows (le_refl _)⟩

theorem run_kept {history cache} (run : Run (Serves digest) .new history cache) :
    cache.Kept digest (Given history) ∧ cache.crowded = false ∧
      ∀ event before, Before history event before →
        Answered digest before event.1 event.2 ∧ Timed event.1.samples := by
  refine @Run.historyInvariant _ _ _ _ (fun history (cache : SeriesCache ν) =>
    cache.Kept digest (Given history) ∧ cache.crowded = false ∧
      ∀ event before, Before history event before →
        Answered digest before event.1 event.2 ∧ Timed event.1.samples) ?_ ?_ _ _ run
  · refine ⟨⟨rfl, fun key frame found => ?_⟩, rfl, fun event before ⟨later, split⟩ => ?_⟩
    · cases found
    · cases before <;> cases split
  · intro history cache event after _ ⟨kept, _, answered⟩ served
    obtain ⟨keptAfter, room⟩ := Serves.kept kept served
    refine ⟨keptAfter, room, fun other before ⟨later, split⟩ => ?_⟩
    rcases split_snoc split with ⟨rfl, rfl, _⟩ | ⟨rest, _, whole⟩
    · refine ⟨?_, served.2.1⟩
      have answer := seriesDelta_answered kept event.1
      rwa [served.1] at answer
    · exact answered other before ⟨rest, whole⟩

/-- A client that follows the answers holds what was given, a difference is only ever to
    samples of the same context, and the cache keeps its bounds and its byte count. -/
theorem series_are_exact {history : List (Call ν × SeriesDelta ν)} {cache : SeriesCache ν}
    (run : Run (Serves digest) .new history cache)
    (collisionFree : ∀ one ∈ history, ∀ other ∈ history,
      digest one.1.context one.1.samples = digest other.1.context other.1.samples →
        one.1.context = other.1.context ∧ one.1.samples = other.1.samples) :
    (∀ context token given series, Holds history context token given series → series.Perm given) ∧
    (∀ event before, Before history event before → event.2.replace = false →
      ∃ earlier ∈ before, earlier.1.context = event.1.context ∧ earlier.2.token = event.1.previous ∧
        (event.2.points, event.2.removed) = difference earlier.1.samples event.1.samples) ∧
    cache.frames.len ≤ 512 ∧ cache.bytes ≤ 8 * 1024 * 1024 ∧
      cache.bytes = cache.frames.weight fun frame => frame.samples.length * sampleSize := by
  obtain ⟨kept, room, answered⟩ := run_kept run
  have answeredAt : ∀ event ∈ history, ∃ before, Answered digest before event.1 event.2 ∧
      Timed event.1.samples := by
    intro event member
    obtain ⟨before, split⟩ := Before.of_mem member
    exact ⟨before, answered event before split⟩
  refine ⟨?_, ?_, ?_, ?_, kept.bytes⟩
  · intro context token given series holds
    have exact : series.Perm given ∧ token = digest context given ∧ Timed given ∧
        Given history context given := by
      induction holds with
      | @replaced event member here whole =>
          obtain ⟨before, answer, timed⟩ := answeredAt event member
          refine ⟨?_, here ▸ answer.token, timed, event, member, here, rfl⟩
          rw [SeriesDelta.apply, if_pos whole, answer.whole whole]
      | @updated event given series member here part _ ih =>
          obtain ⟨before, split⟩ := Before.of_mem member
          obtain ⟨answer, timed⟩ := answered event before split
          obtain ⟨held, token, oldTimed, one, oneMember, oneHere, rfl⟩ := ih
          obtain ⟨old, ⟨other, otherMember, otherHere, rfl⟩, named, points⟩ := answer.differs part
          have inside : other ∈ history := by
            obtain ⟨later, rfl⟩ := split
            exact List.mem_append_left _ otherMember
          have same := (collisionFree other inside one oneMember (by
            rw [otherHere, named, token, oneHere])).2
          refine ⟨?_, here ▸ answer.token, timed, event, member, here, rfl⟩
          have applied := apply_difference event.2.token oldTimed timed held
          rw [same] at points
          rw [← points] at applied
          rwa [← part] at applied
    exact exact.1
  · intro event before split part
    obtain ⟨old, ⟨earlier, member, here, rfl⟩, named, points⟩ := (answered event before split).1.differs part
    obtain ⟨later, rfl⟩ := split
    obtain ⟨first, answer, _⟩ := answeredAt earlier (List.mem_append_left _ member)
    exact ⟨earlier, member, here, by rw [answer.token, here, named], points⟩
  · have few := (Bool.or_eq_false_iff.mp room).1
    simpa using few
  · have small := (Bool.or_eq_false_iff.mp room).2
    simpa using small

/-- A digest of the two series of the example. -/
def exampleDigest (_ : String) (samples : List (Sample Nat)) : String :=
  if samples.any fun sample => sample.timestamp == 10 then "one" else "two"

def exampleSample (time bytes : Nat) : Sample Nat := ⟨time, 1, bytes, 0, 0, bytes, 0, 0⟩

def exampleCalls : List (Call Nat) :=
  [⟨"web", "", [exampleSample 10 5, exampleSample 11 2], 1, 1, id⟩,
    ⟨"web", "one", [exampleSample 11 2, exampleSample 12 7], 2, 2, id⟩]

def exampleAnswers : List (SeriesDelta Nat) :=
  [⟨[exampleSample 10 5, exampleSample 11 2], [], "one", true⟩, ⟨[exampleSample 12 7], [10], "two", false⟩]

/-- A client applies the second answer to the series that the first one gave it. -/
theorem second_answer_is_a_difference :
    let history := exampleCalls.zip exampleAnswers
    let cache := (feed (seriesDelta exampleDigest) .new exampleCalls).2
    Run (Serves exampleDigest) .new history cache ∧
      (SeriesDelta.apply ⟨[exampleSample 12 7], [10], "two", false⟩
        [exampleSample 10 5, exampleSample 11 2]).Perm [exampleSample 11 2, exampleSample 12 7] ∧
      cache.frames.len ≤ 512 := by
  intro history cache
  have run : Run (Serves exampleDigest) .new history cache :=
    .snoc (.snoc .start ⟨rfl, by decide, fun _ => .refl _⟩) ⟨rfl, by decide, fun _ => .refl _⟩
  have held : Holds history "web" "two" [exampleSample 11 2, exampleSample 12 7]
      (SeriesDelta.apply ⟨[exampleSample 12 7], [10], "two", false⟩
        [exampleSample 10 5, exampleSample 11 2]) :=
    .updated (List.mem_cons_of_mem _ List.mem_cons_self) rfl rfl (.replaced List.mem_cons_self rfl rfl)
  have exact := series_are_exact run (by decide)
  exact ⟨run, exact.1 "web" "two" _ _ held, exact.2.2.1⟩

end Calls

end PortHub.Api.TrafficSeries
