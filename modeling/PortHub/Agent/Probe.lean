import PortHub.Lib.Dict
import PortHub.Rust

/-! # Measured paths

An agent measures the throughput and the delay of its direct path to a peer and
of the path through the gateway. A fresh pair of scores may override the default
path. The comparison of the throughputs leaves a margin of a fifth, but not for
scores near zero or near the largest number.
-/

namespace PortHub.Agent.Probe

/-- `Duration`, in nanoseconds. -/
structure Duration where
  nanos : Nat
  bounded : nanos < 2 ^ 64 * 1000000000
  deriving DecidableEq

def Duration.ofSeconds (n : UInt64) : Duration := ⟨seconds n.toNat, by
  have small := n.toNat_lt
  unfold seconds
  omega⟩

def Duration.saturatingAdd (a : Duration) (nanos : Nat) : Nat :=
  min (a.nanos + nanos) (2 ^ 64 * 1000000000 - 1)

/-- Instants are nanoseconds of a clock. -/
structure Score where
  bitsPerSecond : UInt64
  rtt : Duration
  measuredAt : Nat
  deriving DecidableEq

/-- `[Option<Score>; 2]`, indexed by whether the path is direct. -/
structure Scores where
  gateway : Option Score
  direct : Option Score
  deriving DecidableEq

structure Key where
  peer : String
  direct : Bool
  nonce : UInt64
  deriving DecidableEq

/-- The probes that are under way, by when they started, and the scores. -/
structure Quality where
  pending : Dict Key Nat
  scores : Dict String Scores
  nextAllowed : Dict (String × Bool) Nat

def Quality.new : Quality := ⟨.empty, .empty, .empty⟩

def scoreTtl : Nat := seconds 600

def probeInterval : Nat := seconds 120

def probeTimeout : Duration := .ofSeconds 5

def maxPeers : Nat := 4096

def margin : Nat := 10000000

namespace Scores

def get (scores : Scores) (direct : Bool) : Option Score := if direct then scores.direct else scores.gateway

def set (scores : Scores) (direct : Bool) (score : Option Score) : Scores :=
  if direct then { scores with direct := score } else { scores with gateway := score }

/-- Scores that are too old are dropped. -/
def expire (now : Nat) (scores : Scores) : Scores :=
  let kept (score : Option Score) := score.filter fun score => decide (now - score.measuredAt ≤ scoreTtl)
  ⟨kept scores.gateway, kept scores.direct⟩

def isEmpty (scores : Scores) : Bool := scores.gateway.isNone && scores.direct.isNone

def swap (scores : Scores) : Scores := ⟨scores.direct, scores.gateway⟩

end Scores

namespace Quality

-- How `mul_f64` weighs the old delay against the new one.
variable (smooth : Duration → Duration → Duration)

def dropStale (now : Nat) (scores : Dict String Scores) : Dict String Scores :=
  scores.filterMap fun _ values =>
    let values := values.expire now
    if values.isEmpty then none else some values

def observe (quality : Quality) (peer : String) (direct : Bool) (next : Score) : Quality :=
  let scores := (quality.scores.get? peer).getD ⟨none, none⟩
  let score := (scores.get direct).getD next
  let score : Score :=
    { bitsPerSecond := UInt64.ofNat (min (score.bitsPerSecond.toNat * 3) (2 ^ 64 - 1) / 4
        + next.bitsPerSecond.toNat / 4)
      rtt := smooth score.rtt next.rtt
      measuredAt := next.measuredAt }
  let all := quality.scores.insert peer (scores.set direct (some score))
  { quality with scores := if maxPeers < all.len then dropStale next.measuredAt all else all }

/-- `start`, without the frames that it returns. -/
def start (quality : Quality) (peer : String) (direct : Bool) (nonce : UInt64) (now : Nat) : Quality :=
  if (quality.nextAllowed.get? (peer, direct)).any fun due => decide (now < due) then quality
  else if quality.pending.contains ⟨peer, direct, nonce⟩ || decide (maxPeers ≤ quality.pending.len) then
    quality
  else
    { quality with
      nextAllowed := quality.nextAllowed.insert (peer, direct) (now + probeInterval)
      pending := quality.pending.insert ⟨peer, direct, nonce⟩ now }

/-- A probe that timed out counts as a path without any throughput. -/
def fail (now : Nat) (quality : Quality) (key : Key) : Quality :=
  let quality := { quality with pending := quality.pending.erase key }
  let quality := quality.observe smooth key.peer key.direct ⟨0, probeTimeout, now⟩
  { quality with nextAllowed := quality.nextAllowed.insert (key.peer, key.direct) (now + seconds 15) }

/-- `expire`, without the answers to the probes of others. -/
def expire (quality : Quality) (now : Nat) : Quality :=
  let failed := (quality.pending.entries.filter fun entry =>
    decide (probeTimeout.nanos < now - entry.2)).map Prod.fst
  let quality := failed.foldl (fail smooth now) quality
  { quality with
    nextAllowed := quality.nextAllowed.retain fun _ due => decide (now < due)
    scores := dropStale now quality.scores }

end Quality

/-- `bits_per_second.saturating_mul(6) / 5`. -/
def raised (bits : UInt64) : Nat := min (bits.toNat * 6) (2 ^ 64 - 1) / 5

/-- Which of two fresh scores is better, if either. -/
def compare (peer gateway : Score) : Option Bool :=
  if raised gateway.bitsPerSecond ≤ peer.bitsPerSecond.toNat then some true
  else if raised peer.bitsPerSecond ≤ gateway.bitsPerSecond.toNat then some false
  else if peer.rtt.saturatingAdd margin < gateway.rtt.nanos then some true
  else if gateway.rtt.saturatingAdd margin < peer.rtt.nanos then some false
  else none

def fresh (now : Nat) (score : Option Score) : Option Score :=
  score.filter fun score => decide (now - score.measuredAt ≤ scoreTtl)

namespace Quality

def preferPeer (quality : Quality) (peer : String) (default : Bool) (now : Nat) : Bool :=
  match quality.scores.get? peer with
  | none => default
  | some scores =>
      match fresh now scores.direct, fresh now scores.gateway with
      | some direct, some gateway => (compare direct gateway).getD default
      | _, _ => default

/-- The scores of a peer exchanged. -/
def exchange (quality : Quality) (peer : String) : Quality :=
  match quality.scores.get? peer with
  | none => quality
  | some scores => { quality with scores := quality.scores.insert peer scores.swap }

/-- Evidence for one path is evidence against it once the scores are exchanged,
    and equal scores are no evidence. -/
structure Fair (quality : Quality) (peer : String) (now : Nat) : Prop where
  exchanged : ∀ value, (∀ default, quality.preferPeer peer default now = value) →
    ∀ default, (quality.exchange peer).preferPeer peer default now = !value
  equal : ∀ scores direct gateway, quality.scores.get? peer = some scores →
    fresh now scores.direct = some direct → fresh now scores.gateway = some gateway →
    direct.bitsPerSecond = gateway.bitsPerSecond → direct.rtt = gateway.rtt →
    ∀ default, quality.preferPeer peer default now = default

/-- Both throughputs reach each other with the margin on top: they are equal and
    at most four, or both so large that the product saturates. -/
def Edge (direct gateway : UInt64) : Prop :=
  (direct = gateway ∧ direct.toNat ≤ 4) ∨
    ((2 ^ 64 - 1) / 5 ≤ direct.toNat ∧ (2 ^ 64 - 1) / 5 ≤ gateway.toNat)

end Quality

section Compare

variable {direct gateway : Score}

/-- Each throughput reaches the other with the margin on top only at the edges. -/
theorem raised_both_iff (a b : UInt64) :
    (raised b ≤ a.toNat ∧ raised a ≤ b.toNat) ↔ Quality.Edge a b := by
  have left := a.toNat_lt
  have right := b.toNat_lt
  unfold raised Quality.Edge
  rw [← UInt64.toNat_inj]
  omega

/-- A delay that is better by the margin is not worse by it. -/
theorem saturatingAdd_asymm {a b : Duration} (better : a.saturatingAdd margin < b.nanos) :
    ¬b.saturatingAdd margin < a.nanos := by
  have := a.bounded
  have := b.bounded
  unfold Duration.saturatingAdd at better ⊢
  omega

theorem compare_edge (edge : Quality.Edge direct.bitsPerSecond gateway.bitsPerSecond) :
    compare direct gateway = some true := by
  unfold compare
  rw [if_pos ((raised_both_iff _ _).mpr edge).1]

theorem compare_swap (apart : ¬Quality.Edge direct.bitsPerSecond gateway.bitsPerSecond) :
    compare gateway direct = (compare direct gateway).map not := by
  rw [← raised_both_iff] at apart
  unfold compare
  by_cases faster : raised gateway.bitsPerSecond ≤ direct.bitsPerSecond.toNat
  · have slower : ¬raised direct.bitsPerSecond ≤ gateway.bitsPerSecond.toNat :=
      fun also => apart ⟨faster, also⟩
    simp only [if_pos faster, if_neg slower, Option.map_some, Bool.not_true]
  · by_cases slower : raised direct.bitsPerSecond ≤ gateway.bitsPerSecond.toNat
    · simp only [if_neg faster, if_pos slower, Option.map_some, Bool.not_false]
    · simp only [if_neg faster, if_neg slower]
      by_cases nearer : direct.rtt.saturatingAdd margin < gateway.rtt.nanos
      · simp only [if_pos nearer, if_neg (saturatingAdd_asymm nearer), Option.map_some, Bool.not_true]
      · simp only [if_neg nearer]
        by_cases farther : gateway.rtt.saturatingAdd margin < direct.rtt.nanos
        · simp only [if_pos farther, Option.map_some, Bool.not_false]
        · simp only [if_neg farther, Option.map_none]

/-- Equal scores away from the edges decide nothing. -/
theorem compare_equal (bits : direct.bitsPerSecond = gateway.bitsPerSecond)
    (delay : direct.rtt = gateway.rtt)
    (apart : ¬Quality.Edge direct.bitsPerSecond gateway.bitsPerSecond) :
    compare direct gateway = none := by
  rw [← raised_both_iff, bits, and_self] at apart
  have closer : ¬gateway.rtt.saturatingAdd margin < gateway.rtt.nanos := by
    intro better
    exact saturatingAdd_asymm better better
  unfold compare
  rw [bits, delay, if_neg apart, if_neg apart, if_neg closer, if_neg closer]

end Compare

namespace Quality

variable {quality : Quality} {peer : String} {now : Nat} {scores : Scores} {direct gateway : Score}

theorem preferPeer_fresh (found : quality.scores.get? peer = some scores)
    (first : fresh now scores.direct = some direct) (second : fresh now scores.gateway = some gateway)
    (default : Bool) :
    quality.preferPeer peer default now = (compare direct gateway).getD default := by
  simp only [preferPeer, found, first, second]

/-- Without a fresh score of each path the default is taken. -/
theorem preferPeer_stale (found : quality.scores.get? peer = some scores)
    (stale : fresh now scores.direct = none ∨ fresh now scores.gateway = none) (default : Bool) :
    quality.preferPeer peer default now = default := by
  simp only [preferPeer, found]
  rcases stale with missing | missing
  · rw [missing]
  · rw [missing]
    split
    · rename_i impossible
      cases impossible
    · rfl

theorem exchange_found (found : quality.scores.get? peer = some scores) :
    (quality.exchange peer).scores.get? peer = some scores.swap := by
  simp [exchange, found]

/-- What takes the default for its answer says nothing of the paths. -/
theorem fair_of_default (always : ∀ default, quality.preferPeer peer default now = default) :
    quality.Fair peer now := by
  refine ⟨?_, fun _ _ _ _ _ _ _ _ => always⟩
  intro value same
  have yes := (always true).symm.trans (same true)
  have no := (always false).symm.trans (same false)
  rw [← yes] at no
  cases no

/-- The preference is fair exactly when the throughputs of the two fresh scores
    do not reach each other with the margin on top. -/
theorem fair_iff :
    quality.Fair peer now ↔
      ∀ scores direct gateway, quality.scores.get? peer = some scores →
        fresh now scores.direct = some direct → fresh now scores.gateway = some gateway →
        ¬Edge direct.bitsPerSecond gateway.bitsPerSecond := by
  constructor
  · intro fair scores direct gateway found first second edge
    have decided : ∀ default, quality.preferPeer peer default now = true := by
      intro default
      rw [preferPeer_fresh found first second, compare_edge edge]
      rfl
    have mirrored : Edge gateway.bitsPerSecond direct.bitsPerSecond :=
      (raised_both_iff _ _).mp ((raised_both_iff _ _).mpr edge).symm
    have opposite := fair.exchanged true decided true
    rw [preferPeer_fresh (exchange_found found) second first, compare_edge mirrored] at opposite
    cases opposite
  · intro apart
    cases found : quality.scores.get? peer with
    | none =>
        refine fair_of_default fun default => ?_
        simp only [preferPeer, found]
    | some scores =>
        cases first : fresh now scores.direct with
        | none => exact fair_of_default (preferPeer_stale found (.inl first))
        | some direct =>
            cases second : fresh now scores.gateway with
            | none => exact fair_of_default (preferPeer_stale found (.inr second))
            | some gateway =>
                have different := apart scores direct gateway found first second
                refine ⟨?_, ?_⟩
                · intro value same default
                  rw [preferPeer_fresh (exchange_found found) second first, compare_swap different]
                  have chosen := fun default => preferPeer_fresh found first second default ▸ same default
                  cases result : compare direct gateway with
                  | some better =>
                      have is := chosen true
                      rw [result] at is
                      simp only [Option.getD_some] at is
                      simp [is]
                  | none =>
                      have yes := chosen true
                      have no := chosen false
                      rw [result] at yes no
                      rw [← yes] at no
                      cases no
                · intro others left right present one other bits delay default
                  obtain rfl := Option.mem_unique found present
                  obtain rfl := Option.mem_unique first one
                  obtain rfl := Option.mem_unique second other
                  rw [preferPeer_fresh found first second, compare_equal bits delay different]
                  rfl

/-- Both paths were probed and neither probe was answered. Weighing equal delays
    gives the same delay. -/
def exampleFailed : Quality :=
  expire (fun old _ => old) ((new.start "peer" true 1 0).start "peer" false 2 0) (seconds 6)

/-- Two paths that are equally dead: the direct one is preferred over the
    default, and again after the scores were exchanged. -/
theorem failed_probes_are_unfair :
    exampleFailed.preferPeer "peer" false (seconds 6) = true ∧
      (exampleFailed.exchange "peer").preferPeer "peer" false (seconds 6) = true ∧
      ¬exampleFailed.Fair "peer" (seconds 6) := by
  have decided : ∀ default, exampleFailed.preferPeer "peer" default (seconds 6) = true := by
    decide
  have again : (exampleFailed.exchange "peer").preferPeer "peer" false (seconds 6) = true := by
    decide
  refine ⟨decided false, again, fun fair => ?_⟩
  have opposite := fair.exchanged true decided false
  cases again.symm.trans opposite

end Quality

end PortHub.Agent.Probe
