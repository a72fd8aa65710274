import Mathlib.Data.Finset.Basic
import PortHub.Network.ExitPinning

/-! # Sticky selection is a rendezvous

Every peer has a weight for a client, and a new flow goes to the heaviest peer
that is configured, the greatest name deciding between equal weights. What the
scan over the arranged list finds is a property of the set of peers alone, so a
peer that is not chosen can come and go without moving anything.
-/

namespace PortHub.Network.ExitSelection

open Runs

section Weights

variable {weight : String → List UInt8} {peers : Finset String} {peer other : String}

/-- The heaviest peer, by name among equals. -/
structure Wins (weight : String → List UInt8) (peers : Finset String) (peer : String) : Prop where
  member : peer ∈ peers
  heaviest : ∀ other ∈ peers,
    weight other < weight peer ∨ weight other = weight peer ∧ other ≤ peer

theorem Wins.unique (first : Wins weight peers peer) (second : Wins weight peers other) :
    peer = other := by
  rcases first.heaviest other second.member with lighter | ⟨same, before⟩
  · rcases second.heaviest peer first.member with heavier | ⟨same, _⟩
    · exact absurd (List.lt_trans lighter heavier) (List.lt_irrefl _)
    · rw [same] at lighter
      exact absurd lighter (List.lt_irrefl _)
  · rcases second.heaviest peer first.member with heavier | ⟨_, after⟩
    · rw [same] at heavier
      exact absurd heavier (List.lt_irrefl _)
    · exact le_antisymm after before

theorem Wins.subset {fewer} (wins : Wins weight peers peer) (sub : fewer ⊆ peers)
    (member : peer ∈ fewer) : Wins weight fewer peer :=
  ⟨member, fun other inside => wins.heaviest other (sub inside)⟩

end Weights

section Scan

variable {key : String → List UInt8}

/-- One candidate of the scan behind `max_by_key`. -/
def scanStep (key : String → List UInt8) (best : Option (List UInt8 × Nat))
    (candidate : String × Nat) : Option (List UInt8 × Nat) :=
  match best with
  | none => some (key candidate.1, candidate.2)
  | some (greatest, _) =>
      if key candidate.1 < greatest then best else some (key candidate.1, candidate.2)

def scan (key : String → List UInt8) (peers : List String) : Option (List UInt8 × Nat) :=
  peers.zipIdx.foldl (scanStep key) none

theorem maxIndexByKey_eq (peers : List String) :
    maxIndexByKey key peers = (scan key peers).map Prod.snd := rfl

theorem scan_snoc (peers : List String) (peer : String) :
    scan key (peers ++ [peer]) = scanStep key (scan key peers) (peer, peers.length) := by
  simp [scan, List.zipIdx_append]

theorem scan_isSome (key : String → List UInt8) {peers} (nonempty : peers ≠ []) :
    (scan key peers).isSome = true := by
  induction peers using List.reverseRecOn with
  | nil => exact absurd rfl nonempty
  | append_singleton peers peer _ =>
      rw [scan_snoc]
      cases before : scan key peers with
      | none => rfl
      | some held => dsimp only [scanStep]; split <;> rfl

/-- Over ascending names, the last of the heaviest is the winner. -/
theorem scan_wins {peers : List String} (sorted : peers.Pairwise (· ≤ ·)) {greatest index}
    (best : scan key peers = some (greatest, index)) :
    ∃ peer, peers[index]? = some peer ∧ greatest = key peer ∧ Wins key peers.toFinset peer := by
  induction peers using List.reverseRecOn generalizing greatest index with
  | nil => cases best
  | append_singleton peers last ih =>
      obtain ⟨earlier, _, above⟩ := List.pairwise_append.mp sorted
      rw [scan_snoc] at best
      cases before : scan key peers with
      | none =>
          have nothing : peers = [] := by
            by_contra nonempty
            simpa [before] using scan_isSome key nonempty
          subst nothing
          obtain ⟨rfl, rfl⟩ := best
          exact ⟨last, rfl, rfl, ⟨by simp, by simp⟩⟩
      | some held =>
          obtain ⟨weight, position⟩ := held
          obtain ⟨peer, found, rfl, wins⟩ := ih earlier before
          have within := (List.getElem?_eq_some_iff.mp found).1
          simp only [before, scanStep] at best
          split at best
          · rename_i lighter
            obtain ⟨rfl, rfl⟩ := best
            refine ⟨peer, by rw [List.getElem?_append_left within]; exact found, rfl, ?_, ?_⟩
            · exact List.mem_toFinset.mpr (List.mem_append_left _ (List.mem_toFinset.mp wins.member))
            · intro other inside
              simp only [List.mem_toFinset, List.mem_append, List.mem_singleton] at inside
              rcases inside with old | rfl
              · exact wins.heaviest other (List.mem_toFinset.mpr old)
              · exact .inl lighter
          · rename_i heavy
            cases best
            refine ⟨last, by simp, rfl, by simp, ?_⟩
            intro other inside
            simp only [List.mem_toFinset, List.mem_append, List.mem_singleton] at inside
            rcases inside with old | rfl
            · have below := above other old last (by simp)
              have atMost : key other ≤ key last := by
                rcases wins.heaviest other (List.mem_toFinset.mpr old) with lighter | ⟨same, _⟩
                · exact Std.le_trans (Std.le_of_lt lighter) heavy
                · rw [same]
                  exact heavy
              by_cases same : key other = key last
              · exact .inr ⟨same, below⟩
              · exact .inl (Std.lt_of_le_of_ne atMost same)
            · exact .inr ⟨rfl, le_rfl⟩

theorem exists_wins (weight : String → List UInt8) {peers : Finset String} (nonempty : peers.Nonempty) :
    ∃ peer, Wins weight peers peer := by
  obtain ⟨some_, inside⟩ := nonempty
  have listed : Sorted.arrange peers.toList ≠ [] :=
    List.ne_nil_of_mem (Sorted.mem_arrange.mpr (Finset.mem_toList.mpr inside))
  obtain ⟨⟨greatest, index⟩, best⟩ :=
    Option.isSome_iff_exists.mp (scan_isSome weight listed)
  obtain ⟨peer, _, _, wins⟩ := scan_wins (Sorted.arrange_sorted _) best
  have same : (Sorted.arrange peers.toList).toFinset = peers := by
    ext other
    simp
  exact ⟨peer, same ▸ wins⟩

end Scan

/-- The winner as a function of the set. -/
noncomputable def rendezvous (weight : String → List UInt8) (peers : Finset String) :
    Option String :=
  open Classical in if won : ∃ peer, Wins weight peers peer then some won.choose else none

section Choice

variable {weight : String → List UInt8} {peers : Finset String} {peer other : String}

theorem rendezvous_eq_some : rendezvous weight peers = some peer ↔ Wins weight peers peer := by
  unfold rendezvous
  constructor
  · intro chosen
    split at chosen
    · rename_i won
      exact Option.some.inj chosen ▸ won.choose_spec
    · cases chosen
  · intro wins
    have won : ∃ peer, Wins weight peers peer := ⟨peer, wins⟩
    rw [dif_pos won]
    exact congrArg some (won.choose_spec.unique wins)

theorem rendezvous_eq_none : rendezvous weight peers = none ↔ peers = ∅ := by
  constructor
  · intro nothing
    by_contra nonempty
    obtain ⟨peer, wins⟩ := exists_wins weight (Finset.nonempty_iff_ne_empty.mpr nonempty)
    rw [rendezvous_eq_some.mpr wins] at nothing
    cases nothing
  · rintro rfl
    by_contra chosen
    obtain ⟨peer, won⟩ := Option.ne_none_iff_exists'.mp chosen
    exact absurd (rendezvous_eq_some.mp won).member (Finset.notMem_empty peer)

/-- A peer that is not chosen does not matter. -/
theorem rendezvous_erase (unchosen : rendezvous weight peers ≠ some other) :
    rendezvous weight (peers.erase other) = rendezvous weight peers := by
  cases chosen : rendezvous weight peers with
  | none => simp [rendezvous_eq_none.mp chosen, rendezvous_eq_none]
  | some peer =>
      have wins := rendezvous_eq_some.mp chosen
      have different : peer ≠ other := fun same => unchosen (same ▸ chosen)
      exact rendezvous_eq_some.mpr
        (wins.subset (Finset.erase_subset _ _) (Finset.mem_erase.mpr ⟨different, wins.member⟩))

end Choice

/-- The scan over the arranged list finds the winner of the set. -/
theorem maxIndexByKey_arrange (weight : String → List UInt8) (peers : List String) :
    (maxIndexByKey weight (Sorted.arrange peers)).bind (fun index => (Sorted.arrange peers)[index]?) =
      rendezvous weight peers.toFinset := by
  have same : (Sorted.arrange peers).toFinset = peers.toFinset := by
    ext other
    simp
  rw [maxIndexByKey_eq]
  cases best : scan weight (Sorted.arrange peers) with
  | none =>
      have nothing : Sorted.arrange peers = [] := by
        by_contra nonempty
        simpa [best] using scan_isSome weight nonempty
      have empty : peers.toFinset = ∅ := by simp [← same, nothing]
      simp [rendezvous_eq_none.mpr empty]
  | some held =>
      obtain ⟨greatest, index⟩ := held
      obtain ⟨peer, found, _, wins⟩ := scan_wins (Sorted.arrange_sorted peers) best
      rw [same] at wins
      simpa [rendezvous_eq_some.mpr wins] using found

section Selecting

variable {K : Type} [DecidableEq K] {sha256 : List UInt8 → List UInt8} {table next : FlowTable K}

/-- The weight of a peer for a client. -/
def stickyWeight (sha256 : List UInt8 → List UInt8) (client peer : String) : List UInt8 :=
  sha256 (FlowTable.stickyInput client peer)

/-- What the steps other than `configure` leave alone. -/
structure SameSettings (table next : FlowTable K) : Prop where
  client : next.client = table.client
  peers : next.peers = table.peers
  mode : next.mode = table.mode
  capacity : next.capacity = table.capacity

theorem SameSettings.refl (table : FlowTable K) : SameSettings table table := ⟨rfl, rfl, rfl, rfl⟩

theorem SameSettings.trans {last} (first : SameSettings table next)
    (second : SameSettings next last) : SameSettings table last :=
  ⟨second.client.trans first.client, second.peers.trans first.peers, second.mode.trans first.mode,
    second.capacity.trans first.capacity⟩

namespace FlowTable

theorem reap_same (table : FlowTable K) (now : Nat) : SameSettings table (table.reap now) := by
  unfold reap
  split
  · exact ⟨rfl, rfl, rfl, rfl⟩
  · exact .refl table

theorem supersede_same (table : FlowTable K) (flow : K) (synSequence : Option UInt32) :
    SameSettings table (table.supersede flow synSequence) := by
  unfold supersede
  split
  · exact ⟨rfl, rfl, rfl, rfl⟩
  · exact .refl table

theorem assign_same (table : FlowTable K) (flow : K) (now ttl : Nat) (synSequence : Option UInt32)
    (preferred : Option (List String → Option String)) :
    SameSettings table (table.assign sha256 flow now ttl synSequence preferred).1 := by
  unfold assign
  dsimp only
  split
  · exact ⟨rfl, rfl, rfl, rfl⟩
  · split
    · exact ⟨rfl, rfl, rfl, rfl⟩
    · split <;> exact ⟨rfl, rfl, rfl, rfl⟩

theorem selectInner_same (table : FlowTable K) (flow : K) (now ttl : Nat)
    (synSequence : Option UInt32) (preferred : Option (List String → Option String)) :
    SameSettings table (table.selectInner sha256 flow now ttl synSequence preferred).1 := by
  have prepared := (table.reap_same now).trans ((table.reap now).supersede_same flow synSequence)
  unfold selectInner
  dsimp only
  split
  · exact prepared.trans (assign_same _ _ _ _ _ _)
  · split
    · exact prepared.trans ⟨rfl, rfl, rfl, rfl⟩
    · exact prepared.trans (assign_same _ _ _ _ _ _)

theorem observe_same (table : FlowTable K) (flow : K) (peer : String) (now ttl : Nat) :
    SameSettings table (table.observe flow peer now ttl) := by
  unfold observe
  split
  · exact .refl table
  · split
    · exact ⟨rfl, rfl, rfl, rfl⟩
    · exact .refl table

theorem observeClose_same (table : FlowTable K) (flow : K) (peer : String)
    (outgoing fin reset : Bool) (now : Nat) :
    SameSettings table (table.observeClose flow peer outgoing fin reset now) := by
  unfold observeClose
  split
  · exact .refl table
  · split
    · exact .refl table
    · dsimp only
      split
      · exact .refl table
      · exact ⟨rfl, rfl, rfl, rfl⟩

theorem step_same {op : Op K} (timed : op.reading.isSome = true) :
    SameSettings table (table.step sha256 op).1 := by
  cases op with
  | configure => cases timed
  | select | selectWithSyn | selectForPeer | selectForPeerWith => exact selectInner_same _ _ _ _ _ _
  | observe => exact observe_same _ _ _ _ _
  | observeClose => exact observeClose_same _ _ _ _ _ _ _

theorem run_same {later final} (run : Run (answers (step sha256)) table later final)
    (timed : ∀ event ∈ later, event.1.reading.isSome = true) : SameSettings table final := by
  induction run with
  | start => exact .refl table
  | @snoc history between event final _ taken ih =>
      obtain rfl := taken.next
      have before := ih fun event member => timed event (List.mem_append_left _ member)
      exact before.trans (step_same (timed event (by simp)))

/-- The flows that a selection for a new flow counts against the capacity. -/
def occupied (table : FlowTable K) (flow : K) (now : Nat) (synSequence : Option UInt32) : Nat :=
  (((table.reap now).supersede flow synSequence).flows.erase flow).len

theorem assign_sticky (sha256 : List UInt8 → List UInt8) {peers} (mode : table.mode = .sticky)
    (listed : table.peers = Sorted.arrange peers) (flow : K) (now ttl : Nat)
    (synSequence : Option UInt32) :
    (table.assign sha256 flow now ttl synSequence none).2 =
      if table.capacity ≤ (table.flows.erase flow).len then none
      else rendezvous (stickyWeight sha256 table.client) peers.toFinset := by
  have won := maxIndexByKey_arrange (stickyWeight sha256 table.client) peers
  unfold assign pick
  simp only [mode, listed, ← won]
  by_cases full : table.capacity ≤ (table.flows.erase flow).len
  · simp [full]
  · cases empty : (Sorted.arrange peers).isEmpty with
    | true =>
        have nothing : Sorted.arrange peers = [] := List.isEmpty_iff.mp empty
        simp [nothing]
    | false =>
        simp only [full, decide_false, Bool.or_self, Bool.false_eq_true, if_false]
        have own : (fun peer => sha256 (stickyInput table.client peer)) =
            stickyWeight sha256 table.client := rfl
        rw [own]
        cases maxIndexByKey (stickyWeight sha256 table.client) (Sorted.arrange peers) with
        | none => rfl
        | some index =>
            dsimp only [Option.bind_some]
            cases (Sorted.arrange peers)[index]? <;> rfl

theorem selectInner_sticky {peers} (mode : table.mode = .sticky)
    (listed : table.peers = Sorted.arrange peers) {flow now ttl synSequence}
    (free : ∀ entry, table.flows.get? flow = some entry → entry.released now synSequence = true) :
    (table.selectInner sha256 flow now ttl synSequence none).2 =
      if table.capacity ≤ table.occupied flow now synSequence then none
      else rendezvous (stickyWeight sha256 table.client) peers.toFinset := by
  have same := (table.reap_same now).trans ((table.reap now).supersede_same flow synSequence)
  have assigned := assign_sticky sha256 (same.mode.trans mode) (same.peers.trans listed)
    flow now ttl synSequence
  rw [same.capacity, same.client] at assigned
  unfold selectInner
  dsimp only
  split
  · exact assigned
  · rename_i entry looked
    split
    · rename_i live
      obtain ⟨found, kept⟩ := prepared_live.mp ⟨looked, live⟩
      rw [free entry found] at kept
      cases kept
    · exact assigned

end FlowTable

end Selecting

/-- Sticky selection is a function of the client and of the set of configured
    peers, whatever the table held and did before and since: every new flow gets
    that peer while there is room. A peer other than the chosen one can be removed
    from the set and restored without changing the choice. -/
theorem sticky_selection_is_rendezvous (sha256 : List UInt8 → List UInt8) :
    ∃ choice : String → Finset String → Option String,
      (∀ client peers, choice client peers = none ↔ peers = ∅) ∧
      (∀ client peers peer, choice client peers = some peer → peer ∈ peers) ∧
      (∀ client peers other, choice client peers ≠ some other →
        choice client (peers.erase other) = choice client peers) ∧
      ∀ (K : Type) [DecidableEq K] (origin : FlowTable K) (peers : List String) later final,
        Run (answers (FlowTable.step sha256)) (origin.configure peers .sticky) later final →
        (∀ event ∈ later, event.1.reading.isSome = true) →
        ∀ op request, op.request = some request → request.preferred = none →
          (∀ entry, final.flows.get? request.flow = some entry →
            entry.released request.now request.synSequence = true) →
          (final.step sha256 op).2 = .selected
            (if origin.capacity ≤ final.occupied request.flow request.now request.synSequence then
              none
            else choice origin.client peers.toFinset) := by
  refine ⟨fun client => rendezvous (stickyWeight sha256 client), fun _ _ => rendezvous_eq_none,
    fun _ _ _ chosen => (rendezvous_eq_some.mp chosen).member, fun _ _ _ => rendezvous_erase, ?_⟩
  intro K _ origin peers later final run timed op request selection plain free
  have same := FlowTable.run_same run timed
  rw [FlowTable.step_request sha256 final selection, plain,
    FlowTable.selectInner_sticky same.mode same.peers free, same.capacity, same.client]
  rfl

/-- Two tables of one client, configured in either order, send their flows the same way. -/
theorem sticky_ignores_order :
    let random : Nat → UInt64 → UInt64 := fun flow cursor => UInt64.ofNat flow + cursor
    let first := (FlowTable.new "miro" random 0).configure ["luna", "condor"] .sticky
    let second := (FlowTable.new "miro" random 0).configure ["condor", "luna", "condor"] .sticky
    (first.step id (.select 1 0 300)).2 = .selected (some "luna") ∧
      (first.step id (.select 1 0 300)).2 = (second.step id (.select 100 5 300)).2 := by
  intro random first second
  obtain ⟨choice, _, _, _, rule⟩ := sticky_selection_is_rendezvous id
  have one := rule Nat (.new "miro" random 0) ["luna", "condor"] [] first .start (by simp)
    (.select 1 0 300) _ rfl rfl (by simp [first, FlowTable.configure, FlowTable.new])
  have two := rule Nat (.new "miro" random 0) ["condor", "luna", "condor"] [] second .start (by simp)
    (.select 100 5 300) _ rfl rfl (by simp [second, FlowTable.configure, FlowTable.new])
  refine ⟨by decide, one.trans (Eq.trans ?_ two.symm)⟩
  have room : (first.occupied 1 0 none, second.occupied 100 5 none) = (0, 0) := by decide
  have peers : ["luna", "condor"].toFinset = ["condor", "luna", "condor"].toFinset := by
    decide
  rw [(Prod.mk.inj room).1, (Prod.mk.inj room).2, peers]

end PortHub.Network.ExitSelection
