import PortHub.Network.ExitSelection

/-! # Exit pinning

Runs of a `FlowTable` under every operation, at any times. An assignment changes
its peer only in a selection that releases it: at or after its deadline, or for
a SYN that starts another connection. Until then the selections of its flow
answer the assigned peer while it is configured, and nothing while it is not.
-/

namespace PortHub.Network.ExitSelection

open Runs

inductive Op (K : Type) where
  | configure (peers : List String) (mode : Selection)
  | select (flow : K) (now ttl : Nat)
  | selectWithSyn (flow : K) (now ttl : Nat) (synSequence : Option UInt32)
  | selectForPeer (flow : K) (now ttl : Nat) (synSequence : Option UInt32) (peer : Option String)
  | selectForPeerWith (flow : K) (now ttl : Nat) (synSequence : Option UInt32)
      (choose : List String → Option String)
  | observe (flow : K) (peer : String) (now ttl : Nat)
  | observeClose (flow : K) (peer : String) (outgoing fin reset : Bool) (now : Nat)

inductive Answer where
  | done
  | selected (peer : Option String)
  deriving DecidableEq, Repr

/-- The arguments of a selection, in whichever form it is called. -/
structure Request (K : Type) where
  flow : K
  now : Nat
  ttl : Nat
  synSequence : Option UInt32
  preferred : Option (List String → Option String)

namespace Op

variable {K : Type}

def request : Op K → Option (Request K)
  | .select flow now ttl => some ⟨flow, now, ttl, none, none⟩
  | .selectWithSyn flow now ttl synSequence => some ⟨flow, now, ttl, synSequence, none⟩
  | .selectForPeer flow now ttl synSequence peer =>
      some ⟨flow, now, ttl, synSequence, some fun _ => peer⟩
  | .selectForPeerWith flow now ttl synSequence choose =>
      some ⟨flow, now, ttl, synSequence, some choose⟩
  | .configure _ _ | .observe _ _ _ _ | .observeClose _ _ _ _ _ _ => none

/-- The clock reading of an operation; `configure` takes none. -/
def reading : Op K → Option Nat
  | .configure _ _ => none
  | .select _ now _ | .selectWithSyn _ now _ _ | .selectForPeer _ now _ _ _
  | .selectForPeerWith _ now _ _ _ | .observe _ _ now _ | .observeClose _ _ _ _ _ now => some now

theorem reading_request {op : Op K} {request} (selection : op.request = some request) :
    op.reading = some request.now := by
  cases op with
  | configure | observe | observeClose => cases selection
  | select | selectWithSyn | selectForPeer | selectForPeerWith =>
      cases selection
      rfl

end Op

namespace FlowTable

variable {K : Type} [DecidableEq K]

def step (sha256 : List UInt8 → List UInt8) (table : FlowTable K) : Op K → FlowTable K × Answer
  | .configure peers mode => (table.configure peers mode, .done)
  | .select flow now ttl =>
      let (next, peer) := table.select sha256 flow now ttl
      (next, .selected peer)
  | .selectWithSyn flow now ttl synSequence =>
      let (next, peer) := table.selectWithSyn sha256 flow now ttl synSequence
      (next, .selected peer)
  | .selectForPeer flow now ttl synSequence peer =>
      let (next, peer) := table.selectForPeer sha256 flow now ttl synSequence peer
      (next, .selected peer)
  | .selectForPeerWith flow now ttl synSequence choose =>
      let (next, peer) := table.selectForPeerWith sha256 flow now ttl synSequence choose
      (next, .selected peer)
  | .observe flow peer now ttl => (table.observe flow peer now ttl, .done)
  | .observeClose flow peer outgoing fin reset now =>
      (table.observeClose flow peer outgoing fin reset now, .done)

end FlowTable

abbrev Event (K : Type) := Op K × Answer

/-- The peers given to the last `configure` of a run. -/
def configured {K : Type} (history : List (Event K)) : List String :=
  (history.reverse.findSome? fun event =>
    match event.1 with
    | .configure peers _ => some peers
    | _ => none).getD []

theorem configured_append {K : Type} (history : List (Event K)) (event : Event K) :
    configured (history ++ [event]) =
      match event.1 with
      | .configure peers _ => peers
      | _ => configured history := by
  obtain ⟨op, answer⟩ := event
  cases op <;> simp [configured]

/-- Selections after which an assignment no longer binds its flow. -/
def Assignment.released (entry : Assignment) (now : Nat) (synSequence : Option UInt32) : Bool :=
  decide (entry.deadline ≤ now) ||
    (synSequence.isSome && (entry.synSequence != synSequence || entry.closeUntil.isSome))

section Selecting

variable {K : Type} [DecidableEq K]

/-- Live assignments of the other flows survive a selection. -/
def Frames (table next : FlowTable K) (flow : K) (now : Nat) : Prop :=
  ∀ other entry, other ≠ flow → table.flows.get? other = some entry → now < entry.deadline →
    next.flows.get? other = some entry

/-- Everything a selection can do. -/
inductive Selects (table : FlowTable K) (flow : K) (now ttl : Nat) (synSequence : Option UInt32) :
    FlowTable K → Option String → Prop where
  | pinned {next entry} (found : table.flows.get? flow = some entry)
      (live : entry.released now synSequence = false)
      (kept : next.flows.get? flow = some (entry.refresh now ttl))
      (peers : next.peers = table.peers) (frame : Frames table next flow now) :
      Selects table flow now ttl synSequence next
        (if (Sorted.binarySearch table.peers entry.peer).isSome then some entry.peer else none)
  | opened {next peer}
      (free : ∀ entry, table.flows.get? flow = some entry → entry.released now synSequence = true)
      (member : peer ∈ table.peers)
      (bound : next.flows.get? flow = some ⟨peer, now + ttl, synSequence, 0, none⟩)
      (peers : next.peers = table.peers) (frame : Frames table next flow now) :
      Selects table flow now ttl synSequence next (some peer)
  | refused {next}
      (free : ∀ entry, table.flows.get? flow = some entry → entry.released now synSequence = true)
      (peers : next.peers = table.peers) (frame : Frames table next flow now) :
      Selects table flow now ttl synSequence next none

theorem Frames.insert {table} {next : FlowTable K} {flow now} (frame : Frames table next flow now)
    (entry : Assignment) :
    Frames table { next with flows := next.flows.insert flow entry } flow now := by
  intro other kept different found live
  rw [Dict.get?_insert_ne _ _ different]
  exact frame other kept different found live

theorem Frames.erase {table} {next : FlowTable K} {flow now} (frame : Frames table next flow now) :
    Frames table { next with flows := next.flows.erase flow } flow now := by
  intro other kept different found live
  rw [Dict.get?_erase_ne _ different]
  exact frame other kept different found live

namespace FlowTable

variable {table : FlowTable K} {now : Nat} {flow : K}

theorem reap_get? {entry} (found : table.flows.get? flow = some entry)
    (live : now < entry.deadline) :
    (table.reap now).flows.get? flow = some entry := by
  unfold reap
  split
  · simp [found, live]
  · exact found

theorem reap_sub (table : FlowTable K) (now : Nat) : (table.reap now).flows.Sub table.flows := by
  unfold reap
  split
  · exact Dict.retain_sub _ _
  · exact .refl _

theorem reap_peers (table : FlowTable K) (now : Nat) : (table.reap now).peers = table.peers := by
  unfold reap
  split <;> rfl

theorem supersede_get?_ne (table : FlowTable K) {other} (synSequence : Option UInt32)
    (different : other ≠ flow) :
    (table.supersede flow synSequence).flows.get? other = table.flows.get? other := by
  unfold supersede
  split
  · exact Dict.get?_erase_ne _ different
  · rfl

theorem supersede_get?_self (table : FlowTable K) (flow : K) (synSequence : Option UInt32) :
    (table.supersede flow synSequence).flows.get? flow = (table.flows.get? flow).filter fun entry =>
      !(synSequence.isSome && (entry.synSequence != synSequence || entry.closeUntil.isSome)) := by
  unfold supersede
  cases found : table.flows.get? flow with
  | none => simp [found]
  | some entry =>
      split
      · rename_i reused
        simp only [Option.any_some] at reused
        simp [Option.filter, reused]
      · rename_i kept
        simp only [Option.any_some] at kept
        simp [Option.filter, kept, found]

theorem supersede_peers (table : FlowTable K) (flow : K) (synSequence : Option UInt32) :
    (table.supersede flow synSequence).peers = table.peers := by
  unfold supersede
  split <;> rfl

/-- What a selection looks up: the assignment, unless it is released. -/
theorem prepared_live {synSequence entry} :
    ((table.reap now).supersede flow synSequence).flows.get? flow = some entry ∧
      now < entry.deadline ↔
    table.flows.get? flow = some entry ∧ entry.released now synSequence = false := by
  rw [supersede_get?_self, Option.filter_eq_some_iff]
  simp only [Assignment.released, Bool.or_eq_false_iff, decide_eq_false_iff_not, not_le,
    Bool.not_eq_true']
  constructor
  · rintro ⟨⟨found, same⟩, live⟩
    exact ⟨reap_sub table now flow entry found, live, same⟩
  · rintro ⟨found, live, same⟩
    exact ⟨⟨reap_get? found live, same⟩, live⟩

theorem prepared_frames (table : FlowTable K) (flow : K) (now : Nat)
    (synSequence : Option UInt32) :
    Frames table ((table.reap now).supersede flow synSequence) flow now := by
  intro other entry different found live
  rw [supersede_get?_ne _ _ different]
  exact reap_get? found live

/-- A selection for a flow without a live assignment. -/
theorem assign_selects (sha256 : List UInt8 → List UInt8) {prepared : FlowTable K} {ttl synSequence}
    (preferred : Option (List String → Option String))
    (free : ∀ entry, table.flows.get? flow = some entry → entry.released now synSequence = true)
    (peers : prepared.peers = table.peers) (frame : Frames table prepared flow now) :
    Selects table flow now ttl synSequence
      (prepared.assign sha256 flow now ttl synSequence preferred).1
      (prepared.assign sha256 flow now ttl synSequence preferred).2 := by
  unfold assign
  dsimp only
  split
  · exact .refused free peers frame.erase
  · split
    · exact .refused free peers frame.erase
    · split
      · exact .refused free peers frame.erase
      · rename_i peer chosen
        have member : peer ∈ table.peers := peers ▸ List.mem_of_getElem? chosen
        exact .opened free member (Dict.get?_insert_self _ _ _) peers (frame.erase.insert _)

/-- The inversion of `select_inner`. -/
theorem selectInner_selects (sha256 : List UInt8 → List UInt8) (table : FlowTable K) (flow : K)
    (now ttl : Nat) (synSequence : Option UInt32)
    (preferred : Option (List String → Option String)) :
    Selects table flow now ttl synSequence
      (table.selectInner sha256 flow now ttl synSequence preferred).1
      (table.selectInner sha256 flow now ttl synSequence preferred).2 := by
  have frame := prepared_frames table flow now synSequence
  have peers : ((table.reap now).supersede flow synSequence).peers = table.peers :=
    (supersede_peers _ _ _).trans (reap_peers _ _)
  unfold selectInner
  dsimp only
  cases looked : ((table.reap now).supersede flow synSequence).flows.get? flow with
  | none =>
      refine assign_selects sha256 preferred ?_ peers frame
      intro entry found
      by_contra live
      have kept := prepared_live.mpr ⟨found, Bool.eq_false_iff.mpr live⟩
      rw [looked] at kept
      cases kept.1
  | some entry =>
      dsimp only
      split
      · rename_i live
        obtain ⟨found, kept⟩ := prepared_live.mp ⟨looked, live⟩
        have call : Selects table flow now ttl synSequence
            { (table.reap now).supersede flow synSequence with flows := _ } _ :=
          .pinned found kept (Dict.get?_insert_self _ _ _) peers (frame.insert _)
        rw [← peers] at call
        exact call
      · rename_i expired
        refine assign_selects sha256 preferred ?_ peers frame
        intro other found
        by_contra live
        have kept := prepared_live.mpr ⟨found, Bool.eq_false_iff.mpr live⟩
        rw [looked] at kept
        obtain ⟨same, live⟩ := kept
        cases same
        exact expired live

/-- Every form of selection is one call of `select_inner`. -/
theorem step_request (sha256 : List UInt8 → List UInt8) (table : FlowTable K) {op : Op K} {request}
    (selection : op.request = some request) :
    table.step sha256 op =
      ((table.selectInner sha256 request.flow request.now request.ttl request.synSequence
        request.preferred).1,
      .selected (table.selectInner sha256 request.flow request.now request.ttl request.synSequence
        request.preferred).2) := by
  cases op with
  | configure | observe | observeClose => cases selection
  | select | selectWithSyn | selectForPeer | selectForPeerWith =>
      cases selection
      rfl

theorem observe_peers (table : FlowTable K) (flow : K) (peer : String) (now ttl : Nat) :
    (table.observe flow peer now ttl).peers = table.peers := by
  unfold observe
  cases table.flows.get? flow with
  | none => rfl
  | some entry => dsimp only; split <;> rfl

theorem observeClose_peers (table : FlowTable K) (flow : K) (peer : String)
    (outgoing fin reset : Bool) (now : Nat) :
    (table.observeClose flow peer outgoing fin reset now).peers = table.peers := by
  unfold observeClose
  split
  · rfl
  · cases table.flows.get? flow with
    | none => rfl
    | some entry => dsimp only; split <;> rfl

theorem observe_peer (table : FlowTable K) (flow : K) (peer : String) (now ttl : Nat) (other : K) :
    ((table.observe flow peer now ttl).flows.get? other).map Assignment.peer =
      (table.flows.get? other).map Assignment.peer := by
  unfold observe
  cases found : table.flows.get? flow with
  | none => rfl
  | some entry =>
      dsimp only
      split
      · by_cases same : other = flow
        · subst same
          simp [found, Assignment.refresh]
        · simp [same]
      · rfl

theorem observeClose_peer (table : FlowTable K) (flow : K) (peer : String)
    (outgoing fin reset : Bool) (now : Nat) (other : K) :
    ((table.observeClose flow peer outgoing fin reset now).flows.get? other).map Assignment.peer =
      (table.flows.get? other).map Assignment.peer := by
  unfold observeClose
  split
  · rfl
  · cases found : table.flows.get? flow with
    | none => rfl
    | some entry =>
        dsimp only
        split
        · rfl
        · by_cases same : other = flow
          · subst same
            simp only [Dict.get?_insert_self, found, Option.map_some, apply_ite Assignment.peer,
              ite_self]
          · simp [same]

end FlowTable

end Selecting

section Pinning

variable {K : Type} [DecidableEq K]

/-- The flow has an assignment whose deadline the operation has reached, or the
    operation selects for it with the SYN of another connection. -/
def Releases (table : FlowTable K) (flow : K) (op : Op K) : Prop :=
  ∃ entry, table.flows.get? flow = some entry ∧
    ((∃ now, op.reading = some now ∧ entry.deadline ≤ now) ∨
      ∃ request sequence, op.request = some request ∧ request.flow = flow ∧
        request.synSequence = some sequence ∧
        (entry.synSequence ≠ some sequence ∨ entry.closeUntil.isSome = true))

variable (sha256 : List UInt8 → List UInt8)

/-- Runs from `FlowTable::new`. -/
abbrev Reaches (client : String) (random : K → UInt64 → UInt64) (created : Nat)
    (history : List (Event K)) (table : FlowTable K) : Prop :=
  Run (answers (FlowTable.step sha256)) (.new client random created) history table

/-- Steps that do not release the flow. -/
def Steady (flow : K) (table : FlowTable K) (event : Event K) (next : FlowTable K) : Prop :=
  answers (FlowTable.step sha256) table event next ∧ ¬ Releases table flow event.1

variable {sha256} {client : String} {random : K → UInt64 → UInt64} {created : Nat}
variable {history : List (Event K)} {table : FlowTable K} {next : FlowTable K} {flow : K}
  {now ttl : Nat} {synSequence : Option UInt32} {answer : Option String} {entry : Assignment}

section

variable (call : Selects table flow now ttl synSequence next answer)

include call

/-- A selection leaves the peer list alone. -/
theorem Selects.peers_eq : next.peers = table.peers := by
  cases call with
  | pinned _ _ _ peers | opened _ _ _ peers | refused _ peers => exact peers

theorem Selects.frames : Frames table next flow now := by
  cases call with
  | pinned _ _ _ _ frame | opened _ _ _ _ frame | refused _ _ frame => exact frame

/-- A selection that answers a peer found it in the list, and it is assigned. -/
theorem Selects.answered {peer}
    (shown : answer = some peer) :
    peer ∈ table.peers ∧ ∃ entry, next.flows.get? flow = some entry ∧ entry.peer = peer := by
  cases call with
  | pinned _ _ kept =>
      split at shown
      · rename_i present
        cases shown
        exact ⟨Sorted.mem_of_binarySearch present, _, kept, rfl⟩
      · cases shown
  | opened _ member bound =>
      cases shown
      exact ⟨member, _, bound, rfl⟩
  | refused => cases shown

end

/-- The peer list is the last configuration, arranged. -/
theorem Reaches.peers (run : Reaches sha256 client random created history table) :
    table.peers = Sorted.arrange (configured history) := by
  induction run with
  | start => rfl
  | @snoc history table event next _ taken held =>
      obtain ⟨op, answer⟩ := event
      obtain ⟨rfl, rfl⟩ : (table.step sha256 op).1 = next ∧ (table.step sha256 op).2 = answer :=
        Prod.ext_iff.mp taken
      rw [configured_append]
      cases op with
      | configure peers mode => rfl
      | select | selectWithSyn | selectForPeer | selectForPeerWith =>
          exact (FlowTable.selectInner_selects sha256 table _ _ _ _ _).peers_eq.trans held
      | observe flow peer now ttl => exact (table.observe_peers flow peer now ttl).trans held
      | observeClose flow peer outgoing fin reset now =>
          exact (table.observeClose_peers flow peer outgoing fin reset now).trans held

theorem Reaches.available (run : Reaches sha256 client random created history table)
    (peer : String) :
    (Sorted.binarySearch table.peers peer).isSome = true ↔ peer ∈ configured history := by
  rw [run.peers, Sorted.binarySearch_isSome (Sorted.arrange_sorted _), Sorted.mem_arrange]

theorem live_of_steady {op request} (steady : ¬ Releases table flow op)
    (found : table.flows.get? flow = some entry) (selection : op.request = some request) :
    request.now < entry.deadline ∧
      (request.flow = flow → entry.released request.now request.synSequence = false) := by
  have live : request.now < entry.deadline := by
    by_contra expired
    exact steady ⟨entry, found,
      .inl ⟨request.now, Op.reading_request selection, not_lt.mp expired⟩⟩
  refine ⟨live, ?_⟩
  intro own
  cases sequence : request.synSequence with
  | none => simp [Assignment.released, live]
  | some syn =>
      by_contra released
      simp only [Assignment.released, Option.isSome_some, Bool.true_and, Bool.not_eq_false,
        Bool.or_eq_true, decide_eq_true_eq, bne_iff_ne, not_le.mpr live, false_or] at released
      exact steady ⟨entry, found, .inr ⟨request, syn, selection, own, sequence, released⟩⟩

/-- A selection that does not release the flow answers from its assignment. -/
theorem pinned_selection {op request} (steady : ¬ Releases table flow op)
    (found : table.flows.get? flow = some entry) (selection : op.request = some request)
    (own : request.flow = flow) :
    (table.step sha256 op).2 = .selected
      (if (Sorted.binarySearch table.peers entry.peer).isSome then some entry.peer else none) ∧
    (table.step sha256 op).1.flows.get? flow = some (entry.refresh request.now request.ttl) := by
  subst own
  have live := (live_of_steady steady found selection).2 rfl
  have call := FlowTable.selectInner_selects sha256 table request.flow request.now request.ttl
    request.synSequence request.preferred
  rw [FlowTable.step_request sha256 table selection]
  generalize table.selectInner sha256 request.flow request.now request.ttl request.synSequence
    request.preferred = result at call ⊢
  obtain ⟨next, answer⟩ := result
  cases call with
  | pinned present _ kept =>
      obtain rfl := Option.mem_unique found present
      exact ⟨rfl, kept⟩
  | opened free | refused free =>
      rw [free entry found] at live
      cases live

/-- A step that does not release the flow keeps its peer. -/
theorem Steady.keeps {event} (taken : Steady sha256 flow table event next)
    (found : table.flows.get? flow = some entry) :
    ∃ kept, next.flows.get? flow = some kept ∧ kept.peer = entry.peer := by
  obtain ⟨taken, steady⟩ := taken
  obtain ⟨op, answer⟩ := event
  obtain ⟨rfl, rfl⟩ : (table.step sha256 op).1 = next ∧ (table.step sha256 op).2 = answer :=
    Prod.ext_iff.mp taken
  cases selection : op.request with
  | some request =>
      by_cases own : request.flow = flow
      · exact ⟨_, (pinned_selection steady found selection own).2, rfl⟩
      · have live := (live_of_steady steady found selection).1
        have frame := (FlowTable.selectInner_selects sha256 table request.flow request.now
          request.ttl request.synSequence request.preferred).frames
        rw [FlowTable.step_request sha256 table selection]
        exact ⟨entry, frame flow entry (Ne.symm own) found live, rfl⟩
  | none =>
      cases op with
      | configure peers mode => exact ⟨entry, found, rfl⟩
      | select | selectWithSyn | selectForPeer | selectForPeerWith => cases selection
      | observe other peer now ttl =>
          have same := table.observe_peer other peer now ttl flow
          rw [found] at same
          exact Option.map_eq_some_iff.mp same
      | observeClose other peer outgoing fin reset now =>
          have same := table.observeClose_peer other peer outgoing fin reset now flow
          rw [found] at same
          exact Option.map_eq_some_iff.mp same

/-- A run of steps that do not release the flow keeps its peer. -/
theorem steady_run {later final} (run : Run (Steady sha256 flow) table later final)
    (found : table.flows.get? flow = some entry) :
    ∃ kept, final.flows.get? flow = some kept ∧ kept.peer = entry.peer := by
  induction run with
  | start => exact ⟨entry, found, rfl⟩
  | snoc _ taken ih =>
      obtain ⟨between, present, same⟩ := ih
      obtain ⟨kept, bound, peer⟩ := taken.keeps present
      exact ⟨kept, bound, peer.trans same⟩

/-- Selections answer configured peers only, and what they answer is assigned.
    An assignment binds its flow until it is released, and reports of replies
    and closes never create or move one. -/
theorem exit_pinning (run : Reaches sha256 client random created history table) :
    (∀ op request peer, op.request = some request →
      (table.step sha256 op).2 = .selected (some peer) → peer ∈ configured history ∧
        ∃ entry, (table.step sha256 op).1.flows.get? request.flow = some entry ∧
          entry.peer = peer) ∧
    (∀ flow entry, table.flows.get? flow = some entry →
      ∀ later final, Run (Steady sha256 flow) table later final →
        (∃ kept, final.flows.get? flow = some kept ∧ kept.peer = entry.peer) ∧
        ∀ op request, op.request = some request → request.flow = flow →
          ¬ Releases final flow op → (final.step sha256 op).2 = .selected
            (if entry.peer ∈ configured (history ++ later) then some entry.peer else none)) ∧
    (∀ flow peer now ttl other,
      ((table.observe flow peer now ttl).flows.get? other).map Assignment.peer =
        (table.flows.get? other).map Assignment.peer) ∧
    ∀ flow peer outgoing fin reset now other,
      ((table.observeClose flow peer outgoing fin reset now).flows.get? other).map Assignment.peer =
        (table.flows.get? other).map Assignment.peer := by
  refine ⟨?_, ?_, table.observe_peer, table.observeClose_peer⟩
  · intro op request peer selection answered
    rw [FlowTable.step_request sha256 table selection] at answered ⊢
    obtain ⟨member, assigned⟩ := (FlowTable.selectInner_selects sha256 table request.flow
      request.now request.ttl request.synSequence request.preferred).answered
      (Answer.selected.inj answered)
    rw [run.peers, Sorted.mem_arrange] at member
    exact ⟨member, assigned⟩
  · intro flow entry found later final rest
    obtain ⟨kept, present, same⟩ := steady_run rest found
    refine ⟨⟨kept, present, same⟩, ?_⟩
    intro op request selection own steady
    have reached : Reaches sha256 client random created (history ++ later) final :=
      run.trans (rest.mono fun _ _ _ taken => taken.1)
    rw [(pinned_selection steady present selection own).1, same]
    simp only [reached.available]

/-- A table that has assigned one flow while two peers were configured. -/
theorem unavailable_exit_is_kept :
    let random : Nat → UInt64 → UInt64 := fun flow cursor => UInt64.ofNat flow + cursor
    let begun := feed (FlowTable.step id) (.new "miro" random 0)
      [.configure ["luna", "condor"] .roundRobin, .select 1 0 300]
    begun.2.flows.get? 1 = some ⟨"condor", 300, none, 0, none⟩ ∧
      ∀ later final, Run (Steady id 1) begun.2 later final →
        ∃ kept, final.flows.get? 1 = some kept ∧ kept.peer = "condor" := by
  intro random begun
  have assigned : begun.2.flows.get? 1 = some ⟨"condor", 300, none, 0, none⟩ := by decide
  refine ⟨assigned, ?_⟩
  intro later final rest
  exact ((exit_pinning (feed_run (FlowTable.step id) (.new "miro" random 0) _)).2.1 1 _ assigned
    later final rest).1

end Pinning

end PortHub.Network.ExitSelection
