import PortHub.Lib.Runs
import PortHub.Terminal.Delivery

/-! # Delivery between the two ends of an epoch

One sender and one receiver share an epoch. A carrier may bring any frame the
sender ever produced to the receiver, and any cursor the receiver ever reported
to the sender, in any order, any number of times or never. Whatever it does, the
receiver commits the payloads of the sender once and in order, and the window of
the receiver always has room for what the sender may have in flight.
-/

namespace PortHub.Terminal.Delivery

open Runs

/-- Both ends and everything they have handed to a carrier. -/
structure Session where
  sender : Sender
  receiver : Receiver
  frames : List Frame
  cursors : List Nat

inductive Op where
  | enqueue (payload : List UInt8)
  | stage (frame : Frame)
  | commit
  | report
  | acknowledge (sequence : Nat)

inductive Answer where
  | enqueued (result : Result Frame)
  | staged (result : Result Bool)
  | committed (frame : Frame) (result : Result Unit)
  | reported (sequence : Nat)
  | acknowledged (result : Result Unit)
  | nothing

abbrev Event := Op × Answer

namespace Session

def start (sender : Sender) (receiver : Receiver) : Session := ⟨sender, receiver, [], []⟩

/-- Only what was sent can arrive: other frames and cursors are lost on the way. -/
def step (s : Session) : Op → Session × Answer
  | .enqueue payload =>
      let (sender, result) := s.sender.enqueue payload
      ({ s with sender, frames := s.frames ++ result.toOption.toList }, .enqueued result)
  | .stage frame =>
      if frame ∈ s.frames then
        let (receiver, result) := s.receiver.stage frame
        ({ s with receiver }, .staged result)
      else (s, .nothing)
  | .commit =>
      match s.receiver.next with
      | some frame =>
          let (receiver, result) := s.receiver.commit frame.sequence
          ({ s with receiver }, .committed frame result)
      | none => (s, .nothing)
  | .report =>
      ({ s with cursors := s.cursors ++ [s.receiver.acknowledged] },
        .reported s.receiver.acknowledged)
  | .acknowledge sequence =>
      if sequence ∈ s.cursors then
        let (sender, result) := s.sender.acknowledge s.receiver.epoch sequence
        ({ s with sender }, .acknowledged result)
      else (s, .nothing)

/-- Frames that a carrier brings again, each followed by a commit. -/
def resend (frames : List Frame) : List Op := frames.flatMap fun frame => [.stage frame, .commit]

/-- The retained frames again, and then the cursor of the receiver. -/
def recovery (s : Session) : List Op := resend s.sender.replay ++ [.report, .acknowledge s.sender.last]

end Session

/-- The frames that `enqueue` returned, in order. -/
def produced (history : List Event) : List Frame :=
  history.flatMap fun event =>
    match event.2 with
    | .enqueued result => result.toOption.toList
    | _ => []

/-- The bytes of the payloads that `enqueue` took. -/
def enqueued (history : List Event) : List UInt8 :=
  history.flatMap fun event =>
    match event with
    | (.enqueue payload, .enqueued (.ok _)) => payload
    | _ => []

/-- The bytes of the payloads that were committed. -/
def committed (history : List Event) : List UInt8 :=
  history.flatMap fun event =>
    match event.2 with
    | .committed frame (.ok _) => frame.payload
    | _ => []

theorem produced_append (history : List Event) (event : Event) :
    produced (history ++ [event]) = produced history ++ produced [event] := by
  simp [produced]

theorem enqueued_append (history : List Event) (event : Event) :
    enqueued (history ++ [event]) = enqueued history ++ enqueued [event] := by
  simp [enqueued]

theorem committed_append (history : List Event) (event : Event) :
    committed (history ++ [event]) = committed history ++ committed [event] := by
  simp [committed]

/-- No call of the receiver, and no acknowledgement, has failed. -/
def Answer.Succeeds : Answer → Prop
  | .staged result => ∃ fresh, result = .ok fresh
  | .committed _ result | .acknowledged result => result = .ok ()
  | .enqueued _ | .reported _ | .nothing => True

/-- What holds after every run of a session. -/
structure Linked (history : List Event) (s : Session) : Prop where
  epoch : s.sender.epoch = s.receiver.epoch
  frames : s.frames = produced history
  sent : s.sender.Sent s.frames
  follows : s.receiver.Follows s.frames
  cursor : s.sender.acknowledged ≤ s.receiver.committed
  cursors : ∀ sequence ∈ s.cursors, sequence ≤ s.receiver.committed
  enqueued : enqueued history = payloads s.frames
  committed : committed history = payloads (s.frames.take s.receiver.committed)
  succeeds : ∀ event ∈ history, event.2.Succeeds

namespace Linked

variable {history : List Event} {s : Session}

/-- The frames the receiver has not committed are among the retained ones. -/
theorem window (linked : Linked history s) :
    (s.frames.drop s.receiver.committed).length ≤ maxFrames ∧
      total (s.frames.drop s.receiver.committed) ≤ maxBytes := by
  have sub : (s.frames.drop s.receiver.committed).Sublist s.sender.pending := by
    rw [linked.sent.retained]
    exact List.drop_sublist_drop_left _ linked.cursor
  exact ⟨sub.length_le.trans linked.sent.withinFrames,
    (total_le_of_sublist sub).trans (linked.sent.counted ▸ linked.sent.withinBytes)⟩

theorem bounded (linked : Linked history s) :
    s.receiver.pending.len ≤ maxFrames ∧ s.receiver.bytes ≤ maxBytes := by
  obtain ⟨fewer, lighter⟩ := linked.follows.bounded linked.sent.numbered
  obtain ⟨window, budget⟩ := linked.window
  exact ⟨fewer.trans window, lighter.trans budget⟩

theorem start {epoch sender receiver} (sends : Sender.new epoch = .ok sender)
    (receives : Receiver.new epoch = .ok receiver) :
    Linked [] (.start sender receiver) := by
  refine ⟨?_, rfl, Sender.new_sent sends, Receiver.new_follows receives, ?_, by simp [Session.start],
    rfl, ?_, by simp⟩
  all_goals
    simp only [Sender.new, Receiver.new, bind_eq_ok, pure_eq_ok] at sends receives
    obtain ⟨_, _, rfl⟩ := sends
    obtain ⟨_, _, rfl⟩ := receives
    rfl

section

variable (linked : Linked history s)

include linked

theorem succeeds_append {event : Event} (fine : event.2.Succeeds) :
    ∀ other ∈ history ++ [event], other.2.Succeeds := by
  intro other member
  rcases mem_snoc.mp member with earlier | last
  · exact linked.succeeds other earlier
  · exact last ▸ fine

/-- Events that move no payload only extend the history. -/
theorem quiet (event : Event) (noFrame : produced [event] = [])
    (noInput : Delivery.enqueued [event] = []) (noOutput : Delivery.committed [event] = [])
    (fine : event.2.Succeeds) : Linked (history ++ [event]) s where
  __ := linked
  frames := by rw [produced_append, noFrame, List.append_nil, linked.frames]
  enqueued := by rw [enqueued_append, noInput, List.append_nil, linked.enqueued]
  committed := by rw [committed_append, noOutput, List.append_nil, linked.committed]
  succeeds := linked.succeeds_append fine

theorem enqueue (payload : List UInt8) :
    Linked (history ++ [(.enqueue payload, .enqueued (s.sender.enqueue payload).2)])
      { s with
        sender := (s.sender.enqueue payload).1
        frames := s.frames ++ (s.sender.enqueue payload).2.toOption.toList } := by
  have sent := linked.sent.enqueue payload
  have call := s.sender.enqueue_enqueues payload
  generalize s.sender.enqueue payload = result at sent call ⊢
  cases call with
  | refused message =>
      have unchanged :=
        linked.quiet (.enqueue payload, .enqueued (.error message)) rfl rfl rfl trivial
      simpa [Except.toOption] using unchanged
  | accepted frame epoch sequence same room bytes =>
      have stamped : ∀ other ∈ [frame], other.epoch = s.receiver.epoch := by
        simp [epoch, linked.epoch]
      refine ⟨linked.epoch, ?_, sent, linked.follows.later stamped, linked.cursor, linked.cursors,
        ?_, ?_, linked.succeeds_append trivial⟩
      · rw [produced_append, linked.frames]
        rfl
      · rw [enqueued_append, linked.enqueued]
        simp [Delivery.enqueued, payloads, Except.toOption, same]
      · rw [committed_append, linked.committed,
          List.take_append_of_le_length linked.follows.behind]
        simp [Delivery.committed]

theorem stage {frame} (member : frame ∈ s.frames) :
    Linked (history ++ [(.stage frame, .staged (s.receiver.stage frame).2)])
      { s with receiver := (s.receiver.stage frame).1 } := by
  obtain ⟨window, budget⟩ := linked.window
  obtain ⟨follows, unmoved, fine⟩ :=
    linked.follows.stage linked.sent.numbered window budget member
  have staged : Linked history { s with receiver := (s.receiver.stage frame).1 } :=
    ⟨linked.epoch.trans (s.receiver.stage_epoch frame).symm, linked.frames, linked.sent, follows,
      unmoved ▸ linked.cursor, unmoved ▸ linked.cursors, linked.enqueued,
      unmoved ▸ linked.committed, linked.succeeds⟩
  exact staged.quiet _ rfl rfl rfl fine

theorem commit {frame} (next : s.receiver.next = some frame) :
    Linked (history ++ [(.commit, .committed frame (s.receiver.commit frame.sequence).2)])
      { s with receiver := (s.receiver.commit frame.sequence).1 } := by
  have budget : s.receiver.bytes < 2 ^ 64 := by
    have bounded := linked.bounded.2
    rw [maxBytes] at bounded
    omega
  obtain ⟨follows, moved, fine⟩ := linked.follows.commit linked.sent.numbered budget next
  obtain ⟨_, found⟩ := linked.follows.next_eq linked.sent.numbered next
  refine ⟨linked.epoch.trans (s.receiver.commit_epoch _).symm, ?_, linked.sent, follows, ?_, ?_, ?_,
    ?_, linked.succeeds_append fine⟩
  · rw [produced_append, linked.frames]
    simp [produced]
  · rw [moved]
    exact linked.cursor.trans (Nat.le_succ _)
  · intro sequence member
    rw [moved]
    exact (linked.cursors sequence member).trans (Nat.le_succ _)
  · rw [enqueued_append, linked.enqueued]
    simp [Delivery.enqueued]
  · rw [committed_append, linked.committed, moved, List.take_add_one, found, fine]
    simp [Delivery.committed, payloads]

theorem acknowledge {sequence} (member : sequence ∈ s.cursors) :
    Linked (history ++ [(.acknowledge sequence,
        .acknowledged (s.sender.acknowledge s.receiver.epoch sequence).2)])
      { s with sender := (s.sender.acknowledge s.receiver.epoch sequence).1 } := by
  have reached := linked.cursors sequence member
  have sent := linked.sent.acknowledge s.receiver.epoch sequence
  have behind := linked.follows.behind
  have length := linked.sent.length
  have call := s.sender.acknowledge_acknowledges s.receiver.epoch sequence
  generalize s.sender.acknowledge s.receiver.epoch sequence = result at sent call ⊢
  cases call with
  | refused message foreign =>
      rcases foreign with other | beyond
      · exact absurd linked.epoch.symm other
      · omega
  | repeated known => exact linked.quiet _ rfl rfl rfl rfl
  | advanced within ahead =>
      refine quiet ?_ _ rfl rfl rfl rfl
      exact ⟨linked.epoch, linked.frames, sent, linked.follows, reached, linked.cursors,
        linked.enqueued, linked.committed, linked.succeeds⟩

end

/-- Every step keeps the ends linked. -/
theorem step (linked : Linked history s) {event t} (taken : answers Session.step s event t) :
    Linked (history ++ [event]) t := by
  obtain ⟨op, answer⟩ := event
  obtain ⟨rfl, rfl⟩ : (s.step op).1 = t ∧ (s.step op).2 = answer := Prod.ext_iff.mp taken
  cases op with
  | enqueue payload => exact linked.enqueue payload
  | stage frame =>
      by_cases member : frame ∈ s.frames
      · simpa only [Session.step, if_pos member] using linked.stage member
      · rw [Session.step, if_neg member]
        exact linked.quiet _ rfl rfl rfl trivial
  | commit =>
      cases next : s.receiver.next with
      | none =>
          simp only [Session.step, next]
          exact linked.quiet _ rfl rfl rfl trivial
      | some frame => simpa only [Session.step, next] using linked.commit next
  | report =>
      have reported : Linked history
          { s with cursors := s.cursors ++ [s.receiver.acknowledged] } :=
        { linked with
          cursors := by
            intro sequence member
            rcases mem_snoc.mp member with earlier | last
            · exact linked.cursors sequence earlier
            · exact last.le }
      exact reported.quiet _ rfl rfl rfl trivial
  | acknowledge sequence =>
      by_cases member : sequence ∈ s.cursors
      · simpa only [Session.step, if_pos member] using linked.acknowledge member
      · rw [Session.step, if_neg member]
        exact linked.quiet _ rfl rfl rfl trivial

theorem run {epoch sender receiver} (sends : Sender.new epoch = .ok sender)
    (receives : Receiver.new epoch = .ok receiver)
    (run : Run (answers Session.step) (.start sender receiver) history s) : Linked history s :=
  run.historyInvariant (start sends receives) fun _ _ _ _ _ linked taken => linked.step taken

theorem fed (linked : Linked history s) (ops : List Op) :
    Linked (history ++ (feed Session.step s ops).1) (feed Session.step s ops).2 := by
  induction ops generalizing history s with
  | nil => simpa [feed] using linked
  | cons op rest ih =>
      have next := ih (linked.step (show answers _ s (op, (s.step op).2) _ from rfl))
      rwa [List.append_assoc] at next

theorem resent (linked : Linked history s) {frame} (member : frame ∈ s.frames)
    (near : frame.sequence ≤ s.receiver.committed + 1) :
    let t := (feed Session.step s [.stage frame, .commit]).2
    frame.sequence ≤ t.receiver.committed ∧ t.sender = s.sender ∧ t.frames = s.frames := by
  obtain ⟨follows, unmoved, _, fine⟩ := linked.follows.stage linked.sent.numbered linked.window.1
    linked.window.2 member
  cases next : (s.receiver.stage frame).1.next with
  | none =>
      -- the frame is not missing, so it was committed before
      simp only [feed, Session.step, if_pos member, next]
      refine ⟨?_, trivial, trivial⟩
      by_contra ahead
      have held := Receiver.stage_holds (by omega) fine
      rw [show frame.sequence = (s.receiver.stage frame).1.committed + 1 by omega, ← Receiver.next,
        next] at held
      cases held
  | some other =>
      have small := (linked.stage member).bounded.2.trans_lt (by decide : maxBytes < 2 ^ 64)
      have moved := (follows.commit linked.sent.numbered small next).2.1
      simp only [feed, Session.step, if_pos member, next]
      exact ⟨by omega, trivial, trivial⟩

theorem resent_all (linked : Linked history s) {frames n}
    (numbered : Numbered Frame.sequence (n + 1) frames) (sent : ∀ frame ∈ frames, frame ∈ s.frames)
    (reached : n ≤ s.receiver.committed) :
    let t := (feed Session.step s (Session.resend frames)).2
    n + frames.length ≤ t.receiver.committed ∧ t.sender = s.sender ∧ t.frames = s.frames := by
  induction frames generalizing history s n with
  | nil => exact ⟨reached, rfl, rfl⟩
  | cons frame rest ih =>
      have first : frame.sequence = n + 1 := numbered 0 frame rfl
      obtain ⟨here, sender, frames⟩ := linked.resent (sent frame List.mem_cons_self) (by omega)
      obtain ⟨all, same, kept⟩ := ih (linked.fed [.stage frame, .commit]) (numbered.drop 1)
        (fun other member => frames ▸ sent other (List.mem_cons_of_mem _ member)) (first ▸ here)
      have front : Session.resend (frame :: rest) = [.stage frame, .commit] ++ Session.resend rest := rfl
      rw [front, feed_append, List.length_cons]
      exact ⟨by omega, same.trans sender, kept.trans frames⟩

/-- A cursor that covers everything empties the journal. -/
theorem settled (linked : Linked history s) (all : s.sender.last ≤ s.receiver.committed) :
    let t := (feed Session.step s [.report, .acknowledge s.sender.last]).2
    t.receiver = s.receiver ∧ t.frames = s.frames ∧ t.sender.pending = [] := by
  have reached : s.receiver.committed = s.sender.last :=
    (linked.follows.behind.trans_eq linked.sent.length).antisymm all
  have sent := linked.sent.acknowledge s.receiver.epoch s.sender.last
  have far : s.sender.last ≤ (s.sender.acknowledge s.receiver.epoch s.sender.last).1.acknowledged := by
    unfold Sender.acknowledge
    grind [linked.epoch]
  simp only [feed, Session.step, Receiver.acknowledged, reached, List.mem_append, List.mem_singleton,
    or_true, if_true]
  rw [sent.retained, List.drop_of_length_le (linked.sent.length.trans_le far)]
  exact ⟨trivial, trivial, rfl⟩

end Linked

/-- Whatever the carriers do, the payloads are committed once and in order, the
    counters are exact and bounded, and the receiver never refuses a frame. -/
theorem delivery_is_exactly_once {epoch : String} {sender : Sender} {receiver : Receiver}
    {history : List Event} {s : Session} (sends : Sender.new epoch = .ok sender)
    (receives : Receiver.new epoch = .ok receiver)
    (run : Run (answers Session.step) (.start sender receiver) history s) :
    committed history <+: enqueued history ∧
    s.sender.acknowledged ≤ s.receiver.committed ∧ s.receiver.committed ≤ s.sender.last ∧
    (produced history).map Frame.sequence = List.range' 1 s.sender.last ∧
    s.sender.replay = (produced history).drop s.sender.acknowledged ∧
    (s.sender.bytes = total s.sender.pending ∧ s.sender.bytes ≤ 65536 ∧
      s.sender.pending.length ≤ 256 ∧
      ∀ sequence, total (s.sender.pending.takeWhile fun frame => decide (frame.sequence ≤ sequence)) ≤
        s.sender.bytes) ∧
    (s.receiver.bytes = total s.receiver.pending.values ∧ s.receiver.bytes ≤ 65536 ∧
      s.receiver.pending.len ≤ 256 ∧
      ∀ frame, s.receiver.next = some frame → frame.payload.length ≤ s.receiver.bytes) ∧
    (∀ op result, (op, .staged result) ∈ history → ∃ fresh, result = .ok fresh) ∧
    (∀ (sender : Sender) payload message, (sender.enqueue payload).2 = .error message →
      (sender.enqueue payload).1 = sender) ∧
    (∀ (sender : Sender) epoch sequence message,
      (sender.acknowledge epoch sequence).2 = .error message →
      (sender.acknowledge epoch sequence).1 = sender) ∧
    (∀ (receiver : Receiver) frame message, (receiver.stage frame).2 = .error message →
      (receiver.stage frame).1 = receiver) ∧
    ∀ (receiver : Receiver) sequence message, (receiver.commit sequence).2 = .error message →
      (receiver.commit sequence).1 = receiver := by
  have linked := Linked.run sends receives run
  refine ⟨?_, linked.cursor, ?_, ?_, ?_, ⟨linked.sent.counted, linked.sent.withinBytes,
    linked.sent.withinFrames, ?_⟩, ⟨linked.follows.counted, linked.bounded.2, linked.bounded.1,
    fun _ next => linked.follows.next_length_le next⟩, ?_, ?_, ?_, ?_, ?_⟩
  · rw [linked.committed, linked.enqueued]
    nth_rewrite 2 [← List.take_append_drop s.receiver.committed s.frames]
    exact ⟨payloads (s.frames.drop s.receiver.committed), List.flatMap_append.symm⟩
  · exact linked.follows.behind.trans_eq linked.sent.length
  · rw [← linked.frames, linked.sent.numbered.map_number, linked.sent.length]
  · rw [← linked.frames]
    exact linked.sent.retained
  · intro sequence
    rw [linked.sent.counted]
    exact total_le_of_sublist (List.takeWhile_sublist _)
  · intro op result member
    exact linked.succeeds _ member
  · intro sender payload message failed
    have call := sender.enqueue_enqueues payload
    generalize sender.enqueue payload = result at call failed ⊢
    cases call with
    | refused => rfl
    | accepted => cases failed
  · intro sender epoch sequence message failed
    have call := sender.acknowledge_acknowledges epoch sequence
    generalize sender.acknowledge epoch sequence = result at call failed ⊢
    cases call with
    | refused | repeated => rfl
    | advanced => cases failed
  · intro receiver frame message failed
    have call := receiver.stage_stages frame
    generalize receiver.stage frame = result at call failed ⊢
    cases call with
    | foreign | beyond | conflicting | full | duplicate => rfl
    | inserted => cases failed
  · intro receiver sequence message failed
    have call := receiver.commit_commits sequence
    generalize receiver.commit sequence = result at call failed ⊢
    cases call with
    | refused => rfl
    | applied => cases failed

/-- Whatever was lost before, the retained frames sent once more deliver everything that
    was enqueued, and nothing has to be retained any longer. -/
theorem replay_recovers {epoch : String} {sender : Sender} {receiver : Receiver}
    {history : List Event} {s : Session} (sends : Sender.new epoch = .ok sender)
    (receives : Receiver.new epoch = .ok receiver)
    (run : Run (answers Session.step) (.start sender receiver) history s) :
    committed (history ++ (feed Session.step s s.recovery).1) = enqueued history ∧
      (feed Session.step s s.recovery).2.sender.replay = [] := by
  have linked := Linked.run sends receives run
  have behind := linked.sent.behind
  have count : s.sender.pending.length = s.sender.last - s.sender.acknowledged := by
    rw [linked.sent.retained, List.length_drop, linked.sent.length]
  have numbered := linked.sent.numbered.drop s.sender.acknowledged
  rw [← linked.sent.retained, Nat.add_comm] at numbered
  obtain ⟨all, same, frames⟩ := linked.resent_all numbered
    (fun frame member => List.mem_of_mem_drop (linked.sent.retained ▸ member)) linked.cursor
  obtain ⟨receiver, kept, empty⟩ := (linked.fed (Session.resend s.sender.pending)).settled
    (by rw [same]; omega)
  rw [same, ← feed_append] at receiver kept empty
  refine ⟨?_, empty⟩
  have final : (feed Session.step s s.recovery).2.frames = s.frames := kept.trans frames
  rw [(linked.fed s.recovery).committed, linked.enqueued, final, List.take_of_length_le]
  rw [linked.sent.length, show (feed Session.step s s.recovery).2.receiver = _ from receiver]
  omega

def exampleEpoch : String := "aaaaaaaaaaaaaaaaaaaaaaaaaaaaaaaa"

def exampleFrame (sequence : Nat) (byte : UInt8)
    (numbered : 1 ≤ sequence ∧ sequence ≤ maxSequence) : Frame :=
  ⟨exampleEpoch, sequence, [byte], by decide, numbered, by simp [maxPayload]⟩

theorem reordered_replay_is_committed_once : let first := exampleFrame 1 5 (by decide)
    let second := exampleFrame 2 6 (by decide)
    let run := feed Session.step (.start ⟨exampleEpoch, 0, 0, [], 0⟩ ⟨exampleEpoch, 0, .empty, 0⟩)
      [.enqueue [5], .enqueue [6], .stage second, .commit, .stage first, .stage first, .commit,
        .report, .commit, .stage second, .acknowledge 1]
    committed run.1 = [5, 6] ∧ committed run.1 <+: enqueued run.1 ∧
      run.2.sender.replay = (produced run.1).drop run.2.sender.acknowledged := by
  intro first second run
  obtain ⟨ordered, _, _, _, replayed, _⟩ := delivery_is_exactly_once
    (Sender.new_eq_ok (by decide)) (Receiver.new_eq_ok (by decide))
    (feed_run Session.step _ _ : Run _ _ run.1 run.2)
  exact ⟨by decide, ordered, replayed⟩

theorem lost_frame_is_recovered :
    let run := feed Session.step (.start ⟨exampleEpoch, 0, 0, [], 0⟩ ⟨exampleEpoch, 0, .empty, 0⟩)
      [.enqueue [5], .enqueue [6], .stage (exampleFrame 2 6 (by decide)), .commit]
    committed run.1 = [] ∧ committed (run.1 ++ (feed Session.step run.2 run.2.recovery).1) = [5, 6] := by
  intro run
  have recovered := replay_recovers (Sender.new_eq_ok (by decide)) (Receiver.new_eq_ok (by decide))
    (feed_run Session.step _ _ : Run _ _ run.1 run.2)
  exact ⟨by decide, recovered.1.trans (by decide)⟩

end PortHub.Terminal.Delivery
