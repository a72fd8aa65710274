import PortHub.Rust
import PortHub.Lib.Framing

/-! # The wire of a TURN allocation

The relay carries TURN over a WebSocket, whose messages need not begin or end
where a TURN frame does. The wire task gathers what arrives and hands complete
frames to the client.
-/

namespace PortHub.Mesh.TurnFraming

open Framing

def limit : Nat := 65536

/-- The size that the first four bytes announce. `& !3` clears the last two
    bits. -/
def announced (bytes : List UInt8) : Result Nat :=
  let length := (be16 (bytes.getD 2 0) (bytes.getD 3 0)).toNat
  if bytes.getD 0 0 &&& 0xc0 = 0 then do
    ensure (decide (length % 4 = 0)) "invalid TURN STUN length"
    return 20 + length
  else if bytes.getD 0 0 &&& 0xc0 = 0x40 then return (4 + length + 3) / 4 * 4
  else .error "invalid TURN frame"

/-- The size of the frame that the buffer begins with. -/
def frameSize (bytes : List UInt8) : Result Nat := do
  let size ← announced bytes
  ensure (decide (size ≤ limit)) "private TURN frame exceeds limit"
  return size

/-- How the task ends. A packet whose receiver went away, or which was taken
    when the task was cancelled, is dropped. -/
inductive Ending where
  | done
  | failed (message : String)
  | stopped (packet : List UInt8)
  deriving DecidableEq

/-- What the task writes to the WebSocket. -/
inductive Written where
  | binary (packet : List UInt8)
  | pong (packet : List UInt8)
  deriving DecidableEq

structure Wire where
  bytes : List UInt8
  delivered : List (List UInt8)
  written : List Written
  ending : Option Ending
  deriving DecidableEq

def Wire.new : Wire := ⟨[], [], [], none⟩

/-- What the task wakes up for, with the outcome of the write it then makes. -/
inductive Event where
  | cancelled
  | output (packet : Option (List UInt8)) (outcome : Result Unit)
  | binary (packet : List UInt8)
  | ping (packet : List UInt8) (outcome : Result Unit)
  | pong
  | other

namespace Wire

-- Whether the client takes the packet that follows so many others.
variable (listening : Nat → Bool)

/-- The inner loop; nothing when it is still running after `rounds` rounds. -/
def drain : Nat → Wire → Option Wire
  | 0, _ => none
  | rounds + 1, wire =>
      if wire.bytes.length < 4 then some wire
      else
        match frameSize wire.bytes with
        | .error message => some { wire with ending := some (.failed message) }
        | .ok size =>
            if wire.bytes.length < size then some wire
            else
              let packet := wire.bytes.take size
              let wire := { wire with bytes := wire.bytes.drop size }
              if listening wire.delivered.length then
                drain rounds { wire with delivered := wire.delivered ++ [packet] }
              else some { wire with ending := some (.stopped packet) }

def write (wire : Wire) (message : Written) : Result Unit → Wire
  | .ok () => { wire with written := wire.written ++ [message] }
  | .error message => { wire with ending := some (.failed message) }

/-- One round of the outer loop. -/
def step (rounds : Nat) (wire : Wire) (event : Event) : Option Wire :=
  if wire.ending.isSome then some wire
  else
    match event with
    | .cancelled => some { wire with ending := some .done }
    | .output none _ => some { wire with ending := some .done }
    | .output (some packet) outcome => some (wire.write (.binary packet) outcome)
    | .binary packet =>
        if wire.bytes.length + packet.length ≤ limit then
          drain listening rounds { wire with bytes := wire.bytes ++ packet }
        else some { wire with ending := some (.failed "private TURN frame exceeds limit") }
    | .ping packet outcome => some (wire.write (.pong packet) outcome)
    | .pong => some wire
    | .other => some { wire with ending := some .done }

/-- The task, from when the connection was made. -/
def run (rounds : Nat) (events : List Event) : Option Wire :=
  events.foldlM (step listening rounds) .new

end Wire

/-- The bytes of the messages that carry any. -/
def packets (events : List Event) : List (List UInt8) :=
  events.filterMap fun
    | .binary packet => some packet
    | _ => none

/-- Nothing but a message that carries bytes can end the task. -/
def Event.goesOn : Event → Prop
  | .cancelled | .other | .output none _ => False
  | .output (some _) outcome | .ping _ outcome => outcome = .ok ()
  | .binary _ | .pong => True

/-- A TURN frame of at most `limit` bytes: a STUN message, or channel data padded
    to a multiple of four. -/
structure WellFormed (frame : List UInt8) : Prop where
  header : 4 ≤ frame.length
  bounded : frame.length ≤ limit
  sized :
    let length := (be16 (frame.getD 2 0) (frame.getD 3 0)).toNat
    (frame.getD 0 0 &&& 0xc0 = 0 ∧ length % 4 = 0 ∧ frame.length = 20 + length) ∨
    (frame.getD 0 0 &&& 0xc0 = 0x40 ∧ frame.length % 4 = 0 ∧ 4 + length ≤ frame.length ∧
      frame.length < 4 + length + 4)

/-- The packet that was taken out of the buffer and given up. -/
def Wire.dropped (wire : Wire) : List UInt8 :=
  match wire.ending with
  | some (.stopped packet) => packet
  | _ => []

section Frames

variable {bytes frame : List UInt8} {size : Nat}

theorem getD_take {index} (inside : index < size) :
    (bytes.take size).getD index 0 = bytes.getD index 0 := by
  rw [List.getD_eq_getElem?_getD, List.getD_eq_getElem?_getD, List.getElem?_take_of_lt inside]

/-- The size is read from the first four bytes. -/
theorem frameSize_take (header : 4 ≤ size) : frameSize (bytes.take size) = frameSize bytes := by
  unfold frameSize announced
  rw [getD_take (by omega), getD_take (by omega), getD_take (by omega)]

theorem frameSize_begun {stream} (begun : bytes <+: frame ++ stream) (long : 4 ≤ bytes.length)
    (header : 4 ≤ frame.length) : frameSize bytes = frameSize frame := by
  obtain ⟨gap, joined⟩ := begun
  have same : bytes.take 4 = frame.take 4 := by
    rw [← List.take_append_of_le_length long, joined, List.take_append_of_le_length header]
  have fromBytes : frameSize (bytes.take 4) = frameSize bytes := frameSize_take (by omega)
  have fromFrame : frameSize (frame.take 4) = frameSize frame := frameSize_take (by omega)
  rw [← fromBytes, same, fromFrame]

theorem frameSize_wellFormed (wellFormed : WellFormed frame) : frameSize frame = .ok frame.length := by
  obtain ⟨_, bounded, stun | channel⟩ := wellFormed
  · obtain ⟨kind, whole, sized⟩ := stun
    rw [sized] at bounded ⊢
    simp only [frameSize, announced, kind, whole, bounded, if_true, decide_true, ensure, bind, Except.bind, pure,
      Except.pure]
  · obtain ⟨kind, padded, atLeast, below⟩ := channel
    have rounded : (4 + (be16 (frame.getD 2 0) (frame.getD 3 0)).toNat + 3) / 4 * 4 = frame.length := by
      omega
    have other : ¬((0x40 : UInt8) = 0) := by decide
    simp only [frameSize, announced, kind, rounded, bounded, other, if_true, if_false, decide_true, ensure, bind,
      Except.bind, pure, Except.pure]

theorem frameSize_eq_ok (measured : frameSize bytes = .ok size) :
    size ≤ limit ∧
      let length := (be16 (bytes.getD 2 0) (bytes.getD 3 0)).toNat
      (bytes.getD 0 0 &&& 0xc0 = 0 ∧ length % 4 = 0 ∧ size = 20 + length) ∨
        (bytes.getD 0 0 &&& 0xc0 = 0x40 ∧ size = (4 + length + 3) / 4 * 4) := by
  obtain ⟨computed, chosen, measured⟩ := bind_eq_ok.mp measured
  obtain ⟨_, bounded, measured⟩ := bind_eq_ok.mp measured
  obtain rfl := pure_eq_ok.mp measured
  refine ⟨of_decide_eq_true (ensure_eq_ok.mp bounded), ?_⟩
  unfold announced at chosen
  split at chosen
  · rename_i kind
    obtain ⟨_, whole, chosen⟩ := bind_eq_ok.mp chosen
    exact .inl ⟨kind, of_decide_eq_true (ensure_eq_ok.mp whole), (pure_eq_ok.mp chosen).symm⟩
  · split at chosen
    · rename_i kind
      exact .inr ⟨kind, (pure_eq_ok.mp chosen).symm⟩
    · cases chosen

/-- What is cut off the buffer is a frame. -/
theorem wellFormed_take (measured : frameSize bytes = .ok size) (whole : size ≤ bytes.length) :
    4 ≤ size ∧ WellFormed (bytes.take size) := by
  obtain ⟨bounded, sized⟩ := frameSize_eq_ok measured
  have header : 4 ≤ size := by omega
  have taken : (bytes.take size).length = size := List.length_take_of_le whole
  refine ⟨header, taken.symm ▸ header, taken.symm ▸ bounded, ?_⟩
  rw [taken, getD_take (by omega), getD_take (by omega), getD_take (by omega)]
  rcases sized with ⟨kind, multiple, sized⟩ | ⟨kind, sized⟩
  · exact .inl ⟨kind, multiple, sized⟩
  · exact .inr ⟨kind, by omega, by omega, by omega⟩

end Frames

section Drain

variable {listening : Nat → Bool}

/-- Everything that was in the buffer is handed over in whole frames, given up
    with the task, or still there. -/
structure Drained (before after : Wire) : Prop where
  frames : ∃ more, after.delivered = before.delivered ++ more ∧ (∀ frame ∈ more, WellFormed frame) ∧
    before.bytes = more.flatten ++ after.dropped ++ after.bytes

/-- A round takes at least four bytes, so the loop ends. -/
theorem drain_drained {rounds} {wire : Wire} (running : wire.ending = none)
    (enough : wire.bytes.length < 4 * rounds) :
    ∃ after, Wire.drain listening rounds wire = some after ∧ Drained wire after := by
  induction rounds generalizing wire with
  | zero => omega
  | succ rounds ih =>
      have nothing : wire.dropped = [] := by simp [Wire.dropped, running]
      unfold Wire.drain
      split
      · exact ⟨wire, rfl, [], by simp, by simp, by simp [nothing]⟩
      · split
        · exact ⟨_, rfl, [], by simp, by simp, by simp [Wire.dropped]⟩
        · rename_i size measured
          split
          · exact ⟨wire, rfl, [], by simp, by simp, by simp [nothing]⟩
          · rename_i whole
            obtain ⟨header, wellFormed⟩ := wellFormed_take measured (Nat.le_of_not_lt whole)
            dsimp only
            split
            · have fewer : (wire.bytes.drop size).length < 4 * rounds := by
                rw [List.length_drop]
                omega
              let next : Wire := { wire with
                bytes := wire.bytes.drop size
                delivered := wire.delivered ++ [wire.bytes.take size] }
              obtain ⟨after, drained, more, delivered, formed, kept⟩ :=
                ih (show next.ending = none from running) fewer
              refine ⟨after, drained, wire.bytes.take size :: more, ?_, ?_, ?_⟩
              · rw [delivered, List.append_assoc, List.singleton_append]
              · exact List.forall_mem_cons.mpr ⟨wellFormed, formed⟩
              · rw [List.flatten_cons, List.append_assoc, List.append_assoc, ← List.append_assoc more.flatten,
                  ← kept, List.take_append_drop]
            · exact ⟨_, rfl, [], by simp, by simp, by simp [Wire.dropped]⟩

/-- The frames of a stream are taken out one by one, whatever the buffer breaks
    off in. -/
theorem drain_cut {rounds} {wire : Wire} {frames} (listens : ∀ n, listening n = true)
    (running : wire.ending = none) (formed : ∀ frame ∈ frames, WellFormed frame)
    (begun : wire.bytes <+: frames.flatten) (enough : wire.bytes.length < 4 * rounds) :
    ∃ after more, Wire.drain listening rounds wire = some after ∧ after.ending = none ∧
      after.delivered = wire.delivered ++ more ∧ Cut frames wire.bytes more after.bytes := by
  induction rounds generalizing wire frames with
  | zero => omega
  | succ rounds ih =>
      unfold Wire.drain
      split
      · rename_i short
        refine ⟨wire, [], rfl, running, by simp, cut_short begun fun next first => ?_⟩
        have header := (formed next (List.mem_of_mem_head? first)).header
        omega
      · rename_i long
        cases frames with
        | nil =>
            rw [List.flatten_nil, List.prefix_nil] at begun
            rw [begun] at long
            exact absurd (by decide) long
        | cons frame rest =>
            obtain ⟨first, others⟩ := List.forall_mem_cons.mp formed
            rw [List.flatten_cons] at begun
            have header := first.header
            have measured : frameSize wire.bytes = .ok frame.length := by
              rw [frameSize_begun begun (Nat.le_of_not_lt long) header, frameSize_wellFormed first]
            rw [measured]
            dsimp only
            split
            · rename_i short
              refine ⟨wire, [], rfl, running, by simp, cut_short (by simpa using begun) ?_⟩
              intro next same
              cases same
              exact short
            · rename_i whole
              have starts : frame <+: wire.bytes :=
                List.prefix_of_prefix_length_le (List.prefix_append _ _) begun (Nat.le_of_not_lt whole)
              obtain ⟨tail, split⟩ := starts
              rw [← split, List.prefix_append_right_inj] at begun
              have fewer : tail.length < 4 * rounds := by
                rw [← split, List.length_append] at enough
                omega
              let next : Wire := { wire with bytes := tail, delivered := wire.delivered ++ [frame] }
              obtain ⟨after, more, drained, still, delivered, cut⟩ :=
                ih (show next.ending = none from running) others begun fewer
              refine ⟨after, frame :: more, ?_, still, ?_, ?_⟩
              · rw [if_pos (listens _), ← split, List.drop_left, List.take_left]
                exact drained
              · rw [delivered, List.append_assoc, List.singleton_append]
              · rw [← split]
                exact cut_cons frame cut

end Drain

section Runs

variable {listening : Nat → Bool} {rounds : Nat} {events : List Event} {event : Event} {wire : Wire}
  {frames : List (List UInt8)}

theorem run_snoc (events : List Event) (event : Event) :
    Wire.run listening rounds (events ++ [event]) =
      (Wire.run listening rounds events).bind fun wire => Wire.step listening rounds wire event := by
  simp [Wire.run, List.foldlM_append, bind]

theorem packets_snoc (events : List Event) (event : Event) :
    packets (events ++ [event]) = packets events ++ packets [event] :=
  List.filterMap_append

/-- What the client got, what was given up and what is still in the buffer are
    the messages read so far. Only a task that ended leaves messages unread. -/
structure Accounts (events : List Event) (wire : Wire) : Prop where
  formed : ∀ frame ∈ wire.delivered, WellFormed frame
  copied : ∃ read unread, packets events = read ++ unread ∧ (wire.ending = none → unread = []) ∧
    wire.delivered.flatten ++ wire.dropped ++ wire.bytes = read.flatten

theorem accounts_new : Accounts [] .new :=
  ⟨fun _ member => absurd member List.not_mem_nil, [], [], rfl, fun _ => rfl, rfl⟩

/-- Nothing that the client could notice, and the task may end. -/
theorem Accounts.quiet {after : Wire} (accounts : Accounts events wire)
    (none : packets [event] = []) (bytes : after.bytes = wire.bytes)
    (delivered : after.delivered = wire.delivered) (dropped : after.dropped = wire.dropped)
    (running : after.ending = .none → wire.ending = .none) :
    Accounts (events ++ [event]) after := by
  obtain ⟨formed, read, unread, split, all, copied⟩ := accounts
  refine ⟨delivered ▸ formed, read, unread, ?_, fun still => all (running still), ?_⟩
  · rw [packets_snoc, none, List.append_nil, split]
  · rw [bytes, delivered, dropped, copied]

/-- Messages that come after the end, or that end it, are not read. -/
theorem Accounts.unread (event : Event) {after : Wire} (accounts : Accounts events wire)
    (bytes : after.bytes = wire.bytes) (delivered : after.delivered = wire.delivered)
    (dropped : after.dropped = wire.dropped) (ended : after.ending.isSome) :
    Accounts (events ++ [event]) after := by
  obtain ⟨formed, read, unread, split, _, copied⟩ := accounts
  refine ⟨delivered ▸ formed, read, unread ++ packets [event], ?_, fun still => ?_, ?_⟩
  · rw [packets_snoc, split, List.append_assoc]
  · rw [still] at ended
    cases ended
  · rw [bytes, delivered, dropped, copied]

theorem dropped_running (running : wire.ending = none) : wire.dropped = [] := by
  simp [Wire.dropped, running]

theorem write_accounts (accounts : Accounts events wire) (running : wire.ending = none)
    (none : packets [event] = []) (message : Written) (outcome : Result Unit) :
    Accounts (events ++ [event]) (wire.write message outcome) := by
  cases outcome with
  | ok => exact accounts.quiet none rfl rfl rfl id
  | error reason => exact accounts.unread event rfl rfl (dropped_running running).symm rfl

theorem step_accounts (enough : limit < 4 * rounds) (accounts : Accounts events wire)
    (event : Event) :
    ∃ after, Wire.step listening rounds wire event = some after ∧ Accounts (events ++ [event]) after := by
  unfold Wire.step
  split
  · rename_i ended
    exact ⟨wire, rfl, accounts.unread event rfl rfl rfl ended⟩
  · rename_i live
    have running : wire.ending = none := by simpa using live
    have nothing := dropped_running running
    cases event with
    | cancelled | other => exact ⟨_, rfl, accounts.unread _ rfl rfl nothing.symm rfl⟩
    | pong => exact ⟨_, rfl, accounts.quiet rfl rfl rfl rfl id⟩
    | ping packet outcome => exact ⟨_, rfl, write_accounts accounts running rfl _ _⟩
    | output packet outcome =>
        cases packet with
        | none => exact ⟨_, rfl, accounts.unread _ rfl rfl nothing.symm rfl⟩
        | some packet => exact ⟨_, rfl, write_accounts accounts running rfl _ _⟩
    | binary packet =>
        dsimp only
        split
        · rename_i fits
          have short : (wire.bytes ++ packet).length < 4 * rounds := by
            rw [List.length_append]
            omega
          let filled : Wire := { wire with bytes := wire.bytes ++ packet }
          obtain ⟨after, drained, more, delivered, fresh, kept⟩ :=
            drain_drained (show filled.ending = none from running) short
          obtain ⟨formed, read, unread, split, all, copied⟩ := accounts
          obtain rfl := all running
          rw [List.append_nil] at split
          refine ⟨after, drained, ?_, packets events ++ [packet], [], ?_, fun _ => rfl, ?_⟩
          · rw [delivered]
            exact List.forall_mem_append.mpr ⟨formed, fresh⟩
          · rw [packets_snoc, List.append_nil]
            rfl
          · rw [delivered, split, List.flatten_append, List.flatten_append, ← copied, nothing,
              List.append_nil, List.flatten_singleton, List.append_assoc, List.append_assoc,
              List.append_assoc, ← List.append_assoc more.flatten, ← kept]
        · exact ⟨_, rfl, accounts.unread _ rfl rfl nothing.symm rfl⟩

theorem run_accounts (listening : Nat → Bool) (enough : limit < 4 * rounds) (events : List Event) :
    ∃ wire, Wire.run listening rounds events = some wire ∧ Accounts events wire := by
  induction events using List.reverseRecOn with
  | nil => exact ⟨.new, rfl, accounts_new⟩
  | append_singleton events event ih =>
      obtain ⟨wire, ran, accounts⟩ := ih
      rw [run_snoc, ran]
      exact step_accounts enough accounts event

/-- Every message fits beside the frame that has begun. -/
def Fits (frames messages : List (List UInt8)) : Prop :=
  ∀ before packet after, messages = before ++ packet :: after →
    ∀ whole tail, Cut frames before.flatten whole tail → tail.length + packet.length ≤ limit

theorem Fits.before {earlier later} (fits : Fits frames (earlier ++ later)) :
    Fits frames earlier := by
  intro before packet after split
  exact fits before packet (after ++ later) (by rw [split, List.append_assoc, List.cons_append])

/-- The frames that arrived have been handed over, and only they. -/
structure Follows (frames : List (List UInt8)) (events : List Event) (wire : Wire) : Prop where
  running : wire.ending = none
  cut : Cut frames (packets events).flatten wire.delivered wire.bytes

theorem step_follows (enough : limit < 4 * rounds) (listens : ∀ n, listening n = true)
    (formed : ∀ frame ∈ frames, WellFormed frame) (follows : Follows frames events wire)
    (goesOn : event.goesOn) (arrived : (packets (events ++ [event])).flatten <+: frames.flatten)
    (fits : Fits frames (packets (events ++ [event]))) :
    ∃ after, Wire.step listening rounds wire event = some after ∧
      Follows frames (events ++ [event]) after := by
  obtain ⟨running, cut⟩ := follows
  have silent (none : packets [event] = []) :
      Cut frames (packets (events ++ [event])).flatten wire.delivered wire.bytes := by
    rw [packets_snoc, none, List.append_nil]
    exact cut
  unfold Wire.step
  rw [if_neg (by simp [running])]
  cases event with
  | cancelled => exact goesOn.elim
  | other => exact goesOn.elim
  | pong => exact ⟨_, rfl, running, silent rfl⟩
  | ping packet outcome =>
      obtain rfl : outcome = .ok () := goesOn
      exact ⟨_, rfl, running, silent rfl⟩
  | output packet outcome =>
      cases packet with
      | none => exact goesOn.elim
      | some packet =>
          obtain rfl : outcome = .ok () := goesOn
          exact ⟨_, rfl, running, silent rfl⟩
  | binary packet =>
      have one : packets [Event.binary packet] = [packet] := rfl
      rw [packets_snoc, one] at fits arrived
      rw [List.flatten_append, List.flatten_singleton] at arrived
      have room := fits _ packet [] rfl _ _ cut
      obtain ⟨rest, rfl, begun, extend⟩ := cut.remaining arrived
      have short : (wire.bytes ++ packet).length < 4 * rounds := by
        rw [List.length_append]
        omega
      let filled : Wire := { wire with bytes := wire.bytes ++ packet }
      obtain ⟨after, more, drained, still, delivered, further⟩ :=
        drain_cut listens (show filled.ending = none from running)
          (fun frame member => formed frame (List.mem_append_right _ member)) begun short
      refine ⟨after, ?_, still, ?_⟩
      · dsimp only
        rw [if_pos room]
        exact drained
      · rw [packets_snoc, one, List.flatten_append, List.flatten_singleton, delivered]
        exact extend further

theorem run_follows (enough : limit < 4 * rounds) (listens : ∀ n, listening n = true)
    (formed : ∀ frame ∈ frames, WellFormed frame) (goesOn : ∀ event ∈ events, event.goesOn)
    (arrived : (packets events).flatten <+: frames.flatten) (fits : Fits frames (packets events)) :
    ∃ wire, Wire.run listening rounds events = some wire ∧ Follows frames events wire := by
  induction events using List.reverseRecOn with
  | nil =>
      refine ⟨.new, rfl, rfl, cut_nil fun frame member => ?_⟩
      have header := (formed frame member).header
      omega
  | append_singleton events event ih =>
      obtain ⟨earlier, last⟩ := List.forall_mem_append.mp goesOn
      have sooner : (packets events).flatten <+: frames.flatten := by
        rw [packets_snoc, List.flatten_append] at arrived
        exact (List.prefix_append _ _).trans arrived
      have smaller : Fits frames (packets events) := by
        rw [packets_snoc] at fits
        exact fits.before
      obtain ⟨wire, ran, follows⟩ := ih earlier sooner smaller
      rw [run_snoc, ran]
      exact step_follows enough listens formed follows (last event (List.mem_singleton_self event))
        arrived fits

end Runs

/-- Frames come out as they went in, however the stream was cut into messages,
    and what is left is the part of a frame that has begun. Whatever bytes arrive,
    none are lost, repeated or moved, and the loop ends. -/
theorem framing_is_independent_of_messages (rounds : Nat) (enough : limit < 4 * rounds) :
    (∀ listening : Nat → Bool, (∀ n, listening n = true) →
      ∀ frames : List (List UInt8), (∀ frame ∈ frames, WellFormed frame) →
      ∀ events : List Event, (∀ event ∈ events, event.goesOn) →
        (packets events).flatten <+: frames.flatten → Fits frames (packets events) →
        ∃ wire, Wire.run listening rounds events = some wire ∧ wire.ending = none ∧
          Cut frames (packets events).flatten wire.delivered wire.bytes ∧
          ((packets events).flatten = frames.flatten → wire.delivered = frames ∧ wire.bytes = [])) ∧
    ∀ (listening : Nat → Bool) (events : List Event),
      ∃ wire read unread, Wire.run listening rounds events = some wire ∧
        packets events = read ++ unread ∧ (wire.ending = none → unread = []) ∧
        wire.delivered.flatten ++ wire.dropped ++ wire.bytes = read.flatten ∧
        ∀ frame ∈ wire.delivered, WellFormed frame := by
  constructor
  · intro listening listens frames formed events goesOn arrived fits
    obtain ⟨wire, ran, running, cut⟩ := run_follows enough listens formed goesOn arrived fits
    refine ⟨wire, ran, running, cut, fun all => ?_⟩
    rw [all] at cut
    exact cut.complete
  · intro listening events
    obtain ⟨wire, ran, formed, read, unread, split, all, copied⟩ := run_accounts listening enough events
    exact ⟨wire, read, unread, ran, split, all, copied, formed⟩

/-- A STUN message and padded channel data. -/
def exampleFrames : List (List UInt8) := [0 :: 1 :: List.replicate 18 0, [0x40, 0, 0, 3, 7, 8, 9, 0]]

/-- The same bytes, in messages that end inside a header and inside a frame. -/
def exampleEvents : List Event :=
  [.binary (exampleFrames.flatten.take 3), .pong,
    .binary ((exampleFrames.flatten.drop 3).take 20), .binary (exampleFrames.flatten.drop 23)]

/-- Short streams fit any way they are cut. -/
theorem fits_of_short {frames} {messages : List (List UInt8)}
    (short : messages.flatten.length ≤ limit) :
    Fits frames messages := by
  rintro before packet after rfl whole tail ⟨_, _, split, _⟩
  rw [List.flatten_append, List.flatten_cons, split] at short
  simp only [List.length_append] at short
  omega

theorem example_frames_are_delivered :
    ∃ wire, Wire.run (fun _ => true) 16385 exampleEvents = some wire ∧
      wire.delivered = exampleFrames ∧ wire.bytes = [] := by
  have all : (packets exampleEvents).flatten = exampleFrames.flatten := by decide
  have formed : ∀ frame ∈ exampleFrames, WellFormed frame := by
    intro frame member
    rcases List.mem_cons.mp member with rfl | last
    · exact ⟨by decide, by decide, by decide⟩
    · obtain rfl := List.mem_singleton.mp last
      exact ⟨by decide, by decide, by decide⟩
  have goesOn : ∀ event ∈ exampleEvents, event.goesOn := by
    simp [exampleEvents, Event.goesOn]
  obtain ⟨wire, ran, _, _, complete⟩ := (framing_is_independent_of_messages 16385 (by decide)).1
    (fun _ => true) (fun _ => rfl) exampleFrames formed exampleEvents goesOn (all ▸ List.prefix_rfl)
    (fits_of_short (by decide))
  exact ⟨wire, ran, complete all⟩

end PortHub.Mesh.TurnFraming
