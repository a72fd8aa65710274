import PortHub.Terminal.HubViewers

/-! # Attachments that fail

A participant that joins again is taken out, and told so, before it is known
whether it can be let in. An attachment that fails has then already closed the
earlier one. This module says exactly when a failed attachment changes nothing
that the viewers or the host could notice.
-/

namespace PortHub.Terminal.Hub

namespace State

/-- Nothing changed that a viewer or the host could notice. -/
structure Undisturbed (before after : State) : Prop where
  viewers : after.viewers = before.viewers
  host : after.host = before.host
  sent : after.sent = before.sent

theorem Undisturbed.refl (state : State) : state.Undisturbed state := ⟨rfl, rfl, rfl⟩

/-- One more viewer can be let in once `leaving` others have been taken out. -/
structure Ready (options : Options) (leaving : Nat) (state : State) : Prop where
  room : state.viewers.len < min options.maxViewers.toNat maxViewers + leaving
  numbered : state.nextClient + 1 < 2 ^ 53
  queue : ∃ host, state.host = some host ∧ host.closed = false ∧
    host.queue.length + leaving < host.capacity

/-- The welcome fits an empty queue. -/
def Greets (call : Call) (options : Options) (readOnly : Bool) (leaving : Nat) (state : State) :
    Prop :=
  call.charge (.welcome state.directTransport state.historySnapshots options.name readOnly
    state.invitationExpiresAt (state.viewers.len - leaving + 1)) ≤ quotaBytes

/-- The participant passes the checks on its identity. -/
def Accepts (state : State) : Option Nat → Prop
  | none => True
  | some identity => (0 < identity ∧ identity < 2 ^ 53) ∧ state.host.isSome

/-- The participant is attached already. -/
def Known (state : State) (identity : Option Nat) : Prop :=
  ∃ name, identity = some name ∧ ∃ viewer ∈ state.viewers.values, viewer.identity = name

/-- Whoever is replaced can also be let in again, and whoever is let in is
    welcomed. -/
def Settles (call : Call) (options : Options) (identity : Option Nat) (readOnly : Bool)
    (state : State) : Prop :=
  state.Accepts identity →
    (state.Known identity → state.Ready options 1 ∧ state.Greets call options readOnly 1) ∧
    (¬state.Known identity → state.Ready options 0 → state.Greets call options readOnly 0)

variable {call : Call} {state : State} {options : Options} {readOnly : Bool}

section Queues

theorem trySend_full {α : Type} {channel : Channel α} (item : α)
    (full : ¬(channel.closed = false ∧ channel.queue.length < channel.capacity)) :
    ∃ message, channel.trySend item = .error message := by
  unfold Channel.trySend
  cases shut : channel.closed with
  | true => exact ⟨_, rfl⟩
  | false =>
      have crowded : ¬channel.queue.length < channel.capacity := fun room => full ⟨shut, room⟩
      refine ⟨"no available capacity", ?_⟩
      simp only [Bool.false_eq_true, if_false, if_neg crowded]

variable {charge : ViewerEvent → Nat}

/-- A queue that was just made takes whatever fits its bytes. -/
theorem new_trySend_ok {event} (fits : charge event ≤ quotaBytes) :
    ∃ events, Sender.new.trySend charge event = .ok events := by
  have small : ¬Sender.new.quota < min (charge event) (2 ^ 32 - 1) := by
    rw [Nat.not_lt]
    exact (Nat.min_le_left _ _).trans fits
  have empty : Sender.new.inner.queue.length < Sender.new.inner.capacity := by decide
  rw [Sender.trySend, if_neg (by decide), if_neg small, trySend_ok _ rfl empty]
  exact ⟨_, rfl⟩

theorem new_trySend_error {event} (heavy : ¬charge event ≤ quotaBytes) :
    ∃ message, Sender.new.trySend charge event = .error message := by
  have large : Sender.new.quota < min (charge event) (2 ^ 32 - 1) := by
    have bounded : quotaBytes < 2 ^ 32 - 1 := by decide
    exact lt_min (Nat.lt_of_not_le heavy) bounded
  exact ⟨_, by rw [Sender.trySend, if_neg (by decide), if_pos large]⟩

theorem tryHost_ok (state : State) {host} (connected : state.host = some host)
    (live : host.closed = false) (room : host.queue.length < host.capacity) (event : HostEvent)
    (missing : String) :
    state.tryHost event missing =
      ({ state with host := some { host with queue := host.queue ++ [event] } }.record [.host event],
        .ok ()) := by
  rw [tryHost, connected]
  dsimp only
  rw [trySend_ok event live room]

theorem tryHost_error (event : HostEvent) (missing : String)
    (full : ¬∃ host, state.host = some host ∧ host.closed = false ∧
      host.queue.length < host.capacity) :
    ∃ message, state.tryHost event missing = (state, .error message) := by
  unfold tryHost
  cases connected : state.host with
  | none => exact ⟨_, rfl⟩
  | some host =>
      have crowded : ¬(host.closed = false ∧ host.queue.length < host.capacity) :=
        fun room => full ⟨host, connected, room⟩
      obtain ⟨message, refused⟩ := trySend_full event crowded
      exact ⟨message, by dsimp only; rw [refused]⟩

end Queues

section Join

variable (call) (readOnly) (identity : Option Nat) (screen : Screen)

theorem join_refused (unready : ¬state.Ready options 0) :
    ∃ message, (state.join call options identity readOnly screen).2 = .error message ∧
      state.Undisturbed (state.join call options identity readOnly screen).1 := by
  unfold join
  split
  · rename_i room
    dsimp only
    split
    · rename_i numbered
      have full : ¬∃ host, { state with nextClient := state.nextClient + 1 }.host = some host ∧
          host.closed = false ∧ host.queue.length < host.capacity :=
        fun queue => unready ⟨room, numbered, queue⟩
      obtain ⟨message, refused⟩ := tryHost_error
        (.attach state.nextClient readOnly screen.cols screen.rows screen.term)
        "terminal host unavailable" full
      rw [refused]
      exact ⟨message, rfl, rfl, rfl, rfl⟩
    · exact ⟨_, rfl, .refl state⟩
  · exact ⟨_, rfl, .refl state⟩

/-- Once the host has been told, only the welcome can fail. -/
theorem join_ready (ready : state.Ready options 0) :
    ∃ told event, told.viewers = state.viewers ∧ told.sent = state.sent ++ [.host event] ∧
      (¬state.Greets call options readOnly 0 →
        ∃ message, state.join call options identity readOnly screen = (told, .error message)) ∧
      (state.Greets call options readOnly 0 →
        (state.join call options identity readOnly screen).2 = .ok state.nextClient) := by
  obtain ⟨room, numbered, host, connected, live, space⟩ := ready
  let event := HostEvent.attach state.nextClient readOnly screen.cols screen.rows screen.term
  let told : State := { state with
    nextClient := state.nextClient + 1
    host := some { host with queue := host.queue ++ [event] } }.record [.host event]
  have welcomed : told.welcome options.name readOnly = .welcome state.directTransport
      state.historySnapshots options.name readOnly state.invitationExpiresAt
      (state.viewers.len - 0 + 1) := rfl
  rw [Nat.add_zero] at room space
  have queued : State.tryHost { state with nextClient := state.nextClient + 1 } event
      "terminal host unavailable" = (told, .ok ()) :=
    tryHost_ok { state with nextClient := state.nextClient + 1 } connected live space event _
  refine ⟨told, event, rfl, rfl, fun heavy => ?_, fun fits => ?_⟩
  · obtain ⟨message, refused⟩ := new_trySend_error heavy
    rw [join, if_pos room]
    dsimp only
    rw [if_pos numbered, queued]
    exact ⟨message, by dsimp only; rw [welcomed, refused]⟩
  · obtain ⟨events, accepted⟩ := new_trySend_ok fits
    rw [join, if_pos room]
    dsimp only
    rw [if_pos numbered, queued]
    dsimp only
    rw [welcomed, accepted]

/-- A participant that nobody is replaced by is let in or leaves no trace,
    unless it cannot be welcomed. -/
theorem join_undisturbed_iff :
    (∀ message, (state.join call options identity readOnly screen).2 = .error message →
        state.Undisturbed (state.join call options identity readOnly screen).1) ↔
      (state.Ready options 0 → state.Greets call options readOnly 0) := by
  constructor
  · intro quiet ready
    by_contra heavy
    obtain ⟨told, event, _, grown, unwelcome, _⟩ := join_ready call readOnly identity screen ready
    obtain ⟨message, failed⟩ := unwelcome heavy
    have same := (quiet message (by rw [failed])).sent
    rw [failed, grown] at same
    simp at same
  · intro fits message failed
    by_cases ready : state.Ready options 0
    · obtain ⟨_, _, _, _, _, welcome⟩ := join_ready call readOnly identity screen ready
      rw [welcome (fits ready)] at failed
      cases failed
    · obtain ⟨_, _, undisturbed⟩ := join_refused call readOnly identity screen ready
      exact undisturbed

end Join

section Replace

/-- Someone was taken out. -/
def Parted (before after : State) : Prop :=
  ∃ client viewer, before.viewers.get? client = some viewer ∧
    after.viewers = before.viewers.erase client

theorem Parted.disturbs {after} {later : State} (parted : state.Parted after)
    (same : later.viewers = after.viewers) : ¬state.Undisturbed later := by
  obtain ⟨client, viewer, present, erased⟩ := parted
  intro undisturbed
  have kept : (state.viewers.erase client).get? client = some viewer := by
    rw [← erased, ← same, undisturbed.viewers]
    exact present
  simp at kept

theorem len_of_parted {client viewer} (present : state.viewers.get? client = some viewer) :
    (state.viewers.erase client).len + 1 = state.viewers.len := by
  rw [Dict.len_eq_weight, Dict.len_eq_weight]
  exact Dict.weight_remove (fun _ => 1) present

theorem find_known {name} (known : state.Known (some name)) :
    ∃ entry, state.find call name = some entry := by
  obtain ⟨_, same, viewer, member, named⟩ := known
  cases same
  cases found : state.find call name with
  | some entry => exact ⟨entry, rfl⟩
  | none =>
      obtain ⟨client, present⟩ := Dict.mem_values_iff.mp member
      exact absurd named (find_none found client viewer present)

theorem known_of_find {name entry} (found : state.find call name = some entry) :
    state.Known (some name) := by
  obtain ⟨present, named⟩ := find_some found
  exact ⟨name, rfl, entry.2, Dict.mem_values_iff.mpr ⟨entry.1, present⟩, named⟩

variable {identity : Option Nat}

/-- Nobody is replaced. -/
theorem replace_unknown (call : Call) (accepts : state.Accepts identity)
    (unknown : ¬state.Known identity) : state.replace call identity = (state, .ok ()) := by
  cases identity with
  | none => rfl
  | some name =>
      rw [replace, if_pos accepts.1, if_pos accepts.2]
      cases found : state.find call name with
      | none => rfl
      | some entry => exact absurd (known_of_find found) unknown

theorem replace_unaccepted (call : Call) (unaccepted : ¬state.Accepts identity) :
    ∃ message, state.replace call identity = (state, .error message) := by
  cases identity with
  | none => exact absurd trivial unaccepted
  | some name =>
      rw [replace]
      split
      · rename_i valid
        split
        · rename_i connected
          exact absurd ⟨valid, connected⟩ unaccepted
        · exact ⟨_, rfl⟩
      · exact ⟨_, rfl⟩

theorem farewell_records (call : Call) (state : State) (event : ViewerEvent) (entry : Nat × Viewer) :
    ∃ events, state.farewell call event entry = state.record events := by
  unfold farewell
  split
  · exact ⟨[], by simp [record]⟩
  · exact ⟨_, rfl⟩

/-- The session after the earlier attachment was taken out. -/
structure Replaced (call : Call) (before after : State) : Prop where
  parted : before.Parted after
  ready : ∀ options, after.Ready options 0 ↔ before.Ready options 1
  greets : ∀ options readOnly,
    after.Greets call options readOnly 0 ↔ before.Greets call options readOnly 1

theorem ready_iff {before after : State} {host event} (connected : before.host = some host)
    (queued : after.host = some { host with queue := host.queue ++ [event] })
    (numbered : after.nextClient = before.nextClient)
    (shorter : after.viewers.len + 1 = before.viewers.len) :
    after.Ready options 0 ↔ before.Ready options 1 := by
  constructor
  · intro ⟨room, number, other, found, live, space⟩
    obtain rfl := Option.mem_unique queued found
    rw [List.length_append, List.length_singleton] at space
    exact ⟨by omega, numbered ▸ number, host, connected, live, space⟩
  · intro ⟨room, number, other, found, live, space⟩
    obtain rfl := Option.mem_unique connected found
    have longer : (host.queue ++ [event]).length < host.capacity := by
      rw [List.length_append, List.length_singleton]
      exact space
    exact ⟨by omega, numbered ▸ number, _, queued, live, longer⟩

/-- Whoever is attached already is taken out, even if the host cannot be told. -/
theorem replace_known (call : Call) (accepts : state.Accepts identity)
    (known : state.Known identity) :
    (∃ after message, state.replace call identity = (after, .error message) ∧
        state.Parted after ∧ ∀ options, ¬state.Ready options 1) ∨
      ∃ after, state.replace call identity = (after, .ok ()) ∧ Replaced call state after := by
  obtain ⟨name, rfl, _⟩ := id known
  obtain ⟨entry, found⟩ := find_known known
  have present := (find_some found).1
  have shorter := len_of_parted present
  rw [replace, if_pos accepts.1, if_pos accepts.2, found]
  dsimp only
  obtain ⟨events, told⟩ := farewell_records call
    { state with viewers := state.viewers.erase entry.1 }
    (.closed "participant reconnected elsewhere" false) entry
  rw [told]
  let left : State := { state with viewers := state.viewers.erase entry.1 }.record events
  have parted : state.Parted left := ⟨entry.1, entry.2, present, rfl⟩
  by_cases space : ∃ host, left.host = some host ∧ host.closed = false ∧
      host.queue.length < host.capacity
  · obtain ⟨host, connected, live, room⟩ := space
    have queued := tryHost_ok left connected live room (.detach entry.1) ""
    refine .inr ⟨_, queued, parted, fun options => ?_, fun options readOnly => ?_⟩
    · exact ready_iff connected rfl rfl shorter
    · unfold Greets
      dsimp only [record]
      rw [← shorter, Nat.add_sub_cancel, Nat.sub_zero]
      rfl
  · obtain ⟨message, refused⟩ := tryHost_error (.detach entry.1) "" space
    refine .inl ⟨left, message, refused, parted, fun options ready => ?_⟩
    obtain ⟨host, connected, live, room⟩ := ready.queue
    exact space ⟨host, connected, live, by omega⟩

end Replace

/-- The two steps of an attachment, once it was admitted. -/
def enter (call : Call) (options : Options) (identity : Option Nat) (readOnly : Bool)
    (screen : Screen) (state : State) : State × Result Nat :=
  match state.replace call identity with
  | (state, .error message) => (state, .error message)
  | (state, .ok ()) => state.join call options identity readOnly screen

theorem enter_undisturbed_iff (call : Call) (state : State) (options : Options)
    (identity : Option Nat) (readOnly : Bool) (screen : Screen) :
    (∀ message, (state.enter call options identity readOnly screen).2 = .error message →
        state.Undisturbed (state.enter call options identity readOnly screen).1) ↔
      state.Settles call options identity readOnly := by
  unfold enter Settles
  by_cases accepts : state.Accepts identity
  · by_cases known : state.Known identity
    · simp only [accepts, known, true_imp_iff, not_true_eq_false, false_imp_iff, and_true]
      rcases replace_known call accepts known with ⟨after, message, refused, parted, unready⟩ | ⟨after, replaced, left⟩
      · rw [refused]
        constructor
        · intro quiet
          exact absurd (quiet message rfl) (parted.disturbs rfl)
        · intro settled
          exact absurd settled.1 (unready options)
      · rw [replaced, ← left.ready, ← left.greets]
        dsimp only
        constructor
        · intro quiet
          by_cases ready : after.Ready options 0
          · obtain ⟨told, _, same, _, unwelcome, _⟩ :=
              join_ready call readOnly identity screen ready
            refine ⟨ready, ?_⟩
            by_contra heavy
            obtain ⟨message, failed⟩ := unwelcome heavy
            refine left.parted.disturbs ?_ (quiet message (by rw [failed]))
            rw [failed]
            exact same
          · obtain ⟨message, failed, undisturbed⟩ := join_refused call readOnly identity screen ready
            exact absurd (quiet message failed) (left.parted.disturbs undisturbed.viewers)
        · intro ⟨ready, greets⟩ message failed
          obtain ⟨_, _, _, _, _, welcome⟩ := join_ready call readOnly identity screen ready
          rw [welcome greets] at failed
          cases failed
    · simp only [accepts, known, true_imp_iff, not_false_eq_true, false_imp_iff, true_and]
      rw [replace_unknown call accepts known]
      exact join_undisturbed_iff call readOnly identity screen
  · simp only [accepts, false_imp_iff, iff_true]
    obtain ⟨message, refused⟩ := replace_unaccepted call accepts
    rw [refused]
    intro _ _
    exact .refl state

end State

namespace System

variable (call : Call) (system : System) (id : String) (identity : Option Nat) (readOnly : Bool)
  (screen : Screen) (invitation : Option String)

/-- An attachment that fails leaves every session as the viewers and the host
    knew it. -/
def AllOrNothing : Prop :=
  ∀ message, (system.attachInner call id identity readOnly screen invitation).2 = .error message →
    ∀ number shared, system.shared.get? number = some shared →
      ∃ later, (system.attachInner call id identity readOnly screen invitation).1.shared.get? number =
        some later ∧ shared.state.Undisturbed later.state

/-- The request passes the checks that come before anyone is replaced. -/
structure Passes (number : Nat) (shared : Shared) : Prop where
  valid : screen.validate = .ok ()
  routed : system.session id = some (number, shared)
  live : shared.stop = false ∧ shared.expired (call.now 0) = false
  invited : shared.state.invited call system.tokens id readOnly invitation = .ok ()
  room : system.total < 128 ∨ identity.any fun identity =>
    shared.state.viewers.values.any fun viewer => viewer.identity == identity

variable {call system id identity readOnly screen invitation}

theorem attachInner_refused
    (refused : ¬∃ number shared, system.Passes call id identity readOnly screen invitation number shared) :
    ∃ message, system.attachInner call id identity readOnly screen invitation =
      (system, .error message) := by
  unfold attachInner
  split
  · exact ⟨_, rfl⟩
  · rename_i valid
    split
    · exact ⟨_, rfl⟩
    · rename_i number shared routed
      split
      · rename_i live
        split
        · exact ⟨_, rfl⟩
        · rename_i invited
          split
          · rename_i room
            exact absurd ⟨number, shared, valid, routed, live, invited, room⟩ refused
          · exact ⟨_, rfl⟩
      · exact ⟨_, rfl⟩

theorem attachInner_admitted {number shared}
    (passes : system.Passes call id identity readOnly screen invitation number shared) :
    system.attachInner call id identity readOnly screen invitation =
      (system.setShared number { shared with
          state := (shared.state.enter call shared.options identity readOnly screen).1 },
        (shared.state.enter call shared.options identity readOnly screen).2.map (number, ·)) := by
  unfold attachInner
  rw [passes.valid]
  rw [passes.routed]
  dsimp only
  rw [if_pos passes.live, passes.invited]
  rw [if_pos passes.room, State.enter]
  generalize shared.state.replace call identity = parted
  obtain ⟨state, outcome⟩ := parted
  cases outcome with
  | error message => rfl
  | ok => rfl

theorem Passes.unique {number other shared another}
    (first : system.Passes call id identity readOnly screen invitation number shared)
    (second : system.Passes call id identity readOnly screen invitation other another) :
    number = other ∧ shared = another :=
  Prod.mk.inj (Option.mem_unique first.routed second.routed)

/-- A failed attachment changes nothing exactly when whoever would be replaced
    can be let in again and whoever is let in can be welcomed. -/
theorem attach_is_all_or_nothing_iff :
    system.AllOrNothing call id identity readOnly screen invitation ↔
      ∀ number shared, system.Passes call id identity readOnly screen invitation number shared →
        shared.state.Settles call shared.options identity readOnly := by
  by_cases admitted :
      ∃ number shared, system.Passes call id identity readOnly screen invitation number shared
  · obtain ⟨number, shared, passes⟩ := admitted
    have entered := attachInner_admitted passes
    have present : system.shared.get? number = some shared := (session_eq_some.mp passes.routed).2
    have settles : (∀ target entry, system.Passes call id identity readOnly screen invitation target entry →
        entry.state.Settles call entry.options identity readOnly) ↔
          shared.state.Settles call shared.options identity readOnly := by
      constructor
      · intro every
        exact every number shared passes
      · intro settled target entry also
        obtain ⟨rfl, rfl⟩ := passes.unique also
        exact settled
    rw [settles, ← State.enter_undisturbed_iff call shared.state shared.options identity readOnly screen]
    unfold AllOrNothing
    rw [entered]
    constructor
    · intro atomic message failed
      obtain ⟨later, found, undisturbed⟩ := atomic message (by rw [failed]; rfl) number shared present
      rw [get?_setShared, if_pos rfl] at found
      obtain rfl := Option.some.inj found
      exact undisturbed
    · intro quiet message failed target entry found
      rw [get?_setShared]
      split
      · rename_i here
        subst here
        obtain rfl := Option.some.inj (present.symm.trans found)
        refine ⟨_, rfl, ?_⟩
        cases outcome : (shared.state.enter call shared.options identity readOnly screen).2 with
        | error reason => exact quiet reason outcome
        | ok client =>
            rw [outcome] at failed
            cases failed
      · exact ⟨entry, found, .refl entry.state⟩
  · obtain ⟨message, refused⟩ := attachInner_refused admitted
    constructor
    · intro _ number shared passes
      exact absurd ⟨number, shared, passes⟩ admitted
    · intro _ _ _ number shared found
      rw [refused]
      exact ⟨shared, found, .refl shared.state⟩

/-- A participant with an identity, which joins once or again. -/
def exampleParticipant : Op × Call :=
  (.attach exampleHello.id (some 5) false ⟨80, 24, "xterm"⟩ none, exampleCall)

/-- The hub after its one viewer resized its window until the queue of the host,
    which takes nothing, was full. -/
def exampleCrowded : System :=
  (Runs.feed exampleStep .new (exampleRegister :: exampleParticipant ::
    List.replicate 126 (.session 0 (.input 7 (.resize 100 40)), exampleCall))).2

/-- What was queued last, and for how many viewers the session is open. -/
def observed (system : System) : Option (Option Sent × Nat) :=
  (system.shared.get? 0).map fun shared => (shared.state.sent.getLast?, shared.state.viewers.len)

/-- A participant that joins again while the queue of the host is full is turned
    away, and its earlier attachment is closed all the same. -/
theorem full_queue_disturbs :
    ¬exampleCrowded.AllOrNothing exampleCall exampleHello.id (some 5) false ⟨80, 24, "xterm"⟩ none := by
  have failed : (exampleCrowded.attachInner exampleCall exampleHello.id (some 5) false
      ⟨80, 24, "xterm"⟩ none).2 = .error "no available capacity" := by
    decide +kernel
  have before : exampleCrowded.observed = some (some (.host (.resize 7 100 40)), 1) := by
    decide +kernel
  have after : (exampleCrowded.attachInner exampleCall exampleHello.id (some 5) false
      ⟨80, 24, "xterm"⟩ none).1.observed =
        some (some (.viewer 7 (.closed "participant reconnected elsewhere" false)), 0) := by
    decide +kernel
  intro atomic
  obtain ⟨shared, present, told⟩ := Option.map_eq_some_iff.mp before
  obtain ⟨later, found, undisturbed⟩ := atomic _ failed 0 shared present
  rw [observed, found, Option.map_some, undisturbed.sent, undisturbed.viewers, told] at after
  cases after

end System

end PortHub.Terminal.Hub
