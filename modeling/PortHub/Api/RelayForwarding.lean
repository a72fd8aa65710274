import PortHub.Api.RelayRuns

/-! # Forwarding over whole runs

A packet reaches a queue only through a commit, and the commit repeats every check
in one critical section: the queue in which a slot was reserved is the one of the
connection that is found again. Permits of the budget are conserved, and the
records of a frame are worked on from the front.
-/

namespace PortHub.Api.PrivateRelay

section Budget

variable {system : System} {number : Nat}

/-- The permits that a call holds itself. -/
def Phase.held : Phase → Nat
  | .budgeted _ _ => 1
  | .ready | .waiting _ _ | .reserved _ _ => 0

/-- The permits of the budget, wherever they are: one for each queued packet. -/
def System.permits (system : System) : Nat :=
  system.budget + system.tasks.weight (fun task => task.queue.length) + system.writing
    + system.calls.weight fun call => call.phase.held

/-- No permit is lost or made up. -/
structure Balanced (system : System) : Prop where
  permits : system.permits = maxRelayQueueBudget
  calls : ∀ {number call}, system.calls.get? number = some call → number < system.nextCall

theorem Balanced.initial : Balanced System.initial where
  permits := rfl
  calls found := by cases found

theorem permits_setCall {old} (found : system.calls.get? number = some old) (new : Call) :
    (system.setCall number new).permits + old.phase.held = system.permits + new.phase.held := by
  have replaced := Dict.weight_replace (fun call : Call => call.phase.held) found new
  simp only [System.permits, System.setCall] at replaced ⊢
  omega

theorem permits_setTask {old} (found : system.tasks.get? number = some old) (new : Task) :
    (system.setTask number new).permits + old.queue.length = system.permits + new.queue.length := by
  have replaced := Dict.weight_replace (fun task : Task => task.queue.length) found new
  simp only [System.permits, System.setTask] at replaced ⊢
  omega

theorem permits_freeSlot (system : System) (channel : Nat) :
    (system.freeSlot channel).permits = system.permits := by
  unfold System.freeSlot
  split
  · rename_i task found
    exact Nat.add_right_cancel (permits_setTask found { task with free := task.free + 1 })
  · rfl

theorem freeSlot_calls (system : System) (channel : Nat) :
    (system.freeSlot channel).calls = system.calls ∧
      (system.freeSlot channel).nextCall = system.nextCall ∧
      (system.freeSlot channel).budget = system.budget := by
  unfold System.freeSlot
  split
  · exact ⟨rfl, rfl, rfl⟩
  · exact ⟨rfl, rfl, rfl⟩

section

variable (balanced : Balanced system)

include balanced

/-- A call that was found is written back with as many permits. -/
theorem Balanced.setCall {old}
    (found : system.calls.get? number = some old) (new : Call)
    (same : new.phase.held = old.phase.held) : Balanced (system.setCall number new) where
  permits := by
    have moved := permits_setCall found new
    have total := balanced.permits
    omega
  calls present := by
    rcases Dict.get?_of_insert present with ⟨rfl, _⟩ | ⟨_, present⟩
    · have known := balanced.calls found
      exact known
    · exact balanced.calls present

theorem Balanced.of_same {after : System}
    (permits : after.permits = system.permits) (calls : after.calls = system.calls)
    (nextCall : after.nextCall = system.nextCall) : Balanced after where
  permits := permits.trans balanced.permits
  calls := by
    rw [calls, nextCall]
    exact balanced.calls

/-- A call that holds a permit ends with it: the permit goes to a queue or back. -/
theorem Balanced.settle {call}
    (found : system.calls.get? number = some call) (held : call.phase.held = 1) {after : System}
    (calls : after.calls = (system.skip number call).calls)
    (nextCall : after.nextCall = system.nextCall)
    (permits : after.permits = (system.skip number call).permits + 1) : Balanced after where
  permits := by
    have moved := permits_setCall found { call with phase := .ready }
    have total := balanced.permits
    rw [held, show Phase.ready.held = 0 from rfl] at moved
    rw [System.skip] at permits
    omega
  calls := by
    rw [calls, nextCall]
    intro other new present
    rcases Dict.get?_of_insert present with ⟨rfl, _⟩ | ⟨_, present⟩
    · exact balanced.calls found
    · exact balanced.calls present

theorem Balanced.register (wired : Wired system)
    (id hash instance' : String) (lane lanes : Nat) :
    Balanced (system.register id hash instance' lane lanes).1 := by
  unfold System.register
  split
  · exact balanced
  · split
    · exact balanced
    · have absent : system.tasks.get? system.nextTask = none := by
        cases found : system.tasks.get? system.nextTask with
        | none => rfl
        | some task => exact absurd (wired.numbered found).1 (Nat.lt_irrefl _)
      refine balanced.of_same ?_ rfl rfl
      simp only [System.permits, Dict.weight_add _ absent, List.length_nil, Nat.add_zero]

theorem Balanced.teardown (number : Nat) :
    Balanced (system.teardown number) := by
  unfold System.teardown
  split
  · rename_i task found
    split
    · refine balanced.of_same ?_ rfl rfl
      exact Nat.add_right_cancel (permits_setTask found { task with registered := false })
    · exact balanced
  · exact balanced

theorem Balanced.close (number : Nat) :
    Balanced (system.close number) := by
  unfold System.close
  split
  · rename_i task found
    split
    · exact balanced
    · refine balanced.of_same ?_ rfl rfl
      have moved := permits_setTask found { task with queue := [], attached := false }
      simp only [System.permits, System.setTask, List.length_nil] at moved ⊢
      omega
  · exact balanced

theorem Balanced.take (number : Nat) :
    Balanced (system.take number).1 := by
  unfold System.take
  split
  · rename_i task found
    split
    · rename_i packet queue waiting
      refine balanced.of_same ?_ rfl rfl
      have moved := permits_setTask found { task with queue, free := task.free + 1 }
      simp only [System.permits, System.setTask, waiting, List.length_cons] at moved ⊢
      omega
    · exact balanced
  · exact balanced

theorem Balanced.release : Balanced system.release := by
  unfold System.release
  split
  · exact balanced
  · refine balanced.of_same ?_ rfl rfl
    simp only [System.permits]
    omega

theorem Balanced.start (source hash instance' : String) (lane : Nat)
    (frame : Bytes) : Balanced (system.start source hash instance' lane frame).1 := by
  unfold System.start
  split
  · have absent : system.calls.get? system.nextCall = none := by
      cases found : system.calls.get? system.nextCall with
      | none => rfl
      | some call => exact absurd (balanced.calls found) (Nat.lt_irrefl _)
    constructor
    · rw [← balanced.permits]
      simp only [System.permits, Dict.weight_add _ absent, Phase.held, Nat.add_zero]
    · intro number call present
      rcases Dict.get?_of_insert present with ⟨rfl, _⟩ | ⟨_, present⟩
      · exact Nat.lt_succ_self _
      · exact Nat.lt_succ_of_lt (balanced.calls present)
  · exact balanced

theorem Balanced.validate (number choice : Nat) :
    Balanced (system.validate number choice) := by
  unfold System.validate
  split
  · rename_i call found
    split
    · rename_i record rest idle _
      split
      · exact balanced.setCall found _ (by rw [idle]; rfl)
      · exact balanced.setCall found _ rfl
    · exact balanced
  · exact balanced

theorem Balanced.reserve (number : Nat) :
    Balanced (system.reserve number) := by
  unfold System.reserve
  split
  · rename_i call found
    split
    · rename_i record route waiting
      split
      · rename_i task present
        split
        · have moved : Balanced (system.setTask route.channel { task with free := task.free - 1 }) := by
            refine balanced.of_same ?_ rfl rfl
            exact Nat.add_right_cancel (permits_setTask present { task with free := task.free - 1 })
          exact moved.setCall found _ (by rw [waiting]; rfl)
        · exact balanced
      · exact balanced
    · exact balanced
  · exact balanced

theorem Balanced.giveUp (number : Nat) :
    Balanced (system.giveUp number) := by
  unfold System.giveUp
  split
  · rename_i call found
    split
    · rename_i waiting
      have skipped := balanced.setCall found { call with phase := .ready } (by rw [waiting]; rfl)
      exact skipped.of_same rfl rfl rfl
    · exact balanced
  · exact balanced

theorem Balanced.acquire (number : Nat) :
    Balanced (system.acquire number) := by
  unfold System.acquire
  split
  · rename_i call found
    split
    · rename_i record route reserved
      obtain ⟨calls, nextCall, _⟩ := freeSlot_calls system route.channel
      split
      · have freed := balanced.of_same (permits_freeSlot system route.channel) calls nextCall
        have skipped := freed.setCall (calls ▸ found) { call with phase := .ready }
          (by rw [reserved]; rfl)
        exact skipped.of_same rfl rfl rfl
      · rename_i available
        constructor
        · have moved := permits_setCall found { call with phase := .budgeted record route }
          have total := balanced.permits
          simp only [reserved, Phase.held] at moved
          simp only [System.permits, System.setCall] at moved total ⊢
          omega
        · intro other new present
          rcases Dict.get?_of_insert present with ⟨rfl, _⟩ | ⟨_, present⟩
          · have known := balanced.calls found
            exact known
          · exact balanced.calls present
    · exact balanced
  · exact balanced

theorem Balanced.commit (number choice : Nat) :
    Balanced (system.commit number choice).1 := by
  unfold System.commit
  split
  · rename_i call found
    split
    · rename_i record route budgeted
      have held : call.phase.held = 1 := by
        rw [budgeted]
        rfl
      have refused : Balanced { (system.freeSlot route.channel).skip number call with
          budget := system.budget + 1 } := by
        obtain ⟨calls, nextCall, budget⟩ := freeSlot_calls system route.channel
        have freed := permits_freeSlot system route.channel
        refine balanced.settle found held ?_ nextCall ?_
        · simp only [System.skip, System.setCall, calls]
        · simp only [System.permits, System.skip, System.setCall, calls, budget] at freed ⊢
          omega
      split
      · exact refused
      · rename_i current _
        split
        · exact refused
        · split
          · rename_i task present
            split
            · refine balanced.settle found held rfl rfl ?_
              have moved := permits_setTask present
                { task with queue := task.queue ++ [forwarded call.source current.packet] }
              simp only [System.permits, System.setTask, System.skip, System.setCall,
                List.length_append, List.length_singleton] at moved ⊢
              omega
            · refine balanced.settle found held rfl rfl ?_
              simp only [System.permits, System.skip, System.setCall]
              omega
          · exact refused
    · exact balanced
  · exact balanced

theorem Balanced.abort (number : Nat) :
    Balanced (system.abort number) := by
  have gone {call : Call} (found : system.calls.get? number = some call)
      (held : call.phase.held = 0) :
      Balanced { system with calls := system.calls.erase number } := by
    constructor
    · have removed := Dict.weight_remove (fun call : Call => call.phase.held) found
      have total := balanced.permits
      simp only [System.permits] at removed total ⊢
      omega
    · intro other new present
      exact balanced.calls (Dict.get?_of_erase present).2
  unfold System.abort
  split
  · rename_i call found
    split
    · rename_i waiting
      exact gone found (by rw [waiting]; rfl)
    · rename_i idle
      exact gone found (by rw [idle]; rfl)
    · exact balanced
  · exact balanced

end

theorem Balanced.step (balanced : Balanced system) (wired : Wired system)
    (tokenDigest : String → String) (action : Action) :
    Balanced (system.step tokenDigest action).1 := by
  have ticked (elapsed : Nat) : Balanced (system.tick elapsed) := balanced.of_same rfl rfl rfl
  cases action with
  | publish | revoke | authorized => exact balanced.of_same rfl rfl rfl
  | register elapsed id hash instance' lane lanes =>
      exact (ticked elapsed).register (wired.calm (calm_tick system elapsed)) ..
  | teardown task => exact balanced.teardown task
  | close task => exact balanced.close task
  | take task => exact balanced.take task
  | release => exact balanced.release
  | start source hash instance' lane frame => exact balanced.start ..
  | validate call elapsed choice => exact (ticked elapsed).validate call choice
  | reserve call => exact balanced.reserve call
  | giveUp call => exact balanced.giveUp call
  | acquire call => exact balanced.acquire call
  | commit call elapsed choice => exact (ticked elapsed).commit call choice
  | abort call => exact balanced.abort call

end Budget

section Order

open Runs

variable {system : System} {number : Nat} {next : System} {call channel : Nat} {packet : Bytes}
  {tokenDigest : String → String} {action : Action} {event : Action × Output}
  {history : List (Action × Output)}

def Phase.record : Phase → List Bytes
  | .ready => []
  | .waiting record _ | .reserved record _ | .budgeted record _ => [record]

/-- The records that a call has not dealt with. -/
def Call.pending (call : Call) : List Bytes := call.phase.record ++ call.rest

/-- The same sender, with no more records before it. -/
structure Call.Follows (later call : Call) : Prop where
  source : later.source = call.source
  hash : later.hash = call.hash
  instance' : later.instance' = call.instance'
  lane : later.lane = call.lane
  pending : later.pending <:+ call.pending

theorem Call.Follows.refl (call : Call) : call.Follows call :=
  ⟨rfl, rfl, rfl, rfl, List.suffix_refl _⟩

/-- No call is added, and each goes on from where it was. -/
structure Progress (before after : System) : Prop where
  calls : ∀ {number later}, after.calls.get? number = some later →
    ∃ call, before.calls.get? number = some call ∧ later.Follows call
  nextCall : after.nextCall = before.nextCall

theorem Progress.of_same {before after : System} (calls : after.calls = before.calls)
    (nextCall : after.nextCall = before.nextCall) : Progress before after := by
  refine ⟨?_, nextCall⟩
  intro number later found
  rw [calls] at found
  exact ⟨later, found, .refl later⟩

theorem Progress.of_insert {before after : System} {call later}
    (found : before.calls.get? number = some call)
    (calls : after.calls = before.calls.insert number later)
    (nextCall : after.nextCall = before.nextCall) (follows : later.Follows call) :
    Progress before after := by
  refine ⟨?_, nextCall⟩
  intro other new present
  rw [calls] at present
  rcases Dict.get?_of_insert present with ⟨rfl, rfl⟩ | ⟨_, present⟩
  · exact ⟨call, found, follows⟩
  · exact ⟨new, present, .refl new⟩

theorem Call.skipped (call : Call) : { call with phase := .ready }.Follows call :=
  ⟨rfl, rfl, rfl, rfl, List.suffix_append _ _⟩

section

variable (system number)

theorem progress_validate (choice : Nat) : Progress system (system.validate number choice) := by
  unfold System.validate
  split
  · rename_i call found
    split
    · rename_i record rest idle remaining
      split
      · refine .of_insert found rfl rfl ⟨rfl, rfl, rfl, rfl, ?_⟩
        rw [Call.pending, Call.pending, idle, remaining]
        exact List.suffix_refl _
      · refine .of_insert found rfl rfl ⟨rfl, rfl, rfl, rfl, ?_⟩
        rw [Call.pending, Call.pending, idle, remaining]
        exact List.suffix_cons record rest
    · exact .of_same rfl rfl
  · exact .of_same rfl rfl

theorem progress_reserve : Progress system (system.reserve number) := by
  unfold System.reserve
  split
  · rename_i call found
    split
    · rename_i record route waiting
      split
      · split
        · refine .of_insert found rfl rfl ⟨rfl, rfl, rfl, rfl, ?_⟩
          rw [Call.pending, Call.pending, waiting]
          exact List.suffix_refl _
        · exact .of_same rfl rfl
      · exact .of_same rfl rfl
    · exact .of_same rfl rfl
  · exact .of_same rfl rfl

theorem progress_giveUp : Progress system (system.giveUp number) := by
  unfold System.giveUp
  split
  · rename_i call found
    split
    · exact .of_insert found rfl rfl call.skipped
    · exact .of_same rfl rfl
  · exact .of_same rfl rfl

theorem progress_acquire : Progress system (system.acquire number) := by
  unfold System.acquire
  split
  · rename_i call found
    split
    · rename_i record route reserved
      split
      · obtain ⟨calls, nextCall, _⟩ := freeSlot_calls system route.channel
        refine .of_insert found ?_ nextCall call.skipped
        simp only [System.drop, System.skip, System.setCall, calls]
      · refine .of_insert found rfl rfl ⟨rfl, rfl, rfl, rfl, ?_⟩
        rw [Call.pending, Call.pending, reserved]
        exact List.suffix_refl _
    · exact .of_same rfl rfl
  · exact .of_same rfl rfl

theorem progress_commit (choice : Nat) : Progress system (system.commit number choice).1 := by
  unfold System.commit
  split
  · rename_i call found
    split
    · rename_i record route budgeted
      have refused : Progress system { (system.freeSlot route.channel).skip number call with
          budget := system.budget + 1 } := by
        obtain ⟨calls, nextCall, _⟩ := freeSlot_calls system route.channel
        refine .of_insert found ?_ nextCall call.skipped
        simp only [System.skip, System.setCall, calls]
      split
      · exact refused
      · split
        · exact refused
        · split
          · split
            · exact .of_insert found rfl rfl call.skipped
            · exact .of_insert found rfl rfl call.skipped
          · exact refused
    · exact .of_same rfl rfl
  · exact .of_same rfl rfl

theorem progress_abort : Progress system (system.abort number) := by
  have gone : Progress system { system with calls := system.calls.erase number } := by
    refine ⟨?_, rfl⟩
    intro other later present
    exact ⟨later, (Dict.get?_of_erase present).2, .refl later⟩
  unfold System.abort
  split
  · split
    · exact gone
    · exact gone
    · exact .of_same rfl rfl
  · exact .of_same rfl rfl

theorem progress_register (id hash instance' : String) (lane lanes : Nat) :
    Progress system (system.register id hash instance' lane lanes).1 := by
  unfold System.register
  split
  · exact .of_same rfl rfl
  · split
    · exact .of_same rfl rfl
    · exact .of_same rfl rfl

theorem progress_teardown : Progress system (system.teardown number) := by
  unfold System.teardown
  split
  · split
    · exact .of_same rfl rfl
    · exact .of_same rfl rfl
  · exact .of_same rfl rfl

theorem progress_close : Progress system (system.close number) := by
  unfold System.close
  split
  · split
    · exact .of_same rfl rfl
    · exact .of_same rfl rfl
  · exact .of_same rfl rfl

theorem progress_take : Progress system (system.take number).1 := by
  unfold System.take
  split
  · split
    · exact .of_same rfl rfl
    · exact .of_same rfl rfl
  · exact .of_same rfl rfl

theorem progress_release : Progress system system.release := by
  unfold System.release
  split
  · exact .of_same rfl rfl
  · exact .of_same rfl rfl

theorem Progress.ticked {elapsed} (progress : Progress (system.tick elapsed) next) :
    Progress system next :=
  ⟨progress.calls, progress.nextCall⟩

end

/-- Only a new frame adds a call. -/
theorem progress_step (tokenDigest : String → String) (system : System) (action : Action) :
    (∃ source hash instance' lane frame, action = .start source hash instance' lane frame) ∨
      Progress system (system.step tokenDigest action).1 := by
  cases action with
  | publish | revoke | authorized => exact .inr (.of_same rfl rfl)
  | register elapsed id hash instance' lane lanes =>
      exact .inr (progress_register (system.tick elapsed) ..).ticked
  | teardown task => exact .inr (progress_teardown system task)
  | close task => exact .inr (progress_close system task)
  | take task => exact .inr (progress_take system task)
  | release => exact .inr (progress_release system)
  | start source hash instance' lane frame => exact .inl ⟨source, hash, instance', lane, frame, rfl⟩
  | validate call elapsed choice =>
      exact .inr (progress_validate (system.tick elapsed) call choice).ticked
  | reserve call => exact .inr (progress_reserve system call)
  | giveUp call => exact .inr (progress_giveUp system call)
  | acquire call => exact .inr (progress_acquire system call)
  | commit call elapsed choice =>
      exact .inr (progress_commit (system.tick elapsed) call choice).ticked
  | abort call => exact .inr (progress_abort system call)

/-- What a commit does when it queues a packet. -/
structure Committed (system : System) (number choice channel : Nat) (record packet : Bytes)
    (next : System) (caller : Call) (route current : Forward) (task : Task) : Prop where
  found : system.calls.get? number = some caller
  budgeted : caller.phase = .budgeted record route
  checked : system.inner.routeRecord caller.source caller.hash caller.instance' caller.lane record
    system.time choice = some current
  generation : current.generation = route.generation
  same : current.channel = route.channel
  reserved : channel = route.channel
  target : system.tasks.get? channel = some task
  attached : task.attached = true
  whole : packet = forwarded caller.source current.packet
  after : next =
    (system.setTask channel { task with queue := task.queue ++ [packet] }).skip number caller

theorem commit_queued {number choice record}
    (taken : system.commit number choice = (next, .queued call channel record packet)) :
    call = number ∧ ∃ caller route current task,
      Committed system number choice channel record packet next caller route current task := by
  unfold System.commit at taken
  split at taken
  · rename_i caller found
    split at taken
    · rename_i held route budgeted
      split at taken
      · cases taken
      · rename_i current checked
        split at taken
        · cases taken
        · rename_i same
          simp only [not_or, ne_eq, not_not] at same
          split at taken
          · rename_i task target
            split at taken
            · rename_i attached
              obtain ⟨rfl, rfl, rfl, rfl, rfl⟩ := taken
              exact ⟨rfl, caller, route, current, task, found, budgeted, checked, same.1, same.2, rfl,
                target, attached, rfl, rfl⟩
            · cases taken
          · cases taken
    · cases taken
  · cases taken

/-- Only a commit queues a packet. -/
theorem step_queued {record}
    (taken : system.step tokenDigest action = (next, .queued call channel record packet)) :
    ∃ elapsed choice, action = .commit call elapsed choice ∧
      (system.tick elapsed).commit call choice = (next, .queued call channel record packet) := by
  cases action with
  | commit number elapsed choice =>
      obtain ⟨rfl, _⟩ := commit_queued taken
      exact ⟨elapsed, choice, rfl, taken⟩
  | register elapsed id hash instance' lane lanes =>
      simp only [System.step, System.register] at taken
      split at taken
      · cases taken
      · split at taken <;> cases taken
  | take task =>
      simp only [System.step, System.take] at taken
      split at taken
      · split at taken <;> cases taken
      · cases taken
  | start source hash instance' lane frame =>
      simp only [System.step, System.start] at taken
      split at taken <;> cases taken
  | _ => cases taken

/-- Only a new frame starts a call. -/
theorem step_started {records}
    (taken : system.step tokenDigest action = (next, .started call records)) :
    ∃ source hash instance' lane frame, action = .start source hash instance' lane frame ∧
      system.start source hash instance' lane frame = (next, .started call records) := by
  cases action with
  | start source hash instance' lane frame =>
      exact ⟨source, hash, instance', lane, frame, rfl, taken⟩
  | commit number elapsed choice =>
      simp only [System.step, System.commit] at taken
      split at taken
      · split at taken
        · split at taken
          · cases taken
          · split at taken
            · cases taken
            · split at taken
              · split at taken <;> cases taken
              · cases taken
        · cases taken
      · cases taken
  | register elapsed id hash instance' lane lanes =>
      simp only [System.step, System.register] at taken
      split at taken
      · cases taken
      · split at taken <;> cases taken
  | take task =>
      simp only [System.step, System.take] at taken
      split at taken
      · split at taken <;> cases taken
      · cases taken
  | _ => cases taken

/-- The records of a call that were queued, in order. -/
def queuedOf (call : Nat) (history : List (Action × Output)) : List Bytes :=
  history.filterMap fun event =>
    match event.2 with
    | .queued number _ record _ => if number = call then some record else none
    | _ => none

theorem queuedOf_append (call : Nat) (history : List (Action × Output)) (event : Action × Output) :
    queuedOf call (history ++ [event]) = queuedOf call history ++ queuedOf call [event] :=
  List.filterMap_append

theorem queuedOf_other (other : ∀ channel record packet, event.2 ≠ .queued call channel record packet) :
    queuedOf call [event] = [] := by
  obtain ⟨action, output⟩ := event
  cases output with
  | queued number channel record packet =>
      have different : number ≠ call := by
        rintro rfl
        exact other channel record packet rfl
      simp [queuedOf, different]
  | _ => rfl

/-- What is queued of a frame was taken from its front, record by record. -/
structure Ordered (history : List (Action × Output)) (system : System) : Prop where
  begun : ∀ {number call}, system.calls.get? number = some call → ∃ frame records,
    (Action.start call.source call.hash call.instance' call.lane frame,
      Output.started number records) ∈ history
  earlier : ∀ {action number records}, (action, Output.started number records) ∈ history →
    number < system.nextCall
  fresh : ∀ {number}, system.nextCall ≤ number → queuedOf number history = []
  whole : ∀ {action number records}, (action, Output.started number records) ∈ history →
    (queuedOf number history).Sublist records
  front : ∀ {action number records call}, (action, Output.started number records) ∈ history →
    system.calls.get? number = some call →
    ∃ done, records = done ++ call.pending ∧ (queuedOf number history).Sublist done

theorem Ordered.initial : Ordered [] System.initial where
  begun found := by cases found
  earlier member := by cases member
  fresh _ := rfl
  whole member := by cases member
  front member := by cases member

theorem mem_snoc_started {number records}
    (member : (action, Output.started number records) ∈ history ++ [event])
    (other : ∀ call records, event.2 ≠ .started call records) :
    (action, Output.started number records) ∈ history := by
  rcases List.mem_append.mp member with old | new
  · exact old
  · rw [List.mem_singleton] at new
    subst new
    exact absurd rfl (other number records)

/-- A step that neither starts a frame nor queues a packet. -/
theorem Ordered.quiet (ordered : Ordered history system) (progress : Progress system next)
    (starts : ∀ call records, event.2 ≠ .started call records)
    (queues : ∀ call channel record packet, event.2 ≠ .queued call channel record packet) :
    Ordered (history ++ [event]) next := by
  have same (number : Nat) : queuedOf number (history ++ [event]) = queuedOf number history := by
    rw [queuedOf_append, queuedOf_other (queues number), List.append_nil]
  constructor
  · intro number later found
    obtain ⟨call, found, follows⟩ := progress.calls found
    obtain ⟨frame, records, member⟩ := ordered.begun found
    rw [follows.source, follows.hash, follows.instance', follows.lane]
    exact ⟨frame, records, List.mem_append_left _ member⟩
  · intro action number records member
    rw [progress.nextCall]
    exact ordered.earlier (mem_snoc_started member starts)
  · intro number new
    rw [same]
    rw [progress.nextCall] at new
    exact ordered.fresh new
  · intro action number records member
    rw [same]
    exact ordered.whole (mem_snoc_started member starts)
  · intro action number records later member found
    obtain ⟨call, found, follows⟩ := progress.calls found
    obtain ⟨done, rfl, sent⟩ := ordered.front (mem_snoc_started member starts) found
    obtain ⟨dealt, split⟩ := follows.pending
    refine ⟨done ++ dealt, ?_, ?_⟩
    · rw [List.append_assoc, split]
    · rw [same]
      exact sent.trans (List.sublist_append_left _ _)

/-- The packet that is queued is the one of the first record before the call. -/
theorem Ordered.queued (ordered : Ordered history system)
    {number choice record caller route current task}
    (committed : Committed system number choice channel record packet next caller route current
      task) :
    Ordered (history ++ [(action, .queued number channel record packet)]) next := by
  have calls : next.calls = system.calls.insert number { caller with phase := .ready } := by
    rw [committed.after]
    rfl
  have nextCall : next.nextCall = system.nextCall := by
    rw [committed.after]
    rfl
  have progress : Progress system next := .of_insert committed.found calls nextCall caller.skipped
  have starts : ∀ call records,
      (Output.queued number channel record packet) ≠ .started call records := by
    intro call records same
    cases same
  have mine : queuedOf number (history ++ [(action, .queued number channel record packet)]) =
      queuedOf number history ++ [record] := by
    simp [queuedOf]
  have others {other : Nat} (different : other ≠ number) :
      queuedOf other (history ++ [(action, .queued number channel record packet)]) =
        queuedOf other history := by
    rw [queuedOf_append, queuedOf_other, List.append_nil]
    intro _ _ _ same
    cases same
    exact different rfl
  obtain ⟨_, _, started⟩ := ordered.begun committed.found
  have known := ordered.earlier started
  constructor
  · intro other later found
    obtain ⟨call, found, follows⟩ := progress.calls found
    obtain ⟨frame, records, member⟩ := ordered.begun found
    rw [follows.source, follows.hash, follows.instance', follows.lane]
    exact ⟨frame, records, List.mem_append_left _ member⟩
  · intro started other records member
    rw [nextCall]
    exact ordered.earlier (mem_snoc_started member starts)
  · intro other new
    rw [nextCall] at new
    rw [others (by omega)]
    exact ordered.fresh new
  · intro started other records member
    have old := mem_snoc_started member starts
    by_cases here : other = number
    · subst here
      obtain ⟨done, rfl, sent⟩ := ordered.front old committed.found
      rw [mine, Call.pending, committed.budgeted]
      exact sent.append ((List.sublist_append_left [record] caller.rest))
    · rw [others here]
      exact ordered.whole old
  · intro started other records later member found
    have old := mem_snoc_started member starts
    rw [calls] at found
    rcases Dict.get?_of_insert found with ⟨rfl, rfl⟩ | ⟨different, found⟩
    · obtain ⟨done, rfl, sent⟩ := ordered.front old committed.found
      refine ⟨done ++ [record], ?_, ?_⟩
      · simp [Call.pending, committed.budgeted, Phase.record]
      · rw [mine]
        exact sent.append (List.Sublist.refl _)
    · rw [others different]
      exact ordered.front old found

/-- A frame that cannot be decoded starts nothing. -/
theorem Ordered.started (ordered : Ordered history system) (source hash instance' : String)
    (lane : Nat) (frame : Bytes) :
    Ordered (history ++ [(.start source hash instance' lane frame,
        (system.start source hash instance' lane frame).2)])
      (system.start source hash instance' lane frame).1 := by
  unfold System.start
  split
  · rename_i records decoded
    have same (number : Nat) : queuedOf number (history ++ [(.start source hash instance' lane frame,
        .started system.nextCall records)]) = queuedOf number history := by
      rw [queuedOf_append, queuedOf_other, List.append_nil]
      intro _ _ _ equal
      cases equal
    constructor
    · intro number call found
      rcases Dict.get?_of_insert found with ⟨rfl, rfl⟩ | ⟨_, found⟩
      · exact ⟨frame, records, List.mem_append_right _ (List.mem_singleton.mpr rfl)⟩
      · obtain ⟨old, listed, member⟩ := ordered.begun found
        exact ⟨old, listed, List.mem_append_left _ member⟩
    · intro action number listed member
      rcases List.mem_append.mp member with old | new
      · exact Nat.lt_succ_of_lt (ordered.earlier old)
      · rw [List.mem_singleton, Prod.mk.injEq, Output.started.injEq] at new
        rw [new.2.1]
        exact Nat.lt_succ_self _
    · intro number new
      rw [same]
      exact ordered.fresh (Nat.le_of_succ_le new)
    · intro action number listed member
      rw [same]
      rcases List.mem_append.mp member with old | new
      · exact ordered.whole old
      · rw [List.mem_singleton, Prod.mk.injEq, Output.started.injEq] at new
        rw [ordered.fresh (Nat.le_of_eq new.2.1.symm)]
        exact List.nil_sublist _
    · intro action number listed call member found
      rw [same]
      rcases List.mem_append.mp member with old | new
      · have earlier := ordered.earlier old
        rcases Dict.get?_of_insert found with ⟨rfl, _⟩ | ⟨_, found⟩
        · exact absurd earlier (Nat.lt_irrefl _)
        · exact ordered.front old found
      · rw [List.mem_singleton, Prod.mk.injEq, Output.started.injEq] at new
        obtain ⟨_, rfl, rfl⟩ := new
        rw [Dict.get?_insert_self, Option.some.injEq] at found
        subst found
        refine ⟨[], rfl, ?_⟩
        rw [ordered.fresh (Nat.le_refl _)]
  · refine ordered.quiet (.of_same rfl rfl) ?_ ?_
    · nofun
    · nofun

theorem Ordered.ticked (ordered : Ordered history system) (elapsed : Nat) :
    Ordered history (system.tick elapsed) :=
  ⟨ordered.begun, ordered.earlier, ordered.fresh, ordered.whole, ordered.front⟩

theorem Ordered.step {history} (ordered : Ordered history system) {tokenDigest : String → String}
    {event next} (taken : answers (System.step tokenDigest) system event next) :
    Ordered (history ++ [event]) next := by
  obtain ⟨action, output⟩ := event
  simp only [answers] at taken
  rcases progress_step tokenDigest system action with
    ⟨source, hash, instance', lane, frame, rfl⟩ | progress
  · have begun := ordered.started source hash instance' lane frame
    simp only [System.step] at taken
    rw [taken] at begun
    exact begun
  · rw [taken] at progress
    cases output with
    | queued call channel record packet =>
        obtain ⟨elapsed, choice, rfl, taken⟩ := step_queued taken
        obtain ⟨_, caller, route, current, task, committed⟩ := commit_queued taken
        exact (ordered.ticked elapsed).queued committed
    | started call records =>
        obtain ⟨source, hash, instance', lane, frame, rfl, started⟩ := step_started taken
        have begun := ordered.started source hash instance' lane frame
        rw [started] at begun
        exact begun
    | none | token | authorized | registered | taken =>
        refine ordered.quiet progress ?_ ?_
        · nofun
        · nofun

end Order

section Queues

open Runs

variable {system : System} {after : System} {history : List (Action × Output)}
  {tokenDigest : String → String}

/-- No queue gains a packet. -/
def Drained (before after : System) : Prop :=
  ∀ number later, after.tasks.get? number = some later →
    (∃ task, before.tasks.get? number = some task ∧ later.queue <:+ task.queue) ∨
      (before.tasks.get? number = none ∧ later.queue = [])

theorem Drained.of_same {before : System} (tasks : after.tasks = before.tasks) :
    Drained before after := by
  intro number later found
  rw [tasks] at found
  exact .inl ⟨later, found, List.suffix_refl _⟩

theorem Drained.of_insert {before : System} {number task new}
    (found : before.tasks.get? number = some task)
    (tasks : after.tasks = before.tasks.insert number new) (shorter : new.queue <:+ task.queue) :
    Drained before after := by
  intro other later present
  rw [tasks] at present
  rcases Dict.get?_of_insert present with ⟨rfl, rfl⟩ | ⟨_, present⟩
  · exact .inl ⟨task, found, shorter⟩
  · exact .inl ⟨later, present, List.suffix_refl _⟩

theorem drained_freeSlot {channel} (tasks : after.tasks = (system.freeSlot channel).tasks) :
    Drained system after := by
  unfold System.freeSlot at tasks
  split at tasks
  · rename_i task found
    exact .of_insert found tasks (List.suffix_refl _)
  · exact .of_same tasks

theorem drained_register (wired : Wired system) (id hash instance' : String) (lane lanes : Nat) :
    Drained system (system.register id hash instance' lane lanes).1 := by
  unfold System.register
  split
  · exact .of_same rfl
  · split
    · exact .of_same rfl
    · intro number later found
      rcases Dict.get?_of_insert found with ⟨rfl, rfl⟩ | ⟨_, found⟩
      · refine .inr ⟨?_, rfl⟩
        cases known : system.tasks.get? system.nextTask with
        | none => rfl
        | some task => exact absurd (wired.numbered known).1 (Nat.lt_irrefl _)
      · exact .inl ⟨later, found, List.suffix_refl _⟩

section

variable (system) (number : Nat)

theorem drained_teardown : Drained system (system.teardown number) := by
  unfold System.teardown
  split
  · rename_i task found
    split
    · exact .of_insert found rfl (List.suffix_refl _)
    · exact .of_same rfl
  · exact .of_same rfl

theorem drained_close : Drained system (system.close number) := by
  unfold System.close
  split
  · rename_i task found
    split
    · exact .of_same rfl
    · exact .of_insert found rfl (List.nil_suffix)
  · exact .of_same rfl

theorem drained_take : Drained system (system.take number).1 := by
  unfold System.take
  split
  · rename_i task found
    split
    · rename_i packet queue waiting
      refine .of_insert found rfl ?_
      rw [waiting]
      exact List.suffix_cons packet queue
    · exact .of_same rfl
  · exact .of_same rfl

theorem drained_release : Drained system system.release := by
  unfold System.release
  split
  · exact .of_same rfl
  · exact .of_same rfl

theorem drained_start (source hash instance' : String) (lane : Nat)
    (frame : Bytes) : Drained system (system.start source hash instance' lane frame).1 := by
  unfold System.start
  split
  · exact .of_same rfl
  · exact .of_same rfl

theorem drained_validate (choice : Nat) : Drained system (system.validate number choice) := by
  unfold System.validate
  split
  · split
    · split
      · exact .of_same rfl
      · exact .of_same rfl
    · exact .of_same rfl
  · exact .of_same rfl

theorem drained_reserve : Drained system (system.reserve number) := by
  unfold System.reserve
  split
  · split
    · split
      · rename_i task found
        split
        · exact .of_insert found rfl (List.suffix_refl _)
        · exact .of_same rfl
      · exact .of_same rfl
    · exact .of_same rfl
  · exact .of_same rfl

theorem drained_giveUp : Drained system (system.giveUp number) := by
  unfold System.giveUp
  split
  · split
    · exact .of_same rfl
    · exact .of_same rfl
  · exact .of_same rfl

theorem drained_acquire : Drained system (system.acquire number) := by
  unfold System.acquire
  split
  · split
    · split
      · exact drained_freeSlot rfl
      · exact .of_same rfl
    · exact .of_same rfl
  · exact .of_same rfl

/-- A commit queues one packet, or none. -/
theorem drained_commit (choice : Nat) :
    (∃ call channel record packet,
        (system.commit number choice).2 = .queued call channel record packet) ∨
      Drained system (system.commit number choice).1 := by
  unfold System.commit
  split
  · split
    · dsimp only
      split
      · exact .inr (drained_freeSlot rfl)
      · split
        · exact .inr (drained_freeSlot rfl)
        · split
          · split
            · exact .inl ⟨_, _, _, _, rfl⟩
            · exact .inr (.of_same rfl)
          · exact .inr (drained_freeSlot rfl)
    · exact .inr (.of_same rfl)
  · exact .inr (.of_same rfl)

theorem drained_abort : Drained system (system.abort number) := by
  unfold System.abort
  split
  · split
    · exact .of_same rfl
    · exact .of_same rfl
    · exact .of_same rfl
  · exact .of_same rfl

end

/-- A step queues one packet, or none. -/
theorem drained_step (wired : Wired system) (tokenDigest : String → String) (action : Action) :
    (∃ call channel record packet,
        (system.step tokenDigest action).2 = .queued call channel record packet) ∨
      Drained system (system.step tokenDigest action).1 := by
  cases action with
  | publish | revoke | authorized => exact .inr (.of_same rfl)
  | register elapsed id hash instance' lane lanes =>
      exact .inr (drained_register (wired.calm (calm_tick system elapsed)) id hash instance' lane lanes)
  | teardown task => exact .inr (drained_teardown system task)
  | close task => exact .inr (drained_close system task)
  | take task => exact .inr (drained_take system task)
  | release => exact .inr (drained_release system)
  | start source hash instance' lane frame =>
      exact .inr (drained_start system source hash instance' lane frame)
  | validate call elapsed choice => exact .inr (drained_validate (system.tick elapsed) call choice)
  | reserve call => exact .inr (drained_reserve system call)
  | giveUp call => exact .inr (drained_giveUp system call)
  | acquire call => exact .inr (drained_acquire system call)
  | commit call elapsed choice => exact drained_commit (system.tick elapsed) call choice
  | abort call => exact .inr (drained_abort system call)

/-- A packet is put on the queue of a target for a record of a frame. -/
structure Delivered (history : List (Action × Output)) (system : System) (action : Action)
    (call channel : Nat) (record packet : Bytes) (next : System) : Prop where
  /-- At the moment of the commit every check holds of the state. -/
  checked : ∃ elapsed choice caller route current target task,
    action = .commit call elapsed choice ∧ system.calls.get? call = some caller ∧
    next.time = system.time + elapsed ∧ next.inner = system.inner ∧
    Permitted system.inner caller.source caller.hash caller.instance' record
      (system.time + elapsed) target current ∧
    -- the frame came from the sender with these credentials
    (∃ frame records,
      (Action.start caller.source caller.hash caller.instance' caller.lane frame,
        Output.started call records) ∈ history ∧ record ∈ records) ∧
    -- the queue is the one of the connection in which the call holds a slot
    caller.phase = .budgeted record route ∧ current.channel = route.channel ∧
    current.generation = route.generation ∧ channel = route.channel ∧
    system.tasks.get? channel = some task ∧ task.peer = target ∧
    task.generation = route.generation ∧ task.registered = true ∧
    -- the name of the source and the packet, at the end of the queue
    packet = forwarded caller.source current.packet ∧
    next.tasks = system.tasks.insert channel { task with queue := task.queue ++ [packet] }

theorem delivered (wired : Wired system) (ordered : Ordered history system)
    {action next call channel record packet}
    (taken : system.step tokenDigest action = (next, .queued call channel record packet)) :
    Delivered history system action call channel record packet next := by
  obtain ⟨elapsed, choice, rfl, taken⟩ := step_queued taken
  obtain ⟨_, caller, route, current, task, committed⟩ := commit_queued taken
  obtain ⟨target, permitted⟩ := routeRecord_permitted committed.checked
  obtain ⟨frame, records, started⟩ := ordered.begun committed.found
  obtain ⟨done, split, _⟩ := ordered.front started committed.found
  have listed : record ∈ records := by
    rw [split, Call.pending, committed.budgeted]
    simp [Phase.record]
  obtain ⟨a, b, _, _, _, _, _, _, _, _, _, _, lanes, lane, connection, open', present, output,
    generation, _⟩ := permitted.leases
  obtain ⟨owner, owned, peer, _, same, registered⟩ := wired.linked ⟨lanes, open', present⟩
  have own : task = owner := by
    have target := committed.target
    rw [committed.reserved, ← committed.same, ← output] at target
    exact Option.mem_unique target owned
  subst own
  refine ⟨elapsed, choice, caller, route, current, target, task, rfl, committed.found, ?_, ?_,
    permitted, ⟨frame, records, started, listed⟩, committed.budgeted, committed.same,
    committed.generation, committed.reserved, committed.target, peer, ?_, registered,
    committed.whole, ?_⟩
  · rw [committed.after]
    rfl
  · rw [committed.after]
    rfl
  · rw [same, generation, committed.generation]
  · rw [committed.after]
    rfl

theorem run_invariants (run : Run (answers (System.step tokenDigest)) System.initial history system) :
    Wired system ∧ Balanced system ∧ Ordered history system := by
  induction run with
  | start => exact ⟨.initial, .initial, .initial⟩
  | snoc _ taken ih =>
      rename_i history system event next run
      obtain ⟨wired, balanced, ordered⟩ := ih
      refine ⟨?_, ?_, ordered.step taken⟩
      · rw [taken.next]
        exact wired.step tokenDigest event.1
      · rw [taken.next]
        exact balanced.step wired tokenDigest event.1

/-- After every run: a queue gains a packet only through a commit that finds everything
    as it must be at that moment, the records of a frame are queued in their order, and
    every queued packet has its permit. -/
theorem forwarding_is_checked {tokenDigest : String → String} {history : List (Action × Output)}
    (run : Run (answers (System.step tokenDigest)) System.initial history system) :
    system.permits = maxRelayQueueBudget ∧
    (∀ action number records, (action, Output.started number records) ∈ history →
      (queuedOf number history).Sublist records) ∧
    ∀ action output next, answers (System.step tokenDigest) system (action, output) next →
      (∀ call channel record packet, output = .queued call channel record packet →
        Delivered history system action call channel record packet next) ∧
      ((∃ call channel record packet, output = .queued call channel record packet) ∨
        Drained system next) := by
  obtain ⟨wired, balanced, ordered⟩ := run_invariants run
  refine ⟨balanced.permits, fun _ _ _ member => ordered.whole member, ?_⟩
  intro action output next taken
  constructor
  · rintro call channel record packet rfl
    exact delivered wired ordered taken
  · have moved := drained_step wired tokenDigest action
    rwa [taken] at moved

def examplePacket : Bytes := [0x45, 0, 0, 20, 0, 0, 0, 0, 64, 17, 0, 0, 10, 0, 0, 1, 10, 0, 0, 2]

/-- One peer sends a packet to another; the call holds a slot and a permit. -/
def exampleActions : List Action :=
  [.publish 0 "a" "A" "one" ⟨10, 0, 0, 1⟩ ["b"] "s", .publish 0 "b" "B" "two" ⟨10, 0, 0, 2⟩ ["a"] "t",
    .register 0 "b" "B" "two" 0 1, .start "a" "A" "one" 0 (1 :: 98 :: examplePacket),
    .validate 0 0 0, .reserve 0, .acquire 0]

def exampleSystem : System := (feed (System.step id) System.initial exampleActions).2

theorem one_packet_is_checked :
    ∃ next, Delivered (feed (System.step id) System.initial exampleActions).1 exampleSystem
      (.commit 0 1 0) 0 0 (1 :: 98 :: examplePacket) (1 :: 97 :: examplePacket) next := by
  have taken : answers (System.step id) exampleSystem
      (.commit 0 1 0, .queued 0 0 (1 :: 98 :: examplePacket) (1 :: 97 :: examplePacket))
      (exampleSystem.step id (.commit 0 1 0)).1 := rfl
  have run := feed_run (System.step id) System.initial exampleActions
  exact ⟨_, ((forwarding_is_checked run).2.2 _ _ _ taken).1 0 0 _ _ rfl⟩

/-- After every run a registered lane has a queue of its own, which its own task drains. -/
theorem queues_are_not_shared {tokenDigest : String → String} {history : List (Action × Output)}
    (run : Run (answers (System.step tokenDigest)) System.initial history system) {peer lane connection}
    (connected : Connected system.inner peer lane connection) :
    (∃ task, system.tasks.get? connection.channel = some task ∧
      task.peer = peer ∧ task.lane = lane ∧ task.attached = true) ∧
    ∀ other place twin, Connected system.inner other place twin → twin.channel = connection.channel →
      other = peer ∧ place = lane := by
  obtain ⟨wired, _⟩ := run_invariants run
  obtain ⟨task, found, named, placed, _, registered⟩ := wired.linked connected
  refine ⟨⟨task, found, named, placed, wired.attached found registered⟩, ?_⟩
  intro other place twin present same
  obtain ⟨second, known, name, number, _⟩ := wired.linked present
  rw [same] at known
  obtain rfl := Option.mem_unique found known
  exact ⟨name.symm.trans named, number.symm.trans placed⟩

theorem one_queue_is_drained : ∃ connection, Connected exampleSystem.inner "b" 0 connection ∧
    ∃ task, exampleSystem.tasks.get? connection.channel = some task ∧
      task.peer = "b" ∧ task.lane = 0 ∧ task.attached = true :=
  have connected : Connected exampleSystem.inner "b" 0 _ := ⟨_, rfl, rfl⟩
  ⟨_, connected, (queues_are_not_shared (feed_run (System.step id) _ exampleActions) connected).1⟩

end Queues

end PortHub.Api.PrivateRelay
