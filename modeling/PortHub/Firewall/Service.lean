import PortHub.Firewall.Rules
import PortHub.Lib.Runs

/-! # The firewall service

The policies are held three times: in memory, in the database and in the kernel. A change
holds the lock while it stores, applies and, if the kernel refuses, restores. Writes wait
in the queue of the database thread, and stay there when the future that sent them is
dropped. A dropped future releases the lock.
-/

namespace PortHub.Firewall

open Runs

namespace Policies

@[ext] theorem ext {first second : Policies} (same : first.entries = second.entries) : first = second := by
  cases first
  cases second
  simpa using same

def empty : Policies := ⟨[], List.Pairwise.nil⟩

/-- Insert the policy of a port, or remove it. -/
def put (policies : Policies) (port : UInt16) (policy : Option Policy) : Policies where
  entries := policies.entries.filter (fun entry => decide (entry.1 < port)) ++
    ((policy.map (port, ·)).toList ++ policies.entries.filter fun entry => decide (port < entry.1))
  sorted := by
    have own : ∀ entry ∈ (policy.map (port, ·)).toList, entry.1 = port := by
      cases policy <;> simp
    simp only [List.pairwise_append, List.mem_append, List.mem_filter, decide_eq_true_eq]
    refine ⟨policies.sorted.filter _, ⟨?_, policies.sorted.filter _, ?_⟩, ?_⟩
    · cases policy <;> simp
    · intro entry inside other later
      exact own entry inside ▸ later.2
    · intro entry earlier other inside
      rcases inside with inside | later
      · exact own other inside ▸ earlier.2
      · exact UInt16.lt_trans earlier.2 later.2

theorem put_put (policies : Policies) (port : UInt16) (first second : Option Policy) :
    (policies.put port first).put port second = policies.put port second := by
  have left : (first.map (port, ·)).toList.filter
      (fun entry : UInt16 × Policy => decide (entry.1 < port)) = [] := by
    cases first <;> simp
  have right : (first.map (port, ·)).toList.filter
      (fun entry : UInt16 × Policy => decide (port < entry.1)) = [] := by
    cases first <;> simp
  have apart : ∀ entry : UInt16 × Policy, ¬ (entry.1 < port ∧ port < entry.1) := by
    intro entry both
    exact UInt16.lt_asymm both.1 both.2
  have below : policies.entries.filter (fun entry => decide (entry.1 < port) && decide (port < entry.1)) = [] := by
    rw [List.filter_eq_nil_iff]
    intro entry _ both
    exact apart entry (by simpa using both)
  have above : policies.entries.filter (fun entry => decide (port < entry.1) && decide (entry.1 < port)) = [] := by
    rw [List.filter_eq_nil_iff]
    intro entry _ both
    exact apart entry (by simpa [and_comm] using both)
  ext1
  simp only [put, List.filter_append, left, right, List.filter_filter, below, above, Bool.and_self,
    List.nil_append, List.append_nil]

/-- What was found is what is put back. -/
theorem put_get (policies : Policies) (port : UInt16) : policies.put port (policies.get? port) = policies := by
  obtain ⟨entries, sorted⟩ := policies
  ext1
  simp only [put, get?]
  induction entries with
  | nil => rfl
  | cons entry rest ih =>
      obtain ⟨first, later⟩ := List.pairwise_cons.mp sorted
      by_cases less : entry.1 < port
      · have other : (port == entry.1) = false := beq_false_of_ne (UInt16.ne_of_lt less).symm
        have not_greater : ¬ port < entry.1 := UInt16.lt_asymm less
        rw [List.filter_cons_of_pos (by simpa using less), List.filter_cons_of_neg (by simpa using not_greater),
          List.lookup_cons, other]
        exact congrArg (entry :: ·) (ih later)
      · have before : ∀ next ∈ rest, port < next.1 := fun next member =>
          UInt16.lt_of_le_of_lt (UInt16.not_lt.mp less) (first next member)
        have none_below : rest.filter (fun next => decide (next.1 < port)) = [] := by
          rw [List.filter_eq_nil_iff]
          intro next member below
          exact UInt16.lt_asymm (before next member) (by simpa using below)
        have all_above : rest.filter (fun next => decide (port < next.1)) = rest := by
          rw [List.filter_eq_self]
          intro next member
          simpa using before next member
        rw [List.filter_cons_of_neg (by simpa using less), none_below, List.nil_append]
        by_cases own : port = entry.1
        · subst own
          rw [List.lookup_cons_self, List.filter_cons_of_neg (by simp), all_above]
          rfl
        · have greater : port < entry.1 := UInt16.lt_of_le_of_ne (UInt16.not_lt.mp less) own
          have missing : rest.lookup port = none := by
            rw [List.lookup_eq_none_iff]
            intro next member
            simpa using (UInt16.ne_of_lt (before next member))
          rw [List.lookup_cons, beq_false_of_ne own, missing, List.filter_cons_of_pos (by simpa using greater),
            all_above]
          rfl

end Policies

/-- A write that the database thread has not executed yet. -/
structure Write where
  port : UInt16
  policy : Option Policy
  /-- It restores what a refused change had stored. -/
  rollback : Bool

/-- Where a change that holds the lock waits, and what it was answered. -/
inductive Stage where
  | storing (answer : Option Bool)
  | applying (answer : Option Bool)
  | restoring (answer : Option Bool)

structure Change where
  port : UInt16
  policy : Option Policy
  previous : Option Policy
  candidate : Policies
  stage : Stage

structure World where
  memory : Policies
  database : Policies
  kernel : Policies
  /-- The writes of the database thread, oldest first. -/
  queue : List Write
  /-- The handlers that wait for the lock. -/
  waiting : List (UInt16 × Option Policy)
  running : Option Change
  /-- A rollback write has failed. -/
  unrestored : Bool

/-- After `Service::new`. -/
def World.new (policies : Policies) : World := ⟨policies, policies, policies, [], [], none, false⟩

inductive Label where
  | arrive (port : UInt16) (policy : Option Policy)
  /-- The future of a handler that waits for the lock is dropped. -/
  | leave (index : Nat)
  /-- A waiting handler takes the lock, checks its candidate and sends its write. -/
  | start (index : Nat)
  /-- The database thread executes its next write. -/
  | execute (ok : Bool)
  /-- The kernel takes the candidate as a whole, or refuses it. -/
  | commit (ok : Bool)
  /-- The change that holds the lock gets its answer and goes on. -/
  | resume
  /-- The future of the change that holds the lock is dropped. -/
  | abandon
  deriving DecidableEq

namespace World

/-- `Service::change` up to the first write it waits for. -/
def start (world : World) (port : UInt16) (policy : Option Policy) : World :=
  let candidate := world.memory.put port policy
  if port = 0 then world
  else if (rules candidate "porthub".toList 300).isOk then
    { world with
      queue := world.queue ++ [⟨port, policy, false⟩]
      running := some ⟨port, policy, world.memory.get? port, candidate, .storing none⟩ }
  else world

/-- The change hears about the write that it waits for, which is the last one. -/
def answered (change : Change) (ok : Bool) : Change :=
  { change with
    stage := match change.stage with
      | .storing none => .storing (some ok)
      | .restoring none => .restoring (some ok)
      | stage => stage }

def execute (world : World) (ok : Bool) : Option World :=
  match world.queue with
  | [] => none
  | write :: rest =>
      some { world with
        queue := rest
        database := if ok then world.database.put write.port write.policy else world.database
        unrestored := world.unrestored || (write.rollback && !ok)
        running := if rest.isEmpty then world.running.map (answered · ok) else world.running }

def commit (world : World) (ok : Bool) : Option World :=
  match world.running with
  | some change =>
      match change.stage with
      | .applying none =>
          some { world with
            kernel := if ok then change.candidate else world.kernel
            running := some { change with stage := .applying (some ok) } }
      | _ => none
  | none => none

def resume (world : World) : Option World :=
  match world.running with
  | some change =>
      match change.stage with
      | .storing (some true) => some { world with running := some { change with stage := .applying none } }
      | .storing (some false) => some { world with running := none }
      | .applying (some true) => some { world with memory := change.candidate, running := none }
      | .applying (some false) =>
          some { world with
            queue := world.queue ++ [⟨change.port, change.previous, true⟩]
            running := some { change with stage := .restoring none } }
      | .restoring (some _) => some { world with running := none }
      | _ => none
  | none => none

def step (world : World) : Label → Option World
  | .arrive port policy => some { world with waiting := world.waiting ++ [(port, policy)] }
  | .leave index =>
      if index < world.waiting.length then some { world with waiting := world.waiting.eraseIdx index } else none
  | .start index =>
      match world.running, world.waiting[index]? with
      | none, some (port, policy) =>
          some ({ world with waiting := world.waiting.eraseIdx index }.start port policy)
      | _, _ => none
  | .execute ok => world.execute ok
  | .commit ok => world.commit ok
  | .resume => world.resume
  | .abandon => if world.running.isSome then some { world with running := none } else none

/-- The writes that no change waits for bring the database to what is in memory. -/
inductive Owed (world : World) : List Write → Prop
  | nothing (same : world.database = world.memory) : Owed world []
  | rollback {write : Write} (restores : write.rollback = true)
      (same : world.database.put write.port write.policy = world.memory) : Owed world [write]

/-- What a change knows about the policies it started from. -/
structure Begun (world : World) (change : Change) : Prop where
  running : world.running = some change
  kernel : world.kernel = world.memory
  candidate : change.candidate = world.memory.put change.port change.policy
  previous : change.previous = world.memory.get? change.port

/-- The three copies, wherever the change that holds the lock waits. -/
inductive Consistent (world : World) : Prop
  | failed (unrestored : world.unrestored = true)
  | idle (running : world.running = none) (kernel : world.kernel = world.memory)
      (owed : Owed world world.queue)
  | sent {change : Change} {front : List Write} (begun : Begun world change)
      (stage : change.stage = .storing none)
      (queue : world.queue = front ++ [⟨change.port, change.policy, false⟩]) (owed : Owed world front)
  | refused {change : Change} (begun : Begun world change) (stage : change.stage = .storing (some false))
      (queue : world.queue = []) (same : world.database = world.memory)
  | stored {change : Change} (begun : Begun world change)
      (stage : change.stage = .storing (some true) ∨ change.stage = .applying none ∨
        change.stage = .applying (some false))
      (queue : world.queue = []) (same : world.database = change.candidate)
  | applied {change : Change} (running : world.running = some change)
      (stage : change.stage = .applying (some true)) (queue : world.queue = [])
      (kernel : world.kernel = change.candidate) (same : world.database = change.candidate)
  | restoring {change : Change} (begun : Begun world change) (stage : change.stage = .restoring none)
      (queue : world.queue = [⟨change.port, change.previous, true⟩])
      (same : world.database.put change.port change.previous = world.memory)
  | restored {change : Change} {ok : Bool} (begun : Begun world change)
      (stage : change.stage = .restoring (some ok)) (queue : world.queue = [])
      (same : world.database = world.memory)

/-- A future that holds the lock is dropped only after its write failed, or while it
    restores. -/
def Careful (world : World) (label : Label) (next : World) : Prop :=
  world.step label = some next ∧ (label = .abandon → ∀ change ∈ world.running,
    change.stage = .storing (some false) ∨ ∃ answer, change.stage = .restoring answer)

variable {world next : World}

theorem step_unrestored {label} (taken : world.step label = some next)
    (unrestored : world.unrestored = true) : next.unrestored = true := by
  cases label with
  | arrive port policy =>
      cases taken
      exact unrestored
  | leave index | abandon =>
      simp only [step, Option.ite_none_right_eq_some, Option.some.injEq] at taken
      rw [← taken.2]
      exact unrestored
  | start index =>
      simp only [step] at taken
      split at taken
      · cases taken
        unfold start
        dsimp only
        split
        · exact unrestored
        · split <;> exact unrestored
      · cases taken
  | execute ok =>
      simp only [step, execute] at taken
      split at taken
      · cases taken
      · cases taken
        simp [unrestored]
  | commit ok =>
      simp only [step, commit] at taken
      split at taken
      · split at taken
        · cases taken
          exact unrestored
        · cases taken
      · cases taken
  | resume =>
      simp only [step, resume] at taken
      split at taken
      · split at taken <;> first | cases taken; done | (obtain rfl := Option.some.inj taken; exact unrestored)
      · cases taken

theorem Owed.keep {front} (owed : Owed world front) (database : next.database = world.database)
    (memory : next.memory = world.memory) : Owed next front := by
  cases owed with
  | nothing same => exact .nothing (by rw [database, memory, same])
  | rollback restores same => exact .rollback restores (by rw [database, memory, same])

/-- A change keeps what it knows while the memory and the kernel stay. -/
theorem Begun.keep {change} (begun : Begun world change) (stage : Stage)
    (running : next.running = some { change with stage }) (memory : next.memory = world.memory)
    (kernel : next.kernel = world.kernel) : Begun next { change with stage } :=
  ⟨running, by rw [kernel, memory, begun.kernel], by rw [memory, begun.candidate],
    by rw [memory, begun.previous]⟩

section

variable (consistent : Consistent world)

include consistent

/-- The handlers that wait for the lock have no part in it. -/
theorem Consistent.requeue (waiting : List (UInt16 × Option Policy)) :
    Consistent { world with waiting } := by
  have kept {change : Change} (begun : Begun world change) : Begun { world with waiting } change :=
    ⟨begun.running, begun.kernel, begun.candidate, begun.previous⟩
  cases consistent with
  | failed unrestored => exact .failed unrestored
  | idle running kernel owed => exact .idle running kernel (owed.keep rfl rfl)
  | sent begun stage queue owed => exact .sent (kept begun) stage queue (owed.keep rfl rfl)
  | refused begun stage queue same => exact .refused (kept begun) stage queue same
  | stored begun stage queue same => exact .stored (kept begun) stage queue same
  | applied running stage queue kernel same => exact .applied running stage queue kernel same
  | restoring begun stage queue same => exact .restoring (kept begun) stage queue same
  | restored begun stage queue same => exact .restored (kept begun) stage queue same

theorem Consistent.start (free : world.running = none) (port : UInt16)
    (policy : Option Policy) : Consistent (world.start port policy) := by
  unfold World.start
  dsimp only
  split
  · exact consistent
  · split
    · cases consistent with
      | failed unrestored => exact .failed unrestored
      | idle running kernel owed => exact .sent ⟨rfl, kernel, rfl, rfl⟩ rfl rfl (owed.keep rfl rfl)
      | sent begun | refused begun | stored begun | restoring begun | restored begun =>
          have busy := begun.running
          cases free.symm.trans busy
      | applied running =>
          cases free.symm.trans running
    · exact consistent

theorem Consistent.execute {ok}
    (taken : world.execute ok = some next) :
    Consistent next := by
  unfold World.execute at taken
  split at taken
  · cases taken
  · rename_i write rest shape
    cases taken
    cases consistent with
    | failed unrestored => exact .failed (by simp [unrestored])
    | idle running kernel owed =>
        rw [shape] at owed
        cases owed with
        | rollback restores same =>
            cases ok with
            | true => exact .idle (by simp [running]) kernel (.nothing same)
            | false => exact .failed (by simp [restores])
    | @sent change front begun stage queue owed =>
        rw [shape] at queue
        cases owed with
        | nothing same =>
            obtain ⟨rfl, rfl⟩ := List.cons.inj queue
            have heard : answered change ok = { change with stage := .storing (some ok) } := by
              rw [answered, stage]
            have running : (World.running { world with running := world.running.map (answered · ok) }) =
                some { change with stage := .storing (some ok) } := by
              rw [begun.running, Option.map_some, heard]
            cases ok with
            | true =>
                refine .stored (begun.keep (.storing (some true)) running rfl rfl) (.inl rfl) rfl ?_
                exact (congrArg (Policies.put · change.port change.policy) same).trans begun.candidate.symm
            | false => exact .refused (begun.keep (.storing (some false)) running rfl rfl) rfl rfl same
        | rollback restores same =>
            obtain ⟨rfl, rfl⟩ := List.cons.inj queue
            cases ok with
            | true =>
                exact .sent ⟨begun.running, begun.kernel, begun.candidate, begun.previous⟩ stage rfl
                  (.nothing same)
            | false => exact .failed (by simp [restores])
    | refused _ _ queue | stored _ _ queue | applied _ _ queue | restored _ _ queue =>
        cases shape.symm.trans queue
    | @restoring change begun stage queue same =>
        rw [shape] at queue
        obtain ⟨rfl, rfl⟩ := List.cons.inj queue
        cases ok with
        | true =>
            have heard : answered change true = { change with stage := .restoring (some true) } := by
              rw [answered, stage]
            refine .restored (begun.keep (.restoring (some true)) ?_ rfl rfl) rfl rfl same
            rw [begun.running]
            exact congrArg some heard
        | false => exact .failed (by simp)

theorem Consistent.commit {ok}
    (taken : world.commit ok = some next) :
    Consistent next := by
  unfold World.commit at taken
  split at taken
  · rename_i change holds
    split at taken
    · rename_i waits
      cases taken
      cases consistent with
      | failed unrestored => exact .failed unrestored
      | idle running =>
          cases holds.symm.trans running
      | @stored own begun stage queue same =>
          obtain rfl : change = own := by
            have same := begun.running
            rw [holds] at same
            exact Option.some.inj same
          cases ok with
          | true => exact .applied rfl rfl queue rfl same
          | false => exact .stored (begun.keep (.applying (some false)) rfl rfl rfl) (.inr (.inr rfl)) queue same
      | sent begun stage | refused begun stage | restoring begun stage | restored begun stage =>
          have same := begun.running
          rw [holds] at same
          cases same
          cases waits.symm.trans stage
      | applied running stage =>
          rw [holds] at running
          cases running
          cases waits.symm.trans stage
    · cases taken
  · cases taken

theorem Consistent.resume (taken : world.resume = some next) :
    Consistent next := by
  unfold World.resume at taken
  cases consistent with
  | failed unrestored => exact .failed (@step_unrestored world next .resume taken unrestored)
  | idle running =>
      rw [running] at taken
      cases taken
  | @sent change front begun stage | restoring begun stage =>
      rw [begun.running] at taken
      simp only [stage, reduceCtorEq] at taken
  | refused begun stage queue same | restored begun stage queue same =>
      rw [begun.running] at taken
      simp only [stage, Option.some.injEq] at taken
      subst taken
      exact .idle rfl begun.kernel (queue ▸ .nothing same)
  | @stored change begun stage queue same =>
      rw [begun.running] at taken
      rcases stage with stage | stage | stage <;> simp only [stage, Option.some.injEq, reduceCtorEq] at taken
      · subst taken
        exact .stored (begun.keep (.applying none) rfl rfl rfl) (.inr (.inl rfl)) queue same
      · subst taken
        -- what was found before the change is put back
        have back : world.database.put change.port change.previous = world.memory := by
          rw [same, begun.candidate, Policies.put_put, begun.previous, Policies.put_get]
        exact .restoring (begun.keep (.restoring none) rfl rfl rfl) rfl (by simp [queue]) back
  | applied running stage queue kernel same =>
      rw [running] at taken
      simp only [stage, Option.some.injEq] at taken
      subst taken
      exact .idle rfl kernel (queue ▸ .nothing same)

theorem Consistent.abandon (careful : ∀ change ∈ world.running,
      change.stage = .storing (some false) ∨ ∃ answer, change.stage = .restoring answer) :
    Consistent { world with running := none } := by
  cases consistent with
  | failed unrestored => exact .failed unrestored
  | idle running kernel owed => exact .idle rfl kernel (owed.keep rfl rfl)
  | refused begun stage queue same | restored begun stage queue same =>
      exact .idle rfl begun.kernel (queue ▸ .nothing same)
  | restoring begun stage queue same => exact .idle rfl begun.kernel (queue ▸ .rollback rfl same)
  | sent begun stage =>
      rcases careful _ begun.running with other | ⟨_, other⟩ <;> rw [stage] at other <;> cases other
  | stored begun stage =>
      rcases careful _ begun.running with other | ⟨_, other⟩ <;> rcases stage with stage | stage | stage <;>
        rw [stage] at other <;> cases other
  | applied running stage =>
      rcases careful _ running with other | ⟨_, other⟩ <;> rw [stage] at other <;> cases other

end

theorem Consistent.step {label} (consistent : Consistent world) (taken : Careful world label next) :
    Consistent next := by
  obtain ⟨taken, careful⟩ := taken
  cases label with
  | arrive port policy =>
      cases taken
      exact consistent.requeue _
  | leave index =>
      simp only [World.step, Option.ite_none_right_eq_some, Option.some.injEq] at taken
      rw [← taken.2]
      exact consistent.requeue _
  | start index =>
      simp only [World.step] at taken
      split at taken
      · rename_i free _
        cases taken
        exact (consistent.requeue (world.waiting.eraseIdx index)).start free _ _
      · cases taken
  | execute ok => exact consistent.execute taken
  | commit ok => exact consistent.commit taken
  | resume => exact consistent.resume taken
  | abandon =>
      simp only [World.step, Option.ite_none_right_eq_some, Option.some.injEq] at taken
      rw [← taken.2]
      exact consistent.abandon (careful rfl)

/-- The change that holds the lock waits for the only write that is there. -/
def Awaited (world : World) : Prop :=
  world.queue = [] ∨ ∃ change write, world.running = some change ∧ world.queue = [write] ∧
    (change.stage = .storing none ∨ change.stage = .restoring none)

theorem Awaited.step {label} (awaited : Awaited world) (taken : world.step label = some next)
    (kept : label ≠ .abandon) : Awaited next := by
  cases label with
  | arrive port policy =>
      cases taken
      exact awaited
  | leave index =>
      simp only [World.step, Option.ite_none_right_eq_some, Option.some.injEq] at taken
      rw [← taken.2]
      exact awaited
  | start index =>
      simp only [World.step] at taken
      split at taken
      · rename_i port policy free _
        cases taken
        have empty : world.queue = [] := by
          rcases awaited with empty | ⟨_, _, busy, _⟩
          · exact empty
          · cases free.symm.trans busy
        unfold World.start
        dsimp only
        split
        · exact .inl empty
        · split
          · exact .inr ⟨_, ⟨port, policy, false⟩, rfl, by simp [empty], .inl rfl⟩
          · exact .inl empty
      · cases taken
  | execute ok =>
      simp only [World.step, World.execute] at taken
      split at taken
      · cases taken
      · rename_i write rest shape
        cases taken
        rcases awaited with empty | ⟨_, _, _, one, _⟩
        · cases shape.symm.trans empty
        · rw [shape] at one
          exact .inl (List.cons.inj one).2
  | commit ok =>
      simp only [World.step, World.commit] at taken
      split at taken
      · rename_i change holds
        split at taken
        · rename_i waits
          cases taken
          rcases awaited with empty | ⟨_, _, busy, _, stage⟩
          · exact .inl empty
          · rw [holds] at busy
            cases busy
            rw [waits] at stage
            simp at stage
        · cases taken
      · cases taken
  | resume =>
      simp only [World.step, World.resume] at taken
      split at taken
      · rename_i change holds
        have empty (answered : change.stage ≠ .storing none ∧ change.stage ≠ .restoring none) :
            world.queue = [] := by
          rcases awaited with empty | ⟨_, _, busy, _, stage⟩
          · exact empty
          · rw [holds] at busy
            cases busy
            exact absurd stage (not_or.mpr answered)
        split at taken <;> rename_i stage
        · cases taken
          exact .inl (empty (by simp [stage]))
        · cases taken
          exact .inl (empty (by simp [stage]))
        · cases taken
          exact .inl (empty (by simp [stage]))
        · cases taken
          exact .inr ⟨_, ⟨change.port, change.previous, true⟩, rfl, by simp [empty (by simp [stage])], .inr rfl⟩
        · cases taken
          exact .inl (empty (by simp [stage]))
        · cases taken
      · cases taken
  | abandon => exact absurd rfl kept

end World

open World

/-- While no change runs and no write waits, the three copies agree, if futures that hold
    the lock are dropped only where nothing is left to do. Where none is dropped, no write
    waits then. -/
theorem policies_agree_at_rest (policies : Policies) :
    (∀ history world, Run Careful (World.new policies) history world → world.running = none →
      world.unrestored = false →
      world.kernel = world.memory ∧ (world.queue = [] → world.database = world.memory)) ∧
    ∀ history world, Run (fun world label next => world.step label = some next ∧ label ≠ .abandon)
        (World.new policies) history world → world.running = none → world.unrestored = false →
      world.kernel = world.memory ∧ world.database = world.memory := by
  have rest {history : List Label} {world : World} (run : Run Careful (World.new policies) history world)
      (idle : world.running = none) (fine : world.unrestored = false) :
      world.kernel = world.memory ∧ (world.queue = [] → world.database = world.memory) := by
    have consistent : Consistent world := @Run.historyInvariant _ _ _ _ (fun _ => Consistent)
      (.idle rfl rfl (.nothing rfl)) (fun _ _ _ _ _ before taken => before.step taken) _ _ run
    cases consistent with
    | failed unrestored =>
        cases fine.symm.trans unrestored
    | idle _ kernel owed =>
        refine ⟨kernel, fun empty => ?_⟩
        rw [empty] at owed
        cases owed with
        | nothing same => exact same
    | sent begun | refused begun | stored begun | restoring begun | restored begun =>
        have busy := begun.running
        cases idle.symm.trans busy
    | applied running =>
        cases idle.symm.trans running
  refine ⟨fun history world run => rest run, fun history world run idle fine => ?_⟩
  have careful : Run Careful (World.new policies) history world :=
    run.mono fun _ _ _ taken => ⟨taken.1, fun dropped => absurd dropped taken.2⟩
  have awaited : Awaited world := @Run.historyInvariant _ _ _ _ (fun _ => Awaited) (.inl rfl)
    (fun _ _ _ _ _ before taken => before.step taken.1 taken.2) _ _ run
  obtain ⟨kernel, database⟩ := rest careful idle fine
  refine ⟨kernel, database ?_⟩
  rcases awaited with empty | ⟨_, _, busy, _⟩
  · exact empty
  · cases idle.symm.trans busy

/-- Opening a port, step by step. -/
def opening : List Label :=
  [.arrive 80 (some ⟨true, []⟩), .start 0, .execute true, .resume, .commit true, .resume]

theorem opened_port_is_everywhere : ∃ world,
    Run (fun world label next => World.step world label = some next ∧ label ≠ .abandon) (World.new .empty)
      opening world ∧
    world.memory.entries = [(80, ⟨true, []⟩)] ∧ world.kernel = world.memory ∧
    world.database = world.memory := by
  have passes : (opening.foldlM World.step (World.new .empty)).map (fun world =>
      (world.running.isNone, world.unrestored, world.memory.entries)) =
        some (true, false, [(80, ⟨true, []⟩)]) := by
    decide
  obtain ⟨world, ended, shape⟩ := Option.map_eq_some_iff.mp passes
  obtain ⟨idle, fine, memory⟩ : world.running.isNone = true ∧ world.unrestored = false ∧
      world.memory.entries = [(80, ⟨true, []⟩)] := by
    simpa using shape
  have run := @Run.restrict _ _ _ _ (· ≠ Label.abandon) _ _ (.of_foldlM ended) (by decide)
  exact ⟨world, run, memory,
    (policies_agree_at_rest .empty).2 opening world run (Option.isNone_iff_eq_none.mp idle) fine⟩

/-- The future is dropped while it waits for its write. -/
def interrupted : List Label := [.arrive 80 (some ⟨true, []⟩), .start 0, .abandon, .execute true]

/-- The port is open in the database, and after the next start of the service in the
    kernel, and closed everywhere else. -/
theorem dropped_change_is_stored : ∃ world,
    Run (fun world label next => World.step world label = some next) (World.new .empty) interrupted world ∧
    world.running.isNone = true ∧ world.queue = [] ∧ world.unrestored = false ∧
    world.database.entries = [(80, ⟨true, []⟩)] ∧ world.memory.entries = [] ∧ world.kernel.entries = [] := by
  have passes : (interrupted.foldlM World.step (World.new .empty)).map (fun world =>
      (world.running.isNone && world.queue.isEmpty && !world.unrestored,
        [world.database.entries, world.memory.entries, world.kernel.entries])) =
        some (true, [[(80, ⟨true, []⟩)], [], []]) := by
    decide
  obtain ⟨world, ended, shape⟩ := Option.map_eq_some_iff.mp passes
  refine ⟨world, .of_foldlM ended, ?_⟩
  simpa [and_assoc] using shape

end PortHub.Firewall
