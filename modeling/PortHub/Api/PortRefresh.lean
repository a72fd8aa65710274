import PortHub.Api.TrafficRoutes
import PortHub.Lib.Faults

/-! # Refreshed ports

A refresh disables a port, waits, and enables it again. In between the record carries a
lease, and whoever enables the port does so for the lease it was called with: a worker
that waited, or the recovery after a restart. A user's save drops the lease. The steps
behind the lock are atomic for each other, though any operation in them may fail or be
the last one of the process. A save whose rollback fails stays in the database, and so
may one that the process did not finish: the user's last word counts those.
-/

namespace PortHub.Api.PortRefresh

open Faults Runs
open TrafficRoutes (Machine internal stripText)

/-- The body of a save, behind the checks of its JSON. -/
structure Input where
  dataId : Option String
  machineId : String
  serviceName : String
  serviceDescription : Option String
  internalIp : String
  internalPort : Int
  externalPort : Int
  enabled : Option Bool
  autoRefreshEnabled : Option Bool
  autoRefreshIntervalMinutes : Option Int

/-- What a user edits. -/
structure Fields (α : Type) where
  machineId : α
  serviceName : String
  serviceDescription : String
  internalIp : String
  internalPort : Int
  externalPort : Int
  enabled : Bool
  autoRefreshEnabled : Bool
  autoRefreshIntervalMinutes : Option Int
  deriving DecidableEq, Repr

/-- `native_refresh`. -/
structure Lease where
  id : String
  startedAt : Int
  deriving DecidableEq, Repr

structure Record (α : Type) where
  userId : α
  temporary : Bool
  fields : Fields α
  lease : Option Lease
  createdAt : Int
  updatedAt : Int
  autoRefreshedAt : Option Int
  autoRefreshNextAt : Option Int
  deriving DecidableEq, Repr

structure World (α : Type) where
  machines : Dict α (Machine α)
  connections : Dict α (Record α)

/-- The error of a request, and whether a failed rollback was logged with it. -/
structure Fault where
  error : ApiError
  unrestored : Bool

def Fault.plain (error : ApiError) : Fault := ⟨error, false⟩

abbrev Action (α β : Type) := Prog (World α) Fault β

section Operations

variable {α β : Type} [DecidableEq α]

def read (view : World α → β) : Action α β := Prog.op (.plain internal) fun world => some (view world, world)

/-- A change of the collection. -/
def write (change : Dict α (Record α) → Dict α (Record α)) : Action α Unit :=
  Prog.op (.plain internal) fun world => some ((), { world with connections := change world.connections })

/-- `firewall::sync` and `firewall::remove`. -/
def sync : Action α Unit := read fun _ => ()

/-- `generated::rebuild`. -/
def rebuild : Action α Unit := read fun _ => ()

/-- `replace_one` with a filter for the id and more. -/
def replaceOne (id : α) (matched : Record α → Bool) (record : Record α) (connections : Dict α (Record α)) :
    Dict α (Record α) :=
  if (connections.get? id).any matched then connections.insert id record else connections

def minutes (record : Record α) : Int := max 1 (min (record.fields.autoRefreshIntervalMinutes.getD 60) 10080)

def retry (now : Int) (id : α) (record : Record α) : Action α Unit :=
  write fun connections =>
    match connections.get? id with
    | none => connections
    | some found => connections.insert id { found with
        autoRefreshNextAt := if record.fields.autoRefreshEnabled then some (now + 60000) else none }

/-- The rollback of the database. -/
def undo (id : α) : Option (Record α) → Dict α (Record α) → Dict α (Record α)
  | some previous => replaceOne id (fun _ => true) previous
  | none => fun connections => connections.erase id

/-- The answer says whether the rollback of the database failed. -/
def restore (id : α) (previous : Option (Record α)) (candidate : Record α) : Action α Bool := do
  let result ← Prog.caught (write (undo id previous))
  let _ ← Prog.caught do
    Prog.onlyIf previous.isSome sync
    rebuild
    Prog.onlyIf (previous.all fun previous => previous.fields.externalPort != candidate.fields.externalPort) sync
  return match result with
    | .ok _ => false
    | .error _ => true

/-- Publish a record, or put the old one back. -/
def publish (id : α) (previous : Option (Record α)) (candidate : Record α) (steps undone : Action α Unit) :
    Action α (Option (Record α)) := do
  match ← Prog.caught steps with
  | .ok _ => return some candidate
  | .error fault =>
      let unrestored ← restore id previous candidate
      undone
      Prog.throw ⟨fault.error, unrestored⟩

/-- The record of a port that is enabled again. -/
def Record.refreshed (latest : Record α) (now : Int) : Record α :=
  { latest with
    fields := { latest.fields with enabled := true }
    lease := none
    updatedAt := now
    autoRefreshedAt := some now
    autoRefreshNextAt :=
      if latest.fields.autoRefreshEnabled then some (now + minutes latest * 60000) else none }

/-- `finish` for a record that carried a lease when it was read. -/
def finish (now : Int) (id : α) (lease : Option String) : Action α (Option (Record α)) := do
  match ← read fun world => world.connections.get? id with
  | none => return none
  | some latest =>
      if lease.isNone || latest.lease.map Lease.id != lease then return some latest
      else
        let candidate := latest.refreshed now
        write (replaceOne id (fun found => found.lease.map Lease.id == lease) candidate)
        publish id (some latest) candidate (do sync; rebuild) (pure ())

/-- The first part of `refresh`. The second one is `finish`, after a delay. -/
def disable (now : Int) (lease : String) (id : α) : Action α (Option (Record α)) := do
  match ← read fun world => (world.connections.get? id).filter
      fun latest => latest.fields.enabled && latest.lease.isNone with
  | none => return none
  | some latest =>
      let machine ← read fun world => (world.machines.get? latest.fields.machineId).filter
        fun machine => decide (machine.userId = latest.userId)
      if machine.all fun machine => !machine.enabled || machine.deletionPending then
        retry now id latest
        return none
      else
        let candidate := { latest with
          fields := { latest.fields with enabled := false }, updatedAt := now, lease := some ⟨lease, now⟩ }
        write (replaceOne id (fun _ => true) candidate)
        publish id (some latest) candidate (do rebuild; sync) (retry now id latest)

end Operations

section Requests

variable {α : Type} [DecidableEq α] (ids : ObjectIds α) (externalPortRange : Option (Nat × Nat))

def owned (owner : α) (id : String) : Action α (α × Record α) := do
  match ids.parseStr id with
  | none => Prog.throw (.plain (.badRequest "Invalid connection id"))
  | some id =>
      match ← read fun world => (world.connections.get? id).filter
          fun found => decide (found.userId = owner) with
      | none => Prog.throw (.plain (.badRequest "Connection not found"))
      | some found => return (id, found)

def rangeError (port : Int) : Option String :=
  (externalPortRange.filter fun range => decide (port < range.1 ∨ (range.2 : Int) < port)).map fun range =>
    "External port must be between " ++ toString range.1 ++ " and " ++ toString range.2

def temporaryError : String := "Temporary agent mappings can only be stopped from the PortHub CLI"

def Input.fields (input : Input) (machineId : α) : Fields α where
  machineId
  serviceName := stripText input.serviceName
  serviceDescription := stripText (input.serviceDescription.getD "")
  internalIp := input.internalIp
  internalPort := input.internalPort
  externalPort := input.externalPort
  enabled := input.enabled.getD true
  autoRefreshEnabled := input.autoRefreshEnabled.getD false
  autoRefreshIntervalMinutes :=
    if input.autoRefreshEnabled.getD false then some (input.autoRefreshIntervalMinutes.getD 60) else none

/-- The time of the next refresh starts anew. -/
def resets (fields : Fields α) (previous : Option (Record α)) : Bool :=
  fields.autoRefreshEnabled && previous.all fun previous =>
    !previous.fields.autoRefreshEnabled
      || previous.fields.autoRefreshIntervalMinutes != fields.autoRefreshIntervalMinutes
      || previous.autoRefreshNextAt.isNone || (!previous.fields.enabled && fields.enabled)

def candidateOf (now : Int) (owner : α) (fields : Fields α) (previous : Option (Record α)) : Record α :=
  let base := previous.getD ⟨owner, false, fields, none, now, now, none, none⟩
  { base with
    fields, lease := none, updatedAt := now
    autoRefreshNextAt :=
      if !fields.autoRefreshEnabled then none
      else if resets fields previous then some (now + fields.autoRefreshIntervalMinutes.getD 60 * 60000)
      else base.autoRefreshNextAt }

/-- Store and publish what a user saved. A new connection has the id `fresh`. -/
def store (now : Int) (fresh owner : α) (fields : Fields α) (previous : Option (α × Record α)) :
    Action α (Option (Record α)) := do
  let key := (previous.map Prod.fst).getD fresh
  let candidate := candidateOf now owner fields (previous.map Prod.snd)
  match previous with
  | some _ => write (replaceOne key (fun found => decide (found.userId = owner)) candidate)
  | none => do
      let inserted ← Prog.op (.plain internal) fun world => some <|
        if world.connections.contains key then (false, world)
        else (true, { world with connections := world.connections.insert key candidate })
      Prog.ensure (.plain (.badRequest "Port already in use")) inserted
  let saved ← publish key (previous.map Prod.snd) candidate
    (if fields.enabled then do sync; rebuild else do rebuild; sync) (pure ())
  let _ ← Prog.caught (Prog.onlyIf (previous.any
    fun previous => previous.2.fields.externalPort != fields.externalPort) sync)
  return saved

/-- The checks of a save behind those of its ids. -/
def saveOver (now : Int) (fresh owner machineId : α) (input : Input) (previous : Option (α × Record α)) :
    Action α (Option (Record α)) := do
  Prog.ensure (.plain (.badRequest temporaryError)) (previous.all fun previous => !previous.2.temporary)
  let range := rangeError externalPortRange input.externalPort
  Prog.ensure (.plain (.badRequest (range.getD ""))) range.isNone
  let taken ← read fun world => world.connections.entries.any fun entry =>
    entry.2.fields.externalPort == input.externalPort && decide (previous.map Prod.fst ≠ some entry.1)
  Prog.ensure (.plain (.badRequest "Port already in use")) (!taken)
  read fun _ => ()  -- `ensure_index`
  store now fresh owner (input.fields machineId) previous

def save (now : Int) (fresh owner : α) (input : Input) (updating : Bool) : Action α (Option (Record α)) := do
  Prog.ensure (.plain (.badRequest "Service name is required")) (stripText input.serviceName != "")
  match ids.parseStr input.machineId with
  | none => Prog.throw (.plain (.badRequest "Invalid machine id"))
  | some machineId =>
      let machine ← read fun world => (world.machines.get? machineId).filter
        fun machine => decide (machine.userId = owner) && !machine.deletionPending
      Prog.ensure (.plain (.badRequest "Machine not found")) machine.isSome
      if updating then
        let found ← owned ids owner (input.dataId.getD "")
        saveOver externalPortRange now fresh owner machineId input (some found)
      else saveOver externalPortRange now fresh owner machineId input none

def delete (owner : α) (id : String) : Action α (Option (Record α)) := do
  let (key, previous) ← owned ids owner id
  Prog.ensure (.plain (.badRequest temporaryError)) (!previous.temporary)
  let _ ← read fun world => world.machines.get? previous.fields.machineId
  write fun connections => connections.erase key
  match ← Prog.caught rebuild with
  | .error fault =>
      let _ ← Prog.caught (write fun connections => connections.insert key previous)
      Prog.throw fault
  | .ok _ =>
      let _ ← Prog.caught sync
      return some previous

/-- A part of a request that holds `connection_lock`. Machines are changed by others. -/
inductive Event (α : Type) where
  | save (now : Int) (fresh owner : α) (input : Input) (updating : Bool)
  | delete (owner : α) (id : String)
  | disable (now : Int) (lease : String) (id : α)
  | finish (now : Int) (id : α) (lease : Option String)
  | machines (machines : Dict α (Machine α))

def Event.program : Event α → Action α (Option (Record α))
  | .save now fresh owner input updating => PortRefresh.save ids externalPortRange now fresh owner input updating
  | .delete owner id => PortRefresh.delete ids owner id
  | .disable now lease id => PortRefresh.disable now lease id
  | .finish now id lease => PortRefresh.finish now id lease
  | .machines changed => do
      Prog.modify fun world => { world with machines := changed }
      return none

abbrev Outcome (α : Type) := Faults.Result Fault (Option (Record α))

def succeeded : Outcome α → Bool
  | .done _ => true
  | _ => false

/-- What the environment decides comes with the event. -/
def step (world : World α) (event : Event α × List Verdict) : World α × Outcome α :=
  match event.1.program ids externalPortRange world event.2 with
  | (outcome, next, _) => (next, outcome)

/-- The connection and the fields that a save is for. -/
def Event.saves : Event α → Option (α × Fields α)
  | .save _ fresh _ input updating => do
      let machineId ← ids.parseStr input.machineId
      let key ← if updating then ids.parseStr (input.dataId.getD "") else some fresh
      return (key, input.fields machineId)
  | _ => none

end Requests

/-! ## The user's last word -/

section Effects

variable {α : Type} [DecidableEq α] (ids : ObjectIds α)

def overwritten (last : α → Fields α → Prop) (key : α) (fields : Fields α) : α → Fields α → Prop :=
  fun id found => if id = key then found = fields else last id found

/-- A save takes effect if it succeeds or is left behind by its rollback, and may take
    effect if the process ends in it. -/
def taken (last : α → Fields α → Prop) : Option (α × Fields α) → Outcome α → α → Fields α → Prop
  | some (key, fields), .done _ => overwritten last key fields
  | some (key, fields), .failed fault => if fault.unrestored then overwritten last key fields else last
  | some (key, fields), .died => fun id found => last id found ∨ (id = key ∧ found = fields)
  | none, _ => last

def advance (last : α → Fields α → Prop) (label : (Event α × List Verdict) × Outcome α) : α → Fields α → Prop :=
  taken last (label.1.1.saves ids) label.2

def stored (world : World α) (id : α) (fields : Fields α) : Prop :=
  ∃ record, world.connections.get? id = some record ∧ record.fields = fields

/-- What the last save of a connection that took effect may have been. -/
def effective (world : World α) (history : List ((Event α × List Verdict) × Outcome α)) :
    α → Fields α → Prop := history.foldl (advance ids) (stored world)

def World.put (world : World α) (key : α) (record : Record α) : World α :=
  { world with connections := world.connections.insert key record }

/-- The fields without what a refresh did to them. -/
def Record.settled (record : Record α) : Fields α :=
  if record.lease.isSome then { record.fields with enabled := true } else record.fields

/-- Only enabled ports are refreshed, and all that a refresh changes is that. -/
structure Record.Respects (last : Fields α → Prop) (record : Record α) : Prop where
  leased : record.lease.isSome = true → record.fields.enabled = false
  settled : last record.settled

def Apart (last : α → Fields α → Prop) (key : α) (world : World α) : Prop :=
  ∀ id record, id ≠ key → world.connections.get? id = some record → record.Respects (last id)

def Holds (last : α → Fields α → Prop) (world : World α) : Prop :=
  ∀ id record, world.connections.get? id = some record → record.Respects (last id)

variable {ids} {last : α → Fields α → Prop} {key : α} {world : World α} {record : Record α}
  {previous : Option (Record α)} {candidate : Record α} {fields : Fields α}

theorem Holds.apart (holds : Holds last world) (key : α) : Apart last key world :=
  fun id record _ found => holds id record found

theorem Apart.of_overwritten (holds : Holds (overwritten last key fields) world) : Apart last key world := by
  intro id record other found
  obtain ⟨leased, settled⟩ := holds id record found
  rw [overwritten, if_neg other] at settled
  exact ⟨leased, settled⟩

theorem Apart.insert (apart : Apart last key world) (respects : record.Respects (last key)) :
    Holds last (world.put key record) := by
  intro id found there
  rcases Dict.get?_of_insert there with ⟨rfl, rfl⟩ | ⟨other, before⟩
  · exact respects
  · exact apart id found other before

theorem Apart.overwrite (apart : Apart last key world) (unleased : record.lease = none)
    (same : record.fields = fields) : Holds (overwritten last key fields) (world.put key record) := by
  apply Apart.insert
  · intro id found other there
    obtain ⟨leased, settled⟩ := apart id found other there
    exact ⟨leased, by rwa [overwritten, if_neg other]⟩
  · refine ⟨fun leased => ?_, ?_⟩
    · rw [unleased] at leased
      cases leased
    · rw [overwritten, if_pos rfl, Record.settled, unleased]
      exact same

theorem Apart.erase (apart : Apart last key world) :
    Holds last { world with connections := world.connections.erase key } := by
  intro id found there
  obtain ⟨other, before⟩ := Dict.get?_of_erase there
  exact apart id found other before

theorem replaceOne_eq {matched : Record α → Bool} {found : Record α} {connections : Dict α (Record α)}
    (there : connections.get? key = some found) (holds : matched found = true) (record : Record α) :
    replaceOne key matched record connections = connections.insert key record := by
  rw [replaceOne, there, Option.any_some, if_pos holds]

theorem Holds.replace (holds : Holds last world) (matched : Record α → Bool)
    (respects : record.Respects (last key)) :
    Holds last { world with connections := replaceOne key matched record world.connections } := by
  unfold replaceOne
  split
  · exact (holds.apart key).insert respects
  · exact holds

end Effects

section Records

variable {α : Type} {record : Record α} {last : Fields α → Prop}

theorem Record.Respects.unleased (respects : record.Respects last)
    (none : record.lease = none) : last record.fields := by
  have settled := respects.settled
  rwa [Record.settled, none] at settled

theorem Record.Respects.refreshed (respects : record.Respects last)
    (leased : record.lease.isSome = true) (now : Int) : (record.refreshed now).Respects last := by
  have settled := respects.settled
  rw [Record.settled, if_pos leased] at settled
  exact ⟨fun none => (nomatch none), settled⟩

end Records

section Quiet

variable {α β : Type} {world : World α}

theorem read_watches (view : World α → β) :
    (read view : Action α β).Watches world fun value => value = view world := by
  refine Prog.Watches.op fun value t same => ?_
  cases same
  exact ⟨rfl, rfl⟩

theorem quiet (view : World α → Unit) : (read view : Action α Unit).Watches world fun _ => True :=
  (read_watches view).weaken fun _ _ => trivial

theorem quiet_twice : (do sync; rebuild : Action α Unit).Watches world fun _ => True :=
  (quiet _).bind fun _ _ => quiet _

theorem quiet_onlyIf (condition : Bool) :
    (Prog.onlyIf condition sync : Action α Unit).Watches world fun _ => True := by
  unfold Prog.onlyIf
  split
  · exact quiet _
  · exact Prog.Watches.pure trivial

theorem caught_quiet {program : Action α β} (quiet : program.Watches world fun _ => True) :
    (Prog.caught program).Meets world ⟨fun _ t => t = world, fun _ _ => False, fun t => t = world⟩ :=
  Prog.Meets.caught (quiet.mono (fun _ _ same => same.1) (fun _ _ same => same) fun _ same => same)

theorem write_meets {change : Dict α (Record α) → Dict α (Record α)} {ends : Ends (World α) Fault Unit}
    (done : ends.done () { world with connections := change world.connections })
    (failed : ends.failed (.plain internal) world) (died : ends.died world) :
    (write change).Meets world ends := by
  refine Prog.Meets.op (fun value t same => ?_) failed died
  cases same
  exact done

end Quiet

section Programs

variable {α β : Type} [DecidableEq α] {ids : ObjectIds α} {range : Option (Nat × Nat)}
  {last : α → Fields α → Prop} {key : α} {world : World α} {fields : Fields α}
  {previous : Option (Record α)} {candidate latest : Record α} {steps after : Action α Unit}

def undone (key : α) (previous : Option (Record α)) (world : World α) : World α :=
  { world with connections := undo key previous world.connections }

theorem restore_meets : (restore key previous candidate).Meets world
    ⟨fun failed t => t = (if failed then world else undone key previous world), fun _ _ => False,
      fun t => t = world ∨ t = undone key previous world⟩ := by
  refine Prog.Meets.seq (fun result t => (∃ error, result = .error error ∧ t = world) ∨
    (result = .ok () ∧ t = undone key previous world)) (Prog.Meets.caught (write_meets ?_ ?_ ?_)) ?_
  · exact .inr ⟨rfl, rfl⟩
  · exact .inl ⟨_, rfl, rfl⟩
  · exact .inl rfl
  · intro result t reached
    refine Prog.Meets.bind ((caught_quiet ((quiet_onlyIf _).bind fun _ _ =>
      (quiet _).bind fun _ _ => quiet_onlyIf _)).mono ?_ (fun _ _ never => never) ?_)
    · rintro _ _ rfl
      rcases reached with ⟨error, rfl, rfl⟩ | ⟨rfl, rfl⟩
      · exact Prog.Meets.pure rfl
      · exact Prog.Meets.pure rfl
    · rintro _ rfl
      rcases reached with ⟨_, _, same⟩ | ⟨_, same⟩
      · exact .inl same
      · exact .inr same

/-- A record is published, or the old one is put back. -/
theorem publish_meets {ends : Ends (World α) Fault (Option (Record α))}
    (quiet : steps.Watches world fun _ => True) (done : ends.done (some candidate) world)
    (kept : after.Meets world ⟨fun _ t => ∀ error, ends.failed ⟨error, true⟩ t, ends.failed, ends.died⟩)
    (put : after.Meets (undone key previous world)
      ⟨fun _ t => ∀ error, ends.failed ⟨error, false⟩ t, ends.failed, ends.died⟩)
    (died : ends.died world) (diedAfter : ends.died (undone key previous world)) :
    (publish key previous candidate steps after).Meets world ends := by
  refine Prog.Meets.bind ((caught_quiet quiet).mono ?_ (fun _ _ never => never.elim) ?_)
  · rintro result _ rfl
    cases result with
    | ok => exact Prog.Meets.pure done
    | error fault =>
        refine Prog.Meets.bind (restore_meets.mono ?_ (fun _ _ never => never.elim) ?_)
        · rintro failed _ rfl
          cases failed with
          | true => exact Prog.Meets.bind (kept.mono (fun _ _ all => Prog.Meets.throw (all _))
              (fun _ _ failed => failed) fun _ died => died)
          | false => exact Prog.Meets.bind (put.mono (fun _ _ all => Prog.Meets.throw (all _))
              (fun _ _ failed => failed) fun _ died => died)
        · rintro _ (rfl | rfl)
          · exact died
          · exact diedAfter
  · rintro _ rfl
    exact died

/-- However the request ends, the user's last word holds. -/
def Keeping (last : α → Fields α → Prop) : Ends (World α) Fault β :=
  ⟨fun _ t => Holds last t, fun _ t => Holds last t, fun t => Holds last t⟩

theorem publish_keeping (holds : Holds last world) (respects : latest.Respects (last key))
    (quiet : steps.Watches world fun _ => True)
    (keeps : ∀ t, Holds last t → after.Meets t (Keeping last)) :
    (publish key (some latest) candidate steps after).Meets world (Keeping last) := by
  have back : Holds last (undone key (some latest) world) := holds.replace _ respects
  refine publish_meets quiet holds ?_ ?_ holds back
  · exact (keeps world holds).mono (fun _ _ holds _ => holds) (fun _ _ holds => holds) fun _ holds => holds
  · exact (keeps _ back).mono (fun _ _ holds _ => holds) (fun _ _ holds => holds) fun _ holds => holds

theorem finish_keeping (holds : Holds last world) (now : Int) (id : α) (lease : Option String) :
    (finish now id lease).Meets world (Keeping last) := by
  refine Prog.Watches.then_ (read_watches _) ?_ (fun _ => holds) holds
  intro value found
  cases value with
  | none => exact Prog.Meets.pure holds
  | some latest =>
      dsimp only
      split
      · exact Prog.Meets.pure holds
      · rename_i carried
        have respects := holds id latest found.symm
        have leased : latest.lease.isSome = true := by
          cases lease with
          | none => simp at carried
          | some lease =>
              cases own : latest.lease with
              | none => simp [own] at carried
              | some own => rfl
        refine Prog.Meets.seq (fun _ t => Holds last t) (write_meets ?_ holds holds) fun _ t holds => ?_
        · exact holds.replace _ (respects.refreshed leased now)
        · exact publish_keeping holds respects quiet_twice fun t holds => Prog.Meets.pure holds

theorem retry_keeping (holds : Holds last world) (now : Int) (id : α) (record : Record α) :
    (retry now id record).Meets world (Keeping last) := by
  refine write_meets ?_ holds holds
  split
  · exact holds
  · rename_i found there
    obtain ⟨leased, settled⟩ := holds id found there
    exact (holds.apart id).insert ⟨leased, settled⟩

theorem disable_keeping (holds : Holds last world) (now : Int) (lease : String) (id : α) :
    (disable now lease id).Meets world (Keeping last) := by
  refine Prog.Watches.then_ (read_watches _) ?_ (fun _ => holds) holds
  intro value found
  cases value with
  | none => exact Prog.Meets.pure holds
  | some latest =>
      obtain ⟨there, free⟩ := Option.filter_eq_some_iff.mp found.symm
      rw [Bool.and_eq_true] at free
      have unleased : latest.lease = none := Option.isNone_iff_eq_none.mp free.2
      have respects := holds id latest there
      refine Prog.Watches.then_ (read_watches _) ?_ (fun _ => holds) holds
      intro machine _
      split
      · exact Prog.Meets.bind ((retry_keeping holds now id latest).mono
          (fun _ _ holds => Prog.Meets.pure holds) (fun _ _ holds => holds) fun _ holds => holds)
      · refine Prog.Meets.seq (fun _ t => Holds last t) (write_meets ?_ holds holds) fun _ t holds => ?_
        · refine holds.replace _ ⟨fun _ => rfl, ?_⟩
          change last id { latest.fields with enabled := true }
          rw [← free.1]
          exact respects.unleased unleased
        · exact publish_keeping holds respects ((quiet _).bind fun _ _ => quiet _)
            fun t holds => retry_keeping holds now id latest

/-- The record that a user owns, or a plain error. -/
theorem owned_meets (owner : α) (text : String) : (owned ids owner text).Meets world
    ⟨fun found t => t = world ∧ ids.parseStr text = some found.1 ∧
        world.connections.get? found.1 = some found.2 ∧ found.2.userId = owner,
      fun fault t => t = world ∧ fault.unrestored = false, fun t => t = world⟩ := by
  unfold owned
  cases parsed : ids.parseStr text with
  | none => exact Prog.Meets.throw ⟨rfl, rfl⟩
  | some id =>
      refine Prog.Meets.bind (Prog.Meets.op (fun value t same => ?_) ⟨rfl, rfl⟩ rfl)
      cases same
      dsimp only
      cases found : (world.connections.get? id).filter fun found => decide (found.userId = owner) with
      | none =>
          refine Prog.Meets.throw ?_
          exact ⟨rfl, rfl⟩
      | some record =>
          obtain ⟨there, own⟩ := Option.filter_eq_some_iff.mp found
          refine Prog.Meets.pure ?_
          exact ⟨rfl, rfl, there, of_decide_eq_true own⟩

theorem delete_keeping (holds : Holds last world) (owner : α) (text : String) :
    (delete ids owner text).Meets world (Keeping last) := by
  refine Prog.Meets.bind ((owned_meets owner text).mono ?_ ?_ ?_)
  · rintro ⟨key, previous⟩ _ ⟨rfl, _, there, _⟩
    have respects := holds key previous there
    refine Prog.Watches.then_ (@Prog.Watches.ensure _ _ _ _ _ (fun _ => True) fun _ => trivial) ?_
      (fun _ => holds) holds
    intro _ _
    refine Prog.Watches.then_ (read_watches _) ?_ (fun _ => holds) holds
    intro _ _
    have gone := (holds.apart key).erase
    refine Prog.Meets.seq (fun _ t => Holds last t) (write_meets gone holds holds) fun _ t holds => ?_
    refine Prog.Meets.bind ((caught_quiet (quiet _)).mono ?_ (fun _ _ never => never.elim) ?_)
    · rintro result _ rfl
      cases result with
      | ok =>
          refine Prog.Meets.bind ((caught_quiet (quiet _)).mono ?_ (fun _ _ never => never.elim) ?_)
          · rintro _ _ rfl
            exact Prog.Meets.pure holds
          · rintro _ rfl
            exact holds
      | error fault =>
          refine Prog.Meets.bind (Prog.Meets.caught (write_meets ?_ ?_ holds))
          · exact Prog.Meets.throw ((holds.apart key).insert respects)
          · exact Prog.Meets.throw holds
    · rintro _ rfl
      exact holds
  · rintro _ _ ⟨rfl, _⟩
    exact holds
  · rintro _ rfl
    exact holds

/-- How a save of these fields may end. -/
def Saving (last : α → Fields α → Prop) (key : α) (fields : Fields α) : Ends (World α) Fault β :=
  ⟨fun _ t => Holds (overwritten last key fields) t,
    fun fault t => if fault.unrestored then Holds (overwritten last key fields) t else Holds last t,
    fun t => Holds last t ∨ Holds (overwritten last key fields) t⟩

theorem store_saving (holds : Holds last world) (now : Int) (fresh owner : α) (fields : Fields α)
    {previous : Option (α × Record α)} (own : ∀ found, previous = some found →
      world.connections.get? found.1 = some found.2 ∧ found.2.userId = owner) :
    (store now fresh owner fields previous).Meets world
      (Saving last ((previous.map Prod.fst).getD fresh) fields) := by
  have publishes : ∀ {key : α} {previous : Option (Record α)} {candidate : Record α} {t : World α}
      {more : Option (Record α) → Action α (Option (Record α))},
      (∀ saved u, u = t → (more saved).Meets u (Saving last key fields)) →
      Holds (overwritten last key fields) t → Holds last (undone key previous t) →
      (publish key previous candidate (if fields.enabled then do sync; rebuild else do rebuild; sync)
        (pure ()) >>= more).Meets t (Saving last key fields) := by
    intro key previous candidate t more next written back
    refine Prog.Meets.bind (publish_meets ?_ (next _ t rfl) ?_ ?_ (.inr written) (.inl back))
    · split
      · exact quiet_twice
      · exact (quiet _).bind fun _ _ => quiet _
    · exact Prog.Meets.pure fun error => written
    · exact Prog.Meets.pure fun error => back
  have cleans : ∀ {key : α} {t : World α} {condition : Bool} (saved : Option (Record α)),
      Holds (overwritten last key fields) t →
      (do
        let _ ← Prog.caught (Prog.onlyIf condition sync)
        return saved : Action α (Option (Record α))).Meets t (Saving last key fields) := by
    intro key t condition saved written
    refine Prog.Meets.bind ((caught_quiet (quiet_onlyIf _)).mono ?_ (fun _ _ never => never.elim) ?_)
    · rintro _ _ rfl
      exact Prog.Meets.pure written
    · rintro _ rfl
      exact .inr written
  cases previous with
  | some found =>
      obtain ⟨there, mine⟩ := own found rfl
      refine Prog.Meets.bind (write_meets ?_ holds (.inl holds))
      have written : Holds (overwritten last found.1 fields)
          (world.put found.1 (candidateOf now owner fields (some found.2))) :=
        (holds.apart found.1).overwrite rfl rfl
      have replaced : replaceOne found.1 (fun record => decide (record.userId = owner))
          (candidateOf now owner fields (some found.2)) world.connections =
          world.connections.insert found.1 (candidateOf now owner fields (some found.2)) :=
        replaceOne_eq there (decide_eq_true mine) _
      simp only [Option.map_some, Option.getD_some, replaced]
      refine publishes (fun saved u same => same ▸ cleans saved written) written ?_
      have back := (Apart.of_overwritten written).insert (holds found.1 found.2 there)
      rw [undone, undo, replaceOne_eq (Dict.get?_insert_self _ _ _) rfl]
      exact back
  | none =>
      refine Prog.Meets.bind (Prog.Meets.op (fun value t same => ?_) holds (.inl holds))
      split at same
      · cases same
        exact Prog.Meets.bind (Prog.Meets.throw holds)
      · cases same
        refine Prog.Meets.bind (Prog.Meets.ensure (fun _ => ?_) fun never => nomatch never)
        have written : Holds (overwritten last fresh fields)
            (world.put fresh (candidateOf now owner fields none)) :=
          (holds.apart fresh).overwrite rfl rfl
        refine publishes (fun saved u same => same ▸ cleans saved written) written ?_
        exact (Apart.of_overwritten written).erase

theorem saveOver_saving (holds : Holds last world) (now : Int) (fresh owner machineId : α) (input : Input)
    {previous : Option (α × Record α)} (own : ∀ found, previous = some found →
      world.connections.get? found.1 = some found.2 ∧ found.2.userId = owner) :
    (saveOver range now fresh owner machineId input previous).Meets world
      (Saving last ((previous.map Prod.fst).getD fresh) (input.fields machineId)) := by
  refine Prog.Meets.bind (Prog.Meets.ensure (fun _ => ?_) fun _ => holds)
  refine Prog.Meets.bind (Prog.Meets.ensure (fun _ => ?_) fun _ => holds)
  refine Prog.Meets.bind (Prog.Meets.op (fun taken t same => ?_) holds (.inl holds))
  cases same
  refine Prog.Meets.bind (Prog.Meets.ensure (fun _ => ?_) fun _ => holds)
  refine Prog.Meets.bind (Prog.Meets.op (fun _ t same => ?_) holds (.inl holds))
  cases same
  exact store_saving holds now fresh owner (input.fields machineId) own

/-- However the event ends, the user's last word is what its outcome says. -/
def Settling (last : α → Fields α → Prop) (saved : Option (α × Fields α)) :
    Ends (World α) Fault (Option (Record α)) :=
  ⟨fun value t => Holds (taken last saved (.done value)) t,
    fun fault t => Holds (taken last saved (.failed fault)) t, fun t => Holds (taken last saved .died) t⟩

theorem Holds.mono {wider : α → Fields α → Prop} (holds : Holds last world)
    (weaker : ∀ id fields, last id fields → wider id fields) : Holds wider world := by
  intro id record there
  obtain ⟨leased, settled⟩ := holds id record there
  exact ⟨leased, weaker id _ settled⟩

theorem Settling.plain (holds : Holds last world) (saved : Option (α × Fields α)) (error : ApiError) :
    (Settling last saved).failed (.plain error) world := by
  cases saved with
  | none => exact holds
  | some saved => exact holds

theorem Settling.cut (holds : Holds last world) (saved : Option (α × Fields α)) :
    (Settling last saved).died world := by
  cases saved with
  | none => exact holds
  | some saved => exact holds.mono fun _ _ before => .inl before

theorem Saving.settles {program : Action α (Option (Record α))}
    (meets : program.Meets world (Saving last key fields)) :
    program.Meets world (Settling last (some (key, fields))) := by
  refine meets.mono (fun _ _ holds => holds) ?_ ?_
  · rintro ⟨error, unrestored⟩ t ends
    cases unrestored with
    | true => exact ends
    | false => exact ends
  · rintro t (holds | holds)
    · exact holds.mono fun _ _ before => .inl before
    · refine holds.mono fun id found reached => ?_
      unfold overwritten at reached
      split at reached
      · exact .inr ⟨‹_›, reached⟩
      · exact .inl reached

theorem save_settling (holds : Holds last world) (now : Int) (fresh owner : α) (input : Input)
    (updating : Bool) : (save ids range now fresh owner input updating).Meets world
      (Settling last ((Event.save now fresh owner input updating).saves ids)) := by
  refine Prog.Meets.bind (Prog.Meets.ensure (fun _ => ?_) fun _ => Settling.plain holds _ _)
  cases parsed : ids.parseStr input.machineId with
  | none => exact Prog.Meets.throw (Settling.plain holds _ _)
  | some machineId =>
      refine Prog.Meets.bind (Prog.Meets.op (fun machine t same => ?_) (Settling.plain holds _ _)
        (Settling.cut holds _))
      cases same
      refine Prog.Meets.bind (Prog.Meets.ensure (fun _ => ?_) fun _ => Settling.plain holds _ _)
      cases updating with
      | true =>
          refine Prog.Meets.bind ((owned_meets owner _).mono ?_ ?_ ?_)
          · rintro found _ ⟨rfl, asked, there⟩
            have saved : (Event.save now fresh owner input true).saves ids =
                some (found.1, input.fields machineId) := by
              simp [Event.saves, parsed, asked]
            rw [saved]
            exact Saving.settles (saveOver_saving holds now fresh owner machineId input
              fun other same => Option.some.inj same ▸ there)
          · rintro ⟨error, unrestored⟩ _ ⟨rfl, rfl⟩
            exact Settling.plain holds _ _
          · rintro _ rfl
            exact Settling.cut holds _
      | false =>
          have saved : (Event.save now fresh owner input false).saves ids =
              some (fresh, input.fields machineId) := by
            simp [Event.saves, parsed]
          rw [saved]
          exact Saving.settles (saveOver_saving holds now fresh owner machineId input
            fun _ same => by cases same)

/-- One event. -/
theorem step_holds (holds : Holds last world) (event : Event α × List Verdict) :
    Holds (advance ids last (event, (step ids range world event).2)) (step ids range world event).1 := by
  obtain ⟨event, tape⟩ := event
  have settles : (event.program ids range).Meets world (Settling last (event.saves ids)) := by
    cases event with
    | save now fresh owner input updating => exact save_settling holds now fresh owner input updating
    | delete owner text => exact delete_keeping holds owner text
    | disable now lease id => exact disable_keeping holds now lease id
    | finish now id lease => exact finish_keeping holds now id lease
    | machines changed => exact Prog.Meets.bind (Prog.Meets.modify (Prog.Meets.pure holds))
  have known := settles tape
  unfold step
  rcases outcome : event.program ids range world tape with ⟨result, t, rest⟩
  rw [outcome] at known
  cases result with
  | done value => exact known
  | failed fault => exact known
  | died => exact known

theorem run_holds (holds : Holds last world) (events : List (Event α × List Verdict)) :
    Holds ((feed (step ids range) world events).1.foldl (advance ids) last)
      (feed (step ids range) world events).2 := by
  induction events generalizing world last with
  | nil => exact holds
  | cons event rest ih => exact ih (step_holds holds event)

/-- A lease that the record does not carry changes nothing. -/
theorem finish_watches (now : Int) {id : α} {lease : Option String}
    (other : ∀ record, world.connections.get? id = some record →
      lease = none ∨ record.lease.map Lease.id ≠ lease) :
    (finish now id lease).Watches world fun _ => True := by
  refine (read_watches _).bind fun value found => ?_
  cases value with
  | none => exact Prog.Watches.pure trivial
  | some latest =>
      have idle : (lease.isNone || latest.lease.map Lease.id != lease) = true := by
        rcases other latest found.symm with rfl | different
        · rfl
        · rw [bne_iff_ne.mpr different, Bool.or_true]
      dsimp only
      rw [if_pos idle]
      exact Prog.Watches.pure trivial

/-- When nothing fails, a lease gives the port back as the user left it. -/
theorem finish_completes (now : Int) {id : α} {record : Record α} {lease : Lease}
    (there : world.connections.get? id = some record) (carried : record.lease = some lease) :
    (finish now id (some lease.id)).Completes world fun _ t => ∃ enabled,
      t.connections.get? id = some enabled ∧ enabled.lease = none ∧ enabled.fields = record.settled := by
  refine Prog.Completes.bind (Prog.Completes.op rfl ?_)
  simp only [there, carried, Option.map_some, Option.isNone_some, bne_self_eq_false, Bool.or_self,
    Bool.false_eq_true, if_false]
  refine Prog.Completes.bind (Prog.Completes.op rfl ?_)
  rw [replaceOne_eq there (by rw [carried]; exact beq_self_eq_true _)]
  refine ⟨some (record.refreshed now), _, rfl, record.refreshed now, Dict.get?_insert_self _ _ _, rfl, ?_⟩
  rw [Record.settled, carried]
  rfl

end Programs

/-- A refresh never overrides the user. Without a lease a record has the fields of the last save
    that took effect. With one it has them but for the flag, which the user had set and which the
    lease gives back. And nothing is changed for another lease. -/
theorem refresh_respects_the_user {α : Type} [DecidableEq α] (ids : ObjectIds α) (range : Option (Nat × Nat))
    (world : World α) (unleased : ∀ id record, world.connections.get? id = some record → record.lease = none)
    (events : List (Event α × List Verdict)) :
    (∀ id record, (feed (step ids range) world events).2.connections.get? id = some record →
      (record.lease = none → effective ids world (feed (step ids range) world events).1 id record.fields) ∧
      ∀ lease, record.lease = some lease → record.fields.enabled = false ∧
        effective ids world (feed (step ids range) world events).1 id { record.fields with enabled := true } ∧
        ∀ now, (finish now id (some lease.id)).Completes (feed (step ids range) world events).2
          fun _ t => ∃ enabled, t.connections.get? id = some enabled ∧ enabled.lease = none ∧
            enabled.fields = { record.fields with enabled := true }) ∧
    ∀ now id lease tape, (∀ record, (feed (step ids range) world events).2.connections.get? id = some record →
        lease = none ∨ record.lease.map Lease.id ≠ lease) →
      (finish now id lease (feed (step ids range) world events).2 tape).2.1 =
        (feed (step ids range) world events).2 := by
  have start : Holds (stored world) world := by
    intro id record there
    have none := unleased id record there
    refine ⟨fun leased => ?_, record, there, ?_⟩
    · rw [none] at leased
      cases leased
    · rw [Record.settled, none]
      rfl
  refine ⟨fun id record there => ?_, fun now id lease tape other => ?_⟩
  · obtain ⟨leased, settled⟩ := @run_holds _ _ ids range _ _ start events id record there
    rw [Record.settled] at settled
    constructor
    · intro none
      rwa [none] at settled
    · intro lease carried
      have completes := fun now => finish_completes now there carried
      rw [Record.settled] at completes
      rw [carried] at leased settled completes
      exact ⟨leased rfl, settled, completes⟩
  · have known := finish_watches now other tape
    rcases outcome : finish now id lease (feed (step ids range) world events).2 tape with ⟨result, t, rest⟩
    rw [outcome] at known
    cases result with
    | done value => exact known.1
    | failed fault => exact known
    | died => exact known

open PrivateNetworks (SampleId sampleIds sampleId)

local instance ten_neZero : NeZero (10 : Nat) := ⟨by decide⟩

def sampleWorld : World SampleId where
  machines := Dict.empty.insert (sampleId 1) ⟨sampleId 0, true, false⟩
  connections := .empty

def sampleInput (name : String) : Input where
  dataId := some (sampleIds.toHex (sampleId 2))
  machineId := sampleIds.toHex (sampleId 1)
  serviceName := name
  serviceDescription := none
  internalIp := "127.0.0.1"
  internalPort := 22
  externalPort := 10022
  enabled := some true
  autoRefreshEnabled := none
  autoRefreshIntervalMinutes := none

def sampleSave (name : String) (updating : Bool) : Event SampleId :=
  .save 1 (sampleId 2) (sampleId 0) (sampleInput name) updating

/-- What stands in the database after a save, perhaps with a refresh under way. -/
def samplePort (name : String) (lease : Option Lease) : Record SampleId where
  userId := sampleId 0
  temporary := false
  fields := { (sampleInput name).fields (sampleId 1) with enabled := lease.isNone }
  lease
  createdAt := 1
  updatedAt := (lease.map Lease.startedAt).getD 1
  autoRefreshedAt := none
  autoRefreshNextAt := none

def sampleRefresh : List (Event SampleId × List Verdict) :=
  [(sampleSave "ssh" false, []), (.disable 2 "67e55044-10b1-426f-9247-bb680e5fe0c8" (sampleId 2), [])]

/-- The port is disabled and leased, and the lease gives it back. -/
theorem disabled_port_is_leased :
    (feed (step sampleIds none) sampleWorld sampleRefresh).2.connections.get? (sampleId 2) =
      some (samplePort "ssh" (some ⟨"67e55044-10b1-426f-9247-bb680e5fe0c8", 2⟩)) ∧
    (finish 3 (sampleId 2) (some "67e55044-10b1-426f-9247-bb680e5fe0c8")).Completes
      (feed (step sampleIds none) sampleWorld sampleRefresh).2 fun _ t => ∃ enabled,
        t.connections.get? (sampleId 2) = some enabled ∧ enabled.lease = none ∧
          enabled.fields = (sampleInput "ssh").fields (sampleId 1) := by
  have found : (feed (step sampleIds none) sampleWorld sampleRefresh).2.connections.get? (sampleId 2) =
      some (samplePort "ssh" (some ⟨"67e55044-10b1-426f-9247-bb680e5fe0c8", 2⟩)) := by decide
  have respects := (refresh_respects_the_user sampleIds none sampleWorld (fun _ _ there => nomatch there)
    sampleRefresh).1 _ _ found
  exact ⟨found, (respects.2 _ rfl).2.2 3⟩

/-- The second save is refused by the firewall and its rollback by the database: it failed, and
    yet the record has its fields and no lease. -/
theorem failed_save_stays_behind :
    (feed (step sampleIds none) sampleWorld [(sampleSave "ssh" false, []),
      (sampleSave "web" true, [.pass, .pass, .pass, .pass, .pass, .fail, .fail])]).1.map
        (fun label => succeeded label.2) = [true, false] ∧
    (feed (step sampleIds none) sampleWorld [(sampleSave "ssh" false, []),
      (sampleSave "web" true, [.pass, .pass, .pass, .pass, .pass, .fail, .fail])]).2.connections.get?
        (sampleId 2) = some (samplePort "web" none) ∧
    (samplePort "web" none).fields ≠ (sampleInput "ssh").fields (sampleId 1) := by
  decide

end PortHub.Api.PortRefresh
