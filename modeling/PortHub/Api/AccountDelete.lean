import PortHub.Api.PrivateNetworks
import PortHub.Lib.Documents
import PortHub.Lib.Faults

/-! # Account deletion

A deletion is stored in the record of the account with the ids of what it owns, and
`resume` works through it until the record itself goes. Any operation may fail, its
answer may be lost, and the process may end anywhere. Publication leaves out the
accounts whose deletion is stored.
-/

namespace PortHub.Api.AccountDelete

open Documents Faults

inductive Collection where
  | users
  | userSessions
  | machines
  | privatePeers
  | connections
  | firewallTraffic
  | terminalTraffic
  | trafficRoutes
  | machineStatusEvents
  | machineInstallTickets
  | privateInstallTickets
  | privateSignals
  | workspaceMembers
  | workspaceInvites
  | accessRulebooks
  | machineGroups
  | privateNetworks
  | privateDnsRules
  | privateProxyGrants
  | privateExitNodes
  | proxyActivity
  deriving DecidableEq, Repr

abbrev Database (α : Type) := Db Collection α

/-- What is written for the edge: services with their machines, or web routes. -/
inductive Snapshot (α : Type) where
  | gateway (services : List (Doc α × Doc α))
  | web (routes : List (Doc α))

structure World (α : Type) where
  db : Database α
  /-- The accounts whose deletion was stored, each with the database it was stored in. -/
  stored : List (α × Database α)
  /-- Every snapshot that was written, with the accounts whose deletion was stored by then. -/
  published : List (Snapshot α × List α)

/-- The configuration of the server and the renderers it uses. -/
structure Edge (α : Type) where
  gatewayConfigPath : Bool
  webRoutesConfigPath : Bool
  gatewayApply : Bool
  firewall : Bool
  /-- `render` accepts the services. -/
  renders : List (Doc α × Doc α) → Bool
  /-- The web configuration has this route. -/
  proxied : Doc α → Bool
  /-- The web configuration is accepted. -/
  reloads : List (Doc α) → Bool
  /-- The pattern of a trimmed name in lower case, without regard to case, matches a text. -/
  matchesEmail : String → String → Bool

abbrev Action (α β : Type) := Prog (World α) ApiError β

def internal : ApiError := .status 500 "Internal Server Error"

section Reading

variable {α : Type} (ids : ObjectIds α)

/-- The two forms of an id. -/
def values (id : α) : List (Scalar α) := [.objectId id, .text (ids.toHex id)]

def otherForm : Scalar α → List (Scalar α)
  | .objectId id => [.text (ids.toHex id)]
  | .text text => (ids.parseStr text).toList.map .objectId
  | _ => []

def idOf (doc : Doc α) : Option (Scalar α) := (doc.get? "_id").bind Bson.scalar?

def expanded (rows : List (Doc α)) : List (Scalar α) :=
  (rows.filterMap idOf).flatMap fun id => id :: otherForm ids id

def hasJournal (user : Doc α) : Bool := (user.get? "account_deletion").isSome

def retiringOwners (db : Database α) : List (Scalar α) :=
  expanded ids ((db .users).filter hasJournal)

/-- `store::id`. -/
def idText (value : Option (Bson α)) : String :=
  match value with
  | some (.scalar (.objectId id)) => ids.toHex id
  | some (.scalar (.text text)) => text
  | _ => ""

variable [DecidableEq α]

def activeMachines (retired : List (Scalar α)) (db : Database α) : List (Doc α) :=
  (db .machines).filter fun machine =>
    !machine.hasIn "user_id" retired && !machine.isFalse "enabled" && !machine.isTrue "deletion_pending"
      && !((machine.get? "token").getD (.scalar .null)).inAny [.null, .text ""]

def activeConnections (machines : List (Doc α)) (db : Database α) : List (Doc α) :=
  (db .connections).filter fun connection =>
    connection.hasIn "machine_id" (machines.filterMap idOf) && !connection.isFalse "enabled"

/-- The services that `render` writes: enabled connections of machines with a token. -/
def services (machines connections : List (Doc α)) : List (Doc α × Doc α) :=
  let usable := machines.filter fun machine =>
    !machine.isFalse "enabled" && !machine.isTrue "deletion_pending" && machine.string "token" != ""
  (connections.filter fun connection => !connection.isFalse "enabled").filterMap fun connection =>
    (usable.reverse.find? fun machine =>
      idText ids (machine.get? "_id") == idText ids (connection.get? "machine_id")).map (connection, ·)

def webRoutes (retired : List (Scalar α)) (db : Database α) : List (Doc α) :=
  (db .trafficRoutes).filter fun route => !route.hasIn "user_id" retired && !route.isFalse "enabled"

end Reading

section Operations

variable {α : Type}

/-- Read the database. -/
def query {β : Type} (read : Database α → β) : Action α β :=
  Prog.op internal fun world => some (read world.db, world)

/-- A call that leaves the world as it is. -/
def request : Action α Unit := Prog.op internal fun world => some ((), world)

/-- One change of the database. Its answer may be lost. -/
def exec (change : Database α → Database α) : Action α Unit := do
  Prog.op internal fun world => some ((), { world with db := change world.db })
  request

/-- Replace a published file; the directory is synchronized behind it. -/
def write (snapshot : Snapshot α) : Action α Unit := do
  Prog.op internal fun world => some ((), { world with
    published := world.published ++ [(snapshot, world.stored.map Prod.fst)] })
  request

variable [DecidableEq α] (ids : ObjectIds α) (edge : Edge α)

def publish (apply : Bool) : Action α Unit :=
  if edge.gatewayConfigPath then do
    let retired ← query (retiringOwners ids)
    let machines ← query (activeMachines retired)
    let connections ← query (activeConnections machines)
    Prog.ensure internal (edge.renders (services ids machines connections))
    write (.gateway (services ids machines connections))
    Prog.onlyIf (apply && edge.gatewayApply) request
  else
    Prog.ensure (.status 503 "Gateway configuration path is not configured") (!(apply && edge.gatewayApply))

def rebuild : Action α Unit := publish ids edge true

def rebuildWeb : Action α Unit :=
  if edge.webRoutesConfigPath || edge.gatewayConfigPath then do
    let retired ← query (retiringOwners ids)
    let routes ← query (webRoutes retired)
    let config := routes.filter edge.proxied
    Prog.ensure internal (edge.reloads config)
    write (.web config)
  else pure ()

/-- `firewall::port`. -/
def port (connection : Doc α) : Option Int :=
  match connection.get? "external_port" with
  | some (.scalar (.int number)) => some number
  | _ => none

/-- A request to the firewall for every port that is asked about. -/
def eachPort (asked : Int → Bool) (connections : List (Doc α)) : Action α Unit :=
  Prog.each (fun _ => request) ((connections.filterMap port).filter asked)

def removeMany (connections : List (Doc α)) : Action α Unit :=
  Prog.onlyIf edge.firewall do
    Prog.onlyIf edge.gatewayApply (rebuild ids edge)
    eachPort (fun _ => true) connections

end Operations

section Resume

variable {α : Type}

/-- The ids that a deletion journal holds. -/
structure Job (α : Type) where
  machineIds : List (Scalar α)
  peerIds : List (Scalar α)
  groupIds : List (Scalar α)
  routeIds : List (Scalar α)

/-- `list`. -/
def listOf (job : Doc α) (key : String) : List (Scalar α) := (job.items key).filterMap Bson.scalar?

def Job.read (job : Doc α) : Job α :=
  ⟨listOf job "machine_ids", listOf job "peer_ids", listOf job "group_ids", listOf job "route_ids"⟩

def Job.write (job : Job α) (now : Int) : Bson α :=
  .document [("requested_at", .scalar (.int now)), ("next_attempt_at", .scalar (.int now)),
    ("machine_ids", .ofScalars job.machineIds), ("peer_ids", .ofScalars job.peerIds),
    ("group_ids", .ofScalars job.groupIds), ("route_ids", .ofScalars job.routeIds)]

/-- The fields that an update sets, removes, and takes ids out of. -/
structure Change (α : Type) where
  sets : List (String × Bson α)
  unsets : List String
  pulls : List (String × List (Scalar α))

variable [DecidableEq α]

def Change.apply (change : Change α) (doc : Doc α) : Doc α :=
  change.pulls.foldl (fun doc field => doc.pull field.1 field.2)
    (change.unsets.foldl (fun doc key => doc.unset key)
      (change.sets.foldl (fun doc field => doc.set field.1 field.2) doc))

def no : Bson α := .scalar (.bool false)

def yes : Bson α := .scalar (.bool true)

/-- A field that holds ids. -/
abbrev Fields (α : Type) := List (String × List (Scalar α))

variable (ids : ObjectIds α) (edge : Edge α)

section Filters

variable (owner : List (Scalar α)) (job : Job α)

def machineFilter : Fields α := [("_id", job.machineIds), ("user_id", owner)]

def connectionFilter : Fields α := [("user_id", owner), ("machine_id", job.machineIds)]

def peerFilter : Fields α :=
  [("_id", job.peerIds), ("owner_id", owner), ("workspace_id", owner), ("machine_id", job.machineIds)]

end Filters

mutual

/-- The value is one of the ids or holds one. -/
def references (retired : List (Scalar α)) : Bson α → Bool
  | .scalar value => retired.contains value
  | .array items => itemsReference retired items
  | .document fields => fieldsReference retired fields

def itemsReference (retired : List (Scalar α)) : List (Bson α) → Bool
  | [] => false
  | item :: rest => references retired item || itemsReference retired rest

def fieldsReference (retired : List (Scalar α)) : List (String × Bson α) → Bool
  | [] => false
  | field :: rest => fieldReferences retired field || fieldsReference retired rest

def fieldReferences (retired : List (Scalar α)) : String × Bson α → Bool
  | (_, value) => references retired value

end

/-- The rules of a book that stay. -/
def keptRules (retired : List (Scalar α)) (rules : List (Bson α)) : List (Bson α) :=
  rules.filter fun rule => !references retired rule

/-- What one book loses; `none` when it stays as it is. -/
def bookChange (owner retired : List (Scalar α)) (book : Doc α) : Option (Change α) :=
  let rules := match book.get? "rules" with
    | some (.array rules) =>
        if (keptRules retired rules).length = rules.length then []
        else [("rules", .array (keptRules retired rules))]
    | _ => []
  let author := if (book.get? "created_by").any (·.among owner) then [("created_by", .scalar .null)] else []
  if (rules ++ author).isEmpty then none
  else some ⟨rules ++ author ++ [("revision", .scalar (.int (book.int "revision" + 1)))], [], []⟩

def pruned (owner retired : List (Scalar α)) (book : Doc α) : Doc α :=
  match bookChange owner retired book with
  | some change => change.apply book
  | none => book

/-- One book of the loop. Nothing else writes it between the read and the update. -/
def pruneBook (owner retired : List (Scalar α)) (book : Doc α) : Action α Unit :=
  Prog.onlyIf (bookChange owner retired book).isSome
    (exec (Db.updateMany .accessRulebooks (fun doc => idOf doc == idOf book) (pruned owner retired)))

/-- The loop over all rulebooks. -/
def pruneBooks (owner retired : List (Scalar α)) : Action α Unit := do
  let books ← query fun db => db .accessRulebooks
  Prog.each (pruneBook owner retired) books

/-- Forget the metrics of some routes. -/
def withoutMetrics (routes : List String) (doc : Doc α) : Doc α :=
  let kept := match doc.get? "metrics" with
    | some (.document metrics) => doc.set "metrics" (.document (metrics.filter fun metric => !routes.contains metric.1))
    | _ => doc
  kept.set "revision" (.scalar (.int (doc.int "revision" + 1)))

def routeNames (routes : List (Scalar α)) : List String :=
  routes.filterMap fun
    | .objectId id => some (ids.toHex id)
    | _ => none

/-- An invitation for the account, by it or into its workspace. -/
def invites (owner : List (Scalar α)) (email : String) (doc : Doc α) : Bool :=
  doc.anyIn [("workspace_id", owner), ("created_by", owner)]
    || match doc.get? "email" with
      | some (.scalar (.text text)) => edge.matchesEmail email text
      | _ => false

/-- One step of a resumed deletion. -/
inductive Step (α : Type) where
  | delete (collection : Collection) (fields : Fields α)
  | deleteInvites (owner : List (Scalar α)) (email : String)
  | update (collection : Collection) (fields : Fields α) (change : Change α)
  | rebuild
  | rebuildWeb
  | closePorts (fields : Fields α)
  | pruneBooks (owner retired : List (Scalar α))
  | forgetMetrics (routes : List String)

def Step.perform : Step α → Action α Unit
  | .delete collection fields => exec (Db.deleteMany collection (Doc.anyIn fields))
  | .deleteInvites owner email => exec (Db.deleteMany .workspaceInvites (invites edge owner email))
  | .update collection fields change => exec (Db.updateMany collection (Doc.anyIn fields) change.apply)
  | .rebuild => AccountDelete.rebuild ids edge
  | .rebuildWeb => AccountDelete.rebuildWeb ids edge
  | .closePorts fields => do
      let connections ← query fun db => (db .connections).filter (Doc.anyIn fields)
      removeMany ids edge connections
      -- The history of a port is only cleared for numbers that `as_u64` takes.
      Prog.onlyIf edge.firewall (eachPort (0 ≤ ·) connections)
  | .pruneBooks owner retired => AccountDelete.pruneBooks owner retired
  | .forgetMetrics routes =>
      Prog.onlyIf (!routes.isEmpty)
        (exec (Db.updateMany .proxyActivity (fun _ => true) (withoutMetrics routes)))

/-- The ids that selectors of other workspaces may hold. -/
def retiredIds (owner : List (Scalar α)) (job : Job α) : List (Scalar α) :=
  owner ++ job.machineIds ++ job.peerIds ++ job.groupIds

/-- The steps of `resume` before the record of the account goes. -/
def steps (owner : List (Scalar α)) (job : Job α) (email : String) : List (Step α) :=
  [ .delete .userSessions [("user_id", owner)],
    .update .machines (machineFilter owner job)
      ⟨[("enabled", no), ("deletion_pending", yes)], ["token", "log_tokens"], []⟩,
    .update .privatePeers (peerFilter owner job)
      ⟨[("enabled", no)], ["credential_hash", "fingerprint", "instance"], []⟩,
    .update .connections (connectionFilter owner job) ⟨[("enabled", no)], [], []⟩,
    .delete .firewallTraffic [("owner_id", owner)],
    .delete .terminalTraffic [("owner_id", owner)],
    .update .trafficRoutes [("user_id", owner)] ⟨[("enabled", no)], [], []⟩,
    .rebuild,
    .rebuildWeb,
    .closePorts (connectionFilter owner job),
    .delete .connections (connectionFilter owner job),
    .delete .trafficRoutes [("user_id", owner)],
    .delete .machineStatusEvents [("machine_id", job.machineIds)],
    .delete .machineInstallTickets
      [("machine_id", job.machineIds), ("user_id", owner), ("created_by", owner)],
    .delete .privateInstallTickets [("peer_id", job.peerIds), ("created_by", owner)],
    .delete .privateSignals [("from", job.peerIds), ("to", job.peerIds)],
    .delete .privatePeers (peerFilter owner job),
    .delete .workspaceMembers [("user_id", owner), ("workspace_id", owner)],
    .deleteInvites owner email,
    .delete .accessRulebooks
      [("user_id", owner), ("workspace_id", owner), ("group_id", job.groupIds)],
    .pruneBooks owner (retiredIds owner job),
    .delete .machineGroups [("user_id", owner)],
    .update .machineGroups [("user_ids", owner)] ⟨[], [], [("user_ids", owner)]⟩,
    .update .machines [("group_ids", job.groupIds)] ⟨[], [], [("group_ids", job.groupIds)]⟩,
    .update .machines [("group_id", job.groupIds)] ⟨[], ["group_id"], []⟩,
    .delete .machines (machineFilter owner job),
    .delete .privateNetworks [("_id", owner)],
    .delete .privateDnsRules [("workspace_id", owner), ("machine_id", job.machineIds)],
    .delete .privateProxyGrants [("workspace_id", owner)],
    .delete .privateExitNodes [("workspace_id", owner)],
    .forgetMetrics (routeNames ids job.routeIds) ]

/-- `username.trim()`; its lower case is part of the pattern. -/
def emailOf (user : Doc α) : String := String.ofList (Text.trim (user.string "username").toList)

def objectIdOf (user : Doc α) : Option α :=
  match idOf user with
  | some (.objectId id) => some id
  | _ => none

/-- Everything but the record of the account. -/
def retire (id : α) (job : Job α) (email : String) : Action α Unit :=
  Prog.each (Step.perform ids edge) (steps ids (values ids id) job email)

def isUser (id : α) (user : Doc α) : Bool := idOf user == some (.objectId id)

def removeUser (id : α) : Action α Unit :=
  exec (Db.deleteMany .users fun user => isUser id user && hasJournal user)

def resume (user : Doc α) : Action α Unit :=
  match objectIdOf user with
  | none => Prog.throw (.badRequest "Invalid account")
  | some id =>
      match (user.get? "account_deletion").bind Bson.document? with
      | none => Prog.throw (.badRequest "Invalid account deletion journal")
      | some job => do
          retire ids edge id (.read job) (emailOf user)
          removeUser id

end Resume

section Requests

variable {α : Type} [DecidableEq α] (ids : ObjectIds α) (edge : Edge α)

/-- The records that an account owns. -/
def jobOf (db : Database α) (id : α) : Job α :=
  let owner := values ids id
  let machineIds := expanded ids ((db .machines).filter (Doc.anyIn [("user_id", owner)]))
  let peers := (db .privatePeers).filter
    (Doc.anyIn [("owner_id", owner), ("workspace_id", owner), ("machine_id", machineIds)])
  ⟨machineIds, expanded ids peers,
    expanded ids ((db .machineGroups).filter (Doc.anyIn [("user_id", owner)])),
    expanded ids ((db .trafficRoutes).filter (Doc.anyIn [("user_id", owner)]))⟩

def isAdmin (user : Doc α) : Bool := user.string "role" == "admin"

/-- The administrators that stay. -/
def admins (db : Database α) : List (Doc α) :=
  (db .users).filter fun user => isAdmin user && !hasJournal user

def findUser (db : Database α) (id : α) : Option (Doc α) := (db .users).find? (isUser id)

/-- The change of a record that stores a deletion. -/
def storeJournal (job : Job α) (now : Int) (user : Doc α) : Doc α :=
  user.set "account_deletion" (job.write now)

/-- An administrator goes only while another one stays. -/
def requireAdmin (user : Doc α) : Action α Unit :=
  Prog.onlyIf (isAdmin user) do
    let staying ← query fun db => (admins db).length
    Prog.ensure (.status 409 "The last administrator account cannot be deleted") (1 < staying)

/-- Store the deletion. Its answer may be lost. -/
def begin (id : α) (user : Doc α) (now : Int) : Action α (Doc α) := do
  requireAdmin user
  let job ← query fun db => jobOf ids db id
  Prog.op internal fun world => some ((), { world with
    db := Db.updateMany .users (isUser id) (storeJournal job now) world.db
    stored := (id, world.db) :: world.stored })
  request
  pure (storeJournal job now user)

/-- The record with its journal. -/
def journaled (id : α) (user : Doc α) (now : Int) : Action α (Doc α) :=
  if hasJournal user then pure user else begin ids id user now

/-- Put the next attempt off. -/
def postpone (now : Int) (user : Doc α) : Doc α :=
  match user.get? "account_deletion" with
  | some (.document job) =>
      user.set "account_deletion" (.document (Doc.set "next_attempt_at" (.scalar (.int (now + 5000))) job))
  | _ => user

def deleteLocked (id : α) (now later : Int) : Action α Unit := do
  match ← query fun db => findUser db id with
  | none => Prog.throw (.status 404 "Account not found")
  | some user =>
      let user ← journaled ids id user now
      match ← Prog.caught (resume ids edge user) with
      | .ok () => pure ()
      | .error _ => do
          exec (Db.updateMany .users (fun user => isUser id user && hasJournal user) (postpone later))
          Prog.throw (.status 503
            "Account access is revoked. Cleanup is pending and will retry automatically.")

/-- The time of the next attempt. -/
def nextAttempt (user : Doc α) : Option Int :=
  match (user.get? "account_deletion").bind Bson.document? with
  | none => none
  | some job =>
      match job.get? "next_attempt_at" with
      | some (.scalar (.int time)) => some time
      | _ => none

/-- The deletions that are due, the oldest first. -/
def due (db : Database α) (now : Int) : List (Doc α) :=
  (((db .users).filter fun user => (nextAttempt user).any (· ≤ now)).mergeSort fun first second =>
    (nextAttempt first).getD 0 ≤ (nextAttempt second).getD 0).take 25

/-- One candidate of a recovery. -/
def recover (later : Int) (candidate : Doc α) : Action α Unit :=
  match objectIdOf candidate with
  | none => Prog.throw (.badRequest "Invalid account")
  | some id => do
      match ← query fun db => (db .users).find? fun user => isUser id user && hasJournal user with
      | none => pure ()
      | some current =>
          match ← Prog.caught (resume ids edge current) with
          | .ok () => pure ()
          | .error _ => exec (Db.updateMany .users (isUser id) (postpone later))

def recoverDue (now later : Int) : Action α Unit := do
  let candidates ← query fun db => due db now
  Prog.each (recover ids edge later) candidates
  request

/-- A call, or a publication by any other request. -/
inductive Event (α : Type) where
  | deleteLocked (id : α) (now later : Int)
  | recoverDue (now later : Int)
  | publish (apply : Bool)
  | rebuildWeb

def Event.perform : Event α → Action α Unit
  | .deleteLocked id now later => AccountDelete.deleteLocked ids edge id now later
  | .recoverDue now later => AccountDelete.recoverDue ids edge now later
  | .publish apply => AccountDelete.publish ids edge apply
  | .rebuildWeb => AccountDelete.rebuildWeb ids edge

/-- A call with the verdicts that its operations get. -/
def step (world : World α) (event : Event α × List Verdict) : World α :=
  (event.1.perform ids edge world event.2).2.1

end Requests

end PortHub.Api.AccountDelete
