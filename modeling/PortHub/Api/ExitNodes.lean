import PortHub.Api.PrivateNetworks
import PortHub.Lib.Runs

/-! # Exit nodes and the groups that select their machines

One workspace: its machines, groups and exit routes, and the private peers that a
route needs. Requests are serialized by the connection lock. Every query names the
owner of the workspace, so other workspaces are left out, and requests are taken
behind the checks of their JSON.
-/

namespace PortHub.Api.ExitNodes

/-- What a record holds where an id is expected. -/
inductive Value (α : Type) where
  | objectId (id : α)
  | string (text : String)
  | other (truthy : Bool)
  deriving DecidableEq, Repr

structure Machine (α : Type) where
  deletionPending : Bool
  nativeDeletion : Bool
  groupIds : Option (List (Value α))
  /-- The single group of older records. -/
  groupId : Option (Value α)
  deriving DecidableEq, Repr

/-- A selector as it is stored; an item that is no document has neither text. -/
structure Selector where
  kind : String
  id : String
  deriving DecidableEq, Repr

structure Route where
  name : String
  routingSelectors : Option (List Selector)
  distributionSelectors : Option (List Selector)
  enabled : Option Bool
  torEnabled : Option Bool
  trafficMode : Option String
  deriving DecidableEq, Repr

structure PrivatePeer (α : Type) where
  machineId : α
  enabled : Option Bool
  credentialHash : Option String
  torExit : Option Bool
  lanExit : Option Bool
  deriving DecidableEq, Repr

structure Workspace (α : Type) where
  owner : α
  machines : Dict α (Machine α)
  /-- The users of each group. -/
  groups : Dict α (List (Value α))
  routes : Dict α Route
  privatePeers : List (PrivatePeer α)
  /-- The users of the workspace. -/
  members : List (Value α)

def conflict (detail : String) : ApiError := .status 409 detail

def notFound (detail : String) : ApiError := .status 404 detail

/-- An early return with an error. -/
def refuseIf (condition : Bool) (error : ApiError) : ApiResult Unit :=
  if condition then .error error else .ok ()

@[simp] theorem refuseIf_eq_ok {condition error u} :
    refuseIf condition error = .ok u ↔ condition = false := by
  cases condition <;> simp [refuseIf]

section Reading

variable {α : Type} (ids : ObjectIds α)

/-- `store::id`, parsed. -/
def Value.id? : Value α → Option α
  | .objectId id => some id
  | .string text => ids.parseStr text
  | .other _ => none

/-- `truthy` of the JSON of a value. -/
def Value.truthy : Value α → Bool
  | .objectId _ => true
  | .string text => text != ""
  | .other truthy => truthy

def objectId (text detail : String) : ApiResult α :=
  match ids.parseStr text with
  | some id => .ok id
  | none => .error (.badRequest detail)

theorem objectId_eq_ok {ids : ObjectIds α} {text detail id} :
    objectId ids text detail = .ok id ↔ ids.parseStr text = some id := by
  unfold objectId
  cases ids.parseStr text <;> simp

/-- The ids of a record; the single group counts when the array names none. -/
def Machine.names [DecidableEq α] (machine : Machine α) : List α :=
  ((machine.groupIds.getD []).filterMap (Value.id? ids)).eraseDups

/-- `inventory::group_ids`. -/
def Machine.groups [DecidableEq α] (machine : Machine α) : List α :=
  if (machine.names ids).isEmpty then (machine.groupId.bind (Value.id? ids)).toList
  else machine.names ids

def Route.isEnabled (route : Route) : Bool := route.enabled != some false

/-- The list of selectors that a check looks at. -/
inductive Side where
  | routing
  | distribution
  deriving DecidableEq, Repr

def Route.selectors (route : Route) : Side → Option (List Selector)
  | .routing => route.routingSelectors
  | .distribution => route.distributionSelectors

def Selector.matches [DecidableEq α] (selector : Selector) (id : α) (machine : Machine α) : Bool :=
  if selector.kind = "machine" then selector.id == ids.toHex id
  else if selector.kind = "group" then
    (ids.parseStr selector.id).any fun group => (machine.groups ids).contains group
  else false

/-- `selector_priority`. -/
def selectorPriority [DecidableEq α] (route : Route) (side : Side) (id : α) (machine : Machine α) :
    Option Nat :=
  (route.selectors side).bind fun selectors =>
    selectors.findIdx? fun selector => selector.matches ids id machine

def matchesSelectors [DecidableEq α] (route : Route) (side : Side) (id : α) (machine : Machine α) :
    Bool :=
  (selectorPriority ids route side id machine).isSome

def invalidSelectors : ApiError := .badRequest "Invalid exit-node selectors"

def readSelectors (route : Route) (side : Side) : ApiResult (List Selector) :=
  match route.selectors side with
  | none => .error invalidSelectors
  | some selectors =>
      if selectors.all fun selector =>
          ["machine", "group"].contains selector.kind && (ids.parseStr selector.id).isSome then
        .ok selectors
      else .error invalidSelectors

end Reading

section Checks

variable {α : Type} [DecidableEq α] (ids : ObjectIds α)

/-- The machines that are not about to be deleted. -/
def Workspace.live (workspace : Workspace α) : List (α × Machine α) :=
  workspace.machines.entries.filter fun entry => !entry.2.deletionPending

def Workspace.enabledRoutes (workspace : Workspace α) : List (α × Route) :=
  workspace.routes.entries.filter fun entry => entry.2.isEnabled

def machineIds (workspace : Workspace α) (selectors : List Selector) : ApiResult (List α) := do
  let direct ← (selectors.filter (·.kind == "machine")).mapM fun selector =>
    objectId ids selector.id "Invalid machine selector"
  let selected ← (selectors.filter (·.kind == "group")).mapM fun selector =>
    objectId ids selector.id "Invalid group selector"
  refuseIf (!direct.isEmpty
      && (workspace.live.filter fun entry => direct.contains entry.1).length != direct.length)
    (.badRequest "Selected machines must belong to this workspace")
  refuseIf (!selected.isEmpty
      && (workspace.groups.entries.filter fun entry => selected.contains entry.1).length
        != selected.length)
    (.badRequest "Selected groups must belong to this workspace")
  let grouped := workspace.live.filter fun entry =>
    (entry.2.groups ids).any fun group => selected.contains group
  .ok (direct ++ grouped.map Prod.fst)

def validateRoutingPeers (workspace : Workspace α) (selectors : List Selector) : ApiResult Unit := do
  let machines ← machineIds ids workspace selectors
  if machines.isEmpty then
    refuseIf (!selectors.isEmpty) (.badRequest "Routing-peer selections contain no machines")
  else
    let enrolled := workspace.privatePeers.any fun peer =>
      machines.contains peer.machineId && peer.enabled != some false && peer.credentialHash != some ""
    refuseIf (!enrolled)
      (.badRequest "Routing peers must have an enrolled private-network client")

def requireTorSupport (workspace : Workspace α) (machines : List α) : ApiResult Unit :=
  refuseIf (!machines.all fun id => workspace.privatePeers.any fun peer =>
      peer.machineId == id && peer.enabled == some true && peer.torExit == some true)
    (.badRequest
      "Selected machines must advertise local Tor exit support before this rule can be enabled")

def requireLanSupport (workspace : Workspace α) (machines : List α) : ApiResult Unit :=
  refuseIf (!machines.all fun id => workspace.privatePeers.any fun peer =>
      peer.machineId == id && peer.enabled == some true && peer.lanExit == some true)
    (.badRequest
      "Selected machines must advertise LAN exit support before this traffic mode can be enabled")

/-- The Tor clients of a route. -/
def requireTorClients (workspace : Workspace α) (route : Route) (machines : List α) :
    ApiResult Unit :=
  if route.torEnabled = some true then requireTorSupport workspace machines else .ok ()

/-- The machines of a route that carries LAN traffic. -/
def requireLanMachines (workspace : Workspace α) (route : Route) (machines : List α) :
    ApiResult Unit :=
  if route.trafficMode.getD "internet_only" ≠ "internet_only" then requireLanSupport workspace machines
  else .ok ()

def disjoint (left right : List α) : Bool := left.all fun id => !right.contains id

/-- One existing route against the candidate. -/
def rejectRoute (workspace : Workspace α) (machines peers : List α) (route : Route) :
    ApiResult Unit := do
  let assigned ← machineIds ids workspace (← readSelectors ids route .distribution)
  refuseIf (!disjoint machines assigned)
    (conflict "A machine cannot use more than one enabled exit node")
  let routing ← machineIds ids workspace (← readSelectors ids route .routing)
  refuseIf (!disjoint peers assigned || !disjoint machines routing)
    (conflict "Routing peers cannot also use an enabled exit node")

def rejectOverlappingAssignments (workspace : Workspace α) (candidate : Route) (exclude : Option α) :
    ApiResult Unit :=
  if candidate.enabled = some false then .ok ()
  else do
    let machines ← machineIds ids workspace (← readSelectors ids candidate .distribution)
    refuseIf machines.isEmpty (.badRequest "Select machines that will use this exit node")
    requireTorClients workspace candidate machines
    let peers ← machineIds ids workspace (← readSelectors ids candidate .routing)
    requireLanMachines workspace candidate machines
    requireLanMachines workspace candidate peers
    refuseIf (!disjoint machines peers) (.badRequest "A routing peer cannot use its own exit node")
    let existing := workspace.enabledRoutes.filter fun entry => some entry.1 != exclude
    existing.forM fun entry => rejectRoute ids workspace machines peers entry.2

/-- The machines of one side of a route, among proposed records. -/
def selected (machines : List (α × Machine α)) (route : Route) (side : Side) : List α :=
  (machines.filter fun entry => matchesSelectors ids route side entry.1 entry.2).map Prod.fst

/-- What one route asks of the proposed records, with the clients of the routes
    before it. -/
def validateRoute (workspace : Workspace α) (machines : List (α × Machine α)) (clients : List α)
    (route : Route) : ApiResult Unit := do
  let routing := selected ids machines route .routing
  let consuming := selected ids machines route .distribution
  requireTorClients workspace route consuming
  requireLanMachines workspace route (consuming ++ routing)
  refuseIf (!consuming.isEmpty && routing.isEmpty && route.torEnabled != some true)
    (conflict "This group change would leave an enabled exit node without routing peers")
  refuseIf (!disjoint clients consuming)
    (conflict "This group change would assign a machine to multiple enabled exit nodes")

def validateRoutes (workspace : Workspace α) (machines : List (α × Machine α)) :
    List α → List α → List Route → ApiResult (List α × List α)
  | clients, peers, [] => .ok (clients, peers)
  | clients, peers, route :: rest => do
      validateRoute ids workspace machines clients route
      validateRoutes workspace machines (clients ++ selected ids machines route .distribution)
        (peers ++ selected ids machines route .routing) rest

/-- The live records with the proposed ones in their place. -/
def overlay (machines proposed : List (α × Machine α)) : List (α × Machine α) :=
  proposed.foldl (fun machines changed => machines.filter (·.1 != changed.1) ++ [changed]) machines

def validateMachineChanges (workspace : Workspace α) (proposed : List (α × Machine α)) :
    ApiResult Unit :=
  if workspace.enabledRoutes.isEmpty then .ok ()
  else do
    let (clients, peers) ← validateRoutes ids workspace (overlay workspace.live proposed) [] []
      (workspace.enabledRoutes.map Prod.snd)
    refuseIf (!disjoint clients peers)
      (conflict "This group change would make an exit routing peer also consume an exit route")

end Checks

/-- An exit-node request. -/
structure RouteRequest where
  name : String
  routing : List Selector
  distribution : List Selector
  enabled : Bool
  torEnabled : Bool
  trafficMode : String
  deriving DecidableEq, Repr

def RouteRequest.route (request : RouteRequest) : Route :=
  { name := request.name
    routingSelectors := some request.routing
    distributionSelectors := some request.distribution
    enabled := some request.enabled
    torEnabled := some request.torEnabled
    trafficMode := some request.trafficMode }

/-- The members of a group: all of them, or the changes to them. -/
inductive MembersRequest where
  | put (machineIds userIds : List String)
  | patch (machineAdd machineRemove userAdd userRemove : List String)
  deriving DecidableEq, Repr

section Requests

variable {α : Type} [DecidableEq α] (ids : ObjectIds α)

/-- `create` of exit_nodes.rs; `id` is the new id. -/
def createRoute (workspace : Workspace α) (id : α) (request : RouteRequest) :
    ApiResult (Workspace α) := do
  validateRoutingPeers ids workspace request.routing
  refuseIf (workspace.routes.values.any (·.name == request.name))
    (conflict "An exit node with that name already exists")
  rejectOverlappingAssignments ids workspace request.route none
  refuseIf (workspace.routes.contains id) PrivateNetworks.databaseError
  .ok { workspace with routes := workspace.routes.insert id request.route }

def updateRoute (workspace : Workspace α) (id : α) (request : RouteRequest) :
    ApiResult (Workspace α) := do
  validateRoutingPeers ids workspace request.routing
  refuseIf (workspace.routes.entries.any fun entry => entry.2.name == request.name && entry.1 != id)
    (conflict "An exit node with that name already exists")
  refuseIf (!workspace.routes.contains id) (notFound "Exit node not found")
  rejectOverlappingAssignments ids workspace request.route (some id)
  .ok { workspace with routes := workspace.routes.insert id request.route }

def deleteRoute (workspace : Workspace α) (id : α) : ApiResult (Workspace α) := do
  refuseIf (!workspace.routes.contains id) (notFound "Exit node not found")
  .ok { workspace with routes := workspace.routes.erase id }

/-- The record that a group change proposes for a machine. -/
def propose (machine : Machine α) (groups : List α) : Machine α :=
  { machine with groupIds := some (groups.map .objectId), groupId := none }

/-- What the deletion of a group proposes. -/
def withoutGroup (group : α) (machine : Machine α) : Machine α :=
  propose machine ((machine.groups ids).filter (· != group))

/-- `$pull` on the array, where it holds the id. -/
def pullGroup (group : α) (machine : Machine α) : Machine α :=
  if (machine.groupIds.getD []).contains (.objectId group) then
    { machine with groupIds := machine.groupIds.map fun groups => groups.filter (· != .objectId group) }
  else machine

/-- `$unset` of the single group, where it is the id. -/
def unsetGroup (group : α) (machine : Machine α) : Machine α :=
  if machine.groupId = some (.objectId group) then { machine with groupId := none } else machine

/-- `delete` of groups.rs. -/
def deleteGroup (workspace : Workspace α) (text : String) : ApiResult (Workspace α) := do
  let group ← objectId ids text "Invalid group id"
  refuseIf (!workspace.groups.contains group) (.badRequest "Group not found")
  validateMachineChanges ids workspace
    (workspace.machines.entries.map fun entry => (entry.1, withoutGroup ids group entry.2))
  .ok
    { workspace with
      machines := workspace.machines.map fun _ machine => unsetGroup group (pullGroup group machine)
      groups := workspace.groups.erase group }

/-- `ids` of private_groups.rs: parsed, each once. -/
def parseIds (values : List String) (detail : String) : ApiResult (List α) := do
  let parsed ← values.mapM fun value => objectId ids value detail
  .ok parsed.eraseDups

/-- The machines and users that a request selects, and the users it adds. -/
def membersSelected (workspace : Workspace α) (group : α) (users : List (Value α)) :
    MembersRequest → ApiResult (List α × List α × List α)
  | .put machineIds userIds => do
      let machines ← parseIds ids machineIds "Invalid machine"
      let users ← parseIds ids userIds "Invalid user"
      .ok (machines, users, [])
  | .patch machineAdd machineRemove userAdd userRemove => do
      let machines ← parseIds ids machineAdd "Invalid machine"
      let added ← parseIds ids userAdd "Invalid user"
      let machineRemove ← parseIds ids machineRemove "Invalid machine"
      let userRemove ← parseIds ids userRemove "Invalid user"
      refuseIf (machines.any machineRemove.contains || added.any userRemove.contains)
        (.badRequest "A member cannot be added and removed in the same request")
      let there := (workspace.machines.entries.filter fun entry =>
        (entry.2.groups ids).contains group && !machineRemove.contains entry.1).map Prod.fst
      let known := (users.filterMap (Value.id? ids)).filter fun id => !userRemove.contains id
      .ok ((there ++ machines).eraseDups, (known ++ added).eraseDups, added)

/-- What a member change proposes. -/
def withMembers (group : α) (machines : List α) (id : α) (machine : Machine α) : Machine α :=
  let others := (machine.groups ids).filter (· != group)
  propose machine (if machines.contains id then others ++ [group] else others)

/-- A single group is moved into the array before the array changes. -/
def migrateGroup (machine : Machine α) : Machine α :=
  if machine.groupId.any Value.truthy && !(machine.groupIds.any fun groups => !groups.isEmpty) then
    propose machine (machine.groups ids)
  else machine

/-- `$addToSet` for a member, `$pull` for every other machine. -/
def storeMember (group : α) (machines : List α) (id : α) (machine : Machine α) : Machine α :=
  if machines.contains id then
    let groups := machine.groupIds.getD []
    { machine with
      groupIds := some (if groups.contains (.objectId group) then groups
        else groups ++ [.objectId group]) }
  else
    { machine with
      groupIds := machine.groupIds.map fun groups =>
        groups.filter fun value => value != .objectId group && value != .string (ids.toHex group) }

def members (workspace : Workspace α) (text : String) (request : MembersRequest) :
    ApiResult (Workspace α) := do
  let group ← objectId ids text "Invalid group"
  match workspace.groups.get? group with
  | none => .error (notFound "Group not found")
  | some users =>
      let (machines, users, added) ← membersSelected ids workspace group users request
      refuseIf (!machines.isEmpty && (workspace.machines.entries.filter fun entry =>
          machines.contains entry.1).length != machines.length)
        (.badRequest "Selected machines must belong to this workspace")
      let allowed := workspace.owner :: workspace.members.filterMap (Value.id? ids)
      refuseIf (added.any fun id => !allowed.contains id)
        (.badRequest "Selected users must belong to this workspace")
      let users := match request with
        | .put _ _ => users
        | .patch _ _ _ _ => users.filter allowed.contains
      refuseIf (users.any fun id => !allowed.contains id)
        (.badRequest "Selected users must belong to this workspace")
      validateMachineChanges ids workspace
        (workspace.machines.entries.map fun entry =>
          (entry.1, withMembers ids group machines entry.1 entry.2))
      .ok
        { workspace with
          machines := workspace.machines.map fun id machine =>
            storeMember ids group machines id (migrateGroup ids machine)
          groups := workspace.groups.insert group (users.map .objectId) }

/-- The record that adds a machine to a group or removes it, unless it is there. -/
def membershipCandidate (machine : Machine α) (group : α) (remove : Bool) :
    ApiResult (Option (Machine α)) :=
  let groups := machine.groups ids
  let member := groups.contains group
  if !remove && member then .ok none
  else if remove && !member then do
    -- the single group can stand beside an array that names others
    refuseIf (machine.groupId != some (.objectId group)) (.badRequest "Machine is not in this group")
    .ok (some { machine with groupId := none })
  else
    .ok (some (propose machine (if remove then groups.filter (· != group) else groups ++ [group])))

/-- `membership` of machines.rs. -/
def membership (workspace : Workspace α) (machineId groupId : String) (remove : Bool) :
    ApiResult (Workspace α) := do
  let id ← objectId ids machineId "Invalid machine id"
  let group ← objectId ids groupId "Invalid group id"
  match workspace.machines.get? id with
  | none => .error (.badRequest "Machine not found")
  | some machine =>
      refuseIf machine.nativeDeletion (conflict "Machine deletion is in progress")
      refuseIf (!workspace.groups.contains group) (.badRequest "Group not found")
      match ← membershipCandidate ids machine group remove with
      | none => .ok workspace
      | some candidate =>
          validateMachineChanges ids workspace [(id, candidate)]
          .ok { workspace with machines := workspace.machines.insert id candidate }

def validGroups (workspace : Workspace α) (groups : List String) : ApiResult (List α) := do
  let texts := (groups.map fun text => String.ofList (Text.trim text.toList)).filter (· != "")
  let parsed ← texts.mapM fun text => do
    let id ← objectId ids text "Invalid group id"
    refuseIf (!workspace.groups.contains id) (.badRequest "Group not found")
    .ok id
  .ok parsed.eraseDups

/-- `update` of machine_update.rs, as far as it sets the groups. -/
def updateMachine (workspace : Workspace α) (machineId : String) (groups : List String) :
    ApiResult (Workspace α) := do
  let id ← objectId ids machineId "Invalid machine id"
  match workspace.machines.get? id with
  | none => .error (.badRequest "Machine not found")
  | some machine =>
      refuseIf machine.nativeDeletion (conflict "Machine deletion is in progress")
      let groups ← validGroups ids workspace groups
      let candidate := propose machine groups
      validateMachineChanges ids workspace [(id, candidate)]
      .ok { workspace with machines := workspace.machines.insert id candidate }

end Requests

inductive Event (α : Type) where
  | createRoute (id : α) (request : RouteRequest)
  | updateRoute (id : α) (request : RouteRequest)
  | deleteRoute (id : α)
  | deleteGroup (group : String)
  | members (group : String) (request : MembersRequest)
  | membership (machineId groupId : String) (remove : Bool)
  | updateMachine (machineId : String) (groups : List String)

def step {α : Type} [DecidableEq α] (ids : ObjectIds α) (workspace : Workspace α) :
    Event α → ApiResult (Workspace α)
  | .createRoute id request => createRoute ids workspace id request
  | .updateRoute id request => updateRoute ids workspace id request
  | .deleteRoute id => deleteRoute workspace id
  | .deleteGroup group => deleteGroup ids workspace group
  | .members group request => members ids workspace group request
  | .membership machineId groupId remove => membership ids workspace machineId groupId remove
  | .updateMachine machineId groups => updateMachine ids workspace machineId groups

end PortHub.Api.ExitNodes
