import PortHub.Api.ExitNodes
import PortHub.Runtime.Upstreams

/-! # Web routes, connections and the published snapshot

Routes bind host names to targets. A connection binding names a connection of the
same owner, and publication copies the address of its gateway listener into the
snapshot. Connections and routes are changed by different requests: only those of
routes publish the snapshot again. Requests are taken behind the checks of their
JSON; the answers of the firewall, the gateway and the disk are part of a request.
-/

namespace PortHub.Api.TrafficRoutes

open ExitNodes (refuseIf objectId)
open PrivateNetworks (toLowercase)

/-- The parts of a `url::Url` that are read. -/
structure Url where
  scheme : String
  hostStr : Option String
  portOrKnownDefault : Option Nat
  username : String
  password : Option String
  path : String
  query : Option String
  fragment : Option String
  /-- The normalized text. -/
  text : String
  deriving DecidableEq, Repr

inductive TargetMode where
  | manual
  | connection
  deriving DecidableEq, Repr

structure Machine (α : Type) where
  userId : α
  /-- The field is not `false`. -/
  enabled : Bool
  deletionPending : Bool
  deriving DecidableEq, Repr

structure Connection (α : Type) where
  userId : α
  machineId : α
  serviceName : String
  externalPort : Int
  externalBindIp : String
  enabled : Bool
  temporary : Bool
  deriving DecidableEq, Repr

/-- The copy of a connection that a binding stores. -/
structure Metadata where
  dataId : String
  externalPort : Int
  deriving DecidableEq, Repr

structure BindingRecord where
  id : String
  label : String
  targetMode : TargetMode
  targetUrl : String
  priority : Nat
  weight : Nat
  enabled : Bool
  passHost : Option Bool
  healthPath : Option String
  connection : Option Metadata
  deriving DecidableEq, Repr

structure Record (α : Type) where
  userId : α
  name : String
  hosts : List String
  targetMode : TargetMode
  targetUrl : String
  entryPoints : List String
  enabled : Bool
  connection : Option Metadata
  temporary : Bool
  createdAt : Nat
  bindings : Option (List BindingRecord)
  routing : Option Runtime.Routing
  deriving DecidableEq, Repr

/-- A binding of the snapshot. -/
structure Binding where
  id : String
  targetUrl : String
  passHost : Bool
  enabled : Bool
  priority : Nat
  weight : Nat
  healthPath : Option String
  deriving DecidableEq, Repr

/-- A route of the snapshot. -/
structure Route where
  id : String
  hosts : List String
  targetUrl : String
  bindings : List Binding
  routing : Option Runtime.Routing
  passHost : Bool
  http : Bool
  https : Bool
  deriving DecidableEq, Repr

abbrev Config := List Route

/-- The crates and validators that a request passes through. -/
structure Libraries where
  parseUrl : String → Option Url
  parseIpv6 : List Char → Option Nat
  showIpv6 : Nat → List Char
  /-- The error of `Routing::validate`. -/
  routingError : Runtime.Routing → Option String
  /-- The error of the health settings with another path. -/
  healthError : Runtime.Routing → String → Option String
  /-- The error of `WebRoutes::reload` behind some gateway hosts. -/
  reloadError : List String → Config → Option String

structure Settings where
  externalPortRange : Option (Nat × Nat)
  publicBaseUrl : String
  tunnelHttpBaseUrl : String
  gatewayAdvertisedUrl : Option String
  tunnelFallbackBaseUrls : List String
  gatewayConfigPath : Option String
  webRoutesConfigPath : Option String

structure State (α : Type) where
  machines : Dict α (Machine α)
  connections : Dict α (Connection α)
  routes : Dict α (Record α)
  /-- The content of `web-routes.json`. -/
  published : Option Config

def internal : ApiError := .status 500 "Internal Server Error"

def stripText (text : String) : String := String.ofList (strip text.toList)

def trimText (text : String) : String := String.ofList (Text.trim text.toList)

section Rendering

variable {α : Type} (ids : ObjectIds α) (lib : Libraries)

inductive IpAddr where
  | v4 (ip : Ipv4Addr)
  | v6 (bits : Nat)
  deriving DecidableEq, Repr

def IpAddr.parse (text : List Char) : Option IpAddr :=
  ((Ipv4Addr.parse text).map .v4).or ((lib.parseIpv6 text).map .v6)

/-- The address of a `SocketAddr` as text, in brackets for IPv6. -/
def IpAddr.render : IpAddr → List Char
  | .v4 ip => ip.render
  | .v6 bits => '[' :: lib.showIpv6 bits ++ [']']

def httpScheme : List Char := "http://".toList

/-- The text `http://address:port`. -/
def socketUrl (address : IpAddr) (port : Nat) : String :=
  String.ofList (httpScheme ++ address.render lib ++ ':' :: Decimal.render port)

def connectionWebTarget (externalPort : Int) (externalBindIp : String) : Option String := do
  guard (1 ≤ externalPort ∧ externalPort ≤ 65535)
  let address ← IpAddr.parse lib <|
    match trimText externalBindIp with
    | "" | "0.0.0.0" => "127.0.0.1".toList
    | "::" => "::1".toList
    | ip => ip.toList
  return socketUrl lib address externalPort.toNat

def Connection.target (connection : Connection α) : Option String :=
  connectionWebTarget lib connection.externalPort connection.externalBindIp

def eqIgnoreAsciiCase (left right : String) : Bool :=
  Text.toAsciiLowercase left.toList == Text.toAsciiLowercase right.toList

def autoHost (hosts : List String) (targetUrl : String) (mode : TargetMode) : Option Bool := do
  let target ← lib.parseUrl targetUrl
  return mode != .manual || match target.hostStr with
    | none => true
    | some host =>
        let bracket := fun c : Char => c == '[' || c == ']'
        (IpAddr.parse lib ((host.toList.dropWhile bracket).rdropWhile bracket)).isSome
          || hosts.any fun name => eqIgnoreAsciiCase name host

/-- The binding would route back to its own proxy host name. -/
def routesBack (hosts : List String) (url : Url) : Bool :=
  (url.hostStr.any fun host => hosts.any fun name => eqIgnoreAsciiCase name host)
    && (url.portOrKnownDefault == some 80 || url.portOrKnownDefault == some 443)

def renderBinding (hosts : List String) (binding : BindingRecord) : Option Binding := do
  let targetUrl := trimText binding.targetUrl
  let url ← lib.parseUrl targetUrl
  guard (routesBack hosts url = false)
  let automatic ← autoHost lib hosts targetUrl binding.targetMode
  return {
    id := binding.id
    targetUrl
    passHost := binding.passHost.getD automatic
    enabled := binding.enabled
    priority := binding.priority
    weight := binding.weight
    healthPath := binding.healthPath }

def renderRoute (id : α) (record : Record α) : Option Route := do
  let hosts := (record.hosts.map fun host =>
    String.ofList (toLowercase (Text.trim host.toList))).filter (· != "")
  let targetUrl := trimText record.targetUrl
  let passHost ← autoHost lib hosts targetUrl record.targetMode
  let bindings ← (record.bindings.getD []).mapM (renderBinding lib hosts)
  let entries := (record.entryPoints.map trimText).filter (· != "")
  return {
    id := ids.toHex id
    hosts
    targetUrl
    bindings
    routing := record.routing
    passHost
    http := entries.isEmpty || entries.contains "web"
    https := true }

def renderWeb (routes : List (α × Record α)) : Option Config :=
  (routes.filter fun entry => entry.2.enabled).mapM fun entry => renderRoute ids lib entry.1 entry.2

/-- The origin of a URL that names nothing below it. -/
def wholeOrigin (value : String) : Option (String × Option String × Option Nat) := do
  let url ← lib.parseUrl value
  guard ((url.scheme = "http" ∨ url.scheme = "https") ∧ url.hostStr.isSome ∧ url.username = "" ∧
    url.password = none ∧ url.path = "/" ∧ url.query = none ∧ url.fragment = none)
  return (url.scheme, url.hostStr, url.portOrKnownDefault)

def Settings.origins (settings : Settings) : List (String × Option String × Option Nat) :=
  ([settings.publicBaseUrl, settings.tunnelHttpBaseUrl] ++ settings.gatewayAdvertisedUrl.toList
    ++ settings.tunnelFallbackBaseUrls).filterMap (wholeOrigin lib)

/-- A target that the ingress of the gateway serves itself. -/
def Settings.builtin (settings : Settings) (targetUrl : String) : Bool :=
  (wholeOrigin lib targetUrl).any fun origin => (settings.origins lib).contains origin

def renderWebForGateway (settings : Settings) (routes : List (α × Record α)) : Option Config := do
  let config ← renderWeb ids lib routes
  guard (∀ route ∈ config, ∀ binding ∈ route.bindings,
    settings.builtin lib binding.targetUrl = false)
  return config.filter fun route => !settings.builtin lib route.targetUrl

def Settings.gatewayHosts (settings : Settings) : List String :=
  ([settings.publicBaseUrl, settings.tunnelHttpBaseUrl] ++ settings.tunnelFallbackBaseUrls).filterMap
    fun base => (lib.parseUrl base).bind Url.hostStr

end Rendering

section Publishing

variable {α : Type} [DecidableEq α] (ids : ObjectIds α) (lib : Libraries) (settings : Settings)

def BindingRecord.dataId (binding : BindingRecord) : String :=
  (binding.connection.map Metadata.dataId).getD ""

/-- One binding against the connections and machines that were read. -/
def hydrateBinding (connections : List (α × Connection α)) (machines : List (α × Machine α))
    (owner : α) (binding : BindingRecord) : BindingRecord :=
  if binding.targetMode = .connection then
    let connection := connections.find? fun entry =>
      ids.toHex entry.1 == binding.dataId && entry.2.userId == owner
    let valid := connection.filter fun entry =>
      entry.2.enabled && machines.any fun machine =>
        machine.1 == entry.2.machineId && machine.2.userId == owner
    match valid.bind fun entry => entry.2.target lib with
    | some target => { binding with targetUrl := target }
    | none => { binding with enabled := false }
  else binding

/-- The connections that the bindings of some routes name. -/
def boundIds (routes : List (α × Record α)) : List α :=
  ((routes.flatMap fun entry => entry.2.bindings.getD []).filterMap BindingRecord.connection).filterMap
    fun metadata => ids.parseStr metadata.dataId

def hydrateBindings (state : State α) (routes : List (α × Record α)) : List (α × Record α) :=
  let bound := boundIds ids routes
  if bound.isEmpty then routes
  else
    let connections := state.connections.entries.filter fun entry => bound.contains entry.1
    let machineIds := connections.map fun entry => entry.2.machineId
    let machines := state.machines.entries.filter fun entry =>
      machineIds.contains entry.1 && entry.2.enabled && !entry.2.deletionPending
    routes.map fun entry => (entry.1, { entry.2 with
      bindings := entry.2.bindings.map fun bindings =>
        bindings.map (hydrateBinding ids lib connections machines entry.2.userId) })

/-- The order of a query: by age, then by id. -/
def older (first second : α × Record α) : Bool :=
  first.2.createdAt < second.2.createdAt
    || (first.2.createdAt == second.2.createdAt && ids.toHex first.1 ≤ ids.toHex second.1)

def webSnapshot (state : State α) : ApiResult Config :=
  let routes := (state.routes.entries.filter fun entry => entry.2.enabled).mergeSort (older ids)
  match renderWebForGateway ids lib settings (hydrateBindings ids lib state routes) with
  | none => .error internal
  | some config =>
      match lib.reloadError (settings.gatewayHosts lib) config with
      | some _ => .error internal
      | none => .ok config

/-- Publish the routes of the database; `written` is the answer of the disk. -/
def rebuildWeb (state : State α) (written : ApiResult Unit) : ApiResult (State α) :=
  if settings.webRoutesConfigPath.isNone && settings.gatewayConfigPath.isNone then .ok state
  else do
    let config ← webSnapshot ids lib settings state
    written
    return { state with published := some config }

end Publishing

section Requests

variable {α : Type} [DecidableEq α] (ids : ObjectIds α) (lib : Libraries) (settings : Settings)

/-- The part of a connection request that is stored and read again. -/
structure ConnectionInput where
  dataId : Option String
  machineId : String
  serviceName : String
  externalPort : Int
  enabled : Option Bool
  deriving DecidableEq, Repr

structure BindingInput where
  id : String
  label : String
  targetMode : TargetMode
  targetUrl : Option String
  connectionDataId : Option String
  priority : Nat
  weight : Nat
  enabled : Bool
  passHost : Option Bool
  healthPath : Option String
  deriving DecidableEq, Repr

structure Input where
  dataId : Option String
  name : String
  hosts : List String
  targetMode : TargetMode
  targetUrl : Option String
  entryPoints : List String
  enabled : Option Bool
  connectionDataId : Option String
  bindings : Option (List BindingInput)
  routing : Option Runtime.Routing
  deriving DecidableEq, Repr

/-- A record of one owner. -/
def owned {β : Type} (table : Dict α β) (user : β → α) (owner id : α) (error : ApiError) : ApiResult β :=
  match table.get? id with
  | some found => if user found = owner then .ok found else .error error
  | none => .error error

def ownedConnection (state : State α) (owner : α) (id : String) : ApiResult (α × Connection α) := do
  let id ← objectId ids id "Invalid connection id"
  let connection ← owned state.connections Connection.userId owner id (.badRequest "Connection not found")
  return (id, connection)

def temporaryMapping : ApiError :=
  .badRequest "Temporary agent mappings can only be stopped from the PortHub CLI"

def rangeError (port : Int) : Option String :=
  (settings.externalPortRange.filter fun range => port < range.1 || range.2 < port).map
    fun range => s!"External port must be between {range.1} and {range.2}"

/-- The record that an update replaces. -/
def previousConnection (state : State α) (owner : α) (input : ConnectionInput) (updating : Bool) :
    ApiResult (Option (α × Connection α)) :=
  if updating then do
    let previous ← ownedConnection ids state owner (input.dataId.getD "")
    refuseIf previous.2.temporary temporaryMapping
    return some previous
  else .ok none

/-- `save` of a connection. `applied` is the answer of the firewall and of the gateway
    configuration; an error restores the previous record. -/
def saveConnection (state : State α) (owner : α) (input : ConnectionInput) (updating : Bool)
    (fresh : α) (applied : ApiResult Unit) : ApiResult (State α) := do
  let name := stripText input.serviceName
  refuseIf (name == "") (.badRequest "Service name is required")
  let machineId ← objectId ids input.machineId "Invalid machine id"
  let machine ← owned state.machines Machine.userId owner machineId (.badRequest "Machine not found")
  refuseIf machine.deletionPending (.badRequest "Machine not found")
  let previous ← previousConnection ids state owner input updating
  match rangeError settings input.externalPort with
  | some message => .error (.badRequest message)
  | none =>
    refuseIf (state.connections.entries.any fun entry =>
        entry.2.externalPort == input.externalPort && some entry.1 != previous.map Prod.fst)
      (.badRequest "Port already in use")
    refuseIf (!updating && state.connections.contains fresh) (.badRequest "Port already in use")
    let (id, base) := previous.getD (fresh, {
      userId := owner
      machineId
      serviceName := name
      externalPort := input.externalPort
      externalBindIp := ""
      enabled := true
      temporary := false })
    let candidate := { base with
      machineId
      serviceName := name
      externalPort := input.externalPort
      enabled := input.enabled.getD true }
    applied
    return { state with connections := state.connections.insert id candidate }

/-- `delete` of a connection; an error of the gateway puts it back. -/
def deleteConnection (state : State α) (owner : α) (dataId : String) (applied : ApiResult Unit) :
    ApiResult (State α) := do
  let (id, previous) ← ownedConnection ids state owner dataId
  refuseIf previous.temporary temporaryMapping
  applied
  return { state with connections := state.connections.erase id }

def metadata (state : State α) (owner : α) (id : String) : ApiResult (Option Metadata) :=
  if id = "" then .ok none
  else do
    let id ← objectId ids id "Invalid connection id"
    let connection ← owned state.connections Connection.userId owner id
      (.badRequest "Mapped port-pair entry not found")
    refuseIf connection.temporary
      (.badRequest "Temporary agent mappings can only use their generated proxy address")
    return some ⟨ids.toHex id, connection.externalPort⟩

/-- The identity of a target within a list of bindings. -/
inductive TargetKey where
  | url (text : String)
  | connection (id : String)
  deriving DecidableEq, Repr

def BindingInput.fail (binding : BindingInput) (message : String) : ApiError :=
  .badRequest s!"Binding {String.ofList (binding.label.toList.take 80)}: {message}"

def BindingInput.key (binding : BindingInput) : ApiResult TargetKey :=
  match binding.targetMode with
  | .manual =>
      match lib.parseUrl (trimText (binding.targetUrl.getD "")) with
      | none => .error (binding.fail "Enter a valid HTTP or HTTPS URL")
      | some url => do
          refuseIf (!(["http", "https"].contains url.scheme) || url.hostStr.isNone || url.fragment.isSome)
            (binding.fail "Enter an HTTP or HTTPS URL without a fragment")
          return .url url.text
  | .connection => do
      let id := binding.connectionDataId.getD ""
      let _ ← objectId ids id "Invalid machine port binding"
      return .connection (String.ofList (toLowercase id.toList))

def BindingInput.badId (binding : BindingInput) : Bool :=
  binding.id == "" || 80 < Text.byteLen binding.id.toList
    || !binding.id.toList.all fun c => Text.isAsciiAlphanumeric c || c == '-' || c == '_'

def BindingInput.badNumbers (binding : BindingInput) : Bool :=
  120 < Text.byteLen binding.label.toList || !(1 ≤ binding.priority && binding.priority ≤ 10000)
    || !(1 ≤ binding.weight && binding.weight ≤ 100)

/-- The checks of `parse_multiple`, with the ids and targets of the bindings before. -/
def checkBindings (routing : Runtime.Routing) :
    List String → List TargetKey → List BindingInput → ApiResult Unit
  | _, _, [] => .ok ()
  | seen, targets, binding :: rest => do
      refuseIf (binding.badId || seen.contains binding.id) (binding.fail "IDs must be unique identifiers")
      refuseIf binding.badNumbers
        (binding.fail "Label must be at most 120 bytes, priority 1–10000, weight 1–100")
      let key ← binding.key ids lib
      refuseIf (targets.contains key) (binding.fail "This target is already in the binding list")
      match binding.healthPath.bind (lib.healthError routing) with
      | some message => .error (binding.fail message)
      | none => checkBindings routing (binding.id :: seen) (key :: targets) rest

/-- `Routing::default`. -/
def defaultRouting : Runtime.Routing where
  mode := .priority
  priorityPolicy := .manual
  strategy := .roundRobin
  maxAttempts := 4
  stickySessions := false
  health := ⟨true, 2, 2, 10⟩

/-- `parse`, where the request names bindings. -/
def parseMultiple (input : Input) (bindings : List BindingInput) : ApiResult Input := do
  refuseIf (bindings.isEmpty || 128 < bindings.length)
    (.badRequest "Provide between 1 and 128 bindings")
  let routing := input.routing.getD defaultRouting
  match lib.routingError routing with
  | some message => .error (.badRequest message)
  | none =>
    checkBindings ids lib routing [] [] bindings
    return { input with
      targetMode := (bindings.head?.map BindingInput.targetMode).getD .manual
      targetUrl := bindings.head?.bind BindingInput.targetUrl
      connectionDataId := bindings.head?.bind BindingInput.connectionDataId
      routing := some routing }

def parse (input : Input) : ApiResult Input :=
  match input.bindings with
  | none => .ok { input with routing := none }
  | some bindings => parseMultiple ids lib input bindings

/-- The connection of a binding; a manual one has none. -/
def bindingConnection (state : State α) (owner : α) (binding : BindingInput) :
    ApiResult (Option Metadata) :=
  if binding.targetMode = .connection then metadata ids state owner (binding.connectionDataId.getD "")
  else .ok none

def bindingTarget (binding : BindingInput) : Option Metadata → ApiResult String
  | none => .ok (trimText (binding.targetUrl.getD ""))
  | some metadata =>
      match connectionWebTarget lib metadata.externalPort "" with
      | none => .error (.badRequest "Machine port has no valid gateway listener")
      | some target => .ok target

def bindingRecord (state : State α) (owner : α) (binding : BindingInput) : ApiResult BindingRecord := do
  let connection ← bindingConnection ids state owner binding
  let targetUrl ← bindingTarget lib binding connection
  return {
    id := binding.id
    label := trimText binding.label
    targetMode := binding.targetMode
    targetUrl
    priority := binding.priority
    weight := binding.weight
    enabled := binding.enabled
    passHost := binding.passHost
    healthPath := binding.healthPath
    connection }

/-- Every route is validated as if it were enabled. -/
def validate (id : α) (record : Record α) : ApiResult Unit :=
  match renderWeb ids lib [(id, { record with enabled := true })] with
  | none => .error (.badRequest "Web route target must be a valid HTTP or HTTPS URL")
  | some config =>
      match lib.reloadError (settings.gatewayHosts lib) config with
      | some message => .error (.badRequest message)
      | none => .ok ()

def document (state : State α) (owner : α) (input : Input) (fresh : α) (now : Nat) :
    ApiResult (Record α) := do
  refuseIf (stripText input.name == "") (.badRequest "Route name is required")
  let records ← (input.bindings.getD []).mapM (bindingRecord ids lib state owner)
  let connection ← metadata ids state owner ((input.connectionDataId.map stripText).getD "")
  let plain : Record α := {
    userId := owner
    name := stripText input.name
    hosts := input.hosts
    targetMode := input.targetMode
    targetUrl := (input.targetUrl.map stripText).getD ""
    entryPoints := input.entryPoints
    enabled := input.enabled.getD true
    connection
    temporary := false
    createdAt := now
    bindings := none
    routing := none }
  let record := match records with
    | [] => plain
    | primary :: _ => { plain with
        targetUrl := primary.targetUrl
        connection := primary.connection
        bindings := some records
        routing := input.routing }
  validate ids lib settings fresh record
  return record

/-- Another route has one of the hosts. -/
def conflicts (state : State α) (hosts : List String) (exclude : Option α) : ApiResult Unit :=
  let existing := state.routes.entries.filter fun entry => some entry.1 != exclude
  let taken := (existing.flatMap fun entry => entry.2.hosts).filter hosts.contains
  let names := String.intercalate ", " (taken.eraseDups.mergeSort fun first second => first ≤ second)
  refuseIf (!taken.isEmpty) (.badRequest s!"Hosts already in use: {names}")

def addRoute (state : State α) (owner : α) (input : Input) (fresh : α) (now : Nat)
    (written : ApiResult Unit) : ApiResult (State α) := do
  let input ← parse ids lib input
  let candidate ← document ids lib settings state owner input fresh now
  conflicts state candidate.hosts none
  refuseIf (state.routes.contains fresh) (.badRequest "Hosts already in use")
  rebuildWeb ids lib settings { state with routes := state.routes.insert fresh candidate } written

def ownedRoute (state : State α) (owner : α) (id : String) : ApiResult (α × Record α) := do
  let id ← objectId ids id "Invalid traffic route id"
  let record ← owned state.routes Record.userId owner id (.badRequest "Traffic route not found")
  refuseIf record.temporary
    (.badRequest "Temporary agent proxies can only be stopped from the PortHub CLI")
  return (id, record)

def updateRoute (state : State α) (owner : α) (input : Input) (fresh : α) (now : Nat)
    (written : ApiResult Unit) : ApiResult (State α) := do
  let input ← parse ids lib input
  let (id, previous) ← ownedRoute ids state owner (input.dataId.getD "")
  refuseIf (previous.bindings.isSome && input.bindings.isNone)
    (.badRequest "This proxy uses multiple bindings; reload the editor before saving")
  let patch ← document ids lib settings state owner input fresh now
  -- A patch without bindings has no such field, and a stored one stays.
  let candidate := { patch with
    userId := previous.userId
    createdAt := previous.createdAt
    temporary := previous.temporary
    bindings := patch.bindings.or previous.bindings
    routing := if patch.bindings.isSome then patch.routing else previous.routing }
  conflicts state candidate.hosts (some id)
  rebuildWeb ids lib settings { state with routes := state.routes.insert id candidate } written

def deleteRoute (state : State α) (owner : α) (dataId : String) (written : ApiResult Unit) :
    ApiResult (State α) := do
  let (id, _) ← ownedRoute ids state owner dataId
  rebuildWeb ids lib settings { state with routes := state.routes.erase id } written

/-- One request with the answers that it gets from outside. -/
inductive Request (α : Type) where
  | saveConnection (owner : α) (input : ConnectionInput) (updating : Bool) (fresh : α)
      (applied : ApiResult Unit)
  | deleteConnection (owner : α) (dataId : String) (applied : ApiResult Unit)
  | addRoute (owner : α) (input : Input) (fresh : α) (now : Nat) (written : ApiResult Unit)
  | updateRoute (owner : α) (input : Input) (fresh : α) (now : Nat) (written : ApiResult Unit)
  | deleteRoute (owner : α) (dataId : String) (written : ApiResult Unit)

/-- The state that a successful request leaves. -/
def step (state : State α) : Request α → ApiResult (State α)
  | .saveConnection owner input updating fresh applied =>
      saveConnection ids settings state owner input updating fresh applied
  | .deleteConnection owner dataId applied => deleteConnection ids state owner dataId applied
  | .addRoute owner input fresh now written =>
      addRoute ids lib settings state owner input fresh now written
  | .updateRoute owner input fresh now written =>
      updateRoute ids lib settings state owner input fresh now written
  | .deleteRoute owner dataId written => deleteRoute ids lib settings state owner dataId written

end Requests

end PortHub.Api.TrafficRoutes
