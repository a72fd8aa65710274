import Mathlib.Data.List.Perm.Basic
import PortHub.Runtime.PublicAccess

/-! # Web routes

A configuration is validated route by route into a new snapshot, which replaces
the old one only when every route is accepted. The crates that read URLs,
authorities and verifiers are parameters. A pool of upstreams is shared: its number
tells whether two snapshots hold the same one.
-/

namespace PortHub.Runtime.Web

structure HealthSettings where
  enabled : Bool
  path : String
  intervalSeconds : Nat
  timeoutSeconds : Nat
  unhealthyAfter : Nat
  healthyAfter : Nat
  cooldownSeconds : Nat
  expectedStatusMin : Nat
  expectedStatusMax : Nat
  deriving DecidableEq, Repr

structure RoutingSettings where
  mode : Mode
  priorityPolicy : PriorityPolicy
  strategy : Strategy
  maxAttempts : Nat
  stickySessions : Bool
  health : HealthSettings
  responseTimeoutSeconds : Nat
  deriving DecidableEq, Repr

structure BindingSettings where
  id : String
  targetUrl : String
  passHost : Bool
  enabled : Bool
  priority : Nat
  weight : Nat
  healthPath : Option String
  deriving DecidableEq, Repr

structure Route where
  id : String
  hosts : List String
  targetUrl : String
  bindings : List BindingSettings
  routing : Option RoutingSettings
  passHost : Bool
  http : Bool
  https : Bool
  access : Option PublicAccess.Config
  deriving DecidableEq, Repr

/-- `Config`, by its routes. -/
abbrev Config := List Route

/-- The parts of a parsed URL that `HttpProxy::web` looks at. -/
structure WebUrl where
  scheme : String
  host : Option String
  username : String
  password : Option String

/-- The crates behind the validation and the reading of requests. -/
structure Libraries (β : Type) where
  access : PublicAccess.Library β
  parseUrl : String → Result WebUrl
  /-- `percent_decode_str(..).decode_utf8()`. -/
  percentDecode : String → Result String
  /-- `url.as_str().parse::<Uri>()`, without credentials and fragment. -/
  targetUri : WebUrl → Result Unit
  /-- `path.parse::<Uri>().is_ok()`. -/
  isUri : String → Bool
  /-- The host of `parse::<Authority>()`. -/
  authorityHost : List Char → Option String
  /-- The host of `request.uri().authority()`. -/
  uriHost : String → Option String

def HealthSettings.default : HealthSettings where
  enabled := true
  path := "/"
  intervalSeconds := 10
  timeoutSeconds := 3
  unhealthyAfter := 2
  healthyAfter := 2
  cooldownSeconds := 10
  expectedStatusMin := 200
  expectedStatusMax := 399

def RoutingSettings.default : RoutingSettings where
  mode := .priority
  priorityPolicy := .manual
  strategy := .roundRobin
  maxAttempts := 4
  stickySessions := false
  health := .default
  responseTimeoutSeconds := 310

/-- `(low..=high).contains(&n)`. -/
def within (low high n : Nat) : Bool := low ≤ n && n ≤ high

section Pools

variable {β : Type} (lib : Libraries β)

def HealthSettings.validate (health : HealthSettings) : Result Unit := do
  let path := health.path.toList
  ensure (path.head? == some '/' && path.take 2 != ['/', '/'] && Text.byteLen path ≤ 2048
    && !path.any ['\r', '\n', '#'].contains) "Health path must be a relative path starting with /"
  ensure (within 1 300 health.intervalSeconds) "Health interval must be 1–300 seconds"
  ensure (within 1 30 health.timeoutSeconds) "Health timeout must be 1–30 seconds"
  ensure (within 1 10 health.unhealthyAfter && within 1 10 health.healthyAfter)
    "Health thresholds must be 1–10 checks"
  ensure (within 1 300 health.cooldownSeconds) "Cooldown must be 1–300 seconds"
  ensure (within 200 599 health.expectedStatusMin && health.expectedStatusMin ≤ health.expectedStatusMax
    && health.expectedStatusMax ≤ 599) "Invalid healthy status range"
  ensure (lib.isUri health.path) "Invalid health path"

def RoutingSettings.validate (routing : RoutingSettings) : Result Unit := do
  routing.health.validate lib
  ensure (routing.mode != .priority || routing.priorityPolicy != .health || routing.health.enabled)
    "Health priority requires active health checks"
  ensure (within 1 128 routing.maxAttempts) "Attempt limit must be 1–128"
  ensure (within 1 310 routing.responseTimeoutSeconds) "Response timeout must be 1–310 seconds"

/-- `HttpProxy::web`: whether a target can be proxied. -/
def web (base : String) : Result Unit := do
  let url ← lib.parseUrl base
  ensure ((url.scheme == "http" || url.scheme == "https") && url.host.isSome)
    "web upstream must use HTTP or HTTPS"
  if !url.username.isEmpty || url.password.isSome then
    let _ ← lib.percentDecode url.username
    let _ ← lib.percentDecode (url.password.getD "")
  lib.targetUri url

/-- The gate of a route that has one; the salt does not decide whether it can be made. -/
def gate (id : String) (access : Option PublicAccess.Config) : Result Unit :=
  match access with
  | some config => (PublicAccess.Gate.new lib.access id config []).map fun _ => ()
  | none => .ok ()

def isIdentifier (id : List Char) : Bool :=
  !id.isEmpty && Text.byteLen id ≤ 80 && id.all fun c => c.isAlphanum || c == '-' || c == '_'

def checkHealthPath (routing : RoutingSettings) (binding : BindingSettings) : Result Unit :=
  match binding.healthPath with
  | some path => HealthSettings.validate lib { routing.health with path }
  | none => .ok ()

/-- The loop over the bindings, with the ids it has seen. -/
def checkBindings (routing : RoutingSettings) : List String → List BindingSettings → Result Unit
  | _, [] => .ok ()
  | seen, binding :: rest => do
      ensure (isIdentifier binding.id.toList && !seen.contains binding.id)
        "Binding IDs must be unique identifiers"
      ensure (within 1 10000 binding.priority && within 1 100 binding.weight)
        "Priority must be 1–10000 and weight 1–100"
      checkHealthPath lib routing binding
      web lib binding.targetUrl
      checkBindings routing (binding.id :: seen) rest

/-- What `Upstreams::new` checks. -/
def acceptable (id : String) (bindings : List BindingSettings) (routing : RoutingSettings)
    (access : Option PublicAccess.Config) : Result Unit := do
  routing.validate lib
  ensure (!bindings.isEmpty && bindings.length ≤ 128) "A proxy must contain 1–128 bindings"
  checkBindings lib routing [] bindings
  gate lib id access

def RoutingSettings.routing (settings : RoutingSettings) : Routing where
  mode := settings.mode
  priorityPolicy := settings.priorityPolicy
  strategy := settings.strategy
  maxAttempts := settings.maxAttempts
  stickySessions := settings.stickySessions
  health := {
    enabled := settings.health.enabled, unhealthyAfter := settings.health.unhealthyAfter
    healthyAfter := settings.health.healthyAfter, cooldownSeconds := settings.health.cooldownSeconds }

def BindingSettings.binding (settings : BindingSettings) : Binding :=
  ⟨settings.id, settings.enabled, settings.priority, settings.weight⟩

/-- One character of a route id in a cookie name; the others give one `_` per byte. -/
def cookieChar (c : Char) : List Char :=
  if c.isAlphanum then [c] else List.replicate c.utf8Size '_'

theorem checkBindings_distinct {routing seen bindings}
    (checked : checkBindings lib routing seen bindings = .ok ()) :
    (bindings.map BindingSettings.id).Nodup ∧ ∀ b ∈ bindings, b.id ∉ seen := by
  induction bindings generalizing seen with
  | nil => simp
  | cons binding rest ih =>
      obtain ⟨_, named, checked⟩ := bind_eq_ok.mp checked
      have checked := ok_of_then (ok_of_then (ok_of_then checked))
      obtain ⟨nodup, apart⟩ := ih checked
      have fresh : binding.id ∉ seen := by
        rw [ensure_eq_ok, Bool.and_eq_true] at named
        simpa using named.2
      refine ⟨?_, ?_⟩
      · rw [List.map_cons, List.nodup_cons]
        refine ⟨fun again => ?_, nodup⟩
        obtain ⟨other, member, same⟩ := List.mem_map.mp again
        exact apart other member (same ▸ List.mem_cons_self)
      · rw [List.forall_mem_cons]
        exact ⟨fresh, fun other member old => apart other member (List.mem_cons_of_mem _ old)⟩

/-- The invariants of a pool that was accepted. -/
theorem acceptable_ok {id bindings routing access}
    (accepted : acceptable lib id bindings routing access = .ok ()) :
    (1 ≤ routing.maxAttempts ∧ routing.maxAttempts ≤ 128) ∧
      (1 ≤ bindings.length ∧ bindings.length ≤ 128) ∧ (bindings.map BindingSettings.id).Nodup := by
  obtain ⟨_, valid, accepted⟩ := bind_eq_ok.mp accepted
  obtain ⟨_, sized, accepted⟩ := bind_eq_ok.mp accepted
  obtain ⟨_, checked, _⟩ := bind_eq_ok.mp accepted
  have valid := ok_of_then (ok_of_then valid)
  obtain ⟨_, attempts, _⟩ := bind_eq_ok.mp valid
  refine ⟨by simpa [within] using attempts, ?_, (checkBindings_distinct lib checked).1⟩
  simpa [List.length_pos_iff, Nat.succ_le_iff] using sized

/-- `Upstreams::new`: the bindings sorted by priority, in their order where it is equal. -/
def newPool (id : String) (bindings : List BindingSettings) (routing : RoutingSettings)
    (access : Option PublicAccess.Config) : Result Upstreams :=
  match accepted : acceptable lib id bindings routing access with
  | .error message => .error message
  | .ok () =>
      let sorted := (bindings.map BindingSettings.binding).mergeSort fun a b => a.priority ≤ b.priority
      have same : sorted.Perm (bindings.map BindingSettings.binding) := List.mergeSort_perm _ _
      .ok {
        config := routing.routing
        bindings := sorted
        cookieName := String.ofList ("ph_upstream_".toList ++ id.toList.flatMap cookieChar)
        attempts := (acceptable_ok lib accepted).1
        sized := by
          rw [same.length_eq, List.length_map]
          exact (acceptable_ok lib accepted).2.1
        distinct := by
          rw [(same.map Binding.id).nodup_iff, List.map_map]
          exact (acceptable_ok lib accepted).2.2 }

end Pools

/-- A pool with the number that tells it from the others. -/
structure Shared where
  number : Nat
  pool : Upstreams

structure Prepared where
  route : Route
  proxy : Shared

structure Snapshot where
  byId : Dict String Prepared
  hosts : Dict String Prepared

inductive Selection where
  | proxy (pool : Shared)
  | disabled
  | unmatched

/-- The routes behind some gateway hosts; `next` is the number of the next new pool. -/
structure WebRoutes where
  snapshot : Snapshot
  gateways : List String
  next : Nat

def lowercase (text : String) : String := String.ofList (Text.toAsciiLowercase text.toList)

def WebRoutes.withGatewayHosts (hosts : List String) : WebRoutes where
  snapshot := ⟨Dict.empty, Dict.empty⟩
  gateways := hosts.map lowercase
  next := 0

def validLabel (label : List Char) : Bool :=
  !label.isEmpty && Text.byteLen label ≤ 63 && label.head? != some '-' && label.getLast? != some '-'
    && label.all fun c => c.isAlphanum || c == '-'

def validHost (host : String) : Bool :=
  !host.toList.isEmpty && Text.byteLen host.toList ≤ 253 && (host.toList.splitOn '.').all validLabel

/-- `host.trim().to_ascii_lowercase()`. -/
def normalHost (host : String) : String := lowercase (String.ofList (Text.trim host.toList))

/-- A route with its hosts in their normal form, each once. -/
def Route.normalized (route : Route) : Route :=
  { route with hosts := (route.hosts.map normalHost).eraseDups }

def Snapshot.add (snapshot : Snapshot) (prepared : Prepared) : Snapshot where
  byId := snapshot.byId.insert prepared.route.id prepared
  hosts := prepared.route.hosts.foldl (fun hosts host => hosts.insert host prepared) snapshot.hosts

section Reloading

variable {β : Type} (lib : Libraries β)

/-- A route without bindings has one target and only passive health checks. -/
def Route.upstreams (route : Route) : List BindingSettings × RoutingSettings :=
  let routing := route.routing.getD .default
  if route.bindings.isEmpty then
    ([⟨"primary", route.targetUrl, route.passHost, true, 1, 1, none⟩],
      { routing with health := { routing.health with enabled := false } })
  else (route.bindings, routing)

/-- Keep the pool of a route that did not change, or make a new one. -/
def prepare (previous : Snapshot) (route : Route) (next : Nat) : Result (Prepared × Nat) :=
  match (previous.byId.get? route.id).filter fun old => old.route == route with
  | some old => .ok (old, next)
  | none => do
      let (bindings, routing) := route.upstreams
      let pool ← newPool lib route.id bindings routing route.access
      return (⟨route, next, pool⟩, next + 1)

def checkHosts (gateways : List String) (taken : Dict String Prepared) : List String → Result Unit
  | [] => .ok ()
  | host :: rest => do
      ensure (validHost host) "invalid web route host"
      ensure (!gateways.contains host) "web route conflicts with the gateway domain"
      ensure (!taken.contains host) "duplicate web route host"
      checkHosts gateways taken rest

/-- The loop of `reload` over the routes. -/
def load (gateways : List String) (previous : Snapshot) :
    Config → Snapshot → Nat → Result (Snapshot × Nat)
  | [], built, next => .ok (built, next)
  | route :: rest, built, next => do
      ensure (!route.id.toList.isEmpty && Text.byteLen route.id.toList ≤ 128)
        "web route ID must contain 1 to 128 bytes"
      ensure (!built.byId.contains route.id) "duplicate web route ID"
      ensure (!route.hosts.isEmpty) "web route must have hosts"
      checkHosts gateways built.hosts route.normalized.hosts
      let (prepared, next) ← prepare lib previous route.normalized next
      load gateways previous rest (built.add prepared) next

def WebRoutes.reload (web : WebRoutes) (config : Config) : Result WebRoutes := do
  let (snapshot, next) ← load lib web.gateways web.snapshot config ⟨Dict.empty, Dict.empty⟩ web.next
  return { web with snapshot, next }

/-- The host of a request, as it was written. -/
def requestHost (request : Request β) : Option String :=
  (((request.headers.get? "host").bind HeaderValue.toStr).bind lib.authorityHost).or
    (lib.uriHost request.uri)

/-- A host without its trailing dots, in lower case. -/
def bare (host : String) : String := lowercase (String.ofList (Text.trimEnd '.' host.toList))

def isBracket (c : Char) : Bool := c == '[' || c == ']'

/-- An address, in brackets or not. -/
def isAddress (host : String) : Bool :=
  IpText.isIpAddr ((host.toList.dropWhile isBracket).rdropWhile isBracket)

/-- `select`, without the record of the activity. -/
def WebRoutes.select (web : WebRoutes) (request : Request β) (secure : Bool) : Selection :=
  match requestHost lib request with
  | none => .unmatched
  | some authority =>
      let host := bare authority
      match web.snapshot.hosts.get? host with
      | none =>
          if web.gateways.contains host || host == "localhost" || isAddress host then .unmatched
          else .disabled
      | some prepared =>
          if (secure && prepared.route.https) || (!secure && prepared.route.http) then
            .proxy prepared.proxy
          else .disabled

end Reloading

end PortHub.Runtime.Web
