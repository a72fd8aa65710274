import Mathlib.Algebra.Ring.Int.Defs
import PortHub.Lib.Dict
import PortHub.Runtime.Http

/-! # Upstream selection and retries

A pool of bindings with its routing is immutable and valid by construction. What
changes is kept per binding in `Live`. One call of `forwardWithSecurity` sends the
request to candidates in turn: the answers of the upstreams, the clocks and the
access gate are its inputs.
-/

namespace PortHub.Runtime

inductive Strategy where
  | roundRobin
  | weightedRoundRobin
  | leastConnections
  deriving DecidableEq, Repr

inductive Mode where
  | priority
  | balance
  deriving DecidableEq, Repr

inductive PriorityPolicy where
  | manual
  | health
  deriving DecidableEq, Repr

/-- The fields of `HealthConfig` that a forwarded request reads. -/
structure HealthConfig where
  enabled : Bool
  unhealthyAfter : Nat
  healthyAfter : Nat
  cooldownSeconds : Nat
  deriving DecidableEq, Repr

structure Routing where
  mode : Mode
  priorityPolicy : PriorityPolicy
  strategy : Strategy
  maxAttempts : Nat
  stickySessions : Bool
  health : HealthConfig
  deriving DecidableEq, Repr

structure Binding where
  id : String
  enabled : Bool
  priority : Nat
  weight : Nat
  deriving DecidableEq, Repr

/-- A configuration that `new` accepted; the bindings are sorted by priority. -/
structure Upstreams where
  config : Routing
  bindings : List Binding
  cookieName : String
  attempts : 1 ≤ config.maxAttempts ∧ config.maxAttempts ≤ 128
  sized : 1 ≤ bindings.length ∧ bindings.length ≤ 128
  distinct : (bindings.map Binding.id).Nodup

structure Health where
  down : Bool
  successes : Nat
  failures : Nat
  checked : Bool
  retryAt : Nat
  checkedAt : Option Int
  latency : Option Nat
  status : Option Nat
  error : Option String
  deriving DecidableEq, Repr

/-- What changes while requests are served. -/
structure Live where
  health : String → Health
  requests : String → Nat
  failures : String → Nat
  active : String → Nat
  cursor : Nat
  weighted : Dict String Int

inductive ForwardError where
  | transport
  | responseTimeout
  deriving DecidableEq, Repr

def ForwardError.reason : ForwardError → String
  | .transport => "connection_error"
  | .responseTimeout => "response_timeout"

/-- `AtomicU64::fetch_add(1)`. -/
def increment (n : Nat) : Nat := (n + 1) % 2 ^ 64

def saturatingSucc (n : Nat) : Nat := min (n + 1) (2 ^ 32 - 1)

/-- `list.swap(0, pick)`. -/
def swapFront {α : Type} (list : List α) (pick : Nat) : List α :=
  match list[0]?, list[pick]? with
  | some first, some chosen => (list.set pick first).set 0 chosen
  | _, _ => list

/-- One round of smooth weighted round robin: the scores, the total weight, and
    the best index with its score. -/
structure Round where
  scores : Dict String Int
  total : Int
  best : Nat
  bestScore : Int

def Round.add (round : Round) (binding : Binding) (index : Nat) : Round :=
  let score := (round.scores.get? binding.id).getD 0 + binding.weight
  let scores := round.scores.insert binding.id score
  let total := round.total + binding.weight
  if round.bestScore < score then ⟨scores, total, index, score⟩
  else ⟨scores, total, round.best, round.bestScore⟩

/-- `min_by_key`: the first index with the least key. -/
def minByKey (key : Nat → Nat) : List Nat → Option Nat
  | [] => none
  | n :: rest =>
      match minByKey key rest with
      | some other => if key other < key n then some other else some n
      | none => some n

namespace Upstreams

variable (pool : Upstreams)

/-- `filter(enabled).count()`. -/
def enabledCount : Nat := (pool.bindings.filter Binding.enabled).length

def passiveSingle : Bool :=
  !pool.config.health.enabled && ((pool.bindings.filter Binding.enabled).take 2).length == 1

/-- The test of `candidates` on one binding. -/
def usable (live : Live) (now : Nat) (excluded : List String) (binding : Binding) : Bool :=
  let health := live.health binding.id
  binding.enabled && !excluded.contains binding.id
    && (pool.passiveSingle || !health.down
      || (!pool.config.health.enabled && decide (health.retryAt ≤ now)))

/-- The index that the strategy picks in a list that is not empty. -/
def pick (live : Live) (list : List Binding) : Nat × Live :=
  match pool.config.strategy with
  | .roundRobin =>
      (live.cursor % list.length, { live with cursor := increment live.cursor })
  | .weightedRoundRobin =>
      let scores := live.weighted.retain fun id _ => list.any fun binding => binding.id == id
      let round := list.zipIdx.foldl (fun round entry => round.add entry.1 entry.2)
        (⟨scores, 0, 0, -(2 ^ 63)⟩ : Round)
      let scores :=
        match list[round.best]? with
        | some binding =>
            round.scores.insert binding.id
              ((round.scores.get? binding.id).getD 0 - round.total)
        | none => round.scores
      (round.best, { live with weighted := scores })
  | .leastConnections =>
      let start := live.cursor % list.length
      let order := (List.range list.length).map fun n => (start + n) % list.length
      let active := fun n => ((list[n]?).map fun binding => live.active binding.id).getD 0
      ((minByKey active order).getD 0, { live with cursor := increment live.cursor })

def candidates (live : Live) (now : Nat) (excluded : List String) (sticky : Option String) :
    List Binding × Live :=
  let list := pool.bindings.filter (pool.usable live now excluded)
  if list.isEmpty then (list, live)
  else
    match pool.config.mode with
    | .priority =>
        match pool.config.priorityPolicy with
        | .manual => (list, live)
        | .health =>
            let key := fun binding : Binding =>
              let health := live.health binding.id
              (health.failures, health.latency.getD (2 ^ 64 - 1))
            (list.mergeSort fun a b =>
              (key a).1 < (key b).1 || ((key a).1 == (key b).1 && (key a).2 ≤ (key b).2), live)
    | .balance =>
        match sticky.bind fun id => list.findIdx? fun binding => binding.id == id with
        | some index => (swapFront list index, live)
        | none =>
            let (index, live) := pool.pick live list
            (swapFront list index, live)

def outcome (live : Live) (id : String) (success : Bool) (status : Option Nat) (latency : Nat)
    (probe : Bool) (reason : Option String) (now : Nat) (wall : Int) : Live :=
  let health := live.health id
  let average := (health.latency.map fun previous => (min (previous * 3) (2 ^ 64 - 1) + latency) / 4)
  let health := {
    health with
    checked := true, checkedAt := some wall, status
    latency := if probe then some (average.getD latency) else health.latency }
  if success then
    let successes := saturatingSucc health.successes
    let up := !health.down || !probe || decide (pool.config.health.healthyAfter ≤ successes)
    let health := {
      health with failures := 0, successes, error := none, down := if up then false else health.down }
    { live with health := Function.update live.health id health }
  else
    let failures := saturatingSucc health.failures
    let error := reason.getD (if status.isSome then "unexpected_status" else "connection_or_timeout")
    let health := { health with successes := 0, failures, error := some error }
    let health :=
      if !probe || decide (pool.config.health.unhealthyAfter ≤ failures) then
        { health with down := true, retryAt := now + seconds pool.config.health.cooldownSeconds }
      else health
    { live with
      health := Function.update live.health id health
      failures :=
        if probe then live.failures
        else Function.update live.failures id (increment (live.failures id)) }

end Upstreams

def Live.applicationError (live : Live) (id : String) (status : Nat) (wall : Int) : Live :=
  let health := live.health id
  let health := {
    health with
    checked := true, checkedAt := some wall, status := some status
    error := some "upstream_response" }
  { live with
    health := Function.update live.health id health
    failures := Function.update live.failures id (increment (live.failures id)) }

/-- The lease on a binding is taken, and the request counted. -/
def Live.start (live : Live) (id : String) : Live :=
  { live with
    requests := Function.update live.requests id (increment (live.requests id))
    active := Function.update live.active id (live.active id + 1) }

def Live.release (live : Live) (id : String) : Live :=
  { live with active := Function.update live.active id (live.active id - 1) }

/-- The value of the affinity cookie. -/
def stickyCookie (headers : Headers) (name : String) : Option String := do
  let text ← HeaderValue.toStr (← headers.get? "cookie")
  (text.splitOn ';').findSome? fun part => do
    let (key, value) ← Text.splitOnce '=' (Text.trim part)
    if String.ofList key == name then some (String.ofList value) else none

/-- The parts of the readable cookie headers. -/
def cookieParts (headers : Headers) : List (List Char) :=
  (((headers.getAll "cookie").filterMap HeaderValue.toStr).flatMap (·.splitOn ';')).map Text.trim

def stripCookie (headers : Headers) (name : String) : Headers :=
  let kept := (cookieParts headers).filter fun part =>
    !(Text.splitOnce '=' part).any fun pair => String.ofList pair.1 == name
  let value := [';', ' '].intercalate kept
  let headers := headers.remove "cookie"
  if value.isEmpty then headers else headers.insert "cookie" (HeaderValue.ofText value)

/-- The readings of the clocks during a call. Instants do not go back. -/
structure Clock where
  instant : Nat → Nat
  wall : Nat → Int
  monotone : ∀ {m n}, m ≤ n → instant m ≤ instant n

/-- How a call ends: with a response, or by taking a body that is gone. -/
inductive Reply (β : Type) where
  | response (response : Response β)
  | panicked

/-- A call's reply, what it sent in order, and the state it leaves. -/
structure Served (β : Type) where
  reply : Reply β
  sent : List (String × Request β)
  live : Live

def Served.prepend {β : Type} (sent : String × Request β) (rest : Served β) : Served β :=
  { rest with sent := sent :: rest.sent }

section Forward

variable {β : Type} (bodies : Bodies β) (pool : Upstreams)

def unavailable : Response β :=
  ⟨503, [("retry-after", HeaderValue.ofText ['5'])],
    bodies.text "No healthy upstream is available"⟩

def failedStatus (status : Nat) : Bool := status == 502 || status == 503 || status == 504

def replayable (request : Request β) : Bool :=
  (request.method == .get || request.method == .head) && bodies.isEndStream request.body
    && !request.headers.containsKey "upgrade"

/-- The response as it is returned, with the affinity cookie. -/
def returned (secure : Bool) (id : String) (response : Response β) : Response β :=
  if pool.config.stickySessions && pool.config.mode == .balance then
    let value := s!"{pool.cookieName}={id}; Path=/; HttpOnly; SameSite=Lax; Max-Age=86400"
      ++ if secure then "; Secure" else ""
    { response with headers := response.headers.append "set-cookie" (HeaderValue.ofText value.toList) }
  else response

/-- Record the answer of an upstream. -/
def settle (live : Live) (id : String) (status latency now : Nat) (wall : Int) : Live :=
  let failed := failedStatus status
  if failed && ((pool.bindings.filter Binding.enabled).take 2).length == 1 then
    live.applicationError id status wall
  else pool.outcome live id (!failed) (some status) latency false none now wall

/-- The inputs of a call that stay the same over its attempts. -/
structure Call (β : Type) where
  request : Request β
  secure : Bool
  sticky : Option String
  clock : Clock
  outcomes : Nat → Except ForwardError (Response β)

/-- The request that is sent to an upstream. -/
def Call.outgoing (call : Call β) (body : β) : Request β :=
  { call.request with
    body
    headers :=
      if pool.config.stickySessions then stripCookie call.request.headers pool.cookieName
      else call.request.headers }

/-- The loop over the attempts, with the number of those that remain. -/
def attempts (call : Call β) : Nat → Nat → List String → Option β → Live → Served β
  | 0, _, _, _, live => ⟨.response (unavailable bodies), [], live⟩
  | remaining + 1, attempt, excluded, body, live =>
      match pool.candidates live (call.clock.instant (4 * attempt)) excluded call.sticky with
      | ([], live) => ⟨.response (unavailable bodies), [], live⟩
      | (binding :: _, live) =>
          let id := binding.id
          let excluded := id :: excluded
          let live := live.start id
          let started := call.clock.instant (4 * attempt + 1)
          let now := call.clock.instant (4 * attempt + 2)
          let latency := (now - started) / 1000000
          let wall := call.clock.wall attempt
          let replay := replayable bodies call.request
          -- `if replayable { Body::empty() } else { body.take().unwrap() }`
          match if replay then some bodies.empty else body with
          | none => ⟨.panicked, [], live⟩
          | some taken =>
              let body := if replay then body else none
              let sent := (id, call.outgoing pool taken)
              match call.outcomes attempt with
              | .ok response =>
                  let live := settle pool live id response.status latency now wall
                  let (more, live) :=
                    if failedStatus response.status && replay then
                      let (list, live) := pool.candidates live
                        (call.clock.instant (4 * attempt + 3)) excluded none
                      (!list.isEmpty, live)
                    else (false, live)
                  if more then
                    (attempts call remaining (attempt + 1) excluded body (live.release id)).prepend
                      sent
                  else ⟨.response (returned pool call.secure id response), [sent], live⟩
              | .error error =>
                  let live := pool.outcome live id false none latency false (some error.reason) now wall
                  let live := live.release id
                  if !replay then ⟨.response (unavailable bodies), [sent], live⟩
                  else
                    -- `attempt + 1 < attempts` is that some attempt remains
                    let excluded :=
                      if pool.passiveSingle && error == .transport && remaining != 0 then
                        excluded.filter (· != id)
                      else excluded
                    (attempts call remaining (attempt + 1) excluded body live).prepend sent

/-- The number of attempts a call may make. -/
def budget : Nat :=
  min (if pool.passiveSingle then 2 else pool.bindings.length) pool.config.maxAttempts

/-- The request that passed the gate, or the response of the gate. -/
def authorize (gate : Option (Request β → Except (Response β) (Request β))) (request : Request β) :
    Except (Response β) (Request β) :=
  match gate with
  | some check => check request
  | none => .ok request

def forwardWithSecurity (gate : Option (Request β → Except (Response β) (Request β)))
    (request : Request β) (secure : Bool) (clock : Clock)
    (outcomes : Nat → Except ForwardError (Response β)) (live : Live) : Served β :=
  match authorize gate request with
  | .error response => ⟨.response response, [], live⟩
  | .ok request =>
      let sticky :=
        if pool.config.stickySessions then stickyCookie request.headers pool.cookieName else none
      attempts bodies pool ⟨request, secure, sticky, clock, outcomes⟩ (budget pool) 0 []
        (some request.body) live

end Forward

end PortHub.Runtime
