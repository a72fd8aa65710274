import PortHub.Runtime.Upstreams

/-! # The access gate of public listeners

A request is let through with a session of the gate or with a credential that the
verifier accepts. Calls of `authorize` run concurrently: a `Visit` is one call and
its stage says where it stands, so one action is one critical section or one wait
that ends. The verifier, the digest, the form parser and the page are parameters.
-/

namespace PortHub.Runtime.PublicAccess

open PortHub.Runtime

/-- What the gate takes from other crates and from its assets. -/
structure Library (β : Type) where
  bodies : Bodies β
  /-- `Uri::path`. -/
  path : String → String
  /-- `form_urlencoded::parse`. -/
  form : List UInt8 → List (String × String)
  sha256 : List UInt8 → List UInt8
  /-- `HashParts::from_str` and its cost. -/
  cost : String → Result Nat
  /-- `bcrypt::verify`, where an error counts as a refusal. -/
  verify : String → String → Bool
  /-- `assets/access.html`. -/
  page : String

structure Config where
  verifier : String
  pin : Bool
  deriving DecidableEq, Repr

/-- What does not change while a gate lives. -/
structure Gate where
  config : Config
  cookie : String
  credentialSalt : List UInt8

def maxSessions : Nat := 4096

def maxWaiting : Nat := 64

def sessionLength : Nat := seconds (8 * 3600)

section Responses

variable {β : Type} (library : Library β)

def response (status : Nat) (message : String) : Response β where
  status
  headers := [("cache-control", HeaderValue.ofText "no-store".toList),
    ("content-type", HeaderValue.ofText "text/plain; charset=utf-8".toList),
    ("x-content-type-options", HeaderValue.ofText "nosniff".toList)]
  body := library.bodies.text message

def accessPage (nonce : String) (pin : Bool) (error : String) : Response β where
  status := 401
  headers := [("cache-control", HeaderValue.ofText "no-store".toList),
    ("content-type", HeaderValue.ofText "text/html; charset=utf-8".toList),
    ("x-content-type-options", HeaderValue.ofText "nosniff".toList),
    ("referrer-policy", HeaderValue.ofText "no-referrer".toList),
    ("content-security-policy", HeaderValue.ofText ("default-src 'none'; style-src 'nonce-" ++ nonce
      ++ "'; form-action 'self'; frame-ancestors 'none'; base-uri 'none'").toList)]
  body := library.bodies.text
    (((((library.page.replace "\x7b\x7bnonce\x7d\x7d" nonce).replace "\x7b\x7blabel\x7d\x7d"
      (if pin then "Six-digit PIN" else "API key")).replace "\x7b\x7bdescription\x7d\x7d"
      (if pin then "six-digit PIN" else "API key")).replace "\x7b\x7binput\x7d\x7d"
      (if pin then
        "inputmode=\"numeric\" pattern=\"[0-9]\x7b6\x7d\" minlength=\"6\" maxlength=\"6\""
      else "maxlength=\"72\"")).replace "\x7b\x7berror\x7d\x7d" error)

def prompt (nonce : String) (pin : Bool) : Response β := accessPage library nonce pin ""

/-- The refusal of a credential. -/
def rejected (nonce : String) (pin login : Bool) : Response β :=
  if login then accessPage library nonce pin "That credential was not accepted. Please try again."
  else response library 401 "Access denied"

/-- The answer to a login. -/
def welcome (cookie token : String) (secure : Bool) : Response β :=
  let granted := response library 303 "Access granted"
  let value := cookie ++ "=" ++ token ++ "; Path=/; HttpOnly; SameSite=Strict; Max-Age=28800"
    ++ (if secure then "; Secure" else "")
  { granted with
    headers := (Headers.insert granted.headers "location" (HeaderValue.ofText "/".toList)).insert
      "set-cookie" (HeaderValue.ofText value.toList) }

end Responses

section Headers

/-- `HeaderValue::from_str`. -/
def parseValue (text : List Char) : Option HeaderValue :=
  if text.all fun c => c.toNat == 9 || (32 ≤ c.toNat && c.toNat < 127) then
    some (HeaderValue.ofText text)
  else none

/-- One part of a cookie header. -/
def readCookie (cookie : String) (sessions : Dict String Nat) (found : Bool × List (List Char))
    (part : List Char) : Bool × List (List Char) :=
  match Text.splitOnce '=' part with
  | some (name, value) =>
      if String.ofList name == cookie then
        (found.1 || sessions.contains (String.ofList value), found.2)
      else (found.1, found.2 ++ [part])
  | none => found

/-- The loop over the cookies: whether one of them is a session, and the others. -/
def readCookies (cookie : String) (sessions : Dict String Nat) (headers : Headers) :
    Bool × List (List Char) :=
  (cookieParts headers).foldl (readCookie cookie sessions) (false, [])

def setCookies (headers : Headers) (remaining : List (List Char)) : Headers :=
  let headers := headers.remove "cookie"
  if remaining.isEmpty then headers
  else
    match parseValue ([';', ' '].intercalate remaining) with
    | some value => headers.insert "cookie" value
    | none => headers

/-- The gate header, when its first value is readable. -/
def supplied (headers : Headers) : Option String :=
  ((headers.get? "x-porthub-key").bind HeaderValue.toStr).map String.ofList

def bearer (headers : Headers) : Option String := do
  let text ← HeaderValue.toStr (← headers.get? "authorization")
  let (scheme, value) ← Text.splitOnce ' ' text
  if Text.toAsciiLowercase scheme == "bearer".toList && !value.isEmpty then
    some (String.ofList value)
  else none

end Headers

/-- How the body of a login arrives. -/
inductive BodyRead where
  | timedOut
  | failed
  | bytes (bytes : List UInt8)

/-- Where a call of `authorize` stands. -/
inductive Stage where
  | arrived
  | reading
  | checking (credential : String)
  | missed (credential : String)
  /-- A waiter for the permit to verify. -/
  | queued (credential : String)
  | permitted (credential : String)
  | verifying (credential : String)
  /-- The verifier accepted it. -/
  | valid (credential : String)
  | granted (credential : String)

structure Visit (β : Type) where
  request : Request β
  secure : Bool
  now : Nat
  login : Bool
  consumesAuthorization : Bool
  stage : Stage

structure System (β : Type) where
  sessions : Dict String Nat
  verified : Option (List UInt8)
  waiting : Nat
  verifying : Nat
  /-- Verifications of calls that were dropped. -/
  orphans : Nat
  visits : Dict Nat (Visit β)
  nextVisit : Nat
  time : Nat

def System.initial {β : Type} : System β := ⟨.empty, none, maxWaiting, 1, 0, .empty, 0, 0⟩

inductive Action (β : Type) where
  | arrive (elapsed : Nat) (request : Request β) (secure : Bool)
  | scan (visit : Nat) (nonce : String)
  | read (visit : Nat) (outcome : BodyRead) (nonce : String)
  | check (visit : Nat)
  | wait (visit : Nat)
  | permit (visit : Nat)
  | expire (visit : Nat)
  | recheck (visit : Nat)
  | verify (visit : Nat) (joined : Bool) (nonce : String)
  | store (visit : Nat)
  | finish (visit : Nat) (token : String)
  | leave (visit : Nat)
  | settle

inductive Output (β : Type) where
  | none
  | arrived (visit now : Nat)
  | passed (visit : Nat) (request : Request β)
  | refused (visit : Nat) (response : Response β)
  | issued (visit : Nat) (token : String) (expires : Nat) (response : Response β)

section Gate

variable {β : Type} (library : Library β) (gate : Gate)

def Gate.new (id : String) (config : Config) (salt : List UInt8) : Result Gate := do
  let cost ← library.cost config.verifier
  ensure (decide (10 ≤ cost) && decide (cost ≤ 14)) "invalid access verifier cost"
  let digest := library.sha256 (utf8 id)
  let name := "porthub_access_".toList ++ (digest.take 8).flatMap Hex.lower
  return ⟨config, String.ofList name, salt⟩

/-- The salted digest of a credential. -/
def digest (credential : String) : List UInt8 :=
  library.sha256 (gate.credentialSalt ++ utf8 credential)

/-- The key that a login form carries. -/
def loginKey (bytes : List UInt8) : Option String :=
  ((library.form bytes).find? fun field => field.1 == "key").map Prod.snd

/-- A credential that is not worth a verification. -/
def malformed (credential : String) : Bool :=
  let bytes := utf8 credential
  bytes.isEmpty || decide (72 < bytes.length)
    || (gate.config.pin && (bytes.length != 6 || !bytes.all fun byte => 48 ≤ byte && byte ≤ 57))

namespace System

variable (system : System β)

def put (number : Nat) (visit : Visit β) : System β :=
  { system with visits := system.visits.insert number visit }

def drop (number : Nat) : System β := { system with visits := system.visits.erase number }

def refuse (number : Nat) (response : Response β) : System β × Output β :=
  (system.drop number, .refused number response)

/-- Both permits are given back. -/
def giveBack : System β :=
  { system with waiting := system.waiting + 1, verifying := system.verifying + 1 }

/-- A visit goes on with the credential it presents. -/
def present (number : Nat) (visit : Visit β) (credential : Option String) (nonce : String) :
    System β × Output β :=
  match credential with
  | none => system.refuse number (prompt library nonce gate.config.pin)
  | some credential =>
      if malformed gate credential then
        system.refuse number (rejected library nonce gate.config.pin visit.login)
      else (system.put number { visit with stage := .checking credential }, .none)

def cached (credential : String) : Bool :=
  system.verified.any fun known => known == digest library gate credential

/-- The start of a call, up to its first wait. -/
def scan (number : Nat) (visit : Visit β) (nonce : String) : System β × Output β :=
  let sessions := system.sessions.retain fun _ expiry => visit.now < expiry
  let (sessionOk, remaining) := readCookies gate.cookie sessions visit.request.headers
  let headers := setCookies visit.request.headers remaining
  let supplied := supplied headers
  let request := { visit.request with headers := headers.remove "x-porthub-key" }
  let login := library.path request.uri == "/_porthub/access" && request.method == .other "POST"
  let system := { system with sessions }
  if sessionOk && !login then (system.drop number, .passed number request)
  else
    let bearer := if supplied.isNone && !login then bearer request.headers else none
    let visit := { visit with request, login, consumesAuthorization := bearer.isSome }
    if login then
      let request := { request with body := library.bodies.empty }
      (system.put number { visit with request, stage := .reading }, .none)
    else system.present library gate number visit (supplied.or bearer) nonce

def read (number : Nat) (visit : Visit β) (outcome : BodyRead) (nonce : String) :
    System β × Output β :=
  match outcome with
  | .timedOut => system.refuse number (response library 408 "Access request timed out")
  | .failed => system.refuse number (response library 400 "Invalid access request")
  | .bytes bytes => system.present library gate number visit (loginKey library bytes) nonce

/-- The end of a call whose credential is accepted. -/
def finish (number : Nat) (visit : Visit β) (token : String) : System β × Output β :=
  if visit.login then
    if maxSessions ≤ system.sessions.len then
      system.refuse number (response library 429 "Session limit reached")
    else
      let expires := visit.now + sessionLength
      ({ system.drop number with sessions := system.sessions.insert token expires },
        .issued number token expires (welcome library gate.cookie token visit.secure))
  else
    let headers :=
      if visit.consumesAuthorization then Headers.remove visit.request.headers "authorization"
      else visit.request.headers
    (system.drop number, .passed number { visit.request with headers })

/-- One action of a visit at its stage; an action that does not fit does nothing. -/
def visitStep (number : Nat) (visit : Visit β) : Action β → System β × Output β
  | .scan _ nonce =>
      match visit.stage with
      | .arrived => system.scan library gate number visit nonce
      | _ => (system, .none)
  | .read _ outcome nonce =>
      match visit.stage with
      | .reading => system.read library gate number visit outcome nonce
      | _ => (system, .none)
  | .check _ =>
      match visit.stage with
      | .checking credential =>
          let stage :=
            if system.cached library gate credential then .granted credential else .missed credential
          (system.put number { visit with stage }, .none)
      | _ => (system, .none)
  | .wait _ =>
      match visit.stage with
      | .missed credential =>
          if system.waiting = 0 then
            system.refuse number (response library 429 "Try again shortly")
          else
            ({ system with waiting := system.waiting - 1 }.put number
              { visit with stage := .queued credential }, .none)
      | _ => (system, .none)
  | .permit _ =>
      match visit.stage with
      | .queued credential =>
          if system.verifying = 0 then (system, .none)
          else
            ({ system with verifying := system.verifying - 1 }.put number
              { visit with stage := .permitted credential }, .none)
      | _ => (system, .none)
  | .expire _ =>
      match visit.stage with
      | .queued _ =>
          { system with waiting := system.waiting + 1 }.refuse number
            (response library 429 "Try again shortly")
      | _ => (system, .none)
  | .recheck _ =>
      match visit.stage with
      | .permitted credential =>
          if system.cached library gate credential then
            (system.giveBack.put number { visit with stage := .granted credential }, .none)
          else (system.put number { visit with stage := .verifying credential }, .none)
      | _ => (system, .none)
  | .verify _ joined nonce =>
      match visit.stage with
      | .verifying credential =>
          if !joined then
            system.giveBack.refuse number (response library 503 "Access verification unavailable")
          else if library.verify credential gate.config.verifier then
            (system.put number { visit with stage := .valid credential }, .none)
          else
            system.giveBack.refuse number (rejected library nonce gate.config.pin visit.login)
      | _ => (system, .none)
  | .store _ =>
      match visit.stage with
      | .valid credential =>
          let system := { system.giveBack with verified := some (digest library gate credential) }
          (system.put number { visit with stage := .granted credential }, .none)
      | _ => (system, .none)
  | .finish _ token =>
      match visit.stage with
      | .granted _ => system.finish library gate number visit token
      | _ => (system, .none)
  | .leave _ =>
      -- the caller goes away where the call waits
      match visit.stage with
      | .reading => (system.drop number, .none)
      | .queued _ => ({ system with waiting := system.waiting + 1 }.drop number, .none)
      | .verifying _ =>
          ({ system with waiting := system.waiting + 1, orphans := system.orphans + 1 }.drop number,
            .none)
      | _ => (system, .none)
  | .arrive .. | .settle => (system, .none)

end System

/-- The visit that an action is about. -/
def Action.visit : Action β → Option Nat
  | .arrive .. | .settle => none
  | .scan visit _ | .read visit _ _ | .check visit | .wait visit | .permit visit | .expire visit
  | .recheck visit | .verify visit _ _ | .store visit | .finish visit _ | .leave visit => some visit

/-- An action of a visit that is there. -/
def System.visited (system : System β) (action : Action β) : System β × Output β :=
  match action.visit with
  | none => (system, .none)
  | some number =>
      match system.visits.get? number with
      | none => (system, .none)
      | some visit => system.visitStep library gate number visit action

def System.step (system : System β) (action : Action β) : System β × Output β :=
  match action with
  | .arrive elapsed request secure =>
      let now := system.time + elapsed
      ({ system with
          time := now
          visits := system.visits.insert system.nextVisit
            ⟨request, secure, now, false, false, .arrived⟩
          nextVisit := system.nextVisit + 1 },
        .arrived system.nextVisit now)
  | .settle =>
      if system.orphans = 0 then (system, .none)
      else
        ({ system with orphans := system.orphans - 1, verifying := system.verifying + 1 }, .none)
  | action => system.visited library gate action

end Gate

end PortHub.Runtime.PublicAccess
