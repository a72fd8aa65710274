import PortHub.Runtime.AccessRuns

/-! # What the edge asserts about a request

A layer of the listener writes the external scheme and the host into the request. The
proxy to the API socket then removes what is hop by hop, and with it every header that a
`Connection` field names. The assertion stands when no field names one of its headers.
-/

namespace PortHub.Runtime.EdgeHeaders

open PortHub.Runtime PublicAccess

section Listener

/-- What is used of a `url::Url`. -/
structure Url where
  scheme : String
  hostStr : Option (List Char)
  /-- `None` for the default port of the scheme. -/
  port : Option Nat

def Url.portOrKnownDefault (url : Url) : Option Nat :=
  url.port <|> (if url.scheme = "https" then some 443 else if url.scheme = "http" then some 80 else none)

/-- A listener with the origin from the configuration, and how that is parsed. -/
structure Listener where
  secure : Bool
  publicOrigin : Option String
  parse : String → Option Url

/-- The authority of a public origin that is reached over HTTPS. -/
def Listener.authority (listener : Listener) : Option (List Char) := do
  let url ← (listener.publicOrigin.bind listener.parse).filter fun url => url.scheme == "https"
  let host := Text.toAsciiLowercase (← url.hostStr)
  if url.portOrKnownDefault = some 443 then return host
  else return host ++ ':' :: (toString (← url.port)).toList

/-- What the layer uses of a request. Names of headers are lower case. -/
structure Incoming where
  http2 : Bool
  /-- The authority of the URI. -/
  authority : Option (List Char)
  headers : Headers

/-- HTTP/2 carries the host in `:authority`. -/
def Incoming.effective (request : Incoming) : Headers :=
  if request.http2 then
    match request.authority.bind parseValue with
    | some host => request.headers.insert "host" host
    | none => request.headers
  else request.headers

/-- The host that the edge sees. -/
def Incoming.host (request : Incoming) : Option HeaderValue := request.effective.get? "host"

def eqIgnoreAsciiCase (left right : List Char) : Bool :=
  Text.toAsciiLowercase left == Text.toAsciiLowercase right

def Listener.externalSecure (listener : Listener) (host : Option HeaderValue) : Bool :=
  listener.secure || listener.authority.any fun authority =>
    (host.bind HeaderValue.toStr).any fun host => eqIgnoreAsciiCase host authority ||
      (!authority.contains ':' && eqIgnoreAsciiCase host (authority ++ ":443".toList))

/-- The scheme that the edge asserts. -/
def Listener.proto (listener : Listener) (host : Option HeaderValue) : HeaderValue :=
  HeaderValue.ofText (if listener.externalSecure host then "https".toList else "http".toList)

/-- The headers behind `listener_router_with_public_origin`. -/
def Listener.layer (listener : Listener) (request : Incoming) : Headers :=
  let headers := (request.effective.remove "forwarded").insert "x-forwarded-proto" (listener.proto request.host)
  let headers := headers.remove "x-forwarded-host"
  match request.host with
  | some host => headers.insert "x-forwarded-host" host
  | none => headers

end Listener

section Proxy

/-- The parts of the readable `Connection` fields. -/
def connectionParts (headers : Headers) : List (List Char) :=
  ((headers.getAll "connection").filterMap HeaderValue.toStr).flatMap fun text =>
    (text.splitOn ',').map Text.trim

def isUpgrade (headers : Headers) : Bool :=
  headers.containsKey "upgrade" && (connectionParts headers).any (eqIgnoreAsciiCase "upgrade".toList)

/-- The names of headers that `Connection` lists. A name is looked up in lower case. -/
def named (headers : Headers) : List String :=
  (connectionParts headers).map fun part => String.ofList (Text.toAsciiLowercase part)

def hopHeaders : List String :=
  ["connection", "keep-alive", "proxy-authenticate", "proxy-authorization", "te", "trailer",
    "transfer-encoding", "upgrade"]

def stripHopHeaders (headers : Headers) : Headers :=
  hopHeaders.foldl Headers.remove ((named headers).foldl Headers.remove headers)

/-- The headers that `try_forward` sends to a socket. -/
def tryForward (headers : Headers) : Headers :=
  let stripped := stripHopHeaders headers
  match if isUpgrade headers then headers.get? "upgrade" else none with
  | some protocol => (stripped.insert "connection" (HeaderValue.ofText "Upgrade".toList)).insert "upgrade" protocol
  | none => stripped

/-- The way of a request that no web route takes, from a listener to the API socket. -/
def forwarded (listener : Listener) (request : Incoming) : Headers := tryForward (listener.layer request)

end Proxy

section Stripping

variable {name : String}

theorem getAll_removed (names : List String) (headers : Headers) (name : String) :
    (names.foldl Headers.remove headers).getAll name = if name ∈ names then [] else headers.getAll name := by
  induction names generalizing headers with
  | nil => simp
  | cons first rest ih =>
      rw [List.foldl_cons, ih]
      by_cases here : name = first
      · simp [here, getAll_remove_self]
      · simp [here, getAll_remove_ne headers here]

theorem getAll_stripHopHeaders (headers : Headers) (name : String) :
    (stripHopHeaders headers).getAll name =
      if name ∈ hopHeaders ∨ name ∈ named headers then [] else headers.getAll name := by
  unfold stripHopHeaders
  rw [getAll_removed, getAll_removed]
  by_cases hop : name ∈ hopHeaders
  · simp [hop]
  · simp [hop]

theorem getAll_tryForward (headers : Headers) (connection : name ≠ "connection") (upgrade : name ≠ "upgrade") :
    (tryForward headers).getAll name = (stripHopHeaders headers).getAll name := by
  unfold tryForward
  split
  · rw [getAll_insert_ne _ _ upgrade, getAll_insert_ne _ _ connection]
  · rfl

variable (listener : Listener) (request : Incoming)

theorem getAll_effective (different : name ≠ "host") :
    request.effective.getAll name = request.headers.getAll name := by
  unfold Incoming.effective
  split
  · split
    · exact getAll_insert_ne _ _ different
    · rfl
  · rfl

theorem proto_layer : (listener.layer request).getAll "x-forwarded-proto" = [listener.proto request.host] := by
  unfold Listener.layer
  split
  · rw [getAll_insert_ne _ _ (by decide), getAll_remove_ne _ (by decide), getAll_insert]
  · rw [getAll_remove_ne _ (by decide), getAll_insert]

theorem host_layer : (listener.layer request).getAll "x-forwarded-host" = request.host.toList := by
  unfold Listener.layer
  split
  · rename_i host seen
    rw [getAll_insert, seen]
    rfl
  · rename_i unseen
    rw [getAll_remove_self, unseen]
    rfl

theorem others_layer (proto : name ≠ "x-forwarded-proto") (host : name ≠ "x-forwarded-host") :
    (listener.layer request).getAll name = (request.effective.remove "forwarded").getAll name := by
  unfold Listener.layer
  split
  · rw [getAll_insert_ne _ _ host, getAll_remove_ne _ host, getAll_insert_ne _ _ proto]
  · rw [getAll_remove_ne _ host, getAll_insert_ne _ _ proto]

/-- The layer does not touch what the client's `Connection` fields name. -/
theorem named_layer : named (listener.layer request) = named request.headers := by
  unfold named connectionParts
  rw [others_layer _ _ (by decide) (by decide), getAll_remove_ne _ (by decide), getAll_effective _ (by decide)]

end Stripping

/-- The request at the API socket carries what the edge asserts, and otherwise what the client sent. -/
structure Asserted (listener : Listener) (request : Incoming) (headers : Headers) : Prop where
  proto : headers.getAll "x-forwarded-proto" = [listener.proto request.host]
  host : ∀ host, request.host = some host → headers.getAll "x-forwarded-host" = [host]
  clean : ∀ name ∈ ["forwarded", "proxy-authorization", "te", "trailer", "transfer-encoding"],
    headers.getAll name = []
  -- `Host` is the host that the edge saw.
  others : ∀ name, name ∉ ["x-forwarded-proto", "x-forwarded-host", "forwarded"] → name ∉ hopHeaders →
    name ∉ named request.headers → headers.getAll name = request.effective.getAll name ∧
      (name ≠ "host" → headers.getAll name = request.headers.getAll name)

theorem getAll_forwarded (listener : Listener) (request : Incoming) {name} (end_ : name ∉ hopHeaders) :
    (forwarded listener request).getAll name =
      if name ∈ named request.headers then [] else (listener.layer request).getAll name := by
  have connection : name ≠ "connection" := fun same => end_ (by simp [same, hopHeaders])
  have upgrade : name ≠ "upgrade" := fun same => end_ (by simp [same, hopHeaders])
  unfold forwarded
  rw [getAll_tryForward _ connection upgrade, getAll_stripHopHeaders, named_layer]
  simp [end_]

/-- A client that does not name the headers of the assertion cannot change it, and one
    that does takes it away. -/
theorem edge_assertion_reaches_the_api (listener : Listener) (request : Incoming) :
    Asserted listener request (forwarded listener request) ↔
      "x-forwarded-proto" ∉ named request.headers ∧
        (request.host.isSome = true → "x-forwarded-host" ∉ named request.headers) := by
  have proto := getAll_forwarded listener request (by decide : "x-forwarded-proto" ∉ hopHeaders)
  have host := getAll_forwarded listener request (by decide : "x-forwarded-host" ∉ hopHeaders)
  rw [proto_layer] at proto
  rw [host_layer] at host
  constructor
  · intro asserted
    refine ⟨fun taken => ?_, fun seen taken => ?_⟩
    · rw [asserted.proto, if_pos taken] at proto
      cases proto
    · obtain ⟨value, seen⟩ := Option.isSome_iff_exists.mp seen
      rw [asserted.host value seen, if_pos taken] at host
      cases host
  · intro ⟨unnamed, quiet⟩
    refine ⟨by rw [proto, if_neg unnamed], ?_, ?_, ?_⟩
    · intro value seen
      rw [host, if_neg (quiet (by rw [seen]; rfl)), seen]
      rfl
    · intro name member
      simp only [List.mem_cons, List.not_mem_nil, or_false] at member
      rcases member with rfl | hop
      · rw [getAll_forwarded _ _ (by decide), others_layer _ _ (by decide) (by decide), getAll_remove_self, ite_self]
      · have inner : name ∈ hopHeaders := by rcases hop with rfl | rfl | rfl | rfl <;> decide
        have kept : name ≠ "connection" ∧ name ≠ "upgrade" := by rcases hop with rfl | rfl | rfl | rfl <;> decide
        unfold forwarded
        rw [getAll_tryForward _ kept.1 kept.2, getAll_stripHopHeaders, if_pos (.inl inner)]
    · intro name free end_ unlisted
      simp only [List.mem_cons, List.not_mem_nil, or_false, not_or] at free
      obtain ⟨noProto, noHost, noForwarded⟩ := free
      have kept : (forwarded listener request).getAll name = request.effective.getAll name := by
        rw [getAll_forwarded _ _ end_, if_neg unlisted, others_layer _ _ noProto noHost,
          getAll_remove_ne _ noForwarded]
      exact ⟨kept, fun different => kept.trans (getAll_effective _ different)⟩

/-- A plain HTTP request whose `Connection` field names the scheme header: it arrives without one. -/
theorem named_scheme_is_stripped :
    let request : Incoming := ⟨false, none,
      [("host", HeaderValue.ofText "porthub.example".toList),
        ("connection", HeaderValue.ofText "X-Forwarded-Proto".toList)]⟩
    ¬ Asserted ⟨false, none, fun _ => none⟩ request (forwarded ⟨false, none, fun _ => none⟩ request) := by
  intro request asserted
  have none_left : (forwarded ⟨false, none, fun _ => none⟩ request).getAll "x-forwarded-proto" = [] := by
    decide
  cases none_left.symm.trans asserted.proto

end PortHub.Runtime.EdgeHeaders
