import PortHub.Egress.ProxyStreams

/-! # What the application proxy lets through

The connector is asked once, behind a handshake that carried the credentials,
and a tunnel starts at the byte behind it. A forward request is rewritten, but
only the first one of a connection: a second request reaches the upstream as the
client wrote it.
-/

namespace PortHub.Egress

open Bytes

/-- The head is complete. -/
abbrev terminated (header : Bytes) : Prop := (crlf ++ crlf).isSuffixOf header = true

/-- Nothing shorter than the whole of `added` completes the head. -/
def Unbroken (header added : Bytes) : Prop :=
  ∀ front back, added = front ++ back → back ≠ [] → ¬ terminated (header ++ front)

section Headers

variable {header added rest : Bytes}

theorem Unbroken.append {more} (first : Unbroken header added)
    (second : Unbroken (header ++ added) more) : Unbroken header (added ++ more) := by
  intro front back whole left
  rcases List.append_eq_append_iff.mp whole with ⟨tail, rfl, rfl⟩ | ⟨tail, rfl, rfl⟩
  · rw [← List.append_assoc]
    exact second tail back rfl left
  · cases tail with
    | nil =>
        simpa using second [] more rfl left
    | cons byte tail => exact first front (byte :: tail) rfl (by simp)

end Headers

section Handshakes

variable {credentials : Credentials} {stream rest : Bytes} {destination : Destination}
variable {protocol : Protocol}

end Handshakes

/-- A forward request of a client: absolute-form, with an authentication of its
    own and a body that its reader can delimit. -/
structure Message.Forward (framing : Framing) (message : Message) : Prop where
  plain : message.Plain
  framed : message.Framed framing
  absolute : utf8 "http://" <+: message.target
  method : message.method ≠ utf8 "CONNECT"
  authenticated : ∃ field ∈ message.fields, named "proxy-authorization" field = true

/-- The proxy takes the request: its head is text within the limit, starts with a
    capital letter and carries the credentials once, and the connector reaches
    the destination that it names. -/
structure Message.Accepted (credentials : Credentials) (connects : Destination → Bool)
    (message : Message) : Prop where
  size : message.head.length ≤ maxHeader
  text : (fromUtf8 message.head).isSome = true
  upper : ∃ first ∈ message.method.head?, (65 ≤ first && first ≤ 90) = true
  authorized : ∃ authorization headers,
    scanHeaders (message.fields.map fieldLine) none [] = .ok (authorization, headers) ∧
      authorized credentials authorization = true
  reachable : ∃ host port path destination, forwardTarget message.target = .ok (host, port, path) ∧
    Destination.new host port = .ok destination ∧ connects destination = true

section Forwarding

variable {credentials : Credentials} {framing : Framing} {message : Message} {rest : Bytes}

end Forwarding

section Reading

variable {stream more line rest : Bytes}

end Reading

section Clean

variable {framing : Framing} {message : Message}

end Clean

/-- What the proxy itself sends to the upstream. -/
def Protocol.request : Protocol → Bytes
  | .http request => request
  | .socks => []
  | .connect => []

/-- No request that the upstream reads carries an authentication for the proxy, and
    none names another destination. -/
def Session.Clean (framing : Framing) (session : Session) : Prop :=
  ∀ destination ∈ session.connected,
    ∀ head ∈ requests framing session.upstream.length session.upstream,
      (∀ field ∈ head.fields, named "proxy-authorization" field = false) ∧
      ∀ host port path, forwardTarget head.target = .ok (host, port, path) →
        destination = ⟨host, port⟩

section Sessions

variable (credentials : Credentials) (connects : Destination → Bool)

variable {credentials connects}

end Sessions

/-- A request without a body, authenticated by the example credentials. -/
def exampleRequest (target : String) : Message where
  method := utf8 "GET"
  target := utf8 target
  version := utf8 "HTTP/1.1"
  fields :=
    [(utf8 "Host", utf8 " example.com"), (utf8 "Proxy-Authorization",
      utf8 " Basic dXNlcjphLWxvbmctcmFuZG9tLXNlc3Npb24tc2VjcmV0")]
  body := []

end PortHub.Egress
