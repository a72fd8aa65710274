import PortHub.Lib.Base64
import PortHub.Lib.Talk
import PortHub.Api.Address

/-! # The application proxy

A loopback listener for HTTP CONNECT, HTTP forward requests and SOCKS5. One
session is a handshake, one call of the connector, and a copy in both directions.
Text is kept as its UTF-8 bytes: the separators of the source are ASCII, and a
Unicode space is recognised by its encoding, so slices of valid text stay slices.
-/

namespace PortHub.Egress

abbrev Bytes := List UInt8

namespace Bytes

def crlf : Bytes := [13, 10]

/-- The encodings of the Unicode `White_Space` characters. -/
def whiteSpaces : List Bytes :=
  [[9], [10], [11], [12], [13], [32], [0xC2, 0x85], [0xC2, 0xA0], [0xE1, 0x9A, 0x80],
   [0xE2, 0x80, 0x80], [0xE2, 0x80, 0x81], [0xE2, 0x80, 0x82], [0xE2, 0x80, 0x83],
   [0xE2, 0x80, 0x84], [0xE2, 0x80, 0x85], [0xE2, 0x80, 0x86], [0xE2, 0x80, 0x87],
   [0xE2, 0x80, 0x88], [0xE2, 0x80, 0x89], [0xE2, 0x80, 0x8A], [0xE2, 0x80, 0xA8],
   [0xE2, 0x80, 0xA9], [0xE2, 0x80, 0xAF], [0xE2, 0x81, 0x9F], [0xE3, 0x80, 0x80]]

/-- The length of the space that a text starts with, zero without one. -/
def spaceAt (spaces : List Bytes) (text : Bytes) : Nat :=
  ((spaces.find? (·.isPrefixOf text)).map List.length).getD 0

def emit (word : Bytes) : List Bytes := if word.isEmpty then [] else [word]

/-- The words from the one being read on. The length of the text bounds the rounds. -/
def wordsFrom : Nat → Bytes → Bytes → List Bytes
  | 0, word, _ => emit word
  | _ + 1, word, [] => emit word
  | rounds + 1, word, byte :: rest =>
      match spaceAt whiteSpaces (byte :: rest) with
      | 0 => wordsFrom rounds (word ++ [byte]) rest
      | width => emit word ++ wordsFrom rounds [] ((byte :: rest).drop width)

/-- `str::split_whitespace`. -/
def splitWhitespace (text : Bytes) : List Bytes := wordsFrom text.length [] text

def trimFront (spaces : List Bytes) : Nat → Bytes → Bytes
  | 0, text => text
  | rounds + 1, text =>
      match spaceAt spaces text with
      | 0 => text
      | width => trimFront spaces rounds (text.drop width)

/-- `str::trim`. -/
def trim (text : Bytes) : Bytes :=
  let text := trimFront whiteSpaces text.length text
  (trimFront (whiteSpaces.map List.reverse) text.length text.reverse).reverse

/-- `text.split("\r\n")`, from the line being read on. -/
def linesFrom (line : Bytes) : Bytes → List Bytes
  | 13 :: 10 :: rest => line :: linesFrom [] rest
  | byte :: rest => linesFrom (line ++ [byte]) rest
  | [] => [line]

def lower (byte : UInt8) : UInt8 := if 65 ≤ byte ∧ byte ≤ 90 then byte + 32 else byte

/-- `eq_ignore_ascii_case`. -/
def eqIgnoreAsciiCase (text other : Bytes) : Bool := text.map lower == other.map lower

/-- `str::split_once`. -/
def splitOnce (separator : UInt8) (text : Bytes) : Option (Bytes × Bytes) :=
  if text.contains separator then
    some (text.takeWhile (· != separator), (text.dropWhile (· != separator)).tail)
  else none

/-- `str::rsplit_once`. -/
def rsplitOnce (separator : UInt8) (text : Bytes) : Option (Bytes × Bytes) :=
  (splitOnce separator text.reverse).map fun parts => (parts.2.reverse, parts.1.reverse)

/-- `strip_prefix`. -/
def strip (head text : Bytes) : Option Bytes :=
  if head.isPrefixOf text then some (text.drop head.length) else none

def isDigit (byte : UInt8) : Bool := 48 ≤ byte && byte ≤ 57

/-- `str::parse::<u16>`, which allows a leading plus sign. -/
def parseU16 (text : Bytes) : Option Nat :=
  let digits := (strip [43] text).getD text
  let value : Nat := digits.foldl (fun total byte => total * 10 + (byte.toNat - 48)) 0
  if !digits.isEmpty && digits.all isDigit && decide (value < 65536) then some value else none

/-- The ASCII bytes of a text. -/
def ofChars (text : List Char) : Bytes := text.map fun c => UInt8.ofNat c.toNat

end Bytes

open Bytes

/-- `char::is_control`. -/
def isControl (c : Char) : Bool := c.toNat < 32 || (127 ≤ c.toNat && c.toNat < 160)

structure Credentials where
  username : String
  password : String
  sized : username ≠ "" ∧ (utf8 username).length ≤ 255 ∧ 24 ≤ (utf8 password).length ∧
    (utf8 password).length ≤ 255
  clear : (username.toList.contains ':' || (username.toList ++ password.toList).any isControl) = false

namespace Credentials

/-- `Credentials::new`. -/
def new (username password : String) : Result Credentials :=
  if sized : username ≠ "" ∧ (utf8 username).length ≤ 255 ∧ 24 ≤ (utf8 password).length ∧
      (utf8 password).length ≤ 255 then
    if clear : (username.toList.contains ':' || (username.toList ++ password.toList).any isControl)
        = false then
      .ok ⟨username, password, sized, clear⟩
    else .error "invalid proxy credentials"
  else .error "proxy credentials require a username and a 24–255 byte password"

def verify (credentials : Credentials) (username password : Bytes) : Bool :=
  utf8 credentials.username == username && utf8 credentials.password == password

end Credentials

structure Destination where
  host : Bytes
  port : Nat
  deriving DecidableEq, Repr

/-- `Destination::new`. -/
def Destination.new (host : Bytes) (port : Nat) : Result Destination := do
  ensure (port != 0 && !host.isEmpty && decide (host.length ≤ 253)) "invalid proxy destination"
  ensure (!host.any fun c => decide (c ≤ 32) || c == 127 || [47, 92, 64, 35, 63].contains c)
    "invalid proxy destination"
  return ⟨host, port⟩

inductive Protocol where
  | socks
  | connect
  | http (request : Bytes)
  deriving DecidableEq, Repr

/-- `context(message)?`. -/
def orElse {α : Type} (message : String) : Option α → Result α
  | some value => .ok value
  | none => .error message

def authority (value : Bytes) : Result (Bytes × Nat) := do
  let (host, port) ← orElse "proxy destination requires a port" (rsplitOnce 58 value)
  let bracketed := (strip [91] host).bind fun inner =>
    if [93].isSuffixOf inner then some inner.dropLast else none
  let port ← orElse "invalid digit found in string" (parseU16 port)
  let destination ← Destination.new (bracketed.getD host) port
  return (destination.host, destination.port)

def maxHeader : Nat := 16 * 1024

/-- The loop that reads a request head; `remaining` bytes may still be read. -/
def readHeader : Nat → Bytes → Talk String Bytes
  | 0, header => do
      Talk.ensure ((crlf ++ crlf).isSuffixOf header) "proxy header too large"
      return header
  | remaining + 1, header =>
      if (crlf ++ crlf).isSuffixOf header then return header
      else do readHeader remaining (header ++ [← Talk.byte])

/-- The authentication among the header lines, and the lines to forward. -/
def scanHeaders : List Bytes → Option Bytes → List Bytes → Result (Option Bytes × List Bytes)
  | [], authorization, headers => .ok (authorization, headers)
  | line :: rest, authorization, headers => do
      let (name, value) ← orElse "invalid proxy header" (splitOnce 58 line)
      if eqIgnoreAsciiCase name (utf8 "proxy-authorization") then
        ensure authorization.isNone "duplicate proxy authentication"
        scanHeaders rest (some (trim value)) headers
      else if !eqIgnoreAsciiCase name (utf8 "proxy-connection")
          && !eqIgnoreAsciiCase name (utf8 "connection") then
        scanHeaders rest authorization (headers ++ [line])
      else scanHeaders rest authorization headers

/-- `STANDARD.decode` of the bytes of a text. -/
def decodeStandard (text : Bytes) : Option Bytes :=
  Base64.decode (text.map fun byte => Char.ofNat byte.toNat)

/-- The Basic credentials of an authentication value, split at the first colon. -/
def basicCredentials (value : Bytes) : Option (Bytes × Bytes) := do
  let (scheme, value) ← splitOnce 32 value
  if eqIgnoreAsciiCase scheme (utf8 "basic") then splitOnce 58 (← decodeStandard value) else none

def authorized (credentials : Credentials) (authorization : Option Bytes) : Bool :=
  (authorization.bind basicCredentials).any fun parts => credentials.verify parts.1 parts.2

/-- The host and port in front of a path; the port defaults to 80. -/
def forwardHost (host : Bytes) : Result (Bytes × Nat) :=
  if [91].isPrefixOf host || host.contains 58 then authority host else .ok (host, 80)

def forwardPath (rest : Bytes) : Bytes :=
  if rest.isEmpty then [47] else if [63].isPrefixOf rest then 47 :: rest else rest

/-- The host and port that an absolute-form target names, and the path behind them. -/
def forwardTarget (target : Bytes) : Result (Bytes × Nat × Bytes) := do
  let url ← orElse "use CONNECT for HTTPS" (strip (utf8 "http://") target)
  let (hostname, port) ← forwardHost (url.takeWhile fun byte => byte != 47 && byte != 63)
  return (hostname, port, forwardPath (url.dropWhile fun byte => byte != 47 && byte != 63))

/-- The rewritten head of a forward request. -/
def forwardedHead (method path version : Bytes) (headers : List Bytes) : Bytes :=
  method ++ [32] ++ path ++ [32] ++ version ++ crlf
    ++ (headers.flatMap fun header => header ++ crlf) ++ utf8 "Connection: close" ++ crlf ++ crlf

def unauthorizedReply : Bytes :=
  utf8 "HTTP/1.1 407 Proxy Authentication Required\r\nProxy-Authenticate: Basic realm=\"PortHub\"\r\nConnection: close\r\nContent-Length: 0\r\n\r\n"

/-- What follows from a complete request head. -/
def answerHeader (credentials : Credentials) (header : Bytes) :
    Talk String (Destination × Protocol) := do
  Talk.ensure (fromUtf8 header).isSome "invalid utf-8 sequence"
  match linesFrom [] header with
  | [] => Talk.fail "missing proxy request"
  | request :: lines =>
      match splitWhitespace request with
      | [method, target, version] => do
          Talk.ensure ([utf8 "HTTP/1.1", utf8 "HTTP/1.0"].contains version) "invalid proxy request"
          let (authorization, headers) ←
            Talk.lift (scanHeaders (lines.filter fun line => !line.isEmpty) none [])
          if !authorized credentials authorization then do
            Talk.send unauthorizedReply
            Talk.fail "proxy authentication required"
          else if method = utf8 "CONNECT" then do
            let (host, port) ← Talk.lift (authority target)
            let destination ← Talk.lift (Destination.new host port)
            return (destination, .connect)
          else do
            let (hostname, port, path) ← Talk.lift (forwardTarget target)
            let destination ← Talk.lift (Destination.new hostname port)
            return (destination, .http (forwardedHead method path version headers))
      | _ => Talk.fail "invalid proxy request"

/-- A segment in lower-case hexadecimal digits. -/
def segmentText (n : Nat) : List Char := (Nat.digits 16 n).reverse.map Nat.digitChar

def segmentsText (segments : List Nat) : List Char :=
  List.intercalate [':'] (segments.map fun n => if n = 0 then ['0'] else segmentText n)

/-- The first longest run of zero segments: where it starts and how long it is. -/
def longestZeros : List Nat → Nat → Nat × Nat → Nat × Nat → Nat × Nat
  | [], _, _, longest => longest
  | segment :: rest, position, current, longest =>
      if segment = 0 then
        let current := if current.2 = 0 then (position, 1) else (current.1, current.2 + 1)
        longestZeros rest (position + 1) current (if current.2 > longest.2 then current else longest)
      else longestZeros rest (position + 1) (0, 0) longest

/-- `Ipv6Addr::to_string` of sixteen octets. -/
def ipv6Text (octets : Bytes) : List Char :=
  let segment i := (octets.getD (2 * i) 0).toNat * 256 + (octets.getD (2 * i + 1) 0).toNat
  let segments := (List.range 8).map segment
  if segments.take 6 = [0, 0, 0, 0, 0, 65535] then
    let octet i := octets.getD i 0
    "::ffff:".toList ++ Ipv4Addr.render ⟨octet 12, octet 13, octet 14, octet 15⟩
  else
    let (start, length) := longestZeros segments 0 (0, 0) (0, 0)
    if length > 1 then
      segmentsText (segments.take start) ++ "::".toList ++ segmentsText (segments.drop (start + length))
    else segmentsText segments

/-- The destination host of a SOCKS request, by its address type. -/
def socksHost (kind : UInt8) : Talk String Bytes :=
  if kind = 1 then do
    let address ← Talk.exactly 4
    let octet i := address.getD i 0
    return ofChars (Ipv4Addr.render ⟨octet 0, octet 1, octet 2, octet 3⟩)
  else if kind = 4 then do
    return ofChars (ipv6Text (← Talk.exactly 16))
  else if kind = 3 then do
    let length ← Talk.byte
    let host ← Talk.exactly length.toNat
    Talk.ensure (fromUtf8 host).isSome "invalid utf-8 sequence"
    return host
  else Talk.fail "unsupported SOCKS destination"

/-- The SOCKS handshake behind its version byte. -/
def socks (credentials : Credentials) : Talk String (Destination × Protocol) := do
  let count ← Talk.byte
  Talk.ensure (0 < count) "missing SOCKS authentication methods"
  let methods ← Talk.exactly count.toNat
  if !methods.contains 2 then do
    Talk.send [5, 255]
    Talk.fail "SOCKS authentication required"
  else do
    Talk.send [5, 2]
    let version ← Talk.byte
    Talk.ensure (version == 1) "invalid SOCKS authentication"
    let length ← Talk.byte
    let username ← Talk.exactly length.toNat
    let length ← Talk.byte
    let password ← Talk.exactly length.toNat
    if !credentials.verify username password then do
      Talk.send [1, 1]
      Talk.fail "SOCKS authentication failed"
    else do
      Talk.send [1, 0]
      let request ← Talk.exactly 4
      if request.take 3 ≠ [5, 1, 0] then do
        Talk.send [5, 7, 0, 1, 0, 0, 0, 0, 0, 0]
        Talk.fail "only SOCKS CONNECT is supported"
      else do
        let host ← socksHost (request.getD 3 0)
        let port ← Talk.exactly 2
        let destination ← Talk.lift (Destination.new host (be16 (port.getD 0 0) (port.getD 1 0)).toNat)
        return (destination, .socks)

def handshake (credentials : Credentials) : Talk String (Destination × Protocol) := do
  let first ← Talk.byte
  if first = 5 then socks credentials
  else do
    Talk.ensure (65 ≤ first && first ≤ 90) "unsupported proxy protocol"
    let header ← readHeader (maxHeader - 1) [first]
    answerHeader credentials header

/-- What a session did: the destinations it asked the connector for, what the
    upstream received and what the client was sent before the copy. -/
structure Session where
  connected : List Destination
  protocol : Option Protocol
  upstream : Bytes
  replies : Bytes

/-- `session`, for a client whose bytes arrive in chunks. The connector is asked
    at most once; `moved` bytes reach the upstream before a side closes or fails. -/
def session (credentials : Credentials) (connects : Destination → Bool) (client : List Bytes)
    (moved : Nat) : Session :=
  let replies := (handshake credentials).replies client.flatten
  match (handshake credentials).runChunks client with
  | .error _ => ⟨[], none, [], replies⟩
  | .ok ((destination, protocol), rest) =>
      if connects destination then
        match protocol with
        | .socks =>
            ⟨[destination], some protocol, rest.flatten.take moved,
              replies ++ [5, 0, 0, 1, 0, 0, 0, 0, 0, 0]⟩
        | .connect =>
            ⟨[destination], some protocol, rest.flatten.take moved,
              replies ++ utf8 "HTTP/1.1 200 Connection Established\r\n\r\n"⟩
        | .http request =>
            ⟨[destination], some protocol, (request ++ rest.flatten).take moved, replies⟩
      else
        match protocol with
        | .socks => ⟨[destination], some protocol, [], replies ++ [5, 1, 0, 1, 0, 0, 0, 0, 0, 0]⟩
        | _ =>
            ⟨[destination], some protocol, [], replies ++
              utf8 "HTTP/1.1 502 Bad Gateway\r\nConnection: close\r\nContent-Length: 0\r\n\r\n"⟩

end PortHub.Egress
