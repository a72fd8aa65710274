import PortHub.Lib.Base64
import PortHub.Rust

/-! # Terminal protocol messages

Tokens, terminal data and the descriptions that negotiate a direct path. The
JSON reader of a description is a parameter: it yields the two fields of an
object that has no others.
-/

namespace PortHub.Terminal

def maxData : Nat := 16 * 1024

def isAsciiHexdigit (b : UInt8) : Bool :=
  (48 ≤ b && b ≤ 57) || (65 ≤ b && b ≤ 70) || (97 ≤ b && b ≤ 102)

def isAsciiUppercase (b : UInt8) : Bool := 65 ≤ b && b ≤ 90

/-- A string of lower-case hexadecimal digits. -/
def token (value : String) (length : Nat) : Bool :=
  (utf8 value).length == length
    && (utf8 value).all fun b => isAsciiHexdigit b && !isAsciiUppercase b

def isAsciiDigit (b : UInt8) : Bool := 48 ≤ b && b ≤ 57

/-- A request names no pane, or one as tmux numbers them. -/
def historyRequest (pane : String) (before : UInt32) (lines : UInt16) : Result Unit := do
  let bytes := utf8 pane
  ensure (bytes.isEmpty || (decide (bytes.length ≤ 20) && bytes.head? == some 37
    && decide (1 < bytes.length) && bytes.tail.all isAsciiDigit)) "invalid history pane"
  ensure (decide (before ≤ 200000) && decide (1 ≤ lines) && decide (lines ≤ 512))
    "history slice exceeds limits"

/-- A pane that passed once passes with every slice within the limits. -/
theorem historyRequest_again {pane earlier before some lines}
    (passed : historyRequest pane earlier some = .ok ()) (reached : before ≤ 200000)
    (positive : 1 ≤ lines) (bounded : lines ≤ 512) : historyRequest pane before lines = .ok () := by
  obtain ⟨_, named, _⟩ := bind_eq_ok.mp passed
  refine bind_eq_ok.mpr ⟨(), named, ?_⟩
  simp [reached, positive, bounded]

def encodeData (bytes : List UInt8) : List Char := Base64.encode bytes

/-- The errors of the base64 reader share one text here. -/
def decodeData (data : List Char) : Result (List UInt8) := do
  ensure (decide (Text.byteLen data ≤ maxData * 4 / 3 + 4)) "terminal frame exceeds size limit"
  match Base64.decode data with
  | none => throw "invalid base64"
  | some bytes => do
      ensure (decide (bytes.length ≤ maxData)) "terminal frame exceeds size limit"
      return bytes

/-- Whatever fits into one frame survives the text encoding. -/
theorem decodeData_encodeData {bytes : List UInt8} (bounded : bytes.length ≤ maxData) :
    decodeData (encodeData bytes) = .ok bytes := by
  have size : Text.byteLen (encodeData bytes) ≤ maxData * 4 / 3 + 4 := by
    simp only [Text.byteLen, encodeData, Base64.encode_utf8Size, maxData] at bounded ⊢
    omega
  simp only [decodeData, bind_eq_ok, ensure_eq_ok, decide_eq_true_eq]
  refine ⟨(), size, ?_⟩
  simp only [encodeData, Base64.decode_encode, bind_eq_ok, ensure_eq_ok, decide_eq_true_eq,
    pure_eq_ok]
  exact ⟨(), bounded, trivial⟩

/-- An unread line and the text after it, taken apart as `str::lines` does. -/
def linesFrom (line : List Char) : List Char → List (List Char)
  | [] => if line.isEmpty then [] else [line]
  | c :: rest =>
      if c = '\n' then (Text.stripSuffix line ['\r']).getD line :: linesFrom [] rest
      else linesFrom (line ++ [c]) rest

def lines (text : List Char) : List (List Char) := linesFrom [] text

def startsWith (line head : List Char) : Bool := head.isPrefixOf line

/-- The JSON object inside a direct description. -/
structure Description where
  type : String
  sdp : List Char
  deriving DecidableEq, Repr

structure DirectDescription where
  text : String
  deriving DecidableEq, Repr

def DirectDescription.validate (parse : String → Option Description)
    (description : DirectDescription) (kind : String) : Result Unit := do
  ensure (decide ((utf8 description.text).length ≤ 16384)) "terminal direct description exceeds limit"
  match parse description.text with
  | none => throw "invalid terminal direct description"
  | some value => do
      ensure (value.type == kind) "unexpected terminal direct description type"
      ensure (value.sdp.all (fun c => decide (c.toNat < 128)) && !value.sdp.contains '\x00')
        "invalid terminal direct SDP"
      let lines := lines value.sdp
      ensure (decide (lines.length ≤ 256)
        && decide ((lines.filter fun line => startsWith line "a=candidate:".toList).length ≤ 64))
        "terminal direct SDP exceeds limits"
      let media := lines.filter fun line => startsWith line "m=".toList
      ensure (media.length == 1 && startsWith (media.getD 0 []) "m=application ".toList)
        "terminal direct SDP must contain one application section"

structure DirectAnswer where
  request : UInt32
  description : DirectDescription
  inputEpoch : String
  outputEpoch : String
  deriving DecidableEq, Repr

def DirectAnswer.validate (parse : String → Option Description) (answer : DirectAnswer) :
    Result Unit := do
  answer.description.validate parse "answer"
  ensure (token answer.inputEpoch 32 && token answer.outputEpoch 32
    && answer.inputEpoch != answer.outputEpoch) "invalid terminal direct epochs"

/-- An answer that passed names two valid epochs. -/
theorem DirectAnswer.validate_ok {parse : String → Option Description} {answer : DirectAnswer} {u}
    (valid : answer.validate parse = .ok u) :
    token answer.inputEpoch 32 = true ∧ token answer.outputEpoch 32 = true := by
  simp only [DirectAnswer.validate, bind_eq_ok, ensure_eq_ok, Bool.and_eq_true] at valid
  obtain ⟨_, _, ⟨input, output⟩, _⟩ := valid
  exact ⟨input, output⟩

def maxViewers : Nat := 32

def isAsciiAlphanumeric (b : UInt8) : Bool :=
  isAsciiDigit b || isAsciiUppercase b || (97 ≤ b && b ≤ 122)

inductive Access where
  | ssh
  | web
  | both
  deriving DecidableEq, Repr

inductive SizePolicy where
  | smallest
  | largest
  | latest
  deriving DecidableEq, Repr

structure Options where
  name : String
  /-- Invitation expiry only; zero keeps invitations valid until the session
      ends. -/
  expiresAt : Int
  sessionExpiresAt : Option Int
  idleTimeout : UInt32
  reconnectTimeout : UInt32
  historyLimit : UInt32
  mouse : Bool
  readOnly : Bool
  sizePolicy : SizePolicy
  access : Access
  maxViewers : UInt8
  deriving DecidableEq, Repr

def Options.validate (options : Options) (now : Int) : Result Unit := do
  let name := utf8 options.name
  ensure (!name.isEmpty && decide (name.length ≤ 64)
    && name.all fun b => isAsciiAlphanumeric b || [32, 46, 95, 45].contains b)
    "session name must be 1–64 letters, numbers, spaces, dots, underscores or hyphens"
  ensure (decide (options.expiresAt = 0)
    || (decide (0 < options.expiresAt) && decide (options.expiresAt ≤ now + 604800)))
    "invitation expiry must be zero or within seven days"
  ensure (options.sessionExpiresAt.all fun at_ => decide (0 < at_) && decide (at_ ≤ now + 604800))
    "session timeout must be within seven days"
  ensure (decide (10 ≤ options.reconnectTimeout) && decide (options.reconnectTimeout ≤ 300))
    "reconnect timeout must be 10–300 seconds"
  ensure (decide (options.idleTimeout = 0)
    || (decide (60 ≤ options.idleTimeout) && decide (options.idleTimeout ≤ 86400)))
    "idle timeout must be zero or 60–86400 seconds"
  ensure (decide (1000 ≤ options.historyLimit) && decide (options.historyLimit ≤ 200000))
    "history limit must be 1000–200000 lines"
  ensure (decide (1 ≤ options.maxViewers) && decide (options.maxViewers ≤ 32))
    "participant limit must be 1–32"

structure HostHello where
  directTransport : Bool
  historySnapshots : Bool
  id : String
  secret : String
  writeToken : String
  readToken : String
  options : Options
  deriving DecidableEq, Repr

def HostHello.validate (hello : HostHello) (now : Int) : Result Unit := do
  ensure (token hello.id 32 && token hello.secret 64 && token hello.writeToken 64
    && token hello.readToken 64) "invalid terminal session identity"
  ensure (hello.secret != hello.writeToken && hello.secret != hello.readToken
    && hello.writeToken != hello.readToken) "terminal capabilities must be distinct"
  hello.options.validate now

/-- Gateway-assigned identity, scoped to one shared session. -/
structure Participant where
  id : Nat
  readOnly : Bool
  joinedAt : Int
  lastActiveAt : Int
  deriving DecidableEq, Repr

/-- Hash-only invitation state loaded from the gateway's database. -/
structure PersistedInvitations where
  revision : Nat
  writeHash : String
  readHash : String
  expiresAt : Int
  revoked : Bool
  deriving DecidableEq, Repr

def PersistedInvitations.validate (persisted : PersistedInvitations) : Result Unit :=
  ensure (decide (persisted.revision ≤ 2 ^ 63 - 1) && token persisted.writeHash 64
    && token persisted.readHash 64 && persisted.writeHash != persisted.readHash
    && decide (0 ≤ persisted.expiresAt)) "invalid persisted invitation state"

/-- Replacement invitation capabilities. -/
structure InvitationUpdate where
  revision : Nat
  writeToken : String
  readToken : String
  expiresAt : Int
  deriving DecidableEq, Repr

def InvitationUpdate.validate (update : InvitationUpdate) (at_ : Int) : Result Unit := do
  ensure (decide (0 < update.revision) && decide (update.revision ≤ 2 ^ 63 - 1))
    "invalid invitation revision"
  ensure (token update.writeToken 64 && token update.readToken 64
    && update.writeToken != update.readToken) "invalid replacement invitation capabilities"
  ensure (decide (0 ≤ update.expiresAt) && decide (update.expiresAt ≤ at_ + 604800))
    "replacement invitation expiry must be within seven days"

structure HistoryChunk where
  snapshot : Option String
  request : UInt32
  pane : Option String
  data : List Char
  done : Bool
  total : UInt32
  before : UInt32
  lines : UInt16
  truncated : Bool
  error : Option String
  deriving DecidableEq, Repr

def HistoryChunk.validate (page : HistoryChunk) : Result Unit := do
  if let some snapshot := page.snapshot then
    ensure (token snapshot 32 && page.pane.isSome) "invalid anchored history response"
  if let some pane := page.pane then
    ensure (!(utf8 pane).isEmpty) "invalid resolved history pane"
    historyRequest pane page.before (max page.lines 1)
  ensure (decide (page.total ≤ 200000) && decide (page.before ≤ 200000)
    && decide (page.lines ≤ 512)
    && page.error.all fun error => decide ((utf8 error).length ≤ 256)) "invalid history response"
  discard (decodeData page.data)

/-- What a chunk that passed says about its identity, its pane and its size. -/
theorem HistoryChunk.validate_ok {page : HistoryChunk} (valid : page.validate = .ok ()) :
    (∀ id, page.snapshot = some id → token id 32 = true) ∧
      (∀ pane, page.pane = some pane → historyRequest pane page.before (max page.lines 1) = .ok ()) ∧
      page.total ≤ 200000 := by
  unfold HistoryChunk.validate at valid
  cases named : page.snapshot with
  | none =>
      cases resolved : page.pane with
      | none =>
          simp only [named, resolved, bind_eq_ok, ensure_eq_ok, Bool.and_eq_true, decide_eq_true_eq] at valid
          obtain ⟨_, limits, _⟩ := valid
          exact ⟨by simp, by simp, limits.1.1.1⟩
      | some pane =>
          simp only [named, resolved, bind_eq_ok, ensure_eq_ok, Bool.and_eq_true, decide_eq_true_eq] at valid
          obtain ⟨_, _, _, request, _, limits, _⟩ := valid
          exact ⟨by simp, by simpa using request, limits.1.1.1⟩
  | some id =>
      cases resolved : page.pane with
      | none =>
          simp [named, resolved, bind_eq_ok] at valid
      | some pane =>
          simp only [named, resolved, bind_eq_ok, ensure_eq_ok, Bool.and_eq_true, decide_eq_true_eq] at valid
          obtain ⟨_, token, _, _, _, request, _, limits, _⟩ := valid
          exact ⟨by simpa using token.1, by simpa using request, limits.1.1.1⟩

/-- What the gateway sends to a host. -/
inductive HostEvent where
  | delivery (client : Nat) (packet : List Char)
  | directOffer (client : Nat) (request : UInt32) (description : DirectDescription)
  | redraw (client : Nat)
  | invitationsRevoked
  | history (freeze : Bool) (snapshot : Option String) (client : Nat) (request : UInt32)
      (pane : String) (before : UInt32) (lines : UInt16)
  | attach (client : Nat) (readOnly : Bool) (cols rows : UInt16) (term : String)
  | input (client : Nat) (data : List Char)
  | resize (client : Nat) (cols rows : UInt16)
  | detach (client : Nat)
  | stop (reason : String)
  | reconnect (reason : String)
  | presence (members : List Participant)
  deriving DecidableEq, Repr

/-- What a host sends to the gateway. -/
inductive HostOutput where
  | delivery (client : Nat) (packet : List Char)
  | directAnswer (client : Nat) (answer : DirectAnswer)
  | directUnavailable (client : Nat) (request : UInt32)
  | rotateInvitations (update : InvitationUpdate)
  | revokeInvitations
  | history (client : Nat) (page : HistoryChunk)
  | kick (client : Nat)
  | output (client : Nat) (data : List Char)
  | closed (client : Nat)
  | end'
  | pong
  | activity
  deriving DecidableEq, Repr

/-- What the gateway sends to a viewer. -/
inductive ViewerEvent where
  | delivery (packet : List Char)
  | directAnswer (answer : DirectAnswer)
  | directUnavailable (request : UInt32)
  | history (page : HistoryChunk)
  | welcome (directTransport historySnapshots : Bool) (name : String) (readOnly : Bool)
      (expiresAt : Int) (participants : Nat)
  | output (data : List Char)
  | presence (participants : Nat) (members : List Participant)
  | closed (reason : String) (retryable : Bool)
  deriving DecidableEq, Repr

def dimensions (cols rows : UInt16) : Result Unit :=
  ensure (decide (20 ≤ cols) && decide (cols ≤ 500) && decide (5 ≤ rows) && decide (rows ≤ 200))
    "terminal size must be 20–500 columns and 5–200 rows"

/-- What a viewer sends to the gateway. -/
inductive ViewerInput where
  | delivery (packet : List Char)
  | directOffer (request : UInt32) (description : DirectDescription)
  | redraw
  | history (freeze : Bool) (snapshot : Option String) (request : UInt32) (pane : String)
      (before : UInt32) (lines : UInt16)
  | input (data : List Char)
  | resize (cols rows : UInt16)
  | pong
  deriving DecidableEq, Repr

end PortHub.Terminal
