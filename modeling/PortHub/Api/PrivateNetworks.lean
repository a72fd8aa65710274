import PortHub.Api.Address
import PortHub.Api.Input
import PortHub.Lib.Dict

/-! # Range allocation for private networks

Every tenant has at most one document with its range. A tenant that has peers and
no document keeps the historic default reserved. Network documents are taken as
the JSON that `store::document` makes of them; object ids are a parameter, and
every database call may fail.
-/

namespace PortHub.Api

/-- Object ids, their text and its parser. -/
structure ObjectIds (α : Type) where
  toHex : α → String
  parseStr : String → Option α
  parse_toHex : ∀ id, parseStr (toHex id) = some id

namespace PrivateNetworks

/-- Object ids by their twelve bytes in lower-case hexadecimal. -/
def SampleId : Type :=
  { text : List Char // (text.length == 24 && text.all "0123456789abcdef".toList.contains) = true }

instance : DecidableEq SampleId := inferInstanceAs (DecidableEq (Subtype _))

def sampleIds : ObjectIds SampleId where
  toHex id := String.ofList id.val
  parseStr text := if valid : _ then some ⟨text.toList, valid⟩ else none
  parse_toHex id := by
    simp only [String.toList_ofList]
    exact dif_pos id.property

/-- Ids that differ in their last digit. -/
def sampleId (last : Fin 10) : SampleId :=
  ⟨"69db167e3d094f3142d04ff".toList ++ [Nat.digitChar last], by revert last; decide⟩

section Preferences

variable (numbers : Numbers) (ipv6 : List Char → Option Nat)

/-- `str::to_lowercase`, where its result is in ASCII: besides the capital
    letters only the Kelvin sign has a lower case there. -/
def toLowercase (text : List Char) : List Char :=
  text.map fun c => if c.toNat = 0x212a then 'k' else c.toLower

def badPart (part : List Char) : Bool :=
  part.isEmpty || 63 < Text.byteLen part
    || !part.all (fun c => c.isLower || c.isDigit || c == '-')
    || part.head? == some '-' || part.getLast? == some '-'

/-- Why a suffix is refused. -/
def suffixMessage (suffix : List Char) : Option String :=
  if !suffix.contains '.' && !(["phub", "internal"].contains (String.ofList suffix)) then
    some "Use phub, internal, or a full domain you own such as lan.example.com"
  else if (suffix.splitOn '.').any badPart then some "Enter a domain suffix such as phub"
  else if ["local", "localhost"].any fun name =>
      suffix == name.toList || Text.endsWith suffix ('.' :: name.toList) then
    some "This suffix is reserved for local OS networking"
  else none

open Check

def networkField : Check (Except String Network) := do
  let cidr ←
    if ((← get).field "cidr").isSome then requiredString numbers "cidr" else pure "10.203.0.0/24"
  let network := Network.parse ipv6 cidr.toList
  if (← get).fieldValid "cidr" then
    match network with
    | .error message => add "cidr" message "value_error"
    | .ok _ => pure ()
  return network

def suffixField : Check (List Char) := do
  let suffix ←
    if ((← get).field "dns_suffix").isSome then requiredString numbers "dns_suffix"
    else pure "phub"
  stringLength "dns_suffix" suffix 3 120
  let suffix := Text.trimEnd '.' (toLowercase (Text.trim suffix.toList))
  if (← get).fieldValid "dns_suffix" then
    match suffixMessage suffix with
    | some message => add "dns_suffix" message "value_error"
    | none => pure ()
  return suffix

def fields : Check (Except String Network × List Char) := do
  let network ← networkField numbers ipv6
  let suffix ← suffixField numbers
  return (network, suffix)

def preferencesValue (value : Value) : ApiResult (Network × List Char) := do
  let model ← Model.new value
  let ((network, suffix), final) := (fields numbers ipv6).run model
  final.finish
  match network with
  | .ok network => return (network, suffix)
  -- `expect("validated network")`: an error of the parser was recorded above
  | .error message => throw (.status 500 message)

def preferences (document : Fields) : ApiResult (Network × List Char) :=
  preferencesValue numbers ipv6 (.object document)

end Preferences

/-- What a field holds where an id is expected. -/
inductive Id (α : Type) where
  | objectId (id : α)
  | string (text : String)
  | other
  deriving DecidableEq, Repr

/-- `store::id`. -/
def Id.text {α : Type} (ids : ObjectIds α) : Id α → String
  | .objectId id => ids.toHex id
  | .string text => text
  | .other => ""

/-- The fields of a peer that the allocation reads; `ip` is empty unless it is text. -/
structure Peer (α : Type) where
  workspace : Id α
  ip : String

structure Database (α : Type) where
  networks : Dict String Fields
  peers : List (Peer α)

/-- How a write ends. One that reports an error may have been applied. -/
inductive Write where
  | done
  | refused
  | unconfirmed
  deriving DecidableEq

/-- Which database calls of one operation fail. -/
structure Faults where
  existing : Bool
  legacy : Bool
  networks : Bool
  peers : Bool
  write : Write

def databaseError : ApiError := .status 500 "Internal Server Error"

/-- Store a document, and report what the call reports. -/
def Write.perform {α β : Type} (write : Write) (value : β) (owner : String) (document : Fields)
    (db : Database α) : ApiResult β × Database α :=
  let stored := { db with networks := db.networks.insert owner document }
  match write with
  | .done => (.ok value, stored)
  | .refused => (.error databaseError, db)
  | .unconfirmed => (.error databaseError, stored)

def answer {α : Type} (failed : Bool) (value : α) : ApiResult α :=
  if failed then .error databaseError else .ok value

/-- The `offset`-th /24 from the historic default on, around 10/8. -/
def index (offset : Nat) : Nat := (203 * 256 + offset) % 65536

def candidateText (offset : Nat) : List Char :=
  "10.".toList ++ Decimal.render (index offset / 256) ++ '.' :: Decimal.render (index offset % 256)
    ++ ".0/24".toList

theorem index_lt (offset : Nat) : index offset < 65536 := Nat.mod_lt _ (by decide)

theorem candidate_bounded (offset : Nat) : (10 * 65536 + index offset) * 256 < 2 ^ 32 := by
  have := index_lt offset
  omega

theorem candidate_aligned (offset : Nat) : (10 * 65536 + index offset) * 256 &&& mask 24 =
    (10 * 65536 + index offset) * 256 := by
  rw [mask, Dyadic.and_mask (candidate_bounded offset)]
  omega

theorem candidate_private (offset : Nat) :
    (Ipv4Addr.ofBits ((10 * 65536 + index offset) * 256)).isPrivate = true := by
  have small := index_lt offset
  have first : (10 * 65536 + index offset) * 256 / 256 / 256 / 256 = 10 := by omega
  simp only [Ipv4Addr.ofBits, first, Ipv4Addr.isPrivate]
  rfl

/-- `Network::parse(..).expect("private /24")` of a candidate. -/
def candidate (offset : Nat) : Network where
  base := (10 * 65536 + index offset) * 256
  bits := 24
  sized := ⟨Nat.le_of_ble_eq_true rfl, Nat.le_of_ble_eq_true rfl⟩
  bounded := candidate_bounded offset
  aligned := candidate_aligned offset
  reserved := candidate_private offset

/-- `Network::parse("10.203.0.0/24").expect("default range")`. -/
def defaultRange : Network := candidate 0

section Allocation

variable {α : Type} [DecidableEq α] (ids : ObjectIds α) (numbers : Numbers)
  (ipv6 : List Char → Option Nat)

def Peer.tenant (peer : Peer α) : String := peer.workspace.text ids

def Peer.address (peer : Peer α) : Option Ipv4Addr := Ipv4Addr.parse peer.ip.toList

/-- The loop over the peers: defaults of tenants without a document, and the
    addresses that were assigned. -/
def reserve (owner : String) : List String → List (Peer α) → List Network × List Ipv4Addr
  | _, [] => ([], [])
  | configured, peer :: rest =>
      let tenant := peer.tenant ids
      if tenant = owner then reserve owner configured rest
      else
        let (ranges, addresses) := reserve owner (tenant :: configured) rest
        (if configured.contains tenant then ranges else defaultRange :: ranges,
          match peer.address with
          | some ip => ip :: addresses
          | none => addresses)

def occupied (faults : Faults) (owner : String) (db : Database α) :
    ApiResult (List Network × List Ipv4Addr) := do
  let networks ← answer faults.networks (db.networks.erase owner).entries
  let configured ← networks.mapM fun entry => return (← preferences numbers ipv6 entry.2).1
  let peers ← answer faults.peers db.peers
  let (ranges, addresses) := reserve ids owner (networks.map Prod.fst) peers
  return (configured ++ ranges, addresses)

def available (candidate : Network) (ranges : List Network) (addresses : List Ipv4Addr) : Bool :=
  !ranges.any candidate.overlaps && !addresses.any candidate.contains

/-- The first of the next `count` candidates that may be taken. -/
def search (free : Network → Bool) : Nat → Nat → Option Network
  | _, 0 => none
  | offset, count + 1 =>
      if free (candidate offset) then some (candidate offset) else search free (offset + 1) count

def noRange : ApiError :=
  .status 409 "No unused default private range is available; configure a private range"

/-- The range for a tenant without a document. -/
def choose (faults : Faults) (owner : String) (db : Database α) : ApiResult Network := do
  let some oid := ids.parseStr owner | throw (.badRequest "Invalid workspace")
  let legacy ← answer faults.legacy (db.peers.any fun peer => peer.workspace = .objectId oid)
  let (ranges, addresses) ← occupied ids numbers ipv6 faults owner db
  match search (fun range => legacy || available range ranges addresses) 0 65536 with
  | some chosen => return chosen
  | none => throw noRange

def newDocument (owner : String) (range : Network) : Fields :=
  [("_id", .string owner), ("cidr", .string (String.ofList range.cidr)),
    ("dns_suffix", .string "phub")]

def ensureLocked (faults : Faults) (owner : String) (db : Database α) :
    ApiResult Fields × Database α :=
  match answer faults.existing (db.networks.get? owner) with
  | .error error => (.error error, db)
  | .ok (some existing) => (.ok existing, db)
  | .ok none =>
      match choose ids numbers ipv6 faults owner db with
      | .error error => (.error error, db)
      | .ok chosen =>
          let document := newDocument owner chosen
          faults.write.perform document owner document db

def overlapping : ApiError :=
  .status 409 ("This private range overlaps another tenant's network or assigned addresses; "
    ++ "choose a different range")

/-- The checks of `save`. -/
def permit (faults : Faults) (owner : String) (network : Network) (db : Database α) :
    ApiResult (Option Fields) := do
  let (ranges, addresses) ← occupied ids numbers ipv6 faults owner db
  let current ← answer faults.existing (db.networks.get? owner)
  let unchanged := (current.bind fun document => (preferences numbers ipv6 document).toOption).any
    fun preferences => preferences.1.cidr == network.cidr
  if !unchanged && !available network ranges addresses then throw overlapping
  else return current

/-- `update_one` with `$set`, or the insertion of an upsert. -/
def update (owner : String) (network : Network) (suffix : String) (now : Value)
    (current : Option Fields) : Fields :=
  let document : Fields := current.getD [("_id", .string owner)]
  ((document.insert "cidr" (.string (String.ofList network.cidr))).insert "dns_suffix"
    (.string suffix)).insert "updated_at" now

def save (faults : Faults) (owner : String) (network : Network) (suffix : String) (now : Value)
    (db : Database α) : ApiResult Unit × Database α :=
  match permit ids numbers ipv6 faults owner network db with
  | .error error => (.error error, db)
  | .ok current =>
      faults.write.perform () owner (update owner network suffix now current) db

end Allocation

end PrivateNetworks

end PortHub.Api
