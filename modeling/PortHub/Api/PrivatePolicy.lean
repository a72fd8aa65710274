import Mathlib.Data.Prod.Lex
import PortHub.Api.Input
import PortHub.Lib.Decimal
import PortHub.Lib.Dict
import PortHub.Lib.Sorted

/-! # Allow-only policies of a private network

A rule book is a document whose rules are read again on every use; a rule that
does not validate is skipped. `evaluate` previews one connection and `compile`
expands the rules into grants between machines. The decimal digits outside ASCII
are the Unicode class Nd, which is a parameter.
-/

namespace PortHub.Api.PrivatePolicy

open Check

structure Selector where
  kind : String
  id : String
  deriving DecidableEq, Repr

structure Rule where
  id : String
  name : String
  sources : List Selector
  destinations : List Selector
  protocol : String
  ports : List Char
  bidirectional : Bool
  enabled : Bool
  deriving DecidableEq, Repr

structure Port where
  start : UInt16
  stop : UInt16
  deriving DecidableEq, Repr

/-- Ports are sorted by their start, then by their end. -/
instance : LinearOrder Port :=
  LinearOrder.lift' (fun port => toLex (port.start.toNat, port.stop.toNat)) (by
    rintro ⟨_, _⟩ ⟨_, _⟩ same
    obtain ⟨start, stop⟩ := Prod.mk.inj same
    exact congrArg₂ Port.mk (UInt16.toNat_inj.mp start) (UInt16.toNat_inj.mp stop))

structure Grant where
  source : String
  destination : String
  protocol : String
  ports : List Port
  deriving DecidableEq, Repr

structure Decision where
  allowed : Bool
  ruleId : Option String
  bookId : Option String
  reason : String
  deriving DecidableEq, Repr

section Ports

variable (nd : Char → Bool)

/-- How many digits precede a code point without a break. -/
def digitsBefore : Nat → Nat
  | 0 => 0
  | code + 1 => if code.isValidChar ∧ nd (Char.ofNat code) then digitsBefore code + 1 else 0

def decimal (c : Char) : Option Nat :=
  if c.isDigit then some (c.toNat - 48)
  else if nd c then some (digitsBefore nd c.toNat % 10)
  else none

def number (part : List Char) : Option Nat :=
  let part := strip part
  if 1 ≤ part.length ∧ part.length ≤ 5 then
    part.foldlM (fun n c => (decimal nd c).map fun d => n * 10 + d) 0
  else none

def portHint : String := "Use ports such as 22, 443, 8000-8090"

/-- One port or one range. -/
def portItem (item : List Char) : Except String Port := do
  let parts := item.splitOn '-'
  let some start := number nd (parts.getD 0 []) | throw portHint
  let some stop := (parts[1]?.map (number nd)).getD (some start) | throw portHint
  if 2 < parts.length then throw portHint
  else if start = 0 ∨ stop < start ∨ 65535 < stop then
    throw "Ports must be between 1 and 65535, with ranges in ascending order"
  else return ⟨UInt16.ofNat start, UInt16.ofNat stop⟩

/-- Lower case matters for three words only, so that of ASCII is enough. -/
def ports (value : List Char) : Except String (List Port) := do
  let value := strip value
  if ["", "any", "all", "*"].contains (String.ofList (Text.toAsciiLowercase value)) then return []
  else
    let result ← (value.splitOn ',').mapM (portItem nd)
    if 64 < result.length then throw "Use no more than 64 port entries"
    else return Sorted.arrange result

end Ports

def formatPort (port : Port) : List Char :=
  if port.start = port.stop then Decimal.render port.start.toNat
  else Decimal.render port.start.toNat ++ '-' :: Decimal.render port.stop.toNat

def formatPorts (ports : List Port) : List Char := [',', ' '].intercalate (ports.map formatPort)

section Parsing

variable (numbers : Numbers) (nd : Char → Bool)

def model (raw : Value) : ApiResult Model := Model.new (((dictionary raw).map .object).getD raw)

def string (key : String) (min max : Nat) : Check String := do
  let value ← requiredString numbers key
  stringLength key value min max
  return value

def boolean (key : String) (default : Bool) : Check Bool := do
  if ((← get).field key).isSome then requiredBool numbers key else return default

def selector : Check Selector := do
  let kind ←
    if ((← get).field "kind").isNone then requiredString numbers "kind"
    else literal "kind" "" ["machine", "user", "group", "all"]
  let id ← string numbers "id" 1 64
  if (← get).fieldValid "id" && kind == "all" && id != "machines" then
    add "id" "Use id \"machines\" for all machines" "value_error"
  return ⟨kind, id⟩

/-- Read the children one by one; invalid ones only leave their errors. -/
def collectSelectors : List Model → Check (List Selector)
  | [] => return []
  | child :: rest => do
      if child.isValid then
        let (found, child) := (selector numbers).run child
        merge child
        let others ← collectSelectors rest
        return if child.isValid then found :: others else others
      else
        merge child
        collectSelectors rest

def selectors (key : String) : Check (List Selector) := do
  collectSelectors numbers (← objects key true 1 32)

/-- The fields of a rule, with the ports as they were written. -/
def draft : Check Rule := do
  let id ← string numbers "id" 1 64
  let name ← string numbers "name" 1 80
  if (← get).fieldValid "name" && (strip name.toList).isEmpty then
    add "name" "A rule name is required" "value_error"
  let sources ← selectors numbers "sources"
  let destinations ← selectors numbers "destinations"
  let protocol ← literal "protocol" "tcp" ["any", "tcp", "udp", "icmp"]
  let rawPorts ← if ((← get).field "ports").isSome then string numbers "ports" 0 512 else pure ""
  let rawPorts := if (← get).fieldValid "ports" then rawPorts else ""
  let bidirectional ← boolean numbers "bidirectional" false
  let enabled ← boolean numbers "enabled" true
  return {
    id, name := String.ofList (strip name.toList), sources, destinations, protocol
    ports := rawPorts.toList, bidirectional, enabled }

/-- The ports in their normal form. -/
def normalize (protocol : String) (rawPorts : List Char) : Check (List Char) := do
  match ports nd rawPorts with
  | .ok ranges =>
      if !ranges.isEmpty && protocol != "tcp" && protocol != "udp" then
        add "__root__" "Port restrictions require TCP or UDP" "value_error"
        return []
      else return formatPorts ranges
  | .error message =>
      add "__root__" message "value_error"
      return []

def rule : Check Rule := do
  let drafted ← draft numbers
  let ports ← normalize nd drafted.protocol drafted.ports
  return { drafted with ports }

def parseRule (raw : Value) : ApiResult Rule := do
  let model ← model raw
  let (result, final) := (rule numbers nd).run model
  final.finish
  return result

end Parsing

section Matching

variable (numbers : Numbers) (nd : Char → Bool) (groups : Dict String Value)

def field (value : Value) (key : String) : String := (value.at_ key).text numbers

def enabled (value : Value) : Bool := (value.get? "enabled").all (Value.truthy numbers)

def revoked (value : Value) : Bool := (value.at_ "private_owner_revoked").truthy numbers

def entityMatches (selector : Selector) (machine : Value) : Bool :=
  if selector.kind == "all" then true
  else if selector.kind == "machine" then field numbers machine "_id" == selector.id
  else
    let owner :=
      if (machine.at_ "private_owner_id").truthy numbers then
        field numbers machine "private_owner_id"
      else field numbers machine "user_id"
    if selector.kind == "user" then owner == selector.id
    else
      match (groups.get? selector.id).filter fun _ => selector.kind == "group" with
      | none => false
      | some group =>
          let ids :=
            if (machine.at_ "group_ids").truthy numbers then (machine.at_ "group_ids").items
            else if (machine.at_ "group_id").truthy numbers then [machine.at_ "group_id"]
            else []
          ids.any (fun id => id.text numbers == selector.id)
            || (group.at_ "user_ids").items.any fun id => id.text numbers == owner

def matched (selectors : List Selector) (machine : Value) : Bool :=
  selectors.any fun selector => entityMatches numbers groups selector machine

/-- The rules of a book that validate. -/
def rules (book : Value) : List Rule :=
  (book.at_ "rules").items.filterMap fun raw => (parseRule numbers nd raw).toOption

/-- `ports(&rule.ports).expect("validated ports")`. -/
def ranges (text : List Char) : List Port := (ports nd text).toOption.getD []

def deny (reason : String) : Decision := ⟨false, none, none, reason⟩

def inRange (port : Int) (range : Port) : Bool :=
  decide ((range.start.toNat : Int) ≤ port) && decide (port ≤ range.stop.toNat)

/-- What one rule says about the connection. -/
def decideRule (source destination : Value) (protocol : String) (port : Int) (book : Value)
    (rule : Rule) : Option Decision :=
  if rule.enabled && (rule.protocol == "any" || rule.protocol == protocol) then
    let ranges := ranges nd rule.ports
    if !ranges.isEmpty && !ranges.any (inRange port) then none
    else
      let pair := fun a b =>
        matched numbers groups rule.sources a && matched numbers groups rule.destinations b
      if pair source destination || (rule.bidirectional && pair destination source) then
        some ⟨true, some rule.id, some (field numbers book "_id"), rule.name⟩
      else none
  else none

def evaluate (source destination : Value) (protocol : String) (port : Int) (books : List Value) :
    Decision :=
  if source.isNull || destination.isNull || (source.at_ "enabled").isFalse
      || (destination.at_ "enabled").isFalse || revoked numbers source
      || revoked numbers destination then
    deny "Both machines must be enabled"
  else if field numbers source "user_id" != field numbers destination "user_id" then
    deny "Machines belong to different workspaces"
  else if !(["tcp", "udp", "icmp"].contains protocol) then
    deny "Unsupported protocol or invalid port"
  else if protocol != "icmp" && !(decide (1 ≤ port) && decide (port ≤ 65535)) then
    deny "Port is outside the supported range"
  else
    let relevant := books.filter fun book => enabled numbers book
      && groups.contains (field numbers book "group_id")
      && field numbers book "user_id" == field numbers source "user_id"
    let found := relevant.findSome? fun book =>
      (rules numbers nd book).findSome?
        (decideRule numbers nd groups source destination protocol port book)
    found.getD (deny "No enabled rule allows this connection")

/-- The key under which a grant is pushed once. -/
structure Offer where
  source : String
  destination : String
  protocol : String
  ports : List Char
  deriving DecidableEq, Repr

def Offer.grant (offer : Offer) : Grant :=
  ⟨offer.source, offer.destination, offer.protocol, ranges nd offer.ports⟩

/-- Push the grants of keys that were not seen before. -/
def collect : List Offer → List Offer → List Grant
  | _, [] => []
  | seen, offer :: rest =>
      if seen.contains offer then collect seen rest
      else offer.grant nd :: collect (offer :: seen) rest

/-- The body of the loop over pairs of machines. -/
def pairOffers (rule : Rule) (source destination : Value) : List Offer :=
  let pairs :=
    if rule.bidirectional then [(source, destination), (destination, source)]
    else [(source, destination)]
  pairs.filterMap fun (left, right) =>
    if (left.at_ "_id").same (right.at_ "_id") then none
    else some ⟨field numbers left "_id", field numbers right "_id", rule.protocol, rule.ports⟩

def select (active : List Value) (book : Value) (selectors : List Selector) : List Value :=
  active.filter fun machine =>
    field numbers machine "user_id" == field numbers book "user_id"
      && matched numbers groups selectors machine

def ruleOffers (active : List Value) (scope : Option String) (book : Value) (rule : Rule) :
    List Offer :=
  let sources := select numbers groups active book rule.sources
  let destinations := select numbers groups active book rule.destinations
  let scopedDestinations := destinations.filter fun machine =>
    scope.any fun id => field numbers machine "_id" == id
  sources.flatMap fun source =>
    let destinations :=
      if scope.all fun id => field numbers source "_id" == id then destinations
      else scopedDestinations
    destinations.flatMap (pairOffers numbers rule source)

def offers (machines books : List Value) (scope : Option String) : List Offer :=
  let active := machines.filter fun machine => enabled numbers machine && !revoked numbers machine
  let relevant := books.filter fun book =>
    enabled numbers book && groups.contains (field numbers book "group_id")
  relevant.flatMap fun book =>
    ((rules numbers nd book).filter Rule.enabled).flatMap
      (ruleOffers numbers groups active scope book)

def compileInner (machines books : List Value) (scope : Option String) : List Grant :=
  collect nd [] (offers numbers nd groups machines books scope)

def compile (machines books : List Value) : List Grant :=
  compileInner numbers nd groups machines books none

def compileFor (machines books : List Value) (machine : String) : List Grant :=
  compileInner numbers nd groups machines books (some machine)

end Matching

end PortHub.Api.PrivatePolicy
