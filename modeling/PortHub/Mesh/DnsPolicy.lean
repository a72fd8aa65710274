import Mathlib.Data.List.Sort
import PortHub.Rust

/-! # Domain policy shared by the management server and the DNS responder

Rules are validated and ordered as a whole before they are published. A rule
covers its zone on label boundaries; a wildcard rule leaves out the apex.
-/

namespace PortHub.Mesh.DnsPolicy

inductive Action where
  | block
  deriving DecidableEq, Repr

structure Rule where
  domain : List Char
  action : Action
  includeSubdomains : Bool
  deriving DecidableEq, Repr

def validLabel (label : List Char) : Bool :=
  !label.isEmpty && Text.byteLen label ≤ 63 && label.head? != some '-' && label.getLast? != some '-'
    && label.all fun c => Text.isAsciiAlphanumeric c || c == '-'

def domain (raw : List Char) : Result (List Char) := do
  let name := Text.toAsciiLowercase (Text.trimEnd '.' (Text.trim raw))
  ensure (Text.byteLen name ≤ 253 && name.contains '.' && !IpText.isIpAddr name)
    "Enter a DNS domain, not an IP address or URL"
  ensure ((name.splitOn '.').all validLabel) "Invalid DNS domain"
  return name

/-- The marker of a rule for the subdomains only. -/
def wildcard : List Char := ['*', '.']

def zone (rule : Rule) : List Char := (Text.stripPrefix rule.domain wildcard).getD rule.domain

def isWildcard (rule : Rule) : Bool := decide (wildcard <+: rule.domain)

def prepareRule (rule : Rule) : Result Rule := do
  let name ← match Text.stripPrefix (Text.trim rule.domain) wildcard with
    | some base => (domain base).map (wildcard ++ ·)
    | none => domain rule.domain
  let rule := { rule with domain := name }
  return if isWildcard rule then { rule with includeSubdomains := true } else rule

/-- The validation loop: every domain is seen once. -/
def prepareAll : List Rule → List (List Char) → Result (List Rule)
  | [], _ => .ok []
  | rule :: rest, seen => do
      let rule ← prepareRule rule
      ensure (!seen.contains rule.domain) "Conflicting DNS rules for the same domain"
      let rest ← prepareAll rest (rule.domain :: seen)
      return rule :: rest

/-- Longer zones first, then wildcards, then by name. -/
def order (a b : Rule) : Ordering :=
  (compare (Text.byteLen (zone b)) (Text.byteLen (zone a))).then
    ((compare (isWildcard b) (isWildcard a)).then (compare a.domain b.domain))

def precedes (a b : Rule) : Prop := (order a b).isLE = true

instance precedes_decidable : DecidableRel precedes := fun a b =>
  inferInstanceAs (Decidable ((order a b).isLE = true))

/-- The order of `sort_by`. -/
def sortRules (rules : List Rule) : List Rule := rules.insertionSort precedes

def prepare (rules : List Rule) : Result (List Rule) := do
  ensure (rules.length ≤ 256) "At most 256 DNS rules may apply to a machine"
  let result ← prepareAll rules []
  return sortRules result

def covers (rule : Rule) (name : List Char) : Bool :=
  (!isWildcard rule && name == zone rule)
    || rule.includeSubdomains
      && (Text.stripSuffix name (zone rule)).any fun head => Text.endsWith head ['.']

def matching (rules : List Rule) (query : List Char) : Option Rule :=
  rules.find? fun rule => covers rule (Text.trimEnd '.' query)

end PortHub.Mesh.DnsPolicy
