import PortHub.Lib.Decimal
import PortHub.Rust

/-! # Firewall rules

The rules of one table, as they are declared, and how a packet is evaluated: a chain is
read in order, a rule stops at its first expression that does not match, and accept and
drop end the chain. IPv6 sources are in no set of IPv4 addresses.
-/

namespace PortHub.Firewall

structure Policy where
  isPublic : Bool
  allowedIps : List Ipv4Addr
  deriving DecidableEq, Repr

/-- A map from ports, in their order. -/
structure Policies where
  entries : List (UInt16 × Policy)
  sorted : entries.Pairwise fun first second => first.1 < second.1

def Policies.get? (policies : Policies) (port : UInt16) : Option Policy := policies.entries.lookup port

inductive Address where
  | v4 (ip : Ipv4Addr)
  | v6 (groups : List UInt16)
  deriving DecidableEq, Repr

structure Packet where
  source : Address
  destination : Address
  sport : UInt16
  dport : UInt16
  /-- The first packet of a connection. -/
  isNew : Bool
  deriving DecidableEq, Repr

inductive Field where
  | saddr
  | daddr
  deriving DecidableEq, Repr

inductive Expression where
  | tcpDport (port : UInt16)
  | tcpSport (port : UInt16)
  | ctNew
  | saddrInSet (set : List Char)
  | updateInSet (field : Field) (set : List Char)
  | counterNamed (name : List Char)
  | accept
  | drop
  deriving DecidableEq, Repr

structure SetConfig where
  name : List Char
  /-- Sets that rules fill have a size and a timeout in seconds, and no elements. -/
  dynamic : Option (Nat × Nat)
  elements : List Ipv4Addr
  deriving DecidableEq, Repr

structure Rule where
  key : List Char
  expressions : List Expression
  deriving DecidableEq, Repr

structure Table where
  name : List Char
  objects : List (List Char)
  sets : List SetConfig
  input : List Rule
  output : List Rule
  deriving DecidableEq, Repr

section Building

/-- `format!("{prefix}_{port}")`. -/
def named (word : String) (port : UInt16) : List Char := word.toList ++ '_' :: Decimal.render port.toNat

def recentSet (word : String) (port : UInt16) (ttl : Nat) : SetConfig := ⟨named word port, some (4096, ttl), []⟩

def portObjects (port : UInt16) : List (List Char) :=
  [named "cnt_in" port, named "cnt_out" port, named "cnt_drop" port]

def portSets (port : UInt16) (policy : Policy) (ttl : Nat) : List SetConfig :=
  [recentSet "recent" port ttl, recentSet "recent_out" port ttl] ++
    if policy.allowedIps.isEmpty then []
    else [⟨named "allow" port, none, policy.allowedIps⟩, recentSet "blocked" port ttl]

def portInput (port : UInt16) (policy : Policy) : List Rule :=
  ⟨named "recent" port, [.tcpDport port, .ctNew, .updateInSet .saddr (named "recent" port)]⟩ ::
    -- an empty allowlist does not restrict the port
    if policy.allowedIps.isEmpty then
      [⟨named "allow" port, [.tcpDport port, .counterNamed (named "cnt_in" port), .accept]⟩]
    else [
      ⟨named "allow" port,
        [.tcpDport port, .saddrInSet (named "allow" port), .counterNamed (named "cnt_in" port), .accept]⟩,
      ⟨named "track_blocked" port, [.tcpDport port, .ctNew, .updateInSet .saddr (named "blocked" port)]⟩,
      ⟨named "drop" port, [.tcpDport port, .counterNamed (named "cnt_drop" port), .drop]⟩]

def portOutput (port : UInt16) : List Rule := [
  ⟨named "recent_out" port, [.tcpSport port, .updateInSet .daddr (named "recent_out" port)]⟩,
  ⟨named "count_out" port, [.tcpSport port, .counterNamed (named "cnt_out" port), .accept]⟩]

def checkPolicy (entry : UInt16 × Policy) : Result Unit := do
  ensure (decide (0 < entry.1)) "invalid firewall port"
  ensure (decide (entry.2.allowedIps.length ≤ 4096)) "too many allowed addresses"
  ensure (!entry.2.isPublic || entry.2.allowedIps.isEmpty) "public policies cannot contain an allowlist"

/-- `rules`, with the timeout in seconds. -/
def rules (policies : Policies) (table : List Char) (ttl : Nat) : Result Table := do
  ensure (table == "porthub".toList || "porthub_".toList.isPrefixOf table || table == "rathole".toList)
    "firewall table must belong to PortHub"
  ensure (decide (Text.byteLen table ≤ 64) && table.all fun c => Text.isAsciiAlphanumeric c || c == '_')
    "invalid PortHub table name"
  ensure (decide (0 < ttl) && decide (ttl ≤ 86400)) "invalid recent-address timeout"
  policies.entries.forM checkPolicy
  return {
    name := table
    objects := policies.entries.flatMap fun entry => portObjects entry.1
    sets := policies.entries.flatMap fun entry => portSets entry.1 entry.2 ttl
    input := policies.entries.flatMap fun entry => portInput entry.1 entry.2
    output := policies.entries.flatMap fun entry => portOutput entry.1 }

end Building

section Evaluation

inductive Verdict where
  | accept
  | drop
  deriving DecidableEq, Repr

inductive Effect where
  | counted (counter : List Char)
  | updated (set : List Char) (ip : Ipv4Addr)
  deriving DecidableEq, Repr

/-- What happened to a packet, and how it ended if it did. -/
structure Outcome where
  effects : List Effect
  verdict : Option Verdict
  deriving DecidableEq, Repr

/-- The counters that a packet increased. -/
def Outcome.counters (outcome : Outcome) : List (List Char) :=
  outcome.effects.filterMap fun
    | .counted counter => some counter
    | .updated _ _ => none

/-- Do this first. -/
def Outcome.after (effect : Effect) (outcome : Outcome) : Outcome :=
  { outcome with effects := effect :: outcome.effects }

variable (sets : List SetConfig)

/-- The address is an element of the set of that name. -/
def inSet (name : List Char) : Address → Bool
  | .v4 ip => ((sets.find? fun set => set.name == name).map fun set => set.elements.contains ip).getD false
  | .v6 _ => false

def Field.read (packet : Packet) : Field → Address
  | .saddr => packet.source
  | .daddr => packet.destination

/-- The expressions of a rule, in order. -/
def evaluate (packet : Packet) : List Expression → Outcome
  | [] => ⟨[], none⟩
  | .tcpDport port :: rest => if packet.dport = port then evaluate packet rest else ⟨[], none⟩
  | .tcpSport port :: rest => if packet.sport = port then evaluate packet rest else ⟨[], none⟩
  | .ctNew :: rest => if packet.isNew then evaluate packet rest else ⟨[], none⟩
  | .saddrInSet name :: rest => if inSet sets name packet.source then evaluate packet rest else ⟨[], none⟩
  | .updateInSet field name :: rest =>
      match field.read packet with
      | .v4 ip => (evaluate packet rest).after (.updated name ip)
      | .v6 _ => ⟨[], none⟩
  | .counterNamed name :: rest => (evaluate packet rest).after (.counted name)
  | .accept :: _ => ⟨[], some .accept⟩
  | .drop :: _ => ⟨[], some .drop⟩

/-- A chain: a rule without a verdict leaves the packet to the next one. -/
def evaluateChain (packet : Packet) : List Rule → Outcome
  | [] => ⟨[], none⟩
  | rule :: rest =>
      let outcome := evaluate sets packet rule.expressions
      match outcome.verdict with
      | some _ => outcome
      | none =>
          let later := evaluateChain packet rest
          ⟨outcome.effects ++ later.effects, later.verdict⟩

end Evaluation

end PortHub.Firewall
