import Mathlib.Data.Finset.Sort
import PortHub.Api.Address
import PortHub.Lib.Faults
import PortHub.Network.Policy

/-! # Exit routes of a consumer

A consumer routes new connections of the host through an exit: policy rules and
a route in the kernel, two nftables tables and rules for Docker. What it is
about to change is written to a journal first, so that a later process can take
it back. Every kernel, file or netlink call is an operation of its own that may
fail or be the last thing the process does; calls that only read are part of the
operation they prepare.
-/

namespace PortHub.Agent.ExitRoutes

open Faults
open Network (TrafficMode)

/-! ## Networks and plans -/

/-- The network address of a prefix inside a private range. -/
def networkAddress (address : Ipv4Addr) (length : Nat) : Option Ipv4Addr :=
  if 1 ≤ length ∧ length ≤ 32 then
    let mask := (2 ^ 32 - 1) <<< (32 - length) % 2 ^ 32
    let base := Ipv4Addr.ofBits (address.toBits &&& mask)
    let final := Ipv4Addr.ofBits (base.toBits ||| (2 ^ 32 - 1 - mask))
    if base.isPrivate && final.isPrivate then some base else none
  else none

/-- `lan_routes::Network`. -/
structure Network where
  address : Ipv4Addr
  length : Nat
  canonical : networkAddress address length = some address
deriving DecidableEq

theorem networkAddress_idem {address base length}
    (found : networkAddress address length = some base) :
    networkAddress base length = some base := by
  unfold networkAddress at found ⊢
  split at found
  · rename_i sized
    rw [if_pos sized]
    dsimp only at found ⊢
    have small : address.toBits &&& (2 ^ 32 - 1) <<< (32 - length) % 2 ^ 32 < 2 ^ 32 :=
      Nat.and_lt_two_pow _ (Nat.mod_lt _ (by decide))
    split at found
    · rename_i reserved
      cases found
      have kept := Ipv4Addr.toBits_ofBits small
      rw [kept, Nat.and_assoc, Nat.and_self]
      rw [kept] at reserved
      rw [if_pos]
      rw [kept]
      exact reserved
    · cases found
  · cases found

namespace Network

/-- `Network::from_address`. -/
def fromAddress (address : Ipv4Addr) (length : Nat) : Option Network :=
  match found : networkAddress address length with
  | none => none
  | some base => some ⟨base, length, networkAddress_idem found⟩

theorem fromAddress_self (network : Network) :
    fromAddress network.address network.length = some network := by
  unfold fromAddress
  split
  · rename_i absent
    cases network.canonical.symm.trans absent
  · rename_i base found
    obtain rfl := Option.mem_unique network.canonical found
    rfl

/-- Networks are ordered by address, then by length. -/
def key (network : Network) : Nat := network.address.toBits * 64 + network.length

theorem length_le (network : Network) : network.length ≤ 32 := by
  have found := network.canonical
  unfold networkAddress at found
  split at found
  · rename_i sized
    exact sized.2
  · cases found

theorem key_injective : Function.Injective key := by
  intro first second same
  have small := first.length_le
  have other := second.length_le
  unfold key at same
  have bits : first.address.toBits = second.address.toBits := by omega
  have lengths : first.length = second.length := by omega
  have addresses : first.address = second.address := by
    rw [← Ipv4Addr.ofBits_toBits first.address, bits, Ipv4Addr.ofBits_toBits]
  obtain ⟨address, length, canonical⟩ := first
  obtain rfl : address = second.address := addresses
  obtain rfl : length = second.length := lengths
  rfl

instance : LinearOrder Network := LinearOrder.lift' key key_injective

end Network

theorem toBits_injective : Function.Injective Ipv4Addr.toBits := by
  intro first second same
  rw [← Ipv4Addr.ofBits_toBits first, same, Ipv4Addr.ofBits_toBits]

instance : LinearOrder Ipv4Addr := LinearOrder.lift' Ipv4Addr.toBits toBits_injective

/-- `exit_plan::Plan`. -/
structure Plan where
  index : Nat
  own : Ipv4Addr
  mode : TrafficMode
  bypass : Bool
  networks : List Network

namespace Plan

def internetBypass (plan : Plan) : Bool := plan.bypass || !plan.mode.internet

def lanNetworks (plan : Plan) : List Network := if plan.mode.lan then plan.networks else []

end Plan

/-! ## The kernel -/

def firstPriority : Nat := 22500

def lastPriority : Nat := 22600

def ruleProtocol : Nat := 186

def lanPriority : Nat := firstPriority + 68

def privateBypassPriority : Nat := firstPriority + 69

/-- The main table. -/
def mainTable : Nat := 254

def privateNetworks : List (Ipv4Addr × Nat) :=
  [(⟨10, 0, 0, 0⟩, 8), (⟨172, 16, 0, 0⟩, 12), (⟨192, 168, 0, 0⟩, 16)]

/-- An IPv4 policy rule. -/
structure Rule where
  priority : Nat
  protocol : Option Nat
  source : Option (Ipv4Addr × Nat)
  destination : Option (Ipv4Addr × Nat)
  mark : Option Nat
  suppress : Option Nat
  table : Nat
deriving DecidableEq

def Rule.new (priority table : Nat) : Rule :=
  ⟨priority, some ruleProtocol, none, none, none, none, table⟩

/-- The priorities that PortHub claims for itself. -/
def Rule.inRange (rule : Rule) : Bool :=
  firstPriority ≤ rule.priority && rule.priority ≤ lastPriority

/-- A default route of link scope. -/
structure Route where
  table : Nat
  device : Nat
  source : Ipv4Addr
deriving DecidableEq

/-- `exit_journal::Journal`. -/
structure Journal where
  index : Nat
  name : String
  own : Ipv4Addr
  sources : List (Ipv4Addr × Nat)
  lanNetworks : List Network
  privateBypass : Bool
  ipv6Guard : Bool
  ownSourceRule : Bool
  containerForwarding : Bool
deriving DecidableEq

structure World where
  rules : List Rule
  routes : List Route
  /-- The nftables table `porthub_exit6_…` of an interface: whether it lets new
      connections pass. -/
  guards : Dict String Bool
  /-- The nftables table `porthub_containers_…` of an interface: whether new
      connections are direct, and the networks that go through the exit. -/
  classifiers : Dict String (Bool × List Network)
  /-- The rules of an interface in `DOCKER-USER`, if there is that chain. -/
  docker : Option (Dict String Nat)
  links : Dict Nat String
  journal : Option Journal

/-- Where an operation failed, as far as it matters to others: while rules were
    taken back, or at the end of a switch of the mode. -/
inductive Fault where
  | plain
  | clearing
  | switched
deriving DecidableEq

abbrev Exit := Prog World Fault

/-- `RTM_NEWRULE` with `NLM_F_EXCL`: a rule that exists is refused. -/
def addRule (rule : Rule) : Exit Unit :=
  .op .plain fun world =>
    if rule ∈ world.rules then none else some ((), { world with rules := world.rules ++ [rule] })

def delRuleIfExists (fault : Fault) (rule : Rule) : Exit Unit :=
  .op fault fun world => some ((), { world with rules := world.rules.erase rule })

def addRoute (route : Route) : Exit Unit :=
  .op .plain fun world =>
    if route ∈ world.routes then none
    else some ((), { world with routes := world.routes ++ [route] })

def delRouteIfExists (fault : Fault) (route : Route) : Exit Unit :=
  .op fault fun world => some ((), { world with routes := world.routes.erase route })

def getRulesV4 : Exit (List Rule) := .op .plain fun world => some (world.rules, world)

/-- `exit_forwarding::lock`. -/
def lock : Exit Unit := .op .plain fun world => some ((), world)

/-- The names of the interfaces that PortHub makes. -/
def validName (name : String) : Bool :=
  let text := name.toList
  text.length == 10 && text.take 2 == ['p', 'h'] && (text.drop 2).all fun c =>
    c.isDigit || ('a' ≤ c && c ≤ 'f') || ('A' ≤ c && c ≤ 'F')

/-! ## Containers and IPv6 -/

def validMark (index : Nat) : Bool := 0 < index && index < 0x10000000

def exitMark (index : Nat) : Nat := 0x50000000 ||| index

def directMark (index : Nat) : Nat := 0x60000000 ||| index

/-- `exit_containers::routes`. -/
def containerRoutes (index table : Nat) : Option (List Rule) :=
  if validMark index then
    some [{ Rule.new (firstPriority + 66) table with mark := some (exitMark index) },
      { Rule.new (firstPriority + 67) mainTable with mark := some (directMark index) }]
  else none

/-- `exit_containers::apply_with_lan`. -/
def applyWithLan (fault : Fault) (name : String) (index : Nat) (bypass : Bool)
    (networks : List Network) : Exit Unit := do
  .ensure fault (networks.length ≤ 256)
  .ensure fault (validName name)
  .ensure fault (validMark index)
  .op fault fun world =>
    some ((), { world with classifiers := world.classifiers.insert name (bypass, networks) })
  .op fault fun world =>
    some ((), { world with docker := world.docker.map (·.insert name (exitMark index)) })
  -- `/proc/sys/net/ipv4/conf/…/forwarding`
  .op fault fun world => some ((), world)

/-- `exit_containers::clear`. -/
def clearContainers (name : String) : Exit Unit := do
  .op .plain fun world => some ((), { world with docker := world.docker.map (·.erase name) })
  .ensure .plain (validName name)
  .op .plain fun world => some ((), { world with classifiers := world.classifiers.erase name })

/-- `exit_ipv6::apply_mode`. -/
def applyMode (name : String) (bypass : Bool) : Exit Unit := do
  .ensure .plain (validName name)
  .op .plain fun world => some ((), { world with guards := world.guards.insert name bypass })

/-- `exit_ipv6::clear`. -/
def clearGuard (name : String) : Exit Unit := do
  .ensure .clearing (validName name)
  .op .clearing fun world => some ((), { world with guards := world.guards.erase name })

/-! ## The journal -/

def exitTable (index : Nat) : Nat := 100000 + index

def firstRule : Rule := { Rule.new firstPriority mainTable with suppress := some 0 }

def ownRule (own : Ipv4Addr) (table : Nat) : Rule :=
  { Rule.new (firstPriority + 65) table with source := some (own, 32) }

def sourceRule (ip : Ipv4Addr) (priority : Nat) : Rule :=
  { Rule.new priority mainTable with source := some (ip, 32) }

def privateRule (network : Ipv4Addr × Nat) : Rule :=
  { Rule.new privateBypassPriority mainTable with destination := some network }

def lanRule (table : Nat) (network : Network) : Rule :=
  { Rule.new lanPriority table with destination := some (network.address, network.length) }

def catchAll (table : Nat) : Rule := Rule.new lastPriority table

namespace Journal

def table (journal : Journal) : Nat := exitTable journal.index

def renderBool (value : Bool) : List Char := (if value then "true" else "false").toList

def renderList (items : List (List Char)) : List Char :=
  '[' :: [','].intercalate items ++ [']']

def renderText (text : List Char) : List Char := '"' :: text ++ ['"']

def renderNetwork (network : Network) : List Char :=
  renderText (network.address.render ++ '/' :: Decimal.render network.length)

def renderSource (source : Ipv4Addr × Nat) : List Char :=
  renderList [renderText source.1.render, Decimal.render source.2]

/-- What `serde_json` writes. Names need no escapes. -/
def render (journal : Journal) : List Char :=
  let field (name : String) (value : List Char) := renderText name.toList ++ ':' :: value
  '\x7b' :: [','].intercalate
    [field "index" (Decimal.render journal.index),
      field "name" (renderText journal.name.toList),
      field "own" (renderText journal.own.render),
      field "sources" (renderList (journal.sources.map renderSource)),
      field "lan_networks" (renderList (journal.lanNetworks.map renderNetwork)),
      field "private_bypass" (renderBool journal.privateBypass),
      field "ipv6_guard" (renderBool journal.ipv6Guard),
      field "own_source_rule" (renderBool journal.ownSourceRule),
      field "container_forwarding" (renderBool journal.containerForwarding)] ++ ['\x7d']

/-- What `load` checks. -/
def accepted (journal : Journal) : Bool :=
  journal.render.length ≤ 65536 && 0 < journal.index && journal.index ≤ 2 ^ 32 - 1 - 100000
    && journal.own.isPrivate && validName journal.name && journal.sources.length ≤ 128
    && journal.lanNetworks.length ≤ 512
    && journal.sources.all fun source =>
      firstPriority + 1 ≤ source.2 && source.2 < firstPriority + 65

/-- The file is replaced atomically. -/
def save (journal : Journal) : Exit Unit :=
  .op .plain fun world => some ((), { world with journal := some journal })

def load : Exit (Option Journal) :=
  .op .plain fun world => if world.journal.all accepted then some (world.journal, world) else none

def route (journal : Journal) : Route := ⟨journal.table, journal.index, journal.own⟩

def remove : Exit Unit := .op .clearing fun world => some ((), { world with journal := none })

/-- The journal on disk, if there is one, is of the same owner. -/
def checkOwner (journal : Journal) : Option Journal → Exit Unit
  | none => pure ()
  | some current => .ensure .plain (current.index == journal.index
      && current.name == journal.name && current.own == journal.own)

def clearForwarding (journal : Journal) : Exit Unit := do
  clearContainers journal.name
  match containerRoutes journal.index journal.table with
  | none => .throw .plain
  | some rules => .each (delRuleIfExists .clearing) rules

def clear (journal : Journal) : Exit Unit := do
  let current ← load
  journal.checkOwner current
  .onlyIf journal.containerForwarding journal.clearForwarding
  .onlyIf journal.privateBypass
    (.each (fun network => delRuleIfExists .clearing (privateRule network)) privateNetworks)
  .each (fun network => delRuleIfExists .clearing (lanRule journal.table network))
    journal.lanNetworks
  .onlyIf journal.ipv6Guard (clearGuard journal.name)
  delRuleIfExists .clearing (catchAll journal.table)
  .onlyIf journal.ownSourceRule
    (delRuleIfExists .clearing (ownRule journal.own journal.table))
  .each (fun source => delRuleIfExists .clearing (sourceRule source.1 source.2)) journal.sources
  delRuleIfExists .clearing firstRule
  delRouteIfExists .clearing journal.route
  remove

/-- The journal of an interface that is gone is cleared. -/
def recoverFrom : Option Journal → Exit Unit
  | none => pure ()
  | some old => do
      let link ← .op .plain fun world => some (world.links.get? old.index, world)
      .ensure .plain (link != some old.name)
      old.clear

def recover : Exit Unit := do
  let old ← load
  recoverFrom old

end Journal

/-! ## The consumer -/

structure Consumer where
  index : Nat
  own : Ipv4Addr
  table : Nat
  sources : Dict Ipv4Addr Nat
  claimed : Bool
  bypass : Bool
  lanApplied : Bool
  journal : Journal

/-- A consumer and what it works on. -/
structure Host where
  world : World
  owner : Consumer

abbrev Owned := Prog Host Fault

def onWorld {α : Type} (inner : Exit α) : Owned α :=
  inner.zoom Host.world fun world host => { host with world }

def change (f : Consumer → Consumer) : Owned Unit :=
  .modify fun host => { host with owner := f host.owner }

def owner : Owned Consumer := do return (← Prog.get).owner

namespace Consumer

def route (consumer : Consumer) : Route := ⟨consumer.table, consumer.index, consumer.own⟩

def setSources (sources : List (Ipv4Addr × Nat)) (consumer : Consumer) : Consumer :=
  { consumer with journal := { consumer.journal with sources } }

def setLan (networks : List Network) (consumer : Consumer) : Consumer :=
  { consumer with journal := { consumer.journal with lanNetworks := networks } }

/-- The sources in the order of their addresses. -/
def recorded (consumer : Consumer) : List (Ipv4Addr × Nat) :=
  consumer.sources.entries.mergeSort fun first second => decide (first.1 ≤ second.1)

/-- The first priority that no source has. -/
def freePriority (consumer : Consumer) : Option Nat :=
  (List.range' (firstPriority + 1) 64).find? fun priority =>
    !consumer.sources.values.contains priority

end Consumer

def saveJournal : Owned Unit := do
  let consumer ← owner
  onWorld consumer.journal.save

def usable (ip : Ipv4Addr) : Bool := !ip.isUnspecified && !ip.isLoopback && !ip.isMulticast

def dropSource (source : Ipv4Addr × Nat) : Owned Unit := do
  onWorld (delRuleIfExists .plain (sourceRule source.1 source.2))
  change fun consumer => { consumer with sources := consumer.sources.erase source.1 }

def addSource (ip : Ipv4Addr) : Owned Unit := do
  let consumer ← owner
  if consumer.sources.contains ip then pure ()
  else
    match consumer.freePriority with
    | none => .throw .plain
    | some priority => do
        change fun consumer => consumer.setSources (consumer.journal.sources ++ [(ip, priority)])
        saveJournal
        onWorld (addRule (sourceRule ip priority))
        change fun consumer => { consumer with sources := consumer.sources.insert ip priority }

def recordSources : Owned Unit := do
  let consumer ← owner
  if consumer.journal.sources = consumer.recorded then pure ()
  else
    change fun consumer => consumer.setSources consumer.recorded
    saveJournal

def updateSources (underlay : Finset Ipv4Addr) : Owned Unit := do
  let consumer ← owner
  .ensure .plain (underlay.card ≤ 64 && consumer.own ∉ underlay
    && (underlay.sort (· ≤ ·)).all usable)
  .each dropSource (consumer.recorded.filter fun source => source.1 ∉ underlay)
  .each addSource (underlay.sort (· ≤ ·))
  recordSources

/-- What `update_sources` checks. -/
def Consumer.binds (consumer : Consumer) (underlay : Finset Ipv4Addr) : Bool :=
  underlay.card ≤ 64 && consumer.own ∉ underlay && (underlay.sort (· ≤ ·)).all usable

/-- The addresses that an update records, for they have no source yet. -/
def Consumer.newcomers (consumer : Consumer) (underlay : Finset Ipv4Addr) : List Ipv4Addr :=
  (underlay.sort (· ≤ ·)).filter fun ip => !consumer.sources.contains ip

def applyClassifier (fault : Fault) (bypass : Bool) : Owned Unit := do
  let consumer ← owner
  onWorld (applyWithLan fault consumer.journal.name consumer.index bypass
    consumer.journal.lanNetworks)

def applyGuard (bypass : Bool) : Owned Unit := do
  let consumer ← owner
  onWorld (applyMode consumer.journal.name bypass)

def addContainerRoutes (index table : Nat) : Owned Unit :=
  match containerRoutes index table with
  | none => .throw .plain
  | some rules => .each (fun rule => onWorld (addRule rule)) rules

/-- The catch-all is installed last. -/
def install (underlay : Finset Ipv4Addr) : Owned Unit := do
  let consumer ← owner
  onWorld (addRoute consumer.route)
  onWorld (addRule firstRule)
  onWorld (addRule (ownRule consumer.own consumer.table))
  updateSources underlay
  .each (fun network => onWorld (addRule (privateRule network))) privateNetworks
  addContainerRoutes consumer.index consumer.table
  applyClassifier .plain consumer.bypass
  applyGuard consumer.bypass
  .onlyIf (!consumer.bypass) (onWorld (addRule (catchAll consumer.table)))

def clearInner : Owned Unit := do
  let consumer ← owner
  .onlyIf consumer.claimed do
    onWorld consumer.journal.clear
    change fun consumer => { consumer with sources := .empty, claimed := false }

/-- `Consumer::clear`. -/
def clear : Owned Unit := do
  onWorld lock
  clearInner

def refresh (underlay : Finset Ipv4Addr) : Owned Unit := do
  onWorld lock
  updateSources underlay
  let consumer ← owner
  applyClassifier .plain consumer.bypass
  applyGuard consumer.bypass

/-- The networks that the kernel holds rules for. -/
def actualNetworks (table : Nat) (rules : List Rule) : Finset Network :=
  ((rules.filter fun rule => rule.priority == lanPriority && rule.protocol == some ruleProtocol
    && rule.table == table).filterMap fun rule =>
      rule.destination.bind fun network => Network.fromAddress network.1 network.2).toFinset

/-- Bring the rules from the previous networks to the wanted ones. Old and new
    ownership is recorded before anything changes. -/
def replaceNetworks (consumer : Consumer) (previous wanted : Finset Network) : Owned Unit := do
  change fun consumer => { consumer with lanApplied := false }
  let rules ← onWorld getRulesV4
  change (·.setLan ((previous ∪ wanted).sort (· ≤ ·)))
  saveJournal
  .each (fun network => onWorld (delRuleIfExists .plain (lanRule consumer.table network)))
    ((previous \ wanted).sort (· ≤ ·))
  .each (fun network => onWorld (addRule (lanRule consumer.table network)))
    ((wanted \ actualNetworks consumer.table rules).sort (· ≤ ·))
  change (·.setLan (wanted.sort (· ≤ ·)))
  saveJournal
  applyClassifier .plain consumer.bypass
  change fun consumer => { consumer with lanApplied := true }

def setLanNetworks (networks : List Network) : Owned Unit := do
  .ensure .plain (networks.length ≤ 256)
  onWorld lock
  let consumer ← owner
  let previous := consumer.journal.lanNetworks.toFinset
  .onlyIf (!(consumer.lanApplied && networks.toFinset == previous))
    (replaceNetworks consumer previous networks.toFinset)

def switchCatchAll (table : Nat) (bypass : Bool) : Owned Unit :=
  if bypass then do
    applyGuard true
    onWorld (delRuleIfExists .plain (catchAll table))
  else do
    applyGuard false
    onWorld (addRule (catchAll table))

def setBypass (bypass : Bool) : Owned Unit := do
  let consumer ← owner
  .onlyIf (consumer.bypass != bypass) do
    onWorld lock
    switchCatchAll consumer.table bypass
    applyClassifier .switched bypass
    change fun consumer => { consumer with bypass }

/-- A consumer that cannot be installed is taken back as far as possible. -/
def settle : Except Fault Unit → Owned Consumer
  | .ok () => owner
  | .error fault => do
      let _ ← clearInner.caught
      .throw fault

def installOrClear (underlay : Finset Ipv4Addr) : Owned Consumer := do
  let installed ← (install underlay).caught
  settle installed

/-- `Consumer::activate_with_bypass`. -/
def activateWithBypass (index : Nat) (own : Ipv4Addr) (underlay : Finset Ipv4Addr)
    (bypass : Bool) : Exit Consumer := do
  .ensure .plain (own.isPrivate && underlay.card != 0 && underlay.card ≤ 64 && own ∉ underlay)
  .ensure .plain ((underlay.sort (· ≤ ·)).all usable)
  lock
  let name ← .op .plain fun world => (world.links.get? index).map (·, world)
  .ensure .plain (validName name)
  Journal.recover
  let rules ← getRulesV4
  .ensure .plain (!rules.any Rule.inRange)
  .ensure .plain (exitTable index ≤ 2 ^ 32 - 1)
  let routes ← .op .plain fun world => some (world.routes, world)
  .ensure .plain (!routes.any (·.table == exitTable index))
  let journal : Journal := ⟨index, name, own, [], [], true, true, true, true⟩
  journal.save
  (installOrClear underlay).zoom
    (⟨·, ⟨index, own, exitTable index, .empty, true, bypass, false, journal⟩⟩)
    (fun host _ => host.world)

/-! ## Following the plans -/

structure Watch where
  world : World
  active : Option Consumer

abbrev Watching := Prog Watch Fault

def onActive (inner : Owned Unit) : Option Consumer → Watching Unit
  | none => pure ()
  | some consumer => inner.zoom (⟨·.world, consumer⟩) fun host _ => ⟨host.world, some host.owner⟩

def withActive (inner : Owned Unit) : Watching Unit := do
  let watch ← Prog.get
  onActive inner watch.active

/-- The plan is for the active consumer. -/
def Consumer.serves (consumer : Consumer) (wanted : Option Plan) : Bool :=
  some (consumer.index, consumer.own) == wanted.map fun plan => (plan.index, plan.own)

/-- A consumer that the plan is not for is cleared. -/
def retire (wanted : Option Plan) : Watching Unit := do
  let watch ← Prog.get
  .onlyIf (watch.active.any fun consumer => !consumer.serves wanted) do
    withActive clear
    .modify fun watch => { watch with active := none }

/-- The active consumer is refreshed, or one is activated. -/
def engage (plan : Plan) (next : Finset Ipv4Addr) : Watching Unit := do
  let watch ← Prog.get
  if watch.active.isSome then withActive (refresh next)
  else
    .onlyIf (next.card != 0) do
      let consumer ← (activateWithBypass plan.index plan.own next plan.internetBypass).zoom
        Watch.world fun world watch => { watch with world }
      .modify fun watch => { watch with active := some consumer }

def follow (next : Finset Ipv4Addr) : Option Plan → Watching Unit
  | none => pure ()
  | some plan => do
      engage plan next
      withActive (setLanNetworks plan.lanNetworks)
      withActive (setBypass plan.internetBypass)

/-- One iteration of `watch_configuration`. -/
def update (wanted : Option Plan) (next : Finset Ipv4Addr) : Watching Unit := do
  retire wanted
  follow next wanted

inductive Report where
  | configurationError
  | lanActive
  | normalInternet
  | exitActive
  | waiting
  | inactive
deriving DecidableEq

/-- The state that is reported. -/
def report (failed : Bool) (wanted : Option Plan) (active : Option Consumer) : Report :=
  if failed then .configurationError
  else
    match active with
    | some route =>
        if wanted.any fun plan => !plan.mode.internet then .lanActive
        else if route.bypass then .normalInternet
        else .exitActive
    | none => if wanted.isSome then .waiting else .inactive

end PortHub.Agent.ExitRoutes
