import PortHub.Agent.ExitRoutes

/-! # What a consumer keeps true of the kernel

The records of a consumer describe the rules in the kernel: its sources, its LAN
networks once they are applied, and the catch-all rule by its mode. Every
operation keeps this, also when it fails, with two exceptions: a consumer that
is cleared in part, and a switch of the mode that fails after the catch-all rule
was changed.
-/

namespace PortHub.Agent.ExitRoutes

open Faults
open Faults.Prog

/-! ## Operations -/

section Operations

variable {world : World} {host : Host} {ends : Ends World Fault Unit} {fault : Fault}
  {name : String} {bypass : Bool}

theorem addRule_meets {rule}
    (done : rule ∉ world.rules → ends.done () { world with rules := world.rules ++ [rule] })
    (failed : ends.failed .plain world) (died : ends.died world) :
    (addRule rule).Meets world ends := by
  refine .op (fun value next taken => ?_) failed died
  split at taken
  · cases taken
  · rename_i absent
    cases taken
    exact done absent

theorem delRule_meets {rule} (done : ends.done () { world with rules := world.rules.erase rule })
    (failed : ends.failed fault world) (died : ends.died world) :
    (delRuleIfExists fault rule).Meets world ends := by
  refine .op (fun value next taken => ?_) failed died
  cases taken
  exact done

theorem onWorld_meets {α : Type} {inner : Exit α} {ends : Ends Host Fault α}
    (meets : inner.Meets host.world ⟨fun value world => ends.done value { host with world },
      fun fault world => ends.failed fault { host with world },
      fun world => ends.died { host with world }⟩) :
    (onWorld inner).Meets host ends := .zoom meets

theorem change_meets {f : Consumer → Consumer} {ends : Ends Host Fault Unit}
    (done : ends.done () { host with owner := f host.owner }) : (change f).Meets host ends :=
  .modify done

theorem owner_meets {ends : Ends Host Fault Consumer} (done : ends.done host.owner host) :
    owner.Meets host ends := .bind (.get (.pure done))

/-- An operation that changes nothing. -/
theorem lock_meets (done : ends.done () world) (failed : ends.failed .plain world)
    (died : ends.died world) : lock.Meets world ends := by
  refine .op (fun value next taken => ?_) failed died
  cases taken
  exact done

theorem getRulesV4_meets {ends : Ends World Fault (List Rule)}
    (done : ends.done world.rules world) (failed : ends.failed .plain world)
    (died : ends.died world) : getRulesV4.Meets world ends := by
  refine .op (fun value next taken => ?_) failed died
  cases taken
  exact done

theorem saveJournal_meets {ends : Ends Host Fault Unit}
    (done : ends.done ()
      { host with world := { host.world with journal := some host.owner.journal } })
    (failed : ends.failed .plain host) (died : ends.died host) : saveJournal.Meets host ends := by
  refine .bind (owner_meets (onWorld_meets (.op (fun value next taken => ?_) failed died)))
  cases taken
  exact done

/-- Only the nftables of one interface differ. -/
structure Aside (name : String) (before after : World) : Prop where
  rules : after.rules = before.rules
  routes : after.routes = before.routes
  links : after.links = before.links
  journal : after.journal = before.journal
  guards : ∀ other, other ≠ name → after.guards.get? other = before.guards.get? other
  classifiers : ∀ other, other ≠ name →
    after.classifiers.get? other = before.classifiers.get? other
  docker : ∀ other, other ≠ name →
    after.docker.bind (·.get? other) = before.docker.bind (·.get? other)

theorem Aside.refl (name : String) (world : World) : Aside name world world :=
  ⟨rfl, rfl, rfl, rfl, fun _ _ => rfl, fun _ _ => rfl, fun _ _ => rfl⟩

/-- The guards and classifiers that a step of another kind leaves alone. -/
theorem applyWithLan_meets {index networks}
    (done : ∀ after, Aside name world after → after.guards = world.guards →
      after.classifiers.get? name = some (bypass, networks) → ends.done () after)
    (failed : ∀ after, Aside name world after → ends.failed fault after)
    (died : ∀ after, Aside name world after → ends.died after) :
    (applyWithLan fault name index bypass networks).Meets world ends := by
  have same := Aside.refl name world
  refine .bind (.ensure (fun _ => ?_) fun _ => failed _ same)
  refine .bind (.ensure (fun _ => ?_) fun _ => failed _ same)
  refine .bind (.ensure (fun _ => ?_) fun _ => failed _ same)
  refine .bind (.op (fun value classified taken => ?_) (failed _ same) (died _ same))
  cases taken
  have first : Aside name world
      { world with classifiers := world.classifiers.insert name (bypass, networks) } :=
    ⟨rfl, rfl, rfl, rfl, fun _ _ => rfl, fun _ different => Dict.get?_insert_ne _ _ different,
      fun _ _ => rfl⟩
  refine .bind (.op (fun value forwarded taken => ?_) (failed _ first) (died _ first))
  cases taken
  have second : Aside name world { world with
      classifiers := world.classifiers.insert name (bypass, networks)
      docker := world.docker.map (·.insert name (exitMark index)) } := by
    refine ⟨rfl, rfl, rfl, rfl, fun _ _ => rfl, first.classifiers, fun other different => ?_⟩
    cases world.docker with
    | none => rfl
    | some docker => exact Dict.get?_insert_ne _ _ different
  refine .op (fun value written taken => ?_) (failed _ second) (died _ second)
  cases taken
  exact done _ second rfl (Dict.get?_insert_self _ _ _)

theorem applyMode_meets (done : ∀ after, Aside name world after → after.classifiers = world.classifiers →
      after.guards.get? name = some bypass → ends.done () after) (failed : ends.failed .plain world)
    (died : ends.died world) :
    (applyMode name bypass).Meets world ends := by
  refine .bind (.ensure (fun _ => ?_) fun _ => failed)
  refine .op (fun value guarded taken => ?_) failed died
  cases taken
  exact done _ ⟨rfl, rfl, rfl, rfl, fun _ different => Dict.get?_insert_ne _ _ different,
    fun _ _ => rfl, fun _ _ => rfl⟩ rfl (Dict.get?_insert_self _ _ _)

theorem applyClassifier_meets {ends : Ends Host Fault Unit}
    (done : ∀ after, Aside host.owner.journal.name host.world after →
      after.guards = host.world.guards →
      after.classifiers.get? host.owner.journal.name =
        some (bypass, host.owner.journal.lanNetworks) → ends.done () { host with world := after })
    (failed : ∀ after, Aside host.owner.journal.name host.world after →
      ends.failed fault { host with world := after })
    (died : ∀ after, Aside host.owner.journal.name host.world after →
      ends.died { host with world := after }) : (applyClassifier fault bypass).Meets host ends :=
  .bind (owner_meets (onWorld_meets (applyWithLan_meets done failed died)))

theorem applyGuard_meets {ends : Ends Host Fault Unit}
    (done : ∀ after, Aside host.owner.journal.name host.world after →
      after.classifiers = host.world.classifiers →
      after.guards.get? host.owner.journal.name = some bypass →
      ends.done () { host with world := after }) (failed : ends.failed .plain host)
    (died : ends.died host) :
    (applyGuard bypass).Meets host ends :=
  .bind (owner_meets (onWorld_meets (applyMode_meets done failed died)))

end Operations

/-! ## Rules -/

/-- The priorities of the source rules. -/
def sourcePriority (priority : Nat) : Prop :=
  firstPriority < priority ∧ priority < firstPriority + 65

instance : DecidablePred sourcePriority := fun _ => inferInstanceAs (Decidable (_ ∧ _))

/-- The priorities of the rules that stay as they are installed. -/
def Elsewhere (priority : Nat) : Prop :=
  ¬ sourcePriority priority ∧ priority ≠ lanPriority ∧ priority ≠ lastPriority

instance : DecidablePred Elsewhere := fun _ => inferInstanceAs (Decidable (_ ∧ _))

/-- The rules in the range of PortHub are those that the consumer records; the
    catch-all rule is there unless `mode` is the one that goes past the exit. -/
structure Kept (rules : List Rule) (consumer : Consumer) (mode : Bool) : Prop where
  once : ∀ rule, rule.inRange = true → rules.count rule ≤ 1
  sourced : ∀ rule ∈ rules, sourcePriority rule.priority →
    ∃ ip priority, consumer.sources.get? ip = some priority ∧ rule = sourceRule ip priority
  sources : ∀ ip priority, consumer.sources.get? ip = some priority →
    sourceRule ip priority ∈ rules ∧ sourcePriority priority
  distinct : ∀ ip other priority, consumer.sources.get? ip = some priority →
    consumer.sources.get? other = some priority → ip = other
  lan : ∀ rule ∈ rules, rule.priority = lanPriority →
    ∃ network ∈ consumer.journal.lanNetworks, rule = lanRule consumer.table network
  applied : consumer.lanApplied = true → ∀ network ∈ consumer.journal.lanNetworks,
    lanRule consumer.table network ∈ rules
  only : ∀ rule ∈ rules, rule.priority = lastPriority → rule = catchAll consumer.table
  caught : catchAll consumer.table ∈ rules ↔ mode = false

section Rules

variable {rules : List Rule} {consumer : Consumer} {mode : Bool} {rule : Rule} {ip : Ipv4Addr}
  {priority : Nat}

theorem inRange_of_le (low : firstPriority ≤ rule.priority) (high : rule.priority ≤ lastPriority) :
    rule.inRange = true := by
  simp only [Rule.inRange, Bool.and_eq_true, decide_eq_true_eq]
  exact ⟨low, high⟩

theorem sourceRule_inRange (sourced : sourcePriority priority) :
    (sourceRule ip priority).inRange = true := by
  obtain ⟨low, high⟩ := sourced
  have small : firstPriority + 65 ≤ lastPriority := by decide
  exact inRange_of_le (Nat.le_of_lt low) (by change priority ≤ lastPriority; omega)

theorem lanRule_inRange (table : Nat) (network : Network) :
    (lanRule table network).inRange = true :=
  inRange_of_le (show firstPriority ≤ lanPriority by decide)
    (show lanPriority ≤ lastPriority by decide)

theorem catchAll_inRange (table : Nat) : (catchAll table).inRange = true :=
  inRange_of_le (show firstPriority ≤ lastPriority by decide) (Nat.le_refl lastPriority)

/-- A rule that is there at most once is gone when it is erased. -/
theorem not_mem_erase (once : rules.count rule ≤ 1) : rule ∉ rules.erase rule := by
  intro member
  have positive := List.count_pos_iff.mpr member
  rw [List.count_erase_self] at positive
  omega

theorem once_erase {erased} (once : ∀ rule, rule.inRange = true → rules.count rule ≤ 1) :
    ∀ rule, rule.inRange = true → (rules.erase erased).count rule ≤ 1 := by
  intro rule inside
  exact (List.erase_sublist.count_le _).trans (once rule inside)

theorem once_append {added} (once : ∀ rule, rule.inRange = true → rules.count rule ≤ 1)
    (absent : added ∉ rules) :
    ∀ rule, rule.inRange = true → (rules ++ [added]).count rule ≤ 1 := by
  intro rule inside
  rw [List.count_append]
  by_cases same : rule = added
  · subst same
    rw [List.count_eq_zero.mpr absent, List.count_singleton_self]
  · rw [List.count_eq_zero.mpr fun member => same (List.mem_singleton.mp member)]
    exact once rule inside

theorem lan_not_source : ¬ sourcePriority lanPriority := by decide

theorem last_not_source : ¬ sourcePriority lastPriority := by decide

theorem last_ne_lan : lastPriority ≠ lanPriority := by decide

/-- A rule of one priority is erased; the others stay. -/
theorem mem_erase_other {erased : Rule} (different : rule.priority ≠ erased.priority) :
    rule ∈ rules.erase erased ↔ rule ∈ rules :=
  List.mem_erase_of_ne fun same => different (congrArg Rule.priority same)

section

variable (kept : Kept rules consumer mode)

include kept

theorem Kept.caught_append (other : rule.priority ≠ lastPriority) :
    catchAll consumer.table ∈ rules ++ [rule] ↔ mode = false := by
  rw [← kept.caught, List.mem_append, List.mem_singleton]
  refine or_iff_left fun same => other ?_
  rw [← same]
  rfl

/-- A rule is added that is no source. -/
theorem Kept.append {next} (absent : rule ∉ rules) (other : ¬ sourcePriority rule.priority)
    (lan : rule.priority = lanPriority →
      ∃ network ∈ consumer.journal.lanNetworks, rule = lanRule consumer.table network)
    (only : rule.priority = lastPriority → rule = catchAll consumer.table)
    (caught : catchAll consumer.table ∈ rules ++ [rule] ↔ next = false) :
    Kept (rules ++ [rule]) consumer next where
  once := once_append kept.once absent
  sourced added member sourced := by
    rcases Runs.mem_snoc.mp member with before | here
    · exact kept.sourced added before sourced
    · exact absurd (here ▸ sourced) other
  sources ip priority found :=
    (kept.sources ip priority found).imp_left (List.mem_append_left _)
  distinct := kept.distinct
  lan added member same := by
    rcases Runs.mem_snoc.mp member with before | rfl
    · exact kept.lan added before same
    · exact lan same
  applied done network member := List.mem_append_left _ (kept.applied done network member)
  only added member same := by
    rcases Runs.mem_snoc.mp member with before | rfl
    · exact kept.only added before same
    · exact only same
  caught := caught

/-- A rule of another kind is added. -/
theorem Kept.addOther (absent : rule ∉ rules)
    (elsewhere : Elsewhere rule.priority) : Kept (rules ++ [rule]) consumer mode :=
  kept.append absent elsewhere.1 (fun same => absurd same elsewhere.2.1)
    (fun same => absurd same elsewhere.2.2) (kept.caught_append elsewhere.2.2)

theorem Kept.addLan {network} (recorded : network ∈ consumer.journal.lanNetworks)
    (absent : lanRule consumer.table network ∉ rules) :
    Kept (rules ++ [lanRule consumer.table network]) consumer mode :=
  kept.append absent lan_not_source (fun _ => ⟨network, recorded, rfl⟩)
    (fun same => absurd same.symm last_ne_lan) (kept.caught_append last_ne_lan.symm)

theorem Kept.addLast (absent : catchAll consumer.table ∉ rules) :
    Kept (rules ++ [catchAll consumer.table]) consumer false :=
  kept.append absent last_not_source (fun same => absurd same last_ne_lan) (fun _ => rfl)
    (iff_of_true (List.mem_append_right _ (List.mem_singleton.mpr rfl)) rfl)

/-- A rule goes that is no source. -/
theorem Kept.remove {next} (other : ¬ sourcePriority rule.priority)
    (applied : consumer.lanApplied = true → ∀ network ∈ consumer.journal.lanNetworks,
      lanRule consumer.table network ∈ rules.erase rule)
    (caught : catchAll consumer.table ∈ rules.erase rule ↔ next = false) :
    Kept (rules.erase rule) consumer next where
  once := once_erase kept.once
  sourced left member := kept.sourced left (List.mem_of_mem_erase member)
  sources ip priority found := by
    obtain ⟨member, sourced⟩ := kept.sources ip priority found
    exact ⟨(mem_erase_other fun same => other (same ▸ sourced)).mpr member, sourced⟩
  distinct := kept.distinct
  lan left member := kept.lan left (List.mem_of_mem_erase member)
  applied := applied
  only left member := kept.only left (List.mem_of_mem_erase member)
  caught := caught

theorem Kept.eraseLan (open' : consumer.lanApplied = false) (network : Network) :
    Kept (rules.erase (lanRule consumer.table network)) consumer mode := by
  refine kept.remove lan_not_source (fun done => ?_) ((mem_erase_other last_ne_lan).trans kept.caught)
  cases open'.symm.trans done

theorem Kept.eraseLast : Kept (rules.erase (catchAll consumer.table)) consumer true := by
  refine kept.remove last_not_source (fun done network member => ?_) (iff_of_false ?_ (by decide))
  · exact (mem_erase_other last_ne_lan.symm).mpr (kept.applied done network member)
  · exact not_mem_erase (kept.once _ (catchAll_inRange _))

theorem Kept.dropSource (found : consumer.sources.get? ip = some priority) :
    Kept (rules.erase (sourceRule ip priority))
      { consumer with sources := consumer.sources.erase ip } mode := by
  obtain ⟨_, inside⟩ := kept.sources ip priority found
  have gone : sourceRule ip priority ∉ rules.erase (sourceRule ip priority) :=
    not_mem_erase (kept.once _ (sourceRule_inRange inside))
  have notLan : lanPriority ≠ priority := by
    rintro rfl
    exact absurd inside (by decide)
  have notLast : lastPriority ≠ priority := by
    rintro rfl
    exact absurd inside (by decide)
  refine ⟨once_erase kept.once, ?_, ?_, ?_, ?_, ?_, ?_, ?_⟩
  · intro rule member sourced
    obtain ⟨other, place, known, rfl⟩ := kept.sourced rule (List.mem_of_mem_erase member) sourced
    refine ⟨other, place, ?_, rfl⟩
    have different : other ≠ ip := by
      rintro rfl
      obtain rfl := Option.mem_unique known found
      exact gone member
    rw [Dict.get?_erase_ne _ different]
    exact known
  · intro other place known
    obtain ⟨different, before⟩ := Dict.get?_of_erase known
    obtain ⟨member, sourced⟩ := kept.sources other place before
    refine ⟨(mem_erase_other fun same => different ?_).mpr member, sourced⟩
    obtain rfl : place = priority := same
    exact kept.distinct other ip place before found
  · intro first second place known knows
    exact kept.distinct first second place (Dict.get?_of_erase known).2 (Dict.get?_of_erase knows).2
  · intro rule member same
    exact kept.lan rule (List.mem_of_mem_erase member) same
  · intro done network member
    exact (mem_erase_other notLan).mpr (kept.applied done network member)
  · intro rule member same
    exact kept.only rule (List.mem_of_mem_erase member) same
  · exact (mem_erase_other notLast).trans kept.caught

theorem Kept.addSource (absent : consumer.sources.get? ip = none)
    (unused : ∀ other, consumer.sources.get? other ≠ some priority)
    (sourced : sourcePriority priority) (free : sourceRule ip priority ∉ rules) :
    Kept (rules ++ [sourceRule ip priority])
      { consumer with sources := consumer.sources.insert ip priority } mode := by
  have notLan : priority ≠ lanPriority := by
    rintro rfl
    exact absurd sourced (by decide)
  have notLast : priority ≠ lastPriority := by
    rintro rfl
    exact absurd sourced (by decide)
  refine ⟨once_append kept.once free, ?_, ?_, ?_, ?_, ?_, ?_, ?_⟩
  · intro rule member inside
    rcases Runs.mem_snoc.mp member with before | here
    · obtain ⟨other, place, known, rfl⟩ := kept.sourced rule before inside
      refine ⟨other, place, ?_, rfl⟩
      have different : other ≠ ip := by
        rintro rfl
        cases absent.symm.trans known
      rw [Dict.get?_insert_ne _ _ different]
      exact known
    · exact ⟨ip, priority, Dict.get?_insert_self _ _ _, here⟩
  · intro other place known
    rcases Dict.get?_of_insert known with ⟨rfl, rfl⟩ | ⟨_, before⟩
    · exact ⟨List.mem_append_right _ (List.mem_singleton.mpr rfl), sourced⟩
    · exact (kept.sources other place before).imp_left (List.mem_append_left _)
  · intro first second place known knows
    rcases Dict.get?_of_insert known with ⟨rfl, rfl⟩ | ⟨_, before⟩
    · rcases Dict.get?_of_insert knows with ⟨rfl, _⟩ | ⟨_, other⟩
      · rfl
      · exact absurd other (unused second)
    · rcases Dict.get?_of_insert knows with ⟨rfl, rfl⟩ | ⟨_, other⟩
      · exact absurd before (unused first)
      · exact kept.distinct first second place before other
  · intro rule member same
    rcases Runs.mem_snoc.mp member with before | rfl
    · exact kept.lan rule before same
    · exact absurd same notLan
  · intro done network member
    exact List.mem_append_left _ (kept.applied done network member)
  · intro rule member same
    rcases Runs.mem_snoc.mp member with before | rfl
    · exact kept.only rule before same
    · exact absurd same notLast
  · exact kept.caught_append notLast

theorem Kept.congr {other : Consumer}
    (sources : other.sources = consumer.sources) (table : other.table = consumer.table)
    (networks : other.journal.lanNetworks = consumer.journal.lanNetworks)
    (applied : other.lanApplied = true → consumer.lanApplied = true) : Kept rules other mode where
  once := kept.once
  sourced := sources ▸ kept.sourced
  sources := sources ▸ kept.sources
  distinct := sources ▸ kept.distinct
  lan := networks ▸ table ▸ kept.lan
  applied done := networks ▸ table ▸ kept.applied (applied done)
  only := table ▸ kept.only
  caught := table ▸ kept.caught

/-- Other networks are recorded. -/
theorem Kept.setLan {networks}
    (covers : ∀ rule ∈ rules, rule.priority = lanPriority →
      ∃ network ∈ networks, rule = lanRule consumer.table network)
    (applied : consumer.lanApplied = true → ∀ network ∈ networks,
      lanRule consumer.table network ∈ rules) :
    Kept rules (consumer.setLan networks) mode where
  __ := kept
  lan := covers
  applied := applied

end

end Rules

/-! ## Sources -/

/-- What most operations leave alone. -/
structure Alike (before after : Consumer) : Prop where
  index : after.index = before.index
  own : after.own = before.own
  table : after.table = before.table
  bypass : after.bypass = before.bypass
  name : after.journal.name = before.journal.name

theorem Alike.refl (consumer : Consumer) : Alike consumer consumer := ⟨rfl, rfl, rfl, rfl, rfl⟩

theorem Alike.trans {first second third} (one : Alike first second) (two : Alike second third) :
    Alike first third :=
  ⟨two.index.trans one.index, two.own.trans one.own, two.table.trans one.table,
    two.bypass.trans one.bypass, two.name.trans one.name⟩

/-- The sources may have changed, and nothing else of the records. -/
structure Sourcing (start : Host) (mode : Bool) (host : Host) : Prop where
  kept : Kept host.world.rules host.owner mode
  alike : Alike start.owner host.owner
  applied : host.owner.lanApplied = start.owner.lanApplied
  networks : host.owner.journal.lanNetworks = start.owner.journal.lanNetworks

section Sources

variable {start host : Host} {mode : Bool} {ip : Ipv4Addr} {priority : Nat}

theorem mem_recorded {consumer : Consumer} :
    (ip, priority) ∈ consumer.recorded ↔ consumer.sources.get? ip = some priority := by
  rw [Consumer.recorded, List.mem_mergeSort, Dict.get?_eq_some_iff]

theorem recorded_distinct (consumer : Consumer) : (consumer.recorded.map Prod.fst).Nodup := by
  have same := (List.mergeSort_perm consumer.sources.entries
    fun first second => decide (first.1 ≤ second.1)).map Prod.fst
  exact same.nodup_iff.mpr consumer.sources.distinct

theorem freePriority_spec {consumer : Consumer} (free : consumer.freePriority = some priority) :
    sourcePriority priority ∧ ∀ ip, consumer.sources.get? ip ≠ some priority := by
  constructor
  · have member := List.mem_of_find?_eq_some free
    rw [List.mem_range'_1] at member
    exact ⟨member.1, by unfold firstPriority at member ⊢; omega⟩
  · intro ip found
    have unused := List.find?_some free
    rw [Bool.not_eq_true', ← Bool.not_eq_true, List.contains_iff_mem] at unused
    exact unused (Dict.mem_values_iff.mpr ⟨ip, found⟩)

theorem dropSource_meets (sourcing : Sourcing start mode host)
    (found : host.owner.sources.get? ip = some priority) {done : Host → Prop}
    (next : ∀ after, Sourcing start mode after →
      after.owner.sources = host.owner.sources.erase ip → done after) :
    (dropSource (ip, priority)).Meets host
      ⟨fun _ => done, fun fault after => fault = .plain ∧ Sourcing start mode after, fun _ => True⟩ := by
  refine .bind (onWorld_meets (delRule_meets ?_ ⟨rfl, sourcing⟩ trivial))
  refine change_meets (next _ ⟨sourcing.kept.dropSource found, ?_, ?_, ?_⟩ rfl)
  · exact ⟨sourcing.alike.index, sourcing.alike.own, sourcing.alike.table, sourcing.alike.bypass,
      sourcing.alike.name⟩
  · exact sourcing.applied
  · exact sourcing.networks

theorem addSource_meets (sourcing : Sourcing start mode host) {done : Unit → Host → Prop}
    (present : ∀ priority, host.owner.sources.get? ip = some priority → done () host)
    (next : ∀ after priority, Sourcing start mode after →
      after.owner.sources = host.owner.sources.insert ip priority → done () after) :
    (addSource ip).Meets host
      ⟨done, fun fault after => fault = .plain ∧ Sourcing start mode after, fun _ => True⟩ := by
  refine .bind (owner_meets ?_)
  dsimp only
  split
  · rename_i known
    obtain ⟨priority, found⟩ := Option.isSome_iff_exists.mp known
    exact .pure (present priority found)
  · rename_i absent
    have missing : host.owner.sources.get? ip = none := by
      rw [Dict.contains, Option.not_isSome_iff_eq_none] at absent
      exact absent
    split
    · exact .throw ⟨rfl, sourcing⟩
    · rename_i priority free
      obtain ⟨sourced, unused⟩ := freePriority_spec free
      have alike := sourcing.alike
      -- the journal gains an entry before the kernel gains the rule
      have pushed : Sourcing start mode { host with
          owner := host.owner.setSources (host.owner.journal.sources ++ [(ip, priority)]) } :=
        ⟨sourcing.kept.congr rfl rfl rfl id,
          ⟨alike.index, alike.own, alike.table, alike.bypass, alike.name⟩, sourcing.applied,
          sourcing.networks⟩
      refine .bind (change_meets (.bind (saveJournal_meets ?_ ⟨rfl, pushed⟩ trivial)))
      refine .bind (onWorld_meets (addRule_meets (fun free' => ?_) ⟨rfl, ?_⟩ trivial))
      · refine change_meets (next _ priority ⟨?_, ?_, pushed.applied, pushed.networks⟩ rfl)
        · exact pushed.kept.addSource missing unused sourced free'
        · exact ⟨alike.index, alike.own, alike.table, alike.bypass, alike.name⟩
      · exact ⟨pushed.kept, pushed.alike, pushed.applied, pushed.networks⟩

theorem recordSources_meets (sourcing : Sourcing start mode host) {done : Unit → Host → Prop}
    (next : ∀ after, Sourcing start mode after →
      after.owner.sources = host.owner.sources → done () after) :
    recordSources.Meets host
      ⟨done, fun fault after => fault = .plain ∧ Sourcing start mode after, fun _ => True⟩ := by
  refine .bind (owner_meets ?_)
  dsimp only
  split
  · exact .pure (next host sourcing rfl)
  · have alike := sourcing.alike
    have changed : Sourcing start mode
        { host with owner := host.owner.setSources host.owner.recorded } :=
      ⟨sourcing.kept.congr rfl rfl rfl id,
        ⟨alike.index, alike.own, alike.table, alike.bypass, alike.name⟩, sourcing.applied,
        sourcing.networks⟩
    refine .bind (change_meets (saveJournal_meets ?_ ⟨rfl, changed⟩ trivial))
    exact next _ ⟨changed.kept, changed.alike, changed.applied, changed.networks⟩ rfl

/-- The sources that are not wanted go, one after the other. -/
theorem eachDropped_meets {ends : Ends Host Fault Unit} (underlay : Finset Ipv4Addr)
    (holds : Host → Prop) (start : holds host)
    (drop : ∀ after ip priority (done : Host → Prop), holds after →
      after.owner.sources.get? ip = some priority →
      (∀ final, holds final → final.owner.sources = after.owner.sources.erase ip → done final) →
      (dropSource (ip, priority)).Meets after ⟨fun _ => done, ends.failed, ends.died⟩)
    (next : ∀ after, holds after →
      (∀ ip, (after.owner.sources.get? ip).isSome = true → ip ∈ underlay) →
      (∀ ip ∈ underlay, after.owner.sources.get? ip = host.owner.sources.get? ip) →
      ends.done () after) :
    (each dropSource (host.owner.recorded.filter fun source => source.1 ∉ underlay)).Meets host
      ends := by
  refine .each (fun before after => holds after ∧ ∀ ip priority,
      after.owner.sources.get? ip = some priority ↔
        host.owner.sources.get? ip = some priority ∧ ip ∉ before.map Prod.fst)
    ⟨start, fun ip priority => by simp⟩ ?_ fun after dropped => ?_
  · rintro before ⟨ip, priority⟩ later after whole ⟨kept, left⟩
    have member : (ip, priority) ∈ host.owner.recorded := by
      refine List.mem_of_mem_filter ?_ (p := fun source => decide (source.1 ∉ underlay))
      rw [whole]
      exact List.mem_append_right _ (.head _)
    have distinct : ((before ++ (ip, priority) :: later).map Prod.fst).Nodup := by
      rw [← whole]
      exact (recorded_distinct host.owner).sublist (List.filter_sublist.map _)
    have fresh : ip ∉ before.map Prod.fst := by
      rw [List.map_append, List.nodup_append] at distinct
      exact fun seen => distinct.2.2 ip seen ip (.head _) rfl
    refine drop after ip priority _ kept ((left ip priority).mpr ⟨mem_recorded.mp member, fresh⟩)
      fun final kept same => ⟨kept, fun other place => ?_⟩
    rw [same, List.map_append, List.mem_append, not_or]
    by_cases here : other = ip
    · subst here
      simp
    · rw [Dict.get?_erase_ne _ here, left]
      simp [here]
  · obtain ⟨kept, left⟩ := dropped
    refine next after kept ?_ ?_
    · intro ip found
      obtain ⟨priority, found⟩ := Option.isSome_iff_exists.mp found
      obtain ⟨known, kept⟩ := (left ip priority).mp found
      by_contra outside
      refine kept (List.mem_map.mpr ⟨(ip, priority), List.mem_filter.mpr ⟨?_, ?_⟩, rfl⟩)
      · exact mem_recorded.mpr known
      · exact decide_eq_true outside
    · intro ip inside
      have kept : ip ∉ (host.owner.recorded.filter fun source => source.1 ∉ underlay).map Prod.fst := by
        intro seen
        obtain ⟨source, listed, rfl⟩ := List.mem_map.mp seen
        exact of_decide_eq_true (List.mem_filter.mp listed).2 inside
      refine Option.ext fun priority => ?_
      rw [left]
      exact and_iff_left kept

/-- After an update there is one source for each address. -/
theorem updateSources_meets (kept : Kept host.world.rules host.owner mode)
    (underlay : Finset Ipv4Addr) :
    (updateSources underlay).Meets host
      ⟨fun _ after => Sourcing host mode after ∧
        ∀ ip, (after.owner.sources.get? ip).isSome = true ↔ ip ∈ underlay,
      fun fault after => fault = .plain ∧ Sourcing host mode after, fun _ => True⟩ := by
  have begun : Sourcing host mode host := ⟨kept, .refl _, rfl, rfl⟩
  refine .bind (owner_meets ?_)
  refine .bind (.ensure (fun _ => ?_) fun _ => ⟨rfl, begun⟩)
  refine .bind (eachDropped_meets underlay (Sourcing host mode) begun
    (fun after ip priority done sourcing found => dropSource_meets sourcing found)
    fun after sourcing only _ => ?_)
  refine .bind (.each
    (fun before after => Sourcing host mode after ∧
      (∀ ip, (after.owner.sources.get? ip).isSome = true → ip ∈ underlay) ∧
      ∀ ip ∈ before, (after.owner.sources.get? ip).isSome = true)
    ⟨sourcing, only, by simp⟩ ?_ fun final added => ?_)
  · rintro before ip later next whole ⟨sourcing, only, all⟩
    have inside : ip ∈ underlay := by
      rw [← Finset.mem_sort (· ≤ ·), whole]
      exact List.mem_append_right _ (.head _)
    refine addSource_meets sourcing (fun priority found => ⟨sourcing, only, ?_⟩)
      fun final priority sourcing same => ⟨sourcing, ?_, ?_⟩
    · intro other member
      rcases Runs.mem_snoc.mp member with before | rfl
      · exact all other before
      · rw [found]
        rfl
    · intro other found
      rw [same] at found
      by_cases here : other = ip
      · exact here ▸ inside
      · rw [Dict.get?_insert_ne _ _ here] at found
        exact only other found
    · intro other member
      rw [same]
      by_cases here : other = ip
      · rw [here, Dict.get?_insert_self]
        rfl
      · rw [Dict.get?_insert_ne _ _ here]
        refine all other ((List.mem_append.mp member).resolve_right fun last => here ?_)
        exact List.mem_singleton.mp last
  · obtain ⟨sourcing, only, all⟩ := added
    refine recordSources_meets sourcing fun last sourcing same => ⟨sourcing, fun ip => ?_⟩
    rw [same]
    exact ⟨only ip, fun member => all ip ((Finset.mem_sort (· ≤ ·)).mpr member)⟩

end Sources

end PortHub.Agent.ExitRoutes
