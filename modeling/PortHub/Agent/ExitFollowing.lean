import PortHub.Agent.ExitKeeping

/-! # Exit routing is what it reports

Every iteration of `watch_configuration` that ends without an error leaves the
kernel as the plan says, provided that no earlier failure has left the records of
the consumer behind the kernel: a switch of the mode that failed at its end is
followed by plans that want the same switch, and a consumer that was being
cleared is cleared before it is used again.
-/

namespace PortHub.Agent.ExitRoutes

open Faults
open Faults.Prog
open Runs

/-- The guard and the classifier are in this mode. -/
structure Directed (host : Host) (bypass : Bool) : Prop where
  guard : host.world.guards.get? host.owner.journal.name = some bypass
  classifier : (host.world.classifiers.get? host.owner.journal.name).map Prod.fst = some bypass

/-- The networks may have changed, and nothing else of the records. -/
structure Networked (start : Host) (mode : Bool) (host : Host) : Prop where
  kept : Kept host.world.rules host.owner mode
  alike : Alike start.owner host.owner
  sources : host.owner.sources = start.owner.sources

section Networks

variable {start host : Host} {mode : Bool} {wanted : Finset Network}

theorem lanRule_injective {table first second} (same : lanRule table first = lanRule table second) :
    first = second := by
  have places := Option.some.inj (congrArg Rule.destination same)
  have addresses : first.address = second.address := congrArg Prod.fst places
  have lengths : first.length = second.length := congrArg Prod.snd places
  obtain ⟨address, length, canonical⟩ := first
  obtain rfl : address = second.address := addresses
  obtain rfl : length = second.length := lengths
  rfl

/-- A network that the kernel reports has its rule there. -/
theorem mem_actualNetworks (kept : Kept host.world.rules host.owner mode) {network}
    (member : network ∈ actualNetworks host.owner.table host.world.rules) :
    lanRule host.owner.table network ∈ host.world.rules := by
  simp only [actualNetworks, List.mem_toFinset, List.mem_filterMap, List.mem_filter,
    Bool.and_eq_true, beq_iff_eq] at member
  obtain ⟨rule, ⟨held, ⟨priority, _⟩, _⟩, read⟩ := member
  obtain ⟨recorded, _, rfl⟩ := kept.lan rule held priority
  rw [show (lanRule host.owner.table recorded).destination =
    some (recorded.address, recorded.length) from rfl, Option.bind_some,
    Network.fromAddress_self] at read
  cases read
  exact held

/-- Between the records of the union and of the wanted networks. -/
structure Replacing (start : Host) (mode : Bool) (wanted : Finset Network) (host : Host) : Prop where
  networked : Networked start mode host
  open' : host.owner.lanApplied = false
  recorded : host.owner.journal.lanNetworks =
    (start.owner.journal.lanNetworks.toFinset ∪ wanted).sort (· ≤ ·)
  directed : Directed host start.owner.bypass

/-- Every rule of a network is for one that is wanted. -/
abbrev Covers (start : Host) (wanted : Finset Network) (host : Host) : Prop :=
  ∀ rule ∈ host.world.rules, rule.priority = lanPriority →
    ∃ network ∈ wanted, rule = lanRule start.owner.table network

section

variable (replacing : Replacing start mode wanted host)

include replacing

theorem Replacing.erase (network : Network) :
    Replacing start mode wanted { host with
      world := { host.world with
        rules := host.world.rules.erase (lanRule start.owner.table network) } } := by
  have networked := replacing.networked
  have kept := networked.kept.eraseLan replacing.open' network
  rw [networked.alike.table] at kept
  exact ⟨⟨kept, networked.alike, networked.sources⟩, replacing.open', replacing.recorded,
    replacing.directed.1, replacing.directed.2⟩

theorem Replacing.add {network}
    (member : network ∈ wanted) (absent : lanRule start.owner.table network ∉ host.world.rules) :
    Replacing start mode wanted { host with
      world := { host.world with
        rules := host.world.rules ++ [lanRule start.owner.table network] } } := by
  have networked := replacing.networked
  have recorded : network ∈ host.owner.journal.lanNetworks := by
    rw [replacing.recorded, Finset.mem_sort]
    exact Finset.mem_union_right _ member
  rw [← networked.alike.table] at absent
  have kept := networked.kept.addLan recorded absent
  rw [networked.alike.table] at kept
  exact ⟨⟨kept, networked.alike, networked.sources⟩, replacing.open', replacing.recorded,
    replacing.directed.1, replacing.directed.2⟩

/-- The rules of networks that are no longer wanted go. -/
theorem dropNetworks_meets (same : host.world.rules = start.world.rules) {done : Unit → Host → Prop}
    (next : ∀ after, Replacing start mode wanted after →
      Covers start wanted after →
      (∀ network ∈ wanted, lanRule start.owner.table network ∈ start.world.rules →
        lanRule start.owner.table network ∈ after.world.rules) → done () after) :
    (each (fun network => onWorld (delRuleIfExists .plain (lanRule start.owner.table network)))
        ((start.owner.journal.lanNetworks.toFinset \ wanted).sort (· ≤ ·))).Meets host
      ⟨done, fun fault after => fault = .plain ∧ Networked start mode after, fun _ => True⟩ := by
  refine .each (fun before after => Replacing start mode wanted after ∧
      (∀ network ∈ before, lanRule start.owner.table network ∉ after.world.rules) ∧
      ∀ network ∈ wanted, lanRule start.owner.table network ∈ start.world.rules →
        lanRule start.owner.table network ∈ after.world.rules)
    ⟨replacing, nofun, fun network _ held => same ▸ held⟩ ?_ fun after all => ?_
  · rintro before network later after whole ⟨replacing, gone, held⟩
    have dropped : network ∉ wanted := by
      have member : network ∈ (start.owner.journal.lanNetworks.toFinset \ wanted).sort (· ≤ ·) := by
        rw [whole]
        exact List.mem_append_right _ (.head _)
      exact (Finset.mem_sdiff.mp ((Finset.mem_sort (· ≤ ·)).mp member)).2
    refine onWorld_meets (delRule_meets ⟨replacing.erase network, ?_, ?_⟩
      ⟨rfl, replacing.networked⟩ trivial)
    · intro other member
      rcases mem_snoc.mp member with before | rfl
      · exact fun found => gone other before (List.mem_of_mem_erase found)
      · exact not_mem_erase (replacing.networked.kept.once _ (lanRule_inRange _ _))
    · intro other member found
      refine (List.mem_erase_of_ne fun same => dropped ?_).mpr (held other member found)
      exact lanRule_injective same ▸ member
  · obtain ⟨replacing, gone, held⟩ := all
    refine next after replacing (fun rule member lan => ?_) held
    obtain ⟨network, recorded, rfl⟩ := replacing.networked.kept.lan rule member lan
    rw [replacing.networked.alike.table] at member ⊢
    refine ⟨network, ?_, rfl⟩
    rw [replacing.recorded, Finset.mem_sort, Finset.mem_union] at recorded
    by_contra unwanted
    refine gone network ((Finset.mem_sort (· ≤ ·)).mpr (Finset.mem_sdiff.mpr ⟨?_, unwanted⟩)) member
    exact recorded.resolve_right unwanted

/-- The rules that are missing are added. -/
theorem addNetworks_meets {actual}
    (covers : Covers start wanted host)
    (held : ∀ network ∈ wanted, network ∈ actual →
      lanRule start.owner.table network ∈ host.world.rules) {done : Unit → Host → Prop}
    (next : ∀ after, Replacing start mode wanted after →
      Covers start wanted after →
      (∀ network ∈ wanted, lanRule start.owner.table network ∈ after.world.rules) →
      done () after) :
    (each (fun network => onWorld (addRule (lanRule start.owner.table network)))
        ((wanted \ actual).sort (· ≤ ·))).Meets host
      ⟨done, fun fault after => fault = .plain ∧ Networked start mode after, fun _ => True⟩ := by
  refine .each (fun before after => Replacing start mode wanted after ∧
      Covers start wanted after ∧
      ∀ network ∈ wanted, network ∈ actual ∨ network ∈ before →
        lanRule start.owner.table network ∈ after.world.rules)
    ⟨replacing, covers, fun network member known => held network member (known.resolve_right nofun)⟩
    ?_ fun after all => ?_
  · rintro before network later after whole ⟨replacing, covers, held⟩
    have member : network ∈ wanted := by
      have listed : network ∈ (wanted \ actual).sort (· ≤ ·) := by
        rw [whole]
        exact List.mem_append_right _ (.head _)
      exact (Finset.mem_sdiff.mp ((Finset.mem_sort (· ≤ ·)).mp listed)).1
    refine onWorld_meets (addRule_meets (fun absent => ⟨replacing.add member absent, ?_, ?_⟩)
      ⟨rfl, replacing.networked⟩ trivial)
    · intro rule found lan
      rcases mem_snoc.mp found with before | here
      · exact covers rule before lan
      · exact ⟨network, member, here⟩
    · intro other wanted' known
      rcases known with actual | listed
      · exact List.mem_append_left _ (held other wanted' (.inl actual))
      · rcases mem_snoc.mp listed with before | rfl
        · exact List.mem_append_left _ (held other wanted' (.inr before))
        · exact List.mem_append_right _ (List.mem_singleton.mpr rfl)
  · obtain ⟨replacing, covers, held⟩ := all
    refine next after replacing covers fun network member => held network member ?_
    by_cases known : network ∈ actual
    · exact .inl known
    · exact .inr ((Finset.mem_sort (· ≤ ·)).mpr (Finset.mem_sdiff.mpr ⟨member, known⟩))

end

/-- The classifier follows the guard. -/
theorem Directed.classified {bypass networks} {after : World}
    (guard : host.world.guards.get? host.owner.journal.name = some bypass)
    (guards : after.guards = host.world.guards)
    (classified : after.classifiers.get? host.owner.journal.name = some (bypass, networks)) :
    Directed { host with world := after } bypass := by
  constructor
  · rw [show ({ host with world := after } : Host).world.guards = host.world.guards from guards]
    exact guard
  · change (after.classifiers.get? host.owner.journal.name).map Prod.fst = some bypass
    rw [classified]
    rfl

/-- The rules are those of the wanted networks afterwards. -/
structure Replaced (start : Host) (mode : Bool) (wanted : Finset Network) (host : Host) : Prop where
  networked : Networked start mode host
  networks : host.owner.journal.lanNetworks.toFinset = wanted
  applied : host.owner.lanApplied = true
  directed : Directed host start.owner.bypass

theorem replaceNetworks_meets (kept : Kept start.world.rules start.owner mode)
    (directed : Directed start start.owner.bypass) (wanted : Finset Network) :
    (replaceNetworks start.owner start.owner.journal.lanNetworks.toFinset wanted).Meets start
      ⟨fun _ after => Replaced start mode wanted after,
        fun fault after => fault = .plain ∧ Networked start mode after, fun _ => True⟩ := by
  have alike : Alike start.owner { start.owner with lanApplied := false } := ⟨rfl, rfl, rfl, rfl, rfl⟩
  have opened : Networked start mode { start with owner := { start.owner with lanApplied := false } } :=
    ⟨kept.congr rfl rfl rfl nofun, alike, rfl⟩
  refine .bind (change_meets (.bind (onWorld_meets (getRulesV4_meets ?_ ⟨rfl, opened⟩ trivial))))
  -- both the old and the new networks are recorded
  let union := (start.owner.journal.lanNetworks.toFinset ∪ wanted).sort (· ≤ ·)
  have recorded : Replacing start mode wanted { start with
      owner := { start.owner with lanApplied := false }.setLan union } := by
    refine ⟨⟨opened.kept.setLan (fun rule member lan => ?_) nofun, ⟨rfl, rfl, rfl, rfl, rfl⟩, rfl⟩,
      rfl, rfl, directed.1, directed.2⟩
    obtain ⟨network, listed, rfl⟩ := kept.lan rule member lan
    refine ⟨network, (Finset.mem_sort (· ≤ ·)).mpr (Finset.mem_union_left _ ?_), rfl⟩
    exact List.mem_toFinset.mpr listed
  refine .bind (change_meets (.bind (saveJournal_meets ?_ ⟨rfl, recorded.networked⟩ trivial)))
  have saved : Replacing start mode wanted ⟨{ start.world with
      journal := some ({ start.owner with lanApplied := false }.setLan union).journal },
      { start.owner with lanApplied := false }.setLan union⟩ :=
    ⟨⟨recorded.networked.kept, recorded.networked.alike, recorded.networked.sources⟩,
      recorded.open', recorded.recorded, recorded.directed.1, recorded.directed.2⟩
  refine .bind (dropNetworks_meets saved rfl fun dropped replacing covers held => ?_)
  refine .bind (addNetworks_meets replacing covers (fun network member actual =>
    held network member (mem_actualNetworks kept actual)) fun added replacing covers held => ?_)
  have networked := replacing.networked
  have table := networked.alike.table
  have wantedOnly : Networked start mode
      { added with owner := added.owner.setLan (wanted.sort (· ≤ ·)) } := by
    refine ⟨networked.kept.setLan (fun rule member lan => ?_) (fun applied => ?_),
      ⟨networked.alike.index, networked.alike.own, table, networked.alike.bypass,
        networked.alike.name⟩, networked.sources⟩
    · obtain ⟨network, listed, rfl⟩ := covers rule member lan
      exact ⟨network, (Finset.mem_sort (· ≤ ·)).mpr listed, by rw [table]⟩
    · cases replacing.open'.symm.trans applied
  refine .bind (change_meets (.bind (saveJournal_meets ?_ ⟨rfl, wantedOnly⟩ trivial)))
  refine .bind (applyClassifier_meets (fun after aside guards classified => ?_)
    (fun after aside => ⟨rfl, ?_⟩) fun _ _ => trivial)
  · refine change_meets ⟨⟨⟨?_, ?_, ?_, ?_, ?_, ?_, ?_, ?_⟩, ?_, networked.sources⟩, ?_, rfl, ?_⟩
    · exact aside.rules ▸ wantedOnly.kept.once
    · exact aside.rules ▸ wantedOnly.kept.sourced
    · exact aside.rules ▸ wantedOnly.kept.sources
    · exact wantedOnly.kept.distinct
    · exact aside.rules ▸ wantedOnly.kept.lan
    · intro _ network member
      have known := held network ((Finset.mem_sort (· ≤ ·)).mp member)
      rw [← table] at known
      exact aside.rules ▸ known
    · exact aside.rules ▸ wantedOnly.kept.only
    · exact aside.rules ▸ wantedOnly.kept.caught
    · exact ⟨networked.alike.index, networked.alike.own, table, networked.alike.bypass,
        networked.alike.name⟩
    · exact Finset.sort_toFinset wanted (· ≤ ·)
    · have turned := Directed.classified replacing.directed.guard guards classified
      exact ⟨turned.1, turned.2⟩
  · exact ⟨aside.rules ▸ wantedOnly.kept, wantedOnly.alike, wantedOnly.sources⟩

theorem setLanNetworks_meets (kept : Kept start.world.rules start.owner mode)
    (directed : Directed start start.owner.bypass) (networks : List Network) :
    (setLanNetworks networks).Meets start
      ⟨fun _ after => Replaced start mode networks.toFinset after,
        fun fault after => fault = .plain ∧ Networked start mode after, fun _ => True⟩ := by
  have begun : Networked start mode start := ⟨kept, .refl _, rfl⟩
  refine .bind (.ensure (fun _ => ?_) fun _ => ⟨rfl, begun⟩)
  refine .bind (onWorld_meets (lock_meets ?_ ⟨rfl, begun⟩ trivial))
  refine .bind (owner_meets (.onlyIf (fun _ => replaceNetworks_meets kept directed _) fun same => ?_))
  rw [Bool.not_eq_false', Bool.and_eq_true, beq_iff_eq] at same
  exact ⟨begun, same.2.symm, same.1, directed⟩

end Networks

/-! ## Modes -/

section Modes

variable {start : Host} {mode : Bool}

/-- A switch that fails at its end has changed the catch-all rule already. -/
abbrev switching (start : Host) (mode bypass : Bool) : Ends Host Fault Unit where
  done _ after := Kept after.world.rules after.owner bypass ∧ Directed after bypass ∧
    after.owner = { start.owner with bypass }
  failed fault after := after.owner = start.owner ∧ (fault = .plain ∧
    Kept after.world.rules after.owner mode ∨ fault = .switched ∧
    Kept after.world.rules after.owner bypass ∧ bypass ≠ start.owner.bypass)
  died _ := True

theorem setBypass_meets (kept : Kept start.world.rules start.owner mode)
    (directed : Directed start start.owner.bypass) (bypass : Bool)
    (level : mode = start.owner.bypass ∨ bypass ≠ start.owner.bypass) :
    (setBypass bypass).Meets start
      (switching start mode bypass) := by
  refine .bind (owner_meets (.onlyIf (fun differs => ?_) fun same => ?_))
  · rw [bne_iff_ne] at differs
    refine .bind (onWorld_meets (lock_meets ?_ ⟨rfl, .inl ⟨rfl, kept⟩⟩ trivial))
    have finish (after : World) (guarded : Kept after.rules start.owner bypass)
        (guard : after.guards.get? start.owner.journal.name = some bypass) :
        ((applyClassifier .switched bypass : Owned Unit) >>= fun _ =>
          change fun consumer => { consumer with bypass }).Meets ⟨after, start.owner⟩
          (switching start mode bypass) := by
      refine .bind (applyClassifier_meets (fun last aside guards classified => ?_)
        (fun last aside => ⟨rfl, .inr ⟨rfl, ?_, differs.symm⟩⟩) fun _ _ => trivial)
      · have turned := Directed.classified guard guards classified
        have same : Kept last.rules start.owner bypass := aside.rules ▸ guarded
        refine change_meets ⟨same.congr rfl rfl rfl id, ?_, rfl⟩
        exact ⟨turned.1, turned.2⟩
      · exact aside.rules ▸ guarded
    cases bypass with
    | true =>
        refine .bind (.bind (applyGuard_meets (fun guarded aside _ guard => ?_)
          ⟨rfl, .inl ⟨rfl, kept⟩⟩ trivial))
        have same : Kept guarded.rules start.owner mode := aside.rules ▸ kept
        exact onWorld_meets (delRule_meets (finish _ same.eraseLast guard)
          ⟨rfl, .inl ⟨rfl, same⟩⟩ trivial)
    | false =>
        refine .bind (.bind (applyGuard_meets (fun guarded aside _ guard => ?_)
          ⟨rfl, .inl ⟨rfl, kept⟩⟩ trivial))
        have same : Kept guarded.rules start.owner mode := aside.rules ▸ kept
        exact onWorld_meets (addRule_meets (fun absent => finish _ (same.addLast absent) guard)
          ⟨rfl, .inl ⟨rfl, same⟩⟩ trivial)
  · obtain rfl : start.owner.bypass = bypass := by
      by_contra different
      exact absurd (bne_iff_ne.mpr different) (by rw [same]; decide)
    obtain rfl := level.resolve_right fun different => different rfl
    exact ⟨kept, directed, rfl⟩

/-- A refreshed consumer has its guard and its classifier in the recorded mode. -/
theorem refresh_meets (kept : Kept start.world.rules start.owner mode)
    (underlay : Finset Ipv4Addr) :
    (refresh underlay).Meets start
      ⟨fun _ after => Sourcing start mode after ∧ Directed after after.owner.bypass ∧
        ∀ ip, (after.owner.sources.get? ip).isSome = true ↔ ip ∈ underlay,
      fun fault after => fault = .plain ∧ Sourcing start mode after, fun _ => True⟩ := by
  have begun : Sourcing start mode start := ⟨kept, .refl _, rfl, rfl⟩
  refine .bind (onWorld_meets (lock_meets ?_ ⟨rfl, begun⟩ trivial))
  refine .bind ((updateSources_meets kept underlay).mono ?_ (fun _ _ failed => failed) fun _ _ => trivial)
  rintro _ updated ⟨sourcing, all⟩
  refine .bind (owner_meets ?_)
  refine .bind (applyClassifier_meets (fun classified aside guards known => ?_)
    (fun after aside => ⟨rfl, ?_⟩) fun _ _ => trivial)
  · refine applyGuard_meets (fun guarded around classifiers guard => ⟨?_, ⟨guard, ?_⟩, all⟩)
      ⟨rfl, ?_⟩ trivial
    · exact ⟨around.rules ▸ aside.rules ▸ sourcing.kept, sourcing.alike, sourcing.applied,
        sourcing.networks⟩
    · change (guarded.classifiers.get? _).map _ = _
      rw [classifiers]
      rw [known]
      rfl
    · exact ⟨aside.rules ▸ sourcing.kept, sourcing.alike, sourcing.applied, sourcing.networks⟩
  · exact ⟨aside.rules ▸ sourcing.kept, sourcing.alike, sourcing.applied, sourcing.networks⟩

end Modes

/-! ## Activation -/

section Activation

variable {start host : Host} {mode : Bool} {world : World} {rules : List Rule}

/-- A host without rules in the range of PortHub. -/
theorem Kept.initial {consumer : Consumer} (none : rules.any Rule.inRange = false)
    (sources : consumer.sources = .empty) (networks : consumer.journal.lanNetworks = []) :
    Kept rules consumer true := by
  have outside : ∀ rule ∈ rules, rule.inRange ≠ true := by
    intro rule member inside
    rw [List.any_eq_false] at none
    exact none rule member inside
  refine ⟨?_, ?_, ?_, ?_, ?_, ?_, ?_, ?_⟩
  · intro rule inside
    rw [List.count_eq_zero.mpr fun member => outside rule member inside]
    exact Nat.zero_le _
  · intro rule member sourced
    have small : firstPriority + 65 ≤ lastPriority := by decide
    refine absurd (inRange_of_le (Nat.le_of_lt sourced.1) ?_) (outside rule member)
    exact (Nat.le_of_lt sourced.2).trans small
  · intro ip priority found
    rw [sources] at found
    cases found
  · intro ip other priority found
    rw [sources] at found
    cases found
  · intro rule member same
    refine absurd (inRange_of_le ?_ ?_) (outside rule member)
    · rw [same]
      decide
    · rw [same]
      decide
  · intro _ network member
    rw [networks] at member
    cases member
  · intro rule member same
    refine absurd (inRange_of_le ?_ ?_) (outside rule member)
    · rw [same]
      decide
    · rw [same]
  · exact iff_of_false (fun member => outside _ member (catchAll_inRange _)) (by decide)

/-- A rule of another kind is added during the installation. -/
theorem addOther_meets {rule : Rule} (sourcing : Sourcing start mode host)
    (elsewhere : Elsewhere rule.priority) {done : Unit → Host → Prop}
    (next : ∀ after, Sourcing start mode after → after.owner = host.owner → done () after) :
    (onWorld (addRule rule)).Meets host ⟨done, fun _ _ => True, fun _ => True⟩ := by
  refine onWorld_meets (addRule_meets (fun absent => next _ ?_ rfl) trivial trivial)
  exact ⟨sourcing.kept.addOther absent elsewhere, sourcing.alike, sourcing.applied,
    sourcing.networks⟩

theorem addOthers_meets (sourcing : Sourcing start mode host)
    (others : ∀ rule ∈ rules, Elsewhere rule.priority) {done : Unit → Host → Prop}
    (next : ∀ after, Sourcing start mode after → after.owner = host.owner → done () after) :
    (each (fun rule => onWorld (addRule rule)) rules).Meets host
      ⟨done, fun _ _ => True, fun _ => True⟩ := by
  refine .each (fun _ after => Sourcing start mode after ∧ after.owner = host.owner)
    ⟨sourcing, rfl⟩ ?_ fun after kept => next after kept.1 kept.2
  rintro before rule later after rfl ⟨sourcing, same⟩
  exact addOther_meets sourcing (others rule (List.mem_append_right _ (.head _)))
    fun final sourcing owner => ⟨sourcing, owner.trans same⟩

theorem containerRoutes_others {index table} (found : containerRoutes index table = some rules) :
    ∀ rule ∈ rules, Elsewhere rule.priority := by
  unfold containerRoutes at found
  split at found
  · cases found
    intro rule member
    rcases List.mem_cons.mp member with rfl | last
    · exact (show Elsewhere (firstPriority + 66) by decide)
    · obtain rfl := List.mem_singleton.mp last
      exact (show Elsewhere (firstPriority + 67) by decide)
  · cases found

/-- An installed consumer keeps what it records, in its own mode. -/
theorem install_meets (kept : Kept start.world.rules start.owner true)
    (underlay : Finset Ipv4Addr) :
    (install underlay).Meets start
      ⟨fun _ after => Sourcing start start.owner.bypass after ∧
        Directed after start.owner.bypass ∧
        ∀ ip, (after.owner.sources.get? ip).isSome = true ↔ ip ∈ underlay,
      fun _ _ => True, fun _ => True⟩ := by
  refine .bind (owner_meets (.bind (onWorld_meets (.op (fun _ routed taken => ?_) trivial trivial))))
  have begun : Sourcing start true { start with world := routed } := by
    refine ⟨?_, .refl _, rfl, rfl⟩
    split at taken
    · cases taken
    · cases taken
      exact kept
  refine .bind (addOther_meets begun (show Elsewhere firstPriority by decide) fun one first same => ?_)
  refine .bind (addOther_meets first (show Elsewhere (firstPriority + 65) by decide)
    fun two second same => ?_)
  refine .bind ((updateSources_meets second.kept underlay).mono ?_ (fun _ _ _ => trivial)
    fun _ _ => trivial)
  rintro _ three ⟨sourcing, all⟩
  have third : Sourcing start true three :=
    ⟨sourcing.kept, second.alike.trans sourcing.alike, sourcing.applied.trans second.applied,
      sourcing.networks.trans second.networks⟩
  have privates : (each (fun network => onWorld (addRule (privateRule network)))
      privateNetworks : Owned Unit) =
      each (fun rule => onWorld (addRule rule)) (privateNetworks.map privateRule) := rfl
  rw [privates]
  refine .bind (addOthers_meets third ?_ fun four fourth same => ?_)
  · intro rule member
    obtain ⟨network, _, rfl⟩ := List.mem_map.mp member
    exact (show Elsewhere privateBypassPriority by decide)
  have sources : ∀ ip, (four.owner.sources.get? ip).isSome = true ↔ ip ∈ underlay := same ▸ all
  refine .bind ?_
  unfold addContainerRoutes
  cases found : containerRoutes start.owner.index start.owner.table with
  | none => exact .throw trivial
  | some rules =>
      refine addOthers_meets fourth (containerRoutes_others found) fun five fifth same => ?_
      rw [← same] at sources
      refine .bind (applyClassifier_meets (fun classified aside guards known => ?_)
        (fun _ _ => trivial) fun _ _ => trivial)
      refine .bind (applyGuard_meets (fun guarded around classifiers guard => ?_) trivial trivial)
      have turned : Directed ⟨guarded, five.owner⟩ start.owner.bypass := by
        refine ⟨guard, ?_⟩
        rw [classifiers]
        rw [known]
        rfl
      have sixth : Kept guarded.rules five.owner true := around.rules ▸ aside.rules ▸ fifth.kept
      refine .onlyIf (fun exits => ?_) fun direct => ?_
      · rw [Bool.not_eq_true'] at exits
        rw [exits] at turned ⊢
        refine onWorld_meets (addRule_meets (fun absent => ⟨⟨?_, fifth.alike, fifth.applied,
          fifth.networks⟩, ⟨turned.1, turned.2⟩, sources⟩) trivial trivial)
        rw [← fifth.alike.table] at absent ⊢
        exact sixth.addLast absent
      · rw [Bool.not_eq_false'] at direct
        rw [direct] at turned ⊢
        exact ⟨⟨sixth, fifth.alike, fifth.applied, fifth.networks⟩, turned, sources⟩

/-- What an activation brings about. -/
structure Activated (number : Nat) (address : Ipv4Addr) (underlay : Finset Ipv4Addr) (mode : Bool)
    (host : Host) : Prop where
  index : host.owner.index = number
  own : host.owner.own = address
  bypass : host.owner.bypass = mode
  kept : Kept host.world.rules host.owner mode
  directed : Directed host mode
  sources : ∀ ip, (host.owner.sources.get? ip).isSome = true ↔ ip ∈ underlay

theorem activate_meets (index : Nat) (own : Ipv4Addr) (underlay : Finset Ipv4Addr) (bypass : Bool) :
    (activateWithBypass index own underlay bypass).Meets world
      ⟨fun consumer after => Activated index own underlay bypass ⟨after, consumer⟩,
        fun _ _ => True, fun _ => True⟩ := by
  have anything {α : Type} (program : Exit α) (s : World) :
      program.Meets s ⟨fun _ _ => True, fun _ _ => True, fun _ => True⟩ := by
    intro tape
    rcases program s tape with ⟨result, t, rest⟩
    cases result with
    | done value => trivial
    | failed fault => trivial
    | died => trivial
  refine .bind (.ensure (fun _ => ?_) fun _ => trivial)
  refine .bind (.ensure (fun _ => ?_) fun _ => trivial)
  refine .bind (lock_meets ?_ trivial trivial)
  refine .bind (.op (fun name linked _ => ?_) trivial trivial)
  refine .bind (.ensure (fun _ => ?_) fun _ => trivial)
  refine .bind ((anything Journal.recover linked).mono (fun _ recovered _ => ?_)
    (fun _ _ _ => trivial) fun _ _ => trivial)
  refine .bind (getRulesV4_meets ?_ trivial trivial)
  refine .bind (.ensure (fun free => ?_) fun _ => trivial)
  refine .bind (.ensure (fun _ => ?_) fun _ => trivial)
  refine .bind (.op (fun routes same taken => ?_) trivial trivial)
  cases taken
  refine .bind (.ensure (fun _ => ?_) fun _ => trivial)
  refine .bind (.op (fun value saved taken => ?_) trivial trivial)
  cases taken
  rw [Bool.not_eq_true'] at free
  refine .zoom (.bind (.caught ((install_meets (Kept.initial free rfl rfl) underlay).mono ?_ ?_
    fun _ _ => trivial)))
  · rintro _ installed ⟨sourcing, directed, all⟩
    exact owner_meets ⟨sourcing.alike.index, sourcing.alike.own, sourcing.alike.bypass,
      sourcing.kept, directed, all⟩
  · intro fault half _
    refine .bind (.caught ?_)
    intro tape
    rcases clearInner half tape with ⟨result, after, rest⟩
    cases result with
    | done value => exact .throw trivial
    | failed other => exact .throw trivial
    | died => trivial

end Activation

/-! ## Clearing -/

section Clearing

variable {start : Host} {world : World}

/-- A failure before the first rule is deleted leaves the rules. -/
def ClearFails (rules : List Rule) (fault : Fault) (after : World) : Prop :=
  fault = .plain ∧ after.rules = rules ∨ fault = .clearing

theorem delRules_meets {α : Type} {rules} (rule : α → Rule) {list} {done : Unit → World → Prop}
    (next : ∀ after, done () after) :
    (each (fun x => delRuleIfExists .clearing (rule x)) list).Meets world
      ⟨done, ClearFails rules, fun _ => True⟩ := by
  refine .each (fun _ _ => True) trivial (fun before x later after _ _ => ?_) fun after _ => next after
  exact delRule_meets trivial (.inr rfl) trivial

theorem clearForwarding_meets {rules} {journal : Journal} (same : world.rules = rules)
    {done : Unit → World → Prop} (next : ∀ after, done () after) :
    journal.clearForwarding.Meets world ⟨done, ClearFails rules, fun _ => True⟩ := by
  refine .bind (.bind (.op (fun _ undocked taken => ?_) (.inl ⟨rfl, same⟩) trivial))
  cases taken
  refine .bind (.ensure (fun _ => ?_) fun _ => .inl ⟨rfl, same⟩)
  refine .op (fun _ declassified taken => ?_) (.inl ⟨rfl, same⟩) trivial
  cases taken
  split
  · exact .throw (.inl ⟨rfl, same⟩)
  · exact delRules_meets id next

theorem journal_clear_meets (journal : Journal) :
    journal.clear.Meets world
      ⟨fun _ _ => True, ClearFails world.rules, fun _ => True⟩ := by
  refine .bind (.op (fun current loaded taken => ?_) (.inl ⟨rfl, rfl⟩) trivial)
  have same : loaded.rules = world.rules := by
    split at taken
    · cases taken
      rfl
    · cases taken
  refine .seq (fun _ after => after = loaded) ?_ ?_
  · cases current with
    | none => exact .pure rfl
    | some current => exact .ensure (fun _ => rfl) fun _ => .inl ⟨rfl, same⟩
  rintro _ checked rfl
  -- from here on a failure is one while rules are deleted
  refine .seq (fun _ _ => True)
    (.onlyIf (fun _ => clearForwarding_meets same fun _ => trivial) fun _ => trivial) fun _ _ _ => ?_
  refine .seq (fun _ _ => True)
    (.onlyIf (fun _ => delRules_meets privateRule fun _ => trivial) fun _ => trivial) fun _ _ _ => ?_
  refine .bind (delRules_meets (lanRule journal.table) fun _ => ?_)
  refine .seq (fun _ _ => True) (.onlyIf (fun _ => ?_) fun _ => trivial) fun _ _ _ => ?_
  · exact .bind (.ensure (fun _ => .op (fun _ _ _ => trivial) (.inr rfl) trivial) fun _ => .inr rfl)
  refine .bind (delRule_meets ?_ (.inr rfl) trivial)
  refine .seq (fun _ _ => True)
    (.onlyIf (fun _ => delRule_meets trivial (.inr rfl) trivial) fun _ => trivial) fun _ _ _ => ?_
  refine .bind (delRules_meets (fun source : Ipv4Addr × Nat => sourceRule source.1 source.2)
    fun _ => ?_)
  refine .bind (delRule_meets ?_ (.inr rfl) trivial)
  refine .bind (.op (fun _ _ _ => ?_) (.inr rfl) trivial)
  exact .op (fun _ _ _ => trivial) (.inr rfl) trivial

/-- A consumer that is not cleared has its records. -/
theorem clear_meets : clear.Meets start
      ⟨fun _ _ => True, fun fault after => after.owner = start.owner ∧
        ClearFails start.world.rules fault after.world, fun _ => True⟩ := by
  refine .bind (onWorld_meets (lock_meets ?_ ⟨rfl, .inl ⟨rfl, rfl⟩⟩ trivial))
  refine .bind (owner_meets (.onlyIf (fun _ => ?_) fun _ => trivial))
  refine .bind (onWorld_meets ((journal_clear_meets _).mono (fun _ _ _ => ?_) ?_ fun _ _ => trivial))
  · exact change_meets trivial
  · exact fun fault after failed => ⟨rfl, failed⟩

end Clearing

/-! ## Iterations -/

inductive IpAddr where
  | v4 (ip : Ipv4Addr)
  | v6 (bits : BitVec 128)

def IpAddr.v4? : IpAddr → Option Ipv4Addr
  | .v4 ip => some ip
  | .v6 _ => none

/-- What an iteration finds, and what happens to its operations. -/
structure Input where
  wanted : Option Plan
  interfaces : List IpAddr
  tape : List Verdict

def Input.underlay (input : Input) : Finset Ipv4Addr :=
  (input.interfaces.filterMap IpAddr.v4?).toFinset

/-- The watcher with two marks on its active consumer: it was being cleared, and
    a switch of its mode failed at the end. Nothing reads the marks. -/
structure Watched where
  watch : Watch
  clearing : Bool
  switched : Bool

def Watched.new (world : World) : Watched := ⟨⟨world, none⟩, false, false⟩

inductive Output where
  | reported (report : Report)
  | died
deriving DecidableEq

/-- The consumer is another one than before the iteration. -/
def renewed (before after : Watch) (wanted : Option Plan) : Bool :=
  !before.active.any (·.serves wanted) && after.active.any (·.serves wanted)

def Watched.step (watched : Watched) (input : Input) : Watched × Output :=
  match update input.wanted input.underlay watched.watch input.tape with
  | (.done _, watch, _) =>
      (⟨watch, false, false⟩, .reported (report false input.wanted watch.active))
  | (.failed fault, watch, _) =>
      let old := !renewed watched.watch watch input.wanted
      (⟨watch, watch.active.isSome && (old && watched.clearing || fault == .clearing),
        watch.active.isSome && (old && watched.switched || fault == .switched)⟩,
        .reported (report true input.wanted watch.active))
  -- the next process starts without a consumer
  | (.died, watch, _) => (.new watch.world, .died)

/-- A consumer that was being cleared is not used again, and one whose switch
    failed at the end is not asked for the mode it has recorded. -/
structure Consistent (watched : Watched) (input : Input) : Prop where
  clearing : watched.clearing = true → ∀ consumer, watched.watch.active = some consumer →
    consumer.serves input.wanted = false
  switched : watched.switched = true → ∀ consumer plan, watched.watch.active = some consumer →
    input.wanted = some plan → consumer.serves input.wanted = true →
    plan.internetBypass ≠ consumer.bypass

/-- The records of the active consumer are true, up to its marks. -/
def Steady (watched : Watched) : Prop :=
  ∀ consumer, watched.watch.active = some consumer → watched.clearing = false →
    Kept watched.watch.world.rules consumer (xor consumer.bypass watched.switched)

/-- The mark of a failed switch, if the consumer stays. -/
def behind (watched : Watched) (wanted : Option Plan) : Bool :=
  watched.watch.active.any (·.serves wanted) && watched.switched

/-- What a failed iteration leaves behind. -/
def FailsSteady (watched : Watched) (wanted : Option Plan) (fault : Fault) (after : Watch) : Prop :=
  ∀ consumer, after.active = some consumer →
    (!renewed watched.watch after wanted && watched.clearing || fault == .clearing) = false →
    Kept after.world.rules consumer (xor consumer.bypass
      (!renewed watched.watch after wanted && watched.switched || fault == .switched))

/-- A consumer that follows the plan so far. -/
structure Engaged (watched : Watched) (plan : Plan) (underlay : Finset Ipv4Addr) (host : Host) :
    Prop where
  serves : host.owner.serves (some plan) = true
  kept : Kept host.world.rules host.owner (xor host.owner.bypass (behind watched (some plan)))
  directed : Directed host host.owner.bypass
  sources : ∀ ip, (host.owner.sources.get? ip).isSome = true ↔ ip ∈ underlay
  level : behind watched (some plan) = true → plan.internetBypass ≠ host.owner.bypass

/-- The kernel is as the plan says. -/
structure Routed (plan : Plan) (underlay : Finset Ipv4Addr) (host : Host) : Prop where
  internet : catchAll host.owner.table ∈ host.world.rules ↔ plan.internetBypass = false
  only : ∀ rule ∈ host.world.rules, rule.priority = lastPriority → rule = catchAll host.owner.table
  guard : host.world.guards.get? host.owner.journal.name = some plan.internetBypass
  classifier : (host.world.classifiers.get? host.owner.journal.name).map Prod.fst =
    some plan.internetBypass
  lan : ∀ rule, rule ∈ host.world.rules ∧ rule.priority = lanPriority ↔
    ∃ network ∈ plan.lanNetworks, rule = lanRule host.owner.table network
  sources : ∀ ip ∈ underlay, (host.world.rules.filter fun rule =>
    decide (sourcePriority rule.priority) && rule.protocol == some ruleProtocol
      && rule.source == some (ip, 32) && rule.table == mainTable).length = 1
  served : host.owner.index = plan.index ∧ host.owner.own = plan.own
  mode : host.owner.bypass = plan.internetBypass

section Iterations

variable {watched : Watched} {input : Input} {plan : Plan} {underlay : Finset Ipv4Addr}
  {consumer : Consumer} {ends : Ends Watch Fault Unit}

theorem serves_iff {plan} :
    consumer.serves (some plan) = true ↔ consumer.index = plan.index ∧ consumer.own = plan.own := by
  simp only [Consumer.serves, Option.map_some, beq_iff_eq, Option.some.injEq, Prod.mk.injEq]

theorem Alike.serves {before after} (alike : Alike before after) (wanted : Option Plan) :
    after.serves wanted = before.serves wanted := by
  rw [Consumer.serves, Consumer.serves, alike.index, alike.own]

theorem withActive_meets {watch : Watch} {inner : Owned Unit}
    (active : watch.active = some consumer) (meets : inner.Meets ⟨watch.world, consumer⟩
      ⟨fun value host => ends.done value ⟨host.world, some host.owner⟩,
        fun fault host => ends.failed fault ⟨host.world, some host.owner⟩,
        fun host => ends.died ⟨host.world, some host.owner⟩⟩) :
    (withActive inner).Meets watch ends := by
  refine .bind (.get ?_)
  dsimp only
  rw [active, onActive]
  exact .zoom meets

theorem withActive_none {world inner} (done : ends.done () ⟨world, none⟩) :
    (withActive inner).Meets ⟨world, none⟩ ends :=
  .bind (.get (.pure done))

/-- The consumer that the plan is for is left by a failure. -/
theorem fails_serving {world : World} {fault wanted} (serves : consumer.serves wanted = true)
    (kept : Kept world.rules consumer
      (xor consumer.bypass (behind watched wanted || fault == .switched))) :
    FailsSteady watched wanted fault ⟨world, some consumer⟩ := by
  intro found same _
  cases same
  have stays : (!renewed watched.watch ⟨world, some consumer⟩ wanted && watched.switched) =
      behind watched wanted := by
    rw [renewed, behind, Option.any_some, serves, Bool.and_true, Bool.not_not]
  rw [stays]
  exact kept

theorem retire_meets (steady : Steady watched) {wanted} {done : Unit → Watch → Prop}
    (stays : (∀ consumer, watched.watch.active = some consumer →
      consumer.serves wanted = true) → done () watched.watch)
    (cleared : ∀ world, watched.watch.active.any (·.serves wanted) = false →
      done () ⟨world, none⟩) :
    (retire wanted).Meets watched.watch
      ⟨done, FailsSteady watched wanted, fun _ => True⟩ := by
  refine .bind (.get (.onlyIf (fun leaves => ?_) fun serves => stays ?_))
  · cases active : watched.watch.active with
    | none =>
        rw [active] at leaves
        cases leaves
    | some consumer =>
        rw [active, Option.any_some, Bool.not_eq_true'] at leaves
        refine .bind (withActive_meets active
          (clear_meets.mono (fun _ host _ => ?_) ?_ fun _ _ => trivial))
        · exact .modify (cleared host.world (by rw [active, Option.any_some, leaves]))
        · rintro fault ⟨after, owner⟩ ⟨unchanged, failed⟩ found same marked
          obtain rfl : consumer = owner := unchanged.symm
          obtain rfl : consumer = found := Option.some.inj same
          have old : renewed watched.watch ⟨after, some consumer⟩ wanted = false := by
            rw [renewed, Option.any_some, leaves, Bool.and_false]
          simp only [old, Bool.not_false, Bool.true_and, Bool.or_eq_false_iff] at marked ⊢
          rcases failed with ⟨rfl, same⟩ | rfl
          · rw [same]
            have kept := steady consumer active marked.1
            rw [show (Fault.plain == Fault.switched) = false by decide, Bool.or_false]
            exact kept
          · exact absurd marked.2 (by decide)
  · intro consumer active
    rw [active, Option.any_some, Bool.not_eq_false'] at serves
    exact serves

/-- A consumer is refreshed or activated for the plan. -/
theorem engage_meets {watch : Watch} {done : Unit → Watch → Prop}
    (held : ∀ consumer, watch.active = some consumer → watch = watched.watch ∧
      consumer.serves (some plan) = true ∧
      Kept watch.world.rules consumer (xor consumer.bypass watched.switched) ∧
      (watched.switched = true → plan.internetBypass ≠ consumer.bypass))
    (absent : watch.active = none → watched.watch.active.any (·.serves (some plan)) = false)
    (idle : ∀ world, done () ⟨world, none⟩)
    (next : ∀ host, Engaged watched plan underlay host →
      done () ⟨host.world, some host.owner⟩) :
    (engage plan underlay).Meets watch
      ⟨done, FailsSteady watched (some plan), fun _ => True⟩ := by
  refine .bind (.get ?_)
  cases active : watch.active with
  | some consumer =>
      obtain ⟨same, serves, kept, level⟩ := held consumer active
      have mark : behind watched (some plan) = watched.switched := by
        rw [behind, ← same, active, Option.any_some, serves, Bool.true_and]
      rw [← mark] at kept level
      dsimp only
      rw [active, Option.isSome_some, if_pos rfl]
      refine withActive_meets active ((refresh_meets kept underlay).mono ?_ ?_ fun _ _ => trivial)
      · rintro _ host ⟨sourcing, directed, all⟩
        have bypass := sourcing.alike.bypass
        refine next host ⟨(sourcing.alike.serves _).trans serves, ?_, directed, all, ?_⟩
        · rw [bypass]
          exact sourcing.kept
        · rw [bypass]
          exact level
      · rintro fault host ⟨rfl, sourcing⟩
        refine fails_serving ((sourcing.alike.serves _).trans serves) ?_
        rw [show (Fault.plain == Fault.switched) = false by decide, Bool.or_false,
          sourcing.alike.bypass]
        exact sourcing.kept
  | none =>
      dsimp only
      rw [active, Option.isSome_none, if_neg (by decide)]
      have fresh : behind watched (some plan) = false := by
        rw [behind, absent active, Bool.false_and]
      refine .onlyIf (fun _ => ?_) fun _ => ?_
      · refine .bind (.zoom ((activate_meets _ _ _ _).mono ?_ (fun fault world _ => ?_)
          fun _ _ => trivial))
        · intro consumer world activated
          refine .modify (next ⟨world, consumer⟩ ⟨?_, ?_, ?_, activated.sources, ?_⟩)
          · exact serves_iff.mpr ⟨activated.index, activated.own⟩
          · rw [fresh, Bool.xor_false, activated.bypass]
            exact activated.kept
          · rw [activated.bypass]
            exact activated.directed
          · rw [fresh]
            exact nofun
        · intro found same
          cases active.symm.trans same
      · obtain ⟨world, consumer⟩ := watch
        obtain rfl : consumer = none := active
        exact idle world

/-- There is one rule in the kernel for a source. -/
theorem single_source {rules mode} (kept : Kept rules consumer mode) {ip}
    (found : (consumer.sources.get? ip).isSome = true) :
    (rules.filter fun rule => decide (sourcePriority rule.priority)
      && rule.protocol == some ruleProtocol && rule.source == some (ip, 32)
      && rule.table == mainTable).length = 1 := by
  obtain ⟨priority, found⟩ := Option.isSome_iff_exists.mp found
  obtain ⟨member, inside⟩ := kept.sources ip priority found
  have same : rules.filter (fun rule => decide (sourcePriority rule.priority)
      && rule.protocol == some ruleProtocol && rule.source == some (ip, 32)
      && rule.table == mainTable) = rules.filter (· == sourceRule ip priority) := by
    refine List.filter_congr fun rule held => ?_
    rw [Bool.eq_iff_iff]
    simp only [Bool.and_eq_true, decide_eq_true_eq, beq_iff_eq]
    constructor
    · rintro ⟨⟨⟨sourced, _⟩, source⟩, _⟩
      obtain ⟨other, place, known, rfl⟩ := kept.sourced rule held sourced
      obtain rfl : other = ip := congrArg Prod.fst (Option.some.inj source)
      obtain rfl := Option.mem_unique known found
      rfl
    · rintro rfl
      exact ⟨⟨⟨inside, rfl⟩, rfl⟩, rfl⟩
  have once : rules.count (sourceRule ip priority) ≤ 1 := kept.once _ (sourceRule_inRange inside)
  have positive := List.count_pos_iff.mpr member
  rw [same, ← List.countP_eq_length_filter]
  change rules.count (sourceRule ip priority) = 1
  omega

theorem Engaged.routed {host} (engaged : Engaged watched plan underlay host) {networked}
    {final : Host} (replaced : Replaced host (xor host.owner.bypass (behind watched (some plan)))
      plan.lanNetworks.toFinset networked)
    (kept : Kept final.world.rules final.owner plan.internetBypass)
    (directed : Directed final plan.internetBypass)
    (same : final.owner = { networked.owner with bypass := plan.internetBypass }) :
    Routed plan underlay final := by
  have alike := replaced.networked.alike
  have networks : final.owner.journal.lanNetworks = networked.owner.journal.lanNetworks := by
    rw [same]
  have sources : final.owner.sources = host.owner.sources := by
    rw [same]
    exact replaced.networked.sources
  have listed (network : Network) :
      network ∈ final.owner.journal.lanNetworks ↔ network ∈ plan.lanNetworks := by
    rw [networks, ← List.mem_toFinset, replaced.networks, List.mem_toFinset]
  refine ⟨kept.caught, kept.only, directed.guard, directed.classifier, fun rule => ?_,
    fun ip inside => ?_, ?_, ?_⟩
  · constructor
    · rintro ⟨member, lan⟩
      obtain ⟨network, recorded, rfl⟩ := kept.lan rule member lan
      exact ⟨network, (listed network).mp recorded, rfl⟩
    · rintro ⟨network, member, rfl⟩
      refine ⟨kept.applied ?_ network ((listed network).mpr member), rfl⟩
      rw [same]
      exact replaced.applied
  · refine single_source kept ?_
    rw [sources]
    exact (engaged.sources ip).mpr inside
  · obtain ⟨index, own⟩ := serves_iff.mp engaged.serves
    rw [same]
    exact ⟨alike.index.trans index, alike.own.trans own⟩
  · rw [same]

/-- One iteration: without an error the kernel is as the plan says, and with one
    the records stay true up to the marks. -/
theorem update_meets (steady : Steady watched) (consistent : Consistent watched input) :
    (update input.wanted input.underlay).Meets watched.watch
      ⟨fun _ after => ∀ consumer, after.active = some consumer → ∃ plan,
        input.wanted = some plan ∧ Routed plan input.underlay ⟨after.world, consumer⟩ ∧
        Kept after.world.rules consumer plan.internetBypass,
      FailsSteady watched input.wanted, fun _ => True⟩ := by
  refine .seq (fun _ after => (after = watched.watch ∧ ∀ consumer,
      watched.watch.active = some consumer → consumer.serves input.wanted = true) ∨
      after.active = none ∧ watched.watch.active.any (·.serves input.wanted) = false) ?_ ?_
  · exact retire_meets steady (fun serves => .inl ⟨rfl, serves⟩) fun world gone => .inr ⟨rfl, gone⟩
  intro _ after retired
  cases wanted : input.wanted with
  | none =>
      refine .pure fun consumer active => ?_
      rcases retired with ⟨rfl, serves⟩ | ⟨gone, _⟩
      · have served := serves consumer active
        rw [wanted] at served
        cases served
      · cases gone.symm.trans active
  | some plan =>
      rw [wanted] at retired
      refine .bind (engage_meets ?_ ?_ (fun world => ?_) fun host engaged => ?_)
      · intro consumer active
        obtain ⟨rfl, serves⟩ := retired.resolve_right fun gone => by
          cases gone.1.symm.trans active
        have served := serves consumer active
        have uncleared : watched.clearing = false := by
          cases marked : watched.clearing with
          | false => rfl
          | true =>
              have refused := consistent.clearing marked consumer active
              rw [wanted, served] at refused
              cases refused
        refine ⟨rfl, served, steady consumer active uncleared, fun marked => ?_⟩
        exact consistent.switched marked consumer plan active wanted (wanted ▸ served)
      · intro none
        rcases retired with ⟨rfl, _⟩ | ⟨_, gone⟩
        · rw [none]
          rfl
        · exact gone
      · exact .bind (withActive_none (withActive_none nofun))
      · refine .bind (withActive_meets rfl
          ((setLanNetworks_meets engaged.kept engaged.directed _).mono ?_ ?_ fun _ _ => trivial))
        · intro _ networked replaced
          have alike := replaced.networked.alike
          have directed : Directed networked networked.owner.bypass :=
            alike.bypass.symm ▸ replaced.directed
          refine withActive_meets rfl
            ((setBypass_meets replaced.networked.kept directed plan.internetBypass ?_).mono ?_ ?_
              fun _ _ => trivial)
          · rw [alike.bypass]
            cases mark : behind watched (some plan) with
            | false => exact .inl (Bool.xor_false _)
            | true => exact .inr (engaged.level mark)
          · rintro _ final ⟨kept, directed, same⟩ consumer active
            cases active
            exact ⟨plan, rfl, engaged.routed replaced kept directed same, kept⟩
          · rintro fault ⟨world, owner⟩ ⟨same, failed⟩
            obtain rfl : networked.owner = owner := same.symm
            refine fails_serving ((alike.serves _).trans engaged.serves) ?_
            rcases failed with ⟨rfl, kept⟩ | ⟨rfl, kept, different⟩
            · rw [show (Fault.plain == Fault.switched) = false by decide, Bool.or_false, alike.bypass]
              exact kept
            · rw [show (Fault.switched == Fault.switched) = true by decide, Bool.or_true,
                Bool.xor_true, ← Bool.eq_not_of_ne different]
              exact kept
        · rintro fault networked ⟨rfl, kept⟩
          refine fails_serving ((kept.alike.serves _).trans engaged.serves) ?_
          rw [show (Fault.plain == Fault.switched) = false by decide, Bool.or_false,
            kept.alike.bypass]
          exact kept.kept

/-- What an iteration ensures. -/
def Follows (input : Input) (output : Output) (after : Watched) : Prop :=
  ∀ reported consumer, output = .reported reported → reported ≠ .configurationError →
    after.watch.active = some consumer → ∃ plan, input.wanted = some plan ∧
      Routed plan input.underlay ⟨after.watch.world, consumer⟩ ∧
      (reported = .exitActive → plan.internetBypass = false)

theorem Steady.step (steady : Steady watched) (consistent : Consistent watched input) :
    Steady (watched.step input).1 ∧ Follows input (watched.step input).2 (watched.step input).1 := by
  have met := update_meets steady consistent input.tape
  unfold Watched.step
  rcases outcome : update input.wanted input.underlay watched.watch input.tape with
    ⟨result, after, rest⟩
  rw [outcome] at met
  cases result with
  | done value =>
      refine ⟨fun consumer active _ => ?_, fun reported consumer same _ active => ?_⟩
      · obtain ⟨plan, _, routed, kept⟩ := met consumer active
        rw [show (Watched.mk after false false).switched = false from rfl, Bool.xor_false, routed.mode]
        exact kept
      · obtain ⟨plan, wanted, routed, _⟩ := met consumer active
        refine ⟨plan, wanted, routed, fun exits => ?_⟩
        obtain rfl := Output.reported.inj same
        have active' : after.active = some consumer := active
        rw [← routed.mode]
        simp only [report, active', wanted, Option.any_some] at exits
        split at exits
        · contradiction
        · split at exits
          · cases exits
          · split at exits
            · cases exits
            · rename_i uses
              exact Bool.eq_false_iff.mpr uses
  | failed fault =>
      refine ⟨fun consumer active uncleared => ?_, fun reported consumer same known => ?_⟩
      · have found : after.active.isSome = true := Option.isSome_iff_exists.mpr ⟨consumer, active⟩
        simp only [found, Bool.true_and] at uncleared ⊢
        exact met consumer active uncleared
      · exact absurd (Output.reported.inj same).symm known
  | died => exact ⟨fun consumer active => (nomatch active), fun _ _ same => nomatch same⟩

end Iterations

/-- The iterations that are consistent with what failed before. -/
def Consistently (before : Watched) (label : Input × Output) (after : Watched) : Prop :=
  answers Watched.step before label after ∧ Consistent before label.1

theorem steady_of_run {world history watched} (run : Run Consistently (.new world) history watched) :
    Steady watched := by
  induction run with
  | start =>
      intro consumer active
      cases active
  | snoc _ taken steady =>
      have next := (steady.step taken.2).1
      rw [taken.1] at next
      exact next

/-- Whatever fails on the way, an iteration without an error that leaves a
    consumer active leaves the kernel as the plan says. -/
theorem exit_routing_is_what_it_reports (world : World) (history : List (Input × Output))
    (watched : Watched) (run : Run Consistently (.new world) history watched)
    (label : Input × Output) (after : Watched) (taken : Consistently watched label after) :
    Follows label.1 label.2 after := by
  have next := ((steady_of_run run).step taken.2).2
  rw [taken.1] at next
  exact next

/-! ## A failed switch -/

def exampleWorld : World :=
  ⟨[], [], .empty, .empty, none, Dict.insert .empty 5 "ph0123abcd", none⟩

/-- The plan of the example, with or without normal internet as a fallback. -/
def examplePlan (bypass : Bool) : Plan := ⟨5, ⟨10, 0, 0, 2⟩, .internetOnly, bypass, []⟩

def exampleInput (bypass : Bool) (tape : List Verdict) : Input :=
  ⟨some (examplePlan bypass), [.v4 ⟨203, 0, 113, 7⟩], tape⟩

/-- The classifier at the end of `set_bypass` fails. -/
def classifierFails : List Verdict := List.replicate 9 .pass ++ [.fail]

/-- The condition on one iteration, checked. -/
def consistent (watched : Watched) (input : Input) : Bool :=
  watched.watch.active.all fun consumer =>
    (!watched.clearing || !consumer.serves input.wanted) &&
      (!watched.switched || input.wanted.all fun plan =>
        !consumer.serves input.wanted || plan.internetBypass != consumer.bypass)

theorem consistent_of_check {watched input} (checked : consistent watched input = true) :
    Consistent watched input := by
  constructor
  · intro marked consumer active
    rw [consistent, active, Option.all_some, marked] at checked
    simpa using (Bool.and_eq_true_iff.mp checked).1
  · intro marked consumer plan active wanted serves
    rw [consistent, active, Option.all_some, marked, wanted] at checked
    have last := (Bool.and_eq_true_iff.mp checked).2
    rw [wanted] at serves
    rw [Option.all_some, serves] at last
    simpa using last

/-- The fallback fails at first and is tried again. -/
def retriedInputs : List Input := [exampleInput false [], exampleInput true classifierFails]

theorem retried_fallback_is_reported : let watched := (feed Watched.step (.new exampleWorld) retriedInputs).2
    (watched.step (exampleInput true [])).2 = .reported .normalInternet ∧
      Follows (exampleInput true []) (.reported .normalInternet)
        (watched.step (exampleInput true [])).1 := by
  intro watched
  have taken : Run Consistently (.new exampleWorld)
      (feed Watched.step (.new exampleWorld) retriedInputs).1 watched :=
    feed_run_of_passes (fun _ _ checked => ⟨rfl, consistent_of_check checked⟩)
      (show feedPasses _ consistent _ _ = true by decide +kernel)
  have reported : (watched.step (exampleInput true [])).2 = .reported .normalInternet := by
    decide +kernel
  have allowed : Consistent watched (exampleInput true []) :=
    consistent_of_check (by decide +kernel)
  refine ⟨reported, ?_⟩
  rw [← reported]
  exact exit_routing_is_what_it_reports exampleWorld _ _ taken (exampleInput true [], _) _
    ⟨rfl, allowed⟩

/-- The fallback fails at its end, and the exit is wanted again. -/
theorem reverted_fallback_bypasses_exit :
    ¬ ∀ world history watched, Run (answers Watched.step) (.new world) history watched →
      ∀ label after, answers Watched.step watched label after →
        Follows label.1 label.2 after := by
  intro all
  let watched := (feed Watched.step (.new exampleWorld) retriedInputs).2
  let after := (watched.step (exampleInput false [])).1
  have reported : (watched.step (exampleInput false [])).2 = .reported .exitActive := by
    decide +kernel
  have follows := all exampleWorld _ watched (feed_run _ _ _)
    (exampleInput false [], .reported .exitActive) after (Prod.ext rfl reported)
  have bare : after.watch.active.all fun consumer =>
      decide (catchAll consumer.table ∉ after.watch.world.rules) := by decide +kernel
  have found : after.watch.active.isSome = true := by decide +kernel
  obtain ⟨consumer, active⟩ := Option.isSome_iff_exists.mp found
  obtain ⟨plan, _, routed, exits⟩ := follows .exitActive consumer rfl (by decide) active
  rw [active, Option.all_some, decide_eq_true_eq] at bare
  exact bare (routed.internet.mpr (exits rfl))

end PortHub.Agent.ExitRoutes
