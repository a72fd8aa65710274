import PortHub.Agent.ExitFollowing
import PortHub.Agent.ExitLease

/-! # Exit rules are recoverable

A consumer extends its journal before it changes the kernel, and shortens it only
afterwards. So the journal on disk, and the one in memory, name everything that the
consumer has added, in every state in which the process may end. The journal grows
when an operation fails; as long as it stays within the limits that `load` checks,
the rules and routes can be taken back.
-/

namespace PortHub.Agent.ExitRoutes

open Faults
open Faults.Prog
open Runs

/-- A consumer of a known identity whose journals, in memory and on disk, name what it
    has added. -/
structure Held (origin : World) (base : Journal) (host : Host) : Prop where
  claimed : host.owner.claimed = true
  identified : host.owner.journal.Same base
  index : host.owner.index = host.owner.journal.index
  own : host.owner.own = host.owner.journal.own
  table : host.owner.table = host.owner.journal.table
  leased : Leased origin host.owner.journal host.world
  saved : ∃ disk, host.world.journal = some disk ∧ disk.Same host.owner.journal ∧
    Leased origin disk host.world
  sourced : ∀ rule ∈ host.world.rules, sourcePriority rule.priority →
    ∃ ip priority, host.owner.sources.get? ip = some priority ∧ rule = sourceRule ip priority
  priorities : ∀ ip priority, host.owner.sources.get? ip = some priority → sourcePriority priority

/-- What is found on disk can be taken back. -/
structure Recoverable (origin world : World) : Prop where
  leased : ∀ journal, world.journal = some journal → Leased origin journal world
  bare : world.journal = none → world.rules = origin.rules ∧ world.routes = origin.routes

/-- How an operation of a consumer may end. -/
abbrev holding (origin : World) (base : Journal) (done : Host → Prop) : Ends Host Fault Unit :=
  ⟨fun _ => done, fun _ => Held origin base, Held origin base⟩

namespace Held

variable {origin : World} {base : Journal} {host : Host} {rule : Rule}

section

variable (held : Held origin base host)

include held

theorem recoverable : Recoverable origin host.world := by
  obtain ⟨disk, found, _, leased⟩ := held.saved
  constructor
  · intro journal other
    obtain rfl := Option.mem_unique found other
    exact leased
  · intro none
    cases found.symm.trans none

/-- Only the filters, the links or other records of the consumer change. -/
theorem congr {after : Host} (rules : after.world.rules = host.world.rules)
    (routes : after.world.routes = host.world.routes) (journal : after.world.journal = host.world.journal)
    (claimed : after.owner.claimed = host.owner.claimed) (index : after.owner.index = host.owner.index)
    (own : after.owner.own = host.owner.own) (table : after.owner.table = host.owner.table)
    (sources : after.owner.sources = host.owner.sources)
    (recorded : after.owner.journal = host.owner.journal) : Held origin base after where
  claimed := claimed.trans held.claimed
  identified := recorded ▸ held.identified
  index := by rw [index, recorded, held.index]
  own := by rw [own, recorded, held.own]
  table := by rw [table, recorded, held.table]
  leased := recorded ▸ held.leased.congr rules routes
  saved := by
    obtain ⟨disk, found, same, leased⟩ := held.saved
    exact ⟨disk, journal.trans found, recorded ▸ same, leased.congr rules routes⟩
  sourced := by
    rw [rules, sources]
    exact held.sourced
  priorities := by
    rw [sources]
    exact held.priorities

theorem aside {name after} (aside : Aside name host.world after) :
    Held origin base { host with world := after } :=
  held.congr aside.rules aside.routes aside.journal rfl rfl rfl rfl rfl rfl

/-- A rule that both journals name is added. -/
theorem add (member : rule ∈ host.owner.journal.owned)
    (disk : ∀ disk, host.world.journal = some disk → disk.Same host.owner.journal → rule ∈ disk.owned)
    (other : ¬ sourcePriority rule.priority) (absent : rule ∉ host.world.rules) :
    Held origin base { host with world := { host.world with rules := host.world.rules ++ [rule] } } := by
  refine { held with leased := held.leased.add member absent, saved := ?_, sourced := ?_ }
  · obtain ⟨found, there, same, leased⟩ := held.saved
    exact ⟨found, there, same, leased.add (disk found there same) absent⟩
  · intro found listed sourced
    rcases mem_snoc.mp listed with before | rfl
    · exact held.sourced found before sourced
    · exact absurd sourced other

theorem addFixed (fixed : host.owner.journal.Fixed rule)
    (absent : rule ∉ host.world.rules) :
    Held origin base { host with world := { host.world with rules := host.world.rules ++ [rule] } } := by
  refine held.add (Journal.mem_owned.mpr (.inl fixed)) (fun disk _ same => ?_) fixed.priority.2.1 absent
  exact Journal.mem_owned.mpr (.inl (same.symm.fixed fixed))

theorem shrinks {after}
    (shrinks : Shrinks host.owner.journal host.world after) :
    Held origin base { host with world := after } := by
  refine { held with leased := held.leased.shrinks ⟨rfl, rfl, rfl⟩ shrinks, saved := ?_, sourced := ?_ }
  · obtain ⟨disk, found, same, leased⟩ := held.saved
    exact ⟨disk, shrinks.journal.trans found, same, leased.shrinks same.symm shrinks⟩
  · obtain ⟨erased, _, rules⟩ := shrinks.rules
    intro rule member
    rw [show ({ host with world := after } : Host).world.rules = after.rules from rfl, rules] at member
    exact held.sourced rule ((List.diff_sublist _ _).subset member)

theorem erase (ranged : rule.inRange = true) :
    Held origin base { host with world := { host.world with rules := host.world.rules.erase rule } } := by
  refine held.shrinks ⟨⟨[rule], by simpa using ranged, ?_⟩, .inl rfl, rfl⟩
  rw [List.diff_cons, List.diff_nil]

/-- The journal in memory is written to disk. -/
theorem save :
    Held origin base { host with world := { host.world with journal := some host.owner.journal } } :=
  { held with
    leased := held.leased.congr rfl rfl
    saved := ⟨_, rfl, ⟨rfl, rfl, rfl⟩, held.leased.congr rfl rfl⟩ }

/-- A rule in the kernel with the priority of a source is one that the journal lists. -/
theorem listed_source (member : rule ∈ host.world.rules)
    (sourced : sourcePriority rule.priority) :
    ∃ source ∈ host.owner.journal.sources, rule = sourceRule source.1 source.2 := by
  have small : firstPriority + 65 ≤ lastPriority := by decide
  have ranged := inRange_of_le sourced.1.le (sourced.2.le.trans small)
  rcases Journal.mem_owned.mp (held.leased.named rule member ranged) with fixed | ⟨network, _, rfl⟩ | listed
  · exact absurd sourced fixed.priority.2.1
  · exact absurd sourced lan_not_source
  · exact listed

theorem listed_lan (member : rule ∈ host.world.rules)
    (lan : rule.priority = lanPriority) :
    ∃ network ∈ host.owner.journal.lanNetworks, rule = lanRule host.owner.journal.table network := by
  have ranged : rule.inRange = true := by
    refine inRange_of_le ?_ ?_
    · rw [lan]
      decide
    · rw [lan]
      decide
  rcases Journal.mem_owned.mp (held.leased.named rule member ranged) with fixed | listed | ⟨source, listed, rfl⟩
  · exact absurd lan fixed.priority.2.2
  · exact listed
  · have sourced := held.leased.whole.fits.priorities source listed
    rw [show source.2 = lanPriority from lan] at sourced
    exact absurd sourced lan_not_source

/-- Other sources are recorded, among them all that are in the kernel. -/
theorem setSources {sources : List (Ipv4Addr × Nat)}
    (few : sources.length ≤ 128) (valid : ∀ source ∈ sources, sourcePriority source.2)
    (named : ∀ rule ∈ host.world.rules, sourcePriority rule.priority →
      ∃ source ∈ sources, rule = sourceRule source.1 source.2) :
    Held origin base { host with owner := host.owner.setSources sources } := by
  have whole := held.leased.whole
  have fits : (host.owner.setSources sources).journal.Fits :=
    { whole.fits with sources := few, priorities := valid }
  have identified := held.identified
  refine
    { held with
      identified := ⟨identified.index, identified.name, identified.own⟩
      leased := held.leased.rename ⟨rfl, rfl, rfl⟩ { whole with fits } ?_
      saved := ?_ }
  · intro rule member ranged
    by_cases sourced : sourcePriority rule.priority
    · exact Journal.mem_owned.mpr (.inr (.inr (named rule member sourced)))
    · rcases Journal.mem_owned.mp (held.leased.named rule member ranged) with fixed | lan | ⟨source, listed, rfl⟩
      · exact Journal.mem_owned.mpr (.inl fixed)
      · exact Journal.mem_owned.mpr (.inr (.inl lan))
      · exact absurd (whole.fits.priorities source listed) sourced
  · obtain ⟨disk, found, same, leased⟩ := held.saved
    exact ⟨disk, found, ⟨same.index, same.name, same.own⟩, leased⟩

/-- Other networks are recorded, among them all that are in the kernel. -/
theorem setLan {networks : List Network} (few : networks.length ≤ 512)
    (named : ∀ rule ∈ host.world.rules, rule.priority = lanPriority →
      ∃ network ∈ networks, rule = lanRule host.owner.journal.table network) :
    Held origin base { host with owner := host.owner.setLan networks } := by
  have whole := held.leased.whole
  have fits : (host.owner.setLan networks).journal.Fits := { whole.fits with lanNetworks := few }
  have identified := held.identified
  refine
    { held with
      identified := ⟨identified.index, identified.name, identified.own⟩
      leased := held.leased.rename ⟨rfl, rfl, rfl⟩ { whole with fits } ?_
      saved := ?_ }
  · intro rule member ranged
    by_cases lan : rule.priority = lanPriority
    · exact Journal.mem_owned.mpr (.inr (.inl (named rule member lan)))
    · rcases Journal.mem_owned.mp (held.leased.named rule member ranged) with fixed | ⟨network, _, rfl⟩ | source
      · exact Journal.mem_owned.mpr (.inl fixed)
      · exact absurd rfl lan
      · exact Journal.mem_owned.mpr (.inr (.inr source))
  · obtain ⟨disk, found, same, leased⟩ := held.saved
    exact ⟨disk, found, ⟨same.index, same.name, same.own⟩, leased⟩

/-- A source and its rule go together. -/
theorem dropSource {ip priority}
    (found : host.owner.sources.get? ip = some priority) :
    Held origin base ⟨{ host.world with rules := host.world.rules.erase (sourceRule ip priority) },
      { host.owner with sources := host.owner.sources.erase ip }⟩ := by
  have ranged : (sourceRule ip priority).inRange = true :=
    sourceRule_inRange (held.priorities ip priority found)
  have erased := held.erase ranged
  refine { erased with sourced := ?_, priorities := ?_ }
  · intro rule member sourced
    obtain ⟨other, place, known, rfl⟩ := held.sourced rule (List.mem_of_mem_erase member) sourced
    refine ⟨other, place, ?_, rfl⟩
    have different : other ≠ ip := by
      rintro rfl
      obtain rfl := Option.mem_unique known found
      exact not_mem_erase (held.leased.once _ ranged) member
    rw [Dict.get?_erase_ne _ different]
    exact known
  · intro other place known
    exact held.priorities other place (Dict.get?_of_erase known).2

/-- A source is added with its rule, which both journals name. -/
theorem addSource {ip priority}
    (missing : host.owner.sources.get? ip = none) (sourced : sourcePriority priority)
    (listed : (ip, priority) ∈ host.owner.journal.sources)
    (synced : host.world.journal = some host.owner.journal)
    (absent : sourceRule ip priority ∉ host.world.rules) :
    Held origin base ⟨{ host.world with rules := host.world.rules ++ [sourceRule ip priority] },
      { host.owner with sources := host.owner.sources.insert ip priority }⟩ := by
  have member : sourceRule ip priority ∈ host.owner.journal.owned :=
    Journal.mem_owned.mpr (.inr (.inr ⟨(ip, priority), listed, rfl⟩))
  refine { held with leased := held.leased.add member absent, saved := ?_, sourced := ?_, priorities := ?_ }
  · exact ⟨_, synced, ⟨rfl, rfl, rfl⟩, held.leased.add member absent⟩
  · intro rule found inside
    rcases mem_snoc.mp found with before | here
    · obtain ⟨other, place, known, rfl⟩ := held.sourced rule before inside
      refine ⟨other, place, ?_, rfl⟩
      have different : other ≠ ip := by
        rintro rfl
        cases missing.symm.trans known
      rw [Dict.get?_insert_ne _ _ different]
      exact known
    · exact ⟨ip, priority, Dict.get?_insert_self _ _ _, here⟩
  · intro other place known
    by_cases same : other = ip
    · subst same
      rw [Dict.get?_insert_self] at known
      cases known
      exact sourced
    · rw [Dict.get?_insert_ne _ _ same] at known
      exact held.priorities other place known

end

end Held

/-! ## Sources -/

section Sources

variable {origin : World} {base : Journal} {host : Host} {done : Host → Prop}
  {underlay : Finset Ipv4Addr}

theorem dropSource_holds (held : Held origin base host) {ip priority}
    (found : host.owner.sources.get? ip = some priority)
    (next : ∀ after, Held origin base after → after.owner.journal = host.owner.journal →
      after.owner.sources = host.owner.sources.erase ip → done after) :
    (dropSource (ip, priority)).Meets host (holding origin base done) :=
  .bind (onWorld_meets (delRule_meets (change_meets (next _ (held.dropSource found) rfl rfl)) held held))

/-- The journal on disk names the rule before the kernel has it. -/
theorem addSource_holds (held : Held origin base host) {ip}
    (room : host.owner.sources.get? ip = none → host.owner.journal.sources.length < 128)
    (present : ∀ priority, host.owner.sources.get? ip = some priority → done host)
    (next : ∀ after priority, Held origin base after →
      after.owner.journal.sources.length = host.owner.journal.sources.length + 1 →
      host.owner.sources.get? ip = none →
      after.owner.sources = host.owner.sources.insert ip priority → done after) :
    (addSource ip).Meets host (holding origin base done) := by
  refine .bind (owner_meets ?_)
  dsimp only
  split
  · rename_i known
    obtain ⟨priority, found⟩ := Option.isSome_iff_exists.mp known
    exact .pure (present priority found)
  · rename_i absent
    have missing : host.owner.sources.get? ip = none := by
      rw [Dict.contains, Option.not_isSome_iff_eq_none] at absent
      exact absent
    split
    · exact .throw held
    · rename_i priority free
      obtain ⟨sourced, _⟩ := freePriority_spec free
      have pushed : Held origin base { host with
          owner := host.owner.setSources (host.owner.journal.sources ++ [(ip, priority)]) } := by
        refine held.setSources ?_ ?_ ?_
        · rw [List.length_append, List.length_singleton]
          exact room missing
        · intro source member
          rcases mem_snoc.mp member with before | rfl
          · exact held.leased.whole.fits.priorities source before
          · exact sourced
        · intro rule member inside
          obtain ⟨source, listed, same⟩ := held.listed_source member inside
          exact ⟨source, List.mem_append_left _ listed, same⟩
      refine .bind (change_meets (.bind (saveJournal_meets ?_ pushed pushed)))
      refine .bind (onWorld_meets (addRule_meets (fun absent => ?_) pushed.save pushed.save))
      refine change_meets (next _ priority ?_ ?_ missing rfl)
      · exact pushed.save.addSource missing sourced (List.mem_append_right _ (List.mem_singleton.mpr rfl))
          rfl absent
      · exact List.length_append.trans rfl

theorem recordSources_holds (held : Held origin base host) (few : host.owner.recorded.length ≤ 128)
    (next : ∀ after, Held origin base after → done after) :
    recordSources.Meets host (holding origin base done) := by
  refine .bind (owner_meets ?_)
  dsimp only
  split
  · exact .pure (next host held)
  · have recorded : Held origin base { host with owner := host.owner.setSources host.owner.recorded } := by
      refine held.setSources few ?_ ?_
      · rintro ⟨ip, priority⟩ member
        exact held.priorities ip priority (mem_recorded.mp member)
      · intro rule member inside
        obtain ⟨ip, priority, found, same⟩ := held.sourced rule member inside
        exact ⟨(ip, priority), mem_recorded.mpr found, same⟩
    exact .bind (change_meets (saveJournal_meets (next _ recorded.save) recorded recorded))

/-- At most one source is recorded for each address. -/
theorem recorded_length_le {consumer : Consumer}
    (only : ∀ ip, (consumer.sources.get? ip).isSome = true → ip ∈ underlay) :
    consumer.recorded.length ≤ underlay.card := by
  have distinct := recorded_distinct consumer
  rw [← List.length_map Prod.fst, ← List.toFinset_card_of_nodup distinct]
  refine Finset.card_le_card fun ip member => ?_
  obtain ⟨⟨other, priority⟩, listed, rfl⟩ := List.mem_map.mp (List.mem_toFinset.mp member)
  exact only other (Option.isSome_iff_exists.mpr ⟨priority, mem_recorded.mp listed⟩)

/-- The sources that are not wanted go; the journal stays. -/
theorem dropSources_holds (held : Held origin base host) (underlay : Finset Ipv4Addr)
    (next : ∀ after, Held origin base after → after.owner.journal = host.owner.journal →
      (∀ ip, (after.owner.sources.get? ip).isSome = true → ip ∈ underlay) →
      (∀ ip ∈ underlay, after.owner.sources.get? ip = host.owner.sources.get? ip) → done after) :
    (each dropSource (host.owner.recorded.filter fun source => source.1 ∉ underlay)).Meets host
      (holding origin base done) := by
  refine eachDropped_meets underlay
    (fun after => Held origin base after ∧ after.owner.journal = host.owner.journal) ⟨held, rfl⟩ ?_ ?_
  · rintro after ip priority done ⟨held, same⟩ found next
    exact dropSource_holds held found fun final held kept erased =>
      next final ⟨held, kept.trans same⟩ erased
  · rintro after ⟨held, same⟩ only kept
    exact next after held same only kept

/-- The journal grows by the addresses that have no source yet, at most. -/
theorem addSources_holds (known : Ipv4Addr → Bool) (length : Nat) (held : Held origin base host)
    (bounded : host.owner.journal.sources.length ≤ length)
    (room : length + ((underlay.sort (· ≤ ·)).filter fun ip => !known ip).length ≤ 128)
    (only : ∀ ip, (host.owner.sources.get? ip).isSome = true → ip ∈ underlay)
    (old : ∀ ip ∈ underlay, known ip = true → (host.owner.sources.get? ip).isSome = true)
    (next : ∀ after, Held origin base after →
      (∀ ip, (after.owner.sources.get? ip).isSome = true → ip ∈ underlay) → done after) :
    (each addSource (underlay.sort (· ≤ ·))).Meets host (holding origin base done) := by
  refine .each (fun before after => Held origin base after ∧
      after.owner.journal.sources.length ≤ length + (before.filter fun ip => !known ip).length ∧
      (∀ ip, (after.owner.sources.get? ip).isSome = true → ip ∈ underlay) ∧
      ∀ ip ∈ underlay, known ip = true → (after.owner.sources.get? ip).isSome = true)
    ⟨held, bounded, only, old⟩ ?_ fun after added => next after added.1 added.2.2.1
  rintro before ip later after whole ⟨held, bounded, only, old⟩
  have inside : ip ∈ underlay := by
    rw [← Finset.mem_sort (· ≤ ·), whole]
    exact List.mem_append_right _ (.head _)
  have new (missing : after.owner.sources.get? ip = none) : known ip = false := by
    cases was : known ip with
    | false => rfl
    | true =>
        have found := old ip inside was
        rw [missing] at found
        cases found
  have longer : ((before ++ [ip]).filter fun ip => !known ip).length ≤
      ((underlay.sort (· ≤ ·)).filter fun ip => !known ip).length := by
    rw [whole]
    exact ((List.Sublist.append_left (by simp) before).filter _).length_le
  refine addSource_holds held ?_ ?_ ?_
  · intro missing
    rw [List.filter_append, List.length_append] at longer
    simp only [new missing, Bool.not_false, List.filter_cons_of_pos, List.filter_nil,
      List.length_singleton] at longer
    omega
  · intro priority found
    refine ⟨held, bounded.trans ?_, only, old⟩
    rw [List.filter_append, List.length_append]
    omega
  · intro final priority held grown missing inserted
    refine ⟨held, ?_, ?_, ?_⟩
    · rw [List.filter_append, List.length_append]
      simp only [new missing, Bool.not_false, List.filter_cons_of_pos, List.filter_nil,
        List.length_singleton]
      omega
    · intro other found
      rw [inserted] at found
      by_cases here : other = ip
      · exact here ▸ inside
      · rw [Dict.get?_insert_ne _ _ here] at found
        exact only other found
    · intro other member was
      rw [inserted]
      by_cases here : other = ip
      · rw [here, Dict.get?_insert_self]
        rfl
      · rw [Dict.get?_insert_ne _ _ here]
        exact old other member was

/-- The addresses that a refresh may add fit into the journal. -/
abbrev Roomy (host : Host) (underlay : Finset Ipv4Addr) : Prop :=
  host.owner.binds underlay = true →
    host.owner.journal.sources.length + (host.owner.newcomers underlay).length ≤ 128

theorem updateSources_holds (held : Held origin base host) (room : Roomy host underlay)
    (next : ∀ after, Held origin base after → done after) :
    (updateSources underlay).Meets host (holding origin base done) := by
  refine .bind (owner_meets (.bind (.ensure (fun binds => ?_) fun _ => held)))
  have few : underlay.card ≤ 64 := by
    simp only [Bool.and_eq_true, decide_eq_true_eq] at binds
    exact binds.1.1
  refine .bind (dropSources_holds held underlay fun dropped held same only kept => ?_)
  refine .bind (addSources_holds host.owner.sources.contains host.owner.journal.sources.length held
    (by rw [same]) (room binds) only ?_ ?_)
  · intro ip inside was
    rw [kept ip inside]
    exact was
  · intro added held only
    exact recordSources_holds held ((recorded_length_le only).trans (few.trans (by decide))) next

end Sources

/-! ## Operations of a consumer -/

section Operations

variable {origin : World} {base : Journal} {host : Host} {done : Host → Prop}

/-- An operation of the kernel leaves the consumer as it is. -/
abbrev Onward (origin : World) (base : Journal) (host : Host) (done : Host → Prop) : Prop :=
  ∀ world, Held origin base ⟨world, host.owner⟩ → done ⟨world, host.owner⟩

section

variable (held : Held origin base host)

include held

theorem applyClassifier_holds {fault bypass} (next : Onward origin base host done) :
    (applyClassifier fault bypass).Meets host (holding origin base done) :=
  applyClassifier_meets (fun after aside _ _ => next after (held.aside aside))
    (fun _ aside => held.aside aside) fun _ aside => held.aside aside

theorem applyGuard_holds {bypass} (next : Onward origin base host done) :
    (applyGuard bypass).Meets host (holding origin base done) :=
  applyGuard_meets (fun after aside _ _ => next after (held.aside aside)) held held

theorem lock_holds (next : done host) :
    (onWorld lock).Meets host (holding origin base done) :=
  onWorld_meets (lock_meets next held held)

theorem refresh_holds {underlay} (room : Roomy host underlay) :
    (refresh underlay).Meets host (holding origin base (Held origin base)) := by
  refine .bind (lock_holds held (.bind (updateSources_holds held room fun updated held => ?_)))
  refine .bind (owner_meets (.bind (applyClassifier_holds held fun classified held => ?_)))
  exact applyGuard_holds held fun _ held => held

theorem addFixed_holds {rule} (fixed : host.owner.journal.Fixed rule)
    (next : Onward origin base host done) :
    (onWorld (addRule rule)).Meets host (holding origin base done) :=
  onWorld_meets (addRule_meets (fun absent => next _ (held.addFixed fixed absent)) held held)

theorem setBypass_holds (bypass : Bool) :
    (setBypass bypass).Meets host (holding origin base (Held origin base)) := by
  have last : host.owner.journal.Fixed (catchAll host.owner.table) := by
    rw [held.table]
    exact .inr (.inr (.inl rfl))
  refine .bind (owner_meets (.onlyIf (fun _ => ?_) fun _ => held))
  refine .bind (lock_holds held ?_)
  have finish (world : World) (held : Held origin base ⟨world, host.owner⟩) :
      ((applyClassifier .switched bypass : Owned Unit) >>= fun _ =>
        change fun consumer => { consumer with bypass }).Meets ⟨world, host.owner⟩
        (holding origin base (Held origin base)) :=
    .bind (applyClassifier_holds held fun _ held =>
      change_meets (held.congr rfl rfl rfl rfl rfl rfl rfl rfl rfl))
  cases bypass with
  | true =>
      refine .bind (.bind (applyGuard_holds held fun guarded held => ?_))
      exact onWorld_meets (delRule_meets (finish _ (held.erase (catchAll_inRange _))) held held)
  | false =>
      refine .bind (.bind (applyGuard_holds held fun guarded held => ?_))
      exact addFixed_holds held last finish

/-- A consumer that is cleared leaves nothing, and else all is still named. -/
theorem clearInner_holds : clearInner.Meets host ⟨fun _ after =>
        Restored origin host.owner.journal.name host.world after.world ∧ after.owner.claimed = false,
      fun _ => Held origin base, Held origin base⟩ := by
  refine .bind (owner_meets (.onlyIf (fun _ => ?_) fun off => ?_))
  · refine .bind (onWorld_meets (held.leased.clear_meets.mono ?_ ?_ ?_))
    · intro _ after restored
      exact change_meets ⟨restored, rfl⟩
    · exact fun _ after shrinks => held.shrinks shrinks
    · exact fun after shrinks => held.shrinks shrinks
  · cases held.claimed.symm.trans off

theorem clear_holds : clear.Meets host ⟨fun _ after =>
        Restored origin host.owner.journal.name host.world after.world ∧ after.owner.claimed = false,
      fun _ => Held origin base, Held origin base⟩ :=
  .bind (onWorld_meets (lock_meets (clearInner_holds held) held held))

/-- A consumer takes everything back when nothing fails. -/
theorem clear_completes : clear.Completes host fun _ after =>
      Restored origin host.owner.journal.name host.world after.world := by
  obtain ⟨disk, found, same, leased⟩ := held.saved
  have ends : host.owner.journal.clear.Completes host.world fun _ _ => True := by
    refine clear_ends held.leased.whole fun current other => ?_
    obtain rfl := Option.mem_unique found other
    exact ⟨Journal.accepted_iff.mpr leased.whole.fits, same⟩
  have done : clear.Completes host fun _ _ => True := by
    refine .bind (.zoom (.op rfl ?_))
    refine .bind (.bind (.get (.pure ?_)))
    refine .onlyIf (fun _ => .bind (.zoom ?_)) fun _ => trivial
    obtain ⟨value, after, outcome, _⟩ := ends
    exact ⟨value, after, outcome, .modify trivial⟩
  obtain ⟨value, after, outcome, restored, _⟩ := done.and_meets (clear_holds held)
  exact ⟨value, after, outcome, restored⟩

/-- The rules of networks that are not wanted are gone before the journal forgets
    them, and those of new networks are named before they come. -/
theorem replaceNetworks_holds {wanted}
    (room : (host.owner.journal.lanNetworks.toFinset ∪ wanted).card ≤ 512) :
    (replaceNetworks host.owner host.owner.journal.lanNetworks.toFinset wanted).Meets host
      (holding origin base (Held origin base)) := by
  have table := held.table
  have opened : Held origin base { host with owner := { host.owner with lanApplied := false } } :=
    held.congr rfl rfl rfl rfl rfl rfl rfl rfl rfl
  refine .bind (change_meets (.bind (onWorld_meets (getRulesV4_meets ?_ opened opened))))
  let union := (host.owner.journal.lanNetworks.toFinset ∪ wanted).sort (· ≤ ·)
  let owner := { host.owner with lanApplied := false }.setLan union
  have recorded : Held origin base { host with owner } := by
    refine opened.setLan ?_ ?_
    · rw [Finset.length_sort]
      exact room
    · intro rule member lan
      obtain ⟨network, listed, same⟩ := held.listed_lan member lan
      refine ⟨network, (Finset.mem_sort (· ≤ ·)).mpr (Finset.mem_union_left _ ?_), same⟩
      exact List.mem_toFinset.mpr listed
  refine .bind (change_meets (.bind (saveJournal_meets ?_ recorded recorded)))
  refine .bind (.each (fun before after => Held origin base after ∧ after.owner = owner ∧
      after.world.journal = some owner.journal ∧
      ∀ network ∈ before, lanRule host.owner.table network ∉ after.world.rules)
    ⟨recorded.save, rfl, rfl, by simp⟩ ?_ ?_)
  · rintro before network later after whole ⟨held, same, synced, gone⟩
    have ranged := lanRule_inRange host.owner.table network
    refine onWorld_meets (delRule_meets ⟨held.erase ranged, same, synced, ?_⟩ held held)
    intro other member
    rcases mem_snoc.mp member with earlier | rfl
    · exact fun found => gone other earlier (List.mem_of_mem_erase found)
    · exact not_mem_erase (held.leased.once _ ranged)
  · rintro dropped ⟨held, same, synced, gone⟩
    have covers : ∀ rule ∈ dropped.world.rules, rule.priority = lanPriority →
        ∃ network ∈ wanted, rule = lanRule host.owner.table network := by
      intro rule member lan
      obtain ⟨network, listed, rfl⟩ := held.listed_lan member lan
      rw [same] at listed member ⊢
      rw [table]
      refine ⟨network, ?_, rfl⟩
      have either := Finset.mem_union.mp ((Finset.mem_sort (· ≤ ·)).mp listed)
      by_contra unwanted
      refine gone network ((Finset.mem_sort (· ≤ ·)).mpr (Finset.mem_sdiff.mpr ⟨?_, unwanted⟩)) ?_
      · exact either.resolve_right unwanted
      · rw [table]
        exact member
    refine .bind (.each (fun _ after => Held origin base after ∧ after.owner = owner ∧
        after.world.journal = some owner.journal ∧
        ∀ rule ∈ after.world.rules, rule.priority = lanPriority →
          ∃ network ∈ wanted, rule = lanRule host.owner.table network)
      ⟨held, same, synced, covers⟩ ?_ ?_)
    · rintro before network later after whole ⟨held, same, synced, covers⟩
      have member : network ∈ wanted := by
        have listed : network ∈ (wanted \ actualNetworks host.owner.table host.world.rules).sort (· ≤ ·) := by
          rw [whole]
          exact List.mem_append_right _ (.head _)
        exact (Finset.mem_sdiff.mp ((Finset.mem_sort (· ≤ ·)).mp listed)).1
      have named : lanRule host.owner.table network ∈ owner.journal.owned := by
        refine Journal.mem_owned.mpr (.inr (.inl ⟨network, ?_, ?_⟩))
        · exact (Finset.mem_sort (· ≤ ·)).mpr (Finset.mem_union_right _ member)
        · rw [table]
          rfl
      refine onWorld_meets (addRule_meets (fun absent => ⟨?_, same, synced, ?_⟩) held held)
      · refine held.add (same ▸ named) (fun disk found _ => ?_) lan_not_source absent
        obtain rfl := Option.mem_unique synced found
        exact named
      · intro rule found lan
        rcases mem_snoc.mp found with earlier | here
        · exact covers rule earlier lan
        · exact ⟨network, member, here⟩
    · rintro added ⟨held, same, synced, covers⟩
      have few : wanted.card ≤ 512 := (Finset.card_le_card Finset.subset_union_right).trans room
      have trimmed : Held origin base { added with owner := added.owner.setLan (wanted.sort (· ≤ ·)) } := by
        refine held.setLan ?_ ?_
        · rw [Finset.length_sort]
          exact few
        · intro rule member lan
          obtain ⟨network, listed, rfl⟩ := covers rule member lan
          refine ⟨network, (Finset.mem_sort (· ≤ ·)).mpr listed, ?_⟩
          rw [same, table]
          rfl
      refine .bind (change_meets (.bind (saveJournal_meets ?_ trimmed trimmed)))
      refine .bind (applyClassifier_holds trimmed.save fun classified held => ?_)
      exact change_meets (held.congr rfl rfl rfl rfl rfl rfl rfl rfl rfl)

theorem setLanNetworks_holds {networks : List Network}
    (room : networks.length ≤ 256 →
      (host.owner.journal.lanNetworks.toFinset ∪ networks.toFinset).card ≤ 512) :
    (setLanNetworks networks).Meets host (holding origin base (Held origin base)) := by
  refine .bind (.ensure (fun few => ?_) fun _ => held)
  refine .bind (lock_holds held (.bind (owner_meets ?_)))
  exact .onlyIf (fun _ => replaceNetworks_holds held (room (of_decide_eq_true few))) fun _ => held

end

end Operations

/-! ## Activation -/

section Activation

variable {origin world : World} {base : Journal} {host : Host} {done : Host → Prop}
  {underlay : Finset Ipv4Addr}

theorem addFixedEach_holds {rules} (held : Held origin base host)
    (fixed : ∀ rule ∈ rules, host.owner.journal.Fixed rule)
    (next : Onward origin base host done) :
    (each (fun rule => onWorld (addRule rule)) rules).Meets host (holding origin base done) := by
  refine .each (fun _ after => Held origin base after ∧ after.owner = host.owner) ⟨held, rfl⟩ ?_ ?_
  · rintro before rule later after rfl ⟨held, same⟩
    refine addFixed_holds held ?_ fun world held => ⟨held, same⟩
    rw [same]
    exact fixed rule (by simp)
  · rintro ⟨world, owner⟩ ⟨held, rfl⟩
    exact next world held

theorem Leased.addRoute {journal} (leased : Leased origin journal world)
    (absent : journal.route ∉ world.routes) :
    Leased origin journal { world with routes := world.routes ++ [journal.route] } := by
  refine { leased with routed := ?_, single := ?_, elsewhere := ?_ }
  · intro route member same
    rcases mem_snoc.mp member with before | here
    · exact leased.routed route before same
    · exact here
  · rw [List.count_append, List.count_eq_zero.mpr absent, List.count_singleton_self]
  · rw [List.filter_append, leased.elsewhere]
    simp [Journal.route]

theorem addRoute_holds (held : Held origin base host) (next : Onward origin base host done) :
    (onWorld (addRoute host.owner.route)).Meets host (holding origin base done) := by
  have route : host.owner.route = host.owner.journal.route := by
    rw [Consumer.route, Journal.route, held.table, held.index, held.own]
  refine onWorld_meets (.op (fun value after taken => ?_) held held)
  split at taken
  · cases taken
  · rename_i absent
    cases taken
    refine next _ { held with leased := ?_, saved := ?_ }
    · rw [route] at absent ⊢
      exact held.leased.addRoute absent
    · obtain ⟨disk, found, same, leased⟩ := held.saved
      refine ⟨disk, found, same, ?_⟩
      have other : host.owner.route = disk.route := route.trans same.symm.route
      rw [other] at absent ⊢
      exact leased.addRoute absent

theorem install_holds (held : Held origin base host) (room : Roomy host underlay) :
    (install underlay).Meets host (holding origin base (Held origin base)) := by
  have identified := held.identified
  have index := held.index
  have table := held.table
  have fixed {after : Host} (held : Held origin base after) {rule : Rule}
      (fixed : host.owner.journal.Fixed rule) : after.owner.journal.Fixed rule :=
    held.identified.symm.fixed (identified.fixed fixed)
  refine .bind (owner_meets (.bind (addRoute_holds held fun routed held => ?_)))
  refine .bind (addFixed_holds held (.inr (.inr (.inr (.inr rfl)))) fun first held => ?_)
  have own : host.owner.journal.Fixed (ownRule host.owner.own host.owner.table) := by
    rw [held.own, held.table]
    exact .inr (.inr (.inr (.inl rfl)))
  refine .bind (addFixed_holds held own fun own held => ?_)
  refine .bind (updateSources_holds held room fun updated held => ?_)
  refine .bind (.each (fun _ after => Held origin base after) held ?_ fun near held => ?_)
  · rintro before network later after whole held
    refine addFixed_holds held (.inr (.inl (List.mem_map_of_mem ?_))) fun _ held => held
    rw [whole]
    exact List.mem_append_right _ (.head _)
  have marks : ∀ rules, containerRoutes host.owner.index host.owner.table = some rules →
      ∀ rule ∈ rules, host.owner.journal.Fixed rule := by
    intro rules made rule member
    rw [index, table, containerRoutes] at made
    split at made
    · cases made
      exact .inl member
    · cases made
  have contained : (addContainerRoutes host.owner.index host.owner.table).Meets near
      (holding origin base (Held origin base)) := by
    unfold addContainerRoutes
    cases made : containerRoutes host.owner.index host.owner.table with
    | none => exact .throw held
    | some rules =>
        exact addFixedEach_holds held (fun rule member => fixed held (marks rules made rule member))
          fun _ held => held
  refine .bind (contained.mono ?_ (fun _ _ held => held) fun _ held => held)
  intro _ forwarded held
  refine .bind (applyClassifier_holds held fun classified held => ?_)
  refine .bind (applyGuard_holds held fun guarded held => ?_)
  refine .onlyIf (fun _ => ?_) fun _ => held
  refine addFixed_holds held (fixed held ?_) fun _ held => held
  rw [table]
  exact .inr (.inr (.inl rfl))

/-- A journal whose interface is gone is taken back. -/
theorem recover_meets (recoverable : Recoverable origin world) :
    Journal.recover.Meets world ⟨fun _ after => after.journal = none ∧ after.rules = origin.rules ∧
        after.routes = origin.routes, fun _ => Recoverable origin, Recoverable origin⟩ := by
  refine .bind (.op (fun found loaded taken => ?_) recoverable recoverable)
  have same : found = world.journal ∧ loaded = world := by
    split at taken
    · cases taken
      exact ⟨rfl, rfl⟩
    · cases taken
  obtain ⟨rfl, rfl⟩ := same
  cases found : loaded.journal with
  | none => exact .pure ⟨found, recoverable.bare found⟩
  | some old =>
      have leased := recoverable.leased old found
      refine .bind (.op (fun link linked taken => ?_) recoverable recoverable)
      cases taken
      refine .bind (.ensure (fun _ => ?_) fun _ => recoverable)
      have still (after : World) (shrinks : Shrinks old loaded after) : Recoverable origin after := by
        have kept := leased.shrinks ⟨rfl, rfl, rfl⟩ shrinks
        have there : after.journal = some old := shrinks.journal.trans found
        constructor
        · intro journal other
          obtain rfl := Option.mem_unique there other
          exact kept
        · intro none
          cases there.symm.trans none
      refine leased.clear_meets.mono ?_ (fun _ => still) still
      intro _ after restored
      exact ⟨restored.journal, restored.rules, restored.routes⟩

/-- A host without rules or routes of PortHub, for which a journal is written. -/
theorem Leased.initial {journal : Journal} (whole : journal.Whole) (rules : world.rules = origin.rules)
    (routes : world.routes = origin.routes) (clean : world.rules.any Rule.inRange = false)
    (unused : world.routes.any (·.table == journal.table) = false) : Leased origin journal world := by
  have outside : ∀ rule ∈ world.rules, rule.inRange = false := by
    intro rule member
    rw [← Bool.not_eq_true]
    exact List.any_eq_false.mp clean rule member
  have elsewhere : ∀ route ∈ world.routes, route.table ≠ journal.table := by
    intro route member same
    refine List.any_eq_false.mp unused route member ?_
    rw [beq_iff_eq]
    exact same
  refine ⟨whole, ?_, ?_, ?_, ?_, ?_, ?_⟩
  · intro rule member ranged
    rw [outside rule member] at ranged
    cases ranged
  · intro rule ranged
    rw [List.count_eq_zero.mpr fun member => by rw [outside rule member] at ranged; cases ranged]
    exact Nat.zero_le _
  · rw [List.filter_eq_self.mpr fun rule member => by rw [outside rule member]; rfl]
    exact rules
  · intro route member same
    exact absurd same (elsewhere route member)
  · rw [List.count_eq_zero.mpr fun member => elsewhere _ member rfl]
    exact Nat.zero_le _
  · rw [List.filter_eq_self.mpr fun route member => bne_iff_ne.mpr (elsewhere route member)]
    exact routes

/-- A consumer that cannot be installed leaves what can be taken back. -/
theorem installOrClear_holds (held : Held origin base host) (room : Roomy host underlay) :
    (installOrClear underlay).Meets host
      ⟨fun consumer after => Held origin consumer.journal ⟨after.world, consumer⟩,
        fun _ after => Recoverable origin after.world, fun after => Recoverable origin after.world⟩ := by
  refine .bind (.caught ((install_holds held room).mono ?_ ?_ fun _ held => held.recoverable))
  · intro _ after held
    exact owner_meets { held with identified := ⟨rfl, rfl, rfl⟩ }
  · intro fault after held
    refine .bind (.caught ((clearInner_holds held).mono ?_ ?_ fun _ held => held.recoverable))
    · rintro _ cleared ⟨restored, _⟩
      refine .throw ⟨?_, fun _ => ⟨restored.rules, restored.routes⟩⟩
      intro journal found
      cases restored.journal.symm.trans found
    · intro _ left held
      exact .throw held.recoverable

theorem newcomers_length_le (consumer : Consumer) (underlay : Finset Ipv4Addr) :
    (consumer.newcomers underlay).length ≤ underlay.card := by
  rw [← Finset.length_sort (· ≤ ·)]
  exact List.length_filter_le _ _

theorem activate_holds (recoverable : Recoverable origin world) {index own bypass}
    (marked : validMark index = true) :
    (activateWithBypass index own underlay bypass).Meets world
      ⟨fun consumer after => Held origin consumer.journal ⟨after, consumer⟩,
        fun _ => Recoverable origin, Recoverable origin⟩ := by
  refine .bind (.ensure (fun bound => ?_) fun _ => recoverable)
  refine .bind (.ensure (fun _ => ?_) fun _ => recoverable)
  refine .bind (lock_meets ?_ recoverable recoverable)
  refine .bind (.op (fun name linked taken => ?_) recoverable recoverable)
  obtain ⟨link, _, pair⟩ := Option.map_eq_some_iff.mp taken
  obtain ⟨rfl, rfl⟩ := Prod.mk.inj pair
  refine .bind (.ensure (fun named => ?_) fun _ => recoverable)
  refine .bind ((recover_meets recoverable).mono ?_ (fun _ _ left => left) fun _ left => left)
  rintro _ clean ⟨bare, rules, routes⟩
  have fresh : Recoverable origin clean := by
    refine ⟨fun journal found => ?_, fun _ => ⟨rules, routes⟩⟩
    rw [bare] at found
    cases found
  refine .bind (getRulesV4_meets ?_ fresh fresh)
  refine .bind (.ensure (fun free => ?_) fun _ => fresh)
  refine .bind (.ensure (fun tabled => ?_) fun _ => fresh)
  refine .bind (.op (fun read listed taken => ?_) fresh fresh)
  obtain ⟨rfl, rfl⟩ := Prod.mk.inj (Option.some.inj taken)
  refine .bind (.ensure (fun unused => ?_) fun _ => fresh)
  simp only [Bool.and_eq_true, decide_eq_true_eq, Bool.not_eq_true'] at bound free tabled unused
  let journal : Journal := ⟨index, link, own, [], [], true, true, true, true⟩
  have whole : journal.Whole := by
    have positive : 0 < index := by
      simp only [validMark, Bool.and_eq_true, decide_eq_true_eq] at marked
      exact marked.1
    refine ⟨⟨⟨positive, ?_⟩, bound.1.1.1, named, by simp [journal], by simp [journal], by simp [journal]⟩,
      marked, rfl, rfl, rfl, rfl⟩
    unfold exitTable at tabled
    change index ≤ 2 ^ 32 - 1 - 100000
    omega
  have leased : Leased origin journal clean := .initial whole rules routes free unused
  refine .bind (.op (fun value saved taken => ?_) fresh fresh)
  cases taken
  have held : Held origin journal ⟨{ clean with journal := some journal },
      ⟨index, own, exitTable index, .empty, true, bypass, false, journal⟩⟩ := by
    refine ⟨rfl, ⟨rfl, rfl, rfl⟩, rfl, rfl, rfl, leased.congr rfl rfl,
      ⟨journal, rfl, ⟨rfl, rfl, rfl⟩, leased.congr rfl rfl⟩, ?_, ?_⟩
    · intro rule member sourced
      have small : firstPriority + 65 ≤ lastPriority := by decide
      have ranged := inRange_of_le sourced.1.le (sourced.2.le.trans small)
      exact absurd ranged (List.any_eq_false.mp free rule member)
    · nofun
  refine .zoom (installOrClear_holds held fun _ => ?_)
  have few := newcomers_length_le ⟨index, own, exitTable index, .empty, true, bypass, false, journal⟩ underlay
  rw [show journal.sources.length = 0 from rfl, Nat.zero_add]
  exact few.trans (bound.1.2.trans (by decide))

end Activation

/-! ## Runs -/

/-- The calls of a process, its end, and a change of the interfaces of the host. -/
inductive Call where
  | activate (index : Nat) (own : Ipv4Addr) (underlay : Finset Ipv4Addr) (bypass : Bool)
  | refresh (underlay : Finset Ipv4Addr)
  | setLanNetworks (networks : List Network)
  | setBypass (bypass : Bool)
  | clear
  | exit
  | links (present : Dict Nat String)

/-- A process has one consumer at a time, and drops it once it is cleared, as
    `watch_configuration` does. -/
def Call.program : Call → Watching Unit
  | .activate index own underlay bypass => do
      let watch ← Prog.get
      .onlyIf watch.active.isNone do
        let consumer ← (activateWithBypass index own underlay bypass).zoom
          Watch.world fun world watch => { watch with world }
        .modify fun watch => { watch with active := some consumer }
  | .refresh underlay => withActive (ExitRoutes.refresh underlay)
  | .setLanNetworks networks => withActive (ExitRoutes.setLanNetworks networks)
  | .setBypass bypass => withActive (ExitRoutes.setBypass bypass)
  | .clear => do
      withActive ExitRoutes.clear
      .modify fun watch => { watch with active := none }
  | .exit => .modify fun watch => { watch with active := none }
  | .links present => .modify fun watch => { watch with world := { watch.world with links := present } }

/-- A call with what happens to its operations. A process that dies has no consumer. -/
def Watch.call (watch : Watch) (input : Call × List Verdict) : Watch × Faults.Result Fault Unit :=
  match input.1.program watch input.2 with
  | (.died, after, _) => (⟨after.world, none⟩, .died)
  | (.failed fault, after, _) => (after, .failed fault)
  | (.done value, after, _) => (after, .done value)

/-- The journal stays within the limits of `load`: the interface has a mark, and the
    sources and networks that the call records in addition fit. -/
def Call.fits (watch : Watch) : Call → Bool
  | .activate index _ _ _ => validMark index
  | .refresh underlay => watch.active.all fun consumer => !consumer.binds underlay ||
      decide (consumer.journal.sources.length + (consumer.newcomers underlay).length ≤ 128)
  | .setLanNetworks networks => watch.active.all fun consumer => !decide (networks.length ≤ 256) ||
      decide ((consumer.journal.lanNetworks.toFinset ∪ networks.toFinset).card ≤ 512)
  | .setBypass _ | .clear | .exit | .links _ => true

/-- Everything that was added is named, on disk and by the consumer. -/
structure Secured (origin : World) (watch : Watch) : Prop where
  recoverable : Recoverable origin watch.world
  held : ∀ consumer, watch.active = some consumer → Held origin consumer.journal ⟨watch.world, consumer⟩

section Runs

variable {origin world : World} {watch : Watch} {underlay : Finset Ipv4Addr}

theorem Secured.of_recoverable (recoverable : Recoverable origin world) : Secured origin ⟨world, none⟩ := by
  refine ⟨recoverable, fun consumer active => ?_⟩
  cases active

theorem Held.secured {base host} (held : Held origin base host) :
    Secured origin ⟨host.world, some host.owner⟩ := by
  refine ⟨held.recoverable, fun consumer active => ?_⟩
  cases active
  exact { held with identified := ⟨rfl, rfl, rfl⟩ }

/-- How a call may end. -/
abbrev securing (origin : World) : Ends Watch Fault Unit :=
  ⟨fun _ => Secured origin, fun _ => Secured origin, fun after => Recoverable origin after.world⟩

/-- An operation of the consumer, if there is one. -/
theorem withActive_secures (secured : Secured origin watch) {inner : Owned Unit}
    (holds : ∀ consumer, watch.active = some consumer →
      Held origin consumer.journal ⟨watch.world, consumer⟩ →
      inner.Meets ⟨watch.world, consumer⟩
        (holding origin consumer.journal (Held origin consumer.journal))) :
    (withActive inner).Meets watch (securing origin) := by
  obtain ⟨world, active⟩ := watch
  cases active with
  | none => exact withActive_none secured
  | some consumer =>
      refine withActive_meets rfl ((holds consumer rfl (secured.held consumer rfl)).mono ?_ ?_ ?_)
      · exact fun _ _ held => held.secured
      · exact fun _ _ held => held.secured
      · exact fun _ held => held.recoverable

theorem clear_secures (secured : Secured origin watch) :
    (Call.program .clear).Meets watch (securing origin) := by
  obtain ⟨world, active⟩ := watch
  cases active with
  | none => exact .bind (withActive_none (.modify secured))
  | some consumer =>
      have held := secured.held consumer rfl
      refine .bind (withActive_meets rfl ((clear_holds held).mono ?_ ?_ ?_))
      · rintro _ host ⟨restored, _⟩
        refine .modify (.of_recoverable ⟨fun journal found => ?_, fun _ => ⟨restored.rules, restored.routes⟩⟩)
        cases restored.journal.symm.trans found
      · exact fun _ _ held => held.secured
      · exact fun _ held => held.recoverable

theorem activate_secures (secured : Secured origin watch) {index own bypass}
    (marked : validMark index = true) :
    (Call.program (.activate index own underlay bypass)).Meets watch (securing origin) := by
  refine .bind (.get (.onlyIf (fun none => ?_) fun _ => secured))
  obtain ⟨world, active⟩ := watch
  obtain rfl := Option.isNone_iff_eq_none.mp none
  refine .bind (.zoom ((activate_holds secured.recoverable marked).mono ?_ ?_ ?_))
  · exact fun consumer after held => .modify held.secured
  · exact fun _ after left => .of_recoverable left
  · exact fun after left => left

theorem fits_refresh (fits : (Call.refresh underlay).fits watch = true) {consumer}
    (active : watch.active = some consumer) (binds : consumer.binds underlay = true) :
    consumer.journal.sources.length + (consumer.newcomers underlay).length ≤ 128 := by
  simpa [Call.fits, active, binds] using fits

theorem fits_setLanNetworks {networks} (fits : (Call.setLanNetworks networks).fits watch = true)
    {consumer} (active : watch.active = some consumer) (few : networks.length ≤ 256) :
    (consumer.journal.lanNetworks.toFinset ∪ networks.toFinset).card ≤ 512 := by
  rw [Call.fits, active, Option.all_some, decide_eq_true few] at fits
  exact of_decide_eq_true fits

theorem program_secures (secured : Secured origin watch) {call : Call} (fits : call.fits watch = true) :
    call.program.Meets watch (securing origin) := by
  cases call with
  | activate => exact activate_secures secured fits
  | refresh => exact withActive_secures secured fun _ active held =>
      refresh_holds held (fits_refresh fits active)
  | setLanNetworks => exact withActive_secures secured fun _ active held =>
      setLanNetworks_holds held (fits_setLanNetworks fits active)
  | setBypass bypass => exact withActive_secures secured fun _ _ held => setBypass_holds held bypass
  | clear => exact clear_secures secured
  | exit => exact .modify (.of_recoverable secured.recoverable)
  | links present =>
      refine .modify ⟨⟨?_, secured.recoverable.bare⟩, ?_⟩
      · exact fun journal found => (secured.recoverable.leased journal found).congr rfl rfl
      · exact fun consumer active => (secured.held consumer active).congr rfl rfl rfl rfl rfl rfl rfl rfl rfl

theorem Secured.call (secured : Secured origin watch) {input : Call × List Verdict}
    (fits : input.1.fits watch = true) : Secured origin (watch.call input).1 := by
  have met := program_secures secured fits input.2
  unfold Watch.call
  rcases outcome : input.1.program watch input.2 with ⟨result, after, rest⟩
  rw [outcome] at met
  cases result with
  | done value => exact met
  | failed fault => exact met
  | died => exact .of_recoverable met

/-- The calls that keep the journal within its limits. -/
def Frugal (before : Watch) (label : (Call × List Verdict) × Faults.Result Fault Unit)
    (after : Watch) : Prop :=
  answers Watch.call before label after ∧ label.1.1.fits before = true

theorem secured_of_run {history} (fresh : origin.journal = none)
    (run : Run Frugal ⟨origin, none⟩ history watch) :
    Secured origin watch := by
  induction run with
  | start =>
      refine .of_recoverable ⟨fun journal found => ?_, fun _ => ⟨rfl, rfl⟩⟩
      cases fresh.symm.trans found
  | snoc _ taken secured =>
      have next := secured.call taken.2
      rw [taken.1] at next
      exact next

/-- The journal on disk is accepted, and `clear` and `recover` take back exactly what
    was added. -/
structure Clearable (origin : World) (watch : Watch) : Prop where
  accepted : ∀ journal, watch.world.journal = some journal → journal.accepted = true
  cleared : ∀ journal, watch.world.journal = some journal →
    journal.clear.Completes watch.world fun _ => Restored origin journal.name watch.world
  bare : watch.world.journal = none →
    watch.world.rules = origin.rules ∧ watch.world.routes = origin.routes
  released : ∀ consumer, watch.active = some consumer → clear.Completes ⟨watch.world, consumer⟩
    fun _ after => Restored origin consumer.journal.name watch.world after.world
  recovered : ∀ journal, watch.world.journal = some journal →
    watch.world.links.get? journal.index ≠ some journal.name →
    Journal.recover.Completes watch.world fun _ => Restored origin journal.name watch.world

theorem Secured.clearable (secured : Secured origin watch) : Clearable origin watch := by
  have accepted : ∀ journal, watch.world.journal = some journal → journal.accepted = true :=
    fun journal found => Journal.accepted_iff.mpr (secured.recoverable.leased journal found).whole.fits
  have cleared : ∀ journal, watch.world.journal = some journal →
      journal.clear.Completes watch.world fun _ => Restored origin journal.name watch.world := by
    intro journal found
    refine (secured.recoverable.leased journal found).clear_completes fun current other => ?_
    obtain rfl := Option.mem_unique found other
    exact ⟨accepted journal found, ⟨rfl, rfl, rfl⟩⟩
  refine ⟨accepted, cleared, secured.recoverable.bare, ?_, ?_⟩
  · exact fun consumer active => clear_completes (secured.held consumer active)
  · intro journal found gone
    have read : watch.world.journal.all Journal.accepted = true := by
      rw [found]
      exact accepted journal found
    refine .bind (.op (if_pos read) ?_)
    rw [found]
    refine .bind (.op rfl (.bind (.ensure ?_ (cleared journal found))))
    exact bne_iff_ne.mpr gone

end Runs

/-- Whatever fails and wherever the process ends, the rules and routes that a consumer
    has added can be taken back, and nothing else is. -/
theorem exit_rules_are_recoverable {origin : World} (fresh : origin.journal = none)
    {history : List ((Call × List Verdict) × Faults.Result Fault Unit)} {watch : Watch}
    (run : Run Frugal ⟨origin, none⟩ history watch) : Clearable origin watch :=
  (secured_of_run fresh run).clearable

/-- An interface whose consumer is activated, and fails to follow a change of the
    address for a number of times. -/
def retries (count : Nat) : List (Call × List Verdict) :=
  [(.activate 5 ⟨10, 0, 0, 2⟩ {⟨203, 0, 113, 7⟩} false, []),
    (.refresh {⟨198, 51, 100, 9⟩}, [.pass, .pass, .pass, .fail])] ++
  List.replicate count (.refresh {⟨198, 51, 100, 9⟩}, [.pass, .pass, .fail])

/-- The process dies while it clears a consumer whose refresh has failed twice. -/
def interrupted : List (Call × List Verdict) := retries 1 ++ [(.clear, [.pass, .pass, .pass, .die])]

/-- The journal is left, and what it names can be taken back. -/
theorem interrupted_is_recoverable :
    (feed Watch.call ⟨exampleWorld, none⟩ interrupted).2.world.journal.isSome = true ∧
      Clearable exampleWorld (feed Watch.call ⟨exampleWorld, none⟩ interrupted).2 := by
  have run : Run Frugal ⟨exampleWorld, none⟩ (feed Watch.call ⟨exampleWorld, none⟩ interrupted).1
      (feed Watch.call ⟨exampleWorld, none⟩ interrupted).2 :=
    feed_run_of_passes (fun _ _ checked => ⟨rfl, checked⟩)
      (show feedPasses _ (fun watch input => input.1.fits watch) _ _ = true by decide +kernel)
  exact ⟨by decide +kernel, exit_rules_are_recoverable rfl run⟩

/-- After 128 failures to follow the address, `load` does not accept the journal. -/
theorem retries_exceed_journal : ¬ ∀ origin history watch, origin.journal = none →
      Run (answers Watch.call) ⟨origin, none⟩ history watch → Clearable origin watch := by
  intro all
  let watch := (feed Watch.call ⟨exampleWorld, none⟩ (retries 127)).2
  have clearable := all exampleWorld _ watch rfl (feed_run _ _ _)
  have long : watch.world.journal.all (fun journal => decide (journal.sources.length ≤ 128)) = false := by
    decide +kernel
  cases found : watch.world.journal with
  | none =>
      rw [found] at long
      cases long
  | some journal =>
      have fits := Journal.accepted_iff.mp (clearable.accepted journal found)
      rw [found, Option.all_some, decide_eq_true fits.sources] at long
      cases long

end PortHub.Agent.ExitRoutes
