import Mathlib.Algebra.Order.BigOperators.Group.List
import PortHub.Agent.ExitKeeping
import PortHub.Agent.LanRoutes
import PortHub.Lib.Pieces

/-! # What a journal takes back

A journal names every rule and route that its consumer may have added. As long as
that is so, whoever finds the journal can restore the rules and routes that the
host had before: whatever is in the range of PortHub is named, and nothing else is.
-/

namespace PortHub.Agent.ExitRoutes

open Faults
open Faults.Prog

namespace Journal

/-- What `load` checks, but the size of the file. -/
structure Fits (journal : Journal) : Prop where
  index : 0 < journal.index ∧ journal.index ≤ 2 ^ 32 - 1 - 100000
  own : journal.own.isPrivate = true
  name : validName journal.name = true
  sources : journal.sources.length ≤ 128
  lanNetworks : journal.lanNetworks.length ≤ 512
  priorities : ∀ source ∈ journal.sources, sourcePriority source.2

section Size

theorem intercalate_length_le (items : List (List Char)) :
    ([','].intercalate items).length ≤ (items.map fun item => item.length + 1).sum := by
  induction items with
  | nil => simp [List.intercalate]
  | cons first rest ih =>
      cases rest with
      | nil => simp [List.intercalate, List.intersperse]
      | cons second others =>
          rw [Pieces.intercalate_cons_cons, List.length_append, List.length_append,
            List.length_singleton, List.map_cons, List.sum_cons]
          omega

theorem renderList_length_le {items bound} (small : ∀ item ∈ items, item.length < bound) :
    (renderList items).length ≤ items.length * bound + 2 := by
  have inner := intercalate_length_le items
  have total : (items.map fun item => item.length + 1).sum ≤ items.length * bound := by
    have each := List.sum_le_card_nsmul (items.map fun item => item.length + 1) bound fun size member => by
      obtain ⟨item, listed, rfl⟩ := List.mem_map.mp member
      exact small item listed
    simpa using each
  simp only [renderList, List.length_append, List.length_cons, List.length_nil]
  omega

theorem renderText_length (text : List Char) : (renderText text).length = text.length + 2 := by
  simp [renderText]

theorem renderNetwork_length (network : Network) : (renderNetwork network).length < 21 := by
  have address := Network.render_length network.address
  have small : network.length < 10 ^ 2 := network.length_le.trans_lt (by decide)
  have suffix := Decimal.render_length_le (by decide) small
  rw [renderNetwork, renderText_length, List.length_append, List.length_cons]
  omega

theorem renderSource_length {source : Ipv4Addr × Nat} (sourced : sourcePriority source.2) :
    (renderSource source).length < 60 := by
  have address := Network.render_length source.1
  have small : source.2 < 10 ^ 5 := sourced.2.trans (by decide)
  have number := Decimal.render_length_le (by decide) small
  have whole : (renderSource source).length ≤
      [renderText source.1.render, Decimal.render source.2].length * 18 + 2 := by
    refine renderList_length_le fun item member => ?_
    rcases List.mem_pair.mp member with rfl | rfl
    · rw [renderText_length]
      omega
    · omega
  exact whole.trans_lt (show 2 * 18 + 2 < 60 by decide)

theorem renderBool_length (value : Bool) : (renderBool value).length ≤ 5 := by
  cases value <;> decide

theorem validName_length {name} (valid : validName name = true) : name.toList.length = 10 := by
  simp only [validName, Bool.and_eq_true, beq_iff_eq] at valid
  exact valid.1.1

theorem field_length {name : String} {bound} (short : name.toList.length ≤ 20) {value : List Char}
    (small : value.length ≤ bound) :
    (renderText name.toList ++ ':' :: value).length ≤ bound + 23 := by
  rw [List.length_append, renderText_length, List.length_cons]
  omega

/-- The limits on the lists keep the file small. -/
theorem Fits.render_length {journal : Journal} (fits : journal.Fits) : journal.render.length ≤ 65536 := by
  have index := Decimal.render_length_le (by decide)
    (show journal.index < 10 ^ 10 from fits.index.2.trans_lt (by decide))
  have name := validName_length fits.name
  have own := Network.render_length journal.own
  have sources : (renderList (journal.sources.map renderSource)).length ≤ 128 * 60 + 2 := by
    refine (@renderList_length_le _ 60 ?_).trans ?_
    · intro item member
      obtain ⟨source, listed, rfl⟩ := List.mem_map.mp member
      exact renderSource_length (fits.priorities source listed)
    · have few := fits.sources
      rw [List.length_map]
      omega
  have networks : (renderList (journal.lanNetworks.map renderNetwork)).length ≤ 512 * 21 + 2 := by
    refine (@renderList_length_le _ 21 ?_).trans ?_
    · intro item member
      obtain ⟨network, _, rfl⟩ := List.mem_map.mp member
      exact renderNetwork_length network
    · have few := fits.lanNetworks
      rw [List.length_map]
      omega
  have short : ∀ name ∈ ["index", "name", "own", "sources", "lan_networks", "private_bypass",
      "ipv6_guard", "own_source_rule", "container_forwarding"], name.toList.length ≤ 20 := by
    decide
  have a := field_length (short "index" (by simp)) index
  have b := field_length (short "name" (by simp)) ((renderText_length journal.name.toList).le)
  have c := field_length (short "own" (by simp)) ((renderText_length journal.own.render).le)
  have d := field_length (short "sources" (by simp)) sources
  have e := field_length (short "lan_networks" (by simp)) networks
  have f := field_length (short "private_bypass" (by simp)) (renderBool_length journal.privateBypass)
  have g := field_length (short "ipv6_guard" (by simp)) (renderBool_length journal.ipv6Guard)
  have h := field_length (short "own_source_rule" (by simp)) (renderBool_length journal.ownSourceRule)
  have i := field_length (short "container_forwarding" (by simp))
    (renderBool_length journal.containerForwarding)
  have whole := intercalate_length_le
    [renderText "index".toList ++ ':' :: Decimal.render journal.index,
      renderText "name".toList ++ ':' :: renderText journal.name.toList,
      renderText "own".toList ++ ':' :: renderText journal.own.render,
      renderText "sources".toList ++ ':' :: renderList (journal.sources.map renderSource),
      renderText "lan_networks".toList ++ ':' :: renderList (journal.lanNetworks.map renderNetwork),
      renderText "private_bypass".toList ++ ':' :: renderBool journal.privateBypass,
      renderText "ipv6_guard".toList ++ ':' :: renderBool journal.ipv6Guard,
      renderText "own_source_rule".toList ++ ':' :: renderBool journal.ownSourceRule,
      renderText "container_forwarding".toList ++ ':' :: renderBool journal.containerForwarding]
  simp only [List.map_cons, List.map_nil, List.sum_cons, List.sum_nil] at whole
  unfold render
  dsimp only
  rw [List.length_append, List.length_cons, List.length_singleton]
  omega

end Size

variable {journal first second : Journal} {rule : Rule}

/-- `load` accepts what fits. -/
theorem accepted_iff : journal.accepted = true ↔ journal.Fits := by
  constructor
  · intro passes
    simp only [accepted, Bool.and_eq_true, decide_eq_true_eq, List.all_eq_true] at passes
    obtain ⟨⟨⟨⟨⟨⟨⟨_, positive⟩, bounded⟩, own⟩, name⟩, sources⟩, networks⟩, priorities⟩ := passes
    exact ⟨⟨positive, bounded⟩, own, name, sources, networks, priorities⟩
  · intro fits
    simp only [accepted, Bool.and_eq_true, decide_eq_true_eq, List.all_eq_true]
    exact ⟨⟨⟨⟨⟨⟨⟨fits.render_length, fits.index.1⟩, fits.index.2⟩, fits.own⟩, fits.name⟩,
      fits.sources⟩, fits.lanNetworks⟩, fits.priorities⟩

/-- A journal as `activate` writes it, with all its parts. -/
structure Whole (journal : Journal) : Prop where
  fits : journal.Fits
  marked : validMark journal.index = true
  privateBypass : journal.privateBypass = true
  ipv6Guard : journal.ipv6Guard = true
  ownSourceRule : journal.ownSourceRule = true
  containerForwarding : journal.containerForwarding = true

/-- Two journals of one consumer. -/
structure Same (first second : Journal) : Prop where
  index : first.index = second.index
  name : first.name = second.name
  own : first.own = second.own

def marks (journal : Journal) : List Rule :=
  [{ Rule.new (firstPriority + 66) journal.table with mark := some (exitMark journal.index) },
    { Rule.new (firstPriority + 67) mainTable with mark := some (directMark journal.index) }]

/-- The rules that `clear` deletes, in its order. -/
def owned (journal : Journal) : List Rule :=
  journal.marks ++ privateNetworks.map privateRule ++ journal.lanNetworks.map (lanRule journal.table)
    ++ [catchAll journal.table] ++ [ownRule journal.own journal.table]
    ++ journal.sources.map (fun source => sourceRule source.1 source.2) ++ [firstRule]

/-- The rules that every journal of the consumer names. -/
def Fixed (journal : Journal) (rule : Rule) : Prop :=
  rule ∈ journal.marks ∨ rule ∈ privateNetworks.map privateRule ∨ rule = catchAll journal.table ∨
    rule = ownRule journal.own journal.table ∨ rule = firstRule

theorem mem_owned : rule ∈ journal.owned ↔ journal.Fixed rule ∨
      (∃ network ∈ journal.lanNetworks, rule = lanRule journal.table network) ∨
      ∃ source ∈ journal.sources, rule = sourceRule source.1 source.2 := by
  simp only [owned, Fixed, List.mem_append, List.mem_map, List.mem_singleton]
  constructor
  · rintro ((((((mark | near) | lan) | last) | own) | source) | first)
    · exact .inl (.inl mark)
    · exact .inl (.inr (.inl near))
    · obtain ⟨network, listed, rfl⟩ := lan
      exact .inr (.inl ⟨network, listed, rfl⟩)
    · exact .inl (.inr (.inr (.inl last)))
    · exact .inl (.inr (.inr (.inr (.inl own))))
    · obtain ⟨source, listed, rfl⟩ := source
      exact .inr (.inr ⟨source, listed, rfl⟩)
    · exact .inl (.inr (.inr (.inr (.inr first))))
  · rintro ((mark | near | last | own | first) | ⟨network, listed, rfl⟩ | ⟨source, listed, rfl⟩)
    · exact .inl (.inl (.inl (.inl (.inl (.inl mark)))))
    · exact .inl (.inl (.inl (.inl (.inl (.inr near)))))
    · exact .inl (.inl (.inl (.inr last)))
    · exact .inl (.inl (.inr own))
    · exact .inr first
    · exact .inl (.inl (.inl (.inl (.inr ⟨network, listed, rfl⟩))))
    · exact .inl (.inr ⟨source, listed, rfl⟩)

/-- The fixed rules have priorities of their own. -/
theorem Fixed.priority {journal : Journal} {rule} (fixed : journal.Fixed rule) :
    rule.inRange = true ∧ ¬ sourcePriority rule.priority ∧ rule.priority ≠ lanPriority := by
  rcases fixed with mark | near | rfl | rfl | rfl
  · rcases List.mem_pair.mp mark with rfl | rfl
    · exact (by decide : (firstPriority ≤ firstPriority + 66 && firstPriority + 66 ≤ lastPriority) = true ∧
        ¬ sourcePriority (firstPriority + 66) ∧ firstPriority + 66 ≠ lanPriority)
    · exact (by decide : (firstPriority ≤ firstPriority + 67 && firstPriority + 67 ≤ lastPriority) = true ∧
        ¬ sourcePriority (firstPriority + 67) ∧ firstPriority + 67 ≠ lanPriority)
  · obtain ⟨network, _, rfl⟩ := List.mem_map.mp near
    exact (by decide : (firstPriority ≤ privateBypassPriority && privateBypassPriority ≤ lastPriority) = true ∧
      ¬ sourcePriority privateBypassPriority ∧ privateBypassPriority ≠ lanPriority)
  · exact ⟨catchAll_inRange _, last_not_source, last_ne_lan⟩
  · exact (by decide : (firstPriority ≤ firstPriority + 65 && firstPriority + 65 ≤ lastPriority) = true ∧
      ¬ sourcePriority (firstPriority + 65) ∧ firstPriority + 65 ≠ lanPriority)
  · decide

/-- Every rule that a journal names is in the range of PortHub. -/
theorem Fits.owned_inRange (fits : journal.Fits) (member : rule ∈ journal.owned) :
    rule.inRange = true := by
  rcases mem_owned.mp member with fixed | ⟨network, _, rfl⟩ | ⟨source, listed, rfl⟩
  · exact fixed.priority.1
  · exact lanRule_inRange _ _
  · exact sourceRule_inRange (fits.priorities source listed)

theorem Same.symm (same : first.Same second) : second.Same first :=
  ⟨same.index.symm, same.name.symm, same.own.symm⟩

theorem Same.table (same : first.Same second) : first.table = second.table :=
  congrArg exitTable same.index

theorem Same.route (same : first.Same second) : first.route = second.route := by
  rw [Journal.route, Journal.route, same.table, same.index, same.own]

theorem Same.fixed (same : first.Same second) (fixed : first.Fixed rule) : second.Fixed rule := by
  unfold Fixed marks at fixed ⊢
  rw [same.table, same.index, same.own] at fixed
  exact fixed

end Journal

/-! ## Leases -/

section Lists

variable {α : Type} [DecidableEq α]

theorem filter_erase_of_not {p : α → Bool} {list : List α} {item} (fails : p item = false) :
    (list.erase item).filter p = list.filter p := by
  rw [← List.erase_filter]
  refine List.erase_of_not_mem fun member => ?_
  rw [(List.mem_filter.mp member).2] at fails
  cases fails

theorem filter_diff_of_not {p : α → Bool} {list : List α} {erased}
    (fails : ∀ item ∈ erased, p item = false) :
    (list.diff erased).filter p = list.filter p := by
  induction erased generalizing list with
  | nil => rfl
  | cons first rest ih =>
      rw [List.diff_cons, ih fun item member => fails item (List.mem_cons_of_mem first member),
        filter_erase_of_not (fails first List.mem_cons_self)]

end Lists

/-- The journal names what is in the kernel beyond the rules and routes that the host
    had before. -/
structure Leased (origin : World) (journal : Journal) (world : World) : Prop where
  whole : journal.Whole
  named : ∀ rule ∈ world.rules, rule.inRange = true → rule ∈ journal.owned
  once : ∀ rule, rule.inRange = true → world.rules.count rule ≤ 1
  others : world.rules.filter (fun rule => !rule.inRange) = origin.rules
  routed : ∀ route ∈ world.routes, route.table = journal.table → route = journal.route
  single : world.routes.count journal.route ≤ 1
  elsewhere : world.routes.filter (fun route => route.table != journal.table) = origin.routes

/-- Some rules in the range of PortHub are gone, and maybe the route. -/
structure Shrinks (journal : Journal) (before after : World) : Prop where
  rules : ∃ erased : List Rule, (∀ rule ∈ erased, rule.inRange = true) ∧
    after.rules = before.rules.diff erased
  routes : after.routes = before.routes ∨ after.routes = before.routes.erase journal.route
  journal : after.journal = before.journal

namespace Leased

variable {origin world after : World} {journal other : Journal}

section

variable (leased : Leased origin journal world)

include leased

/-- What depends on the rules and routes only. -/
theorem congr (rules : after.rules = world.rules)
    (routes : after.routes = world.routes) : Leased origin journal after where
  whole := leased.whole
  named := rules ▸ leased.named
  once := rules ▸ leased.once
  others := rules ▸ leased.others
  routed := routes ▸ leased.routed
  single := routes ▸ leased.single
  elsewhere := routes ▸ leased.elsewhere

theorem shrinks (same : other.Same journal)
    (shrinks : Shrinks other world after) : Leased origin journal after := by
  obtain ⟨⟨erased, inside, rules⟩, routes, _⟩ := shrinks
  have route := same.route
  have fewer : after.rules.Sublist world.rules := by
    rw [rules]
    exact List.diff_sublist _ _
  have rest : after.routes.Sublist world.routes := by
    rcases routes with kept | erased
    · rw [kept]
    · rw [erased]
      exact List.erase_sublist
  refine ⟨leased.whole, ?_, ?_, ?_, ?_, ?_, ?_⟩
  · intro rule member
    exact leased.named rule (fewer.subset member)
  · intro rule ranged
    exact (fewer.count_le rule).trans (leased.once rule ranged)
  · rw [rules, filter_diff_of_not fun rule member => by rw [inside rule member]; rfl]
    exact leased.others
  · intro found member
    exact leased.routed found (rest.subset member)
  · exact (rest.count_le _).trans leased.single
  · rw [← leased.elsewhere]
    rcases routes with kept | erased
    · rw [kept]
    · rw [erased, route]
      refine filter_erase_of_not ?_
      rw [bne_eq_false_iff_eq]
      rfl

/-- A rule that the journal names is added. -/
theorem add {rule} (member : rule ∈ journal.owned)
    (absent : rule ∉ world.rules) :
    Leased origin journal { world with rules := world.rules ++ [rule] } := by
  have ranged := leased.whole.fits.owned_inRange member
  refine { leased with named := ?_, once := once_append leased.once absent, others := ?_ }
  · intro other found inside
    rcases Runs.mem_snoc.mp found with before | rfl
    · exact leased.named other before inside
    · exact member
  · rw [List.filter_append, leased.others]
    simp [ranged]

/-- Other names are recorded; they still cover what is there. -/
theorem rename (same : journal.Same other) (whole : other.Whole)
    (named : ∀ rule ∈ world.rules, rule.inRange = true → rule ∈ other.owned) :
    Leased origin other world := by
  have table := same.table
  have route := same.route
  refine ⟨whole, named, leased.once, leased.others, ?_, route ▸ leased.single, table ▸ leased.elsewhere⟩
  rw [← table, ← route]
  exact leased.routed

/-- Taking back what is named leaves what was there before. -/
theorem restored :
    world.rules.diff journal.owned = origin.rules ∧ world.routes.erase journal.route = origin.routes := by
  constructor
  · have outside : ∀ rule ∈ world.rules.diff journal.owned, (!rule.inRange) = true := by
      intro rule member
      cases ranged : rule.inRange with
      | false => rfl
      | true =>
          have before := (List.diff_sublist _ _).subset member
          have known := List.count_pos_iff.mpr (leased.named rule before ranged)
          have left := List.count_pos_iff.mpr member
          have once := leased.once rule ranged
          rw [List.count_diff] at left
          omega
    rw [← List.filter_eq_self.mpr outside, filter_diff_of_not, leased.others]
    intro rule member
    rw [leased.whole.fits.owned_inRange member]
    rfl
  · have outside : ∀ route ∈ world.routes.erase journal.route, (route.table != journal.table) = true := by
      intro route member
      rw [bne_iff_ne]
      intro same
      obtain rfl := leased.routed route (List.mem_of_mem_erase member) same
      have left := List.count_pos_iff.mpr member
      have single := leased.single
      rw [List.count_erase_self] at left
      omega
    rw [← List.filter_eq_self.mpr outside, filter_erase_of_not, leased.elsewhere]
    rw [bne_eq_false_iff_eq]
    rfl

end

end Leased

/-! ## Clearing -/

/-- The nftables and the Docker rules. -/
def World.filters (world : World) :
    Dict String Bool × Dict String (Bool × List Network) × Option (Dict String Nat) :=
  (world.guards, world.classifiers, world.docker)

/-- The filters without those of an interface. -/
def World.unfiltered (world : World) (name : String) :
    Dict String Bool × Dict String (Bool × List Network) × Option (Dict String Nat) :=
  (world.guards.erase name, world.classifiers.erase name, world.docker.map (·.erase name))

/-- Some of the rules are taken back. -/
structure Erasing (before : World) (erased : List Rule) (world : World) : Prop where
  inside : ∀ rule ∈ erased, rule.inRange = true
  rules : world.rules = before.rules.diff erased
  routes : world.routes = before.routes
  journal : world.journal = before.journal

section Clearing

variable {before world : World} {erased : List Rule} {journal : Journal}

theorem Shrinks.refl (journal : Journal) (world : World) : Shrinks journal world world :=
  ⟨⟨[], by simp, rfl⟩, .inl rfl, rfl⟩

theorem Erasing.shrinks (erasing : Erasing before erased world) : Shrinks journal before world :=
  ⟨⟨erased, erasing.inside, erasing.rules⟩, .inl erasing.routes, erasing.journal⟩

theorem Erasing.erase (erasing : Erasing before erased world) {rule : Rule} (ranged : rule.inRange = true) :
    Erasing before (erased ++ [rule]) { world with rules := world.rules.erase rule } := by
  refine ⟨?_, ?_, erasing.routes, erasing.journal⟩
  · intro other member
    rcases Runs.mem_snoc.mp member with known | rfl
    · exact erasing.inside other known
    · exact ranged
  · rw [List.diff_append, ← erasing.rules, List.diff_cons, List.diff_nil]

/-- How a part of `clear` may end. -/
abbrev shrinking (journal : Journal) (before : World) (done : World → Prop) : Ends World Fault Unit :=
  ⟨fun _ => done, fun _ => Shrinks journal before, Shrinks journal before⟩

theorem eraseRule_meets (erasing : Erasing before erased world) {rule : Rule}
    (ranged : rule.inRange = true) {done : World → Prop}
    (next : ∀ after, Erasing before (erased ++ [rule]) after → after.filters = world.filters → done after) :
    (delRuleIfExists .clearing rule).Meets world (shrinking journal before done) :=
  delRule_meets (next _ (erasing.erase ranged) rfl) erasing.shrinks erasing.shrinks

theorem eraseEach_meets {β : Type} {rule : β → Rule} {list} (erasing : Erasing before erased world)
    (ranged : ∀ x ∈ list, (rule x).inRange = true) {done : World → Prop}
    (next : ∀ after, Erasing before (erased ++ list.map rule) after → after.filters = world.filters →
      done after) :
    (each (fun x => delRuleIfExists .clearing (rule x)) list).Meets world (shrinking journal before done) := by
  refine .each (fun part after => Erasing before (erased ++ part.map rule) after ∧
      after.filters = world.filters) ⟨by simpa using erasing, rfl⟩ ?_ fun after all => next after all.1 all.2
  rintro part x rest after rfl ⟨erasing, same⟩
  refine eraseRule_meets erasing (ranged x (by simp)) fun last erasing kept => ⟨?_, kept.trans same⟩
  rw [List.map_append, ← List.append_assoc]
  exact erasing

theorem eraseForwarding_meets (whole : journal.Whole) {done : World → Prop}
    (next : ∀ after, Erasing world journal.marks after →
      after.filters = (world.guards, world.classifiers.erase journal.name,
        world.docker.map (·.erase journal.name)) → done after) :
    journal.clearForwarding.Meets world (shrinking journal world done) := by
  refine .bind (.bind (.op (fun value first taken => ?_) (Shrinks.refl _ _) (Shrinks.refl _ _)))
  cases taken
  have unlisted : Shrinks journal world { world with docker := world.docker.map (·.erase journal.name) } :=
    ⟨⟨[], by simp, rfl⟩, .inl rfl, rfl⟩
  refine .bind (.ensure (fun _ => ?_) fun _ => unlisted)
  refine .op (fun value second taken => ?_) unlisted unlisted
  cases taken
  have begun : Erasing world [] { world with
      docker := world.docker.map (·.erase journal.name)
      classifiers := world.classifiers.erase journal.name } :=
    ⟨by simp, rfl, rfl, rfl⟩
  have routes : containerRoutes journal.index journal.table = some journal.marks := by
    rw [containerRoutes, if_pos whole.marked]
    rfl
  rw [routes]
  refine @eraseEach_meets _ _ _ _ _ (fun rule => rule) _ begun ?_ _ fun after erasing same =>
    next after ?_ same
  · intro rule member
    exact (Journal.Fixed.priority (.inl member)).1
  · rw [List.nil_append, List.map_id'] at erasing
    exact erasing

/-- However far `clear` comes, it deletes rules in the range of PortHub only. If it
    ends, it has deleted all that the journal names. -/
theorem eraseAll_meets (whole : journal.Whole) {done : World → Prop}
    (next : ∀ after, after.rules = world.rules.diff journal.owned →
      after.routes = world.routes.erase journal.route → after.journal = none →
      after.filters = world.unfiltered journal.name → done after) :
    journal.clear.Meets world (shrinking journal world done) := by
  have same := Shrinks.refl journal world
  refine .bind (.op (fun current loaded taken => ?_) same same)
  have unchanged : world = loaded := by
    split at taken
    · exact congrArg Prod.snd (Option.some.inj taken)
    · cases taken
  subst unchanged
  have owned : (journal.checkOwner current).Watches world fun _ => True := by
    cases current with
    | none => exact .pure trivial
    | some current => exact .ensure fun _ => trivial
  refine owned.then_ (fun _ _ => ?_) (fun _ => same) same
  refine .bind (.onlyIf (fun _ => ?_) fun off => absurd off (by simp [whole.containerForwarding]))
  refine eraseForwarding_meets whole fun forwarded erasing filters => ?_
  refine .bind (.onlyIf (fun _ => ?_) fun off => absurd off (by simp [whole.privateBypass]))
  refine eraseEach_meets erasing (fun network listed =>
    (@Journal.Fixed.priority journal _ (.inr (.inl (List.mem_map_of_mem listed)))).1) ?_
  intro near erasing kept
  rw [← kept] at filters
  refine .bind (eraseEach_meets erasing (fun network _ => lanRule_inRange _ network) ?_)
  intro lan erasing kept
  rw [← kept] at filters
  refine .bind (.onlyIf (fun _ => ?_) fun off => absurd off (by simp [whole.ipv6Guard]))
  refine .bind (.ensure (fun _ => ?_) fun _ => erasing.shrinks)
  refine .op (fun value guarded taken => ?_) erasing.shrinks erasing.shrinks
  cases taken
  have unguarded : Erasing world (journal.marks ++ privateNetworks.map privateRule ++
      journal.lanNetworks.map (lanRule journal.table))
      { lan with guards := lan.guards.erase journal.name } :=
    ⟨erasing.inside, erasing.rules, erasing.routes, erasing.journal⟩
  have bare : World.filters { lan with guards := lan.guards.erase journal.name } =
      world.unfiltered journal.name := by
    obtain ⟨guards, classifiers, docker⟩ := Prod.mk.inj filters |>.imp_right Prod.mk.inj
    simp only [World.filters, World.unfiltered, guards, classifiers, docker]
  refine .bind (eraseRule_meets unguarded (catchAll_inRange _) ?_)
  intro last erasing kept
  rw [← kept] at bare
  refine .bind (.onlyIf (fun _ => ?_) fun off => absurd off (by simp [whole.ownSourceRule]))
  refine eraseRule_meets erasing (Journal.Fixed.priority (.inr (.inr (.inr (.inl rfl))))).1 ?_
  intro own erasing kept
  rw [← kept] at bare
  refine .bind (eraseEach_meets erasing (fun source listed =>
    sourceRule_inRange (whole.fits.priorities source listed)) ?_)
  intro sources erasing kept
  rw [← kept] at bare
  refine .bind (eraseRule_meets erasing (show firstRule.inRange = true by decide) ?_)
  intro first erasing kept
  rw [← kept] at bare
  refine .bind (.op (fun value unrouted taken => ?_) erasing.shrinks erasing.shrinks)
  cases taken
  have left : Shrinks journal world { first with routes := first.routes.erase journal.route } := by
    refine ⟨⟨_, erasing.inside, erasing.rules⟩, .inr ?_, erasing.journal⟩
    rw [erasing.routes]
  refine .op (fun value removed taken => ?_) left left
  cases taken
  refine next _ erasing.rules ?_ rfl bare
  rw [erasing.routes]

theorem eraseEach_completes {β : Type} {rule : β → Rule} {list} {done : Unit → World → Prop}
    (next : ∀ after, done () after) :
    (each (fun x => delRuleIfExists .clearing (rule x)) list).Completes world done :=
  .each (fun _ _ => True) trivial (fun _ _ _ _ _ _ => .op rfl trivial) fun after _ => next after

/-- If no operation fails, `clear` ends. -/
theorem clear_ends (whole : journal.Whole)
    (mine : ∀ current, world.journal = some current → current.accepted = true ∧ current.Same journal) :
    journal.clear.Completes world fun _ _ => True := by
  have accepted : world.journal.all Journal.accepted = true := by
    cases found : world.journal with
    | none => rfl
    | some current => exact (mine current found).1
  refine .bind (.op (if_pos accepted) ?_)
  have owned : (journal.checkOwner world.journal).Completes world fun _ after => after = world := by
    cases found : world.journal with
    | none => exact .pure rfl
    | some current =>
        obtain ⟨_, same⟩ := mine current found
        refine .ensure ?_ rfl
        simp [same.index, same.name, same.own]
  obtain ⟨value, after, outcome, rfl⟩ := owned
  refine .bind ⟨value, after, outcome, ?_⟩
  refine .bind (.onlyIf (fun _ => ?_) fun off => absurd off (by simp [whole.containerForwarding]))
  refine .bind (.bind (.op rfl (.bind (.ensure whole.fits.name (.op rfl ?_)))))
  have routes : containerRoutes journal.index journal.table = some journal.marks := by
    rw [containerRoutes, if_pos whole.marked]
    rfl
  rw [routes]
  refine @eraseEach_completes _ _ (fun rule => rule) _ _ fun forwarded => ?_
  refine .bind (.onlyIf (fun _ => ?_) fun off => absurd off (by simp [whole.privateBypass]))
  refine eraseEach_completes fun near => ?_
  refine .bind (eraseEach_completes fun lan => ?_)
  refine .bind (.onlyIf (fun _ => ?_) fun off => absurd off (by simp [whole.ipv6Guard]))
  refine .bind (.ensure whole.fits.name (.op rfl ?_))
  refine .bind (.op rfl ?_)
  refine .bind (.onlyIf (fun _ => ?_) fun off => absurd off (by simp [whole.ownSourceRule]))
  refine .op rfl ?_
  refine .bind (eraseEach_completes fun sources => ?_)
  refine .bind (.op rfl ?_)
  refine .bind (.op rfl ?_)
  exact .op rfl trivial

/-- Nothing of PortHub is left. -/
structure Restored (origin : World) (name : String) (before after : World) : Prop where
  rules : after.rules = origin.rules
  routes : after.routes = origin.routes
  journal : after.journal = none
  filters : after.filters = before.unfiltered name

variable {origin : World}

theorem Leased.clear_meets (leased : Leased origin journal world) :
    journal.clear.Meets world
      (shrinking journal world (Restored origin journal.name world)) := by
  obtain ⟨restored, unrouted⟩ := leased.restored
  refine eraseAll_meets leased.whole fun after rules routes removed filters => ?_
  exact ⟨rules.trans restored, routes.trans unrouted, removed, filters⟩

/-- A lease is taken back completely when nothing fails. -/
theorem Leased.clear_completes (leased : Leased origin journal world)
    (mine : ∀ current, world.journal = some current → current.accepted = true ∧ current.Same journal) :
    journal.clear.Completes world fun _ => Restored origin journal.name world :=
  (clear_ends leased.whole mine).and_meets leased.clear_meets

end Clearing

end PortHub.Agent.ExitRoutes
