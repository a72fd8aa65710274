import Mathlib.Data.List.Perm.Basic
import PortHub.Lib.Pieces
import PortHub.Mesh.DnsPolicy

/-! # The rule that a name meets

Prepared rules stand with the longest zones first, so the first rule that covers
a name has the longest zone of all that do. A zone covers a name by its labels.
Preparing is stable: it leaves prepared rules alone and does not see the order in
which they were entered.
-/

namespace PortHub.Mesh.DnsPolicy

def labels (name : List Char) : List (List Char) := name.splitOn '.'

/-- A proper subdomain has the labels of the zone behind at least one of its own. -/
def Below (zone name : List Char) : Prop := ∃ front, front ≠ [] ∧ labels name = front ++ labels zone

/-- The zone of a rule as it was entered: behind the star of a wildcard. -/
def Entered (rule : Rule) (starred : Bool) (zone : List Char) : Prop :=
  if starred then
    ∃ base, Text.stripPrefix (Text.trim rule.domain) wildcard = some base ∧ domain base = .ok zone
  else Text.stripPrefix (Text.trim rule.domain) wildcard = none ∧ domain rule.domain = .ok zone

/-- A plain domain is met by itself, a wildcard and a rule for subdomains by what is
    below the zone. -/
def Meets (rule : Rule) (zone name : List Char) : Prop :=
  ∃ starred, Entered rule starred zone ∧
    ((starred = false ∧ labels name = labels zone) ∨
      (starred = true ∨ rule.includeSubdomains = true) ∧ Below zone name)

/-! ## Labels -/

variable {name raw : List Char} {c : Char} {rule a b : Rule} {starred : Bool}
  {result rules : List Rule}

theorem labels_inj {other} : labels name = labels other ↔ name = other := by
  constructor
  · intro same
    have joined := congrArg (List.intercalate ['.']) same
    rwa [labels, labels, List.intercalate_splitOn, List.intercalate_splitOn] at joined
  · intro same
    rw [same]

theorem below_iff {zone} : Below zone name ↔ '.' :: zone <:+ name := by
  constructor
  · rintro ⟨front, nonempty, split⟩
    refine ⟨['.'].intercalate front, ?_⟩
    have joined := congrArg (List.intercalate ['.']) split
    rw [labels, List.intercalate_splitOn] at joined
    rw [joined, labels, Pieces.intercalate_append nonempty (List.splitOn_ne_nil _ _),
      List.intercalate_splitOn]
    simp
  · rintro ⟨front, rfl⟩
    exact ⟨labels front, List.splitOn_ne_nil _ _, List.splitOn_append_cons_self _ _⟩

theorem mem_of_valid (valid : (labels name).all validLabel = true) (member : c ∈ name) :
    c = '.' ∨ Text.isAsciiAlphanumeric c = true ∨ c = '-' := by
  have joined : name = ['.'].intercalate (labels name) := (List.intercalate_splitOn '.').symm
  rw [joined] at member
  rcases Pieces.mem_intercalate member with dot | ⟨label, listed, inside⟩
  · exact .inl (List.mem_singleton.mp dot)
  · have proper := List.all_eq_true.mp valid label listed
    simp only [validLabel, Bool.and_eq_true, List.all_eq_true, Bool.or_eq_true, beq_iff_eq] at proper
    exact .inr (proper.2 c inside)

/-! ## Normal forms -/

theorem not_space_of_alphanumeric (plain : Text.isAsciiAlphanumeric c = true) :
    Text.isWhiteSpace c = false := by
  change (decide ('A'.val ≤ c.val ∧ c.val ≤ 'Z'.val) ||
    (decide ('a'.val ≤ c.val) && decide (c.val ≤ 'z'.val)) ||
    (decide ('0'.val ≤ c.val) && decide (c.val ≤ '9'.val))) = true at plain
  simp only [Bool.or_eq_true, Bool.and_eq_true, decide_eq_true_eq, UInt32.le_iff_toNat_le] at plain
  have ranges : ((65 ≤ c.toNat ∧ c.toNat ≤ 90) ∨ (97 ≤ c.toNat ∧ c.toNat ≤ 122)) ∨
    (48 ≤ c.toNat ∧ c.toNat ≤ 57) := plain
  simp only [Text.isWhiteSpace, Bool.or_eq_false_iff, Bool.and_eq_false_iff, decide_eq_false_iff_not,
    beq_eq_false_iff_ne]
  omega

theorem domain_ok : domain raw = .ok name ↔
    name = Text.toAsciiLowercase (Text.trimEnd '.' (Text.trim raw)) ∧
    (Text.byteLen name ≤ 253 && name.contains '.' && !IpText.isIpAddr name) = true ∧
    (labels name).all validLabel = true := by
  simp only [domain, bind_eq_ok, ensure_eq_ok, pure_eq_ok, labels]
  constructor
  · rintro ⟨_, shaped, _, valid, rfl⟩
    exact ⟨rfl, shaped, valid⟩
  · rintro ⟨rfl, shaped, valid⟩
    exact ⟨(), shaped, (), valid, rfl⟩

/-- No character of a domain is white space or a star. -/
theorem plain_of_domain (accepted : domain raw = .ok name) (member : c ∈ name) :
    Text.isWhiteSpace c = false ∧ c ≠ '*' := by
  obtain ⟨_, _, valid⟩ := domain_ok.mp accepted
  rcases mem_of_valid valid member with rfl | plain | rfl
  · decide
  · refine ⟨not_space_of_alphanumeric plain, ?_⟩
    rintro rfl
    revert plain
    decide
  · decide

theorem domain_idem (accepted : domain raw = .ok name) :
    domain name = .ok name := by
  obtain ⟨normal, shaped, valid⟩ := domain_ok.mp accepted
  refine domain_ok.mpr ⟨?_, shaped, valid⟩
  have trimmed : Text.trim name = name :=
    Text.ends_eq_self (fun c first => (plain_of_domain accepted (List.mem_of_mem_head? first)).1)
      (fun c last => (plain_of_domain accepted (List.mem_of_getLast? last)).1)
  have undotted : Text.trimEnd '.' name = name := by
    rw [normal, Text.toAsciiLowercase_trimEnd, Text.trimEnd_trimEnd]
  have lowered : Text.toAsciiLowercase name = name := by
    rw [normal, Text.toAsciiLowercase, Text.toAsciiLowercase, List.map_map]
    refine List.map_congr_left fun c _ => ?_
    rw [Function.comp_apply]
    unfold Char.toLower
    grind
  rw [trimmed, undotted, lowered]

theorem not_wildcard_of_domain (accepted : domain raw = .ok name) :
    ¬ wildcard <+: name := by
  rintro ⟨rest, rfl⟩
  exact (plain_of_domain accepted (c := '*') (by simp [wildcard])).2 rfl

/-- What a rule becomes. -/
def prepared (rule : Rule) (starred : Bool) (zone : List Char) : Rule :=
  { rule with
    domain := if starred then wildcard ++ zone else zone
    includeSubdomains := starred || rule.includeSubdomains }

theorem prepareRule_ok {result} : prepareRule rule = .ok result ↔
    ∃ starred zone, Entered rule starred zone ∧ result = prepared rule starred zone := by
  unfold prepareRule
  cases head : Text.stripPrefix (Text.trim rule.domain) wildcard with
  | none =>
      simp only [bind_eq_ok, pure_eq_ok]
      constructor
      · rintro ⟨zone, accepted, rfl⟩
        refine ⟨false, zone, by simp [Entered, head, accepted], ?_⟩
        simp [isWildcard, prepared, not_wildcard_of_domain accepted]
      · rintro ⟨starred, zone, entered, rfl⟩
        cases starred with
        | true => simp [Entered, head] at entered
        | false =>
            have accepted : domain rule.domain = .ok zone := by simpa [Entered, head] using entered
            refine ⟨zone, accepted, ?_⟩
            simp [isWildcard, prepared, not_wildcard_of_domain accepted]
  | some base =>
      simp only [bind_eq_ok, pure_eq_ok]
      constructor
      · rintro ⟨name, built, rfl⟩
        cases accepted : domain base with
        | error message => simp [accepted, Except.map] at built
        | ok zone =>
            have same : wildcard ++ zone = name := by simpa [accepted, Except.map] using built
            subst same
            exact ⟨true, zone, by simp [Entered, head, accepted], by simp [isWildcard, prepared]⟩
      · rintro ⟨starred, zone, entered, rfl⟩
        cases starred with
        | false => simp [Entered, head] at entered
        | true =>
            have accepted : domain base = .ok zone := by simpa [Entered, head] using entered
            exact ⟨wildcard ++ zone, by simp [accepted, Except.map], by simp [isWildcard, prepared]⟩

theorem Entered.accepted {zone} (entered : Entered rule starred zone) :
    ∃ raw, domain raw = .ok zone := by
  cases starred with
  | false => exact ⟨_, entered.2⟩
  | true =>
      obtain ⟨base, _, accepted⟩ := entered
      exact ⟨base, accepted⟩

theorem zone_prepared {zone} (entered : Entered rule starred zone) :
    DnsPolicy.zone (prepared rule starred zone) = zone ∧
      isWildcard (prepared rule starred zone) = starred := by
  obtain ⟨raw, accepted⟩ := entered.accepted
  cases starred with
  | false =>
      have plain := not_wildcard_of_domain accepted
      simp [DnsPolicy.zone, prepared, isWildcard, Text.stripPrefix, plain]
  | true => simp [DnsPolicy.zone, prepared, isWildcard, Text.stripPrefix]

/-- A prepared rule is entered with the zone it was prepared for. -/
theorem Entered.prepared {zone} (entered : Entered rule starred zone) :
    Entered (prepared rule starred zone) starred zone := by
  obtain ⟨raw, accepted⟩ := entered.accepted
  have again := domain_idem accepted
  have clear : ∀ c ∈ zone, Text.isWhiteSpace c = false := fun c member =>
    (plain_of_domain accepted member).1
  cases starred with
  | false =>
      have trimmed : Text.trim zone = zone :=
        Text.ends_eq_self (fun c first => clear c (List.mem_of_mem_head? first))
          (fun c last => clear c (List.mem_of_getLast? last))
      have plain := not_wildcard_of_domain accepted
      simp [Entered, DnsPolicy.prepared, trimmed, Text.stripPrefix, plain, again]
  | true =>
      have nonempty : zone ≠ [] := by
        rintro rfl
        obtain ⟨_, shaped, _⟩ := domain_ok.mp accepted
        simp at shaped
      have trimmed : Text.trim (wildcard ++ zone) = wildcard ++ zone := by
        apply Text.ends_eq_self
        · intro c first
          obtain rfl : '*' = c := by simpa [wildcard] using first
          decide
        · intro c last
          rw [List.getLast?_append_of_ne_nil _ nonempty] at last
          exact clear c (List.mem_of_getLast? last)
      simp [Entered, DnsPolicy.prepared, trimmed, Text.stripPrefix, again]

theorem prepareRule_idem {result} (made : prepareRule rule = .ok result) :
    prepareRule result = .ok result := by
  obtain ⟨starred, zone, entered, rfl⟩ := prepareRule_ok.mp made
  refine prepareRule_ok.mpr ⟨starred, zone, entered.prepared, ?_⟩
  cases starred <;> simp [prepared]

/-! ## The whole list -/

theorem prepareAll_ok {seen} :
    prepareAll rules seen = .ok result ↔
      List.Forall₂ (fun rule made => prepareRule rule = .ok made) rules result ∧
      (result.map Rule.domain).Nodup ∧ ∀ rule ∈ result, rule.domain ∉ seen := by
  induction rules generalizing seen result with
  | nil =>
      simp only [prepareAll, List.forall₂_nil_left_iff]
      constructor
      · intro empty
        cases empty
        simp
      · rintro ⟨rfl, _⟩
        rfl
  | cons rule rest ih =>
      simp only [prepareAll, bind_eq_ok, ensure_eq_ok, pure_eq_ok, ih]
      constructor
      · rintro ⟨made, built, _, new, tail, ⟨each, distinct, unseen⟩, rfl⟩
        refine ⟨.cons built each, ?_, ?_⟩
        · rw [List.map_cons, List.nodup_cons]
          refine ⟨fun member => ?_, distinct⟩
          obtain ⟨other, listed, same⟩ := List.mem_map.mp member
          exact unseen other listed (same ▸ List.mem_cons_self)
        · intro other member
          rcases List.mem_cons.mp member with rfl | member
          · simpa using new
          · exact fun inside => unseen other member (List.mem_cons_of_mem _ inside)
      · rintro ⟨each, distinct, unseen⟩
        cases each with
        | cons built each =>
            rename_i made tail
            rw [List.map_cons, List.nodup_cons] at distinct
            refine ⟨made, built, (), by simpa using unseen made List.mem_cons_self, tail,
              ⟨each, distinct.2, ?_⟩, rfl⟩
            intro other member inside
            rcases List.mem_cons.mp inside with same | inside
            · exact distinct.1 (List.mem_map.mpr ⟨other, member, same⟩)
            · exact unseen other (List.mem_cons_of_mem _ member) inside

/-- The prepared rules come from the rules, and every rule is prepared. -/
theorem mem_made {made}
    (each : List.Forall₂ (fun rule made => prepareRule rule = .ok made) rules made) {result} :
    result ∈ made ↔ ∃ rule ∈ rules, prepareRule rule = .ok result := by
  induction each with
  | nil => simp
  | cons built _ ih => simp [ih, built, eq_comm]

instance order_transCmp : Std.TransCmp order :=
  inferInstanceAs (Std.TransCmp
    (compareLex (fun a b => compareOn (fun rule => Text.byteLen (zone rule)) b a)
      (compareLex (fun a b => compareOn isWildcard b a) (compareOn Rule.domain))))

theorem precedes_total (a b : Rule) : precedes a b ∨ precedes b a := by
  unfold precedes
  have swapped : order b a = (order a b).swap := Std.OrientedCmp.eq_swap
  rw [swapped]
  cases order a b <;> simp

theorem precedes_trans {c} (first : precedes a b) (second : precedes b c) :
    precedes a c :=
  Std.TransCmp.isLE_trans first second

/-- Rules that precede one another have one domain. -/
theorem domain_eq_of_precedes (first : precedes a b) (second : precedes b a) :
    a.domain = b.domain := by
  have level : order a b = .eq := Std.OrientedCmp.isLE_antisymm first second
  simp only [order, Ordering.then_eq_eq] at level
  exact Std.LawfulEqOrd.compare_eq_iff_eq.mp level.2.2

theorem byteLen_zone_le_of_precedes (first : precedes a b) :
    Text.byteLen (zone b) ≤ Text.byteLen (zone a) := by
  by_contra longer
  have above : compare (Text.byteLen (zone b)) (Text.byteLen (zone a)) = .gt :=
    Nat.compare_eq_gt.mpr (Nat.lt_of_not_le longer)
  simp [precedes, order, above] at first

theorem sortRules_pairwise (rules : List Rule) : (sortRules rules).Pairwise precedes :=
  have : Std.Total precedes := ⟨precedes_total⟩
  have : IsTrans Rule precedes := ⟨fun _ _ _ => precedes_trans⟩
  List.pairwise_insertionSort precedes rules

theorem sortRules_perm (rules : List Rule) : (sortRules rules).Perm rules :=
  List.perm_insertionSort _ rules

/-- Rules with different domains stand in one order only. -/
theorem eq_of_pairwise_precedes {others} (distinct : (rules.map Rule.domain).Nodup)
    (same : rules.Perm others) (left : rules.Pairwise precedes) (right : others.Pairwise precedes) :
    rules = others := by
  apply same.eq_of_pairwise _ left right
  intro a b inLeft inRight first second
  exact List.inj_on_of_nodup_map distinct inLeft (same.mem_iff.mpr inRight)
    (domain_eq_of_precedes first second)

theorem prepare_ok : prepare rules = .ok result ↔
    rules.length ≤ 256 ∧ ∃ made,
      List.Forall₂ (fun rule made => prepareRule rule = .ok made) rules made ∧
      (made.map Rule.domain).Nodup ∧ result = sortRules made := by
  simp only [prepare, bind_eq_ok, ensure_eq_ok, pure_eq_ok, prepareAll_ok, decide_eq_true_eq]
  constructor
  · rintro ⟨_, few, made, ⟨each, distinct, _⟩, rfl⟩
    exact ⟨few, made, each, distinct, rfl⟩
  · rintro ⟨few, made, each, distinct, rfl⟩
    exact ⟨(), few, made, ⟨each, distinct, by simp⟩, rfl⟩

/-- The order of entry does not matter. -/
theorem prepare_perm {others : List Rule} (same : others.Perm rules)
    (accepted : prepare rules = .ok result) : prepare others = .ok result := by
  obtain ⟨few, made, each, distinct, rfl⟩ := prepare_ok.mp accepted
  obtain ⟨again, prepared, permuted⟩ := List.perm_comp_forall₂ same each
  have unique : (again.map Rule.domain).Nodup := (permuted.map Rule.domain).nodup_iff.mpr distinct
  have sorted : sortRules made = sortRules again := by
    apply eq_of_pairwise_precedes
    · exact ((sortRules_perm made).map Rule.domain).nodup_iff.mpr distinct
    · exact ((sortRules_perm made).trans permuted.symm).trans (sortRules_perm again).symm
    · exact sortRules_pairwise made
    · exact sortRules_pairwise again
  exact prepare_ok.mpr ⟨same.length_eq ▸ few, again, prepared, unique, sorted⟩

/-- Prepared rules are left alone. -/
theorem prepare_idem (accepted : prepare rules = .ok result) :
    prepare result = .ok result := by
  obtain ⟨few, made, each, distinct, rfl⟩ := prepare_ok.mp accepted
  have permuted := sortRules_perm made
  have stays : ∀ rule ∈ sortRules made, prepareRule rule = .ok rule := by
    intro rule member
    obtain ⟨entered, _, built⟩ := (mem_made each).mp (permuted.mem_iff.mp member)
    exact prepareRule_idem built
  refine prepare_ok.mpr ⟨?_, sortRules made, List.forall₂_same.mpr stays, ?_, ?_⟩
  · rw [permuted.length_eq, ← each.length_eq]
    exact few
  · exact (permuted.map Rule.domain).nodup_iff.mpr distinct
  · exact ((sortRules_pairwise made).insertionSort_eq).symm

/-! ## Matching -/

theorem covers_prepared {zone} (entered : Entered rule starred zone) :
    covers (prepared rule starred zone) name = true ↔
      (starred = false ∧ labels name = labels zone) ∨
        (starred = true ∨ rule.includeSubdomains = true) ∧ Below zone name := by
  obtain ⟨ownZone, ownStar⟩ := zone_prepared entered
  simp only [covers, ownZone, ownStar, Bool.or_eq_true, Bool.and_eq_true, Text.stripSuffix_dot,
    beq_iff_eq, labels_inj, below_iff, Bool.not_eq_true']
  simp [prepared]

/-- A rule meets a name with its zone when the rule it becomes covers the name. -/
theorem meets_iff {zone} : Meets rule zone name ↔
    ∃ made, prepareRule rule = .ok made ∧ DnsPolicy.zone made = zone ∧ covers made name = true := by
  constructor
  · rintro ⟨starred, entered, met⟩
    exact ⟨prepared rule starred zone, prepareRule_ok.mpr ⟨starred, zone, entered, rfl⟩,
      (zone_prepared entered).1, (covers_prepared entered).mpr met⟩
  · rintro ⟨made, built, rfl, covered⟩
    obtain ⟨starred, zone, entered, rfl⟩ := prepareRule_ok.mp built
    rw [(zone_prepared entered).1]
    exact ⟨starred, entered, (covers_prepared entered).mp covered⟩

/-- The first rule that covers a name has the longest zone of those that do. -/
theorem find?_longest (sorted : rules.Pairwise precedes) {found}
    (first : rules.find? (covers · name) = some found) {other} (member : other ∈ rules)
    (covered : covers other name = true) :
    Text.byteLen (zone other) ≤ Text.byteLen (zone found) := by
  obtain ⟨_, before, after, rfl, uncovered⟩ := List.find?_eq_some_iff_append.mp first
  rcases List.mem_append.mp member with early | late
  · exact absurd covered (by simpa using uncovered other early)
  · rcases List.mem_cons.mp late with rfl | late
    · exact le_rfl
    · have ordered := (List.pairwise_append.mp sorted).2.1
      exact byteLen_zone_le_of_precedes ((List.pairwise_cons.mp ordered).1 other late)

/-- In every accepted list, a name is matched exactly when some rule of the list
    meets it on label boundaries, and the rule returned is one of the longest zone
    among them. Preparing again changes nothing, and neither does the order of the
    rules. -/
theorem matching_finds_the_longest_zone {rules result : List Rule}
    (accepted : prepare rules = .ok result) :
    (∀ query, (matching result query).isSome = true ↔
      ∃ rule ∈ rules, ∃ zone, Meets rule zone (Text.trimEnd '.' query)) ∧
    (∀ query found, matching result query = some found →
      (∃ rule ∈ rules, prepareRule rule = .ok found ∧
        Meets rule (zone found) (Text.trimEnd '.' query)) ∧
      ∀ rule ∈ rules, ∀ other, Meets rule other (Text.trimEnd '.' query) →
        Text.byteLen other ≤ Text.byteLen (zone found)) ∧
    prepare result = .ok result ∧
    ∀ others : List Rule, others.Perm rules → prepare others = .ok result := by
  refine ⟨?_, ?_, prepare_idem accepted, fun others same => prepare_perm same accepted⟩
  · obtain ⟨_, made, each, _, rfl⟩ := prepare_ok.mp accepted
    intro query
    simp only [matching, List.find?_isSome, (sortRules_perm made).mem_iff, mem_made each, meets_iff]
    constructor
    · rintro ⟨found, ⟨rule, member, built⟩, covered⟩
      exact ⟨rule, member, _, found, built, rfl, covered⟩
    · rintro ⟨rule, member, _, found, built, _, covered⟩
      exact ⟨found, ⟨rule, member, built⟩, covered⟩
  · obtain ⟨_, made, each, _, rfl⟩ := prepare_ok.mp accepted
    intro query found matched
    have first : (sortRules made).find? (covers · (Text.trimEnd '.' query)) = some found := matched
    have covered := List.find?_some first
    have listed := (sortRules_perm made).mem_iff.mp (List.mem_of_find?_eq_some first)
    obtain ⟨rule, member, built⟩ := (mem_made each).mp listed
    refine ⟨⟨rule, member, built, meets_iff.mpr ⟨found, built, rfl, covered⟩⟩, ?_⟩
    intro rule member other met
    obtain ⟨longest, built, rfl, covered⟩ := meets_iff.mp met
    have inside := (sortRules_perm made).mem_iff.mpr ((mem_made each).mpr ⟨rule, member, built⟩)
    exact find?_longest (sortRules_pairwise made) first inside covered

/-- A rule for the subdomains and a plain rule inside its zone. -/
def sampleRules : List Rule :=
  [⟨"*.Example.COM.".toList, .block, false⟩, ⟨"allowed.example.com".toList, .block, false⟩]

def samplePrepared : List Rule :=
  [⟨"allowed.example.com".toList, .block, false⟩, ⟨"*.example.com".toList, .block, true⟩]

theorem nested_rule_is_matched_first :
    matching samplePrepared "allowed.example.com.".toList = samplePrepared.head? ∧
    (∃ rule ∈ sampleRules, ∃ zone, Meets rule zone "deep.allowed.example.com".toList) ∧
    prepare sampleRules.reverse = .ok samplePrepared := by
  have accepted : prepare sampleRules = .ok samplePrepared := by decide
  obtain ⟨matched, _, _, reordered⟩ := matching_finds_the_longest_zone accepted
  refine ⟨by decide, ?_, reordered _ (List.reverse_perm _)⟩
  exact (matched "deep.allowed.example.com.".toList).mp (by decide)

end PortHub.Mesh.DnsPolicy
