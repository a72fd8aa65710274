import PortHub.Api.Passing
import PortHub.Api.PolicyAgreement

/-! # Rules that are saved

A rule is saved in its normal form and parsed again on every use. The fields of an
accepted rule pass their checks again. Its ports are written with a blank after
each comma, so they can grow beyond what a rule may hold; then the saved rule is
dropped.
-/

namespace PortHub.Api.PrivatePolicy

open Check

section Views

variable (numbers : Numbers) (nd : Char → Bool)

/-- A string of a limited length. -/
def stringView (key : String) (min max : Nat) (model : Model) : Option String :=
  ((model.field key).bind (Model.stringOf numbers)).bind fun value =>
    if model.fieldValid key = true ∧ ¬(min ≤ value.length ∧ value.length ≤ max) then none else some value

theorem string_reads (key : String) (min max : Nat) :
    Reads (string numbers key min max) (stringView numbers key min max) := by
  refine .congr (.bind (requiredString_reads numbers key) fun value =>
    .bind (stringLength_reads key value min max) fun _ => .pure value) fun model => ?_
  unfold stringView
  congr 1
  funext value
  split <;> rfl

def booleanView (key : String) (default : Bool) (model : Model) : Option Bool :=
  if (model.field key).isSome then (model.field key).bind (Model.boolOf numbers) else some default

theorem boolean_reads (key : String) (default : Bool) :
    Reads (boolean numbers key default) (booleanView numbers key default) :=
  .look (fun seen model =>
      if (seen.field key).isSome then (model.field key).bind (Model.boolOf numbers) else some default)
    fun _ => .ite (requiredBool_reads numbers key) (.pure default)

/-- The rest of a selector, whose kind was read. -/
def selectorRest (kind : String) (model : Model) : Option Selector :=
  (stringView numbers "id" 1 64 model).bind fun id =>
    if model.fieldValid "id" && kind == "all" && id != "machines" then none else some ⟨kind, id⟩

def selectorView (model : Model) : Option Selector :=
  ((model.field "kind").bind fun value =>
    value.asStr.filter ["machine", "user", "group", "all"].contains).bind fun kind =>
      selectorRest numbers kind model

theorem selectorRest_reads (kind : String) :
    Reads (do
      let id ← string numbers "id" 1 64
      if (← get).fieldValid "id" && kind == "all" && id != "machines" then
        add "id" "Use id \"machines\" for all machines" "value_error"
      return (⟨kind, id⟩ : Selector)) (selectorRest numbers kind) := by
  refine .bind (string_reads numbers "id" 1 64) fun id => ?_
  refine .look (fun seen _ => if seen.fieldValid "id" && kind == "all" && id != "machines" then none
    else some (⟨kind, id⟩ : Selector)) fun seen => ?_
  exact .ite (.fail .addAt _) (.pure _)

theorem selector_reads : Reads (selector numbers) (selectorView numbers) := by
  refine .congr (.look (fun seen model =>
    if (seen.field "kind").isNone then
      ((model.field "kind").bind (Model.stringOf numbers)).bind fun kind => selectorRest numbers kind model
    else
      (literalView "kind" "" ["machine", "user", "group", "all"] model).bind fun kind =>
        selectorRest numbers kind model) fun seen => ?_) fun model => ?_
  · exact .ite (.bind (requiredString_reads numbers "kind") fun kind => selectorRest_reads numbers kind)
      (.bind (literal_reads "kind" "" _) fun kind => selectorRest_reads numbers kind)
  · unfold selectorView literalView
    cases model.field "kind" <;> rfl

/-- The selectors of a list of children. -/
def selectorsView (children : List Model) : Option (List Selector) :=
  children.mapM fun child => if child.errors = [] then selectorView numbers child else none

theorem collectSelectors_reads (children : List Model) :
    Reads (collectSelectors numbers children) fun _ => selectorsView numbers children := by
  induction children with
  | nil => exact .pure []
  | cons child rest ih =>
      unfold collectSelectors
      rw [selectorsView, List.mapM_cons]
      by_cases valid : child.errors = []
      · rw [if_pos (by simp [Model.isValid, valid]), if_pos valid]
        rcases selector_reads numbers child with ⟨found, read, run⟩ | ⟨none, found, error, more, run⟩
        · rw [run, read]
          refine .congr (.bind (.merge child) fun _ => .bind ih fun others => .pure _) fun model => ?_
          simp [valid, Model.isValid, selectorsView]
        · rw [run, none]
          refine .congr (.bind (.merge _) fun _ => .bind ih fun others => .pure _) fun model => ?_
          simp
      · rw [if_neg (by simpa [Model.isValid] using valid), if_neg valid]
        refine .congr (.bind (.merge child) fun _ => ih) fun model => ?_
        simp [valid]

/-- The list of selectors in a field. -/
def selectorsField (key : String) (model : Model) : Option (List Selector) :=
  ((model.field key).bind fun
    | .array values => some values
    | _ => none).bind fun values =>
      if !model.fieldValid key then some []
      else if values.length < 1 ∨ 32 < values.length then none
      else selectorsView numbers
        (values.zipIdx.map fun (value, index) => child key model.location value index)

theorem selectors_reads (key : String) :
    Reads (selectors numbers key) (selectorsField numbers key) := by
  have children : Reads (objects key true 1 32) fun model =>
      (if (model.field key).isNone && true then none
        else
          (listView key model).bind fun values =>
            if !model.fieldValid key then some []
            else if values.length < 1 ∨ 32 < values.length then none
            else some values).bind fun values =>
        some (values.zipIdx.map fun (value, index) => child key model.location value index) :=
    .bind (boundedList_reads key true 1 32) fun values => .look (fun seen _ =>
      some (values.zipIdx.map fun (value, index) => child key seen.location value index))
      fun seen => .pure _
  refine .congr (.bind children fun found => collectSelectors_reads numbers found) fun model => ?_
  unfold selectorsField listView
  cases model.field key with
  | none => rfl
  | some value =>
      cases value with
      | array values =>
          simp only [Option.bind_some, Option.isNone_some, Bool.false_and, Bool.false_eq_true, if_false]
          split
          · rfl
          · split <;> rfl
      | _ => rfl

/-- The fields of a rule, with the ports as they were written. -/
def draftView (model : Model) : Option Rule :=
  (stringView numbers "id" 1 64 model).bind fun id =>
  (stringView numbers "name" 1 80 model).bind fun name =>
  (if model.fieldValid "name" && (strip name.toList).isEmpty then none else some ()).bind fun _ =>
  (selectorsField numbers "sources" model).bind fun sources =>
  (selectorsField numbers "destinations" model).bind fun destinations =>
  (match model.field "protocol" with
    | none => some "tcp"
    | some value => value.asStr.filter ["any", "tcp", "udp", "icmp"].contains).bind fun protocol =>
  (if (model.field "ports").isSome then stringView numbers "ports" 0 512 model else some "").bind
    fun rawPorts =>
  (booleanView numbers "bidirectional" false model).bind fun bidirectional =>
  (booleanView numbers "enabled" true model).bind fun enabled =>
    some {
      id, name := String.ofList (strip name.toList), sources, destinations, protocol
      ports := (if model.fieldValid "ports" then rawPorts else "").toList, bidirectional, enabled }

theorem draft_reads : Reads (draft numbers) (draftView numbers) := by
  refine .bind (string_reads numbers "id" 1 64) fun id =>
    .bind (string_reads numbers "name" 1 80) fun name => ?_
  refine .guarded .addAt ?_
  refine .bind (selectors_reads numbers "sources") fun sources =>
    .bind (selectors_reads numbers "destinations") fun destinations =>
      .bind (literal_reads "protocol" "tcp" _) fun protocol => ?_
  refine .branched (string_reads numbers "ports" 0 512) (.pure "") fun rawPorts => ?_
  exact .look (fun seen model =>
      (booleanView numbers "bidirectional" false model).bind fun bidirectional =>
        (booleanView numbers "enabled" true model).bind fun enabled => some ({
          id, name := String.ofList (strip name.toList), sources, destinations, protocol
          ports := (if seen.fieldValid "ports" then rawPorts else "").toList, bidirectional
          enabled } : Rule))
    fun seen => .bind (boolean_reads numbers "bidirectional" false) fun bidirectional =>
      .bind (boolean_reads numbers "enabled" true) fun enabled => .pure _

/-- The ports in their normal form. -/
def normalView (protocol : String) (rawPorts : List Char) : Option (List Char) :=
  (ports nd rawPorts).toOption.bind fun ranges =>
    if !ranges.isEmpty && protocol != "tcp" && protocol != "udp" then none
    else some (formatPorts ranges)

theorem normalize_reads (protocol : String) (rawPorts : List Char) :
    Reads (normalize nd protocol rawPorts) fun _ => normalView nd protocol rawPorts := by
  unfold normalize normalView
  cases ports nd rawPorts with
  | error message => exact .fail .addAt _
  | ok ranges => exact .ite (.fail .addAt _) (.pure _)

def ruleView (model : Model) : Option Rule :=
  (draftView numbers model).bind fun drafted =>
    (normalView nd drafted.protocol drafted.ports).bind fun ports => some { drafted with ports }

theorem rule_reads : Reads (rule numbers nd) (ruleView numbers nd) :=
  .bind (draft_reads numbers) fun drafted =>
    .bind (normalize_reads nd drafted.protocol drafted.ports) fun _ => .pure _

/-- A model starts without errors. -/
theorem model_ok {raw start} (started : model raw = .ok start) :
    start.errors = [] := by
  unfold model Model.new at started
  split at started
  · rw [← Except.ok.inj started]
  · cases started
  · cases started

/-- A value is parsed as what its fields are read as. -/
theorem parseRule_eq_ok {raw parsed} :
    parseRule numbers nd raw = .ok parsed ↔
      ∃ start, model raw = .ok start ∧ ruleView numbers nd start = some parsed := by
  unfold parseRule
  cases started : model raw with
  | error message => simp [bind, Except.bind]
  | ok start =>
      simp only [bind, Except.bind, Except.ok.injEq, exists_eq_left']
      rcases rule_reads numbers nd start with ⟨found, read, run⟩ | ⟨none, found, error, more, run⟩
      · rw [run, read]
        simp [Model.finish, model_ok started, pure, Except.pure]
      · rw [run, none]
        simp [Model.finish]

end Views

theorem strip_strip (text : List Char) : strip (strip text) = strip text := Text.ends_ends _ text

theorem strip_length_le (text : List Char) : (strip text).length ≤ text.length :=
  (List.rdropWhile_prefix _ _).length_le.trans (List.dropWhile_suffix _).length_le

/-- A selector that passes its checks. -/
structure Selector.Normal (selector : Selector) : Prop where
  kind : selector.kind ∈ ["machine", "user", "group", "all"]
  id : 1 ≤ selector.id.length ∧ selector.id.length ≤ 64
  all : selector.kind = "all" → selector.id = "machines"

/-- A rule that passes the checks of its fields other than the ports. -/
structure Rule.Shaped (rule : Rule) : Prop where
  id : 1 ≤ rule.id.length ∧ rule.id.length ≤ 64
  name : 1 ≤ rule.name.length ∧ rule.name.length ≤ 80
  stripped : strip rule.name.toList = rule.name.toList
  sources : (1 ≤ rule.sources.length ∧ rule.sources.length ≤ 32) ∧ ∀ s ∈ rule.sources, s.Normal
  destinations : (1 ≤ rule.destinations.length ∧ rule.destinations.length ≤ 32) ∧
    ∀ s ∈ rule.destinations, s.Normal
  protocol : rule.protocol ∈ ["any", "tcp", "udp", "icmp"]

/-- A rule whose ports are in their normal form, however long that is. -/
structure Rule.Normal (nd : Char → Bool) (rule : Rule) : Prop extends rule.Shaped where
  ports : ∃ ranges, rule.ports = formatPorts ranges ∧ PrivatePolicy.ports nd rule.ports = .ok ranges ∧
    (ranges ≠ [] → rule.protocol = "tcp" ∨ rule.protocol = "udp")

section Fresh

variable {numbers : Numbers} {nd : Char → Bool} {model : Model}

theorem fieldValid_fresh (fresh : model.errors = []) (key : String) : model.fieldValid key = true := by
  simp [Model.fieldValid, fresh]

theorem stringView_eq_some (fresh : model.errors = []) {key text min max} :
    stringView numbers key min max model = some text ↔
      (model.field key).bind (Model.stringOf numbers) = some text ∧
        min ≤ text.length ∧ text.length ≤ max := by
  simp only [stringView, fieldValid_fresh fresh, true_and, Option.bind_eq_some_iff]
  constructor
  · rintro ⟨value, found, kept⟩
    split at kept
    · cases kept
    · rename_i fits
      cases kept
      exact ⟨found, not_not.mp fits⟩
  · rintro ⟨found, fits⟩
    exact ⟨text, found, if_neg (not_not.mpr fits)⟩

theorem selectorView_normal (fresh : model.errors = []) {selector}
    (read : selectorView numbers model = some selector) : selector.Normal := by
  obtain ⟨kind, known, read⟩ := Option.bind_eq_some_iff.mp read
  obtain ⟨id, named, read⟩ := Option.bind_eq_some_iff.mp read
  obtain ⟨value, _, known⟩ := Option.bind_eq_some_iff.mp known
  rw [stringView_eq_some fresh] at named
  rw [fieldValid_fresh fresh] at read
  split at read
  · cases read
  · rename_i allowed
    cases read
    refine ⟨?_, named.2, ?_⟩
    · simpa using (Option.filter_eq_some_iff.mp known).2
    · simpa using allowed

theorem selectorsField_normal (fresh : model.errors = []) {key found}
    (read : selectorsField numbers key model = some found) :
    (1 ≤ found.length ∧ found.length ≤ 32) ∧ ∀ selector ∈ found, selector.Normal := by
  obtain ⟨values, _, read⟩ := Option.bind_eq_some_iff.mp read
  rw [fieldValid_fresh fresh, if_neg (by simp)] at read
  split at read
  · cases read
  · rename_i sized
    refine ⟨?_, fun selector member => ?_⟩
    · have length := (forall₂_of_mapM read).length_eq
      rw [List.length_map, List.length_zipIdx] at length
      omega
    · obtain ⟨child, _, read⟩ := mem_of_mapM read member
      split at read
      · exact selectorView_normal ‹_› read
      · cases read

theorem normalView_eq_some {protocol rawPorts text} :
    normalView nd protocol rawPorts = some text ↔ ∃ ranges, ports nd rawPorts = .ok ranges ∧
      (ranges ≠ [] → protocol = "tcp" ∨ protocol = "udp") ∧ text = formatPorts ranges := by
  unfold normalView
  cases ports nd rawPorts with
  | error message => simp [Except.toOption]
  | ok ranges =>
      simp only [Except.toOption, Option.bind_some, Except.ok.injEq, exists_eq_left']
      split
      · rename_i forbidden
        simp only [Bool.and_eq_true, Bool.not_eq_true', List.isEmpty_eq_false_iff, bne_iff_ne] at forbidden
        simp only [reduceCtorEq, false_iff, not_and]
        intro allowed
        rcases allowed forbidden.1.1 with tcp | udp
        · exact absurd tcp forbidden.1.2
        · exact absurd udp forbidden.2
      · rename_i allowed
        simp only [Bool.and_eq_true, Bool.not_eq_true', List.isEmpty_eq_false_iff, bne_iff_ne,
          not_and, not_not] at allowed
        rw [Option.some.injEq, eq_comm]
        refine (and_iff_right fun nonempty => ?_).symm
        by_cases tcp : protocol = "tcp"
        · exact .inl tcp
        · exact .inr (allowed ⟨nonempty, tcp⟩)

/-- The ports of a value as they were written. -/
def fieldPorts (numbers : Numbers) (model : Model) : List Char :=
  (((model.field "ports").bind (Model.stringOf numbers)).getD "").toList

/-- What is read as a rule is in normal form, with the ports that were written. -/
theorem ruleView_normal (fresh : model.errors = []) {found}
    (read : ruleView numbers nd model = some found) :
    found.Normal nd ∧ ∃ ranges, ports nd (fieldPorts numbers model) = .ok ranges ∧
      found.ports = formatPorts ranges := by
  obtain ⟨drafted, drafting, read⟩ := Option.bind_eq_some_iff.mp read
  obtain ⟨text, normal, read⟩ := Option.bind_eq_some_iff.mp read
  obtain ⟨ranges, parsed, allowed, rfl⟩ := normalView_eq_some.mp normal
  cases read
  obtain ⟨id, named, drafting⟩ := Option.bind_eq_some_iff.mp drafting
  obtain ⟨name, titled, drafting⟩ := Option.bind_eq_some_iff.mp drafting
  obtain ⟨_, nonblank, drafting⟩ := Option.bind_eq_some_iff.mp drafting
  obtain ⟨sources, fromThese, drafting⟩ := Option.bind_eq_some_iff.mp drafting
  obtain ⟨destinations, intoThese, drafting⟩ := Option.bind_eq_some_iff.mp drafting
  obtain ⟨protocol, spoken, drafting⟩ := Option.bind_eq_some_iff.mp drafting
  obtain ⟨rawPorts, written, drafting⟩ := Option.bind_eq_some_iff.mp drafting
  obtain ⟨bidirectional, _, drafting⟩ := Option.bind_eq_some_iff.mp drafting
  obtain ⟨enabled, _, drafting⟩ := Option.bind_eq_some_iff.mp drafting
  cases drafting
  rw [fieldValid_fresh fresh, if_pos rfl] at parsed
  have writtenPorts : fieldPorts numbers model = rawPorts.toList := by
    unfold fieldPorts
    split at written
    · rw [((stringView_eq_some fresh).mp written).1, Option.getD_some]
    · rename_i missing
      rw [Option.not_isSome_iff_eq_none.mp missing, ← Option.some.inj written]
      rfl
  refine ⟨⟨⟨((stringView_eq_some fresh).mp named).2, ?_, ?_, selectorsField_normal fresh fromThese,
    selectorsField_normal fresh intoThese, ?_⟩, ranges, rfl, ports_formatPorts parsed, allowed⟩,
    ranges, by rw [writtenPorts]; exact parsed, rfl⟩
  · have long := strip_length_le name.toList
    have limit := ((stringView_eq_some fresh).mp titled).2
    rw [fieldValid_fresh fresh, Bool.true_and] at nonblank
    split at nonblank
    · cases nonblank
    · rename_i nonempty
      have positive := List.length_pos_iff.mpr (by simpa using nonempty)
      rw [String.length_toList] at long
      rw [String.length_ofList]
      omega
  · rw [String.toList_ofList, strip_strip]
  · cases there : model.field "protocol" with
    | none =>
        rw [there] at spoken
        rw [← Option.some.inj spoken]
        exact List.mem_cons_of_mem _ List.mem_cons_self
    | some value =>
        rw [there] at spoken
        simpa using (Option.filter_eq_some_iff.mp spoken).2

end Fresh

section Saved

variable {numbers : Numbers} {nd : Char → Bool}

/-- A selector as it is stored. -/
def Selector.toValue (selector : Selector) : Value :=
  .object [("kind", .string selector.kind), ("id", .string selector.id)]

def Rule.fields (rule : Rule) : Fields :=
  [("id", .string rule.id), ("name", .string rule.name),
    ("sources", .array (rule.sources.map Selector.toValue)),
    ("destinations", .array (rule.destinations.map Selector.toValue)),
    ("protocol", .string rule.protocol), ("ports", .string (String.ofList rule.ports)),
    ("bidirectional", .bool rule.bidirectional), ("enabled", .bool rule.enabled)]

/-- A rule as it is stored. -/
def Rule.toValue (rule : Rule) : Value := .object rule.fields

theorem selectorView_toValue {selector : Selector} (normal : selector.Normal) (location : List Loc) :
    selectorView numbers
      ⟨[("kind", .string selector.kind), ("id", .string selector.id)], location, []⟩ = some selector := by
  have named : stringView numbers "id" 1 64
      ⟨[("kind", .string selector.kind), ("id", .string selector.id)], location, []⟩ = some selector.id :=
    (stringView_eq_some rfl).mpr ⟨rfl, normal.id⟩
  have known : (some selector.kind).filter ["machine", "user", "group", "all"].contains =
      some selector.kind := Option.filter_some_pos (by simpa using normal.kind)
  change ((some selector.kind).filter _).bind _ = _
  rw [known, Option.bind_some, selectorRest, named, Option.bind_some]
  exact if_neg (by simpa [Model.fieldValid] using normal.all)

theorem selectorsView_toValue {selectors} (normal : ∀ s ∈ selectors, s.Normal) (key : String)
    (location : List Loc) (start : Nat) :
    selectorsView numbers (((selectors.map Selector.toValue).zipIdx start).map fun (value, index) =>
      child key location value index) = some selectors := by
  induction selectors generalizing start with
  | nil => rfl
  | cons selector rest ih =>
      rw [List.forall_mem_cons] at normal
      have later := ih normal.2 (start + 1)
      rw [selectorsView] at later ⊢
      have first : (if (child key location selector.toValue start).errors = [] then
          selectorView numbers (child key location selector.toValue start) else none) = some selector :=
        (if_pos rfl).trans (selectorView_toValue normal.1 _)
      rw [List.map_cons, List.zipIdx_cons, List.map_cons, List.mapM_cons, later]
      rw [first]
      rfl

theorem selectorsField_toValue {key} {selectors : List Selector} {model : Model}
    (there : model.field key = some (.array (selectors.map Selector.toValue)))
    (fresh : model.errors = []) (sized : 1 ≤ selectors.length ∧ selectors.length ≤ 32)
    (normal : ∀ s ∈ selectors, s.Normal) : selectorsField numbers key model = some selectors := by
  unfold selectorsField
  rw [there, Option.bind_some, Option.bind_some, fieldValid_fresh fresh, if_neg (by simp),
    if_neg (by rw [List.length_map]; omega)]
  exact selectorsView_toValue normal key model.location 0

/-- The fields of a stored rule are read as they are, up to the length of its ports. -/
theorem draftView_fields {rule : Rule} (shaped : rule.Shaped) (location : List Loc) :
    draftView numbers ⟨rule.fields, location, []⟩ =
      if rule.ports.length ≤ 512 then some rule else none := by
  set model : Model := ⟨rule.fields, location, []⟩ with shape
  have id : stringView numbers "id" 1 64 model = some rule.id :=
    (stringView_eq_some rfl).mpr ⟨rfl, shaped.id⟩
  have name : stringView numbers "name" 1 80 model = some rule.name :=
    (stringView_eq_some rfl).mpr ⟨rfl, shaped.name⟩
  have nonblank : (model.fieldValid "name" && (strip rule.name.toList).isEmpty) = false := by
    have nonempty : rule.name.toList ≠ [] := by
      rw [← List.length_pos_iff, String.length_toList]
      exact shaped.name.1
    simp [shaped.stripped, nonempty]
  have sources : selectorsField numbers "sources" model = some rule.sources :=
    selectorsField_toValue rfl rfl shaped.sources.1 shaped.sources.2
  have destinations : selectorsField numbers "destinations" model = some rule.destinations :=
    selectorsField_toValue rfl rfl shaped.destinations.1 shaped.destinations.2
  have protocol : (some rule.protocol).filter ["any", "tcp", "udp", "icmp"].contains =
      some rule.protocol := Option.filter_some_pos (by simpa using shaped.protocol)
  have written : stringView numbers "ports" 0 512 model =
      if rule.ports.length ≤ 512 then some (String.ofList rule.ports) else none := by
    change (some (String.ofList rule.ports)).bind _ = _
    rw [Option.bind_some, fieldValid_fresh rfl, String.length_ofList]
    by_cases fits : rule.ports.length ≤ 512
    · rw [if_neg (by simp [fits]), if_pos fits]
    · rw [if_pos (by simp [fits]), if_neg fits]
  have bidirectional : booleanView numbers "bidirectional" false model = some rule.bidirectional := rfl
  have enabled : booleanView numbers "enabled" true model = some rule.enabled := rfl
  have portsThere : (model.field "ports").isSome = true := rfl
  have protocolThere : model.field "protocol" = some (.string rule.protocol) := rfl
  have portsValid : model.fieldValid "ports" = true := fieldValid_fresh rfl "ports"
  unfold draftView
  simp only [id, name, nonblank, sources, destinations, written, bidirectional, enabled, portsThere,
    protocolThere, portsValid, protocol, Value.asStr, Option.bind_some, Bool.false_eq_true, if_false, if_true]
  split
  · rw [Option.bind_some, String.toList_ofList, shaped.stripped, String.ofList_toList]
  · rfl

/-- A stored rule is read as it is, unless its ports are too long. -/
theorem ruleView_fields {rule : Rule} (normal : rule.Normal nd) (location : List Loc) :
    ruleView numbers nd ⟨rule.fields, location, []⟩ =
      if rule.ports.length ≤ 512 then some rule else none := by
  obtain ⟨ranges, written, parsed, allowed⟩ := normal.ports
  have again : normalView nd rule.protocol rule.ports = some rule.ports :=
    normalView_eq_some.mpr ⟨ranges, parsed, allowed, written⟩
  rw [ruleView, draftView_fields normal.toShaped]
  split
  · rw [Option.bind_some, again, Option.bind_some]
  · rfl

/-- Parsing a rule again gives it back, unless its ports are too long. -/
theorem parseRule_toValue {rule : Rule} (normal : rule.Normal nd) (parsed : Rule) :
    parseRule numbers nd rule.toValue = .ok parsed ↔ parsed = rule ∧ rule.ports.length ≤ 512 := by
  have started : model rule.toValue = .ok ⟨rule.fields, [.key "body"], []⟩ := rfl
  rw [parseRule_eq_ok]
  simp only [started, Except.ok.injEq, exists_eq_left', ruleView_fields normal]
  by_cases fits : rule.ports.length ≤ 512
  · simp [fits, eq_comm]
  · simp [fits]

end Saved

section Denotation

variable (nd : Char → Bool)

/-- The words that stand for every port. -/
def Everything (text : List Char) : Prop :=
  String.ofList (Text.toAsciiLowercase (strip text)) ∈ ["", "any", "all", "*"]

instance (text : List Char) : Decidable (Everything text) :=
  inferInstanceAs (Decidable (_ ∈ _))

/-- The first and the last number of one item. -/
def listed (item : List Char) : Option (Nat × Nat) :=
  match item.splitOn '-' with
  | [single] => (number nd single).map fun n => (n, n)
  | [first, last] => (number nd first).bind fun start => (number nd last).map fun stop => (start, stop)
  | _ => none

/-- The distinct ranges that a text lists. -/
def listing (text : List Char) : List (Nat × Nat) :=
  (((strip text).splitOn ',').filterMap (listed nd)).dedup

/-- The ports that a text stands for. -/
def Denotes (text : List Char) (port : Nat) : Prop :=
  Everything text ∨ ∃ range ∈ listing nd text, range.1 ≤ port ∧ port ≤ range.2

/-- The ports that ranges cover; without a range every port is covered. -/
def Covers (ranges : List Port) (port : Nat) : Prop :=
  ranges = [] ∨ ranges.any (inRange port) = true

/-- How many characters one range takes. -/
def rangeWidth (range : Nat × Nat) : Nat :=
  if range.1 = range.2 then (Nat.digits 10 range.1).length
  else (Nat.digits 10 range.1).length + 1 + (Nat.digits 10 range.2).length

/-- The distinct ranges of a text fit into a rule, with two characters between each two. -/
def Fits (text : List Char) : Prop :=
  Everything text ∨ ((listing nd text).map rangeWidth).sum + 2 * ((listing nd text).length - 1) ≤ 512

instance (text : List Char) : Decidable (Fits nd text) := inferInstanceAs (Decidable (_ ∨ _))

variable {nd} {ranges : List Port} {text : List Char}

def Port.pair (port : Port) : Nat × Nat := (port.start.toNat, port.stop.toNat)

theorem Port.pair_injective : Function.Injective Port.pair := by
  rintro ⟨_, _⟩ ⟨_, _⟩ same
  obtain ⟨start, stop⟩ := Prod.mk.inj same
  exact congrArg₂ Port.mk (UInt16.toNat_inj.mp start) (UInt16.toNat_inj.mp stop)

theorem portItem_listed {item port} (read : portItem nd item = .ok port) :
    listed nd item = some port.pair := by
  simp only [portItem] at read
  unfold listed
  split at read
  · rename_i start first
    split at read
    · rename_i stop last
      split at read
      · cases read
      · rename_i short
        split at read
        · cases read
        · rename_i ordered
          cases read
          have pair : Port.pair ⟨UInt16.ofNat start, UInt16.ofNat stop⟩ = (start, stop) := by
            simp only [Port.pair, UInt16.toNat_ofNat', Prod.mk.injEq]
            omega
          rw [pair]
          rcases shape : item.splitOn '-' with _ | ⟨opening, _ | ⟨closing, _ | ⟨third, more⟩⟩⟩
          · exact absurd shape (List.splitOn_ne_nil _ _)
          · simp only [shape, List.getD_cons_zero, List.getElem?_cons_succ, List.getElem?_nil, Option.map_none,
              Option.getD_none, Option.some.injEq] at first last
            simp only [first, last, Option.map_some]
          · simp only [shape, List.getD_cons_zero, List.getElem?_cons_succ, List.getElem?_cons_zero,
              Option.map_some, Option.getD_some] at first last
            simp only [first, last, Option.bind_some, Option.map_some]
          · simp [shape] at short
    · cases read
  · cases read

theorem mapM_listed {items : List (List Char)} {result}
    (read : items.mapM (portItem nd) = .ok result) :
    items.filterMap (listed nd) = result.map Port.pair := by
  induction items generalizing result with
  | nil =>
      cases read
      rfl
  | cons item rest ih =>
      rw [List.mapM_cons] at read
      obtain ⟨port, head, read⟩ := bind_eq_ok.mp read
      obtain ⟨others, tail, read⟩ := bind_eq_ok.mp read
      obtain rfl := pure_eq_ok.mp read
      rw [List.filterMap_cons_some (portItem_listed head), ih tail, List.map_cons]

theorem render_length {n} (positive : 0 < n) :
    (Decimal.render n).length = (Nat.digits 10 n).length := by
  rw [Decimal.render, if_neg positive.ne', List.length_reverse, List.length_map]

theorem formatPort_length {port : Port} (valid : port.Valid) :
    (formatPort port).length = rangeWidth port.pair := by
  have start := render_length valid.1
  have stop := render_length (valid.1.trans_le valid.2)
  unfold formatPort rangeWidth
  by_cases single : port.start = port.stop
  · have pair : port.pair.1 = port.pair.2 := congrArg UInt16.toNat single
    rw [if_pos single, if_pos pair, start]
    rfl
  · have pair : port.pair.1 ≠ port.pair.2 := fun same => single (UInt16.toNat_inj.mp same)
    rw [if_neg single, if_neg pair, List.length_append, List.length_cons, start, stop, Nat.add_right_comm]
    rfl

/-- The written ranges, with a comma and a blank between each two. -/
theorem formatPorts_length (valid : ∀ port ∈ ranges, port.Valid) :
    (formatPorts ranges).length =
      ((ranges.map Port.pair).map rangeWidth).sum + 2 * (ranges.length - 1) := by
  cases ranges with
  | nil => rfl
  | cons first rest =>
      rw [List.forall_mem_cons] at valid
      have later : (rest.flatMap fun port => ',' :: ' ' :: formatPort port).length =
          ((rest.map Port.pair).map rangeWidth).sum + 2 * rest.length := by
        induction rest with
        | nil => rfl
        | cons port rest ih =>
            rw [List.forall_mem_cons] at valid
            have others := ih ⟨valid.1, valid.2.2⟩
            have this := formatPort_length valid.2.1
            simp only [List.flatMap_cons, List.length_append, List.length_cons, List.map_cons, List.sum_cons]
            omega
      have head := formatPort_length valid.1
      rw [formatPorts_cons, List.length_append, later, head]
      simp only [List.map_cons, List.sum_cons, List.length_cons]
      omega

/-- A text that is accepted is a word for every port, or lists the ranges that are kept. -/
theorem ports_listing (parsed : ports nd text = .ok ranges) :
    (Everything text ∧ ranges = []) ∨
      (¬Everything text ∧ ranges ≠ [] ∧ (ranges.map Port.pair).Perm (listing nd text)) := by
  simp only [ports] at parsed
  split at parsed
  · rename_i word
    exact .inl ⟨by simpa [Everything] using word, (Except.ok.inj parsed).symm⟩
  · rename_i word
    obtain ⟨result, read, parsed⟩ := bind_eq_ok.mp parsed
    split at parsed
    · cases parsed
    · obtain rfl := pure_eq_ok.mp parsed
      refine .inr ⟨by simpa [Everything] using word, ?_, ?_⟩
      · obtain ⟨item, rest, shape⟩ := List.exists_cons_of_ne_nil (List.splitOn_ne_nil ',' (strip text))
        rw [shape] at read
        obtain ⟨port, first⟩ := mapM_ok_all read item List.mem_cons_self
        have member := (mem_mapM_ok_iff read).mpr ⟨item, List.mem_cons_self, first⟩
        exact List.ne_nil_of_mem (Sorted.mem_arrange.mpr member)
      · rw [listing, mapM_listed read, List.dedup_map_of_injective Port.pair_injective]
        refine List.Perm.map _ ((List.perm_ext_iff_of_nodup (Sorted.arrange_nodup _) (List.nodup_dedup _)).mpr ?_)
        simp

theorem ports_fits (parsed : ports nd text = .ok ranges) :
    (formatPorts ranges).length ≤ 512 ↔ Fits nd text := by
  rcases ports_listing parsed with ⟨word, rfl⟩ | ⟨noWord, _, same⟩
  · exact iff_of_true (by decide) (.inl word)
  · rw [formatPorts_length (ports_ok parsed).2.2, (same.map rangeWidth).sum_eq, Fits, or_iff_right noWord,
      ← same.length_eq, List.length_map]

theorem ports_covers (parsed : ports nd text = .ok ranges) (port : Nat) :
    Covers ranges port ↔ Denotes nd text port := by
  rcases ports_listing parsed with ⟨word, rfl⟩ | ⟨noWord, nonempty, same⟩
  · exact iff_of_true (.inl rfl) (.inl word)
  · rw [Covers, or_iff_right nonempty, Denotes, or_iff_right noWord]
    simp only [← same.mem_iff, List.any_eq_true, inRange, Bool.and_eq_true, decide_eq_true_eq, Nat.cast_le,
      List.mem_map, exists_exists_and_eq_and, Port.pair]

end Denotation

section Kept

variable {numbers : Numbers} {nd : Char → Bool} {raw : Value}

/-- The ports as they were sent. -/
def rawPorts (numbers : Numbers) (raw : Value) : List Char :=
  ((((dictionary raw).bind fun fields => fields.lookup "ports").bind (Model.stringOf numbers)).getD "").toList

theorem model_rawPorts {start} (started : model raw = .ok start) :
    fieldPorts numbers start = rawPorts numbers raw := by
  unfold model at started
  unfold rawPorts fieldPorts
  cases found : dictionary raw with
  | none =>
      rw [found] at started
      cases raw with
      | object fields => cases found
      | _ => cases started
  | some fields =>
      rw [found] at started
      cases started
      rfl

theorem parseRule_normal {rule} (parsed : parseRule numbers nd raw = .ok rule) :
    rule.Normal nd ∧ (rule.ports.length ≤ 512 ↔ Fits nd (rawPorts numbers raw)) := by
  obtain ⟨start, started, read⟩ := (parseRule_eq_ok numbers nd).mp parsed
  obtain ⟨normal, ranges, accepted, written⟩ := ruleView_normal (model_ok started) read
  rw [model_rawPorts started] at accepted
  exact ⟨normal, written ▸ ports_fits accepted⟩

theorem parseRule_again {rule} (parsed : parseRule numbers nd raw = .ok rule) :
    parseRule numbers nd rule.toValue = .ok rule ↔ Fits nd (rawPorts numbers raw) := by
  obtain ⟨normal, fits⟩ := parseRule_normal parsed
  rw [parseRule_toValue normal, and_iff_right rfl, fits]

theorem toOption_parseRule {rule : Rule} (normal : rule.Normal nd) :
    (parseRule numbers nd rule.toValue).toOption = if rule.ports.length ≤ 512 then some rule else none := by
  have again := @parseRule_toValue numbers nd rule normal
  cases result : parseRule numbers nd rule.toValue with
  | error message =>
      have long : ¬rule.ports.length ≤ 512 := fun fits => by
        have read := (again rule).mpr ⟨rfl, fits⟩
        cases result.symm.trans read
      rw [if_neg long]
      rfl
  | ok parsed =>
      obtain ⟨rfl, fits⟩ := (again parsed).mp result
      rw [if_pos fits]
      rfl

/-- Which rules of a book survive being parsed again. -/
theorem filterMap_toValue {raws saved}
    (accepted : List.Forall₂ (fun raw rule => parseRule numbers nd raw = .ok rule) raws saved) :
    ((saved.map Rule.toValue).filterMap fun raw => (parseRule numbers nd raw).toOption) = saved ↔
      ∀ raw ∈ raws, Fits nd (rawPorts numbers raw) := by
  induction accepted with
  | nil => simp
  | @cons raw rule raws saved parsed _ ih =>
      obtain ⟨normal, fits⟩ := parseRule_normal parsed
      rw [List.map_cons, List.forall_mem_cons, ← ih, ← fits]
      by_cases short : rule.ports.length ≤ 512
      · have kept := (@toOption_parseRule numbers nd rule normal).trans (if_pos short)
        simp only [List.filterMap_cons, kept, List.cons.injEq, true_and, short]
      · have dropped := (@toOption_parseRule numbers nd rule normal).trans (if_neg short)
        simp only [List.filterMap_cons, dropped]
        refine iff_of_false (fun same => ?_) fun both => short both.1
        -- what is dropped does not come back
        have fewer := List.length_filterMap_le (fun raw => (parseRule numbers nd raw).toOption)
          (saved.map Rule.toValue)
        rw [same, List.length_map, List.length_cons] at fewer
        omega

/-- A book that is stored in normal form keeps its rules exactly when the ports of each of
    them fit in a rule once they are written out. -/
theorem saved_rules_stay_when_they_fit (numbers : Numbers) (nd : Char → Bool) {raws : List Value}
    {saved : List Rule}
    (accepted : List.Forall₂ (fun raw rule => parseRule numbers nd raw = .ok rule) raws saved)
    {book : Value} (stored : (book.at_ "rules").items = saved.map Rule.toValue) :
    (rules numbers nd book = saved ↔ ∀ raw ∈ raws, Fits nd (rawPorts numbers raw)) ∧
      (∀ raw rule, parseRule numbers nd raw = .ok rule →
        (parseRule numbers nd rule.toValue = .ok rule ↔ Fits nd (rawPorts numbers raw))) ∧
      ∀ text ranges, ports nd text = .ok ranges →
        ports nd (formatPorts ranges) = .ok ranges ∧ ∀ port, Covers ranges port ↔ Denotes nd text port := by
  refine ⟨?_, fun raw rule parsed => parseRule_again parsed, fun text ranges parsed =>
    ⟨ports_formatPorts parsed, ports_covers parsed⟩⟩
  rw [rules, stored]
  exact filterMap_toValue accepted

theorem ok_of_toOption {ε α : Type} {result : Except ε α} {value}
    (found : result.toOption = some value) : result = .ok value := by
  cases result with
  | error message => cases found
  | ok other => exact congrArg Except.ok (Option.some.inj found)

/-- A rule for all machines. -/
def portRule (ports : List Char) : Rule :=
  ⟨"r", "Rule", [⟨"all", "machines"⟩], [⟨"all", "machines"⟩], "tcp", ports, false, true⟩

theorem portRule_shaped (ports : List Char) : (portRule ports).Shaped := by
  have every : (⟨"all", "machines"⟩ : Selector).Normal := ⟨by decide, by decide, fun _ => rfl⟩
  have machines : ∀ s ∈ [(⟨"all", "machines"⟩ : Selector)], s.Normal := fun s member =>
    List.mem_singleton.mp member ▸ every
  have sized : 1 ≤ [(⟨"all", "machines"⟩ : Selector)].length ∧
      [(⟨"all", "machines"⟩ : Selector)].length ≤ 32 := by decide
  have id : 1 ≤ "r".length ∧ "r".length ≤ 64 := by decide
  have name : 1 ≤ "Rule".length ∧ "Rule".length ≤ 80 := by decide
  have stripped : strip "Rule".toList = "Rule".toList := by decide
  have protocol : "tcp" ∈ ["any", "tcp", "udp", "icmp"] := by decide
  exact ⟨id, name, stripped, ⟨sized, machines⟩, ⟨sized, machines⟩, protocol⟩

theorem parseRule_portRule {text : List Char} {ranges} (short : text.length ≤ 512)
    (parsed : ports nd text = .ok ranges) :
    parseRule numbers nd (portRule text).toValue = .ok (portRule (formatPorts ranges)) := by
  refine (parseRule_eq_ok numbers nd).mpr ⟨_, rfl, ?_⟩
  have normal : normalView nd "tcp" text = some (formatPorts ranges) :=
    normalView_eq_some.mpr ⟨ranges, parsed, fun _ => .inl rfl, rfl⟩
  rw [ruleView, draftView_fields (portRule_shaped text),
    if_pos (show (portRule text).ports.length ≤ 512 from short), Option.bind_some]
  change (normalView nd "tcp" text).bind _ = _
  rw [normal, Option.bind_some]
  rfl

def booked (saved : List Rule) : Value := .object [("rules", .array (saved.map Rule.toValue))]

theorem ssh_rule_stays :
    rules Numbers.plain (fun _ => false) (booked [portRule ['2', '2']]) = [portRule ['2', '2']] := by
  have sent : parseRule Numbers.plain (fun _ => false) (portRule ['2', '2']).toValue =
      .ok (portRule ['2', '2']) := @parseRule_portRule _ _ _ [⟨22, 22⟩] (by decide) rfl
  refine (saved_rules_stay_when_they_fit Numbers.plain (fun _ => false) (.cons sent .nil) rfl).1.mpr ?_
  intro raw member
  rw [List.mem_singleton.mp member]
  decide

/-- Forty ranges of five digits each. -/
def fortyRanges : List Port :=
  (List.range 40).map fun n => ⟨UInt16.ofNat (10000 + 2 * n), UInt16.ofNat (10001 + 2 * n)⟩

/-- The same ranges without blanks. -/
def fortyText : List Char := [','].intercalate (fortyRanges.map formatPort)

theorem forty_ranges_are_lost :
    ∃ raw rule, parseRule Numbers.plain (fun _ => false) raw = .ok rule ∧
      parseRule Numbers.plain (fun _ => false) rule.toValue ≠ .ok rule ∧
        rules Numbers.plain (fun _ => false) (booked [rule]) ≠ [rule] := by
  have parsed : ports (fun _ => false) fortyText = .ok fortyRanges :=
    ok_of_toOption (by decide +kernel)
  have sent : parseRule Numbers.plain (fun _ => false) (portRule fortyText).toValue =
      .ok (portRule (formatPorts fortyRanges)) := parseRule_portRule (by decide +kernel) parsed
  have long : ¬Fits (fun _ => false) (rawPorts Numbers.plain (portRule fortyText).toValue) := by
    have text : rawPorts Numbers.plain (portRule fortyText).toValue = fortyText := String.toList_ofList
    rw [text]
    decide +kernel
  refine ⟨_, _, sent, fun again => long ((parseRule_again sent).mp again), fun kept => ?_⟩
  exact long ((filterMap_toValue (.cons sent .nil)).mp kept _ List.mem_cons_self)

end Kept

end PortHub.Api.PrivatePolicy
