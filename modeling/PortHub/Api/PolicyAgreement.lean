import PortHub.Api.PrivatePolicy

/-! # The preview and the compiled grants

Ports that were normalised read back as the same ranges, so the rules that
`evaluate` and `compile` see carry valid ports. Every grant comes from a pair of
machines that one rule selects, which is what the preview looks for, and a
compilation for one machine is the full one restricted to its grants.
-/

namespace PortHub.Api.PrivatePolicy

section PortText

variable {nd : Char → Bool} {c : Char} {text : List Char} {port : Port}

theorem not_stripped (digit : c.isDigit = true) : isStripped c = false := by
  simp only [Char.isDigit, ge_iff_le, Bool.and_eq_true, decide_eq_true_eq, UInt32.le_iff_toNat_le]
    at digit
  have low : 48 ≤ c.toNat := digit.1
  have high : c.toNat ≤ 57 := digit.2
  simp only [isStripped, Text.isWhiteSpace, Bool.or_eq_false_iff, Bool.and_eq_false_iff,
    decide_eq_false_iff_not, beq_eq_false_iff_ne]
  omega

theorem strip_digits (digits : ∀ c ∈ text, c.isDigit = true) :
    strip text = text :=
  Text.ends_eq_self (fun c head => not_stripped (digits c (List.mem_of_mem_head? head)))
    (fun c last => not_stripped (digits c (List.mem_of_getLast? last)))

theorem strip_space_digits (digits : ∀ c ∈ text, c.isDigit = true) :
    strip (' ' :: text) = text := by
  have front : strip (' ' :: text) = strip text := by
    unfold strip
    rw [List.dropWhile_cons_of_pos (by decide)]
  rw [front, strip_digits digits]

theorem decimal_digit {d} (small : d < 10) : decimal nd (Decimal.digit d) = some d := by
  have code := Decimal.digit_toNat small
  rw [decimal, if_pos (Decimal.digit_isDigit small), code]
  congr 1
  omega

/-- Reading digits one by one accumulates their decimal value. -/
theorem foldlM_decimal (text : List Char) (digits : ∀ c ∈ text, ∃ d < 10, c = Decimal.digit d)
    (start : Nat) :
    text.foldlM (fun n c => (decimal nd c).map fun d => n * 10 + d) start =
      some (text.foldl (fun total c => total * 10 + (c.toNat - 48)) start) := by
  induction text generalizing start with
  | nil => rfl
  | cons c rest ih =>
      obtain ⟨d, small, rfl⟩ := digits c List.mem_cons_self
      have code := Decimal.digit_toNat small
      rw [List.foldlM_cons, decimal_digit small, Option.map_some, Option.bind_eq_bind,
        Option.bind_some, ih fun c member => digits c (List.mem_cons_of_mem _ member),
        List.foldl_cons]
      congr 3
      omega

/-- The text of a port is read as its number, with or without a space before it. -/
theorem number_render {n} (bounded : n < 100000) {part} (stripped : strip part = Decimal.render n) :
    number nd part = some n := by
  have length := Decimal.render_length_le (k := 5) (by decide) bounded
  have nonempty := List.length_pos_iff.mpr (Decimal.render_ne_nil n)
  simp only [number, stripped]
  rw [if_pos ⟨nonempty, length⟩, foldlM_decimal _ fun c => Decimal.mem_render]
  exact congrArg some (Decimal.value_render n)

/-- A range as `ports` returns it. -/
def Port.Valid (port : Port) : Prop := 0 < port.start.toNat ∧ port.start.toNat ≤ port.stop.toNat

theorem render_no_separator {n} : '-' ∉ Decimal.render n ∧ ',' ∉ Decimal.render n := by
  constructor <;> intro member <;> exact absurd (Decimal.render_isDigit member) (by decide)

/-- The parts of a formatted port, behind any text without a dash. -/
theorem splitOn_formatPort (port : Port) (front : List Char) (clear : '-' ∉ front) :
    (front ++ formatPort port).splitOn '-' =
      if port.start = port.stop then [front ++ Decimal.render port.start.toNat]
      else [front ++ Decimal.render port.start.toNat, Decimal.render port.stop.toNat] := by
  unfold formatPort
  split
  · have split := @List.splitOn_intercalate _ [front ++ Decimal.render port.start.toNat] _ _ '-'
      (by simp [clear, render_no_separator.1]) (by simp)
    simpa using split
  · have split := @List.splitOn_intercalate _
      [front ++ Decimal.render port.start.toNat, Decimal.render port.stop.toNat] _ _ '-'
      (by simp [clear, render_no_separator.1]) (by simp)
    simpa [List.intercalate] using split

theorem portItem_formatPort (valid : port.Valid) (front : List Char)
    (blank : front = [] ∨ front = [' ']) : portItem nd (front ++ formatPort port) = .ok port := by
  have digits (n : Nat) : ∀ c ∈ Decimal.render n, c.isDigit = true := fun c => Decimal.render_isDigit
  have small (n : UInt16) : n.toNat < 100000 := by
    have := n.toNat_lt
    omega
  have start : number nd (front ++ Decimal.render port.start.toNat) = some port.start.toNat := by
    rcases blank with rfl | rfl
    · exact number_render (small _) (strip_digits (digits _))
    · exact number_render (small _) (strip_space_digits (digits _))
  have stop : number nd (Decimal.render port.stop.toNat) = some port.stop.toNat :=
    number_render (small _) (strip_digits (digits _))
  have bounded := port.stop.toNat_lt
  have parts := splitOn_formatPort port front (by rcases blank with rfl | rfl <;> simp)
  obtain ⟨positive, ordered⟩ := valid
  have order : ¬(port.start.toNat = 0 ∨ port.stop.toNat < port.start.toNat ∨
      65535 < port.stop.toNat) := by omega
  unfold portItem
  rw [parts]
  split
  · rename_i same
    rw [same] at start
    have bounds : ¬(port.stop.toNat = 0 ∨ 65535 < port.stop.toNat) := by
      omega
    have whole : (⟨port.stop, port.stop⟩ : Port) = port := congrArg (Port.mk · port.stop) same.symm
    simpa [start, same, bounds, pure, Except.pure] using whole
  · simp [start, stop, order, pure, Except.pure]

theorem mapM_ok {α β : Type} {f : α → Except String β} {g : β → α} {items : List β}
    (each : ∀ item ∈ items, f (g item) = .ok item) : (items.map g).mapM f = .ok items := by
  induction items with
  | nil => rfl
  | cons item rest ih =>
      have tail := ih fun other member => each other (List.mem_cons_of_mem _ member)
      rw [List.map_cons, List.mapM_cons, each item List.mem_cons_self, tail]
      rfl

theorem portItem_valid {item} (read : portItem nd item = .ok port) :
    port.Valid := by
  simp only [portItem] at read
  split at read
  · split at read
    · split at read
      · cases read
      · split at read
        · cases read
        · rename_i ordered
          cases read
          simp only [Port.Valid, UInt16.toNat_ofNat']
          omega
    · cases read
  · cases read

/-- What `ports` returns is sorted, short and made of valid ranges. -/
theorem ports_ok {value ranges} (parsed : ports nd value = .ok ranges) :
    Sorted.arrange ranges = ranges ∧ ranges.length ≤ 64 ∧ ∀ port ∈ ranges, port.Valid := by
  simp only [ports] at parsed
  split at parsed
  · obtain rfl := Except.ok.inj parsed
    exact ⟨rfl, by simp, by simp⟩
  · cases read : (List.splitOn ',' (strip value)).mapM (portItem nd) with
    | error message =>
        rw [read] at parsed
        cases parsed
    | ok result =>
        rw [read] at parsed
        simp only [bind, Except.bind] at parsed
        split at parsed
        · cases parsed
        · rename_i few
          cases parsed
          refine ⟨Sorted.arrange_idem result, ?_, ?_⟩
          · have := Sorted.arrange_length_le result
            omega
          · intro port member
            obtain ⟨item, _, found⟩ := (mem_mapM_ok_iff read).mp (Sorted.mem_arrange.mp member)
            exact portItem_valid found

theorem intercalate_cons (between first : List Char) (rest : List (List Char)) :
    between.intercalate (first :: rest) = first ++ rest.flatMap (between ++ ·) := by
  induction rest generalizing first with
  | nil => simp [List.intercalate]
  | cons next rest ih =>
      have tail := ih next
      simp only [List.intercalate, List.intersperse_cons_cons, List.flatten_cons] at tail ⊢
      rw [tail]
      simp

theorem formatPort_head (head : (formatPort port).head? = some c) :
    c.isDigit = true := by
  have front : (formatPort port).head? = (Decimal.render port.start.toNat).head? := by
    unfold formatPort
    split
    · rfl
    · exact List.head?_append_of_ne_nil _ (Decimal.render_ne_nil _)
  rw [front] at head
  exact Decimal.render_isDigit (List.mem_of_mem_head? head)

theorem formatPort_ne_nil (port : Port) : formatPort port ≠ [] := by
  unfold formatPort
  split
  · exact Decimal.render_ne_nil _
  · simp

theorem formatPort_last (last : (formatPort port).getLast? = some c) :
    c.isDigit = true := by
  unfold formatPort at last
  split at last
  · exact Decimal.render_isDigit (List.mem_of_getLast? last)
  · rw [List.getLast?_append_of_ne_nil _ (by simp), List.getLast?_cons_of_ne_nil (Decimal.render_ne_nil _)]
      at last
    exact Decimal.render_isDigit (List.mem_of_getLast? last)

theorem formatPorts_cons (first : Port) (rest : List Port) : formatPorts (first :: rest) =
    formatPort first ++ rest.flatMap fun port => ',' :: ' ' :: formatPort port := by
  rw [formatPorts, List.map_cons, intercalate_cons, List.flatMap_map]
  rfl

/-- A nonempty list of ports starts and ends with a digit. -/
theorem strip_formatPorts (first : Port) (rest : List Port) :
    strip (formatPorts (first :: rest)) = formatPorts (first :: rest) := by
  rw [formatPorts_cons]
  apply Text.ends_eq_self
  · intro c head
    rw [List.head?_append_of_ne_nil _ (formatPort_ne_nil first)] at head
    exact not_stripped (formatPort_head head)
  · intro c last
    rcases List.eq_nil_or_concat rest with rfl | ⟨before, port, rfl⟩
    · rw [List.flatMap_nil, List.append_nil] at last
      exact not_stripped (formatPort_last last)
    · have whole : (before.concat port).flatMap (fun port => ',' :: ' ' :: formatPort port) =
          before.flatMap (fun port => ',' :: ' ' :: formatPort port) ++ [',', ' '] ++ formatPort port := by
        simp
      rw [whole, ← List.append_assoc, List.getLast?_append_of_ne_nil _ (formatPort_ne_nil port)] at last
      exact not_stripped (formatPort_last last)

theorem splitOn_formatPorts (first : Port) (rest : List Port) :
    (formatPorts (first :: rest)).splitOn ',' =
      formatPort first :: rest.map fun port => ' ' :: formatPort port := by
  have whole : formatPorts (first :: rest) =
      [','].intercalate (formatPort first :: rest.map fun port => ' ' :: formatPort port) := by
    rw [formatPorts_cons, intercalate_cons, List.flatMap_map]
    rfl
  have clear (port : Port) : ',' ∉ formatPort port := by
    unfold formatPort
    split <;> simp [render_no_separator.2]
  rw [whole, List.splitOn_intercalate _ ?_ (by simp)]
  intro part member
  rcases List.mem_cons.mp member with rfl | later
  · exact clear first
  · obtain ⟨port, _, rfl⟩ := List.mem_map.mp later
    simp [clear port]

theorem toLower_isDigit (digit : c.isDigit = true) : c.toLower.isDigit = true := by
  have same : c.toLower = c := by
    simp only [Char.isDigit, Bool.and_eq_true, decide_eq_true_eq, UInt32.le_iff_toNat_le] at digit
    unfold Char.toLower
    rw [dif_neg]
    simp only [UInt32.le_iff_toNat_le, not_and]
    intro upper
    have high : c.val.toNat ≤ 57 := digit.2
    have : 65 ≤ c.val.toNat := upper
    omega
  rw [same, digit]

/-- Text that starts with a digit is none of the words for every port. -/
theorem not_word (head : text.head? = some c) (digit : c.isDigit = true) :
    ["", "any", "all", "*"].contains (String.ofList (Text.toAsciiLowercase text)) = false := by
  have lower : (Text.toAsciiLowercase text).head? = some c.toLower := by
    simp [Text.toAsciiLowercase, head]
  have still := toLower_isDigit digit
  have differs (word : String) (other : ∀ first, word.toList.head? = some first → first.isDigit = false) :
      String.ofList (Text.toAsciiLowercase text) ≠ word := by
    rintro rfl
    rw [String.toList_ofList] at other
    rw [other _ lower] at still
    cases still
  simp only [List.contains_eq_mem, List.mem_cons, List.not_mem_nil, or_false, decide_eq_false_iff_not,
    not_or]
  refine ⟨differs _ ?_, differs _ ?_, differs _ ?_, differs _ ?_⟩ <;> intro first found <;>
    simp at found <;> subst found <;> decide

/-- Normalised ports read back as the ranges they were written from. -/
theorem ports_formatPorts {value ranges} (parsed : ports nd value = .ok ranges) :
    ports nd (formatPorts ranges) = .ok ranges := by
  obtain ⟨arranged, few, valid⟩ := ports_ok parsed
  cases ranges with
  | nil => rfl
  | cons first rest =>
      obtain ⟨c, _, shape⟩ := List.exists_cons_of_ne_nil (formatPort_ne_nil first)
      have start : (formatPort first).head? = some c := by rw [shape, List.head?_cons]
      have words : ["", "any", "all", "*"].contains
          (String.ofList (Text.toAsciiLowercase (formatPorts (first :: rest)))) = false := by
        refine not_word (c := c) ?_ (formatPort_head start)
        rw [formatPorts_cons, List.head?_append_of_ne_nil _ (formatPort_ne_nil first), start]
      have head : portItem nd (formatPort first) = .ok first :=
        portItem_formatPort (valid first List.mem_cons_self) [] (.inl rfl)
      have tail : (rest.map fun port => ' ' :: formatPort port).mapM (portItem nd) = .ok rest := by
        apply mapM_ok
        intro port member
        exact portItem_formatPort (valid port (List.mem_cons_of_mem _ member)) [' '] (.inr rfl)
      have items : (formatPort first :: rest.map fun port => ' ' :: formatPort port).mapM
          (portItem nd) = .ok (first :: rest) := by
        rw [List.mapM_cons, head, tail]
        rfl
      unfold ports
      simp only [strip_formatPorts, splitOn_formatPorts, items, words]
      simp only [bind, Except.bind]
      rw [if_neg (by simp), if_neg (Nat.not_lt.mpr few), arranged]
      rfl

end PortText

section Rules

variable {numbers : Numbers} {nd : Char → Bool}

/-- Ports are normalised without an error only where they may stand. -/
theorem normalize_valid {protocol raw before}
    (valid : ((normalize nd protocol raw).run before).2.errors = []) :
    ∃ ranges, ports nd raw = .ok ranges ∧
      ((normalize nd protocol raw).run before).1 = formatPorts ranges ∧
      (ranges ≠ [] → protocol = "tcp" ∨ protocol = "udp") := by
  unfold normalize at valid ⊢
  cases parsed : ports nd raw with
  | error message =>
      rw [parsed] at valid
      exact absurd (show before.errors ++ [_] = [] from valid) (by simp)
  | ok ranges =>
      rw [parsed] at valid
      dsimp only at valid ⊢
      split at valid
      · exact absurd (show before.errors ++ [_] = [] from valid) (by simp)
      · rename_i fits
        rw [if_neg fits]
        refine ⟨ranges, rfl, rfl, ?_⟩
        intro nonempty
        simp only [Bool.and_eq_true, Bool.not_eq_true', List.isEmpty_eq_false_iff, bne_iff_ne,
          not_and, not_not] at fits
        by_cases tcp : protocol = "tcp"
        · exact .inl tcp
        · exact .inr (fits ⟨nonempty, tcp⟩)

/-- A rule that validates has ports that read back, and has none unless its
    protocol is TCP or UDP. -/
theorem parseRule_ports {raw rule} (parsed : parseRule numbers nd raw = .ok rule) :
    ∃ ranges, ports nd rule.ports = .ok ranges ∧
      (ranges ≠ [] → rule.protocol = "tcp" ∨ rule.protocol = "udp") := by
  unfold parseRule at parsed
  cases start : model raw with
  | error message =>
      rw [start] at parsed
      cases parsed
  | ok origin =>
      rw [start] at parsed
      have shape : (PrivatePolicy.rule numbers nd).run origin =
          (let drafted := (draft numbers).run origin
           let ports := (normalize nd drafted.1.protocol drafted.1.ports).run drafted.2
           ({ drafted.1 with ports := ports.1 }, ports.2)) := by
        rw [PrivatePolicy.rule, Check.bind_run, Check.bind_run]
        rfl
      generalize (draft numbers).run origin = drafted at shape
      simp only [bind, Except.bind] at parsed
      rw [shape] at parsed
      simp only [Model.finish] at parsed
      split at parsed
      · cases parsed
      · rename_i finished
        cases parsed
        have valid : ((normalize nd drafted.1.protocol drafted.1.ports).run drafted.2).2.errors = [] := by
          by_contra invalid
          rw [if_neg (by simpa using invalid)] at finished
          cases finished
        obtain ⟨ranges, read, text, fits⟩ := normalize_valid valid
        exact ⟨ranges, by rw [text]; exact ports_formatPorts read, fits⟩

theorem rules_ports {book rule} (member : rule ∈ rules numbers nd book) :
    ∃ ranges, ports nd rule.ports = .ok ranges ∧
      (ranges ≠ [] → rule.protocol = "tcp" ∨ rule.protocol = "udp") := by
  obtain ⟨raw, _, parsed⟩ := List.mem_filterMap.mp member
  cases result : parseRule numbers nd raw with
  | error message =>
      rw [result] at parsed
      cases parsed
  | ok found =>
      rw [result] at parsed
      cases parsed
      exact parseRule_ports result

end Rules

section Grants

variable {numbers : Numbers} {nd : Char → Bool} {groups : Dict String Value}

/-- Pushing each key once loses no grant. -/
theorem mem_collect {seen all grant} :
    grant ∈ collect nd seen all ↔ ∃ offer ∈ all, offer ∉ seen ∧ offer.grant nd = grant := by
  induction all generalizing seen with
  | nil => simp [collect]
  | cons offer rest ih =>
      unfold collect
      split
      · rename_i old
        have old : offer ∈ seen := by simpa using old
        rw [ih]
        constructor
        · rintro ⟨other, member, fresh, rfl⟩
          exact ⟨other, List.mem_cons_of_mem _ member, fresh, rfl⟩
        · rintro ⟨other, member, fresh, rfl⟩
          rcases List.mem_cons.mp member with rfl | later
          · exact absurd old fresh
          · exact ⟨other, later, fresh, rfl⟩
      · rename_i fresh
        have fresh : offer ∉ seen := by simpa using fresh
        rw [List.mem_cons, ih]
        constructor
        · rintro (rfl | ⟨other, member, unseen, rfl⟩)
          · exact ⟨offer, List.mem_cons_self, fresh, rfl⟩
          · exact ⟨other, List.mem_cons_of_mem _ member, fun old => unseen (List.mem_cons_of_mem _ old), rfl⟩
        · rintro ⟨other, member, unseen, rfl⟩
          by_cases same : other = offer
          · exact .inl (by rw [same])
          · refine .inr ⟨other, (List.mem_cons.mp member).resolve_left same, ?_, rfl⟩
            simp [same, unseen]

/-- A test that looks at the key commutes with pushing each key once. -/
theorem collect_filter {keep : Grant → Bool} (all : List Offer) {seen others}
    (agree : ∀ offer : Offer, keep (offer.grant nd) = true → (offer ∈ seen ↔ offer ∈ others)) :
    (collect nd seen all).filter keep =
      collect nd others (all.filter fun offer => keep (offer.grant nd)) := by
  induction all generalizing seen others with
  | nil => rfl
  | cons offer rest ih =>
      cases kept : keep (offer.grant nd) with
      | false =>
          rw [List.filter_cons_of_neg (p := fun offer : Offer => keep (offer.grant nd)) (by simp [kept])]
          by_cases old : offer ∈ seen
          · rw [collect, if_pos (by simpa using old)]
            exact ih agree
          · rw [collect, if_neg (by simpa using old), List.filter_cons_of_neg (by simp [kept])]
            apply ih
            intro other passes
            have different : other ≠ offer := by
              rintro rfl
              cases kept.symm.trans passes
            simpa [different] using agree other passes
      | true =>
          rw [List.filter_cons_of_pos (p := fun offer : Offer => keep (offer.grant nd)) kept]
          have same := agree offer kept
          by_cases old : offer ∈ seen
          · rw [collect, if_pos (by simpa using old), collect, if_pos (by simpa using same.mp old)]
            exact ih agree
          · rw [collect, if_neg (by simpa using old), collect,
              if_neg (by simpa using fun member => old (same.mpr member)),
              List.filter_cons_of_pos kept]
            congr 1
            apply ih
            intro other passes
            simp [agree other passes]

theorem mem_pairOffers {rule source destination offer} :
    offer ∈ pairOffers numbers rule source destination ↔ ∃ left right,
      ((left = source ∧ right = destination) ∨
        (rule.bidirectional = true ∧ left = destination ∧ right = source)) ∧
      (left.at_ "_id").same (right.at_ "_id") = false ∧
      offer = ⟨field numbers left "_id", field numbers right "_id", rule.protocol, rule.ports⟩ := by
  have pairs : ∀ pair : Value × Value,
      pair ∈ (if rule.bidirectional then [(source, destination), (destination, source)]
        else [(source, destination)]) ↔
      ((pair.1 = source ∧ pair.2 = destination) ∨
        (rule.bidirectional = true ∧ pair.1 = destination ∧ pair.2 = source)) := by
    rintro ⟨left, right⟩
    cases rule.bidirectional <;> simp
  simp only [pairOffers, List.mem_filterMap, pairs, Prod.exists]
  constructor
  · rintro ⟨left, right, chosen, shown⟩
    split at shown
    · cases shown
    · rename_i different
      exact ⟨left, right, chosen, by simpa using different, (Option.some.inj shown).symm⟩
  · rintro ⟨left, right, chosen, different, rfl⟩
    exact ⟨left, right, chosen, by rw [if_neg (by simp [different])]⟩

/-- The machine is one of the ends. -/
def Grant.touches (id : String) (grant : Grant) : Bool :=
  grant.source == id || grant.destination == id

/-- Both offers of a pair touch the same machines. -/
theorem pairOffers_filter (rule : Rule) (source destination : Value) (id : String) :
    (pairOffers numbers rule source destination).filter (fun offer => (offer.grant nd).touches id) =
      if field numbers source "_id" == id || field numbers destination "_id" == id then
        pairOffers numbers rule source destination
      else [] := by
  have ends : ∀ offer ∈ pairOffers numbers rule source destination, (offer.grant nd).touches id =
      (field numbers source "_id" == id || field numbers destination "_id" == id) := by
    intro offer member
    obtain ⟨left, right, ⟨rfl, rfl⟩ | ⟨_, rfl, rfl⟩, _, rfl⟩ := mem_pairOffers.mp member
    · rfl
    · exact Bool.or_comm _ _
  split
  · rename_i touched
    rw [List.filter_eq_self]
    intro offer member
    rw [ends offer member, touched]
  · rename_i untouched
    rw [List.filter_eq_nil_iff]
    intro offer member
    rw [ends offer member]
    exact untouched

theorem ruleOffers_scope (active : List Value) (book : Value) (rule : Rule) (id : String) :
    (ruleOffers numbers groups active none book rule).filter
        (fun offer => (offer.grant nd).touches id) =
      ruleOffers numbers groups active (some id) book rule := by
  simp only [ruleOffers, Option.all_none, if_true, List.filter_flatMap, pairOffers_filter,
    Option.all_some, Option.any_some]
  apply List.flatMap_congr
  intro source _
  cases mine : field numbers source "_id" == id with
  | true => simp
  | false =>
      simp only [Bool.false_or, Bool.false_eq_true, if_false]
      induction select numbers groups active book rule.destinations with
      | nil => rfl
      | cons destination rest ih =>
          rw [List.flatMap_cons, ih]
          cases here : field numbers destination "_id" == id with
          | true =>
              rw [List.filter_cons_of_pos (p := fun machine => field numbers machine "_id" == id) here,
                List.flatMap_cons, if_pos rfl]
          | false =>
              rw [List.filter_cons_of_neg (p := fun machine => field numbers machine "_id" == id)
                  (by simp [here]), if_neg (by simp), List.nil_append]

/-- Compiling for one machine restricts the full compilation. -/
theorem compileFor_eq (machines books : List Value) (id : String) :
    compileFor numbers nd groups machines books id =
      (compile numbers nd groups machines books).filter (Grant.touches id) := by
  simp only [compile, compileFor, compileInner]
  rw [collect_filter _ (fun _ _ => Iff.rfl)]
  congr 1
  simp only [offers, List.filter_flatMap, ruleOffers_scope]

end Grants

section Agreement

variable {numbers : Numbers} {nd : Char → Bool} {groups : Dict String Value}
  {source destination : Value} {protocol : String} {port : Int} {rule : Rule}

/-- The rule allows the connection from one machine to the other. -/
structure Applies (numbers : Numbers) (nd : Char → Bool) (groups : Dict String Value)
    (source destination : Value) (protocol : String) (port : Int) (rule : Rule) : Prop where
  enabled : rule.enabled = true
  protocol : rule.protocol = "any" ∨ rule.protocol = protocol
  ports : ranges nd rule.ports = [] ∨ ∃ range ∈ ranges nd rule.ports, inRange port range = true
  pair : (matched numbers groups rule.sources source = true ∧
      matched numbers groups rule.destinations destination = true) ∨
    (rule.bidirectional = true ∧ matched numbers groups rule.sources destination = true ∧
      matched numbers groups rule.destinations source = true)

theorem decideRule_some {book decision}
    (found : decideRule numbers nd groups source destination protocol port book rule = some decision) :
    decision.allowed = true ∧ Applies numbers nd groups source destination protocol port rule := by
  simp only [decideRule] at found
  split at found
  · rename_i relevant
    split at found
    · cases found
    · rename_i covered
      split at found
      · rename_i pair
        cases found
        simp only [Bool.and_eq_true, Bool.or_eq_true, beq_iff_eq] at relevant pair
        refine ⟨rfl, relevant.1, relevant.2, ?_, pair⟩
        by_cases empty : ranges nd rule.ports = []
        · exact .inl empty
        · simp only [Bool.and_eq_true, Bool.not_eq_true', List.isEmpty_eq_false_iff, not_and,
            Bool.not_eq_false, List.any_eq_true] at covered
          exact .inr (covered empty)
      · cases found
  · cases found

theorem Applies.decides (applies : Applies numbers nd groups source destination protocol port rule)
    (book : Value) :
    (decideRule numbers nd groups source destination protocol port book rule).isSome = true := by
  have relevant : (rule.enabled && (rule.protocol == "any" || rule.protocol == protocol)) = true := by
    simpa [applies.enabled] using applies.protocol
  have covered : (!(ranges nd rule.ports).isEmpty && !(ranges nd rule.ports).any (inRange port)) =
      false := by
    rcases applies.ports with empty | inside
    · simp [empty]
    · have : (ranges nd rule.ports).any (inRange port) = true := List.any_eq_true.mpr inside
      simp [this]
  have pair : ((matched numbers groups rule.sources source
        && matched numbers groups rule.destinations destination)
      || (rule.bidirectional && (matched numbers groups rule.sources destination
        && matched numbers groups rule.destinations source))) = true := by
    simpa using applies.pair
  simp only [decideRule]
  rw [if_pos relevant, if_neg (by simp [covered]), if_pos pair]
  rfl

/-- A connection that the API may ask about. -/
def Asked (protocol : String) (port : Int) : Prop :=
  protocol ∈ ["tcp", "udp", "icmp"] ∧ (protocol = "icmp" ∨ (1 ≤ port ∧ port ≤ 65535))
  deriving Decidable

/-- A book that `evaluate` reads for machines of the workspace. -/
def Read (numbers : Numbers) (groups : Dict String Value) (workspace : String) (book : Value) :
    Prop :=
  enabled numbers book = true ∧ groups.contains (field numbers book "group_id") = true ∧
    field numbers book "user_id" = workspace

/-- Some rule that is read allows the connection. -/
def Ruled (numbers : Numbers) (nd : Char → Bool) (groups : Dict String Value)
    (source destination : Value) (protocol : String) (port : Int) (books : List Value) : Prop :=
  ∃ book ∈ books, Read numbers groups (field numbers source "user_id") book ∧
    ∃ rule ∈ rules numbers nd book,
      Applies numbers nd groups source destination protocol port rule

/-- The search stops at a rule that applies, and only there. -/
theorem search_allowed (source destination : Value) (protocol : String) (port : Int)
    (relevant : List Value) :
    ((relevant.findSome? fun book => (rules numbers nd book).findSome?
      (decideRule numbers nd groups source destination protocol port book)).getD
        (deny "No enabled rule allows this connection")).allowed = true ↔
      ∃ book ∈ relevant, ∃ rule ∈ rules numbers nd book,
        Applies numbers nd groups source destination protocol port rule := by
  constructor
  · intro allowed
    cases found : relevant.findSome? fun book => (rules numbers nd book).findSome?
        (decideRule numbers nd groups source destination protocol port book) with
    | none =>
        rw [found] at allowed
        cases allowed
    | some decision =>
        obtain ⟨book, inside, search⟩ := List.exists_of_findSome?_eq_some found
        obtain ⟨rule, member, decided⟩ := List.exists_of_findSome?_eq_some search
        exact ⟨book, inside, rule, member, (decideRule_some decided).2⟩
  · rintro ⟨book, inside, rule, member, applies⟩
    have some : (relevant.findSome? fun book => (rules numbers nd book).findSome?
        (decideRule numbers nd groups source destination protocol port book)).isSome = true := by
      rw [List.findSome?_isSome_iff]
      exact ⟨book, inside, List.findSome?_isSome_iff.mpr ⟨rule, member, applies.decides book⟩⟩
    obtain ⟨decision, found⟩ := Option.isSome_iff_exists.mp some
    obtain ⟨other, _, search⟩ := List.exists_of_findSome?_eq_some found
    obtain ⟨_, _, decided⟩ := List.exists_of_findSome?_eq_some search
    rw [found]
    exact (decideRule_some decided).1

/-- What the preview checks, for two documents. -/
theorem evaluate_allowed (asked : Asked protocol port) (books : List Value)
    (left : source.isNull = false) (right : destination.isNull = false) :
    (evaluate numbers nd groups source destination protocol port books).allowed = true ↔
      ((source.at_ "enabled").isFalse = false ∧ (destination.at_ "enabled").isFalse = false ∧
        revoked numbers source = false ∧ revoked numbers destination = false) ∧
      field numbers source "user_id" = field numbers destination "user_id" ∧
      Ruled numbers nd groups source destination protocol port books := by
  unfold evaluate
  split
  · rename_i closed
    simp only [left, right, Bool.false_or, Bool.or_eq_true] at closed
    simp only [deny, Bool.false_eq_true, false_iff, not_and]
    rintro ⟨a, b, c, d⟩
    simp [a, b, c, d] at closed
  · rename_i opened
    simp only [left, right, Bool.false_or, Bool.or_eq_true, not_or, Bool.not_eq_true] at opened
    obtain ⟨⟨⟨a, b⟩, c⟩, d⟩ := opened
    split
    · rename_i apart
      simp only [deny, Bool.false_eq_true, false_iff, not_and]
      intro _ together
      simp [together] at apart
    · rename_i together
      have together : field numbers source "user_id" = field numbers destination "user_id" := by
        simpa using together
      have known : ["tcp", "udp", "icmp"].contains protocol = true := List.contains_iff_mem.mpr asked.1
      rw [if_neg (by simp only [known]; simp), if_neg]
      · simp only [search_allowed, a, b, c, d, together, true_and, and_self]
        constructor
        · rintro ⟨book, relevant, ruled⟩
          obtain ⟨inside, reads⟩ := List.mem_filter.mp relevant
          refine ⟨book, inside, ?_, ruled⟩
          simpa [Read, together, and_assoc] using reads
        · rintro ⟨book, inside, reads, ruled⟩
          refine ⟨book, List.mem_filter.mpr ⟨inside, ?_⟩, ruled⟩
          simpa [Read, together, and_assoc] using reads
      · rcases asked.2 with icmp | ⟨low, high⟩
        · simp [icmp]
        · simp [low, high]

/-- Machines that `compile` expands. -/
def Active (numbers : Numbers) (machine : Value) : Prop :=
  enabled numbers machine = true ∧ revoked numbers machine = false

/-- Where a grant comes from. -/
theorem mem_compile {machines books grant} :
    grant ∈ compile numbers nd groups machines books ↔
      ∃ left ∈ machines, ∃ right ∈ machines, ∃ book ∈ books, ∃ rule ∈ rules numbers nd book,
        Active numbers left ∧ Active numbers right ∧
        Read numbers groups (field numbers left "user_id") book ∧
        field numbers left "user_id" = field numbers right "user_id" ∧ rule.enabled = true ∧
        ((matched numbers groups rule.sources left = true ∧
            matched numbers groups rule.destinations right = true) ∨
          (rule.bidirectional = true ∧ matched numbers groups rule.sources right = true ∧
            matched numbers groups rule.destinations left = true)) ∧
        (left.at_ "_id").same (right.at_ "_id") = false ∧
        grant = ⟨field numbers left "_id", field numbers right "_id", rule.protocol,
          ranges nd rule.ports⟩ := by
  simp only [compile, compileInner, mem_collect, offers, ruleOffers, select, List.mem_flatMap,
    List.mem_filter, Option.all_none, if_true, mem_pairOffers, Bool.and_eq_true,
    Bool.not_eq_true', beq_iff_eq, List.not_mem_nil, not_false_eq_true, true_and]
  constructor
  · rintro ⟨offer, ⟨book, ⟨inside, live, known⟩, rule, ⟨member, on⟩, source,
      ⟨⟨here, active⟩, mine, chosen⟩, destination, ⟨⟨there, other⟩, theirs, picked⟩,
      left, right, ends, different, rfl⟩, rfl⟩
    rcases ends with ⟨rfl, rfl⟩ | ⟨both, rfl, rfl⟩
    · exact ⟨left, here, right, there, book, inside, rule, member, active, other,
        ⟨live, known, mine.symm⟩, mine.trans theirs.symm, on, .inl ⟨chosen, picked⟩, different, rfl⟩
    · exact ⟨left, there, right, here, book, inside, rule, member, other, active,
        ⟨live, known, theirs.symm⟩, theirs.trans mine.symm, on, .inr ⟨both, chosen, picked⟩,
        different, rfl⟩
  · rintro ⟨left, here, right, there, book, inside, rule, member, active, other,
      ⟨live, known, mine⟩, together, on, chosen, different, rfl⟩
    have theirs : field numbers right "user_id" = field numbers book "user_id" :=
      together.symm.trans mine.symm
    refine ⟨⟨field numbers left "_id", field numbers right "_id", rule.protocol, rule.ports⟩,
      ⟨book, ⟨inside, live, known⟩, rule, ⟨member, on⟩, ?_⟩, rfl⟩
    rcases chosen with ⟨picked, chosen⟩ | ⟨both, picked, chosen⟩
    · exact ⟨left, ⟨⟨here, active⟩, mine.symm, picked⟩, right, ⟨⟨there, other⟩, theirs, chosen⟩,
        left, right, .inl ⟨rfl, rfl⟩, different, rfl⟩
    · exact ⟨right, ⟨⟨there, other⟩, theirs, picked⟩, left, ⟨⟨here, active⟩, mine.symm, chosen⟩,
        left, right, .inr ⟨both, rfl, rfl⟩, different, rfl⟩

/-- The grant lets the source reach the port of the destination. -/
def Grant.covers (grant : Grant) (source destination protocol : String) (port : Int) : Bool :=
  grant.source == source && grant.destination == destination
    && (grant.protocol == "any" || grant.protocol == protocol)
    && (protocol == "icmp" || grant.ports.isEmpty || grant.ports.any (inRange port))

/-- Two machines that neither the grants nor the check of a pair confuses. -/
def Apart (numbers : Numbers) (left right : Value) : Prop :=
  field numbers left "_id" ≠ field numbers right "_id" ∧
    (left.at_ "_id").same (right.at_ "_id") = false ∧
    (right.at_ "_id").same (left.at_ "_id") = false

instance : Std.Symm (Apart numbers) where
  symm _ _ apart := ⟨apart.1.symm, apart.2.2, apart.2.1⟩

/-- Only the machine itself has its id. -/
theorem field_inj {machines : List Value} (apart : machines.Pairwise (Apart numbers)) {left right}
    (here : left ∈ machines) (there : right ∈ machines)
    (equal : field numbers left "_id" = field numbers right "_id") : left = right := by
  by_contra different
  exact (apart.forall here there different).1 equal

theorem enabled_not_false {machine} (live : enabled numbers machine = true) :
    (machine.at_ "enabled").isFalse = false := by
  unfold enabled at live
  unfold Value.at_
  cases found : machine.get? "enabled" with
  | none => rfl
  | some value =>
      rw [found] at live
      cases value with
      | bool on =>
          cases on with
          | true => rfl
          | false => cases live
      | null | number | string | array | object => rfl

/-- Ports restrict TCP and UDP only, so ICMP asks for none. -/
theorem covers_iff {book} (member : rule ∈ rules numbers nd book) {source destination} :
    Grant.covers ⟨source, destination, rule.protocol, ranges nd rule.ports⟩ source destination
        protocol port = true ↔
      (rule.protocol = "any" ∨ rule.protocol = protocol) ∧
      (ranges nd rule.ports = [] ∨ ∃ range ∈ ranges nd rule.ports, inRange port range = true) := by
  obtain ⟨found, parsed, fits⟩ := rules_ports member
  have known : ranges nd rule.ports = found := by
    rw [ranges, parsed]
    rfl
  simp only [Grant.covers, beq_self_eq_true, Bool.true_and, Bool.and_eq_true, Bool.or_eq_true,
    beq_iff_eq, List.isEmpty_iff, List.any_eq_true, known]
  refine and_congr_right fun same => ?_
  constructor
  · rintro ((icmp | empty) | inside)
    · refine .inl ?_
      by_contra nonempty
      rcases fits nonempty with tcp | udp
      · simp [tcp, icmp] at same
      · simp [udp, icmp] at same
    · exact .inl empty
    · exact .inr inside
  · rintro (empty | inside)
    · exact .inl (.inr empty)
    · exact .inr inside

/-- The preview allows a connection between enabled machines exactly when a
    grant covers it, and a compilation for one machine keeps its grants. -/
theorem preview_agrees (machines books : List Value) (apart : machines.Pairwise (Apart numbers))
    (present : ∀ machine ∈ machines, machine.isNull = false) :
    (∀ source ∈ machines, ∀ destination ∈ machines, source ≠ destination →
      ∀ protocol port, Asked protocol port →
        ((∃ grant ∈ compile numbers nd groups machines books,
            grant.covers (field numbers source "_id") (field numbers destination "_id") protocol
              port = true) ↔
          (evaluate numbers nd groups source destination protocol port books).allowed = true ∧
            enabled numbers source = true ∧ enabled numbers destination = true)) ∧
    ∀ id, compileFor numbers nd groups machines books id =
      (compile numbers nd groups machines books).filter (Grant.touches id) := by
  refine ⟨?_, compileFor_eq machines books⟩
  intro source here destination there different protocol port asked
  rw [evaluate_allowed asked books (present source here) (present destination there)]
  constructor
  · rintro ⟨grant, granted, covers⟩
    obtain ⟨left, first, right, second, book, inside, rule, member, active, other, reads,
      together, on, chosen, _, rfl⟩ := mem_compile.mp granted
    have ends := covers
    simp only [Grant.covers, Bool.and_eq_true, beq_iff_eq] at ends
    obtain rfl := field_inj apart first here ends.1.1.1
    obtain rfl := field_inj apart second there ends.1.1.2
    obtain ⟨same, ports⟩ := (covers_iff member).mp covers
    exact ⟨⟨⟨enabled_not_false active.1, enabled_not_false other.1, active.2, other.2⟩, together,
      book, inside, reads, rule, member, on, same, ports, chosen⟩, active.1, other.1⟩
  · rintro ⟨⟨⟨_, _, kept, held⟩, together, book, inside, reads, rule, member, applies⟩, on, live⟩
    refine ⟨⟨field numbers source "_id", field numbers destination "_id", rule.protocol,
      ranges nd rule.ports⟩, ?_, (covers_iff member).mpr ⟨applies.protocol, applies.ports⟩⟩
    exact mem_compile.mpr ⟨source, here, destination, there, book, inside, rule, member,
      ⟨on, kept⟩, ⟨live, held⟩, reads, together, applies.enabled, applies.pair,
      (apart.forall here there different).2.1, rfl⟩

def sampleGroups : Dict String Value := Dict.empty.insert "staff" (.object [])

/-- Everyone may reach SSH. -/
def sampleBook : Value :=
  let everyone := .array [.object [("kind", .string "all"), ("id", .string "machines")]]
  .object [("_id", .string "book"), ("user_id", .string "home"), ("group_id", .string "staff"),
    ("rules", .array [.object [("id", .string "ssh"), ("name", .string "SSH"),
      ("sources", everyone), ("destinations", everyone), ("ports", .string "22")]])]

def sampleMachine (id : String) (more : Fields) : Value :=
  .object ([("_id", .string id), ("user_id", .string "home")] ++ more)

theorem sampleMachine_apart {a b} (different : a ≠ b) (more others : Fields) :
    Apart Numbers.plain (sampleMachine a more) (sampleMachine b others) := by
  have left : (sampleMachine a more).at_ "_id" = .string a := rfl
  have right : (sampleMachine b others).at_ "_id" = .string b := rfl
  simp only [Apart, field, left, right, Value.text, Value.same, beq_eq_false_iff_ne]
  exact ⟨different, different, different.symm⟩

/-- A machine whose `enabled` is the number zero is shown as reachable and gets
    no grant. -/
theorem preview_reaches_zero :
    let machines := [sampleMachine "laptop" [], sampleMachine "nas" [("enabled", .number "0")]]
    machines.Pairwise (Apart Numbers.plain) ∧
    (evaluate Numbers.plain Char.isDigit sampleGroups (sampleMachine "laptop" [])
      (sampleMachine "nas" [("enabled", .number "0")]) "tcp" 22 [sampleBook]).allowed = true ∧
    ¬∃ grant ∈ compile Numbers.plain Char.isDigit sampleGroups machines [sampleBook],
      grant.covers "laptop" "nas" "tcp" 22 = true := by
  refine ⟨?_, by decide, by decide⟩
  exact List.pairwise_pair.mpr (sampleMachine_apart (by decide) _ _)

theorem preview_reaches_nas :
    let machines := [sampleMachine "laptop" [], sampleMachine "nas" []]
    ∃ grant ∈ compile Numbers.plain Char.isDigit sampleGroups machines [sampleBook],
      grant.covers "laptop" "nas" "tcp" 22 = true := by
  have agrees := @preview_agrees Numbers.plain Char.isDigit sampleGroups
    [sampleMachine "laptop" [], sampleMachine "nas" []] [sampleBook]
    (List.pairwise_pair.mpr (sampleMachine_apart (by decide) _ _))
    (by simp [sampleMachine, Value.isNull])
  have different : sampleMachine "laptop" [] ≠ sampleMachine "nas" [] := by simp [sampleMachine]
  exact (agrees.1 _ List.mem_cons_self _ (by simp) different "tcp" 22 (by decide)).mpr
    ⟨by decide, by decide, by decide⟩

end Agreement

end PortHub.Api.PrivatePolicy
