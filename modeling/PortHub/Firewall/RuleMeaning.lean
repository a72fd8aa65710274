import PortHub.Firewall.Rules
import PortHub.Lib.Pieces

/-! # What the firewall rules do

Every port has a block of rules that no packet of another port reaches, and names that
no other port has. So a chain does what the block of the packet's port does.
-/

namespace PortHub.Firewall

open Pieces

section Names

theorem underscore_not_digit (n : Nat) : '_' ∉ Decimal.render n := by
  intro member
  exact absurd (Decimal.render_isDigit member) (by decide)

/-- A name ends in its port. -/
theorem leftover_named (word : String) (port : UInt16) :
    leftover '_' (named word port) = Decimal.render port.toNat := by
  rw [named, leftover_append_cons, leftover_of_not_mem (underscore_not_digit _)]

theorem named_inj {first second p q} :
    named first p = named second q ↔ first = second ∧ p = q := by
  constructor
  · intro same
    have numbers := congrArg (leftover '_') same
    rw [leftover_named, leftover_named] at numbers
    obtain rfl := UInt16.toNat_inj.mp (Decimal.render_injective numbers)
    exact ⟨String.toList_inj.mp (List.append_cancel_right same), rfl⟩
  · rintro ⟨rfl, rfl⟩
    rfl

/-- The words in the names of a port's objects, sets and rules. -/
def objectWords : List String := ["cnt_in", "cnt_out", "cnt_drop"]

def setWords (policy : Policy) : List String :=
  ["recent", "recent_out"] ++ if policy.allowedIps.isEmpty then [] else ["allow", "blocked"]

def inputWords (policy : Policy) : List String :=
  "recent" :: if policy.allowedIps.isEmpty then ["allow"] else ["allow", "track_blocked", "drop"]

def outputWords : List String := ["recent_out", "count_out"]

theorem setWords_name (port : UInt16) (policy : Policy) (ttl : Nat) :
    (portSets port policy ttl).map SetConfig.name = (setWords policy).map (named · port) := by
  unfold portSets setWords
  split <;> rfl

theorem inputWords_key (port : UInt16) (policy : Policy) :
    (portInput port policy).map Rule.key = (inputWords policy).map (named · port) := by
  unfold portInput inputWords
  split <;> rfl

theorem outputWords_key (port : UInt16) :
    (portOutput port).map Rule.key = outputWords.map (named · port) := rfl

theorem inputWords_disjoint (policy : Policy) : (inputWords policy).Disjoint outputWords := by
  unfold inputWords outputWords
  split <;> simp

/-- Names of words that a port has once are declared once. -/
theorem names_nodup (policies : Policies) {words : Policy → List String}
    (distinct : ∀ policy, (words policy).Nodup) :
    (policies.entries.flatMap fun entry => (words entry.2).map (named · entry.1)).Nodup := by
  rw [List.nodup_flatMap]
  constructor
  · intro entry _
    exact (distinct entry.2).map fun first second same => (named_inj.mp same).1
  · refine policies.sorted.imp fun {first second} less => ?_
    intro name inside also
    obtain ⟨word, _, rfl⟩ := List.mem_map.mp inside
    obtain ⟨other, _, same⟩ := List.mem_map.mp also
    rw [(named_inj.mp same).2] at less
    exact absurd less (UInt16.lt_irrefl _)

end Names

section Chains

variable {sets : List SetConfig} {packet : Packet}

/-- Rules without an effect are passed over. -/
theorem evaluateChain_silent {block} (rest : List Rule)
    (silent : ∀ rule ∈ block, evaluate sets packet rule.expressions = ⟨[], none⟩) :
    evaluateChain sets packet (block ++ rest) = evaluateChain sets packet rest := by
  induction block with
  | nil => rfl
  | cons rule block ih =>
      rw [List.forall_mem_cons] at silent
      rw [List.cons_append, evaluateChain, silent.1]
      simp only [List.nil_append]
      exact ih silent.2

/-- What ends a block ends the chain. -/
theorem evaluateChain_decided {block} (rest : List Rule)
    (decided : (evaluateChain sets packet block).verdict.isSome = true) :
    evaluateChain sets packet (block ++ rest) = evaluateChain sets packet block := by
  induction block with
  | nil => cases decided
  | cons rule block ih =>
      rw [List.cons_append, evaluateChain, evaluateChain]
      rw [evaluateChain] at decided
      cases verdict : (evaluate sets packet rule.expressions).verdict with
      | some _ => rfl
      | none =>
          simp only [verdict] at decided ⊢
          rw [ih decided]

variable {block : UInt16 × Policy → List Rule} {port : UInt16}
  (silent : ∀ entry, entry.1 ≠ port → ∀ rule ∈ block entry,
    evaluate sets packet rule.expressions = ⟨[], none⟩)

include silent

theorem blocks_other {entries : List (UInt16 × Policy)} (unknown : entries.lookup port = none) :
    (∀ rule ∈ entries.flatMap block, evaluate sets packet rule.expressions = ⟨[], none⟩) ∧
      evaluateChain sets packet (entries.flatMap block) = ⟨[], none⟩ := by
  have quiet : ∀ rule ∈ entries.flatMap block, evaluate sets packet rule.expressions = ⟨[], none⟩ := by
    intro rule member
    obtain ⟨entry, listed, inside⟩ := List.mem_flatMap.mp member
    refine silent entry (fun same => ?_) rule inside
    have other := List.lookup_eq_none_iff.mp unknown entry listed
    simp [same] at other
  refine ⟨quiet, ?_⟩
  have whole := evaluateChain_silent [] quiet
  rwa [List.append_nil] at whole

theorem blocks_own {entries : List (UInt16 × Policy)} {policy}
    (known : entries.lookup port = some policy)
    (decided : (evaluateChain sets packet (block (port, policy))).verdict.isSome = true) :
    evaluateChain sets packet (entries.flatMap block) = evaluateChain sets packet (block (port, policy)) := by
  induction entries with
  | nil => cases known
  | cons entry rest ih =>
      obtain ⟨key, value⟩ := entry
      rw [List.flatMap_cons]
      by_cases own : key = port
      · subst own
        obtain rfl : value = policy := by simpa using known
        exact evaluateChain_decided _ decided
      · rw [evaluateChain_silent _ (silent (key, value) own)]
        rw [List.lookup_cons, beq_false_of_ne (Ne.symm own)] at known
        exact ih known

end Chains

section Ports

variable {packet : Packet} {port : UInt16} {policy : Policy}

theorem portInput_silent (sets : List SetConfig) (entry : UInt16 × Policy) (other : entry.1 ≠ packet.dport) :
    ∀ rule ∈ portInput entry.1 entry.2, evaluate sets packet rule.expressions = ⟨[], none⟩ := by
  intro rule member
  have first : rule.expressions.head? = some (.tcpDport entry.1) := by
    unfold portInput at member
    split at member <;> simp at member <;> rcases member with rfl | rfl | rfl | rfl <;> rfl
  obtain ⟨rest, shape⟩ := List.head?_eq_some_iff.mp first
  rw [shape, evaluate, if_neg (Ne.symm other)]

theorem portOutput_silent (sets : List SetConfig) (entry : UInt16 × Policy) (other : entry.1 ≠ packet.sport) :
    ∀ rule ∈ portOutput entry.1, evaluate sets packet rule.expressions = ⟨[], none⟩ := by
  intro rule member
  have first : rule.expressions.head? = some (.tcpSport entry.1) := by
    simp only [portOutput, List.mem_cons, List.not_mem_nil, or_false] at member
    rcases member with rfl | rfl <;> rfl
  obtain ⟨rest, shape⟩ := List.head?_eq_some_iff.mp first
  rw [shape, evaluate, if_neg (Ne.symm other)]

/-- The allowlist of a port is found among the sets of all ports. -/
theorem inSet_allow {entries : List (UInt16 × Policy)} {ttl}
    (known : entries.lookup port = some policy) (listed : policy.allowedIps.isEmpty = false)
    (source : Address) :
    inSet (entries.flatMap fun entry => portSets entry.1 entry.2 ttl) (named "allow" port) source =
      policy.allowedIps.any fun ip => decide (source = .v4 ip) := by
  have found : (entries.flatMap fun entry => portSets entry.1 entry.2 ttl).find?
      (fun set => set.name == named "allow" port) = some ⟨named "allow" port, none, policy.allowedIps⟩ := by
    induction entries with
    | nil => cases known
    | cons entry rest ih =>
        obtain ⟨key, value⟩ := entry
        rw [List.flatMap_cons, List.find?_append]
        by_cases own : key = port
        · subst own
          obtain rfl : value = policy := by simpa using known
          simp [portSets, listed, recentSet, named_inj]
        · have absent : (portSets key value ttl).find? (fun set => set.name == named "allow" port) = none := by
            rw [List.find?_eq_none]
            intro set member same
            have name : set.name ∈ (setWords value).map (named · key) := by
              rw [← setWords_name key value ttl]
              exact List.mem_map_of_mem member
            obtain ⟨word, _, written⟩ := List.mem_map.mp name
            rw [← written, beq_iff_eq, named_inj] at same
            exact own same.2
          rw [List.lookup_cons, beq_false_of_ne (Ne.symm own)] at known
          rw [absent, Option.none_or]
          exact ih known
  cases source with
  | v4 ip =>
      rw [inSet, found]
      simp only [Option.map_some, Option.getD_some, Address.v4.injEq]
      rw [List.contains_eq_any_beq]
      rfl
  | v6 groups =>
      rw [inSet]
      simp

/-- The policy keeps the packet out. -/
def Policy.Refuses (policy : Policy) (packet : Packet) : Prop :=
  policy.allowedIps ≠ [] ∧ ∀ ip ∈ policy.allowedIps, packet.source ≠ .v4 ip

instance : Decidable (policy.Refuses packet) := inferInstanceAs (Decidable (_ ∧ _))

end Ports

/-- The chain ends in the verdict, and one counter was increased. -/
structure Ends (sets : List SetConfig) (packet : Packet) (chain : List Rule) (verdict : Verdict)
    (counter : List Char) : Prop where
  verdict : (evaluateChain sets packet chain).verdict = some verdict
  counters : (evaluateChain sets packet chain).counters = [counter]

namespace Ends

variable {sets : List SetConfig} {packet : Packet} {rest : List Rule} {verdict : Verdict}
  {key counter name : List Char} {port : UInt16} {policy : Policy}

theorem stop {rule : Rule} (evaluated : evaluate sets packet rule.expressions = ⟨[.counted counter], some verdict⟩) :
    Ends sets packet (rule :: rest) verdict counter := by
  have chain : evaluateChain sets packet (rule :: rest) = ⟨[.counted counter], some verdict⟩ := by
    rw [evaluateChain, evaluated]
  exact ⟨by rw [chain], by rw [chain]; rfl⟩

/-- A rule that counts nothing and does not end the chain. -/
theorem skip {rule : Rule} (open_ : (evaluate sets packet rule.expressions).verdict = none)
    (uncounted : (evaluate sets packet rule.expressions).counters = [])
    (later : Ends sets packet rest verdict counter) : Ends sets packet (rule :: rest) verdict counter := by
  have chain : evaluateChain sets packet (rule :: rest) =
      ⟨(evaluate sets packet rule.expressions).effects ++ (evaluateChain sets packet rest).effects,
        (evaluateChain sets packet rest).verdict⟩ := by
    rw [evaluateChain]
    simp only [open_]
  refine ⟨?_, ?_⟩
  · rw [chain]
    exact later.verdict
  · rw [chain, Outcome.counters, List.filterMap_append, ← later.counters]
    exact congrArg (· ++ _) uncounted

theorem update {rule : Rule} {field}
    (tracks : rule.expressions = [.tcpDport port, .ctNew, .updateInSet field name] ∨
      rule.expressions = [.tcpSport port, .updateInSet field name])
    (later : Ends sets packet rest verdict counter) :
    Ends sets packet (rule :: rest) verdict counter := by
  have filled : (evaluate sets packet [.updateInSet field name]).verdict = none ∧
      (evaluate sets packet [.updateInSet field name]).counters = [] := by
    rw [evaluate]
    split <;> exact ⟨rfl, rfl⟩
  have evaluated : (evaluate sets packet rule.expressions).verdict = none ∧
      (evaluate sets packet rule.expressions).counters = [] := by
    rcases tracks with written | written <;> rw [written]
    · rw [evaluate, evaluate]
      split
      · split
        · exact filled
        · exact ⟨rfl, rfl⟩
      · exact ⟨rfl, rfl⟩
    · rw [evaluate]
      split
      · exact filled
      · exact ⟨rfl, rfl⟩
  exact later.skip evaluated.1 evaluated.2

theorem portInput_refused (own : packet.dport = port) (refuses : policy.Refuses packet)
    (allowed : inSet sets (named "allow" port) packet.source =
      policy.allowedIps.any fun ip => decide (packet.source = .v4 ip)) :
    Ends sets packet (portInput port policy) .drop (named "cnt_drop" port) := by
  have listed : policy.allowedIps.isEmpty = false := by simpa using refuses.1
  have absent : inSet sets (named "allow" port) packet.source = false := by
    rw [allowed]
    simpa using refuses.2
  unfold portInput
  rw [if_neg (by simp [listed])]
  refine .update (.inl rfl) ?_
  have outside : evaluate sets packet [.tcpDport port, .saddrInSet (named "allow" port),
      .counterNamed (named "cnt_in" port), .accept] = ⟨[], none⟩ := by
    rw [evaluate, if_pos own, evaluate, absent]
    rfl
  refine .skip (by rw [outside]) (by rw [outside]; rfl) (.update (.inl rfl) (.stop ?_))
  rw [evaluate, if_pos own]
  rfl

theorem portInput_admitted (own : packet.dport = port) (admits : ¬ policy.Refuses packet)
    (allowed : policy.allowedIps.isEmpty = false → inSet sets (named "allow" port) packet.source =
      policy.allowedIps.any fun ip => decide (packet.source = .v4 ip)) :
    Ends sets packet (portInput port policy) .accept (named "cnt_in" port) := by
  refine .update (.inl rfl) ?_
  by_cases empty : policy.allowedIps.isEmpty = true
  · rw [if_pos empty]
    refine .stop ?_
    rw [evaluate, if_pos own]
    rfl
  · rw [if_neg empty]
    have inside : inSet sets (named "allow" port) packet.source = true := by
      rw [allowed (by simpa using empty)]
      by_contra outside
      exact admits ⟨by simpa using empty, by simpa using outside⟩
    refine .stop ?_
    rw [evaluate, if_pos own, evaluate, if_pos inside]
    rfl

theorem portOutput_counted (own : packet.sport = port) :
    Ends sets packet (portOutput port) .accept (named "cnt_out" port) := by
  refine .update (.inr rfl) (.stop ?_)
  rw [evaluate, if_pos own]
  rfl

end Ends

theorem rules_ok {policies table ttl generated}
    (accepted : rules policies table ttl = .ok generated) :
    generated.objects = (policies.entries.flatMap fun entry => portObjects entry.1) ∧
    generated.sets = (policies.entries.flatMap fun entry => portSets entry.1 entry.2 ttl) ∧
    generated.input = (policies.entries.flatMap fun entry => portInput entry.1 entry.2) ∧
    generated.output = (policies.entries.flatMap fun entry => portOutput entry.1) := by
  have accepted := ok_of_then (ok_of_then (ok_of_then (ok_of_then accepted)))
  obtain rfl := pure_eq_ok.mp accepted
  exact ⟨rfl, rfl, rfl, rfl⟩

/-- Every packet is decided by the policy of its port alone. -/
theorem rules_decide_by_port {policies : Policies} {table : List Char} {ttl : Nat} {generated : Table}
    (accepted : rules policies table ttl = .ok generated) :
    (∀ packet,
      ((evaluateChain generated.sets packet generated.input).verdict = some .drop ↔
        ∃ policy, policies.get? packet.dport = some policy ∧ policy.Refuses packet) ∧
      (∀ policy, policies.get? packet.dport = some policy →
        Ends generated.sets packet generated.input (if policy.Refuses packet then .drop else .accept)
          (named (if policy.Refuses packet then "cnt_drop" else "cnt_in") packet.dport)) ∧
      (∀ policy, policies.get? packet.sport = some policy →
        Ends generated.sets packet generated.output .accept (named "cnt_out" packet.sport)) ∧
      (policies.get? packet.dport = none →
        (∀ rule ∈ generated.input, evaluate generated.sets packet rule.expressions = ⟨[], none⟩) ∧
          evaluateChain generated.sets packet generated.input = ⟨[], none⟩) ∧
      (policies.get? packet.sport = none →
        (∀ rule ∈ generated.output, evaluate generated.sets packet rule.expressions = ⟨[], none⟩) ∧
          evaluateChain generated.sets packet generated.output = ⟨[], none⟩)) ∧
    generated.objects.Nodup ∧ (generated.sets.map SetConfig.name).Nodup ∧
    ((generated.input ++ generated.output).map Rule.key).Nodup := by
  obtain ⟨objects, sets, input, output⟩ := rules_ok accepted
  have entering {packet : Packet} {policy : Policy} (known : policies.get? packet.dport = some policy) :
      Ends generated.sets packet generated.input (if policy.Refuses packet then .drop else .accept)
        (named (if policy.Refuses packet then "cnt_drop" else "cnt_in") packet.dport) := by
    have own : Ends generated.sets packet (portInput packet.dport policy)
        (if policy.Refuses packet then .drop else .accept)
        (named (if policy.Refuses packet then "cnt_drop" else "cnt_in") packet.dport) := by
      rw [sets]
      by_cases refuses : policy.Refuses packet
      · rw [if_pos refuses, if_pos refuses]
        exact .portInput_refused rfl refuses (inSet_allow known (by simpa using refuses.1) _)
      · rw [if_neg refuses, if_neg refuses]
        exact .portInput_admitted rfl refuses fun listed => inSet_allow known listed _
    have whole := @blocks_own _ _ (fun entry => portInput entry.1 entry.2) _
      (portInput_silent generated.sets) _ _ known (by rw [own.verdict]; rfl)
    rw [input]
    exact ⟨by rw [whole]; exact own.verdict, by rw [whole]; exact own.counters⟩
  refine ⟨fun packet => ⟨⟨fun dropped => ?_, fun ⟨policy, known, refuses⟩ => ?_⟩, fun policy known =>
    entering known, fun policy known => ?_, fun unknown => ?_, fun unknown => ?_⟩, ?_, ?_, ?_⟩
  · cases known : policies.get? packet.dport with
    | none =>
        have silent := (@blocks_other _ _ (fun entry => portInput entry.1 entry.2) _
          (portInput_silent generated.sets) _ known).2
        rw [input, silent] at dropped
        cases dropped
    | some policy =>
        refine ⟨policy, rfl, ?_⟩
        by_contra admits
        have verdict := (entering known).verdict
        rw [dropped, if_neg admits] at verdict
        cases verdict
  · have verdict := (entering known).verdict
    rwa [if_pos refuses] at verdict
  · have own := @Ends.portOutput_counted generated.sets packet packet.sport rfl
    have whole := @blocks_own _ _ (fun entry => portOutput entry.1) _
      (portOutput_silent generated.sets) _ _ known (by rw [own.verdict]; rfl)
    rw [output]
    exact ⟨by rw [whole]; exact own.verdict, by rw [whole]; exact own.counters⟩
  · rw [input]
    exact blocks_other (portInput_silent generated.sets) unknown
  · rw [output]
    exact blocks_other (portOutput_silent generated.sets) unknown
  · rw [objects]
    exact @names_nodup policies (fun _ => objectWords) fun _ => by decide
  · rw [sets, List.map_flatMap]
    simp only [setWords_name]
    refine names_nodup policies fun policy => ?_
    unfold setWords
    split <;> decide
  · rw [List.map_append, input, output, List.map_flatMap, List.map_flatMap]
    simp only [inputWords_key, outputWords_key]
    refine List.nodup_append'.mpr ⟨names_nodup policies fun policy => ?_,
      @names_nodup policies (fun _ => outputWords) fun _ => by decide, fun name inside also => ?_⟩
    · unfold inputWords
      split <;> decide
    · obtain ⟨entry, _, first⟩ := List.mem_flatMap.mp inside
      obtain ⟨other, _, second⟩ := List.mem_flatMap.mp also
      obtain ⟨word, written, rfl⟩ := List.mem_map.mp first
      obtain ⟨again, outgoing, same⟩ := List.mem_map.mp second
      rw [(named_inj.mp same).1] at outgoing
      exact inputWords_disjoint entry.2 written outgoing

/-- Port 80 is for one address, port 443 for all. -/
def samplePolicies : Policies where
  entries := [(80, ⟨false, [⟨10, 0, 0, 1⟩]⟩), (443, ⟨true, []⟩)]
  sorted := by decide

theorem stranger_is_dropped :
    ∃ generated, rules samplePolicies "porthub".toList 300 = .ok generated ∧
      Ends generated.sets ⟨.v4 ⟨10, 0, 0, 2⟩, .v4 ⟨10, 0, 0, 9⟩, 5000, 80, true⟩ generated.input .drop
        "cnt_drop_80".toList := by
  cases made : rules samplePolicies "porthub".toList 300 with
  | error message =>
      have fine : (rules samplePolicies "porthub".toList 300).isOk = true := by decide
      rw [made] at fine
      cases fine
  | ok generated =>
      have ends := ((rules_decide_by_port made).1 ⟨.v4 ⟨10, 0, 0, 2⟩, .v4 ⟨10, 0, 0, 9⟩, 5000, 80, true⟩).2.1
        ⟨false, [⟨10, 0, 0, 1⟩]⟩ rfl
      refine ⟨generated, rfl, ?_⟩
      have name : named "cnt_drop" 80 = "cnt_drop_80".toList := by decide
      exact ends

end PortHub.Firewall
