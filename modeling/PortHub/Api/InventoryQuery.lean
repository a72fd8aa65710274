import Mathlib.Data.List.Forall2
import Mathlib.Data.List.InsertIdx

/-! # Fuzzy search

The fuzzy pattern of a term lists its spellings with one edit, between two places that
hold no letter or digit. It matches when a whole run of letters and digits is such a
spelling. Unicode and the crates that know it are a parameter.
-/

namespace PortHub.Api.InventoryQuery

structure Unicode where
  nfkd : List Char → List Char
  isCombiningMark : Char → Bool
  isAlphabetic : Char → Bool
  /-- `\p{L}` or `\p{N}`. -/
  isWord : Char → Bool
  /-- What the option `i` reads for a character of the pattern. -/
  sameCase : Char → Char → Bool
  same_refl : ∀ c, sameCase c c = true
  same_lower : ∀ c, sameCase c.toLower c = true

section Patterns

/-- What a pattern reads one character with. -/
inductive Item where
  | quoted (c : Char)
  | set (chars : List Char)
  /-- `[\p{L}\p{N}]`. -/
  | word
  deriving DecidableEq

/-- How an item is written, `quote` included. -/
def Item.text : Item → String
  | .quoted c => if ".^$*+?()[]\x7b\x7d|\\".contains c then "\\" ++ c.toString else c.toString
  | .set chars => "[" ++ String.ofList chars ++ "]"
  | .word => "[\\p\x7bL\x7d\\p\x7bN\x7d]"

def charPattern (c : Char) : Item :=
  match c.toLower with
  | 'a' => .set "aàáâãäåā".toList
  | 'e' => .set "eèéêëē".toList
  | 'i' => .set "iìíîïī".toList
  | 'o' => .set "oòóôõöō".toList
  | 'u' => .set "uùúûüū".toList
  | 'c' => .set "cçćč".toList
  | 'n' => .set "nñń".toList
  | _ => .quoted c

/-- `slice::swap` of an index with the next one. -/
def swapNext {α : Type} : Nat → List α → List α
  | 0, first :: second :: rest => second :: first :: rest
  | i + 1, first :: rest => first :: swapNext i rest
  | _, items => items

def alternatives (parts : List Item) : List (List Item) :=
  parts :: ((List.range parts.length).flatMap fun i =>
      parts.eraseIdx i :: parts.set i .word :: (if i + 1 < parts.length then [swapNext i parts] else []))
    ++ (List.range (parts.length + 1)).map fun i => parts.insertIdx i .word

/-- The alternatives, behind the start or no letter or digit and before such a character or the end. -/
structure Fuzzy where
  alternatives : List (List Item)

def Fuzzy.text (fuzzy : Fuzzy) : String :=
  "(?:^|[^\\p\x7bL\x7d\\p\x7bN\x7d])(?:" ++
    "|".intercalate (fuzzy.alternatives.map fun items => String.join (items.map Item.text)) ++
    ")(?:$|[^\\p\x7bL\x7d\\p\x7bN\x7d])"

variable (unicode : Unicode)

def normalized (term : List Char) : List Char :=
  (unicode.nfkd term).filter fun c => !unicode.isCombiningMark c

/-- The literal pattern and the fuzzy one. -/
def patterns (term : List Char) : List Item × Option Fuzzy :=
  let chars := normalized unicode term
  let parts := chars.map charPattern
  if chars.length < 4 || chars.length > 32 || !chars.any unicode.isAlphabetic then (parts, none)
  else (parts, some ⟨alternatives parts⟩)

end Patterns

section Meaning

variable (unicode : Unicode)

def Item.Reads : Item → Char → Prop
  | .quoted c, read => unicode.sameCase c read = true
  | .set chars, read => ∃ c ∈ chars, unicode.sameCase c read = true
  | .word, read => unicode.isWord read = true

/-- The start or the end of the text, or a character that is no letter or digit. -/
def Border (neighbour : Option Char) : Prop := ∀ c, neighbour = some c → unicode.isWord c = false

/-- The pattern is found somewhere in the text. A final newline, before which `$` holds too,
    is no letter. -/
def Fuzzy.Matches (fuzzy : Fuzzy) (text : List Char) : Prop :=
  ∃ before found after, text = before ++ found ++ after ∧ Border unicode before.getLast? ∧
    Border unicode after.head? ∧
    ∃ items ∈ fuzzy.alternatives, List.Forall₂ (Item.Reads unicode) items found

/-- A maximal run of letters and digits. -/
def Run (text run : List Char) : Prop :=
  ∃ before after, text = before ++ run ++ after ∧ Border unicode before.getLast? ∧
    Border unicode after.head? ∧ ∀ c ∈ run, unicode.isWord c = true

/-- Equal up to case and the listed accents. -/
def Same (c read : Char) : Prop := (charPattern c).Reads unicode read

/-- At most one edit. -/
inductive OneEdit (term : List Char) : List Char → Prop where
  | none : OneEdit term term
  | deletion (i : Nat) : i < term.length → OneEdit term (term.eraseIdx i)
  | substitution (i : Nat) (c : Char) : i < term.length → unicode.isWord c = true → OneEdit term (term.set i c)
  | insertion (i : Nat) (c : Char) : i ≤ term.length → unicode.isWord c = true → OneEdit term (term.insertIdx i c)
  | swap (i : Nat) : i + 1 < term.length → OneEdit term (swapNext i term)

end Meaning

section Edits

variable {unicode : Unicode} {term found text : List Char}

theorem same_self (unicode : Unicode) (c : Char) : Same unicode c c := by
  have lower := unicode.same_lower c
  unfold Same charPattern
  split
  case h_8 => exact unicode.same_refl c
  all_goals
    rename_i here
    exact ⟨_, by decide, here ▸ lower⟩

theorem map_swapNext {α β : Type} (f : α → β) (i : Nat) (items : List α) :
    (swapNext i items).map f = swapNext i (items.map f) := by
  induction i generalizing items with
  | zero => rcases items with _ | ⟨_, _ | ⟨_, _⟩⟩ <;> rfl
  | succ i ih =>
      cases items with
      | nil => rfl
      | cons first rest => exact congrArg (f first :: ·) (ih rest)

theorem swapNext_subset {α : Type} (i : Nat) (items : List α) : swapNext i items ⊆ items := by
  induction i generalizing items with
  | zero => rcases items with _ | ⟨_, _ | ⟨_, _⟩⟩ <;> simp [swapNext]
  | succ i ih =>
      cases items with
      | nil => exact List.Subset.refl []
      | cons first rest => exact List.cons_subset_cons first (ih rest)

theorem insertIdx_cut {α : Type} {items : List α} {i : Nat} (item : α) (inside : i ≤ items.length) :
    items.insertIdx i item = items.take i ++ item :: items.drop i := by
  induction i generalizing items with
  | zero => rfl
  | succ i ih =>
      cases items with
      | nil => cases inside
      | cons first rest => exact congrArg (first :: ·) (ih (Nat.le_of_succ_le_succ inside))

theorem reads_plain (items found : List Char) :
    List.Forall₂ (Item.Reads unicode) (items.map charPattern) found ↔ List.Forall₂ (Same unicode) items found :=
  List.forall₂_map_left_iff

section

variable (words : ∀ c ∈ found, unicode.isWord c = true)

include words

/-- Letters and digits of a text are read for `[\p{L}\p{N}]` as for themselves. -/
theorem reads_word {first rest : List Char} :
    List.Forall₂ (Item.Reads unicode) (first.map charPattern ++ .word :: rest.map charPattern) found ↔
      ∃ c, unicode.isWord c = true ∧ List.Forall₂ (Same unicode) (first ++ c :: rest) found := by
  induction first generalizing found with
  | nil =>
      simp only [List.map_nil, List.nil_append, List.forall₂_cons_left_iff, reads_plain]
      constructor
      · rintro ⟨read, later, isWord, reads, rfl⟩
        exact ⟨read, isWord, read, later, same_self unicode read, reads, rfl⟩
      · rintro ⟨_, _, read, later, _, reads, rfl⟩
        exact ⟨read, later, words read (by simp), reads, rfl⟩
  | cons c first ih =>
      simp only [List.map_cons, List.cons_append, List.forall₂_cons_left_iff]
      constructor
      · rintro ⟨read, later, same, reads, rfl⟩
        obtain ⟨other, isWord, reads⟩ := (ih fun c inside => words c (List.mem_cons_of_mem _ inside)).mp reads
        exact ⟨other, isWord, read, later, same, reads, rfl⟩
      · rintro ⟨other, isWord, read, later, same, reads, rfl⟩
        exact ⟨read, later, same,
          (ih fun c inside => words c (List.mem_cons_of_mem _ inside)).mpr ⟨other, isWord, reads⟩, rfl⟩

theorem reads_substitution {i : Nat} (inside : i < term.length) :
    List.Forall₂ (Item.Reads unicode) ((term.map charPattern).set i .word) found ↔
      ∃ c, unicode.isWord c = true ∧ List.Forall₂ (Same unicode) (term.set i c) found := by
  simp only [List.set_eq_take_append_cons_drop, List.length_map, if_pos inside, ← List.map_take, ← List.map_drop]
  exact reads_word words

theorem reads_insertion {i : Nat} (inside : i ≤ term.length) :
    List.Forall₂ (Item.Reads unicode) ((term.map charPattern).insertIdx i .word) found ↔
      ∃ c, unicode.isWord c = true ∧ List.Forall₂ (Same unicode) (term.insertIdx i c) found := by
  rw [insertIdx_cut _ (by simpa using inside), ← List.map_take, ← List.map_drop]
  simp only [insertIdx_cut _ inside]
  exact reads_word words

/-- One of the alternatives reads a run exactly when the run is a spelling with one edit. -/
theorem reads_alternatives :
    (∃ items ∈ alternatives (term.map charPattern), List.Forall₂ (Item.Reads unicode) items found) ↔
      ∃ word, OneEdit unicode term word ∧ List.Forall₂ (Same unicode) word found := by
  constructor
  · rintro ⟨items, listed, reads⟩
    simp only [alternatives, List.mem_append, List.mem_cons, List.mem_flatMap, List.mem_map, List.mem_range,
      List.length_map] at listed
    rcases listed with (rfl | ⟨i, inside, rfl | rfl | swapped⟩) | ⟨i, inside, rfl⟩
    · exact ⟨term, .none, (reads_plain _ _).mp reads⟩
    · rw [List.eraseIdx_map] at reads
      exact ⟨_, .deletion i inside, (reads_plain _ _).mp reads⟩
    · obtain ⟨c, isWord, reads⟩ := (reads_substitution words inside).mp reads
      exact ⟨_, .substitution i c inside isWord, reads⟩
    · split at swapped
      · rename_i both
        rw [List.mem_singleton.mp swapped, ← map_swapNext] at reads
        exact ⟨_, .swap i both, (reads_plain _ _).mp reads⟩
      · cases swapped
    · obtain ⟨c, isWord, reads⟩ := (reads_insertion words (by omega)).mp reads
      exact ⟨_, .insertion i c (by omega) isWord, reads⟩
  · rintro ⟨word, edit, reads⟩
    simp only [alternatives, List.mem_append, List.mem_cons, List.mem_flatMap, List.mem_map, List.mem_range,
      List.length_map]
    cases edit with
    | none => exact ⟨_, .inl (.inl rfl), (reads_plain _ _).mpr reads⟩
    | deletion i inside =>
        refine ⟨_, .inl (.inr ⟨i, inside, .inl rfl⟩), ?_⟩
        rw [List.eraseIdx_map]
        exact (reads_plain _ _).mpr reads
    | substitution i c inside isWord =>
        exact ⟨_, .inl (.inr ⟨i, inside, .inr (.inl rfl)⟩), (reads_substitution words inside).mpr ⟨c, isWord, reads⟩⟩
    | insertion i c inside isWord =>
        exact ⟨_, .inr ⟨i, by omega, rfl⟩, (reads_insertion words inside).mpr ⟨c, isWord, reads⟩⟩
    | swap i both =>
        refine ⟨swapNext i (term.map charPattern), .inl (.inr ⟨i, by omega, .inr (.inr (by simp [both]))⟩), ?_⟩
        rw [← map_swapNext]
        exact (reads_plain _ _).mpr reads

end

/-- A term whose characters are read by letters and digits only. -/
def Closed (unicode : Unicode) (term : List Char) : Prop :=
  ∀ c ∈ term, ∀ read, Same unicode c read → unicode.isWord read = true

theorem Closed.alternatives (closed : Closed unicode term) {items}
    (listed : items ∈ alternatives (term.map charPattern)) :
    ∀ item ∈ items, ∀ read, item.Reads unicode read → unicode.isWord read = true := by
  have plain : ∀ item ∈ term.map charPattern, ∀ read, item.Reads unicode read → unicode.isWord read = true := by
    simpa [Closed, Same] using closed
  have word : ∀ read, Item.Reads unicode .word read → unicode.isWord read = true := fun _ isWord => isWord
  simp only [InventoryQuery.alternatives, List.mem_append, List.mem_cons, List.mem_flatMap, List.mem_map,
    List.mem_range] at listed
  intro item member
  rcases listed with (rfl | ⟨i, _, rfl | rfl | swapped⟩) | ⟨i, _, rfl⟩
  · exact plain item member
  · exact plain item (List.mem_of_mem_eraseIdx member)
  · rcases List.mem_or_eq_of_mem_set member with old | rfl
    · exact plain item old
    · exact word
  · split at swapped
    · rw [List.mem_singleton.mp swapped] at member
      exact plain item (swapNext_subset i _ member)
    · cases swapped
  · rcases List.eq_or_mem_of_mem_insertIdx member with rfl | old
    · exact word
    · exact plain item old

theorem words_of_reads {items} (reads : List.Forall₂ (Item.Reads unicode) items found)
    (safe : ∀ item ∈ items, ∀ read, item.Reads unicode read → unicode.isWord read = true) :
    ∀ c ∈ found, unicode.isWord c = true := by
  induction reads with
  | nil => simp
  | cons read _ ih =>
      rw [List.forall_mem_cons] at safe ⊢
      exact ⟨safe.1 _ read, ih safe.2⟩

theorem matches_iff (closed : Closed unicode term) (text : List Char) :
    Fuzzy.Matches unicode ⟨alternatives (term.map charPattern)⟩ text ↔
      ∃ run, Run unicode text run ∧ ∃ word, OneEdit unicode term word ∧ List.Forall₂ (Same unicode) word run := by
  constructor
  · rintro ⟨before, found, after, cut, left, right, items, listed, reads⟩
    have words := words_of_reads reads (closed.alternatives listed)
    exact ⟨found, ⟨before, after, cut, left, right, words⟩, (reads_alternatives words).mp ⟨items, listed, reads⟩⟩
  · rintro ⟨run, ⟨before, after, cut, left, right, words⟩, spelled⟩
    exact ⟨before, run, after, cut, left, right, (reads_alternatives words).mpr spelled⟩

end Edits

/-- Fuzzy search is one edit of a whole word, and none for numbers. -/
theorem fuzzy_search_is_one_edit (unicode : Unicode) (term : List Char) :
    (4 ≤ (normalized unicode term).length → (normalized unicode term).length ≤ 32 →
      (normalized unicode term).any unicode.isAlphabetic = true → Closed unicode (normalized unicode term) →
      ∃ fuzzy, (patterns unicode term).2 = some fuzzy ∧ ∀ text, fuzzy.Matches unicode text ↔
        ∃ run, Run unicode text run ∧
          ∃ word, OneEdit unicode (normalized unicode term) word ∧ List.Forall₂ (Same unicode) word run) ∧
    ((normalized unicode term).any unicode.isAlphabetic = false → (patterns unicode term).2 = none) := by
  refine ⟨fun long short alphabetic closed => ?_, fun numeric => ?_⟩
  · refine ⟨⟨alternatives ((normalized unicode term).map charPattern)⟩, ?_, matches_iff closed⟩
    unfold patterns
    rw [if_neg (by simp [alphabetic, long, short])]
  · simp [patterns, numeric]

/-- Letters, a space, and the combining mark that has the case of iota. -/
def sample : Unicode where
  nfkd := id
  isCombiningMark c := c == '\u0345'
  isAlphabetic c := c != ' '
  isWord c := c != ' ' && c != '\u0345'
  sameCase c read := c == read || c == read.toLower || (c == 'ι' && read == '\u0345')
  same_refl c := by simp
  same_lower c := by simp

theorem misspelled_word_is_found : ∃ fuzzy, (patterns sample ['d', 'b', 'm', 's']).2 = some fuzzy ∧
    fuzzy.Matches sample ['a', ' ', 'D', 'B', 'N', 'S'] := by
  have closed : Closed sample ['d', 'b', 'm', 's'] := by
    intro c member read same
    by_contra other
    have blank : read = ' ' ∨ read = '\u0345' := by simpa [sample, imp_iff_not_or] using other
    simp only [List.mem_cons, List.not_mem_nil, or_false] at member
    rcases member with rfl | rfl | rfl | rfl <;> rcases blank with rfl | rfl <;> cases same
  obtain ⟨fuzzy, given, found⟩ := (fuzzy_search_is_one_edit sample ['d', 'b', 'm', 's']).1 (by decide) (by decide)
    (by decide) closed
  refine ⟨fuzzy, given, (found _).mpr ⟨['D', 'B', 'N', 'S'], ⟨['a', ' '], [], rfl, ?_, ?_, by simp [sample]⟩,
    _, .substitution 2 'n' (by decide) (by decide), .cons rfl (.cons rfl (.cons ?_ (.cons rfl .nil)))⟩⟩
  · rintro _ ⟨⟩
    rfl
  · rintro _ ⟨⟩
  · exact ⟨'n', by decide, rfl⟩

/-- Twice the mark for iota: the term is found, and the only run of the text is two edits away. -/
theorem marked_iota_is_found :
    let term := ['ι', 'β', 'γ', 'ι']
    let text := ['\u0345', 'β', 'γ', '\u0345']
    (normalized sample term).length = 4 ∧ (∀ c ∈ normalized sample term, sample.isWord c = true) ∧
      (normalized sample term).any sample.isAlphabetic = true ∧
      (∃ fuzzy, (patterns sample term).2 = some fuzzy ∧ fuzzy.Matches sample text) ∧
      ¬∃ run, Run sample text run ∧
        ∃ word, OneEdit sample (normalized sample term) word ∧ List.Forall₂ (Same sample) word run := by
  intro term text
  refine ⟨by decide, by simp [normalized, sample, term], by decide, ⟨_, rfl, [], text, [], rfl, ?_, ?_, _, .head _, ?_⟩, ?_⟩
  · rintro _ ⟨⟩
  · rintro _ ⟨⟩
  · exact (reads_plain term text).mpr (.cons rfl (.cons rfl (.cons rfl (.cons rfl .nil))))
  · rintro ⟨run, ⟨before, after, cut, _, _, words⟩, word, edit, same⟩
    have iota : 'ι' ∈ word := by
      change OneEdit sample ['ι', 'β', 'γ', 'ι'] word at edit
      rcases edit with _ | ⟨i, inside⟩ | ⟨i, c, inside, _⟩ | ⟨i, c, inside, _⟩ | ⟨i, inside⟩
      · decide
      all_goals rcases i with _ | _ | _ | _ | _ | i <;> simp_all [swapNext]
    obtain ⟨i, inside, here⟩ := List.getElem_of_mem iota
    have reads := (List.forall₂_iff_get.mp same).2 i inside (same.length_eq ▸ inside)
    generalize read : run.get _ = c at reads
    have member : c ∈ run := read ▸ List.get_mem ..
    have listed : c ∈ before ++ run ++ after := by simp [member]
    rw [List.get_eq_getElem, here] at reads
    rw [← cut] at listed
    have isWord := words c member
    simp only [text, List.mem_cons, List.not_mem_nil, or_false] at listed
    rcases listed with rfl | rfl | rfl | rfl
    · cases isWord
    · cases reads
    · cases reads
    · cases isWord

end PortHub.Api.InventoryQuery
