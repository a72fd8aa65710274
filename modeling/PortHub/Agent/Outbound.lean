import Mathlib.Data.List.Sort
import PortHub.Lib.Dict
import PortHub.Lib.Runs
import PortHub.Rust

/-! # Outbound source selection

One selection is kept for each destination of the agent. It remembers the path that
worked and the pairs of addresses that failed. Paths are offered in the order in which
discovery listed them, both address families in turn.
-/

namespace PortHub.Agent.Outbound

open Runs

inductive IpAddr where
  | v4 (ip : Ipv4Addr)
  | v6 (bits : BitVec 128)
  deriving DecidableEq

def IpAddr.isIpv4 : IpAddr → Bool
  | .v4 _ => true
  | .v6 _ => false

inductive SocketAddr where
  | v4 (ip : Ipv4Addr) (port : UInt16)
  | v6 (bits : BitVec 128) (port : UInt16) (flowinfo scopeId : UInt32)
  deriving DecidableEq

structure Candidate where
  source : IpAddr
  interface : String
  destination : SocketAddr
  gateway : Option IpAddr
  metric : Option UInt32
  deriving DecidableEq

/-- Failures are counted for the pair, whatever the interface. -/
def Candidate.pair (c : Candidate) : IpAddr × SocketAddr := (c.source, c.destination)

/-- What a selected path is found again by. -/
def Candidate.key (c : Candidate) : IpAddr × SocketAddr × String := (c.source, c.destination, c.interface)

structure Selection where
  selected : Option Candidate
  /-- How often a pair failed, and until when it is left out. -/
  failed : Dict (IpAddr × SocketAddr) (Nat × Nat)

namespace Selection

/-- `Selection::default`. -/
def new : Selection := ⟨none, .empty⟩

/-- The loop once only one family is left. -/
def fillOne (ordered : List Candidate) : List Candidate → List Candidate
  | [] => ordered
  | c :: rest => if ordered.length < 8 then fillOne (ordered ++ [c]) rest else ordered

/-- The loop that fills eight places from the two families in turn. -/
def fill (ordered : List Candidate) : List Candidate → List Candidate → List Candidate
  | [], v6 => fillOne ordered v6
  | a :: v4, v6 =>
      if ordered.length < 8 then
        let ordered := ordered ++ [a]
        fill (if ordered.length < 8 then ordered ++ v6.head?.toList else ordered) v4 v6.tail
      else ordered

/-- A stable sort by a key. -/
def sortByKey (key : Candidate → Bool) (candidates : List Candidate) : List Candidate :=
  candidates.insertionSort fun a b => key a ≤ key b

def order (s : Selection) (candidates : List Candidate) (now : Nat) : List Candidate × Selection :=
  let failed := s.failed.retain fun key _ => candidates.any fun c => c.pair = key
  let selected := s.selected.bind fun previous =>
    candidates.find? fun c =>
      c.source = previous.source ∧ c.destination = previous.destination ∧ c.interface = previous.interface
  let available := candidates.filter fun c => (failed.get? c.pair).all fun failure => failure.2 ≤ now
  let available := sortByKey (fun c => decide (selected ≠ some c)) available
  let preferred := selected.filter (· ∈ available)
  let available := preferred.elim available available.erase
  let (v4, v6) := available.partition fun c => c.source.isIpv4
  (fill preferred.toList v4 v6, ⟨selected, failed⟩)

def failure (s : Selection) (candidate : Candidate) (now : Nat) : Selection :=
  let count := min (((s.failed.get? candidate.pair).elim 0 Prod.fst) + 1) 6
  { failed := s.failed.insert candidate.pair (count, now + seconds (min (2 ^ count) 60))
    selected := if s.selected = some candidate then none else s.selected }

def success (s : Selection) (candidate : Candidate) : Selection :=
  { failed := s.failed.erase candidate.pair, selected := some candidate }

end Selection

/-! ## One call -/

section Filling

variable {ordered v4 v6 candidates : List Candidate} {s : Selection} {now : Nat} {c : Candidate}

/-- Two lists in turn. -/
def alternate : List Candidate → List Candidate → List Candidate
  | [], v6 => v6
  | a :: v4, [] => a :: v4
  | a :: v4, b :: v6 => a :: b :: alternate v4 v6

theorem alternate_nil (v4 : List Candidate) : alternate v4 [] = v4 := by
  cases v4 <;> rfl

theorem alternate_perm (v4 v6 : List Candidate) : (alternate v4 v6).Perm (v4 ++ v6) := by
  induction v4, v6 using alternate.induct with
  | case1 v6 => exact .refl _
  | case2 a v4 => simp [alternate]
  | case3 a v4 b v6 ih =>
      refine .cons a ?_
      exact (ih.cons b).trans List.perm_middle.symm

theorem take_full {rest} (few : ordered.length ≤ 8) (stopped : ¬ ordered.length < 8) :
    ordered = (ordered ++ rest).take 8 := by
  rw [List.take_append_of_le_length (by omega), List.take_of_length_le (by omega)]

theorem fillOne_eq (few : ordered.length ≤ 8) : Selection.fillOne ordered v6 = (ordered ++ v6).take 8 := by
  induction v6 generalizing ordered with
  | nil => simp [Selection.fillOne, List.take_of_length_le few]
  | cons c rest ih =>
      unfold Selection.fillOne
      split
      · rw [ih (by rw [List.length_append, List.length_singleton]; omega)]
        simp
      · exact take_full few (by assumption)

/-- The loop takes the first eight of the two families in turn. -/
theorem fill_eq (few : ordered.length ≤ 8) :
    Selection.fill ordered v4 v6 = (ordered ++ alternate v4 v6).take 8 := by
  induction v4 generalizing ordered v6 with
  | nil => exact fillOne_eq few
  | cons a v4 ih =>
      have turns : ordered ++ alternate (a :: v4) v6 =
          (ordered ++ [a]) ++ (v6.head?.toList ++ alternate v4 v6.tail) := by
        cases v6 <;> simp [alternate, alternate_nil]
      unfold Selection.fill
      split
      · dsimp only
        rw [turns]
        have head : v6.head?.toList.length ≤ 1 := Option.length_toList_le
        split
        · rename_i second
          rw [ih (by rw [List.length_append]; omega), List.append_assoc (ordered ++ [a])]
        · rename_i first last
          have eight : (ordered ++ [a]).length = 8 := by
            rw [List.length_append, List.length_singleton] at last ⊢
            omega
          rw [ih (by omega), ← take_full (by omega) (by omega), ← take_full (by omega) (by omega)]
      · exact take_full few (by assumption)

theorem alternate_filter {family : Candidate → Bool} (yes : ∀ c ∈ v4, family c = true)
    (no : ∀ c ∈ v6, family c = false) :
    (alternate v4 v6).filter family = v4 ∧ (alternate v4 v6).filter (fun c => !family c) = v6 := by
  induction v4, v6 using alternate.induct with
  | case1 v6 => simpa [alternate, List.filter_eq_self] using no
  | case2 a v4 => simpa [alternate, List.filter_eq_self, List.filter_eq_nil_iff] using yes
  | case3 a v4 b v6 ih =>
      rw [List.forall_mem_cons] at yes no
      obtain ⟨first, second⟩ := ih yes.2 no.2
      simp [alternate, yes.1, no.1, first, second]

/-- The sort moves what has the key to the end and keeps the order otherwise. -/
theorem sortByKey_eq (key : Candidate → Bool) (candidates : List Candidate) :
    Selection.sortByKey key candidates =
      candidates.filter (fun c => !key c) ++ candidates.filter key := by
  have front : ∀ c xs, key c = false →
      List.orderedInsert (fun a b => key a ≤ key b) c xs = c :: xs := by
    intro c xs low
    cases xs with
    | nil => rfl
    | cons x xs => simp [low]
  have back : ∀ c xs ys, key c = true → (∀ x ∈ xs, key x = false) → (∀ y ∈ ys, key y = true) →
      List.orderedInsert (fun a b => key a ≤ key b) c (xs ++ ys) = xs ++ c :: ys := by
    intro c xs ys high lows highs
    induction xs with
    | nil =>
        cases ys with
        | nil => rfl
        | cons y ys => simp [highs y]
    | cons x xs ih =>
        rw [List.forall_mem_cons] at lows
        simp [lows.1, high, ih lows.2]
  induction candidates with
  | nil => rfl
  | cons c rest ih =>
      have sorted : Selection.sortByKey key (c :: rest) =
          List.orderedInsert (fun a b => key a ≤ key b) c (Selection.sortByKey key rest) := rfl
      rw [sorted, ih]
      cases here : key c with
      | false => simp [front c _ here, here]
      | true =>
          rw [back c _ _ here (fun _ member => by simpa using List.of_mem_filter member)
            (fun _ member => by simpa using List.of_mem_filter member)]
          simp [here]

/-- The pair failed and is left out at this time. -/
def Selection.BacksOff (s : Selection) (pair : IpAddr × SocketAddr) (now : Nat) : Prop :=
  ∃ failure, s.failed.get? pair = some failure ∧ now < failure.2

instance (s : Selection) (pair : IpAddr × SocketAddr) (now : Nat) : Decidable (s.BacksOff pair now) :=
  decidable_of_iff ((s.failed.get? pair).any fun failure => now < failure.2) (by
    simp [Selection.BacksOff, Option.any_eq_true])

/-- The listed candidates that may be tried. -/
def Selection.available (s : Selection) (candidates : List Candidate) (now : Nat) : List Candidate :=
  candidates.filter fun c => ¬ s.BacksOff c.pair now

/-- The listed candidate that is selected. -/
def Selection.refound (s : Selection) (candidates : List Candidate) : Option Candidate :=
  s.selected.bind fun previous => candidates.find? fun c => c.key = previous.key

theorem mem_available :
    c ∈ s.available candidates now ↔ c ∈ candidates ∧ ¬ s.BacksOff c.pair now := by
  simp [Selection.available]

/-- Only pairs that are not listed are forgotten. -/
theorem order_failed (listed : c ∈ candidates) :
    (s.order candidates now).2.failed.get? c.pair = s.failed.get? c.pair := by
  simp only [Selection.order, Dict.get?_retain]
  have any : (candidates.any fun other => decide (other.pair = c.pair)) = true :=
    List.any_eq_true.mpr ⟨c, listed, by simp⟩
  cases s.failed.get? c.pair <;> simp [any]

theorem order_selected : (s.order candidates now).2.selected = s.refound candidates := by
  simp [Selection.order, Selection.refound, Candidate.key, Prod.ext_iff]

def Selection.others (s : Selection) (candidates : List Candidate) (now : Nat) : List Candidate :=
  (s.available candidates now).filter (s.refound candidates ≠ some ·)

/-- Everything that may be tried, the selected candidate in front of the others in turn. -/
def Selection.queue (s : Selection) (candidates : List Candidate) (now : Nat) : List Candidate :=
  ((s.refound candidates).filter (· ∈ s.available candidates now)).toList ++
    alternate ((s.others candidates now).filter fun c => c.source.isIpv4)
      ((s.others candidates now).filter fun c => !c.source.isIpv4)

/-- The places are given to the selected candidate and then to the others in turn. -/
theorem order_eq (distinct : (candidates.map Candidate.key).Nodup) :
    (s.order candidates now).1 = (s.queue candidates now).take 8 := by
  have available : (candidates.filter fun c =>
      ((s.order candidates now).2.failed.get? c.pair).all fun failure => failure.2 ≤ now) =
        s.available candidates now := by
    refine List.filter_congr fun c listed => ?_
    rw [order_failed listed]
    cases found : s.failed.get? c.pair <;> simp [Selection.BacksOff, found]
  have unique : (s.available candidates now).Nodup := (List.Nodup.of_map _ distinct).filter _
  have unfolded : (s.order candidates now).1 =
      let sorted := Selection.sortByKey (fun c => decide ((s.order candidates now).2.selected ≠ some c))
        (candidates.filter fun c =>
          ((s.order candidates now).2.failed.get? c.pair).all fun failure => failure.2 ≤ now)
      let preferred := (s.order candidates now).2.selected.filter (· ∈ sorted)
      let others := preferred.elim sorted sorted.erase
      Selection.fill preferred.toList (others.filter fun c => c.source.isIpv4)
        (others.filter fun c => !c.source.isIpv4) := by
    simp [Selection.order, List.partition_eq_filter_filter, Function.comp_def]
  rw [unfolded, available, order_selected]
  unfold Selection.queue Selection.others
  rw [sortByKey_eq]
  cases selected : s.refound candidates with
  | none => simp [fill_eq]
  | some previous =>
      have equal : (s.available candidates now).filter (fun c => decide (previous = c)) =
          List.replicate ((s.available candidates now).count previous) previous := by
        rw [← List.filter_eq]
        exact List.filter_congr fun c _ => by simp [eq_comm]
      by_cases here : previous ∈ s.available candidates now
      · rw [List.count_eq_one_of_mem unique here] at equal
        simp [here, equal, fill_eq, Option.filter_some]
      · rw [List.count_eq_zero_of_not_mem here] at equal
        simp [here, equal, fill_eq, Option.filter_some]

/-- What a call of `order` answers, in terms of the selection it was called on. -/
structure Offered (s : Selection) (candidates : List Candidate) (now : Nat) (ordered : List Candidate) :
    Prop where
  few : ordered.length ≤ 8
  distinct : ordered.Nodup
  ready : ∀ c ∈ ordered, c ∈ candidates ∧ ¬ s.BacksOff c.pair now
  all : (s.available candidates now).length ≤ 8 → ∀ c ∈ s.available candidates now, c ∈ ordered
  selectedFirst : ∀ c ∈ s.available candidates now, s.selected.any (fun previous => c.key = previous.key) →
    ordered.head? = some c
  inOrder : ∀ family, (ordered.filter fun c =>
    c.source.isIpv4 == family && !s.selected.any fun previous => c.key = previous.key).Sublist candidates
  families : ∀ c ∈ s.available candidates now, ∃ other ∈ ordered, other.source.isIpv4 = c.source.isIpv4

theorem refound_iff (distinct : (candidates.map Candidate.key).Nodup) :
    s.refound candidates = some c ↔
      c ∈ candidates ∧ s.selected.any (fun previous => c.key = previous.key) = true := by
  unfold Selection.refound
  cases s.selected with
  | none => simp
  | some previous =>
      simp only [Option.bind_some, Option.any_some, decide_eq_true_eq]
      constructor
      · intro found
        exact ⟨List.mem_of_find?_eq_some found, by simpa using List.find?_some found⟩
      · rintro ⟨listed, same⟩
        cases found : candidates.find? fun c => decide (c.key = previous.key) with
        | none =>
            have absent := List.find?_eq_none.mp found c listed
            simp [same] at absent
        | some other =>
            have key : other.key = c.key := by
              rw [same]
              simpa using List.find?_some found
            rw [List.inj_on_of_nodup_map distinct (List.mem_of_find?_eq_some found) listed key]

theorem queue_perm (distinct : (candidates.map Candidate.key).Nodup) :
    (s.queue candidates now).Perm (s.available candidates now) := by
  have unique : (s.available candidates now).Nodup := (List.Nodup.of_map _ distinct).filter _
  have turns := (alternate_perm _ _).trans (List.filter_append_perm (fun c : Candidate => c.source.isIpv4)
    (s.others candidates now))
  refine (turns.append_left _).trans ?_
  unfold Selection.others
  refine (List.perm_ext_iff_of_nodup ?_ unique).mpr ?_
  · cases s.refound candidates with
    | none => simpa using unique
    | some previous =>
        rw [Option.filter_some]
        split
        · simpa using unique.filter _
        · simpa using unique.filter _
  · intro c
    cases s.refound candidates with
    | none => simp
    | some previous =>
        rw [Option.filter_some]
        by_cases same : previous = c
        · subst same
          split <;> simp_all
        · split <;> simp_all [eq_comm]

theorem alternate_heads (head : v4.head? = some c ∨ v6.head? = some c) :
    c ∈ (alternate v4 v6).take 2 := by
  cases v4 with
  | nil =>
      cases v6 with
      | nil => simp at head
      | cons b v6 => simpa [alternate, eq_comm] using Or.inl head
  | cons a v4 =>
      cases v6 with
      | nil => simpa [alternate, eq_comm] using Or.inl head
      | cons b v6 => simpa [alternate, eq_comm] using head

theorem order_nodup (distinct : (candidates.map Candidate.key).Nodup) :
    (s.order candidates now).1.Nodup := by
  rw [order_eq distinct]
  have unique : (s.available candidates now).Nodup := (List.Nodup.of_map _ distinct).filter _
  exact ((queue_perm distinct).nodup_iff.mpr unique).sublist (List.take_sublist _ _)

theorem mem_available_of_order (distinct : (candidates.map Candidate.key).Nodup)
    (offered : c ∈ (s.order candidates now).1) : c ∈ s.available candidates now := by
  rw [order_eq distinct] at offered
  exact (queue_perm distinct).mem_iff.mp (List.mem_of_mem_take offered)

theorem order_head (distinct : (candidates.map Candidate.key).Nodup)
    (free : c ∈ s.available candidates now) (selected : s.refound candidates = some c) :
    (s.order candidates now).1.head? = some c := by
  rw [order_eq distinct, Selection.queue, selected, Option.filter_some, if_pos (by simpa using free)]
  rfl

/-- Of each family, the others are offered as they were listed. -/
theorem queue_family (family : Bool) :
    ((s.queue candidates now).filter fun c => c.source.isIpv4 == family && s.refound candidates ≠ some c) =
      (s.others candidates now).filter (fun c => c.source.isIpv4 == family) := by
  have turns := @alternate_filter
    ((s.others candidates now).filter fun c => c.source.isIpv4)
    ((s.others candidates now).filter fun c => !c.source.isIpv4)
    (fun c => c.source.isIpv4) (fun c member => (List.mem_filter.mp member).2)
    (fun c member => by simpa using (List.mem_filter.mp member).2)
  have different : ∀ c ∈ alternate ((s.others candidates now).filter fun c => c.source.isIpv4)
      ((s.others candidates now).filter fun c => !c.source.isIpv4), s.refound candidates ≠ some c := by
    intro c member
    rw [(alternate_perm _ _).mem_iff, (List.filter_append_perm _ _).mem_iff] at member
    simpa using (List.mem_filter.mp member).2
  have front : (((s.refound candidates).filter (· ∈ s.available candidates now)).toList.filter fun c =>
      c.source.isIpv4 == family && s.refound candidates ≠ some c) = [] := by
    rw [List.filter_eq_nil_iff]
    intro c member
    rw [Option.mem_toList, Option.filter_eq_some_iff] at member
    simp [member.1]
  rw [Selection.queue, List.filter_append, front, List.nil_append]
  rw [List.filter_congr (fun c member => by
    rw [decide_eq_true (different c member), Bool.and_true])]
  cases family with
  | true => simpa using turns.1
  | false => simpa using turns.2

/-- A family that has another candidate gets one of the first three places. -/
theorem order_family (distinct : (candidates.map Candidate.key).Nodup)
    (other : c ∈ s.others candidates now) :
    ∃ first ∈ (s.order candidates now).1, first.source.isIpv4 = c.source.isIpv4 := by
  have member : c ∈ (s.others candidates now).filter (fun other => other.source.isIpv4 == c.source.isIpv4) := by
    simp [other]
  obtain ⟨first, head⟩ := Option.isSome_iff_exists.mp
    (List.isSome_head?.mpr (List.ne_nil_of_mem member))
  have family : first.source.isIpv4 = c.source.isIpv4 := by
    simpa using (List.mem_filter.mp (List.mem_of_mem_head? head)).2
  have early : first ∈ (alternate ((s.others candidates now).filter fun c => c.source.isIpv4)
      ((s.others candidates now).filter fun c => !c.source.isIpv4)).take 2 := by
    refine alternate_heads ?_
    cases same : c.source.isIpv4 with
    | true => exact .inl (by simpa [same] using head)
    | false => exact .inr (by simpa [same] using head)
  refine ⟨first, ?_, family⟩
  rw [order_eq distinct, Selection.queue, List.take_append]
  have one : ((s.refound candidates).filter (· ∈ s.available candidates now)).toList.length ≤ 1 :=
    Option.length_toList_le
  exact List.mem_append_right _ (List.take_subset_take_left _ (by omega) early)

theorem order_offered (distinct : (candidates.map Candidate.key).Nodup) :
    Offered s candidates now (s.order candidates now).1 where
  few := by
    rw [order_eq distinct]
    exact List.length_take_le _ _
  distinct := order_nodup distinct
  ready c offered := mem_available.mp (mem_available_of_order distinct offered)
  all := by
    intro few c free
    rw [order_eq distinct, List.take_of_length_le ((queue_perm distinct).length_eq.trans_le few)]
    exact (queue_perm distinct).mem_iff.mpr free
  selectedFirst c free same :=
    order_head distinct free ((refound_iff distinct).mpr ⟨(mem_available.mp free).1, same⟩)
  inOrder := by
    intro family
    have selected : ((s.order candidates now).1.filter fun c =>
        c.source.isIpv4 == family && !s.selected.any fun previous => c.key = previous.key) =
        (s.order candidates now).1.filter fun c =>
          c.source.isIpv4 == family && s.refound candidates ≠ some c := by
      refine List.filter_congr fun c offered => ?_
      have listed := (mem_available.mp (mem_available_of_order distinct offered)).1
      congr 1
      rw [Bool.eq_iff_iff]
      simp [refound_iff distinct, listed]
    rw [selected, order_eq distinct]
    refine ((List.take_sublist 8 _).filter _).trans ?_
    rw [queue_family]
    exact List.filter_sublist.trans (List.filter_sublist.trans List.filter_sublist)
  families := by
    intro c free
    by_cases selected : s.refound candidates = some c
    · exact ⟨c, List.mem_of_mem_head? (order_head distinct free selected), rfl⟩
    · exact order_family distinct (List.mem_filter.mpr ⟨free, by simpa using selected⟩)

end Filling

/-! ## Sequences of calls -/

inductive Call where
  | order (candidates : List Candidate) (now : Nat)
  | failure (candidate : Candidate) (now : Nat)
  | success (candidate : Candidate) (now : Nat)

def Call.now : Call → Nat
  | .order _ now | .failure _ now | .success _ now => now

def Selection.call (s : Selection) : Call → Selection
  | .order candidates now => (s.order candidates now).2
  | .failure candidate now => s.failure candidate now
  | .success candidate _ => s.success candidate

/-- A selection and the time of its last call. -/
abbrev Clocked := Nat × Selection

def Clocked.new : Clocked := (0, .new)

/-- Time does not go back. -/
def Clocked.call (s : Clocked) (call : Call) : Option Clocked :=
  if s.1 ≤ call.now then some (call.now, s.2.call call) else none

def Calls (s : Clocked) (call : Call) (t : Clocked) : Prop := s.call call = some t

theorem Calls.eq {s t call} (taken : Calls s call t) :
    s.1 ≤ call.now ∧ t = (call.now, s.2.call call) := by
  unfold Calls Clocked.call at taken
  split at taken
  · exact ⟨by assumption, (Option.some.inj taken).symm⟩
  · cases taken

section Backoff

variable {pair : IpAddr × SocketAddr} {s : Selection} {now : Nat} {count : Nat}

/-- The pair stays listed, and none of its candidates succeeds. -/
def Call.Keeps (pair : IpAddr × SocketAddr) : Call → Prop
  | .order candidates _ => ∃ c ∈ candidates, c.pair = pair
  | .failure _ _ => True
  | .success candidate _ => candidate.pair ≠ pair

def Call.Fails (pair : IpAddr × SocketAddr) : Call → Prop
  | .failure candidate _ => candidate.pair = pair
  | _ => False

/-- How long a pair is left out after a failure. -/
def backoff (count : Nat) : Nat := min (2 ^ count) 60

theorem backoff_mono {more} (le : count ≤ more) : backoff count ≤ backoff more := by
  have power : 2 ^ count ≤ 2 ^ more := Nat.pow_le_pow_right (by decide) le
  unfold backoff
  omega

theorem two_le_backoff (failed : 1 ≤ count) : 2 ≤ backoff count :=
  (by decide : 2 ≤ backoff 1).trans (backoff_mono failed)

theorem backoff_le (count : Nat) : backoff count ≤ 60 := min_le_right _ _

/-- The pair has failed this often, and stays out for as long after this time. -/
def Selection.Out (s : Selection) (pair : IpAddr × SocketAddr) (count since : Nat) : Prop :=
  ∃ failure, s.failed.get? pair = some failure ∧ count ≤ failure.1 ∧ failure.1 ≤ 6 ∧
    since + seconds (backoff count) ≤ failure.2

theorem failure_get? {c} :
    (s.failure c now).failed.get? c.pair =
      some (min (((s.failed.get? c.pair).elim 0 Prod.fst) + 1) 6,
        now + seconds (backoff (min (((s.failed.get? c.pair).elim 0 Prod.fst) + 1) 6))) :=
  Dict.get?_insert_self _ _ _

/-- A call that keeps the pair leaves its failure or adds one. -/
theorem call_get? {call : Call} (keeps : call.Keeps pair) :
    (s.call call).failed.get? pair = s.failed.get? pair ∨
      (call.Fails pair ∧ ∃ c, c.pair = pair ∧ s.call call = s.failure c call.now) := by
  cases call with
  | order candidates now =>
      obtain ⟨c, listed, rfl⟩ := keeps
      exact .inl (order_failed listed)
  | failure c now =>
      by_cases same : c.pair = pair
      · exact .inr ⟨same, c, same, rfl⟩
      · exact .inl (Dict.get?_insert_ne _ _ (Ne.symm same))
  | success c now => exact .inl (Dict.get?_erase_ne _ (Ne.symm keeps))

/-- Later failures only make it longer. -/
theorem Selection.Out.call {call : Call} {since} (out : s.Out pair count since)
    (later : since ≤ call.now) (keeps : call.Keeps pair) : (s.call call).Out pair count since := by
  obtain ⟨failure, found, most, few, long⟩ := out
  rcases call_get? (s := s) keeps with same | ⟨_, c, rfl, same⟩
  · exact ⟨failure, same.trans found, most, few, long⟩
  · rw [same]
    refine ⟨_, failure_get?, ?_, min_le_right _ _, ?_⟩
    · rw [found, Option.elim_some]
      omega
    · refine Nat.add_le_add later (Nat.mul_le_mul_right _ (backoff_mono ?_))
      rw [found, Option.elim_some]
      omega

end Backoff

section Kept

variable {s : Selection}

/-- The candidate stays listed, it does not fail and no other one succeeds. -/
def Call.Spares (c : Candidate) : Call → Prop
  | .order candidates _ => ∃ same ∈ candidates, same.key = c.key
  | .failure candidate _ => candidate.key ≠ c.key
  | .success candidate _ => candidate.key = c.key

theorem call_keeps_selected {call : Call} {c} (spares : call.Spares c)
    (selected : ∃ same, s.selected = some same ∧ same.key = c.key) :
    ∃ same, (s.call call).selected = some same ∧ same.key = c.key := by
  obtain ⟨same, selected, key⟩ := selected
  cases call with
  | order candidates now =>
      obtain ⟨listed, member, listedKey⟩ := spares
      have found : (candidates.find? fun c => decide (c.key = same.key)).isSome := by
        rw [List.find?_isSome]
        exact ⟨listed, member, by simpa using listedKey.trans key.symm⟩
      obtain ⟨again, found⟩ := Option.isSome_iff_exists.mp found
      have againKey : again.key = same.key := by simpa using List.find?_some found
      refine ⟨again, ?_, againKey.trans key⟩
      rw [Selection.call, order_selected, Selection.refound, selected]
      exact found
  | failure candidate now =>
      refine ⟨same, ?_, key⟩
      rw [Selection.call, Selection.failure, selected]
      refine if_neg fun equal => ?_
      exact spares ((congrArg Candidate.key (Option.some.inj equal)).symm.trans key)
  | success candidate now => exact ⟨candidate, rfl, spares⟩

end Kept

/-- While the pair is kept, it stays out since its failure. -/
theorem out_of_run {c : Candidate} {since count clock s after later}
    (run : Run Calls (since, s) later (clock, after)) (out : s.Out c.pair count since)
    (keeps : ∀ call ∈ later, call.Keeps c.pair) : since ≤ clock ∧ after.Out c.pair count since := by
  have kept := run.restrict keeps
  have invariant := @Run.historyInvariant _ _ _ _
    (fun _ (t : Clocked) => since ≤ t.1 ∧ t.2.Out c.pair count since) ⟨le_refl _, out⟩
    (fun _ t call u _ before taken => by
      obtain ⟨forward, rfl⟩ := Calls.eq taken.1
      have later : since ≤ call.now := before.1.trans forward
      exact ⟨later, before.2.call later taken.2⟩) _ _ kept
  exact invariant

/-- Without another failure of the pair, nothing about it changes. -/
theorem failed_of_run {pair start clock after later} (run : Run Calls start later (clock, after))
    (keeps : ∀ call ∈ later, call.Keeps pair ∧ ¬ call.Fails pair) :
    after.failed.get? pair = start.2.failed.get? pair := by
  have kept := run.restrict keeps
  exact @Run.historyInvariant _ _ _ _
    (fun _ (t : Clocked) => t.2.failed.get? pair = start.2.failed.get? pair) rfl
    (fun _ t call u _ before taken => by
      obtain ⟨_, rfl⟩ := Calls.eq taken.1
      rcases call_get? (s := t.2) taken.2.1 with same | ⟨fails, _⟩
      · exact same.trans before
      · exact absurd fails taken.2.2) _ _ kept

/-- In every state, whatever calls led to it: an answer is at most eight distinct paths out of
    backoff, the selected one first and both families served; a failure keeps the pair away for
    its backoff; and a selected candidate stays selected, whatever becomes of its gateway and
    metric. -/
theorem selection_holds (s : Selection) :
    (∀ candidates now, (candidates.map Candidate.key).Nodup →
      Offered s candidates now (s.order candidates now).1) ∧
    (∀ c since, ∃ pause, 2 ≤ pause ∧ pause ≤ 60 ∧
      ∀ later clock after, Run Calls (since, s.failure c since) later (clock, after) →
        (∀ call ∈ later, call.Keeps c.pair) → ∀ candidates now, clock ≤ now →
        (candidates.map Candidate.key).Nodup →
          (now < since + seconds pause → ∀ other ∈ (after.order candidates now).1, other.pair ≠ c.pair) ∧
          ((∀ call ∈ later, ¬ call.Fails c.pair) →
            (after.BacksOff c.pair now ↔ now < since + seconds pause))) ∧
    (∀ c, s.selected = some c → ∀ since later clock after, Run Calls (since, s) later (clock, after) →
      (∀ call ∈ later, call.Spares c) → ∃ same, after.selected = some same ∧ same.key = c.key) := by
  refine ⟨fun candidates now distinct => order_offered distinct, fun c since => ?_, fun c selected => ?_⟩
  · have found : (s.failure c since).failed.get? c.pair = _ := failure_get?
    generalize counted : min (((s.failed.get? c.pair).elim 0 Prod.fst) + 1) 6 = count at found
    have out : (s.failure c since).Out c.pair count since :=
      ⟨_, found, le_refl _, counted ▸ min_le_right _ _, le_refl _⟩
    refine ⟨backoff count, two_le_backoff (by omega), backoff_le count, ?_⟩
    intro later clock after run keeps candidates now _ distinct
    constructor
    · intro early other offered same
      obtain ⟨_, failure, kept, _, _, long⟩ := out_of_run run out keeps
      have free := (mem_available.mp (mem_available_of_order distinct offered)).2
      exact free ⟨failure, same ▸ kept, early.trans_le long⟩
    · intro once
      have same := failed_of_run run fun call member => ⟨keeps call member, once call member⟩
      simp [Selection.BacksOff, same, found]
  · intro since later clock after run spares
    exact @Run.historyInvariant _ _ _ _
      (fun _ (t : Clocked) => ∃ same, t.2.selected = some same ∧ same.key = c.key) ⟨c, selected, rfl⟩
      (fun _ t call u _ before taken => by
        obtain ⟨_, rfl⟩ := Calls.eq taken.1
        exact call_keeps_selected taken.2 before) _ _ (run.restrict spares)

def eth : Candidate := ⟨.v4 ⟨192, 0, 2, 10⟩, "eth0", .v4 ⟨198, 51, 100, 1⟩ 443, none, some 100⟩

def wlan : Candidate := ⟨.v6 1, "wlan0", .v6 2 443 0 0, none, none⟩

/-- The path over `wlan` worked, the one over `eth` failed. -/
def onceFailed : Clocked :=
  (seconds 1, ((Selection.new.order [eth, wlan] 0).2.success wlan).failure eth (seconds 1))

theorem wlan_stays_selected :
    Run Calls .new [.order [eth, wlan] 0, .success wlan 0, .failure eth (seconds 1)] onceFailed ∧
      Offered onceFailed.2 [eth, wlan] (seconds 2) (onceFailed.2.order [eth, wlan] (seconds 2)).1 ∧
      (onceFailed.2.order [eth, wlan] (seconds 2)).1 = [wlan] ∧
      (onceFailed.2.order [eth, wlan] (seconds 3)).1 = [wlan, eth] := by
  have run : Run Calls .new [.order [eth, wlan] 0, .success wlan 0, .failure eth (seconds 1)] onceFailed :=
    Run.of_foldlM rfl
  exact ⟨run, (selection_holds onceFailed.2).1 [eth, wlan] (seconds 2) (by decide), by decide, by decide⟩

end PortHub.Agent.Outbound
