import Mathlib.Data.List.Chain
import PortHub.Components.Catalog
import PortHub.Lib.Runs

/-! # The history of accepted catalogs

A manager replaces its catalog only by one that `validate_successor` accepted
against the catalog it had. The comparison looks at the catalog directly before:
a tool that left the catalog is not compared again when it comes back, so that
its version can then name different bytes. The main result says exactly when a
whole history keeps every published version.
-/

namespace PortHub.Components

variable {toVec : Catalog → List UInt8} {previous next : Catalog}

/-! ## The catalog file of a manager -/

/-- What the manager's catalog file holds, and what the shared cache reads as. -/
structure Manager where
  catalog : Option Catalog
  shared : Option Catalog
  /-- Whether a shared cache is configured that this account may write. -/
  isWriter : Bool

/-- How `publish` ends: the system may report an error before the file is renamed, or behind
    it while the directory is synchronized. -/
inductive Publication where
  | done
  | failed (message : String)
  | unsynced (message : String)

/-- The file has the new contents. -/
def Publication.replaces : Publication → Bool
  | .failed _ => false
  | .done | .unsynced _ => true

def Publication.result : Publication → Result Unit
  | .done => .ok ()
  | .failed message | .unsynced message => .error message

/-- What one allowed source answers to the request for a catalog. With a document comes how its
    temporary file is published. -/
inductive Answer where
  | document (document : Document) (publication : Publication)
  | accessDenied (message : String)
  | cancelled
  | unavailable

structure Refresh where
  catalog : Catalog
  fresh : Bool

namespace Manager

def cachedCatalog (m : Manager) : Option Catalog :=
  match m.catalog, m.shared with
  | some own, some shared => if own.release.lt shared.release then some shared else some own
  | some own, none => some own
  | none, shared => shared

/-- The checks of `publish_catalog` and `remember_catalog` on the catalog that
    is already there: whether the new one is written. -/
def supersedes (toVec : Catalog → List UInt8) (catalog : Catalog) (previous : Option Catalog) :
    Result Bool :=
  match previous with
  | none => .ok true
  | some previous =>
      if catalog.release.lt previous.release then .ok false
      else do
        catalog.validateSuccessor toVec previous
        return decide (catalog.release ≠ previous.release)

/-- `mirror_catalog`: a failed `publish_catalog` is only logged. -/
def mirrorCatalog (toVec : Catalog → List UInt8) (m : Manager) (catalog : Catalog) : Manager :=
  if m.isWriter then
    match catalog.validate, supersedes toVec catalog m.shared with
    | .ok (), .ok true => { m with shared := some catalog }
    | _, _ => m
  else m

/-- A fetched document, accepted against the catalog the manager had. -/
def accept (toVec : Catalog → List UInt8) (cached : Option Catalog) (document : Document) :
    Result Catalog := do
  let catalog ← document.parse
  match cached with
  | none => return catalog
  | some previous =>
      catalog.validateSuccessor toVec previous
      return catalog

def publish (m : Manager) (catalog : Catalog) (publication : Publication) : Manager × Result Unit :=
  (if publication.replaces then { m with catalog := some catalog } else m, publication.result)

/-- `refresh_state`: the first source that delivers a document decides. -/
def refreshState (toVec : Catalog → List UInt8) (m : Manager) :
    List Answer → Manager × Result Refresh
  | [] =>
      match m.cachedCatalog with
      | some catalog => (m, .ok ⟨catalog, false⟩)
      | none => (m, .error "component catalog unavailable from allowed download sources")
  | .document document publication :: _ =>
      match accept toVec m.cachedCatalog document with
      | .error message => (m, .error message)
      | .ok catalog =>
          match publish m catalog publication with
          | (after, .error message) => (after, .error message)
          | (after, .ok ()) => (mirrorCatalog toVec after catalog, .ok ⟨catalog, true⟩)
  | .accessDenied message :: _ => (m, .error message)
  | .cancelled :: _ => (m, .error "component operation cancelled")
  | .unavailable :: rest => refreshState toVec m rest

/-- The catalog that a refresh writes to the manager's file, also when it then fails. -/
def written (toVec : Catalog → List UInt8) (m : Manager) : List Answer → Option Catalog
  | .document document publication :: _ =>
      if publication.replaces then (accept toVec m.cachedCatalog document).toOption else none
  | .unavailable :: rest => written toVec m rest
  | _ => none

/-- `remember_catalog`, with how its file is published. -/
def rememberCatalog (toVec : Catalog → List UInt8) (m : Manager) (catalog : Catalog)
    (publication : Publication) : Manager × Result Unit :=
  match supersedes toVec catalog m.catalog with
  | .error message => (m, .error message)
  | .ok false => (m, .ok ())
  | .ok true => publish m catalog publication

end Manager

/-- The two callers of these operations. `resolve` goes on with the catalog it
    has, or fetches one, and remembers it when the component can be selected. -/
inductive Request where
  | refresh (answers : List Answer)
  | resolve (answers : List Answer) (selected : Bool) (publication : Publication)

namespace Manager

/-- `resolve`, up to the point where the executable is looked at. -/
def remember (toVec : Catalog → List UInt8) (m : Manager) (catalog : Catalog)
    (selected : Bool) (publication : Publication) : Manager × Option Catalog :=
  if selected then
    let (after, _) := rememberCatalog toVec m catalog publication
    (after, if after.catalog = m.catalog then none else after.catalog)
  else (m, none)

/-- One request, with the catalogs that it wrote to the manager's file. -/
def step (toVec : Catalog → List UInt8) (m : Manager) : Request → Manager × List Catalog
  | .refresh answers => ((refreshState toVec m answers).1, (written toVec m answers).toList)
  | .resolve answers selected publication =>
      match m.cachedCatalog with
      | some catalog =>
          let (after, remembered) := remember toVec m catalog selected publication
          (after, remembered.toList)
      | none =>
          match refreshState toVec m answers with
          | (after, .error _) => (after, (written toVec m answers).toList)
          | (after, .ok refresh) =>
              let (last, remembered) := remember toVec after refresh.catalog selected publication
              (last, (written toVec m answers).toList ++ remembered.toList)

end Manager

/-! ## Histories -/

/-- `next` is accepted as the successor of `previous`. -/
def Accepted (toVec : Catalog → List UInt8) (previous next : Catalog) : Prop :=
  next.validateSuccessor toVec previous = .ok ()

/-- Catalogs that were validated, each accepted as successor of the one before. -/
structure Chain (toVec : Catalog → List UInt8) (history : List Catalog) : Prop where
  valid : ∀ catalog ∈ history, catalog.validate = .ok ()
  linked : history.IsChain (Accepted toVec)

/-- The catalog lists something under a key. -/
def Lists (catalog : Catalog) (key : Component × Version × String) : Prop :=
  ∃ artifact ∈ catalog.artifacts, artifact.key = key

/-- Two catalogs agree on every tool that both of them list. -/
def Agree (c d : Catalog) : Prop :=
  ∀ a ∈ c.artifacts, ∀ b ∈ d.artifacts, a.key = b.key → a.sameTool b = true

/-- Published versions never change: releases do not decrease and any two
    catalogs, adjacent or not, agree. -/
structure Immutable (history : List Catalog) : Prop where
  releases : ∀ i j (hi : i < history.length) (hj : j < history.length), i < j →
    history[i].release.le history[j].release = true
  tools : ∀ i j (hi : i < history.length) (hj : j < history.length), i < j →
    Agree history[i] history[j]

/-- A tool that comes back after catalogs without it is the tool that left. -/
def Restored (history : List Catalog) : Prop :=
  ∀ i j (hi : i < history.length) (hj : j < history.length), i + 1 < j →
    ∀ a ∈ history[i].artifacts, ∀ b ∈ history[j].artifacts, a.key = b.key →
      (∀ k (hk : k < history.length), i < k → k < j → ¬ Lists history[k] a.key) →
        a.sameTool b = true

theorem Accepted.release (accepted : Accepted toVec previous next) :
    previous.release.le next.release = true := by
  obtain ⟨_, newer, _⟩ := bind_eq_ok.mp accepted
  simpa using newer

theorem Accepted.agree (accepted : Accepted toVec previous next)
    (valid : previous.validate = .ok ()) : Agree previous next := by
  intro a ha b hb same
  have known : previous.published b.key = some a := by
    rw [← same]
    exact Catalog.published_eq_some valid ha
  have accepted := ok_of_then accepted
  have tools : Catalog.validateTools previous next.artifacts = .ok () := by
    split at accepted
    · have tools := ok_of_then accepted
      exact tools
    · exact accepted
  exact Artifact.sameTool_symm (Catalog.validateTools_same tools hb known)

namespace Chain

variable {history : List Catalog} {i j : Nat}

theorem valid_at (chain : Chain toVec history) (hi : i < history.length) :
    history[i].validate = .ok () :=
  chain.valid _ (List.getElem_mem hi)

theorem accepted_at (chain : Chain toVec history) (hi : i + 1 < history.length) :
    Accepted toVec history[i] history[i + 1] :=
  List.isChain_iff_getElem.mp chain.linked i hi

theorem releases (chain : Chain toVec history) (hi : i < history.length) (hj : j < history.length)
    (before : i < j) :
    history[i].release.le history[j].release = true := by
  induction j, before using Nat.le_induction with
  | base => exact (chain.accepted_at hj).release
  | succ j before ih =>
      have stable {k : Nat} (hk : k < history.length) : history[k].release.stable = true :=
        Catalog.release_stable (chain.valid_at hk)
      have middle : j < history.length := by omega
      exact Version.le_trans_stable (stable hi) (stable middle) (stable hj) (ih middle)
        (chain.accepted_at hj).release

/-- The last catalog before `j` that lists a key that an earlier one lists. -/
theorem last_listing {key} (hi : i < history.length) (hj : j < history.length) (before : i < j)
    (listed : Lists history[i] key) :
    ∃ (k : Nat) (hk : k < history.length), i ≤ k ∧ k < j ∧ Lists history[k] key ∧
      ∀ l (hl : l < history.length), k < l → l < j → ¬ Lists history[l] key := by
  induction j, before using Nat.le_induction with
  | base => exact ⟨i, hi, le_rfl, Nat.lt_succ_self i, listed, by omega⟩
  | succ j before ih =>
      have middle : j < history.length := by omega
      by_cases here : Lists history[j] key
      · exact ⟨j, middle, by omega, by omega, here, by omega⟩
      · obtain ⟨k, hk, low, high, found, gap⟩ := ih middle
        refine ⟨k, hk, low, by omega, found, ?_⟩
        intro l hl above below
        rcases Nat.lt_succ_iff_lt_or_eq.mp below with below | rfl
        · exact gap l hl above below
        · exact here

/-- The tools of a history agree when every tool that comes back is the one
    that left. The induction is on the later of the two catalogs. -/
theorem agree (chain : Chain toVec history) (restored : Restored history) (hi : i < history.length)
    (hj : j < history.length) (before : i < j) :
    Agree history[i] history[j] := by
  induction j using Nat.strong_induction_on with
  | _ j ih =>
      intro a ha b hb same
      obtain ⟨k, hk, low, high, ⟨c, hc, keyed⟩, gap⟩ :=
        last_listing hi hj before ⟨a, ha, rfl⟩
      have recent : c.sameTool b = true := by
        by_cases adjacent : k + 1 = j
        · subst adjacent
          exact (chain.accepted_at hj).agree (chain.valid_at hk) c hc b hb (keyed.trans same)
        · apply restored k j hk hj (by omega) c hc b hb (keyed.trans same)
          rw [keyed]
          exact gap
      have earlier : a.sameTool c = true := by
        rcases Nat.lt_or_eq_of_le low with low | rfl
        · exact ih k high hk low a ha c hc keyed.symm
        · rw [Catalog.eq_of_key (chain.valid_at hk) ha hc keyed.symm]
          exact Artifact.sameTool_refl c
      exact Artifact.sameTool_trans earlier recent

end Chain

/-- A history of accepted catalogs keeps every published version exactly when
    each tool that comes back after an absence is the tool that left. -/
theorem versions_are_immutable_iff (toVec : Catalog → List UInt8) (history : List Catalog)
    (chain : Chain toVec history) : Immutable history ↔ Restored history := by
  constructor
  · intro immutable i j hi hj apart a ha b hb same _
    exact immutable.tools i j hi hj (by omega) a ha b hb same
  · intro restored
    constructor
    · intro i j hi hj before
      exact chain.releases hi hj before
    · intro i j hi hj before
      exact chain.agree restored hi hj before

/-- The sync tool under a version, with the digest of its executable. -/
def syncTool (version : Version) (sha256 : String) (release : Version) : Artifact where
  component := .sync
  version := version
  target := "x86_64-unknown-linux-gnu"
  core := ⟨[⟨.caret, 1, some 11, some 0, []⟩]⟩
  protocols := [1]
  sourceRevision := "0123456789abcdef0123456789abcdef01234567"
  buildInputs := "00000000000000000000000000000000000000000000000000000000000000aa"
  executable := ⟨4096, sha256⟩
  release := release
  archive := ⟨2048, "00000000000000000000000000000000000000000000000000000000000000bb"⟩

/-- The catalog of a release that carries one sync tool. -/
def syncCatalog (minor : Nat) (version : Version) (sha256 : String) : Catalog :=
  ⟨1, repository, .numeric 1 minor 0, [syncTool version sha256 (.numeric 1 minor 0)]⟩

/-- Sync 1.0.0 is replaced by 1.1.0 and then published again, with the bytes of
    the given digest. -/
def relisted (sha256 : String) : List Catalog :=
  [syncCatalog 11 (.numeric 1 0 0)
      "0000000000000000000000000000000000000000000000000000000000000001",
    syncCatalog 12 (.numeric 1 1 0)
      "0000000000000000000000000000000000000000000000000000000000000002",
    syncCatalog 13 (.numeric 1 0 0) sha256]

theorem Accepted.of_newer (newer : previous.release.le next.release = true)
    (differ : next.release ≠ previous.release)
    (tools : Catalog.validateTools previous next.artifacts = .ok ()) :
    Accepted toVec previous next := by
  rw [Accepted, Catalog.validateSuccessor, if_neg differ, newer]
  exact tools

theorem relisted_chain {sha256}
    (valid : (syncCatalog 13 (.numeric 1 0 0) sha256).validate = .ok ()) :
    Chain toVec (relisted sha256) where
  valid := by
    intro catalog member
    simp only [relisted, List.mem_cons, List.not_mem_nil, or_false] at member
    rcases member with rfl | rfl | rfl
    · decide
    · decide
    · exact valid
  linked := by
    apply List.IsChain.cons_cons (.of_newer rfl (by decide) (by decide))
    exact .cons_cons (.of_newer rfl (by simp [syncCatalog, Version.numeric]) rfl) (.singleton _)

/-- Published again with other bytes, a version changes, whatever serde writes. -/
theorem relisted_version_changes : ¬ ∃ toVec : Catalog → List UInt8,
    ∀ history, Chain toVec history → Immutable history := by
  rintro ⟨toVec, always⟩
  have chain : Chain toVec
      (relisted "0000000000000000000000000000000000000000000000000000000000000003") :=
    relisted_chain (by decide)
  have changed := (always _ chain).tools 0 2 (by decide) (by decide) (by decide)
    _ List.mem_cons_self _ List.mem_cons_self rfl
  exact absurd changed (by decide)

/-- Published again with its own bytes, it does not. -/
theorem relisted_version_is_kept :
    Restored (relisted "0000000000000000000000000000000000000000000000000000000000000001")
      ∧ ∀ toVec : Catalog → List UInt8,
        Chain toVec (relisted "0000000000000000000000000000000000000000000000000000000000000001")
          ∧ Immutable
            (relisted "0000000000000000000000000000000000000000000000000000000000000001") := by
  have restored : Restored
      (relisted "0000000000000000000000000000000000000000000000000000000000000001") := by
    intro i j hi hj apart a ha b hb _ _
    have final : j < 3 := hj
    obtain rfl : i = 0 := by omega
    obtain rfl : j = 2 := by omega
    rw [List.mem_singleton.mp ha, List.mem_singleton.mp hb]
    decide
  refine ⟨restored, ?_⟩
  intro toVec
  have chain : Chain toVec
      (relisted "0000000000000000000000000000000000000000000000000000000000000001") :=
    relisted_chain (by decide)
  exact ⟨chain, (versions_are_immutable_iff toVec _ chain).mpr restored⟩

/-! ## Managers write such histories -/

namespace Manager

variable {catalog : Catalog} {m : Manager}

theorem accept_spec {cached document} (accepted : accept toVec cached document = .ok catalog) :
    catalog.validate = .ok () ∧ ∀ previous, cached = some previous →
      Accepted toVec previous catalog := by
  obtain ⟨read, parsed, accepted⟩ := bind_eq_ok.mp accepted
  have valid := Document.parse_valid parsed
  cases cached with
  | none =>
      obtain rfl := pure_eq_ok.mp accepted
      exact ⟨valid, by simp⟩
  | some old =>
      obtain ⟨_, successor, accepted⟩ := bind_eq_ok.mp accepted
      obtain rfl := pure_eq_ok.mp accepted
      refine ⟨valid, ?_⟩
      intro previous same
      cases same
      exact successor

/-- A manager that has no shared cache. -/
def Alone (m : Manager) : Prop := m.shared = none ∧ m.isWriter = false

theorem Alone.cached (alone : m.Alone) : m.cachedCatalog = m.catalog := by
  rw [cachedCatalog, alone.1]
  cases m.catalog <;> rfl

/-- The file holds the last catalog of a history of accepted ones. -/
structure Keeps (toVec : Catalog → List UInt8) (history : List Catalog) (m : Manager) : Prop where
  alone : m.Alone
  chain : Chain toVec history
  holds : m.catalog = history.getLast?

theorem Keeps.extend {history} (keeps : Keeps toVec history m) (valid : catalog.validate = .ok ())
    (accepted : ∀ previous, m.catalog = some previous → Accepted toVec previous catalog) :
    Keeps toVec (history ++ [catalog]) { m with catalog := some catalog } where
  alone := keeps.alone
  chain :=
    { valid := by
        intro other member
        rcases Runs.mem_snoc.mp member with member | member
        · exact keeps.chain.valid other member
        · rw [member]
          exact valid
      linked := by
        apply List.isChain_append.mpr
        refine ⟨keeps.chain.linked, .singleton _, ?_⟩
        intro previous last next first
        obtain rfl : catalog = next := by simpa using first
        exact accepted previous (keeps.holds.trans last) }
  holds := by simp

theorem Keeps.refreshState {history} (keeps : Keeps toVec history m) (answers : List Answer) :
    Keeps toVec (history ++ (written toVec m answers).toList) (m.refreshState toVec answers).1 := by
  induction answers with
  | nil =>
      rw [Manager.refreshState]
      cases m.cachedCatalog <;> simpa [written] using keeps
  | cons answer rest ih =>
      cases answer with
      | accessDenied message | cancelled => simpa [Manager.refreshState, written] using keeps
      | unavailable => exact ih
      | document document publication =>
          rw [Manager.refreshState, written]
          cases accepted : accept toVec m.cachedCatalog document with
          | error message => simpa [Except.toOption] using keeps
          | ok catalog =>
              obtain ⟨valid, successor⟩ := accept_spec accepted
              rw [keeps.alone.cached] at successor
              have next := keeps.extend valid successor
              cases publication with
              | failed message => simpa [publish, Publication.replaces, Publication.result] using keeps
              | unsynced message =>
                  simpa [publish, Publication.replaces, Publication.result, Except.toOption] using next
              | done =>
                  simpa [publish, Publication.replaces, Publication.result, Except.toOption, mirrorCatalog,
                    keeps.alone.2] using next

/-- Remembering the catalog that the file holds writes nothing. -/
theorem remember_own (own : m.catalog = some catalog) (selected : Bool) (publication : Publication) :
    m.remember toVec catalog selected publication = (m, none) := by
  have kept : (m.rememberCatalog toVec catalog publication).1 = m := by
    rw [rememberCatalog, own, supersedes]
    by_cases older : catalog.release.lt catalog.release = true
    · simp [older]
    · cases catalog.validateSuccessor toVec catalog <;>
        simp [older, bind, Except.bind, pure, Except.pure]
  cases selected with
  | false => rfl
  | true =>
      rw [remember]
      simp [kept]

theorem Keeps.refreshed {history m} (keeps : Keeps toVec history m) {answers}
    (missing : m.cachedCatalog = none) {after refresh}
    (done : m.refreshState toVec answers = (after, .ok refresh)) :
    after.catalog = some refresh.catalog := by
  induction answers with
  | nil => simp [Manager.refreshState, missing] at done
  | cons answer rest ih =>
      cases answer with
      | accessDenied message | cancelled => simp [Manager.refreshState] at done
      | unavailable => exact ih done
      | document document publication =>
          rw [Manager.refreshState] at done
          cases accepted : accept toVec m.cachedCatalog document with
          | error message => simp [accepted] at done
          | ok catalog =>
              cases publication with
              | failed message | unsynced message =>
                  simp [accepted, publish, Publication.result] at done
              | done =>
                  simp only [accepted, publish, Publication.replaces, Publication.result, mirrorCatalog,
                    keeps.alone.2, if_true, Prod.mk.injEq, Except.ok.injEq, Bool.false_eq_true,
                    if_false] at done
                  rw [← done.1, ← done.2]

theorem Keeps.step {history m} (keeps : Keeps toVec history m) (request : Request) :
    Keeps toVec (history ++ (m.step toVec request).2) (m.step toVec request).1 := by
  cases request with
  | refresh answers => exact keeps.refreshState answers
  | resolve answers selected publication =>
      cases cached : m.cachedCatalog with
      | some catalog =>
          have own : m.catalog = some catalog := keeps.alone.cached.symm.trans cached
          simpa [Manager.step, cached, remember_own own] using keeps
      | none =>
          have next := keeps.refreshState answers
          rcases done : m.refreshState toVec answers with ⟨after, error | refresh⟩
          · simpa [Manager.step, cached, done] using next
          · have own := keeps.refreshed cached done
            simpa [Manager.step, cached, done, remember_own own] using next

/-- What a manager without a shared cache has written, from any number of
    requests, is a chain of accepted catalogs. -/
theorem written_chain {labels}
    (run : Runs.Run (Runs.answers (Manager.step toVec)) ⟨none, none, false⟩ labels m) :
    Keeps toVec (labels.flatMap Prod.snd) m := by
  induction run with
  | start =>
      refine ⟨⟨rfl, rfl⟩, ⟨by simp, .nil⟩, rfl⟩
  | snoc prior taken ih =>
      rename_i before event next
      have kept := ih.step event.1
      rw [show Manager.step toVec before event.1 = (next, event.2) from taken] at kept
      simpa using kept

/-- Three catalogs that come one after the other, each from the second source. Every time the
    directory is not synchronized, and the next request reads the new file. -/
theorem fetched_catalogs_are_written :
    let labels := (Runs.feed (Manager.step fun _ => []) ⟨none, none, false⟩
      ((relisted "0000000000000000000000000000000000000000000000000000000000000001").map fun catalog =>
        .refresh [.unavailable, .document (.legacy catalog) (.unsynced "Input/output error (os error 5)")])).1
    (labels.flatMap Prod.snd).length = 3 ∧ Chain (fun _ => []) (labels.flatMap Prod.snd) :=
  ⟨by decide, (written_chain (Runs.feed_run _ _ _)).chain⟩

end Manager

end PortHub.Components
