import Mathlib.Data.List.Nodup
import PortHub.Rust

/-! # Component catalogs

A release carries a catalog of tools, one entry for each component, version and
target. The checks are those of `catalog.rs` and `manifest.rs` with their texts.
`Version` and `VersionReq` keep the fields of the semver crate and its ordering:
numbers first, then the prerelease, then the build metadata. What serde writes
for a catalog is a parameter wherever it is compared.
-/

namespace PortHub.Components

def repository : String := "algofly-oss/porthub"
def maxExecutable : Nat := 256 * 1024 * 1024
def maxArchive : Nat := 512 * 1024 * 1024

/-- `TARGETS`. -/
def targets : List String :=
  ["x86_64-unknown-linux-gnu", "aarch64-unknown-linux-gnu", "i686-unknown-linux-gnu",
    "armv7-unknown-linux-gnueabihf", "arm-unknown-linux-gnueabihf", "x86_64-apple-darwin",
    "aarch64-apple-darwin", "x86_64-pc-windows-msvc", "i686-pc-windows-msvc",
    "aarch64-pc-windows-msvc"]

inductive Component where
  | tor
  | terminal
  | sync
  | stats
  | transfer
deriving DecidableEq, Repr

namespace Semver

/-- Two dot-separated identifiers: numbers come before words. -/
def compareIdentifiers (numbers : List Char → List Char → Ordering) (l r : List Char) : Ordering :=
  match l.all Char.isDigit, r.all Char.isDigit with
  | false, true => .gt
  | true, false => .lt
  | false, false => compareOfLessAndEq l r
  | true, true => numbers l r

def compareAll (numbers : List Char → List Char → Ordering) :
    List (List Char) → List (List Char) → Ordering
  | [], [] => .eq
  | [], _ :: _ => .lt
  | _ :: _, [] => .gt
  | l :: ls, r :: rs => (compareIdentifiers numbers l r).then (compareAll numbers ls rs)

/-- A release without a prerelease is greater than one with it. -/
def comparePre (l r : List Char) : Ordering :=
  match l, r with
  | [], [] => .eq
  | [], _ :: _ => .gt
  | _ :: _, [] => .lt
  | l, r =>
      compareAll (fun a b => (compare a.length b.length).then (compareOfLessAndEq a b))
        (l.splitOn '.') (r.splitOn '.')

/-- Build metadata may carry leading zeros: `0 < 00 < 1 < 01`. -/
def compareBuild (l r : List Char) : Ordering :=
  let digits := fun a => a.dropWhile (· == '0')
  compareAll
    (fun a b =>
      ((compare (digits a).length (digits b).length).then
        (compareOfLessAndEq (digits a) (digits b))).then (compare a.length b.length))
    (l.splitOn '.') (r.splitOn '.')

end Semver

/-- `semver::Version`. -/
structure Version where
  major : Nat
  minor : Nat
  patch : Nat
  pre : List Char
  build : List Char
deriving DecidableEq, Repr

namespace Version

def cmp (l r : Version) : Ordering :=
  (compare l.major r.major).then <| (compare l.minor r.minor).then <|
    (compare l.patch r.patch).then <|
      (Semver.comparePre l.pre r.pre).then (Semver.compareBuild l.build r.build)

/-- `l <= r`. -/
def le (l r : Version) : Bool := l.cmp r != .gt

/-- `l < r`. -/
def lt (l r : Version) : Bool := l.cmp r == .lt

def stable (version : Version) : Bool := version.pre.isEmpty && version.build.isEmpty

/-- The version `major.minor.patch`. -/
def numeric (major minor patch : Nat) : Version := ⟨major, minor, patch, [], []⟩

end Version

/-- `semver::Op`. -/
inductive Op where
  | exact
  | greater
  | greaterEq
  | less
  | lessEq
  | tilde
  | caret
  | wildcard
deriving DecidableEq, Repr

/-- `semver::Comparator`. -/
structure Comparator where
  op : Op
  major : Nat
  minor : Option Nat
  patch : Option Nat
  pre : List Char
deriving DecidableEq, Repr

/-- `semver::VersionReq`. -/
structure VersionReq where
  comparators : List Comparator
deriving DecidableEq, Repr

def lowerHex (b : UInt8) : Bool := (48 ≤ b && b ≤ 57) || (97 ≤ b && b ≤ 102)

def digest (value : String) : Bool :=
  (utf8 value).length == 64 && (utf8 value).all lowerHex

structure Blob where
  size : Nat
  sha256 : String
deriving DecidableEq, Repr

def Blob.validate (blob : Blob) (max : Nat) : Result Unit := do
  ensure (1 ≤ blob.size && blob.size ≤ max) "invalid component artifact size"
  ensure (digest blob.sha256) "invalid component artifact digest"

structure Artifact where
  component : Component
  version : Version
  target : String
  core : VersionReq
  protocols : List Nat
  sourceRevision : String
  buildInputs : String
  executable : Blob
  release : Version
  archive : Blob
deriving DecidableEq, Repr

namespace Artifact

/-- What a published tool is known by. -/
def key (artifact : Artifact) : Component × Version × String :=
  (artifact.component, artifact.version, artifact.target)

/-- Repacking a tool in a later coherent release must not change the
    executable, its build provenance, or its compatibility under one version. -/
def sameTool (a b : Artifact) : Bool :=
  a.component == b.component && a.version == b.version && a.target == b.target
    && a.core == b.core && a.protocols == b.protocols && a.sourceRevision == b.sourceRevision
    && a.buildInputs == b.buildInputs && a.executable == b.executable

def validate (artifact : Artifact) : Result Unit := do
  ensure (artifact.version.stable && artifact.release.stable)
    "component versions must be stable numeric versions"
  ensure (targets.contains artifact.target) "unsupported component target"
  ensure (!artifact.protocols.isEmpty && decide (artifact.protocols.length ≤ 8)
    && artifact.protocols.all fun p => decide (p > 0)) "invalid component protocols"
  ensure (decide artifact.protocols.Nodup) "duplicate component protocol"
  ensure ((utf8 artifact.sourceRevision).length == 40
    && (utf8 artifact.sourceRevision).all lowerHex) "invalid component source revision"
  ensure (digest artifact.buildInputs) "invalid component build inputs"
  artifact.executable.validate maxExecutable
  artifact.archive.validate maxArchive

end Artifact

structure Catalog where
  schemaVersion : Nat
  repository : String
  /-- Version of the coherent release carrying this catalog, not component versions. -/
  release : Version
  artifacts : List Artifact
deriving DecidableEq, Repr

namespace Catalog

/-- One release and target have one archive. -/
def matchArchive (previous : Option (String × Nat)) (blob : String × Nat) : Result Unit :=
  match previous with
  | some previous => ensure (previous == blob) "conflicting component archive metadata"
  | none => .ok ()

/-- The loop of `validate`: the keys met so far, and the archive that each
    release and target was last met with. -/
def validateArtifacts (release : Version) (unique : List (Component × Version × String))
    (archives : List ((Version × String) × (String × Nat))) : List Artifact → Result Unit
  | [] => .ok ()
  | artifact :: rest => do
      artifact.validate
      ensure (artifact.release.le release) "component references a future release"
      ensure (!unique.contains artifact.key) "duplicate component version and target"
      let blob := (artifact.archive.sha256, artifact.archive.size)
      matchArchive (archives.lookup (artifact.release, artifact.target)) blob
      validateArtifacts release (artifact.key :: unique)
        (((artifact.release, artifact.target), blob) :: archives) rest

def validate (catalog : Catalog) : Result Unit := do
  ensure (catalog.schemaVersion == 1 && catalog.repository == Components.repository
    && catalog.release.stable) "unsupported component catalog"
  ensure (!catalog.artifacts.isEmpty && decide (catalog.artifacts.length ≤ 512))
    "invalid component catalog length"
  validateArtifacts catalog.release [] [] catalog.artifacts

/-- The artifact of a catalog that `validate_successor` compares with. -/
def published (catalog : Catalog) (key : Component × Version × String) : Option Artifact :=
  catalog.artifacts.find? fun old => old.key == key

/-- A published version keeps its tool. -/
def matchTool (artifact : Artifact) (old : Option Artifact) : Result Unit :=
  match old with
  | some old => ensure (artifact.sameTool old) "published component version changed"
  | none => .ok ()

/-- The loop of `validate_successor`. -/
def validateTools (previous : Catalog) : List Artifact → Result Unit
  | [] => .ok ()
  | artifact :: rest => do
      matchTool artifact (previous.published artifact.key)
      validateTools previous rest

/-- `validate_successor`. What `serde_json::to_vec` writes is `toVec`. -/
def validateSuccessor (toVec : Catalog → List UInt8) (catalog previous : Catalog) :
    Result Unit := do
  ensure (previous.release.le catalog.release) "component catalog downgrade rejected"
  if catalog.release = previous.release then
    ensure (toVec catalog == toVec previous) "published component catalog changed"
  validateTools previous catalog.artifacts

end Catalog

structure CoreAsset where
  target : String
  asset : String
  executable : Blob
deriving DecidableEq, Repr

/-- `CORE_TARGETS`. -/
def coreTargets : List (String × String) :=
  [("x86_64", "linux"), ("x86", "linux"), ("arm64", "linux"), ("armhf", "linux"),
    ("armv7", "linux"), ("darwin_x86_64", "macos"), ("darwin_arm64", "macos"),
    ("windows_x86_64", "windows"), ("windows_x86", "windows"), ("windows_arm64", "windows")]

structure ReleaseManifest where
  schemaVersion : Nat
  repository : String
  release : Version
  /-- Core executable version can stay fixed across helper-only releases. -/
  coreVersion : Option Version
  coreAssets : List CoreAsset
  components : Catalog
deriving DecidableEq, Repr

namespace ReleaseManifest

def validateAssets (seen : List String) : List CoreAsset → Result Unit
  | [] => .ok ()
  | asset :: rest => do
      match coreTargets.lookup asset.target with
      | none => .error "unsupported core target"
      | some os =>
          let expected := "porthub-" ++ asset.target ++ if os = "windows" then ".exe" else ""
          ensure (asset.asset == expected && !seen.contains asset.target)
            "invalid or duplicate core asset"
          asset.executable.validate maxExecutable
          validateAssets (asset.target :: seen) rest

def validate (manifest : ReleaseManifest) : Result Unit := do
  ensure (manifest.schemaVersion == 2 && manifest.repository == Components.repository
    && manifest.release.stable) "unsupported release manifest"
  ensure (manifest.coreVersion.getD manifest.release).stable "core version must be stable"
  manifest.components.validate
  ensure (manifest.components.release == manifest.release
    && manifest.components.repository == manifest.repository)
    "component and core release identities differ"
  ensure (manifest.coreAssets.length == coreTargets.length) "incomplete core release"
  validateAssets [] manifest.coreAssets

end ReleaseManifest

/-- What serde makes of the bytes of a catalog: too long, not readable, or one
    of the two documents that `schema_version` tells apart. -/
inductive Document where
  | long
  | unreadable (message : String)
  | legacy (catalog : Catalog)
  | manifest (manifest : ReleaseManifest)
deriving DecidableEq, Repr

/-- `Catalog::parse`. -/
def Document.parse : Document → Result Catalog
  | .long => .error "component catalog exceeds size limit"
  | .unreadable message => .error message
  | .legacy catalog => do
      catalog.validate
      return catalog
  | .manifest release => do
      release.validate
      return release.components

/-! ## What an accepted catalog satisfies -/

theorem Document.parse_valid {document : Document} {catalog} (parsed : document.parse = .ok catalog) :
    catalog.validate = .ok () := by
  cases document with
  | long => cases parsed
  | unreadable message => cases parsed
  | legacy read =>
      obtain ⟨_, valid, parsed⟩ := bind_eq_ok.mp parsed
      obtain rfl := pure_eq_ok.mp parsed
      exact valid
  | manifest release =>
      obtain ⟨_, valid, parsed⟩ := bind_eq_ok.mp parsed
      obtain rfl := pure_eq_ok.mp parsed
      have valid := ok_of_then (ok_of_then valid)
      obtain ⟨_, components, _⟩ := bind_eq_ok.mp valid
      exact components

namespace Artifact

variable {a b : Artifact}

theorem sameTool_iff : a.sameTool b = true ↔
    a.key = b.key ∧ a.core = b.core ∧ a.protocols = b.protocols
      ∧ a.sourceRevision = b.sourceRevision ∧ a.buildInputs = b.buildInputs
      ∧ a.executable = b.executable := by
  simp only [sameTool, key, Bool.and_eq_true, beq_iff_eq, Prod.mk.injEq]
  tauto

theorem sameTool_refl (a : Artifact) : a.sameTool a = true := by simp [sameTool]

theorem sameTool_symm (same : a.sameTool b = true) : b.sameTool a = true := by
  rw [sameTool_iff] at same ⊢
  simp [same]

theorem sameTool_trans {c} (first : a.sameTool b = true) (second : b.sameTool c = true) :
    a.sameTool c = true := by
  rw [sameTool_iff] at first second ⊢
  simp [first, second]

end Artifact

namespace Version

theorem eq_numeric {version : Version} (stable : version.stable = true) :
    version = numeric version.major version.minor version.patch := by
  obtain ⟨major, minor, patch, pre, build⟩ := version
  simp only [Version.stable, Bool.and_eq_true, List.isEmpty_iff] at stable
  simp [numeric, stable]

/-- Stable versions are ordered by their numbers. -/
theorem le_numeric (a b c x y z : Nat) : (numeric a b c).le (numeric x y z) = true ↔
    a < x ∨ a = x ∧ (b < y ∨ b = y ∧ c ≤ z) := by
  have pre : Semver.comparePre [] [] = .eq := rfl
  have build : Semver.compareBuild [] [] = .eq := by decide
  simp only [le, cmp, numeric, pre, build, bne_iff_ne, ne_eq]
  rcases lt_trichotomy a x with first | first | first <;>
    rcases lt_trichotomy b y with second | second | second <;>
      rcases lt_trichotomy c z with third | third | third <;>
        simp [Nat.compare_eq_lt.mpr, Nat.compare_eq_gt.mpr, first, second, third] <;> omega

theorem le_trans_stable {a b c : Version} (sa : a.stable = true) (sb : b.stable = true)
    (sc : c.stable = true) (first : a.le b = true) (second : b.le c = true) :
    a.le c = true := by
  rw [eq_numeric sa, eq_numeric sb, le_numeric] at first
  rw [eq_numeric sb, eq_numeric sc, le_numeric] at second
  rw [eq_numeric sa, eq_numeric sc, le_numeric]
  omega

end Version

namespace Catalog

theorem validateArtifacts_nodup {release unique archives artifacts}
    (valid : validateArtifacts release unique archives artifacts = .ok ()) :
    (artifacts.map Artifact.key).Nodup ∧ ∀ artifact ∈ artifacts, artifact.key ∉ unique := by
  induction artifacts generalizing unique archives with
  | nil => simp
  | cons artifact rest ih =>
      have valid := ok_of_then (ok_of_then valid)
      obtain ⟨_, fresh, valid⟩ := bind_eq_ok.mp valid
      have valid := ok_of_then valid
      have fresh : artifact.key ∉ unique := by simpa using fresh
      obtain ⟨nodup, outside⟩ := ih valid
      constructor
      · apply List.nodup_cons.mpr
        refine ⟨?_, nodup⟩
        intro repeated
        obtain ⟨other, member, same⟩ := List.mem_map.mp repeated
        exact outside other member (same ▸ List.mem_cons_self)
      · intro other member
        rcases List.mem_cons.mp member with rfl | member
        · exact fresh
        · exact fun known => outside other member (List.mem_cons_of_mem _ known)

variable {catalog : Catalog} {a : Artifact}

theorem keys_nodup (valid : catalog.validate = .ok ()) :
    (catalog.artifacts.map Artifact.key).Nodup := by
  have valid := ok_of_then (ok_of_then valid)
  exact (validateArtifacts_nodup valid).1

theorem release_stable (valid : catalog.validate = .ok ()) :
    catalog.release.stable = true := by
  obtain ⟨_, header, _⟩ := bind_eq_ok.mp valid
  simp only [ensure_eq_ok, Bool.and_eq_true] at header
  exact header.2

/-- An accepted catalog lists one artifact under a key. -/
theorem eq_of_key (valid : catalog.validate = .ok ()) {b} (ha : a ∈ catalog.artifacts)
    (hb : b ∈ catalog.artifacts) (same : a.key = b.key) : a = b :=
  List.inj_on_of_nodup_map (keys_nodup valid) ha hb same

theorem published_eq_some (valid : catalog.validate = .ok ()) (listed : a ∈ catalog.artifacts) :
    catalog.published a.key = some a := by
  cases found : catalog.published a.key with
  | none =>
      have missing := List.find?_eq_none.mp found a listed
      simp at missing
  | some old =>
      have member := List.mem_of_find?_eq_some found
      have same := List.find?_some found
      rw [eq_of_key valid member listed (beq_iff_eq.mp same)]

theorem validateTools_same {previous artifacts} (valid : validateTools previous artifacts = .ok ())
    {old} (listed : a ∈ artifacts) (known : previous.published a.key = some old) :
    a.sameTool old = true := by
  induction artifacts with
  | nil => cases listed
  | cons artifact rest ih =>
      obtain ⟨_, first, valid⟩ := bind_eq_ok.mp valid
      rcases List.mem_cons.mp listed with rfl | listed
      · rw [known, matchTool] at first
        simpa using first
      · exact ih valid listed

end Catalog

end PortHub.Components
