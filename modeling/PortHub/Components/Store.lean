import PortHub.Components.Catalog
import PortHub.Lib.Dict
import PortHub.Lib.Faults

/-! # Installed tools

A private cache and a shared cache hold binaries under names that carry their
digest, and one receipt for each component, version and target. A call holds its
locks while it works, so calls follow one another; every operation may fail, and
the process may end at every operation. Temporary files are values, since nothing
reads them by name, and a rename is one operation.
-/

namespace PortHub.Components

open Faults

abbrev Bytes := List UInt8

/-- An entry of an unpacked archive, with the components of its path joined. -/
structure ArchiveEntry where
  path : String
  normal : Bool
  regular : Bool
  size : Nat
  bytes : Bytes

/-- What comes from other crates: the digest in hexadecimal, the JSON of a receipt,
    version requirements, and gzip with tar, where an entry may be unreadable. -/
structure Crates where
  sha256 : Bytes → String
  toVec : Artifact → Bytes
  fromSlice : Bytes → Option Artifact
  satisfies : VersionReq → Version → Bool
  unpack : Bytes → List (Option ArchiveEntry)

def protocol : Nat := 1

def Component.name : Component → String
  | .tor => "tor"
  | .terminal => "terminal"
  | .sync => "sync"
  | .stats => "stats"
  | .transfer => "transfer"

/-- `Display` of a version. -/
def Version.text (version : Version) : String :=
  toString version.major ++ "." ++ toString version.minor ++ "." ++ toString version.patch
    ++ (if version.pre = [] then "" else "-" ++ String.ofList version.pre)
    ++ (if version.build = [] then "" else "+" ++ String.ofList version.build)

/-- `target.contains("windows")`. -/
def windows (target : String) : Bool := target.toList.tails.any "windows".toList.isPrefixOf

def exe (target : String) : String := if windows target then ".exe" else ""

def Component.executable (component : Component) (target : String) : String :=
  "porthub-" ++ component.name ++ exe target

def Artifact.member (artifact : Artifact) : String :=
  artifact.component.name ++ "/" ++ artifact.version.text ++ "/"
    ++ artifact.component.executable artifact.target

/-- `binary_name`, which is also the name in `binary_path`. -/
def binaryName (artifact : Artifact) : String :=
  artifact.component.name ++ "-" ++ artifact.version.text ++ "-" ++ artifact.executable.sha256
    ++ exe artifact.target

def receiptName (artifact : Artifact) : String :=
  "installed-" ++ artifact.component.name ++ "-" ++ artifact.version.text ++ "-" ++ artifact.target
    ++ ".json"

/-- The directories. What calls have achieved is recorded beside them. -/
structure World where
  privates : Nat → Dict String Bytes
  shareds : Nat → Dict String Bytes
  ensured : List (Nat × Artifact)
  published : List (Nat × Artifact)

inductive Fault where
  /-- `AccessDenied`. -/
  | denied
  | message (text : String)
  deriving DecidableEq, Repr

def ioError : Fault := .message "input/output error"

abbrev Work (α : Type) := Prog World Fault α

/-- An operation without an effect on the directories. -/
def touch : Work Unit := .op ioError fun world => some ((), world)

def ofResult {α : Type} : Result α → Work α
  | .ok value => pure value
  | .error text => .throw (.message text)

def check (condition : Bool) (text : String) : Work Unit := .ensure (.message text) condition

def readPrivate (root : Nat) (name : String) : Work (Option Bytes) :=
  .op ioError fun world => some ((world.privates root).get? name, world)

def readShared (cache : Nat) (name : String) : Work (Option Bytes) :=
  .op ioError fun world => some ((world.shareds cache).get? name, world)

def World.putPrivate (world : World) (root : Nat) (name : String) (bytes : Bytes) : World :=
  { world with
    privates := Function.update world.privates root ((world.privates root).insert name bytes) }

def World.putShared (world : World) (cache : Nat) (name : String) (bytes : Bytes) : World :=
  { world with
    shareds := Function.update world.shareds cache ((world.shareds cache).insert name bytes) }

/-- `publish`: the file is synced, renamed, and its directory is synced. -/
def publish (root : Nat) (name : String) (bytes : Bytes) : Work Unit := do
  touch
  .op ioError fun world => some ((), world.putPrivate root name bytes)
  touch

/-- `Cache::persist`. -/
def persist (cache : Nat) (name : String) (bytes : Bytes) : Work Unit := do
  touch
  .op ioError fun world => some ((), world.putShared cache name bytes)
  touch

section Calls

variable (crates : Crates)

/-- Size and digest of a file are those of the blob. -/
def fits (bytes : Bytes) (blob : Blob) : Bool :=
  bytes.length == blob.size && crates.sha256 bytes == blob.sha256

def verified (root : Nat) (name : String) (blob : Blob) : Work Bool := do
  let file ← readPrivate root name
  pure (file.any fun bytes => fits crates bytes blob)

/-- Reading a receipt. -/
def readReceipt (bytes : Bytes) (limit : String) : Work Artifact := do
  check (bytes.length ≤ 16384) limit
  match crates.fromSlice bytes with
  | some artifact => pure artifact
  | none => .throw (.message "invalid receipt")

def record (root : Nat) (artifact : Artifact) : Work Unit := do
  let file ← readPrivate root (receiptName artifact)
  match file with
  | some bytes => do
      let previous ← readReceipt crates bytes "installed component receipt exceeds limit"
      check (previous.sameTool artifact) "installed component version changed"
  | none => publish root (receiptName artifact) (crates.toVec artifact)

/-- A shared cache as a process opened it. -/
structure Cache where
  dir : Nat
  writer : Bool
  deriving DecidableEq, Repr

def copyChecked (bytes : Bytes) (blob : Blob) : Work Unit := do
  check (bytes.length == blob.size) "shared component size mismatch"
  check (crates.sha256 bytes == blob.sha256) "shared component checksum mismatch"

/-- `Cache::copy_into`: the verified bytes, if there are any. -/
def Cache.copyInto (cache : Cache) (artifact : Artifact) : Work (Option Bytes) := do
  ofResult artifact.validate
  touch
  let file ← readShared cache.dir (binaryName artifact)
  match file with
  | none => pure none
  | some bytes => do
      copyChecked crates bytes artifact.executable
      pure (some bytes)

/-- Where a binary to publish comes from. -/
inductive Source where
  /-- A binary of a private cache. -/
  | installed (root : Nat) (name : String)
  /-- A file elsewhere, if it can be opened. -/
  | outside (bytes : Option Bytes)

def Source.read : Source → Work Bytes
  | .installed root name => do
      let file ← readPrivate root name
      match file with
      | some bytes => pure bytes
      | none => .throw ioError
  | .outside (some bytes) => do
      touch
      pure bytes
  | .outside none => .throw ioError

/-- The receipt of a published version is for the same tool. -/
def Cache.checkReceipt (cache : Cache) (artifact : Artifact) : Work Unit := do
  let file ← readShared cache.dir (receiptName artifact)
  match file with
  | some bytes => do
      let previous ← readReceipt crates bytes "shared receipt exceeds limit"
      check (previous.sameTool artifact) "shared installed component version changed"
  | none => pure ()

/-- The publication is recorded. -/
def Cache.done (cache : Cache) (artifact : Artifact) : Work Unit :=
  .modify fun world => { world with published := world.published ++ [(cache.dir, artifact)] }

/-- The binary is there and complete. It counts as absent when it cannot be read to the end. -/
def Cache.intact (cache : Cache) (artifact : Artifact) : Work Bool := do
  let file ← readShared cache.dir (binaryName artifact)
  match file with
  | none => pure false
  | some bytes => do
      let copied ← Prog.caught do
        touch
        copyChecked crates bytes artifact.executable
      pure copied.isOk

def Cache.publishArtifact (cache : Cache) (artifact : Artifact) (source : Source) : Work Unit := do
  ofResult artifact.validate
  check cache.writer "shared cache is read only"
  touch
  cache.checkReceipt crates artifact
  if ← cache.intact crates artifact then
    -- the binary is there: nothing is written, the receipt neither
    cache.done artifact
  else do
    let bytes ← source.read
    copyChecked crates bytes artifact.executable
    persist cache.dir (binaryName artifact) bytes
    persist cache.dir (receiptName artifact) (crates.toVec artifact)
    cache.done artifact

inductive Sources where
  | gatewayThenGithub
  | gatewayOnly
  | githubOnly
  deriving DecidableEq, Repr

structure Settings where
  gateway : Bool
  sources : Sources
  core : Version
  target : String
  disabled : List Component
  pins : List (Component × Version)

structure Store where
  root : Nat
  settings : Settings
  shared : Option Cache

/-- What a download gives. -/
inductive Fetched where
  | file (bytes : Bytes)
  | denied
  | cancelled
  | failed

/-- The network during one call, and whether the call is cancelled at its end. -/
structure Net where
  gateway : Fetched
  github : Fetched
  cancelled : Bool

/-- The later one of two artifacts, the second one of two equal versions. -/
def later (best artifact : Artifact) : Artifact :=
  if artifact.version.cmp best.version = .lt then best else artifact

def Settings.compatible (settings : Settings) (component : Component) (artifact : Artifact) : Bool :=
  artifact.component == component && artifact.target == settings.target
    && crates.satisfies artifact.core settings.core && artifact.protocols.contains protocol
    && (settings.pins.lookup component).all (· == artifact.version)

/-- `Catalog::select`. -/
def select (catalog : Catalog) (settings : Settings) (component : Component) : Option Artifact :=
  match catalog.artifacts.filter (settings.compatible crates component) with
  | [] => none
  | first :: rest => some (rest.foldl later first)

def Store.selected (store : Store) (catalog : Catalog) (component : Component) : Result Artifact := do
  PortHub.ensure (!store.settings.disabled.contains component)
    "component disabled by administrator policy"
  match select crates catalog store.settings component with
  | some artifact => .ok artifact
  | none =>
      .error "no compatible component for this core, platform, and version preference"

/-- What `extract` has met so far. -/
structure Unpacked where
  names : List String
  expanded : Nat
  result : Option Bytes

def receiptsMember : String := ".porthub-build-receipts.json"

/-- One entry of `extract`. -/
def extractEntry (artifact : Artifact) (allowed : List String) (state : Unpacked)
    (entry : ArchiveEntry) : Result Unpacked := do
  PortHub.ensure entry.normal "unsafe component archive path"
  PortHub.ensure (allowed.contains entry.path || entry.path == receiptsMember)
    "unexpected executable in component archive"
  PortHub.ensure entry.regular "component archive must contain only regular executables"
  PortHub.ensure (!state.names.contains entry.path && decide (state.names.length + 1 ≤ 128))
    "duplicate or excessive component archive entries"
  let expanded := state.expanded + entry.size
  PortHub.ensure (expanded < 2 ^ 64) "component archive size overflow"
  PortHub.ensure (expanded ≤ 1024 * 1024 * 1024 && entry.size ≤ maxExecutable)
    "component archive expands beyond limit"
  let next : Unpacked := ⟨entry.path :: state.names, expanded, state.result⟩
  if entry.path = receiptsMember then do
    PortHub.ensure (0 < entry.size && entry.size ≤ 8 * 1024 * 1024) "build receipts exceed size limit"
    PortHub.ensure (entry.bytes.length == entry.size) "build receipts are truncated"
    .ok next
  else if entry.path = artifact.member then do
    PortHub.ensure (entry.size == artifact.executable.size)
      "component archive executable size mismatch"
    PortHub.ensure (entry.bytes.length == entry.size) "component archive is truncated"
    PortHub.ensure (fits crates entry.bytes artifact.executable) "component executable checksum mismatch"
    .ok { next with result := some entry.bytes }
  else do
    PortHub.ensure (0 < entry.size) "empty component archive executable"
    .ok next

def extractEntries (artifact : Artifact) (allowed : List String) :
    Unpacked → List (Option ArchiveEntry) → Result Unpacked
  | state, [] => .ok state
  | _, none :: _ => .error "unreadable archive entry"
  | state, some entry :: rest => do
      let next ← extractEntry crates artifact allowed state entry
      extractEntries artifact allowed next rest

def extract (archive : Bytes) (artifact : Artifact) (allowed : List String) : Result Bytes := do
  let state ← extractEntries crates artifact allowed ⟨[], 0, none⟩ (crates.unpack archive)
  match state.result with
  | some bytes => .ok bytes
  | none => .error "requested executable is missing from component archive"

def cancelledError : Fault := .message "component operation cancelled"

namespace Store

/-- A shared copy; what goes wrong there is not an error. -/
def fromShared (store : Store) (artifact : Artifact) : Work (Option Bytes) :=
  match store.shared with
  | none => pure none
  | some cache => do
      touch
      let copied ← (cache.copyInto crates artifact).caught
      match copied with
      | .ok file => pure file
      | .error _ => pure none

def fromGateway (store : Store) (artifact : Artifact) (net : Net) : Work (Option Bytes) :=
  if store.settings.sources ≠ .githubOnly ∧ store.settings.gateway = true then do
    touch
    match net.gateway with
    | .file bytes => do
        check (fits crates bytes artifact.executable) "gateway component checksum mismatch"
        pure (some bytes)
    | .denied => .throw .denied
    | .cancelled => .throw cancelledError
    | .failed => pure none
  else pure none

def fromGithub (store : Store) (catalog : Catalog) (artifact : Artifact) (net : Net) : Work Bytes := do
  check (store.settings.sources != .gatewayOnly)
    "component unavailable from gateway; GitHub fallback disabled"
  touch
  match net.github with
  | .file archive => do
      check (fits crates archive artifact.archive) "component archive checksum mismatch"
      let siblings := catalog.artifacts.filter fun other =>
        other.release == artifact.release && other.target == artifact.target
      ofResult (extract crates archive artifact (siblings.map Artifact.member))
  | .denied => .throw .denied
  | .cancelled => .throw cancelledError
  | .failed => .throw (.message "component download failed")

/-- A writer mirrors the tool; what goes wrong there is not an error. -/
def mirrorArtifact (store : Store) (artifact : Artifact) : Work Unit :=
  match store.shared with
  | none => pure ()
  | some cache =>
      if cache.writer then do
        let _ ← (cache.publishArtifact crates artifact
          (.installed store.root (binaryName artifact))).caught
        pure ()
      else pure ()

/-- The call is recorded and returns the path. -/
def finish (store : Store) (artifact : Artifact) : Work (Artifact × String) := do
  .modify fun world => { world with ensured := world.ensured ++ [(store.root, artifact)] }
  pure (artifact, binaryName artifact)

/-- A new binary with its receipt. -/
def install (store : Store) (artifact : Artifact) (bytes : Bytes) (mirror : Bool) :
    Work (Artifact × String) := do
  publish store.root (binaryName artifact) bytes
  record crates store.root artifact
  .onlyIf mirror (store.mirrorArtifact crates artifact)
  store.finish artifact

/-- `ensure` behind its lock; it returns the artifact with the path. -/
def ensureLocked (store : Store) (catalog : Catalog) (artifact : Artifact) (net : Net) :
    Work (Artifact × String) := do
  let there ← verified crates store.root (binaryName artifact) artifact.executable
  if there then do
    record crates store.root artifact
    store.mirrorArtifact crates artifact
    store.finish artifact
  else do
    let copy ← store.fromShared crates artifact
    match copy with
    | some bytes => store.install crates artifact bytes false
    | none => do
        let file ← store.fromGateway crates artifact net
        match file with
        | some bytes => store.install crates artifact bytes true
        | none => do
            let bytes ← store.fromGithub crates catalog artifact net
            store.install crates artifact bytes true

def ensure (store : Store) (catalog : Catalog) (component : Component) (net : Net) :
    Work (Artifact × String) := do
  ofResult catalog.validate
  let artifact ← ofResult (store.selected crates catalog component)
  touch
  store.ensureLocked crates catalog artifact net

def isReceipt (component : Component) (name : String) : Bool :=
  ("installed-" ++ component.name ++ "-").toList.isPrefixOf name.toList
    && ".json".toList.isSuffixOf name.toList

/-- The loop of `installed` over the names in the directory. -/
def installedFrom (store : Store) (component : Component) :
    Nat → List (Artifact × String) → List String → Work (List (Artifact × String))
  | _, found, [] => pure found
  | count, found, name :: rest => do
      check (count + 1 ≤ 4096) "component cache needs cleanup; too many entries"
      if !isReceipt component name then installedFrom store component (count + 1) found rest
      else do
        let file ← readPrivate store.root name
        match file with
        | none => .throw ioError
        | some bytes => do
            let artifact ← readReceipt crates bytes "installed component receipt exceeds limit"
            ofResult artifact.validate
            if !store.settings.compatible crates component artifact then
              installedFrom store component (count + 1) found rest
            else do
              let there ← verified crates store.root (binaryName artifact) artifact.executable
              installedFrom store component (count + 1)
                (if there then found ++ [(artifact, binaryName artifact)] else found) rest

def installed (store : Store) (component : Component) : Work (List (Artifact × String)) := do
  check (!store.settings.disabled.contains component) "component disabled by administrator policy"
  let names : List String ← .op ioError fun world =>
    some ((world.privates store.root).entries.map Prod.fst, world)
  let found ← store.installedFrom crates component 0 [] names
  pure (found.mergeSort fun a b => b.1.version.le a.1.version)

/-- `resolve` with the catalog that is cached or was fetched. -/
def resolve (store : Store) (document : Document) (component : Component) (net : Net) :
    Work (Artifact × String) := do
  let catalog ← ofResult document.parse
  let latest ← ofResult (store.selected crates catalog component)
  -- `remember_catalog`
  touch
  let ensured ← (store.ensure crates catalog component net).caught
  match ensured with
  | .ok (_, path) => pure (latest, path)
  | .error error =>
      if error = .denied ∨ net.cancelled = true then .throw error
      else do
        let found ← store.installed crates component
        match found.find? fun tool => tool.1.version.le latest.version with
        | some tool => pure tool
        | none => .throw error

end Store

inductive Call where
  | ensure (store : Store) (catalog : Catalog) (component : Component) (net : Net)
  | resolve (store : Store) (document : Document) (component : Component) (net : Net)
  | publish (cache : Cache) (artifact : Artifact) (source : Option Bytes)

/-- A call returns a private cache with an artifact and its path there, or nothing. -/
def Call.run : Call → Work (Option (Nat × Artifact × String))
  | .ensure store catalog component net => do
      let tool ← store.ensure crates catalog component net
      pure (some (store.root, tool))
  | .resolve store document component net => do
      let tool ← store.resolve crates document component net
      pure (some (store.root, tool))
  | .publish cache artifact source => do
      cache.publishArtifact crates artifact (.outside source)
      pure none

end Calls

end PortHub.Components
