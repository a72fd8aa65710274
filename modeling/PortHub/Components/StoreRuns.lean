import Mathlib.Logic.Equiv.List
import Mathlib.Tactic.DeriveEncodable
import PortHub.Components.Store
import PortHub.Lib.Runs

/-! # Installed versions are immutable

Receipts are never lost. A receipt is written where there is none or where it is
for the same tool, so whatever calls achieved under one component, version and
target is the same tool, as long as each of them left a receipt.
-/

namespace PortHub.Components

open Faults Runs

section Names

theorem utf8_append (head tail : String) : utf8 (head ++ tail) = utf8 head ++ utf8 tail := by
  simp [utf8, String.toByteArray_append]

theorem lowerHex_ne {b} (hex : lowerHex b = true) : b ≠ 110 := by
  rintro rfl
  cases hex

theorem validate_digest {artifact : Artifact} (valid : artifact.validate = .ok ()) :
    digest artifact.executable.sha256 = true := by
  iterate 6 obtain ⟨_, _, valid⟩ := bind_eq_ok.mp valid
  obtain ⟨_, blob, _⟩ := bind_eq_ok.mp valid
  have digest := ok_of_then blob
  simpa using digest

/-- Binaries and receipts never share a name: receipts end in "json". -/
theorem binaryName_ne {artifact : Artifact} {other} (valid : artifact.validate = .ok ()) :
    receiptName other ≠ binaryName artifact := by
  intro same
  have bytes := congrArg (fun text => (utf8 text).getLast?) same
  have json : (utf8 (receiptName other)).getLast? = some 110 := by
    rw [receiptName, utf8_append, List.getLast?_append]
    rfl
  have known := validate_digest valid
  simp only [digest, Bool.and_eq_true, beq_iff_eq, List.all_eq_true] at known
  rw [json] at bytes
  cases isWindows : windows artifact.target with
  | true =>
      rw [binaryName, exe, isWindows, utf8_append, List.getLast?_append] at bytes
      cases bytes
  | false =>
      have plain : binaryName artifact = (artifact.component.name ++ "-" ++ artifact.version.text ++ "-")
          ++ artifact.executable.sha256 := by
        simp [binaryName, exe, isWindows]
      rw [plain, utf8_append, List.getLast?_append] at bytes
      cases last : (utf8 artifact.executable.sha256).getLast? with
      | none =>
          rw [List.getLast?_eq_none_iff] at last
          simp [last] at known
      | some b =>
          rw [last] at bytes
          cases bytes
          exact lowerHex_ne (known.2 _ (List.mem_of_getLast? last)) rfl

end Names

section Files

variable (crates : Crates)

/-- A readable receipt for the tool of an artifact. -/
def Receipted (files : Dict String Bytes) (artifact : Artifact) : Prop :=
  ∃ bytes receipt, files.get? (receiptName artifact) = some bytes ∧
    crates.fromSlice bytes = some receipt ∧ receipt.sameTool artifact = true

/-- A file with the size and digest of a blob. -/
def Holds (files : Dict String Bytes) (name : String) (blob : Blob) : Prop :=
  ∃ bytes, files.get? name = some bytes ∧ fits crates bytes blob = true

variable {crates} {files : Dict String Bytes} {artifact other : Artifact} {bytes : Bytes}

theorem receiptName_congr (same : artifact.key = other.key) : receiptName artifact = receiptName other := by
  obtain ⟨component, version, target⟩ : artifact.component = other.component ∧
      artifact.version = other.version ∧ artifact.target = other.target := by
    simpa [Artifact.key] using same
  simp [receiptName, component, version, target]

/-- A binary does not replace a receipt. -/
theorem Receipted.binary (kept : Receipted crates files other) (valid : artifact.validate = .ok ()) :
    Receipted crates (files.insert (binaryName artifact) bytes) other := by
  obtain ⟨stored, receipt, found, read, same⟩ := kept
  exact ⟨stored, receipt, by rwa [Dict.get?_insert_ne _ _ (binaryName_ne valid)], read, same⟩

/-- A first receipt replaces none. -/
theorem Receipted.first (kept : Receipted crates files other)
    (absent : files.get? (receiptName artifact) = none) :
    Receipted crates (files.insert (receiptName artifact) bytes) other := by
  obtain ⟨stored, receipt, found, read, same⟩ := kept
  have different : receiptName other ≠ receiptName artifact := by
    intro equal
    rw [equal, absent] at found
    cases found
  exact ⟨stored, receipt, by rwa [Dict.get?_insert_ne _ _ different], read, same⟩

variable (crates) in
/-- What is written as a receipt is read back. -/
abbrev Readable : Prop :=
  ∀ artifact, crates.fromSlice (crates.toVec artifact) = some artifact

theorem Receipted.fresh (reads : crates.fromSlice (crates.toVec artifact) = some artifact) :
    Receipted crates (files.insert (receiptName artifact) (crates.toVec artifact)) artifact :=
  ⟨_, artifact, Dict.get?_insert_self _ _ _, reads, artifact.sameTool_refl⟩

/-- A receipt that is written again is for the same tool. -/
theorem Receipted.again (kept : Receipted crates files other)
    (reads : crates.fromSlice (crates.toVec artifact) = some artifact)
    (known : Receipted crates files artifact) :
    Receipted crates (files.insert (receiptName artifact) (crates.toVec artifact)) other := by
  obtain ⟨stored, receipt, found, read, same⟩ := kept
  by_cases equal : receiptName other = receiptName artifact
  · obtain ⟨stored', receipt', found', read', same'⟩ := known
    rw [equal, found'] at found
    cases found
    obtain rfl := Option.mem_unique read' read
    refine ⟨_, artifact, by rw [equal, Dict.get?_insert_self], reads, ?_⟩
    exact Artifact.sameTool_trans (Artifact.sameTool_symm same') same
  · exact ⟨stored, receipt, by rwa [Dict.get?_insert_ne _ _ equal], read, same⟩

/-- Two artifacts under one key with receipts in one cache are the same tool. -/
theorem Receipted.sameTool (first : Receipted crates files artifact)
    (second : Receipted crates files other) (key : artifact.key = other.key) :
    artifact.sameTool other = true := by
  obtain ⟨stored, receipt, found, read, same⟩ := first
  obtain ⟨stored', receipt', found', read', same'⟩ := second
  rw [← receiptName_congr key, found] at found'
  cases found'
  obtain rfl := Option.mem_unique read read'
  exact Artifact.sameTool_trans (Artifact.sameTool_symm same) same'

end Files

section Watching

variable {crates : Crates} {world : World} {name : String} {bytes : Bytes}

theorem touch_watches : touch.Watches world fun _ => True := by
  refine .op ?_
  rintro value t ⟨⟩
  exact ⟨rfl, trivial⟩

theorem check_watches {condition text} :
    (check condition text).Watches world fun _ => condition = true :=
  .ensure id

theorem ofResult_watches {α : Type} {result : Result α} :
    (ofResult result).Watches world fun value => result = .ok value := by
  cases result with
  | ok value => exact .pure rfl
  | error text => exact .throw

theorem readPrivate_watches {root} :
    (readPrivate root name).Watches world fun file => (world.privates root).get? name = file := by
  refine .op ?_
  rintro value t ⟨⟩
  exact ⟨rfl, rfl⟩

theorem readShared_watches {cache} :
    (readShared cache name).Watches world fun file => (world.shareds cache).get? name = file := by
  refine .op ?_
  rintro value t ⟨⟩
  exact ⟨rfl, rfl⟩

theorem verified_watches {root blob} :
    (verified crates root name blob).Watches world fun there =>
      there = true → Holds crates (world.privates root) name blob := by
  refine readPrivate_watches.bind fun file found => .pure ?_
  intro there
  cases file with
  | none => cases there
  | some bytes => exact ⟨bytes, found, there⟩

theorem readReceipt_watches {limit} :
    (readReceipt crates bytes limit).Watches world fun artifact =>
      crates.fromSlice bytes = some artifact := by
  refine check_watches.bind fun _ _ => ?_
  cases crates.fromSlice bytes with
  | none => exact .throw
  | some artifact => exact .pure rfl

theorem copyChecked_watches {blob} :
    (copyChecked crates bytes blob).Watches world fun _ => fits crates bytes blob = true := by
  refine check_watches.bind fun _ size => ?_
  exact check_watches.weaken fun _ hash => by simp [fits, size, hash]

theorem intact_watches {cache : Cache} {artifact : Artifact} :
    (cache.intact crates artifact).Watches world fun there =>
      there = true → Holds crates (world.shareds cache.dir) (binaryName artifact) artifact.executable := by
  refine readShared_watches.bind fun file found => ?_
  cases file with
  | none => exact .pure (by simp)
  | some bytes =>
      have copies : (Prog.caught do touch; copyChecked crates bytes artifact.executable).Watches world
          fun copied => copied.isOk = true → fits crates bytes artifact.executable = true :=
        .caught (touch_watches.bind fun _ _ => copyChecked_watches.weaken fun _ fitting _ => fitting)
          fun _ never => nomatch never
      exact copies.bind fun copied fitting => .pure fun fine => ⟨bytes, found, fitting fine⟩

theorem copyInto_watches {cache : Cache} {artifact : Artifact} :
    (cache.copyInto crates artifact).Watches world fun file =>
      ∀ bytes, file = some bytes → fits crates bytes artifact.executable = true := by
  refine ofResult_watches.bind fun _ _ => touch_watches.bind fun _ _ =>
    readShared_watches.bind fun file _ => ?_
  cases file with
  | none => exact .pure (by simp)
  | some bytes =>
      refine copyChecked_watches.bind fun _ fitting => .pure ?_
      rintro other ⟨⟩
      exact fitting

theorem source_watches {source : Source} : source.read.Watches world fun _ => True := by
  cases source with
  | installed root name =>
      refine readPrivate_watches.bind fun file _ => ?_
      cases file with
      | none => exact .throw
      | some bytes => exact .pure trivial
  | outside bytes =>
      cases bytes with
      | none => exact .throw
      | some bytes => exact touch_watches.bind fun _ _ => .pure trivial

theorem checkReceipt_watches {cache : Cache} {artifact} :
    (cache.checkReceipt crates artifact).Watches world fun _ =>
      (world.shareds cache.dir).get? (receiptName artifact) = none ∨
        Receipted crates (world.shareds cache.dir) artifact := by
  refine readShared_watches.bind fun file found => ?_
  cases file with
  | none => exact .pure (.inl found)
  | some bytes =>
      refine readReceipt_watches.bind fun previous read => ?_
      exact .ensure fun same => .inr ⟨bytes, previous, found, read, same⟩

/-- What `extract` returns was checked. -/
theorem extractEntries_fits {artifact allowed entries state last}
    (ran : extractEntries crates artifact allowed state entries = .ok last)
    (before : ∀ bytes, state.result = some bytes → fits crates bytes artifact.executable = true) :
    ∀ bytes, last.result = some bytes → fits crates bytes artifact.executable = true := by
  induction entries generalizing state with
  | nil =>
      cases ran
      exact before
  | cons entry rest ih =>
      cases entry with
      | none => cases ran
      | some entry =>
          obtain ⟨next, one, ran⟩ := bind_eq_ok.mp ran
          refine ih ran ?_
          iterate 6 obtain ⟨_, _, one⟩ := bind_eq_ok.mp one
          split at one
          · have one := ok_of_then (ok_of_then one)
            cases one
            exact before
          · split at one
            · have one := ok_of_then (ok_of_then one)
              obtain ⟨_, fitting, one⟩ := bind_eq_ok.mp one
              cases one
              rintro bytes ⟨⟩
              simpa using fitting
            · have one := ok_of_then one
              cases one
              exact before

theorem extract_fits {archive artifact allowed}
    (extracted : extract crates archive artifact allowed = .ok bytes) :
    fits crates bytes artifact.executable = true := by
  obtain ⟨state, ran, extracted⟩ := bind_eq_ok.mp extracted
  cases result : state.result with
  | none => simp [result] at extracted
  | some found =>
      simp only [result, Except.ok.injEq] at extracted
      exact extractEntries_fits ran (by simp) bytes (by rw [result, extracted])

variable {store : Store} {artifact : Artifact} {net : Net}

theorem fromShared_watches : (store.fromShared crates artifact).Watches world fun file =>
    ∀ bytes, file = some bytes → fits crates bytes artifact.executable = true := by
  unfold Store.fromShared
  cases store.shared with
  | none => exact .pure (by simp)
  | some cache =>
      refine touch_watches.bind fun _ _ => ?_
      have copies : (cache.copyInto crates artifact).caught.Watches world fun copied =>
          ∀ bytes, copied = .ok (some bytes) → fits crates bytes artifact.executable = true := by
        refine .caught (copyInto_watches.weaken ?_) (by simp)
        intro file fitting bytes equal
        exact fitting bytes (Except.ok.inj equal)
      refine copies.bind fun copied fitting => ?_
      cases copied with
      | error => exact .pure (by simp)
      | ok file =>
          refine .pure ?_
          rintro bytes rfl
          exact fitting bytes rfl

theorem fromGateway_watches : (store.fromGateway crates artifact net).Watches world fun file =>
    ∀ bytes, file = some bytes → fits crates bytes artifact.executable = true := by
  unfold Store.fromGateway
  split
  · refine touch_watches.bind fun _ _ => ?_
    cases net.gateway with
    | file bytes =>
        refine check_watches.bind fun _ fitting => .pure ?_
        rintro other ⟨⟩
        exact fitting
    | denied => exact .throw
    | cancelled => exact .throw
    | failed => exact .pure (by simp)
  · exact .pure (by simp)

theorem fromGithub_watches {catalog : Catalog} :
    (store.fromGithub crates catalog artifact net).Watches world fun bytes =>
      fits crates bytes artifact.executable = true := by
  refine check_watches.bind fun _ _ => touch_watches.bind fun _ _ => ?_
  cases net.github with
  | file archive =>
      refine check_watches.bind fun _ _ => ?_
      exact ofResult_watches.weaken fun _ extracted => extract_fits extracted
  | denied => exact .throw
  | cancelled => exact .throw
  | failed => exact .throw

end Watching

section Writing

variable (crates : Crates)

/-- What happens in private caches: receipts stay, and nothing else changes. -/
structure Privately (before after : World) : Prop where
  receipts : ∀ root artifact, Receipted crates (before.privates root) artifact →
    Receipted crates (after.privates root) artifact
  shareds : after.shareds = before.shareds
  ensured : after.ensured = before.ensured
  published : after.published = before.published

/-- The binary of an artifact is in a shared cache only with its receipt. -/
def Whole (world : World) (cache : Nat) (artifact : Artifact) : Prop :=
  Holds crates (world.shareds cache) (binaryName artifact) artifact.executable →
    ((world.shareds cache).get? (receiptName artifact)).isSome = true

/-- What happens in shared caches: receipts stay, and a publication that finds its
    artifact whole leaves a receipt. -/
structure Publicly (target : Option (Nat × Artifact)) (before after : World) : Prop where
  receipts : ∀ cache artifact, Receipted crates (before.shareds cache) artifact →
    Receipted crates (after.shareds cache) artifact
  privates : after.privates = before.privates
  ensured : after.ensured = before.ensured
  logged : ∀ pair ∈ before.published, pair ∈ after.published
  published : ∀ pair ∈ after.published, pair ∈ before.published ∨
    target = some pair ∧
      (Whole crates before pair.1 pair.2 → Receipted crates (after.shareds pair.1) pair.2)

variable {crates} {world : World} {artifact : Artifact} {root cache : Nat} {name : String}
  {bytes : Bytes} {ends : Ends World Fault Unit}

theorem Privately.refl (world : World) : Privately crates world world :=
  ⟨fun _ _ kept => kept, rfl, rfl, rfl⟩

theorem Privately.trans {a b c} (first : Privately crates a b) (second : Privately crates b c) :
    Privately crates a c :=
  ⟨fun root artifact kept => second.receipts root artifact (first.receipts root artifact kept),
    second.shareds.trans first.shareds, second.ensured.trans first.ensured,
    second.published.trans first.published⟩

theorem Publicly.refl (target : Option (Nat × Artifact)) (world : World) :
    Publicly crates target world world :=
  ⟨fun _ _ kept => kept, rfl, rfl, fun _ member => member, fun _ member => .inl member⟩

/-- A file is written to one private cache. -/
theorem putPrivate_privately (receipts : ∀ other, Receipted crates (world.privates root) other →
      Receipted crates ((world.privates root).insert name bytes) other) :
    Privately crates world (world.putPrivate root name bytes) := by
  refine ⟨?_, rfl, rfl, rfl⟩
  intro other artifact kept
  by_cases same : other = root
  · subst same
    simpa [World.putPrivate] using receipts artifact kept
  · simpa [World.putPrivate, same] using kept

@[simp] theorem putPrivate_self :
    (world.putPrivate root name bytes).privates root = (world.privates root).insert name bytes := by
  simp [World.putPrivate]

@[simp] theorem putShared_self :
    (world.putShared cache name bytes).shareds cache = (world.shareds cache).insert name bytes := by
  simp [World.putShared]

theorem putShared_receipts (receipts : ∀ other, Receipted crates (world.shareds cache) other →
      Receipted crates ((world.shareds cache).insert name bytes) other) (other : Nat)
    (artifact : Artifact) (kept : Receipted crates (world.shareds other) artifact) :
    Receipted crates ((world.putShared cache name bytes).shareds other) artifact := by
  by_cases same : other = cache
  · subst same
    simpa using receipts artifact kept
  · simpa [World.putShared, same] using kept

/-- `publish` and `persist`: an error leaves the directory as it was or with the new file. -/
theorem replace_meets {put : World → World} (done : ends.done () (put world))
    (failed : ∀ error t, t = world ∨ t = put world → ends.failed error t)
    (died : ∀ t, t = world ∨ t = put world → ends.died t) :
    (do touch; Prog.op ioError fun world => some ((), put world); touch : Work Unit).Meets world ends := by
  refine touch_watches.then_ ?_ (fun error => failed error _ (.inl rfl)) (died _ (.inl rfl))
  intro _ _
  refine Prog.Meets.bind (.op ?_ (failed _ _ (.inl rfl)) (died _ (.inl rfl)))
  rintro value t ⟨⟩
  refine touch_watches.mono ?_ ?_ ?_
  · rintro _ t ⟨rfl, _⟩
    exact done
  · rintro error t rfl
    exact failed error _ (.inr rfl)
  · rintro t rfl
    exact died _ (.inr rfl)

/-- A receipt is checked or written. -/
theorem record_meets (reads : Readable crates) :
    (record crates root artifact).Meets world
      ⟨fun _ t => Privately crates world t ∧ Receipted crates (t.privates root) artifact ∧
          ∀ other, other.validate = .ok () →
            (t.privates root).get? (binaryName other) = (world.privates root).get? (binaryName other),
        fun _ t => Privately crates world t, fun t => Privately crates world t⟩ := by
  refine readPrivate_watches.then_ ?_ (fun _ => .refl _) (.refl _)
  intro file found
  cases file with
  | some bytes =>
      refine readReceipt_watches.then_ ?_ (fun _ => .refl _) (.refl _)
      intro previous read
      refine .ensure (fun same => ⟨.refl _, ⟨bytes, previous, found, read, same⟩, fun _ _ => rfl⟩)
        fun _ => .refl _
  | none =>
      have written : Privately crates world
          (world.putPrivate root (receiptName artifact) (crates.toVec artifact)) :=
        putPrivate_privately fun other kept => kept.first found
      refine replace_meets ⟨written, ?_, ?_⟩ ?_ ?_
      · rw [putPrivate_self]
        exact .fresh (reads artifact)
      · intro other valid
        rw [putPrivate_self, Dict.get?_insert_ne _ _ (binaryName_ne valid).symm]
      · rintro error t (rfl | rfl)
        · exact .refl _
        · exact written
      · rintro t (rfl | rfl)
        · exact .refl _
        · exact written

/-- `publish_artifact`. Its early return leaves no receipt where there is none. -/
theorem publishArtifact_meets (reads : Readable crates)
    {cache : Cache} {source : Source} :
    (cache.publishArtifact crates artifact source).Meets world
      ⟨fun _ t => Publicly crates (some (cache.dir, artifact)) world t ∧
          (cache.dir, artifact) ∈ t.published,
        fun _ t => Publicly crates (some (cache.dir, artifact)) world t,
        fun t => Publicly crates (some (cache.dir, artifact)) world t⟩ := by
  refine ofResult_watches.then_ ?_ (fun _ => .refl _ _) (.refl _ _)
  intro _ valid
  refine check_watches.then_ (fun _ _ => ?_) (fun _ => .refl _ _) (.refl _ _)
  refine touch_watches.then_ (fun _ _ => ?_) (fun _ => .refl _ _) (.refl _ _)
  refine checkReceipt_watches.then_ ?_ (fun _ => .refl _ _) (.refl _ _)
  intro _ receipt
  refine intact_watches.then_ ?_ (fun _ => .refl _ _) (.refl _ _)
  intro there intact
  split
  · rename_i fitting
    refine .modify ⟨⟨fun _ _ kept => kept, rfl, rfl, fun _ => List.mem_append_left _, ?_⟩, by simp⟩
    intro pair member
    rcases mem_snoc.mp member with earlier | rfl
    · exact .inl earlier
    · refine .inr ⟨rfl, fun whole => ?_⟩
      rcases receipt with absent | kept
      · have there := whole (intact fitting)
        simp [absent] at there
      · exact kept
  · refine source_watches.then_ (fun bytes _ => ?_) (fun _ => .refl _ _) (.refl _ _)
    refine copyChecked_watches.then_ (fun _ _ => ?_) (fun _ => .refl _ _) (.refl _ _)
    let first := world.putShared cache.dir (binaryName artifact) bytes
    let second := first.putShared cache.dir (receiptName artifact) (crates.toVec artifact)
    have kept : ∀ other stored, Receipted crates (world.shareds other) stored →
        Receipted crates (first.shareds other) stored :=
      putShared_receipts fun other kept => kept.binary valid
    have one : Publicly crates (some (cache.dir, artifact)) world first :=
      ⟨kept, rfl, rfl, fun _ member => member, fun _ member => .inl member⟩
    have again : ∀ other stored, Receipted crates (first.shareds other) stored →
        Receipted crates (second.shareds other) stored := by
      refine putShared_receipts fun other known => ?_
      rcases receipt with absent | mine
      · refine known.first ?_
        rw [putShared_self, Dict.get?_insert_ne _ _ (binaryName_ne valid)]
        exact absent
      · exact known.again (reads artifact) (kept _ _ mine)
    have two : Publicly crates (some (cache.dir, artifact)) world second :=
      ⟨fun other stored known => again other stored (kept other stored known), rfl, rfl,
        fun _ member => member, fun _ member => .inl member⟩
    have fresh : Receipted crates (second.shareds cache.dir) artifact := by
      rw [putShared_self]
      exact .fresh (reads artifact)
    refine Prog.Meets.bind (replace_meets ?_ ?_ ?_)
    · refine Prog.Meets.bind (replace_meets ?_ ?_ ?_)
      · refine .modify ⟨⟨two.receipts, rfl, rfl, fun _ => List.mem_append_left _, ?_⟩, by simp⟩
        intro pair member
        rcases mem_snoc.mp member with earlier | rfl
        · exact .inl earlier
        · exact .inr ⟨rfl, fun _ => fresh⟩
      · rintro error t (rfl | rfl)
        · exact one
        · exact two
      · rintro t (rfl | rfl)
        · exact one
        · exact two
    · rintro error t (rfl | rfl)
      · exact .refl _ _
      · exact one
    · rintro t (rfl | rfl)
      · exact .refl _ _
      · exact one

variable (crates) in
/-- What a call does to the directories and to the record. -/
structure Moves (target : Option (Nat × Artifact)) (before after : World) : Prop where
  privates : ∀ root artifact, Receipted crates (before.privates root) artifact →
    Receipted crates (after.privates root) artifact
  shareds : ∀ cache artifact, Receipted crates (before.shareds cache) artifact →
    Receipted crates (after.shareds cache) artifact
  ensured : ∀ pair ∈ after.ensured, pair ∈ before.ensured ∨
    Receipted crates (after.privates pair.1) pair.2
  published : ∀ pair ∈ after.published, pair ∈ before.published ∨
    target = some pair ∧
      (Whole crates before pair.1 pair.2 → Receipted crates (after.shareds pair.1) pair.2)
  logged : (∀ pair ∈ before.ensured, pair ∈ after.ensured) ∧
    ∀ pair ∈ before.published, pair ∈ after.published

variable {target : Option (Nat × Artifact)}

theorem Privately.moves {before after} (privately : Privately crates before after) :
    Moves crates target before after := by
  refine ⟨privately.receipts, ?_, ?_, ?_, ?_⟩
  · rw [privately.shareds]
    exact fun _ _ kept => kept
  · rw [privately.ensured]
    exact fun _ member => .inl member
  · rw [privately.published]
    exact fun _ member => .inl member
  · rw [privately.ensured, privately.published]
    exact ⟨fun _ member => member, fun _ member => member⟩

theorem Publicly.moves {before after} (publicly : Publicly crates target before after) :
    Moves crates target before after := by
  refine ⟨?_, publicly.receipts, ?_, publicly.published, ?_, publicly.logged⟩
  · rw [publicly.privates]
    exact fun _ _ kept => kept
  · rw [publicly.ensured]
    exact fun _ member => .inl member
  · rw [publicly.ensured]
    exact fun _ member => member

theorem Moves.refl (target : Option (Nat × Artifact)) (world : World) : Moves crates target world world :=
  (Privately.refl world).moves

theorem Moves.after {a b c} (first : Privately crates a b) (second : Moves crates target b c) :
    Moves crates target a c := by
  have same (cache : Nat) (artifact : Artifact) : Whole crates a cache artifact ↔ Whole crates b cache artifact := by
    rw [Whole, Whole, first.shareds]
  refine ⟨fun root artifact kept => second.privates root artifact (first.receipts root artifact kept),
    ?_, ?_, ?_, ?_⟩
  · rw [← first.shareds]
    exact second.shareds
  · rw [← first.ensured]
    exact second.ensured
  · intro pair member
    rw [← first.published, same]
    exact second.published pair member
  · rw [← first.ensured, ← first.published]
    exact second.logged

end Writing

section Calls

variable {crates : Crates} {world : World} {store : Store} {artifact : Artifact} {net : Net}

/-- What a store may publish. -/
def Store.target (store : Store) (artifact : Artifact) : Option (Nat × Artifact) :=
  (store.shared.filter Cache.writer).map fun cache => (cache.dir, artifact)

theorem mirror_meets (reads : Readable crates) :
    (store.mirrorArtifact crates artifact).Meets world
      (.all (Publicly crates (store.target artifact) world)) := by
  unfold Store.mirrorArtifact Store.target
  cases store.shared with
  | none => exact .pure (.refl _ _)
  | some cache =>
      dsimp only
      split
      · rename_i writes
        simp only [Option.filter_some, writes, if_true, Option.map_some]
        refine Prog.Meets.bind (.caught ((publishArtifact_meets reads).mono ?_ ?_ ?_))
        · exact fun _ _ published => .pure published.1
        · exact fun _ _ publicly => .pure publicly
        · exact fun _ publicly => publicly
      · exact .pure (.refl _ _)

/-- How `ensure` ends. -/
def ensures (crates : Crates) (store : Store) (artifact : Artifact) (world : World) :
    Ends World Fault (Artifact × String) where
  done tool t := Moves crates (store.target artifact) world t ∧ tool = (artifact, binaryName artifact) ∧
    Holds crates (t.privates store.root) (binaryName artifact) artifact.executable ∧
    (store.root, artifact) ∈ t.ensured
  failed _ t := Moves crates (store.target artifact) world t
  died t := Moves crates (store.target artifact) world t

/-- The end of `ensure`, when binary and receipt are there. -/
theorem finish_meets {before} (moves : Moves crates (store.target artifact) before world)
    (receipt : Receipted crates (world.privates store.root) artifact)
    (holds : Holds crates (world.privates store.root) (binaryName artifact) artifact.executable) :
    (store.finish artifact).Meets world (ensures crates store artifact before) := by
  refine Prog.Meets.bind (.modify (.pure ⟨⟨moves.privates, moves.shareds, ?_, moves.published, ?_,
    moves.logged.2⟩, rfl, holds, by simp⟩))
  · intro pair member
    rcases mem_snoc.mp member with earlier | rfl
    · exact moves.ensured pair earlier
    · exact .inr receipt
  · intro pair member
    exact List.mem_append_left _ (moves.logged.1 pair member)

section

variable (reads : Readable crates)

include reads

theorem mirrored_meets {before}
    (privately : Privately crates before world)
    (receipt : Receipted crates (world.privates store.root) artifact)
    (holds : Holds crates (world.privates store.root) (binaryName artifact) artifact.executable) :
    (store.mirrorArtifact crates artifact >>= fun _ => store.finish artifact).Meets world
      (ensures crates store artifact before) := by
  refine Prog.Meets.bind ((mirror_meets reads).mono ?_ ?_ ?_)
  · intro _ t publicly
    exact finish_meets (.after privately publicly.moves) (publicly.privates ▸ receipt)
      (publicly.privates ▸ holds)
  · exact fun _ _ publicly => .after privately publicly.moves
  · exact fun _ publicly => .after privately publicly.moves

theorem install_meets (valid : artifact.validate = .ok ()) {bytes}
    (fitting : fits crates bytes artifact.executable = true) (mirror : Bool) :
    (store.install crates artifact bytes mirror).Meets world (ensures crates store artifact world) := by
  have written : Privately crates world (world.putPrivate store.root (binaryName artifact) bytes) :=
    putPrivate_privately fun other kept => kept.binary valid
  refine Prog.Meets.bind (replace_meets ?_ ?_ ?_)
  · refine Prog.Meets.bind ((record_meets reads).mono ?_ ?_ ?_)
    · rintro _ t ⟨privately, receipt, same⟩
      have holds : Holds crates (t.privates store.root) (binaryName artifact) artifact.executable := by
        refine ⟨bytes, ?_, fitting⟩
        rw [same artifact valid, putPrivate_self, Dict.get?_insert_self]
      cases mirror with
      | true => exact mirrored_meets reads (written.trans privately) receipt holds
      | false => exact finish_meets (written.trans privately).moves receipt holds
    · exact fun _ _ privately => (written.trans privately).moves
    · exact fun _ privately => (written.trans privately).moves
  · rintro error t (rfl | rfl)
    · exact .refl _ _
    · exact written.moves
  · rintro t (rfl | rfl)
    · exact .refl _ _
    · exact written.moves

theorem ensureLocked_meets (valid : artifact.validate = .ok ()) {catalog} :
    (store.ensureLocked crates catalog artifact net).Meets world
      (ensures crates store artifact world) := by
  refine verified_watches.then_ ?_ (fun _ => .refl _ _) (.refl _ _)
  intro there holds
  split
  · rename_i yes
    obtain ⟨bytes, found, fitting⟩ := holds yes
    refine Prog.Meets.bind ((record_meets reads).mono ?_ ?_ ?_)
    · rintro _ t ⟨privately, receipt, same⟩
      exact mirrored_meets reads privately receipt ⟨bytes, by rw [same artifact valid, found], fitting⟩
    · exact fun _ _ privately => privately.moves
    · exact fun _ privately => privately.moves
  · refine fromShared_watches.then_ ?_ (fun _ => .refl _ _) (.refl _ _)
    intro copy fitting
    cases copy with
    | some bytes => exact install_meets reads valid (fitting bytes rfl) false
    | none =>
        refine fromGateway_watches.then_ ?_ (fun _ => .refl _ _) (.refl _ _)
        intro file fitting
        cases file with
        | some bytes => exact install_meets reads valid (fitting bytes rfl) true
        | none =>
            refine fromGithub_watches.then_ ?_ (fun _ => .refl _ _) (.refl _ _)
            exact fun bytes fitting => install_meets reads valid fitting true

end

end Calls

section Selecting

variable {crates : Crates} {world : World} {store : Store} {component : Component}
  {catalog : Catalog} {artifact : Artifact} {net : Net}

theorem foldl_later_mem (first : Artifact) (rest : List Artifact) :
    rest.foldl later first ∈ first :: rest := by
  induction rest generalizing first with
  | nil => simp
  | cons next rest ih =>
      rw [List.foldl_cons]
      rcases List.mem_cons.mp (ih (later first next)) with same | inside
      · rw [same, later]
        split <;> simp
      · exact List.mem_cons_of_mem _ (List.mem_cons_of_mem _ inside)

/-- What is selected is listed, compatible and not disabled. -/
theorem selected_spec (selected : store.selected crates catalog component = .ok artifact) :
    artifact ∈ catalog.artifacts ∧ store.settings.compatible crates component artifact = true ∧
      component ∉ store.settings.disabled := by
  obtain ⟨_, allowed, selected⟩ := bind_eq_ok.mp selected
  have chosen : select crates catalog store.settings component = some artifact := by
    cases found : select crates catalog store.settings component with
    | none => simp [found] at selected
    | some other => simpa [found] using selected
  have member : artifact ∈ catalog.artifacts.filter (store.settings.compatible crates component) := by
    unfold select at chosen
    split at chosen
    · cases chosen
    · rename_i first rest list
      rw [list, ← Option.some.inj chosen]
      exact foldl_later_mem first rest
  rw [List.mem_filter] at member
  exact ⟨member.1, member.2, by simpa using allowed⟩

theorem validateArtifacts_valid {release unique archives artifacts}
    (valid : Catalog.validateArtifacts release unique archives artifacts = .ok ()) :
    ∀ artifact ∈ artifacts, artifact.validate = .ok () := by
  induction artifacts generalizing unique archives with
  | nil => simp
  | cons artifact rest ih =>
      obtain ⟨_, first, valid⟩ := bind_eq_ok.mp valid
      have valid := ok_of_then (ok_of_then (ok_of_then valid))
      intro other member
      rcases List.mem_cons.mp member with rfl | later
      · exact first
      · exact ih valid other later

theorem artifact_valid (valid : catalog.validate = .ok ()) (member : artifact ∈ catalog.artifacts) :
    artifact.validate = .ok () := by
  have valid := ok_of_then (ok_of_then valid)
  exact validateArtifacts_valid valid artifact member

theorem version_le_self (valid : artifact.validate = .ok ()) :
    artifact.version.le artifact.version = true := by
  obtain ⟨_, stable, _⟩ := bind_eq_ok.mp valid
  simp only [ensure_eq_ok, Bool.and_eq_true] at stable
  rw [Version.eq_numeric stable.1, Version.le_numeric]
  simp

theorem ensure_meets (reads : Readable crates)
    (selected : store.selected crates catalog component = .ok artifact) :
    (store.ensure crates catalog component net).Meets world (ensures crates store artifact world) := by
  refine ofResult_watches.then_ ?_ (fun _ => .refl _ _) (.refl _ _)
  intro _ valid
  refine ofResult_watches.then_ ?_ (fun _ => .refl _ _) (.refl _ _)
  intro other same
  obtain rfl := Except.ok.inj (selected.symm.trans same)
  refine touch_watches.then_ (fun _ _ => ?_) (fun _ => .refl _ _) (.refl _ _)
  exact ensureLocked_meets reads (artifact_valid valid (selected_spec selected).1)

theorem ensure_refused {text : String}
    (refused : store.selected crates catalog component = .error text) :
    (store.ensure crates catalog component net).Watches world fun _ => False := by
  refine ofResult_watches.bind fun _ _ => ofResult_watches.bind fun artifact selected => ?_
  cases refused.symm.trans selected

/-- What `installed` lists. -/
structure Usable (crates : Crates) (store : Store) (component : Component) (world : World)
    (tool : Artifact × String) : Prop where
  compatible : store.settings.compatible crates component tool.1 = true
  holds : Holds crates (world.privates store.root) tool.2 tool.1.executable

theorem installedFrom_watches {names : List String} {count : Nat} {found : List (Artifact × String)}
    (before : ∀ tool ∈ found, Usable crates store component world tool) :
    (store.installedFrom crates component count found names).Watches world fun tools =>
      ∀ tool ∈ tools, Usable crates store component world tool := by
  induction names generalizing count found with
  | nil => exact .pure before
  | cons name rest ih =>
      refine check_watches.bind fun _ _ => ?_
      split
      · exact ih before
      · refine readPrivate_watches.bind fun file _ => ?_
        cases file with
        | none => exact .throw
        | some bytes =>
            refine readReceipt_watches.bind fun artifact _ => ofResult_watches.bind fun _ _ => ?_
            split
            · exact ih before
            · rename_i compatible
              refine verified_watches.bind fun there holds => ih ?_
              split
              · rename_i yes
                intro tool member
                rcases mem_snoc.mp member with earlier | rfl
                · exact before tool earlier
                · exact ⟨by simpa using compatible, holds yes⟩
              · exact before

theorem installed_watches : (store.installed crates component).Watches world fun tools =>
    ∀ tool ∈ tools, Usable crates store component world tool := by
  refine check_watches.bind fun _ _ => ?_
  have lists : (Prog.op ioError fun world =>
      some ((world.privates store.root).entries.map Prod.fst, world) : Work (List String)).Watches world
      fun _ => True := by
    refine .op ?_
    rintro value t ⟨⟩
    exact ⟨rfl, trivial⟩
  refine lists.bind fun names _ => (installedFrom_watches (by simp)).bind fun found usable => .pure ?_
  intro tool member
  exact usable tool (List.mem_mergeSort.mp member)

/-- What `resolve` returns. -/
structure Resolves (crates : Crates) (store : Store) (document : Document) (component : Component)
    (world : World) (tool : Artifact × String) : Prop where
  allowed : component ∉ store.settings.disabled
  usable : Usable crates store component world tool
  bounded : ∃ catalog latest, document.parse = .ok catalog ∧
    store.selected crates catalog component = .ok latest ∧ tool.1.version.le latest.version = true

/-- What a call may publish. -/
def Call.target (crates : Crates) : Call → Option (Nat × Artifact)
  | .ensure store catalog component _ =>
      (store.selected crates catalog component).toOption.bind store.target
  | .resolve store document component _ =>
      document.parse.toOption.bind fun catalog =>
        (store.selected crates catalog component).toOption.bind store.target
  | .publish cache artifact _ => some (cache.dir, artifact)

theorem resolve_meets (reads : Readable crates)
    {document : Document} :
    (store.resolve crates document component net).Meets world
      ⟨fun tool t => Moves crates ((Call.resolve store document component net).target crates) world t ∧
          Resolves crates store document component t tool,
        fun _ t => Moves crates ((Call.resolve store document component net).target crates) world t,
        fun t => Moves crates ((Call.resolve store document component net).target crates) world t⟩ := by
  refine ofResult_watches.then_ ?_ (fun _ => .refl _ _) (.refl _ _)
  intro catalog parsed
  refine ofResult_watches.then_ ?_ (fun _ => .refl _ _) (.refl _ _)
  intro latest selected
  have target : (Call.resolve store document component net).target crates = store.target latest := by
    simp [Call.target, parsed, selected, Except.toOption]
  rw [target]
  have valid := artifact_valid (Document.parse_valid parsed) (selected_spec selected).1
  refine touch_watches.then_ (fun _ _ => ?_) (fun _ => .refl _ _) (.refl _ _)
  have bounded (artifact : Artifact) (below : artifact.version.le latest.version = true) :
      ∃ catalog latest, document.parse = .ok catalog ∧
        store.selected crates catalog component = .ok latest ∧ artifact.version.le latest.version = true :=
    ⟨catalog, latest, parsed, selected, below⟩
  refine Prog.Meets.bind (.caught ((ensure_meets reads selected).mono ?_ ?_ ?_))
  · rintro ⟨artifact, path⟩ t ⟨moves, same, holds, _⟩
    cases same
    exact .pure ⟨moves, (selected_spec selected).2.2, ⟨(selected_spec selected).2.1, holds⟩,
      bounded _ (version_le_self valid)⟩
  · intro error t moves
    dsimp only
    split
    · exact .throw moves
    · refine installed_watches.then_ ?_ (fun _ => moves) moves
      intro tools usable
      cases found : tools.find? fun tool => tool.1.version.le latest.version with
      | none => exact .throw moves
      | some tool =>
          have below : tool.1.version.le latest.version = true := by simpa using List.find?_some found
          exact .pure ⟨moves, (selected_spec selected).2.2,
            usable tool (List.mem_of_find?_eq_some found), bounded _ below⟩
  · exact fun _ moves => moves

end Selecting

section Runs

variable {crates : Crates} {before after origin final : World} {call : Call}
  {target : Option (Nat × Artifact)} {value : Option (Nat × Artifact × String)}

/-- A call and how it ended. -/
abbrev Label := Call × Faults.Result Fault (Option (Nat × Artifact × String))

/-- One call, however its operations go. -/
def Takes (crates : Crates) (before : World) (label : Label) (after : World) : Prop :=
  ∃ tape rest, label.1.run crates before tape = (label.2, after, rest)

/-- A call finds what it may publish whole. -/
def Call.Clean (crates : Crates) (world : World) (call : Call) : Prop :=
  ∀ pair, call.target crates = some pair → Whole crates world pair.1 pair.2

/-- What a call returned: its path holds the artifact, and `resolve` kept to its
    limits. -/
def Returned (crates : Crates) (after : World) : Call → Option (Nat × Artifact × String) → Prop
  | .ensure store _ _ _, some (root, artifact, path) =>
      root = store.root ∧ Holds crates (after.privates root) path artifact.executable ∧
        (root, artifact) ∈ after.ensured
  | .resolve store document component _, some (root, tool) =>
      root = store.root ∧ Resolves crates store document component after tool
  | .publish cache artifact _, none => (cache.dir, artifact) ∈ after.published
  | _, _ => False

theorem call_meets (reads : Readable crates)
    (call : Call) (world : World) :
    (call.run crates).Meets world
      ⟨fun value t => Moves crates (call.target crates) world t ∧ Returned crates t call value,
        fun _ t => Moves crates (call.target crates) world t,
        fun t => Moves crates (call.target crates) world t⟩ := by
  cases call with
  | ensure store catalog component net =>
      cases selected : store.selected crates catalog component with
      | error text =>
          refine (ensure_refused selected).then_ ?_ (fun _ => .refl _ _) (.refl _ _)
          rintro tool ⟨⟩
      | ok artifact =>
          have target : (Call.ensure store catalog component net).target crates = store.target artifact := by
            simp [Call.target, selected, Except.toOption]
          rw [target]
          refine Prog.Meets.bind ((ensure_meets reads selected).mono ?_ ?_ ?_)
          · rintro tool t ⟨moves, rfl, holds, logged⟩
            exact .pure ⟨moves, rfl, holds, logged⟩
          · exact fun _ _ moves => moves
          · exact fun _ moves => moves
  | resolve store document component net =>
      refine Prog.Meets.bind ((resolve_meets reads).mono ?_ ?_ ?_)
      · rintro tool t ⟨moves, resolves⟩
        exact .pure ⟨moves, rfl, resolves⟩
      · exact fun _ _ moves => moves
      · exact fun _ moves => moves
  | publish cache artifact source =>
      refine Prog.Meets.bind ((publishArtifact_meets reads).mono ?_ ?_ ?_)
      · rintro _ t ⟨publicly, logged⟩
        exact .pure ⟨publicly.moves, logged⟩
      · exact fun _ _ publicly => publicly.moves
      · exact fun _ publicly => publicly.moves

theorem takes_moves (reads : Readable crates)
    {result} (takes : Takes crates before (call, result) after) :
    Moves crates (call.target crates) before after ∧
      ∀ value, result = .done value → Returned crates after call value := by
  obtain ⟨tape, rest, ran⟩ := takes
  have meets := call_meets reads call before tape
  rw [ran] at meets
  cases result with
  | done value =>
      refine ⟨meets.1, ?_⟩
      rintro other ⟨⟩
      exact meets.2
  | failed error | died => exact ⟨meets, by simp⟩

/-- Every achievement of a private cache has its receipt. -/
def PrivatesKept (crates : Crates) (world : World) : Prop :=
  ∀ pair ∈ world.ensured, Receipted crates (world.privates pair.1) pair.2

def SharedsKept (crates : Crates) (world : World) : Prop :=
  ∀ pair ∈ world.published, Receipted crates (world.shareds pair.1) pair.2

theorem Moves.privatesKept (moves : Moves crates target before after)
    (kept : PrivatesKept crates before) :
    PrivatesKept crates after := by
  intro pair member
  rcases moves.ensured pair member with earlier | receipt
  · exact moves.privates pair.1 pair.2 (kept pair earlier)
  · exact receipt

theorem Moves.sharedsKept (moves : Moves crates target before after)
    (kept : SharedsKept crates before)
    (whole : ∀ pair, target = some pair → Whole crates before pair.1 pair.2) :
    SharedsKept crates after := by
  intro pair member
  rcases moves.published pair member with earlier | ⟨aimed, receipt⟩
  · exact moves.shareds pair.1 pair.2 (kept pair earlier)
  · exact receipt (whole pair aimed)

variable {history : List Label}

theorem run_privatesKept (reads : Readable crates)
    (fresh : origin.ensured = []) (run : Run (Takes crates) origin history final) :
    PrivatesKept crates final := by
  induction run with
  | start => simp [PrivatesKept, fresh]
  | snoc _ takes ih => exact (takes_moves reads takes).1.privatesKept ih

theorem run_sharedsKept (reads : Readable crates)
    (fresh : origin.published = [])
    (run : Run (fun before label after => Takes crates before label after ∧ label.1.Clean crates before)
      origin history final) : SharedsKept crates final := by
  induction run with
  | start => simp [SharedsKept, fresh]
  | snoc _ step ih => exact (takes_moves reads step.1).1.sharedsKept ih step.2

/-- A success stands in the record. -/
def Logged (world : World) : Call → Option (Nat × Artifact × String) → Prop
  | .ensure _ _ _ _, some (root, artifact, _) => (root, artifact) ∈ world.ensured
  | .publish cache artifact _, none => (cache.dir, artifact) ∈ world.published
  | _, _ => True

theorem Returned.logged {world} (returned : Returned crates world call value) :
    Logged world call value := by
  cases call <;> cases value <;> first | trivial | exact returned.2.2

theorem Logged.later (logged : Logged before call value) (moves : Moves crates target before after) :
    Logged after call value := by
  cases call <;> cases value <;>
    first | trivial | exact moves.logged.1 _ logged | exact moves.logged.2 _ logged

theorem run_logged (reads : Readable crates)
    (run : Run (Takes crates) origin history final) :
    ∀ call value, (call, .done value) ∈ history → Logged final call value := by
  induction run with
  | start => simp
  | @snoc history before label after _ takes ih =>
      intro call value member
      have moves := takes_moves reads takes
      rcases mem_snoc.mp member with earlier | rfl
      · exact (ih call value earlier).later moves.1
      · exact (moves.2 value rfl).logged

/-- Every path that a call returns holds its artifact, and `resolve` keeps to its
    limits; all tools of one key that were ensured in one private cache are the same,
    and so are those published into one shared cache, as long as no call finds the
    binary that it publishes without its receipt. -/
theorem installed_versions_are_immutable
    (reads : ∀ artifact, crates.fromSlice (crates.toVec artifact) = some artifact)
    {origin final : World} {history : List Label}
    (fresh : origin.ensured = [] ∧ origin.published = [])
    (run : Run (Takes crates) origin history final) :
    (∀ call value after, Takes crates final (call, .done value) after →
      Returned crates after call value) ∧
    (∀ call value, (call, .done value) ∈ history → Logged final call value) ∧
    (∀ root one two, (root, one) ∈ final.ensured → (root, two) ∈ final.ensured →
      one.key = two.key → one.sameTool two = true) ∧
    (Run (fun before label after => Takes crates before label after ∧ label.1.Clean crates before)
        origin history final →
      ∀ cache one two, (cache, one) ∈ final.published → (cache, two) ∈ final.published →
        one.key = two.key → one.sameTool two = true) := by
  refine ⟨fun call value after takes => (takes_moves reads takes).2 value rfl, run_logged reads run, ?_, ?_⟩
  · intro root one two first second key
    have kept := run_privatesKept reads fresh.1 run
    have left : Receipted crates (final.privates root) one := kept (root, one) first
    have right : Receipted crates (final.privates root) two := kept (root, two) second
    exact left.sameTool right key
  · intro clean cache one two first second key
    have kept := run_sharedsKept reads fresh.2 clean
    have left : Receipted crates (final.shareds cache) one := kept (cache, one) first
    have right : Receipted crates (final.shareds cache) two := kept (cache, two) second
    exact left.sameTool right key

end Runs

section Samples

instance encodableChar : Encodable Char := Encodable.ofLeftInverse Char.toNat Char.ofNat Char.ofNat_toNat

instance encodableString : Encodable String := Encodable.ofEquiv (List Char) ⟨String.toList, String.ofList, by
  intro text
  simp, by
  intro text
  simp⟩

deriving instance Encodable for Component, Version, Op, Comparator, VersionReq, Blob, Artifact

/-- One tool with a binary of one byte. -/
def byteTool (sha256 : String) : Artifact where
  component := .sync
  version := .numeric 1 0 0
  target := "x86_64-unknown-linux-gnu"
  core := ⟨[]⟩
  protocols := [1]
  sourceRevision := "0123456789abcdef0123456789abcdef01234567"
  buildInputs := "0123456789abcdef0123456789abcdef0123456789abcdef0123456789abcdef"
  executable := ⟨1, sha256⟩
  release := .numeric 1 0 0
  archive := ⟨1, sha256⟩

def firstHash : String := "4bf5122f344554c53bde2ebb8cd2b7e3d1600ad631c385a5d7cce23c7785459a"

def secondHash : String := "dbc1b4c900ffe48d575b5da5c638040125f65db0fe3e24494b76ea986457d986"

/-- The receipt of such a tool, as serde writes it. -/
def byteReceipt (sha256 : String) : Bytes :=
  utf8 ("\x7b\"component\":\"sync\",\"version\":\"1.0.0\",\"target\":\"x86_64-unknown-linux-gnu\","
    ++ "\"core\":\"*\",\"protocols\":[1],"
    ++ "\"source_revision\":\"0123456789abcdef0123456789abcdef01234567\","
    ++ "\"build_inputs\":\"0123456789abcdef0123456789abcdef0123456789abcdef0123456789abcdef\","
    ++ "\"executable\":\x7b\"size\":1,\"sha256\":\"" ++ sha256 ++ "\"\x7d,\"release\":\"1.0.0\","
    ++ "\"archive\":\x7b\"size\":1,\"sha256\":\"" ++ sha256 ++ "\"\x7d\x7d")

/-- The crates on the two tools; other artifacts get a code of their own. -/
def sampleCrates : Crates where
  sha256 bytes := if bytes = [1] then firstHash else if bytes = [2] then secondHash else ""
  toVec artifact :=
    if artifact = byteTool firstHash then byteReceipt firstHash
    else if artifact = byteTool secondHash then byteReceipt secondHash
    else List.replicate (Encodable.encode artifact) 0
  fromSlice bytes :=
    if bytes = byteReceipt firstHash then some (byteTool firstHash)
    else if bytes = byteReceipt secondHash then some (byteTool secondHash)
    else Encodable.decode bytes.length
  satisfies requirement _ := requirement.comparators.isEmpty
  unpack _ := []

theorem sample_reads (artifact : Artifact) :
    sampleCrates.fromSlice (sampleCrates.toVec artifact) = some artifact := by
  have different : byteReceipt secondHash ≠ byteReceipt firstHash := by decide +kernel
  have starts (sha256 : String) (count : Nat) : List.replicate count 0 ≠ byteReceipt sha256 := by
    intro same
    have brace : (123 : UInt8) ∈ byteReceipt sha256 := by
      simp only [byteReceipt, utf8_append, List.mem_append]
      exact .inl (.inl (.inl (.inl (.inl (.inl (.inl (by decide)))))))
    rw [← same] at brace
    simpa using List.eq_of_mem_replicate brace
  simp only [sampleCrates]
  split
  · rename_i same
    simp [same]
  · split
    · rename_i same
      simp [same]
    · simp [starts, Encodable.encodek]

def emptyWorld : World := ⟨fun _ => .empty, fun _ => .empty, [], []⟩

def writerCache : Cache := ⟨0, true⟩

def firstPublish : Call := .publish writerCache (byteTool firstHash) (some [1])

def secondPublish : Call := .publish writerCache (byteTool secondHash) (some [2])

/-- A store that writes a shared cache and downloads from its gateway. -/
def gatewayStore : Store :=
  { root := 0
    settings :=
      { gateway := true
        sources := .gatewayThenGithub
        core := .numeric 1 0 0
        target := "x86_64-unknown-linux-gnu"
        disabled := []
        pins := [] }
    shared := some writerCache }

def byteCatalog : Catalog := ⟨1, repository, .numeric 1 0 0, [byteTool firstHash]⟩

def firstEnsure : Call := .ensure gatewayStore byteCatalog .sync ⟨.file [1], .failed, false⟩

theorem takes_run (crates : Crates) (call : Call) (world : World) (tape : List Verdict) :
    Takes crates world (call, (call.run crates world tape).1) (call.run crates world tape).2.1 :=
  ⟨tape, _, rfl⟩

/-- The first tool, delivered again by a later release. -/
def deliveredTool : Artifact := { byteTool firstHash with release := .numeric 1 1 0 }

def deliveredPublish : Call := .publish writerCache deliveredTool none

def publishedWorld : World := (firstPublish.run sampleCrates emptyWorld []).2.1

def deliveredWorld : World := (deliveredPublish.run sampleCrates publishedWorld []).2.1

/-- A tool that was published is published again from another release, and a downloaded tool
    is at the path that is returned. -/
theorem downloaded_tool_is_there :
    (0, byteTool firstHash) ∈ deliveredWorld.published ∧ (0, deliveredTool) ∈ deliveredWorld.published ∧
    (byteTool firstHash).sameTool deliveredTool = true ∧
    (firstEnsure.run sampleCrates deliveredWorld []).1 =
      .done (some (0, byteTool firstHash, binaryName (byteTool firstHash))) ∧
    Holds sampleCrates ((firstEnsure.run sampleCrates deliveredWorld []).2.1.privates 0)
      (binaryName (byteTool firstHash)) (byteTool firstHash).executable := by
  have first := takes_run sampleCrates firstPublish emptyWorld []
  have again := takes_run sampleCrates deliveredPublish publishedWorld []
  have absent : firstPublish.Clean sampleCrates emptyWorld := by
    rintro _ ⟨⟩ ⟨bytes, found, _⟩
    cases found
  have whole : deliveredPublish.Clean sampleCrates publishedWorld := by
    rintro _ ⟨⟩ _
    decide
  have clean : Run (fun before label after => Takes sampleCrates before label after ∧
      label.1.Clean sampleCrates before) emptyWorld _ deliveredWorld :=
    .snoc (.single ⟨first, absent⟩) ⟨again, whole⟩
  have run : Run (Takes sampleCrates) emptyWorld _ deliveredWorld := .snoc (.single first) again
  obtain ⟨returned, _, _, same⟩ := installed_versions_are_immutable sample_reads ⟨rfl, rfl⟩ run
  have published : (0, byteTool firstHash) ∈ deliveredWorld.published ∧
      (0, deliveredTool) ∈ deliveredWorld.published := by decide +kernel
  have done : (firstEnsure.run sampleCrates deliveredWorld []).1 =
      .done (some (0, byteTool firstHash, binaryName (byteTool firstHash))) := by decide +kernel
  have takes := takes_run sampleCrates firstEnsure deliveredWorld []
  rw [done] at takes
  have tool := returned firstEnsure _ _ takes
  exact ⟨published.1, published.2, same clean 0 _ _ published.1 published.2 rfl, done, tool.2.1⟩

/-- Behind a publication that ends between the binary and its receipt. -/
def cutWorld : World :=
  (firstPublish.run sampleCrates emptyWorld [.pass, .pass, .pass, .pass, .pass, .pass, .pass, .die]).2.1

/-- The same publication again, which now returns early. -/
def repeatedWorld : World := (firstPublish.run sampleCrates cutWorld []).2.1

def replacedWorld : World := (secondPublish.run sampleCrates repeatedWorld []).2.1

/-- Two different tools are published under one version. -/
theorem early_return_leaves_no_receipt :
    ∃ history, Run (Takes sampleCrates) emptyWorld history replacedWorld ∧
      (firstPublish, .done none) ∈ history ∧ (secondPublish, .done none) ∈ history ∧
      (0, byteTool firstHash) ∈ replacedWorld.published ∧
      (0, byteTool secondHash) ∈ replacedWorld.published ∧
      (byteTool firstHash).key = (byteTool secondHash).key ∧
      (byteTool firstHash).sameTool (byteTool secondHash) = false := by
  have cut := takes_run sampleCrates firstPublish emptyWorld
    [.pass, .pass, .pass, .pass, .pass, .pass, .pass, .die]
  have again := takes_run sampleCrates firstPublish cutWorld []
  have other := takes_run sampleCrates secondPublish repeatedWorld []
  have run := Run.snoc (Run.snoc (Run.single cut) again) other
  have first : (firstPublish.run sampleCrates cutWorld []).1 = .done none := by decide
  have second : (secondPublish.run sampleCrates repeatedWorld []).1 = .done none := by decide
  rw [first, second] at run
  refine ⟨_, run, by simp, by simp, ?_, ?_, by decide, by decide⟩
  · decide
  · decide

end Samples

end PortHub.Components
