import PortHub.Lib.Runs
import PortHub.Transfer.Upload

/-! # Uploads under concurrency

A chunk that was checked is never written again, as long as no two requests have
the same `N.part` open. Assembly files are told apart in the same way, and all
requests work for manifests of one size. The receiver itself ensures none of the
three: the names are shared, and so is the manifest that `init` probes before it
writes it. The main result holds for all runs in which the requests keep out of
each other's way.
-/

namespace PortHub.Transfer.Upload

open Runs

abbrev History := List (Event × Output)

/-- The manifest that a request works for. -/
def Work.manifest : Work → Option Manifest
  | .init manifest (.list _ _) => some manifest
  | .status (.list manifest _ _) => some manifest
  | .chunk _ (.open_ manifest _) => some manifest
  | .chunk _ (.receive manifest _ _ _ _ _) => some manifest
  | .chunk _ (.verify manifest _ _) => some manifest
  | .chunk _ (.rename manifest _) => some manifest
  | .commit (.list manifest _ _) => some manifest
  | .commit (.locate manifest) => some manifest
  | .commit (.create manifest _) => some manifest
  | .commit (.next manifest _ _ _ _) => some manifest
  | .commit (.copy manifest _ _ _ _ _ _ _) => some manifest
  | .commit (.measure manifest _ _ _) => some manifest
  | .commit (.replace manifest _ _ _) => some manifest
  | _ => none

/-- The temporary file that a request has made. -/
def Work.claims : Work → Option Temporary
  | .chunk request (.receive _ _ _ _ _ _) => some (.part request.index)
  | .chunk request .cleanup => some (.part request.index)
  | .chunk request (.verify _ _ _) => some (.part request.index)
  | .chunk request (.rename _ _) => some (.part request.index)
  | .commit (.next _ target _ _ _) => some (.assembly target.dropLast)
  | .commit (.copy _ target _ _ _ _ _ _) => some (.assembly target.dropLast)
  | .commit (.measure _ target _ _) => some (.assembly target.dropLast)
  | .commit (.replace _ target _ _) => some (.assembly target.dropLast)
  | _ => none

/-- The temporary file that a request makes next. -/
def Work.makes : Work → Option Temporary
  | .chunk request (.open_ _ _) => some (.part request.index)
  | .commit (.create _ target) => some (.assembly target.dropLast)
  | _ => none

/-- The file of a chunk that a request still writes. -/
def Work.writes : Work → Option Nat
  | .chunk _ (.receive _ _ inode _ _ _) => some inode
  | _ => none

/-- The requests keep out of each other's way: nobody makes a file that another
    request under way has made, and a manifest that is written has the size that
    the other requests and the stored chunks are for. -/
structure Undisturbed (receiver : Receiver) (event : Event) : Prop where
  makes : ∀ id choice request name, event = .step id choice →
    receiver.requests.get? id = some request → request.work.makes = some name →
    ∀ other rival, receiver.requests.get? other = some rival → rival.work.claims ≠ some name
  manifest : ∀ id choice manifest dropped, event = .step id choice →
    receiver.requests.get? id = some ⟨.init manifest .write, dropped⟩ →
    (∀ index inode, receiver.files.chunks.get? index = some inode → index < manifest.chunks →
      (receiver.files.content inode).length = manifest.expected index) ∧
    ∀ other rival held, receiver.requests.get? other = some rival →
      rival.work.manifest = some held → held.size = manifest.size

section Manifests

theorem valid_chunkSize {manifest : Manifest} (valid : manifest.valid = true) :
    manifest.chunkSize = chunkBytes := by
  simp only [Manifest.valid, Bool.and_eq_true, beq_iff_eq] at valid
  exact valid.1.1.1.1

theorem valid_chunks {manifest : Manifest} (valid : manifest.valid = true) :
    manifest.chunks = (manifest.size + (chunkBytes - 1)) / chunkBytes := by
  simp only [Manifest.valid, Bool.and_eq_true, beq_iff_eq] at valid
  exact valid.1.1.2

/-- Valid manifests of one size prescribe the same chunks. -/
theorem expected_eq {first second : Manifest} (valid : first.valid = true)
    (other : second.valid = true) (same : first.size = second.size) :
    first.chunks = second.chunks ∧ ∀ index, first.expected index = second.expected index := by
  refine ⟨?_, fun index => ?_⟩
  · rw [valid_chunks valid, valid_chunks other, same]
  · simp only [Manifest.expected, valid_chunkSize valid, valid_chunkSize other, same]

end Manifests

/-! ## The invariant -/

/-- The bytes were checked against the hash that was sent with them. -/
def Checked (sha256 : Bytes → String) (history : History) (index : Nat) (bytes : Bytes) : Prop :=
  ∃ event hash, (event, Output.checked index bytes hash) ∈ history ∧ sha256 bytes = hash

/-- The bytes are chunks of the prescribed lengths, in order. -/
def Pieces (checked : Nat → Bytes → Prop) (manifest : Manifest) (count : Nat) (bytes : Bytes) :
    Prop :=
  ∃ pieces : List Bytes, pieces.length = count ∧ bytes = pieces.flatten ∧
    ∀ index piece, pieces[index]? = some piece →
      checked index piece ∧ piece.length = manifest.expected index

/-- A file that holds a checked chunk and that nobody writes. -/
structure Sealed (sha256 : Bytes → String) (history : History) (receiver : Receiver)
    (index inode : Nat) (content : Bytes) : Prop where
  node : receiver.files.inodes.get? inode = some ⟨.part index, content⟩
  checked : Checked sha256 history index content
  unlinked : receiver.files.temporaries.get? (.part index) ≠ some inode
  unwritten : ∀ id request, receiver.requests.get? id = some request →
    request.work.writes ≠ some inode

/-- The receiver works for manifests of this size. -/
structure Accepts (receiver : Receiver) (manifest : Manifest) : Prop where
  valid : manifest.valid = true
  agrees : ∀ id request held, receiver.requests.get? id = some request →
    request.work.manifest = some held → held.size = manifest.size
  fits : ∀ index inode, receiver.files.chunks.get? index = some inode → index < manifest.chunks →
    (receiver.files.content inode).length = manifest.expected index

/-- A temporary file that a request has open: its name leads to it, or is gone. -/
structure Open (files : Files) (name : Temporary) (inode : Nat) (content : Bytes) : Prop where
  node : files.inodes.get? inode = some ⟨name, content⟩
  own : ∀ found, files.temporaries.get? name = some found → found = inode

/-- What a request has established. -/
def Fits (sha256 : Bytes → String) (history : History) (receiver : Receiver) : Work → Prop
  | .init manifest stage => stage = .start ∨ manifest.valid = true
  | .chunk request (.open_ manifest _) => request.index < manifest.chunks
  | .chunk request (.receive manifest _ inode offset size pending) =>
      request.index < manifest.chunks ∧
      ∃ content, Open receiver.files (.part request.index) inode content ∧
        content.length = offset ∧ size = offset + pending.length ∧
        size ≤ manifest.expected request.index
  | .chunk request (.verify manifest _ inode) =>
      request.index < manifest.chunks ∧
      ∃ content, Open receiver.files (.part request.index) inode content ∧
        content.length = manifest.expected request.index
  | .chunk request (.rename manifest inode) =>
      request.index < manifest.chunks ∧
      ∃ content, Open receiver.files (.part request.index) inode content ∧
        content.length = manifest.expected request.index ∧
        Checked sha256 history request.index content
  | .commit (.next manifest target inode index copied) =>
      Open receiver.files (.assembly target.dropLast) inode copied ∧
        Pieces (Checked sha256 history) manifest index copied ∧ index ≤ manifest.chunks
  | .commit (.copy manifest target inode index input position copied pending) =>
      ∃ written done chunk, Open receiver.files (.assembly target.dropLast) inode written ∧
        written ++ pending = copied ∧ Pieces (Checked sha256 history) manifest index done ∧
        copied = done ++ chunk.take position ∧ index < manifest.chunks ∧
        Sealed sha256 history receiver index input chunk ∧
        chunk.length = manifest.expected index
  | .commit (.measure manifest target inode copied) =>
      Open receiver.files (.assembly target.dropLast) inode copied ∧
        Pieces (Checked sha256 history) manifest manifest.chunks copied
  | .commit (.replace manifest target inode copied) =>
      Open receiver.files (.assembly target.dropLast) inode copied ∧
        copied.length = manifest.size ∧ Pieces (Checked sha256 history) manifest manifest.chunks copied
  | _ => True

structure Sound (sha256 : Bytes → String) (history : History) (receiver : Receiver) : Prop where
  temporaries : ∀ name inode, receiver.files.temporaries.get? name = some inode →
    ∃ content, receiver.files.inodes.get? inode = some ⟨name, content⟩
  chunks : ∀ index inode, receiver.files.chunks.get? index = some inode →
    ∃ content, Sealed sha256 history receiver index inode content
  readable : ∀ manifest, receiver.files.manifest = some (some manifest) →
    Accepts receiver manifest
  held : ∀ id request manifest, receiver.requests.get? id = some request →
    request.work.manifest = some manifest → Accepts receiver manifest
  single : ∀ id other request rival name, receiver.requests.get? id = some request →
    receiver.requests.get? other = some rival → request.work.claims = some name →
    rival.work.claims = some name → id = other
  fits : ∀ id request, receiver.requests.get? id = some request →
    Fits sha256 history receiver request.work

section Frames

variable {sha256 : Bytes → String} {history : History} {receiver : Receiver} {index inode : Nat}
  {bytes : Bytes} {manifest : Manifest} {work : Work} {requests : Dict Nat Request}

theorem Checked.mono (checked : Checked sha256 history index bytes) (label : Event × Output) :
    Checked sha256 (history ++ [label]) index bytes := by
  obtain ⟨event, hash, member, same⟩ := checked
  exact ⟨event, hash, List.mem_append_left _ member, same⟩

theorem Pieces.imp {checked other : Nat → Bytes → Prop} {count}
    (pieces : Pieces checked manifest count bytes)
    (implies : ∀ index piece, checked index piece → other index piece) :
    Pieces other manifest count bytes := by
  obtain ⟨list, counted, whole, each⟩ := pieces
  exact ⟨list, counted, whole, fun index piece found =>
    (each index piece found).imp_left (implies index piece)⟩

theorem Pieces.mono {count} (pieces : Pieces (Checked sha256 history) manifest count bytes)
    (label : Event × Output) :
    Pieces (Checked sha256 (history ++ [label])) manifest count bytes :=
  pieces.imp fun _ _ checked => checked.mono label

theorem Sealed.mono {content} (sealed' : Sealed sha256 history receiver index inode content)
    (label : Event × Output) :
    Sealed sha256 (history ++ [label]) receiver index inode content :=
  ⟨sealed'.node, sealed'.checked.mono label, sealed'.unlinked, sealed'.unwritten⟩

theorem Fits.mono (fits : Fits sha256 history receiver work) (label : Event × Output) :
    Fits sha256 (history ++ [label]) receiver work := by
  unfold Fits at fits ⊢
  split
  · exact fits
  · exact fits
  · exact fits
  · exact fits
  · obtain ⟨inside, content, opened, sized, checked⟩ := fits
    exact ⟨inside, content, opened, sized, checked.mono label⟩
  · obtain ⟨opened, pieces, within⟩ := fits
    exact ⟨opened, pieces.mono label, within⟩
  · obtain ⟨written, done, chunk, opened, whole, pieces, copied, within, sealed', sized⟩ := fits
    exact ⟨written, done, chunk, opened, whole, pieces.mono label, copied, within,
      sealed'.mono label, sized⟩
  · obtain ⟨opened, pieces⟩ := fits
    exact ⟨opened, pieces.mono label⟩
  · obtain ⟨opened, sized, pieces⟩ := fits
    exact ⟨opened, sized, pieces.mono label⟩
  · trivial

theorem Sound.mono (sound : Sound sha256 history receiver) (label : Event × Output) :
    Sound sha256 (history ++ [label]) receiver where
  __ := sound
  chunks index inode found := by
    obtain ⟨content, sealed'⟩ := sound.chunks index inode found
    exact ⟨content, sealed'.mono label⟩
  fits id request found := (sound.fits id request found).mono label

theorem content_eq {files : Files} {node} (found : files.inodes.get? inode = some node) :
    files.content inode = node.content := by
  rw [Files.content, found]
  rfl

/-- The chunk that a commit reads. -/
def Work.input : Work → Option Nat
  | .commit (.copy _ _ _ _ input _ _ _) => some input
  | _ => none

/-- The file is neither a stored chunk nor read by a commit. -/
structure Unused (receiver : Receiver) (inode : Nat) : Prop where
  stored : ∀ index, receiver.files.chunks.get? index ≠ some inode
  read : ∀ id request, receiver.requests.get? id = some request → request.work.input ≠ some inode

/-- Everything a request refers to is as it was. -/
theorem Fits.frame {next : Receiver} (fits : Fits sha256 history receiver work)
    (nodes : ∀ name inode content, work.claims = some name →
      receiver.files.inodes.get? inode = some ⟨name, content⟩ →
      next.files.inodes.get? inode = some ⟨name, content⟩)
    (links : ∀ name inode, work.claims = some name →
      next.files.temporaries.get? name = some inode →
      receiver.files.temporaries.get? name = some inode)
    (seals : ∀ index inode content, work.input = some inode →
      Sealed sha256 history receiver index inode content →
      Sealed sha256 history next index inode content) :
    Fits sha256 history next work := by
  have opens {name : Temporary} {inode : Nat} {content : Bytes} (claimed : work.claims = some name)
      (opened : Open receiver.files name inode content) : Open next.files name inode content :=
    ⟨nodes name inode content claimed opened.node,
      fun found linked => opened.own found (links name found claimed linked)⟩
  unfold Fits at fits ⊢
  split
  · exact fits
  · exact fits
  · obtain ⟨inside, content, opened, rest⟩ := fits
    exact ⟨inside, content, opens rfl opened, rest⟩
  · obtain ⟨inside, content, opened, rest⟩ := fits
    exact ⟨inside, content, opens rfl opened, rest⟩
  · obtain ⟨inside, content, opened, rest⟩ := fits
    exact ⟨inside, content, opens rfl opened, rest⟩
  · obtain ⟨opened, rest⟩ := fits
    exact ⟨opens rfl opened, rest⟩
  · obtain ⟨written, done, chunk, opened, whole, pieces, copied, within, sealed', sized⟩ := fits
    exact ⟨written, done, chunk, opens rfl opened, whole, pieces, copied, within,
      seals _ _ _ rfl sealed', sized⟩
  · obtain ⟨opened, rest⟩ := fits
    exact ⟨opens rfl opened, rest⟩
  · obtain ⟨opened, rest⟩ := fits
    exact ⟨opens rfl opened, rest⟩
  · trivial

theorem Sealed.fewer (sub : requests.Sub receiver.requests) {content}
    (sealed' : Sealed sha256 history receiver index inode content) :
    Sealed sha256 history { receiver with requests } index inode content :=
  ⟨sealed'.node, sealed'.checked, sealed'.unlinked, fun other request found =>
    sealed'.unwritten other request (sub _ _ found)⟩

theorem Accepts.fewer (sub : requests.Sub receiver.requests) (accepts : Accepts receiver manifest) :
    Accepts { receiver with requests } manifest :=
  ⟨accepts.valid, fun other request held found => accepts.agrees other request held (sub _ _ found),
    accepts.fits⟩

theorem Fits.fewer (sub : requests.Sub receiver.requests)
    (fits : Fits sha256 history receiver work) :
    Fits sha256 history { receiver with requests } work :=
  fits.frame (fun _ _ _ _ same => same) (fun _ _ _ same => same)
    fun _ _ _ _ sealed' => sealed'.fewer sub

/-- A request is over. -/
theorem Sound.erase (sound : Sound sha256 history receiver) (id : Nat) :
    Sound sha256 history { receiver with requests := receiver.requests.erase id } := by
  have sub := receiver.requests.erase_sub id
  refine ⟨sound.temporaries, ?_, ?_, ?_, ?_, ?_⟩
  · intro index inode found
    obtain ⟨content, sealed'⟩ := sound.chunks index inode found
    exact ⟨content, sealed'.fewer sub⟩
  · intro manifest found
    exact (sound.readable manifest found).fewer sub
  · intro other request manifest found held
    exact (sound.held other request manifest (sub _ _ found) held).fewer sub
  · intro first second request rival name found known
    exact sound.single first second request rival name (sub _ _ found) (sub _ _ known)
  · intro other request found
    exact (sound.fits other request (sub _ _ found)).fewer sub

theorem writes_of_input (input : work.input = some inode) :
    work.writes = none := by
  unfold Work.input at input
  split at input
  · rfl
  · cases input

/-- The manifest is one that the receiver works for, also when it is read again. -/
structure Agreed (receiver : Receiver) (manifest : Manifest) : Prop where
  accepts : Accepts receiver manifest
  readable : ∀ readable, receiver.files.manifest = some (some readable) →
    manifest.size = readable.size

/-- A request begins or goes on. -/
theorem Sound.assign (sound : Sound sha256 history receiver) {id} (flag : Bool)
    (absent : receiver.requests.get? id = none)
    (agreed : ∀ manifest, work.manifest = some manifest → Agreed receiver manifest)
    (claims : ∀ name, work.claims = some name → ∀ other rival,
      receiver.requests.get? other = some rival → rival.work.claims ≠ some name)
    (writes : ∀ inode, work.writes = some inode → Unused receiver inode)
    (fits : Fits sha256 history receiver work) :
    Sound sha256 history { receiver with
      requests := receiver.requests.insert id ⟨work, flag⟩ } := by
  have seals {index inode : Nat} {content : Bytes} (free : work.writes ≠ some inode)
      (sealed' : Sealed sha256 history receiver index inode content) :
      Sealed sha256 history { receiver with requests := receiver.requests.insert id ⟨work, flag⟩ }
        index inode content := by
    refine ⟨sealed'.node, sealed'.checked, sealed'.unlinked, fun other request found => ?_⟩
    rcases Dict.get?_of_insert found with ⟨rfl, rfl⟩ | ⟨_, before⟩
    · exact free
    · exact sealed'.unwritten other request before
  have accepts {manifest : Manifest} (accepts : Accepts receiver manifest)
      (agrees : ∀ held, work.manifest = some held → held.size = manifest.size) :
      Accepts { receiver with requests := receiver.requests.insert id ⟨work, flag⟩ } manifest := by
    refine ⟨accepts.valid, fun other request held found asked => ?_, accepts.fits⟩
    rcases Dict.get?_of_insert found with ⟨rfl, rfl⟩ | ⟨_, before⟩
    · exact agrees held asked
    · exact accepts.agrees other request held before asked
  refine ⟨sound.temporaries, ?_, ?_, ?_, ?_, ?_⟩
  · intro index inode found
    obtain ⟨content, sealed'⟩ := sound.chunks index inode found
    exact ⟨content, seals (fun written => (writes inode written).stored index found) sealed'⟩
  · intro manifest found
    exact accepts (sound.readable manifest found) fun held asked =>
      (agreed held asked).readable _ found
  · intro other request manifest found asked
    rcases Dict.get?_of_insert found with ⟨rfl, rfl⟩ | ⟨_, before⟩
    · refine accepts (agreed manifest asked).accepts fun held same => ?_
      obtain rfl := Option.mem_unique asked same
      rfl
    · refine accepts (sound.held other request manifest before asked) fun held same => ?_
      exact ((agreed held same).accepts.agrees other request manifest before asked).symm
  · intro first second request rival name found known mine theirs
    rcases Dict.get?_of_insert found with ⟨rfl, rfl⟩ | ⟨_, before⟩
    · rcases Dict.get?_of_insert known with ⟨rfl, rfl⟩ | ⟨_, knownBefore⟩
      · rfl
      · exact absurd theirs (claims name mine second rival knownBefore)
    · rcases Dict.get?_of_insert known with ⟨rfl, rfl⟩ | ⟨_, knownBefore⟩
      · exact absurd mine (claims name theirs first request before)
      · exact sound.single first second request rival name before knownBefore mine theirs
  · intro other request found
    rcases Dict.get?_of_insert found with ⟨rfl, rfl⟩ | ⟨_, before⟩
    · refine fits.frame (fun _ _ _ _ same => same) (fun _ _ _ same => same)
        fun index inode content asked sealed' => seals ?_ sealed'
      rw [writes_of_input asked]
      exact fun same => nomatch same
    · refine (sound.fits other request before).frame (fun _ _ _ _ same => same)
        (fun _ _ _ same => same) fun index inode content asked sealed' => seals ?_ sealed'
      intro written
      exact (writes inode written).read other request before asked

/-- Names go, and a manifest is no longer readable or stays. -/
theorem Sound.unlink (sound : Sound sha256 history receiver) (files : Files)
    (inodes : files.inodes = receiver.files.inodes)
    (temporaries : files.temporaries.Sub receiver.files.temporaries)
    (chunks : files.chunks.Sub receiver.files.chunks)
    (manifest : ∀ manifest, files.manifest = some (some manifest) →
      receiver.files.manifest = some (some manifest)) :
    Sound sha256 history { receiver with files } := by
  have seals {index inode : Nat} {content : Bytes}
      (sealed' : Sealed sha256 history receiver index inode content) :
      Sealed sha256 history { receiver with files } index inode content :=
    ⟨inodes ▸ sealed'.node, sealed'.checked, fun linked => sealed'.unlinked (temporaries _ _ linked),
      sealed'.unwritten⟩
  have accepts {manifest : Manifest} (accepts : Accepts receiver manifest) :
      Accepts { receiver with files } manifest := by
    refine ⟨accepts.valid, accepts.agrees, fun index inode found within => ?_⟩
    have same : files.content inode = receiver.files.content inode := by
      rw [Files.content, Files.content, inodes]
    rw [same]
    exact accepts.fits index inode (chunks _ _ found) within
  refine ⟨?_, ?_, ?_, ?_, sound.single, ?_⟩
  · intro name inode found
    obtain ⟨content, node⟩ := sound.temporaries name inode (temporaries _ _ found)
    exact ⟨content, inodes ▸ node⟩
  · intro index inode found
    obtain ⟨content, sealed'⟩ := sound.chunks index inode (chunks _ _ found)
    exact ⟨content, seals sealed'⟩
  · intro readable found
    exact accepts (sound.readable readable (manifest readable found))
  · intro other request held found asked
    exact accepts (sound.held other request held found asked)
  · intro other request found
    exact (sound.fits other request found).frame (fun _ _ _ _ same => inodes ▸ same)
      (fun _ _ _ same => temporaries _ _ same) fun _ _ _ _ sealed' => seals sealed'

/-- A request changes the temporary file that only it has made. -/
structure Touches (receiver : Receiver) (files : Files) (id inode : Nat) (name : Temporary)
    (content : Bytes) : Prop where
  node : files.inodes.get? inode = some ⟨name, content⟩
  others : ∀ other, other ≠ inode → files.inodes.get? other = receiver.files.inodes.get? other
  links : ∀ other linked, files.temporaries.get? other = some linked →
    receiver.files.temporaries.get? other = some linked ∨ (other = name ∧ linked = inode)
  chunks : files.chunks = receiver.files.chunks
  manifest : files.manifest = receiver.files.manifest
  named : ∀ node, receiver.files.inodes.get? inode = some node → node.name = name
  unused : Unused receiver inode
  alone : ∀ other rival, other ≠ id → receiver.requests.get? other = some rival →
    rival.work.claims ≠ some name

section Touches

variable {files : Files} {id inode : Nat} {name : Temporary} {content : Bytes}

theorem Touches.seals (touches : Touches receiver files id inode name content) {index other bytes}
    (different : other ≠ inode) (sealed' : Sealed sha256 history receiver index other bytes) :
    Sealed sha256 history ⟨files, receiver.requests.erase id⟩ index other bytes := by
  refine ⟨(touches.others other different).trans sealed'.node, sealed'.checked, fun linked => ?_,
    fun rival request found =>
      sealed'.unwritten rival request (receiver.requests.erase_sub id _ _ found)⟩
  rcases touches.links _ _ linked with before | ⟨_, same⟩
  · exact sealed'.unlinked before
  · exact different same

theorem Touches.accepts (touches : Touches receiver files id inode name content) {manifest}
    (accepts : Accepts receiver manifest) :
    Accepts ⟨files, receiver.requests.erase id⟩ manifest := by
  refine ⟨accepts.valid, fun other request held found =>
    accepts.agrees other request held (receiver.requests.erase_sub id _ _ found),
    fun index stored found within => ?_⟩
  have found' : receiver.files.chunks.get? index = some stored := touches.chunks ▸ found
  have different : stored ≠ inode := by
    rintro rfl
    exact touches.unused.stored index found'
  have same : files.content stored = receiver.files.content stored := by
    rw [Files.content, Files.content, touches.others stored different]
  rw [same]
  exact accepts.fits index stored found' within

theorem Sound.touch (sound : Sound sha256 history receiver)
    (touches : Touches receiver files id inode name content) :
    Sound sha256 history ⟨files, receiver.requests.erase id⟩ := by
  have sub := receiver.requests.erase_sub id
  refine ⟨?_, ?_, ?_, ?_, ?_, ?_⟩
  · intro other linked found
    rcases touches.links _ _ found with before | ⟨rfl, rfl⟩
    · obtain ⟨bytes, known⟩ := sound.temporaries other linked before
      by_cases same : linked = inode
      · subst same
        obtain rfl : other = name := touches.named _ known
        exact ⟨content, touches.node⟩
      · exact ⟨bytes, (touches.others linked same).trans known⟩
    · exact ⟨content, touches.node⟩
  · intro index stored found
    have found' : receiver.files.chunks.get? index = some stored := touches.chunks ▸ found
    obtain ⟨bytes, sealed'⟩ := sound.chunks index stored found'
    refine ⟨bytes, touches.seals ?_ sealed'⟩
    rintro rfl
    exact touches.unused.stored index found'
  · intro readable found
    exact touches.accepts (sound.readable readable (touches.manifest ▸ found))
  · intro other request held found asked
    exact touches.accepts (sound.held other request held (sub _ _ found) asked)
  · intro first second request rival claimed found known
    exact sound.single first second request rival claimed (sub _ _ found) (sub _ _ known)
  · intro other request found
    obtain ⟨apart, before⟩ := Dict.get?_of_erase found
    refine (sound.fits other request before).frame ?_ ?_ ?_
    · intro claimed opened bytes mine known
      have different : opened ≠ inode := by
        rintro rfl
        have same : claimed = name := touches.named _ known
        exact touches.alone other request apart before (same ▸ mine)
      exact (touches.others opened different).trans known
    · intro claimed linked mine known
      rcases touches.links _ _ known with linked | ⟨same, _⟩
      · exact linked
      · exact absurd (same ▸ mine) (touches.alone other request apart before)
    · intro index input bytes asked sealed'
      refine touches.seals ?_ sealed'
      rintro rfl
      exact touches.unused.read other request before asked

end Touches

/-- A checked file becomes the chunk. -/
theorem Sound.seal (sound : Sound sha256 history receiver) {index inode content}
    (sealed' : Sealed sha256 history receiver index inode content)
    (readable : ∀ manifest, receiver.files.manifest = some (some manifest) →
      index < manifest.chunks → content.length = manifest.expected index)
    (held : ∀ id request manifest, receiver.requests.get? id = some request →
      request.work.manifest = some manifest → index < manifest.chunks →
      content.length = manifest.expected index) :
    Sound sha256 history { receiver with
      files := { receiver.files with chunks := receiver.files.chunks.insert index inode } } := by
  have seals {other stored : Nat} {bytes : Bytes}
      (sealed' : Sealed sha256 history receiver other stored bytes) :
      Sealed sha256 history { receiver with
        files := { receiver.files with chunks := receiver.files.chunks.insert index inode } }
        other stored bytes :=
    ⟨sealed'.node, sealed'.checked, sealed'.unlinked, sealed'.unwritten⟩
  have accepts {manifest : Manifest} (accepts : Accepts receiver manifest)
      (sized : index < manifest.chunks → content.length = manifest.expected index) :
      Accepts { receiver with
        files := { receiver.files with chunks := receiver.files.chunks.insert index inode } }
        manifest := by
    refine ⟨accepts.valid, accepts.agrees, fun other stored found within => ?_⟩
    rcases Dict.get?_of_insert found with ⟨rfl, rfl⟩ | ⟨_, before⟩
    · have same : receiver.files.content stored = content := content_eq sealed'.node
      exact (congrArg List.length same).trans (sized within)
    · exact accepts.fits other stored before within
  refine ⟨sound.temporaries, ?_, ?_, ?_, sound.single, ?_⟩
  · intro other stored found
    rcases Dict.get?_of_insert found with ⟨rfl, rfl⟩ | ⟨_, before⟩
    · exact ⟨content, seals sealed'⟩
    · obtain ⟨bytes, kept⟩ := sound.chunks other stored before
      exact ⟨bytes, seals kept⟩
  · intro manifest found
    exact accepts (sound.readable manifest found) (readable manifest found)
  · intro other request manifest found asked
    exact accepts (sound.held other request manifest found asked)
      (held other request manifest found asked)
  · intro other request found
    exact (sound.fits other request found).frame (fun _ _ _ _ same => same)
      (fun _ _ _ same => same) fun _ _ _ _ kept => seals kept

/-- A manifest is written. -/
theorem Sound.publish (sound : Sound sha256 history receiver)
    (accepts : Accepts receiver manifest) :
    Sound sha256 history { receiver with
      files := { receiver.files with manifest := some (some manifest) } } where
  __ := sound
  chunks index inode found := by
    obtain ⟨content, sealed'⟩ := sound.chunks index inode found
    exact ⟨content, sealed'.node, sealed'.checked, sealed'.unlinked, sealed'.unwritten⟩
  readable written same := by
    obtain rfl : manifest = written := Option.some.inj (Option.some.inj same)
    exact ⟨accepts.valid, accepts.agrees, accepts.fits⟩
  held id request asked found same := by
    have kept := sound.held id request asked found same
    exact ⟨kept.valid, kept.agrees, kept.fits⟩
  fits id request found := (sound.fits id request found).frame (fun _ _ _ _ same => same)
    (fun _ _ _ same => same) fun _ _ _ _ sealed' =>
      ⟨sealed'.node, sealed'.checked, sealed'.unlinked, sealed'.unwritten⟩

end Frames

/-! ## The requests -/

section Requests

variable {sha256 : Bytes → String} {history : History} {receiver : Receiver} {id inode : Nat}
  {request : Request} {name : Temporary} {content : Bytes} {manifest : Manifest}

section

variable (sound : Sound sha256 history receiver)

include sound

/-- A file that a request writes carries the name that the request claims. -/
theorem Sound.written
    (found : receiver.requests.get? id = some request) (writes : request.work.writes = some inode) :
    ∃ name content, receiver.files.inodes.get? inode = some ⟨name, content⟩ ∧
      request.work.claims = some name := by
  obtain ⟨work, dropped⟩ := request
  have fits : Fits sha256 history receiver work := sound.fits id _ found
  change work.writes = _ at writes
  unfold Work.writes at writes
  split at writes
  · obtain ⟨_, content, opened, _⟩ := fits
    cases writes
    exact ⟨_, content, opened.node, rfl⟩
  · cases writes

/-- What a commit reads is sealed. -/
theorem Sound.reads
    (found : receiver.requests.get? id = some request) (input : request.work.input = some inode) :
    ∃ index content, Sealed sha256 history receiver index inode content := by
  obtain ⟨work, dropped⟩ := request
  have fits : Fits sha256 history receiver work := sound.fits id _ found
  change work.input = _ at input
  unfold Work.input at input
  split at input
  · obtain ⟨_, _, chunk, _, _, _, _, _, sealed', _⟩ := fits
    cases input
    exact ⟨_, chunk, sealed'⟩
  · cases input

/-- A file is in no use that the sealed ones exclude. -/
theorem Sound.unused (unsealed : ∀ index content, ¬ Sealed sha256 history receiver index inode content) :
    Unused receiver inode := by
  constructor
  · intro index found
    obtain ⟨content, sealed'⟩ := sound.chunks index inode found
    exact unsealed index content sealed'
  · intro id request found input
    obtain ⟨index, content, sealed'⟩ := sound.reads found input
    exact unsealed index content sealed'

/-- A file that its name leads to is in no such use. -/
theorem Sound.unused_of_linked (linked : receiver.files.temporaries.get? name = some inode) :
    Unused receiver inode := by
  refine sound.unused fun index content sealed' => ?_
  obtain ⟨bytes, node⟩ := sound.temporaries name inode linked
  have same := Option.mem_unique node sealed'.node
  obtain rfl : name = .part index := congrArg Inode.name same
  exact sealed'.unlinked linked

theorem Sound.unused_of_fresh (fresh : receiver.files.inodes.get? inode = none) : Unused receiver inode := by
  refine sound.unused fun index content sealed' => ?_
  cases sealed'.node.symm.trans fresh

theorem Sound.unused_of_written
    (found : receiver.requests.get? id = some request) (writes : request.work.writes = some inode) :
    Unused receiver inode :=
  sound.unused fun _ _ sealed' => sealed'.unwritten id request found writes

theorem Sound.unused_of_assembly {folder}
    (node : receiver.files.inodes.get? inode = some ⟨.assembly folder, content⟩) :
    Unused receiver inode := by
  refine sound.unused fun index bytes sealed' => ?_
  have same := Option.mem_unique node sealed'.node
  cases congrArg Inode.name same

end

theorem Unused.erase (unused : Unused receiver inode) (id : Nat) (files : Files)
    (chunks : files.chunks = receiver.files.chunks) :
    Unused ⟨files, receiver.requests.erase id⟩ inode :=
  ⟨fun index found => unused.stored index (chunks ▸ found), fun other request found =>
    unused.read other request (receiver.requests.erase_sub id _ _ found)⟩

theorem Sound.agreed_held (sound : Sound sha256 history receiver)
    (found : receiver.requests.get? id = some request)
    (held : request.work.manifest = some manifest) : Agreed receiver manifest :=
  ⟨sound.held id request manifest found held, fun readable same =>
    (sound.readable readable same).agrees id request manifest found held⟩

theorem Sound.agreed_readable (sound : Sound sha256 history receiver)
    (found : receiver.files.manifest = some (some manifest)) : Agreed receiver manifest := by
  refine ⟨sound.readable manifest found, fun readable same => ?_⟩
  obtain rfl : manifest = readable := Option.some.inj (Option.mem_unique found same)
  rfl

theorem Agreed.held {work : Work} (agreed : Agreed receiver manifest)
    (works : work.manifest = some manifest) :
    ∀ other, work.manifest = some other → Agreed receiver other := by
  intro other asked
  obtain rfl := Option.mem_unique works asked
  exact agreed

/-- A valid manifest of the same size is as good. -/
theorem Agreed.of_size {first} {second : Manifest} (agreed : Agreed receiver first)
    (valid : second.valid = true) (same : first.size = second.size) : Agreed receiver second := by
  obtain ⟨chunks, expected⟩ := expected_eq agreed.accepts.valid valid same
  refine ⟨⟨valid, fun id request held found asked => ?_, fun index inode found within => ?_⟩,
    fun readable found => ?_⟩
  · exact (agreed.accepts.agrees id request held found asked).trans same
  · rw [← expected index]
    exact agreed.accepts.fits index inode found (chunks ▸ within)
  · exact same.symm.trans (agreed.readable readable found)

section

variable (sound : Sound sha256 history receiver)

include sound

/-- A request goes on without changing a file. -/
theorem Sound.advance (work : Work)
    (found : receiver.requests.get? id = some request)
    (agreed : ∀ manifest, work.manifest = some manifest → Agreed receiver manifest)
    (claims : ∀ name, work.claims = some name → request.work.claims = some name)
    (writes : ∀ inode, work.writes = some inode → request.work.writes = some inode)
    (fits : Fits sha256 history receiver work) (flag : Bool) :
    Sound sha256 history { receiver with
      requests := receiver.requests.insert id ⟨work, flag⟩ } := by
  have sub := receiver.requests.erase_sub id
  have next := (sound.erase id).assign flag (Dict.get?_erase_self _ _)
    (fun manifest held => ⟨(agreed manifest held).accepts.fewer sub, (agreed manifest held).readable⟩)
    (fun name mine other rival known theirs => ?_)
    (fun inode written => (sound.unused_of_written found (writes inode written)).erase id _ rfl)
    (fits.fewer sub)
  · rw [Dict.insert_erase] at next
    exact next
  · obtain ⟨apart, before⟩ := Dict.get?_of_erase known
    exact apart (sound.single other id rival request name before found theirs (claims name mine))

/-- A request goes on after it changed its temporary file. -/
theorem Sound.proceed {files} {work : Work}
    (touches : Touches receiver files id inode name content) (agreed : Agreed receiver manifest)
    (held : work.manifest = some manifest) (claims : work.claims = some name)
    (writes : ∀ other, work.writes = some other → other = inode)
    (fits : Fits sha256 history ⟨files, receiver.requests.erase id⟩ work) (flag : Bool) :
    Sound sha256 history ⟨files, receiver.requests.insert id ⟨work, flag⟩⟩ := by
  have next := (sound.touch touches).assign flag (Dict.get?_erase_self _ _)
    (fun other asked => ?_) (fun other mine rival request known theirs => ?_)
    (fun other written => ?_) fits
  · rw [Dict.insert_erase] at next
    exact next
  · obtain rfl := Option.mem_unique held asked
    exact ⟨touches.accepts agreed.accepts, fun readable same =>
      agreed.readable readable (touches.manifest ▸ same)⟩
  · obtain rfl := Option.mem_unique claims mine
    obtain ⟨apart, before⟩ := Dict.get?_of_erase known
    exact touches.alone rival request apart before theirs
  · obtain rfl := writes other written
    exact touches.unused.erase id files touches.chunks

/-- Writing to an open file. -/
theorem Open.put (opened : Open receiver.files name inode content)
    (found : receiver.requests.get? id = some request) (claims : request.work.claims = some name)
    (unused : Unused receiver inode) (bytes : Bytes) :
    Touches receiver (receiver.files.put inode bytes) id inode name bytes ∧
      Open (receiver.files.put inode bytes) name inode bytes := by
  have same : receiver.files.put inode bytes = { receiver.files with
      inodes := receiver.files.inodes.insert inode ⟨name, bytes⟩ } := by
    rw [Files.put, opened.node]
  rw [same]
  have node : (receiver.files.inodes.insert inode ⟨name, bytes⟩).get? inode = some ⟨name, bytes⟩ :=
    Dict.get?_insert_self _ _ _
  refine ⟨⟨node, fun other different => Dict.get?_insert_ne _ _ different,
    fun other linked known => .inl known, rfl, rfl, fun known seen => ?_, unused,
    fun other rival different known theirs => ?_⟩, node, opened.own⟩
  · rw [opened.node] at seen
    exact congrArg Inode.name (Option.some.inj seen).symm
  · exact different (sound.single other id rival request name known found theirs claims)

/-- Making a file that no request has made. -/
theorem create_touches (id : Nat) {files fresh}
    (created : receiver.files.create name fresh = some (files, inode))
    (alone : ∀ other rival, receiver.requests.get? other = some rival →
      rival.work.claims ≠ some name) :
    Touches receiver files id inode name [] ∧ Open files name inode [] := by
  unfold Files.create at created
  split at created
  · rename_i old linked
    obtain ⟨rfl, rfl⟩ := Prod.mk.inj (Option.some.inj created)
    obtain ⟨content, node⟩ := sound.temporaries name old linked
    have same : receiver.files.put old [] = { receiver.files with
        inodes := receiver.files.inodes.insert old ⟨name, []⟩ } := by
      rw [Files.put, node]
    rw [same]
    have empty : (receiver.files.inodes.insert old ⟨name, []⟩).get? old = some ⟨name, []⟩ :=
      Dict.get?_insert_self _ _ _
    refine ⟨⟨empty, fun other different => Dict.get?_insert_ne _ _ different,
      fun other linked known => .inl known, rfl, rfl, fun known seen => ?_,
      sound.unused_of_linked linked, fun other rival _ => alone other rival⟩, empty,
      fun other known => Option.mem_unique known linked⟩
    rw [node] at seen
    exact congrArg Inode.name (Option.some.inj seen).symm
  · rename_i unlinked
    split at created
    · cases created
    · rename_i absent
      obtain ⟨rfl, rfl⟩ := Prod.mk.inj (Option.some.inj created)
      have free : receiver.files.inodes.get? fresh = none := by
        rw [Dict.contains, Option.not_isSome_iff_eq_none] at absent
        exact absent
      refine ⟨⟨Dict.get?_insert_self _ _ _, fun other different => Dict.get?_insert_ne _ _ different,
        fun other linked known => ?_, rfl, rfl, fun known seen => ?_, sound.unused_of_fresh free,
        fun other rival _ => alone other rival⟩, Dict.get?_insert_self _ _ _, fun other known => ?_⟩
      · rcases Dict.get?_of_insert known with ⟨rfl, rfl⟩ | ⟨_, before⟩
        · exact .inr ⟨rfl, rfl⟩
        · exact .inl before
      · cases free.symm.trans seen
      · exact Option.some.inj (known.symm.trans (Dict.get?_insert_self _ _ _))

end

end Requests

/-! ## Steps -/

/-- What a step of a request leaves behind, whether the request goes on or not. -/
structure Goes (sha256 : Bytes → String) (history : History) (requests : Dict Nat Request)
    (event : Event) (id : Nat) (outcome : Outcome) : Prop where
  stopped : Sound sha256 history ⟨outcome.1, requests.erase id⟩
  goes : ∀ work, outcome.2.1 = some work → Sound sha256 (history ++ [(event, outcome.2.2)])
    ⟨outcome.1, requests.insert id ⟨work, false⟩⟩
  replaced : ∀ manifest target content, outcome.2.2 = .replaced manifest target content →
    content.length = manifest.size ∧ Pieces (Checked sha256 history) manifest manifest.chunks content

section Steps

variable {sha256 : Bytes → String} {history : History} {receiver : Receiver} {event : Event}
  {id : Nat} {request : Request} {choice : Choice} {inode : Nat} {manifest : Manifest}
  {dropped : Bool} {chunk : ChunkRequest}

section

variable (sound : Sound sha256 history receiver)

include sound

theorem Goes.ended : Goes sha256 history receiver.requests event id (ended receiver.files) where
  stopped := sound.erase id
  goes work same := by cases same
  replaced manifest target content same := by cases same

theorem Goes.stop {output}
    (plain : ∀ manifest target content, output ≠ .replaced manifest target content) :
    Goes sha256 history receiver.requests event id (receiver.files, none, output) where
  stopped := sound.erase id
  goes work same := by cases same
  replaced manifest target content same := absurd same (plain manifest target content)

/-- The request goes on, and no file of its own changes. -/
theorem Goes.advance {work : Work} {output}
    (found : receiver.requests.get? id = some request)
    (agreed : ∀ manifest, work.manifest = some manifest → Agreed receiver manifest)
    (claims : ∀ name, work.claims = some name → request.work.claims = some name)
    (writes : ∀ inode, work.writes = some inode → request.work.writes = some inode)
    (fits : Fits sha256 (history ++ [(event, output)]) receiver work)
    (plain : ∀ manifest target content, output ≠ .replaced manifest target content) :
    Goes sha256 history receiver.requests event id (receiver.files, some work, output) where
  stopped := sound.erase id
  goes next same := by
    cases same
    exact (sound.mono _).advance _ found agreed claims writes fits false
  replaced manifest target content same := absurd same (plain manifest target content)

/-- The request goes on after a change of its temporary file. -/
theorem Goes.proceed {files name content} {work : Work}
    (touches : Touches receiver files id inode name content) (agreed : Agreed receiver manifest)
    (held : work.manifest = some manifest) (claims : work.claims = some name)
    (writes : ∀ other, work.writes = some other → other = inode)
    (fits : Fits sha256 history ⟨files, receiver.requests.erase id⟩ work) :
    Goes sha256 history receiver.requests event id (files, some work, .done) where
  stopped := sound.touch touches
  goes next same := by
    cases same
    exact (sound.mono _).proceed touches agreed held claims writes (fits.mono _) false
  replaced manifest target content same := by cases same

theorem init_goes {stage}
    (found : receiver.requests.get? id = some ⟨.init manifest stage, dropped⟩)
    (undisturbed : Undisturbed receiver (.step id choice)) :
    Goes sha256 history receiver.requests event id (manifest.step receiver.files choice stage) := by
  have fits : stage = .start ∨ manifest.valid = true := sound.fits id _ found
  cases stage with
  | start =>
      rw [Manifest.step]
      split
      · rename_i valid
        have marked := sound.unlink { receiver.files with exists_ := true } rfl
          (Dict.Sub.refl _) (Dict.Sub.refl _) fun _ same => same
        exact Goes.advance marked found nofun nofun nofun (.inr valid) nofun
      · exact .ended sound
  | probe =>
      rw [Manifest.step]
      split
      · exact Goes.advance sound found nofun nofun nofun (.inr (fits.resolve_left nofun)) nofun
      · exact Goes.advance sound found nofun nofun nofun (.inr (fits.resolve_left nofun)) nofun
  | compare =>
      have valid : manifest.valid = true := fits.resolve_left nofun
      rw [Manifest.step]
      split
      · rename_i previous readable
        split
        · rename_i resumes
          simp only [Manifest.resumes, Bool.and_eq_true, beq_iff_eq] at resumes
          have agreed := (sound.agreed_readable readable).of_size valid resumes.1.2
          exact Goes.advance sound found (agreed.held rfl) nofun nofun (.inr valid) nofun
        · exact .ended sound
      · exact .ended sound
  | create =>
      rw [Manifest.step]
      split
      · have marked := sound.unlink { receiver.files with manifest := some none } rfl
          (Dict.Sub.refl _) (Dict.Sub.refl _) nofun
        exact Goes.advance marked found nofun nofun nofun (.inr (fits.resolve_left nofun)) nofun
      · exact .ended sound
  | write =>
      have valid : manifest.valid = true := fits.resolve_left nofun
      obtain ⟨sized, agrees⟩ := undisturbed.manifest id choice manifest dropped rfl found
      have accepts : Accepts receiver manifest :=
        ⟨valid, fun other rival held known same => agrees other rival held known same, sized⟩
      have written : ∀ state : Option (Option Manifest),
          (∀ readable, state = some (some readable) → readable = manifest) →
          Goes sha256 history receiver.requests event id ({ receiver.files with manifest := state },
            some (.init manifest (.list 0 [])), .done) := by
        intro state only
        have next : Sound sha256 history
            { receiver with files := { receiver.files with manifest := state } } := by
          match state with
          | some (some readable) =>
              obtain rfl := only readable rfl
              exact sound.publish accepts
          | some none =>
              exact sound.unlink _ rfl (Dict.Sub.refl _) (Dict.Sub.refl _) nofun
          | none =>
              exact sound.unlink _ rfl (Dict.Sub.refl _) (Dict.Sub.refl _) nofun
        have agreed : Agreed { receiver with files := { receiver.files with manifest := state } }
            manifest :=
          ⟨⟨valid, accepts.agrees, accepts.fits⟩, fun readable same =>
            congrArg Manifest.size (only readable same).symm⟩
        exact Goes.advance next found (agreed.held rfl) nofun nofun (.inr valid) nofun
      rw [Manifest.step]
      refine written _ fun readable same => ?_
      cases known : receiver.files.manifest with
      | none =>
          rw [known] at same
          cases same
      | some old =>
          rw [known, Option.map_some] at same
          split at same
          · exact (Option.some.inj (Option.some.inj same)).symm
          · cases same
  | list index missing =>
      have agreed : Agreed receiver manifest := sound.agreed_held found rfl
      have valid : manifest.valid = true := agreed.accepts.valid
      rw [Manifest.step]
      split
      · exact Goes.advance sound found (agreed.held rfl) nofun nofun (.inr valid) nofun
      · exact .stop sound nofun

theorem status_goes {stage}
    (found : receiver.requests.get? id = some ⟨.status stage, dropped⟩) :
    Goes sha256 history receiver.requests event id (stage.step receiver.files) := by
  cases stage with
  | read =>
      rw [StatusStage.step]
      split
      · rename_i manifest readable
        exact Goes.advance sound found ((sound.agreed_readable readable).held rfl) nofun nofun
          trivial nofun
      · exact .ended sound
  | list manifest index missing =>
      rw [StatusStage.step]
      split
      · exact Goes.advance sound found ((sound.agreed_held found rfl).held rfl) nofun nofun trivial
          nofun
      · exact .stop sound nofun

theorem chunk_goes {stage}
    (found : receiver.requests.get? id = some ⟨.chunk chunk stage, dropped⟩)
    (undisturbed : Undisturbed receiver (.step id choice)) :
    Goes sha256 history receiver.requests event id
      (chunk.step sha256 receiver.files choice stage) := by
  have fits : Fits sha256 history receiver (.chunk chunk stage) := sound.fits id _ found
  cases stage with
  | read =>
      rw [ChunkRequest.step]
      split
      · rename_i manifest readable
        split
        · exact .ended sound
        · rename_i hash admitted
          refine Goes.advance sound found ((sound.agreed_readable readable).held rfl) nofun nofun
            ?_ nofun
          unfold ChunkRequest.admits at admitted
          split at admitted
          · rename_i admits
            rw [Bool.and_eq_true, decide_eq_true_iff] at admits
            exact admits.1
          · cases admitted
      · exact .ended sound
  | open_ manifest hash =>
      have agreed : Agreed receiver manifest := sound.agreed_held found rfl
      rw [ChunkRequest.step]
      split
      · split
        · exact .ended sound
        · rename_i files inode created
          obtain ⟨touches, opened⟩ := create_touches sound id created
            (undisturbed.makes id choice _ _ rfl found rfl)
          refine Goes.proceed sound touches agreed rfl rfl (fun other same => ?_) ?_
          · exact (Option.some.inj same).symm
          · exact ⟨fits, [], opened, rfl, rfl, Nat.zero_le _⟩
      · exact .ended sound
  | receive manifest hash inode offset size pending =>
      obtain ⟨within, content, opened, sized, counted, bounded⟩ := fits
      have agreed : Agreed receiver manifest := sound.agreed_held found rfl
      have unused : Unused receiver inode := sound.unused_of_written found rfl
      have written : Contents.writeAt 0 (receiver.files.content inode) offset
          (pending.take choice.count) = content ++ pending.take choice.count := by
        rw [content_eq opened.node, ← sized]
        exact Contents.writeAt_end _ _ _
      rw [ChunkRequest.step, written]
      obtain ⟨touches, kept⟩ := opened.put sound found rfl unused (content ++ pending.take choice.count)
      refine Goes.proceed sound touches agreed rfl rfl (fun other same => ?_) ?_
      · exact (Option.some.inj same).symm
      · refine ⟨within, _, kept, ?_, ?_, bounded⟩
        · rw [List.length_append, sized]
        · rw [Nat.add_assoc, ← List.length_append, List.take_append_drop]
          exact counted
  | cleanup =>
      rw [ChunkRequest.step]
      have cleaned := sound.unlink { receiver.files with
        temporaries := receiver.files.temporaries.erase (.part chunk.index) } rfl
        (Dict.erase_sub _ _) (Dict.Sub.refl _) fun _ same => same
      exact Goes.stop cleaned nofun
  | verify manifest hash inode =>
      obtain ⟨within, content, opened, sized⟩ := fits
      have agreed : Agreed receiver manifest := sound.agreed_held found rfl
      rw [ChunkRequest.step]
      split
      · exact .ended sound
      · rename_i linked known
        obtain rfl : linked = inode := opened.own linked known
        dsimp only
        split
        · rename_i checked
          refine Goes.advance sound found (agreed.held rfl) (fun name mine => mine) nofun ?_ nofun
          rw [content_eq opened.node] at checked ⊢
          exact ⟨within, content, opened, sized, event, hash, List.mem_append_right _ (.head _),
            checked⟩
        · exact .ended sound
  | rename manifest inode =>
      obtain ⟨within, content, opened, sized, checked⟩ := fits
      have agreed : Agreed receiver manifest := sound.agreed_held found rfl
      rw [ChunkRequest.step]
      split
      · exact .ended sound
      · rename_i linked known
        obtain rfl : linked = inode := opened.own linked known
        have fewer := receiver.requests.erase_sub id
        -- the name goes before the file becomes the chunk
        have unlinked := (sound.erase id).unlink { receiver.files with
          temporaries := receiver.files.temporaries.erase (.part chunk.index) } rfl
          (Dict.erase_sub _ _) (Dict.Sub.refl _) fun _ same => same
        have sized' {other : Manifest} (accepts : Agreed receiver other)
            (same : manifest.size = other.size) : content.length = other.expected chunk.index := by
          rw [← (expected_eq agreed.accepts.valid accepts.accepts.valid same).2]
          exact sized
        refine ⟨?_, nofun, nofun⟩
        refine @Sound.seal _ _ _ unlinked _ _ content ⟨opened.node, checked, ?_, ?_⟩ ?_ ?_
        · rw [Dict.get?_erase_self]
          exact nofun
        · intro other rival found' writes
          obtain ⟨apart, before⟩ := Dict.get?_of_erase found'
          obtain ⟨name, bytes, node, claims⟩ := sound.written before writes
          have same := Option.mem_unique opened.node node
          obtain rfl : .part chunk.index = name := congrArg Inode.name same
          exact apart (sound.single other id rival _ _ before found claims rfl)
        · intro readable same _
          exact sized' (sound.agreed_readable same) (agreed.readable readable same)
        · intro other rival held found' asked _
          have before := fewer _ _ found'
          exact sized' (sound.agreed_held before asked)
            (agreed.accepts.agrees other rival held before asked).symm

end

theorem Pieces.start {checked : Nat → Bytes → Prop} (manifest : Manifest) :
    Pieces checked manifest 0 [] :=
  ⟨[], rfl, rfl, fun _ _ found => nomatch found⟩

theorem Pieces.next {checked : Nat → Bytes → Prop} {index done chunk}
    (pieces : Pieces checked manifest index done) (good : checked index chunk)
    (sized : chunk.length = manifest.expected index) :
    Pieces checked manifest (index + 1) (done ++ chunk) := by
  obtain ⟨list, counted, whole, each⟩ := pieces
  refine ⟨list ++ [chunk], ?_, ?_, fun other piece found => ?_⟩
  · rw [List.length_append, counted, List.length_singleton]
  · rw [List.flatten_append, ← whole, List.flatten_singleton]
  · by_cases last : other < list.length
    · rw [List.getElem?_append_left last] at found
      exact each other piece found
    · rw [List.getElem?_append_right (Nat.le_of_not_lt last)] at found
      obtain ⟨here, rfl⟩ := List.getElem?_eq_some_iff.mp found
      obtain rfl : other = index := by
        rw [List.length_singleton] at here
        omega
      simp only [List.getElem_singleton]
      exact ⟨good, sized⟩

theorem commit_goes (sound : Sound sha256 history receiver) {stage}
    (found : receiver.requests.get? id = some ⟨.commit stage, dropped⟩)
    (undisturbed : Undisturbed receiver (.step id choice)) :
    Goes sha256 history receiver.requests event id
      (stage.step sha256 receiver.files choice) := by
  have fits : Fits sha256 history receiver (.commit stage) := sound.fits id _ found
  have held {manifest : Manifest} {work : Work}
      (holds : (Work.commit stage).manifest = some manifest) (same : work.manifest = some manifest) :
      ∀ other, work.manifest = some other → Agreed receiver other :=
    (sound.agreed_held found holds).held same
  cases stage with
  | read =>
      rw [CommitStage.step]
      split
      · rename_i manifest readable
        exact Goes.advance sound found ((sound.agreed_readable readable).held rfl) nofun nofun
          trivial nofun
      · exact .ended sound
  | list manifest index missing =>
      rw [CommitStage.step]
      split
      · exact Goes.advance sound found (held rfl rfl) nofun nofun trivial nofun
      · split
        · exact .ended sound
        · exact Goes.advance sound found (held rfl rfl) nofun nofun trivial nofun
  | locate manifest =>
      rw [CommitStage.step]
      split
      · exact .ended sound
      · exact Goes.advance sound found (held rfl rfl) nofun nofun trivial nofun
  | create manifest target =>
      rw [CommitStage.step]
      split
      · exact .ended sound
      · rename_i files inode created
        obtain ⟨touches, opened⟩ := create_touches sound id created
          (undisturbed.makes id choice _ _ rfl found rfl)
        exact Goes.proceed sound touches (sound.agreed_held found rfl) rfl rfl
          nofun ⟨opened, .start manifest, Nat.zero_le _⟩
  | next manifest target inode index copied =>
      obtain ⟨opened, pieces, within⟩ := fits
      rw [CommitStage.step]
      split
      · rename_i inside
        split
        · exact .ended sound
        · rename_i input known
          obtain ⟨chunk, sealed'⟩ := sound.chunks index input known
          have sized : chunk.length = manifest.expected index := by
            rw [← (sound.agreed_held found rfl).accepts.fits index input known inside]
            exact congrArg List.length (content_eq sealed'.node).symm
          refine Goes.advance sound found (held rfl rfl) (fun _ mine => mine) nofun ?_ nofun
          exact ⟨copied, copied, chunk, opened, List.append_nil _, pieces.mono _,
            (List.append_nil _).symm, inside, sealed'.mono _, sized⟩
      · rename_i outside
        obtain rfl : index = manifest.chunks := Nat.le_antisymm within (Nat.le_of_not_lt outside)
        exact Goes.advance sound found (held rfl rfl) (fun _ mine => mine) nofun
          ⟨opened, pieces.mono _⟩ nofun
  | copy manifest target inode index input position copied pending =>
      obtain ⟨written, done, chunk, opened, whole, pieces, read, inside, sealed', sized⟩ := fits
      cases pending with
      | nil =>
          obtain rfl : written = copied := (List.append_nil written).symm.trans whole
          rw [CommitStage.step, content_eq sealed'.node]
          split
          · rename_i empty
            split
            · exact Goes.advance sound found (held rfl rfl) (fun _ mine => mine)
                nofun ⟨written, done, chunk, opened, whole, pieces.mono _,
                  read, inside, sealed'.mono _, sized⟩ nofun
            · rename_i atEnd
              rw [List.take_of_length_le (Nat.le_of_not_lt atEnd)] at read
              subst read
              exact Goes.advance sound found (held rfl rfl) (fun _ mine => mine) nofun
                ⟨opened, (pieces.next sealed'.checked sized).mono _, inside⟩ nofun
          · refine Goes.advance sound found (held rfl rfl) (fun _ mine => mine)
              nofun ⟨written, done, chunk, opened, rfl, pieces.mono _, ?_,
                inside, sealed'.mono _, sized⟩ nofun
            rw [Contents.take_read, ← List.append_assoc, ← read]
      | cons byte rest =>
          have offset : copied.length - (byte :: rest).length = written.length := by
            rw [← whole, List.length_append, Nat.add_sub_cancel]
          have appended : Contents.writeAt 0 (receiver.files.content inode)
              (copied.length - (byte :: rest).length) ((byte :: rest).take choice.count) =
              written ++ (byte :: rest).take choice.count := by
            rw [content_eq opened.node, offset]
            exact Contents.writeAt_end _ _ _
          rw [CommitStage.step]
          · rw [appended]
            obtain ⟨touches, kept⟩ := opened.put sound found rfl (sound.unused_of_assembly opened.node)
              (written ++ (byte :: rest).take choice.count)
            refine Goes.proceed sound touches (sound.agreed_held found rfl) rfl rfl
              nofun ?_
            refine ⟨_, done, chunk, kept, ?_, pieces, read, inside, touches.seals ?_ sealed', sized⟩
            · rw [List.append_assoc, List.take_append_drop]
              exact whole
            · rintro rfl
              have same := Option.mem_unique opened.node sealed'.node
              cases congrArg Inode.name same
          · simp
  | measure manifest target inode copied =>
      obtain ⟨opened, pieces⟩ := fits
      rw [CommitStage.step]
      split
      · exact .ended sound
      · rename_i linked known
        obtain rfl : linked = inode := opened.own linked known
        rw [content_eq opened.node]
        split
        · rename_i sized
          exact Goes.advance sound found (held rfl rfl) (fun _ mine => mine) nofun
            ⟨opened, sized, pieces.mono _⟩ nofun
        · exact .ended sound
  | replace manifest target inode copied =>
      obtain ⟨opened, sized, pieces⟩ := fits
      rw [CommitStage.step]
      split
      · exact .ended sound
      · rename_i linked known
        obtain rfl : linked = inode := opened.own linked known
        rw [content_eq opened.node]
        have unlinked := sound.unlink { receiver.files with
          temporaries := receiver.files.temporaries.erase (.assembly target.dropLast) } rfl
          (Dict.erase_sub _ _) (Dict.Sub.refl _) fun _ same => same
        refine ⟨unlinked.erase id, fun work same => ?_, fun other place content same => ?_⟩
        · cases same
          exact (unlinked.mono _).advance (.commit (.touch copied)) found nofun nofun nofun trivial
            false
        · obtain ⟨rfl, rfl, rfl⟩ := Output.replaced.inj same
          exact ⟨sized, pieces⟩
  | touch copied =>
      rw [CommitStage.step]
      exact Goes.advance sound found nofun nofun nofun trivial nofun
  | remove copied =>
      rw [CommitStage.step]
      split
      · have removed := sound.unlink { receiver.files with exists_ := false } rfl
          (Dict.Sub.refl _) (Dict.Sub.refl _) fun _ same => same
        exact Goes.stop removed nofun
      · exact .ended sound

theorem work_goes (sound : Sound sha256 history receiver)
    (found : receiver.requests.get? id = some request)
    (undisturbed : Undisturbed receiver (.step id choice)) :
    Goes sha256 history receiver.requests event id
      (request.work.step sha256 receiver.files choice) := by
  obtain ⟨work, dropped⟩ := request
  cases work with
  | init manifest stage => exact init_goes sound found undisturbed
  | status stage => exact status_goes sound found
  | chunk chunk stage => exact chunk_goes sound found undisturbed
  | commit stage => exact commit_goes sound found undisturbed

/-- What a replacement of the destination wrote. -/
def Assembled (sha256 : Bytes → String) (history : History) (output : Output) : Prop :=
  ∀ manifest target content, output = .replaced manifest target content →
    content.length = manifest.size ∧ Pieces (Checked sha256 history) manifest manifest.chunks content

theorem Goes.settle {outcome} (goes : Goes sha256 history receiver.requests event id outcome) :
    let (next, output) := receiver.settle id request outcome
    Sound sha256 (history ++ [(event, output)]) next ∧ Assembled sha256 history output := by
  obtain ⟨files, work, output⟩ := outcome
  unfold Receiver.settle
  dsimp only
  split
  · refine ⟨goes.stopped.mono _, fun manifest target content same => ?_⟩
    refine goes.replaced manifest target content ?_
    cases output <;> first | exact same | cases same
  · cases work with
    | none => exact ⟨goes.stopped.mono _, goes.replaced⟩
    | some work => exact ⟨goes.goes work rfl, goes.replaced⟩

theorem begin_sound (sound : Sound sha256 history receiver) (work : Work)
    (manifest : work.manifest = none) (claims : work.claims = none) (writes : work.writes = none)
    (fits : Fits sha256 history receiver work) :
    Sound sha256 history (receiver.begin_ id work).1 := by
  unfold Receiver.begin_
  split
  · exact sound
  · rename_i absent
    rw [Dict.contains, Option.not_isSome_iff_eq_none] at absent
    refine sound.assign false absent ?_ ?_ ?_ fits
    · intro held same
      cases manifest.symm.trans same
    · intro name same
      cases claims.symm.trans same
    · intro inode same
      cases writes.symm.trans same

theorem begin_assembled (work : Work) : Assembled sha256 history (receiver.begin_ id work).2 := by
  intro manifest target content same
  unfold Receiver.begin_ at same
  split at same
  · cases same
  · cases same

section

variable (sound : Sound sha256 history receiver)

include sound

theorem data_sound {hash offset size}
    (found : receiver.requests.get? id =
      some ⟨.chunk chunk (.receive manifest hash inode offset size []), dropped⟩) (bytes : Bytes) :
    Sound sha256 history
      (receiver.data id chunk manifest hash inode offset size bytes).1 := by
  obtain ⟨within, content, opened, sized, counted, _⟩ := sound.fits id _ found
  unfold Receiver.data
  dsimp only
  split
  · rename_i bounded
    refine sound.advance (.chunk chunk (.receive manifest hash inode offset (size + bytes.length)
      bytes)) found ((sound.agreed_held found rfl).held rfl) (fun _ mine => mine)
      (fun _ mine => mine) ?_ false
    exact ⟨within, content, opened, sized, congrArg (· + bytes.length) counted, bounded⟩
  · exact sound.advance (.chunk chunk .cleanup) found nofun (fun _ mine => mine) nofun trivial false

theorem finish_sound {hash offset size}
    (found : receiver.requests.get? id =
      some ⟨.chunk chunk (.receive manifest hash inode offset size []), dropped⟩) :
    Sound sha256 history (receiver.finish id chunk manifest hash inode size).1 := by
  obtain ⟨within, content, opened, sized, counted, _⟩ := sound.fits id _ found
  unfold Receiver.finish
  split
  · rename_i complete
    refine sound.advance (.chunk chunk (.verify manifest hash inode)) found
      ((sound.agreed_held found rfl).held rfl) (fun _ mine => mine) nofun
      ⟨within, content, opened, ?_⟩ false
    rw [sized, ← complete, counted, List.length_nil, Nat.add_zero]
  · exact sound.erase id

theorem fail_sound (found : receiver.requests.get? id = some request) :
    Sound sha256 history (receiver.fail id request).1 := by
  unfold Receiver.fail
  split
  · rename_i chunk _ _ _ _ _ _
    exact sound.advance (.chunk chunk .cleanup) found nofun
      (fun _ mine => mine) nofun trivial false
  · rename_i target _ _ _
    have removed := sound.unlink { receiver.files with
      temporaries := receiver.files.temporaries.erase (.assembly target.dropLast) } rfl
      (Dict.erase_sub _ _) (Dict.Sub.refl _) fun _ same => same
    exact removed.erase id
  · exact sound.erase id

theorem unlink_sound (entry : Entry) :
    Sound sha256 history { receiver with files := Receiver.unlink receiver.files entry } := by
  cases entry with
  | manifest =>
      exact sound.unlink _ rfl (Dict.Sub.refl _) (Dict.Sub.refl _) nofun
  | part index =>
      exact sound.unlink _ rfl (Dict.erase_sub _ _) (Dict.Sub.refl _) fun _ same => same
  | chunk index =>
      exact sound.unlink _ rfl (Dict.Sub.refl _) (Dict.erase_sub _ _) fun _ same => same

theorem drop_sound (found : receiver.requests.get? id = some request) :
    Sound sha256 history { receiver with
      requests := receiver.requests.insert id { request with dropped := true } } :=
  sound.advance _ found (fun _ held => sound.agreed_held found held) (fun _ mine => mine)
    (fun _ mine => mine) (sound.fits id request found) true

end

/-- One step of the receiver. -/
theorem Sound.step (sound : Sound sha256 history receiver) (undisturbed : Undisturbed receiver event) :
    Sound sha256 (history ++ [(event, (receiver.step sha256 event).2)])
      (receiver.step sha256 event).1 ∧
      Assembled sha256 history (receiver.step sha256 event).2 := by
  cases event with
  | init id manifest =>
      exact ⟨(begin_sound sound (.init manifest .start) rfl rfl rfl (.inl rfl)).mono _, begin_assembled _⟩
  | status id =>
      exact ⟨(begin_sound sound (.status .read) rfl rfl rfl trivial).mono _, begin_assembled _⟩
  | chunk id chunk =>
      exact ⟨(begin_sound sound (.chunk chunk .read) rfl rfl rfl trivial).mono _, begin_assembled _⟩
  | commit id =>
      exact ⟨(begin_sound sound (.commit .read) rfl rfl rfl trivial).mono _, begin_assembled _⟩
  | data id bytes =>
      unfold Receiver.step
      dsimp only
      split
      · rename_i found
        exact ⟨(data_sound sound found bytes).mono _, nofun⟩
      · exact ⟨sound.mono _, nofun⟩
  | finish id =>
      unfold Receiver.step
      dsimp only
      split
      · rename_i found
        refine ⟨(finish_sound sound found).mono _, fun _ _ _ same => ?_⟩
        unfold Receiver.finish at same
        split at same
        · cases same
        · cases same
      · exact ⟨sound.mono _, nofun⟩
  | step id choice =>
      unfold Receiver.step
      dsimp only
      split
      · exact ⟨sound.mono _, nofun⟩
      · rename_i request found
        exact (work_goes sound found undisturbed).settle
  | unlink id entry =>
      unfold Receiver.step
      dsimp only
      split
      · exact ⟨(unlink_sound sound entry).mono _, nofun⟩
      · exact ⟨sound.mono _, nofun⟩
  | fail id =>
      unfold Receiver.step
      dsimp only
      split
      · exact ⟨sound.mono _, nofun⟩
      · rename_i request found
        refine ⟨(fail_sound sound found).mono _, fun _ _ _ same => ?_⟩
        unfold Receiver.fail at same
        split at same
        · cases same
        · cases same
        · cases same
  | drop id =>
      unfold Receiver.step
      dsimp only
      split
      · exact ⟨sound.mono _, nofun⟩
      · rename_i request found
        exact ⟨(drop_sound sound found).mono _, nofun⟩
  | reap id =>
      unfold Receiver.step
      dsimp only
      split
      · exact ⟨(sound.erase id).mono _, nofun⟩
      · exact ⟨sound.mono _, nofun⟩

end Steps

theorem Sound.new (sha256 : Bytes → String) : Sound sha256 [] .new where
  temporaries _ _ found := nomatch found
  chunks _ _ found := nomatch found
  readable _ found := nomatch found
  held _ _ _ found := nomatch found
  single _ _ _ _ _ found := nomatch found
  fits _ _ found := nomatch found

end PortHub.Transfer.Upload
