import PortHub.Lib.Contents
import PortHub.Lib.Dict

/-! # The upload receiver

Requests for one upload id work on its directory: `manifest.json`, a file
`N.part` for a chunk that is received and a file `N.chunk` for one that was
checked. A commit assembles the chunks in a file beside the destination. Every
file operation is a step of its own, by path where the source works by path, and
the requests interleave freely. A request that is dropped may still complete the
operation it waits for.
-/

namespace PortHub.Transfer.Upload

abbrev Bytes := List UInt8

/-- `CHUNK`. -/
def chunkBytes : Nat := 8 * 1024 * 1024

structure Manifest where
  name : String
  size : Nat
  chunkSize : Nat
  chunks : Nat
  modifiedUnix : Int
  modifiedNanos : Nat
deriving DecidableEq

abbrev Path := List (List Char)

/-- `safe_name`: the components of a relative path. -/
def safeName (name : String) : Option Path :=
  let text := name.toList
  if text.isEmpty || text.head? == some '/' || text.any ['\\', ':', '\x00'].contains then none
  else
    let parts := text.splitOn '/'
    let kept := parts.filter fun part => part != [] && part != ['.']
    -- a leading `.` is a component, later ones are not
    if parts.head? == some ['.'] || kept.contains ['.', '.'] || kept.isEmpty then none
    else some kept

/-- The checks that `init` makes before it touches any file. -/
def Manifest.valid (manifest : Manifest) : Bool :=
  manifest.chunkSize == chunkBytes && decide (manifest.modifiedNanos < 1000000000)
    && manifest.chunks == (manifest.size + (chunkBytes - 1)) / chunkBytes
    && decide (manifest.chunks ≤ 1000000) && (safeName manifest.name).isSome

/-- An upload that is resumed must be the same one. -/
def Manifest.resumes (previous manifest : Manifest) : Bool :=
  previous.name == manifest.name && previous.size == manifest.size
    && previous.chunks == manifest.chunks

/-- The length of a chunk. -/
def Manifest.expected (manifest : Manifest) (index : Nat) : Nat :=
  min (manifest.size - index * manifest.chunkSize) manifest.chunkSize

/-! ## Files -/

/-- The files that are written: `N.part`, and the assembly file of the upload in
    the folder of its destination. -/
inductive Temporary where
  | part (index : Nat)
  | assembly (folder : Path)
deriving DecidableEq

/-- The file is not in the directory of the upload. -/
def Temporary.outside : Temporary → Bool
  | .part _ => false
  | .assembly _ => true

/-- A file, with the name it was created under. -/
structure Inode where
  name : Temporary
  content : Bytes

structure Files where
  inodes : Dict Nat Inode
  /-- The directory of the upload. -/
  exists_ : Bool
  /-- `manifest.json`; it cannot be read while it is written. -/
  manifest : Option (Option Manifest)
  temporaries : Dict Temporary Nat
  /-- `N.chunk`. -/
  chunks : Dict Nat Nat

namespace Files

def new : Files := ⟨.empty, false, none, .empty, .empty⟩

def content (files : Files) (inode : Nat) : Bytes :=
  ((files.inodes.get? inode).map (·.content)).getD []

/-- Change the content of an open file. -/
def put (files : Files) (inode : Nat) (content : Bytes) : Files :=
  match files.inodes.get? inode with
  | none => files
  | some old => { files with inodes := files.inodes.insert inode { old with content } }

/-- `File::create`: the file of that name is truncated, or a new one made. -/
def create (files : Files) (name : Temporary) (fresh : Nat) : Option (Files × Nat) :=
  match files.temporaries.get? name with
  | some inode => some (files.put inode [], inode)
  | none =>
      if files.inodes.contains fresh then none
      else
        some ({ files with
          inodes := files.inodes.insert fresh ⟨name, []⟩
          temporaries := files.temporaries.insert name fresh }, fresh)

end Files

/-! ## Requests -/

structure ChunkRequest where
  index : Nat
  /-- `Content-Length`, if there is one, and its value if it is a number. -/
  length : Option (Option Nat)
  /-- `x-porthub-chunk-sha256`. -/
  hash : Option String

def isHash (hash : String) : Bool :=
  hash.toList.length == 64 && hash.toList.all fun c =>
    ('0' ≤ c && c ≤ '9') || ('a' ≤ c && c ≤ 'f') || ('A' ≤ c && c ≤ 'F')

/-- The checks of `chunk` before it touches the chunk's files. -/
def ChunkRequest.admits (request : ChunkRequest) (manifest : Manifest) : Option String :=
  if request.index < manifest.chunks
      && request.length.all (· == some (manifest.expected request.index)) then
    request.hash.filter isHash
  else none

inductive InitStage where
  | start
  | probe
  | compare
  | create
  | write
  | list (index : Nat) (missing : List Nat)

inductive StatusStage where
  | read
  | list (manifest : Manifest) (index : Nat) (missing : List Nat)

/-- `receive` holds the open file, where it writes next, the bytes counted so far
    and those not yet written. -/
inductive ChunkStage where
  | read
  | open_ (manifest : Manifest) (hash : String)
  | receive (manifest : Manifest) (hash : String) (inode offset size : Nat) (pending : Bytes)
  | cleanup
  | verify (manifest : Manifest) (hash : String) (inode : Nat)
  | rename (manifest : Manifest) (inode : Nat)

/-- From `next` on the assembly file is open, and `copied` was read from the
    chunks. In `copy` the chunk `index` is open too. -/
inductive CommitStage where
  | read
  | list (manifest : Manifest) (index : Nat) (missing : Bool)
  | locate (manifest : Manifest)
  | create (manifest : Manifest) (target : Path)
  | next (manifest : Manifest) (target : Path) (inode index : Nat) (copied : Bytes)
  | copy (manifest : Manifest) (target : Path) (inode index input position : Nat)
      (copied pending : Bytes)
  | measure (manifest : Manifest) (target : Path) (inode : Nat) (copied : Bytes)
  | replace (manifest : Manifest) (target : Path) (inode : Nat) (copied : Bytes)
  | touch (copied : Bytes)
  | remove (copied : Bytes)

inductive Work where
  | init (manifest : Manifest) (stage : InitStage)
  | status (stage : StatusStage)
  | chunk (request : ChunkRequest) (stage : ChunkStage)
  | commit (stage : CommitStage)

structure Request where
  work : Work
  /-- The request was dropped; the operation under way may complete. -/
  dropped : Bool

structure Receiver where
  files : Files
  requests : Dict Nat Request

def Receiver.new : Receiver := ⟨.new, .empty⟩

/-- Entries of the directory, for `remove_dir_all`. -/
inductive Entry where
  | manifest
  | part (index : Nat)
  | chunk (index : Nat)

/-- What a step takes from outside: a number for a new file, how many bytes an
    operation moves, and whether a written manifest can be read. -/
structure Choice where
  fresh : Nat
  count : Nat
  readable : Bool

inductive Event where
  | init (id : Nat) (manifest : Manifest)
  | status (id : Nat)
  | chunk (id : Nat) (request : ChunkRequest)
  | commit (id : Nat)
  | data (id : Nat) (bytes : Bytes)
  | finish (id : Nat)
  | step (id : Nat) (choice : Choice)
  | unlink (id : Nat) (entry : Entry)
  | fail (id : Nat)
  | drop (id : Nat)
  | reap (id : Nat)

inductive Output where
  | done
  | failed
  | missing (indices : List Nat)
  | checked (index : Nat) (bytes : Bytes) (hash : String)
  | stored (index : Nat)
  | replaced (manifest : Manifest) (target : Path) (content : Bytes)
  | committed (hash : String)
deriving DecidableEq

/-- What remains visible of a request that nobody waits for. -/
def Output.unheard : Output → Output
  | .stored index => .stored index
  | .replaced manifest target content => .replaced manifest target content
  | _ => .done

/-- How a step of a request ends: it goes on, or it is over. -/
abbrev Outcome := Files × Option Work × Output

section Steps

variable (sha256 : Bytes → String) (files : Files)

def ended : Outcome := (files, none, .failed)

/-- One file operation of `init`. -/
def Manifest.step (manifest : Manifest) (choice : Choice) : InitStage → Outcome
  | .start =>
      if manifest.valid then
        ({ files with exists_ := true }, some (.init manifest .probe), .done)
      else ended files
  | .probe =>
      if files.manifest.isSome then (files, some (.init manifest .compare), .done)
      else (files, some (.init manifest .create), .done)
  | .compare =>
      match files.manifest with
      | some (some previous) =>
          if previous.resumes manifest then (files, some (.init manifest (.list 0 [])), .done)
          else ended files
      | _ => ended files
  | .create =>
      if files.exists_ then
        ({ files with manifest := some none }, some (.init manifest .write), .done)
      else ended files
  | .write =>
      -- the directory may have been removed under the open file
      let written := if choice.readable then some manifest else none
      ({ files with manifest := files.manifest.map fun _ => written },
        some (.init manifest (.list 0 [])), .done)
  | .list index missing =>
      if index < manifest.chunks then
        let missing := if files.chunks.contains index then missing else missing ++ [index]
        (files, some (.init manifest (.list (index + 1) missing)), .done)
      else (files, none, .missing missing)

/-- One file operation of `status`. -/
def StatusStage.step : StatusStage → Outcome
  | .read =>
      match files.manifest with
      | some (some manifest) => (files, some (.status (.list manifest 0 [])), .done)
      | _ => ended files
  | .list manifest index missing =>
      if index < manifest.chunks then
        let missing := if files.chunks.contains index then missing else missing ++ [index]
        (files, some (.status (.list manifest (index + 1) missing)), .done)
      else (files, none, .missing missing)

/-- One file operation of `chunk`, with `write_body`. -/
def ChunkRequest.step (request : ChunkRequest) (choice : Choice) : ChunkStage → Outcome
  | .read =>
      match files.manifest with
      | some (some manifest) =>
          match request.admits manifest with
          | none => ended files
          | some hash => (files, some (.chunk request (.open_ manifest hash)), .done)
      | _ => ended files
  | .open_ manifest hash =>
      if files.exists_ then
        match files.create (.part request.index) choice.fresh with
        | none => ended files
        | some (files, inode) =>
            (files, some (.chunk request (.receive manifest hash inode 0 0 [])), .done)
      else ended files
  | .receive manifest hash inode offset size pending =>
      let written := pending.take choice.count
      (files.put inode (Contents.writeAt 0 (files.content inode) offset written),
        some (.chunk request (.receive manifest hash inode (offset + written.length) size
          (pending.drop choice.count))), .done)
  | .cleanup =>
      ({ files with temporaries := files.temporaries.erase (.part request.index) }, none, .failed)
  | .verify manifest hash inode =>
      match files.temporaries.get? (.part request.index) with
      | none => ended files
      | some found =>
          let received := files.content found
          if sha256 received = hash then
            (files, some (.chunk request (.rename manifest inode)),
              .checked request.index received hash)
          else ended files
  | .rename _ _ =>
      match files.temporaries.get? (.part request.index) with
      | none => ended files
      | some found =>
          ({ files with
              temporaries := files.temporaries.erase (.part request.index)
              chunks := files.chunks.insert request.index found },
            none, .stored request.index)

/-- One file operation of `commit`. -/
def CommitStage.step (choice : Choice) : CommitStage → Outcome
  | .read =>
      match files.manifest with
      | some (some manifest) => (files, some (.commit (.list manifest 0 false)), .done)
      | _ => ended files
  | .list manifest index missing =>
      if index < manifest.chunks then
        let missing := missing || !files.chunks.contains index
        (files, some (.commit (.list manifest (index + 1) missing)), .done)
      else if missing then ended files
      else (files, some (.commit (.locate manifest)), .done)
  | .locate manifest =>
      match safeName manifest.name with
      | none => ended files
      | some target => (files, some (.commit (.create manifest target)), .done)
  | .create manifest target =>
      match files.create (.assembly target.dropLast) choice.fresh with
      | none => ended files
      | some (files, inode) => (files, some (.commit (.next manifest target inode 0 [])), .done)
  | .next manifest target inode index copied =>
      if index < manifest.chunks then
        match files.chunks.get? index with
        | none => ended files
        | some input =>
            (files, some (.commit (.copy manifest target inode index input 0 copied [])), .done)
      else (files, some (.commit (.measure manifest target inode copied)), .done)
  | .copy manifest target inode index input position copied [] =>
      let bytes := ((files.content input).drop position).take (min choice.count (256 * 1024))
      -- nothing is read at the end only
      if bytes.isEmpty then
        if position < (files.content input).length then
          (files, some (.commit (.copy manifest target inode index input position copied [])),
            .failed)
        else (files, some (.commit (.next manifest target inode (index + 1) copied)), .done)
      else
        (files, some (.commit (.copy manifest target inode index input
          (position + bytes.length) (copied ++ bytes) bytes)), .done)
  | .copy manifest target inode index input position copied pending =>
      let written := pending.take choice.count
      let offset := copied.length - pending.length
      (files.put inode (Contents.writeAt 0 (files.content inode) offset written),
        some (.commit (.copy manifest target inode index input position copied
          (pending.drop choice.count))), .done)
  | .measure manifest target inode copied =>
      match files.temporaries.get? (.assembly target.dropLast) with
      | none => ended files
      | some found =>
          if (files.content found).length = manifest.size then
            (files, some (.commit (.replace manifest target inode copied)), .done)
          else ended files
  | .replace manifest target _ copied =>
      match files.temporaries.get? (.assembly target.dropLast) with
      | none => ended files
      | some found =>
          ({ files with temporaries := files.temporaries.erase (.assembly target.dropLast) },
            some (.commit (.touch copied)), .replaced manifest target (files.content found))
  | .touch copied => (files, some (.commit (.remove copied)), .done)
  | .remove copied =>
      -- the directory goes last
      if files.manifest.isNone && files.chunks.entries.isEmpty
          && files.temporaries.entries.all (·.1.outside) then
        ({ files with exists_ := false }, none, .committed (sha256 copied))
      else ended files

def Work.step (choice : Choice) : Work → Outcome
  | .init manifest stage => manifest.step files choice stage
  | .status stage => stage.step files
  | .chunk request stage => request.step sha256 files choice stage
  | .commit stage => stage.step sha256 files choice

end Steps

namespace Receiver

variable (sha256 : Bytes → String)

/-- The request goes on unless it was dropped. -/
def settle (receiver : Receiver) (id : Nat) (request : Request) (outcome : Outcome) :
    Receiver × Output :=
  let (files, work, output) := outcome
  if request.dropped then ({ files, requests := receiver.requests.erase id }, output.unheard)
  else
    match work with
    | none => ({ files, requests := receiver.requests.erase id }, output)
    | some work =>
        ({ files, requests := receiver.requests.insert id ⟨work, false⟩ }, output)

def begin_ (receiver : Receiver) (id : Nat) (work : Work) : Receiver × Output :=
  if receiver.requests.contains id then (receiver, .failed)
  else ({ receiver with requests := receiver.requests.insert id ⟨work, false⟩ }, .done)

/-- The body of a request brings bytes, which are counted before they are written. -/
def data (receiver : Receiver) (id : Nat) (request : ChunkRequest) (manifest : Manifest)
    (hash : String) (inode offset size : Nat) (bytes : Bytes) : Receiver × Output :=
  let size := size + bytes.length
  let stage := if size ≤ manifest.expected request.index then
    ChunkStage.receive manifest hash inode offset size bytes else .cleanup
  ({ receiver with
      requests := receiver.requests.insert id ⟨.chunk request stage, false⟩ }, .done)

/-- The body of a request ends, and everything is synced. -/
def finish (receiver : Receiver) (id : Nat) (request : ChunkRequest) (manifest : Manifest)
    (hash : String) (inode size : Nat) : Receiver × Output :=
  if size = manifest.expected request.index then
    ({ receiver with
        requests := receiver.requests.insert id
          ⟨.chunk request (.verify manifest hash inode), false⟩ }, .done)
  else ({ receiver with requests := receiver.requests.erase id }, .failed)

def unlink (files : Files) : Entry → Files
  | .manifest => { files with manifest := none }
  | .part index => { files with temporaries := files.temporaries.erase (.part index) }
  | .chunk index => { files with chunks := files.chunks.erase index }

/-- An operation fails. `write_body` removes what it wrote. -/
def fail (receiver : Receiver) (id : Nat) (request : Request) : Receiver × Output :=
  match request with
  | ⟨.chunk chunk (.receive _ _ _ _ _ _), false⟩ =>
      ({ receiver with requests := receiver.requests.insert id ⟨.chunk chunk .cleanup, false⟩ },
        .done)
  | ⟨.commit (.replace _ target _ _), _⟩ =>
      -- a file that cannot be published is removed
      (⟨{ receiver.files with
          temporaries := receiver.files.temporaries.erase (.assembly target.dropLast) },
        receiver.requests.erase id⟩, .failed)
  | _ => ({ receiver with requests := receiver.requests.erase id }, .failed)

/-- One step of the receiver. -/
def step (receiver : Receiver) : Event → Receiver × Output
  | .init id manifest => receiver.begin_ id (.init manifest .start)
  | .status id => receiver.begin_ id (.status .read)
  | .chunk id request => receiver.begin_ id (.chunk request .read)
  | .commit id => receiver.begin_ id (.commit .read)
  | .data id bytes =>
      match receiver.requests.get? id with
      | some ⟨.chunk request (.receive manifest hash inode offset size []), false⟩ =>
          receiver.data id request manifest hash inode offset size bytes
      | _ => (receiver, .failed)
  | .finish id =>
      match receiver.requests.get? id with
      | some ⟨.chunk request (.receive manifest hash inode _ size []), false⟩ =>
          receiver.finish id request manifest hash inode size
      | _ => (receiver, .failed)
  | .step id choice =>
      match receiver.requests.get? id with
      | none => (receiver, .failed)
      | some request =>
          receiver.settle id request (request.work.step sha256 receiver.files choice)
  | .unlink id entry =>
      match receiver.requests.get? id with
      | some ⟨.commit (.remove _), _⟩ =>
          ({ receiver with files := unlink receiver.files entry }, .done)
      | _ => (receiver, .failed)
  | .fail id =>
      match receiver.requests.get? id with
      | none => (receiver, .failed)
      | some request => receiver.fail id request
  | .drop id =>
      match receiver.requests.get? id with
      | none => (receiver, .failed)
      | some request =>
          ({ receiver with requests := receiver.requests.insert id { request with dropped := true } },
            .done)
  | .reap id =>
      match receiver.requests.get? id with
      | some ⟨_, true⟩ => ({ receiver with requests := receiver.requests.erase id }, .done)
      | _ => (receiver, .failed)

end Receiver

end PortHub.Transfer.Upload
