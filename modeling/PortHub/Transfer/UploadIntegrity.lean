import PortHub.Transfer.UploadRuns

/-! # What an upload stores

A hash that a chunk is checked against is the one that its own request carries.
With the invariant of the runs, every chunk that a request sees and every
destination that is replaced consist of bytes that were checked. -/

namespace PortHub.Transfer.Upload

open Runs

/-! ## Hashes -/

/-- The hash that a request goes by. -/
def ChunkStage.hash : ChunkStage → Option String
  | .open_ _ hash => some hash
  | .receive _ hash _ _ _ _ => some hash
  | .verify _ hash _ => some hash
  | _ => none

/-- A request for a chunk goes by the hash it was sent with. -/
structure Sent (history : History) (receiver : Receiver) : Prop where
  requests : ∀ id chunk stage dropped,
    receiver.requests.get? id = some ⟨.chunk chunk stage, dropped⟩ →
    (Event.chunk id chunk, Output.done) ∈ history ∧
      ∀ hash, stage.hash = some hash → chunk.hash = some hash
  checked : ∀ event index bytes hash, (event, Output.checked index bytes hash) ∈ history →
    ∃ id choice chunk, event = .step id choice ∧ (Event.chunk id chunk, Output.done) ∈ history ∧
      chunk.index = index ∧ chunk.hash = some hash

section Hashes

variable {sha256 : Bytes → String} {history : History} {receiver : Receiver} {files : Files}
  {choice : Choice} {label : Event × Output} {id : Nat}

theorem admits_hash {chunk : ChunkRequest} {manifest hash}
    (admitted : chunk.admits manifest = some hash) : chunk.hash = some hash := by
  unfold ChunkRequest.admits at admitted
  split at admitted
  · exact (Option.filter_eq_some_iff.mp admitted).1
  · cases admitted

/-- A step never turns to another request. -/
theorem step_chunk {work : Work} {chunk stage}
    (next : (work.step sha256 files choice).2.1 = some (.chunk chunk stage)) :
    ∃ earlier, work = .chunk chunk earlier ∧ ∀ hash, stage.hash = some hash →
      earlier.hash = some hash ∨ chunk.hash = some hash := by
  cases work with
  | init manifest stage =>
      cases stage <;> simp only [Work.step, Manifest.step] at next <;> grind [ended]
  | status stage =>
      cases stage <;> simp only [Work.step, StatusStage.step] at next <;> grind [ended]
  | commit stage =>
      unfold Work.step CommitStage.step at next
      grind [ended]
  | chunk chunk' stage' =>
      cases stage' <;> simp only [Work.step, ChunkRequest.step] at next <;>
        grind [ended, admits_hash, ChunkStage.hash]

theorem step_checked {work : Work} {index bytes hash}
    (output : (work.step sha256 files choice).2.2 = .checked index bytes hash) :
    ∃ chunk manifest inode, work = .chunk chunk (.verify manifest hash inode) ∧
      chunk.index = index := by
  cases work with
  | init manifest stage =>
      cases stage <;> simp only [Work.step, Manifest.step] at output <;> grind [ended]
  | status stage =>
      cases stage <;> simp only [Work.step, StatusStage.step] at output <;> grind [ended]
  | commit stage =>
      unfold Work.step CommitStage.step at output
      grind [ended]
  | chunk chunk stage =>
      cases stage with
      | verify manifest sent inode =>
          simp only [Work.step, ChunkRequest.step] at output
          split at output
          · cases output
          · split at output
            · obtain ⟨rfl, _, rfl⟩ := Output.checked.inj output
              exact ⟨chunk, manifest, inode, rfl, rfl⟩
            · cases output
      | read | open_ manifest sent =>
          simp only [Work.step, ChunkRequest.step] at output; grind [ended]
      | receive manifest sent inode offset size pending => cases output
      | cleanup => cases output
      | rename manifest inode =>
          simp only [Work.step, ChunkRequest.step] at output
          grind [ended]

/-- A request for a chunk is new, or an earlier one that goes by its hash. -/
abbrev GoesOn (receiver : Receiver) (label : Event × Output) (id : Nat) (chunk : ChunkRequest)
    (stage : ChunkStage) : Prop :=
  (label = (Event.chunk id chunk, Output.done) ∧ stage.hash = none) ∨
  ∃ earlier flag, receiver.requests.get? id = some ⟨.chunk chunk earlier, flag⟩ ∧
    ∀ hash, stage.hash = some hash → earlier.hash = some hash ∨ chunk.hash = some hash

/-- A check is made by a request that has received its chunk. -/
abbrev Checks (receiver : Receiver) (label : Event × Output) : Prop :=
  ∀ index bytes hash, label.2 = .checked index bytes hash →
    ∃ id choice chunk manifest inode dropped, label.1 = .step id choice ∧ chunk.index = index ∧
      receiver.requests.get? id = some ⟨.chunk chunk (.verify manifest hash inode), dropped⟩

section

variable (sent : Sent history receiver)

include sent

/-- Requests come from earlier ones, and a check is made by one of them. -/
theorem Sent.next {next : Receiver}
    (requests : ∀ id chunk stage dropped, next.requests.get? id = some ⟨.chunk chunk stage, dropped⟩ →
      GoesOn receiver label id chunk stage)
    (checked : Checks receiver label) :
    Sent (history ++ [label]) next := by
  constructor
  · intro id chunk stage dropped found
    rcases requests id chunk stage dropped found with ⟨rfl, none⟩ | ⟨earlier, flag, before, hashes⟩
    · refine ⟨List.mem_append_right _ (.head _), fun hash same => ?_⟩
      cases none.symm.trans same
    · obtain ⟨member, known⟩ := sent.requests id chunk earlier flag before
      exact ⟨List.mem_append_left _ member, fun hash same =>
        (hashes hash same).elim (known hash) fun sent => sent⟩
  · intro event index bytes hash member
    rcases mem_snoc.mp member with before | rfl
    · obtain ⟨id, choice, chunk, rfl, asked, rest⟩ := sent.checked event index bytes hash before
      exact ⟨id, choice, chunk, rfl, List.mem_append_left _ asked, rest⟩
    · obtain ⟨id, choice, chunk, manifest, inode, dropped, rfl, here, found⟩ :=
        checked index bytes hash rfl
      obtain ⟨asked, known⟩ := sent.requests id chunk _ dropped found
      exact ⟨id, choice, chunk, rfl, List.mem_append_left _ asked, here, known hash rfl⟩

/-- Requests end, and nothing is checked. -/
theorem Sent.fewer {next : Receiver}
    (fewer : next.requests.Sub receiver.requests)
    (plain : ∀ index bytes hash, label.2 ≠ .checked index bytes hash) :
    Sent (history ++ [label]) next := by
  refine sent.next (fun id chunk stage dropped found => ?_) fun index bytes hash same => ?_
  · exact .inr ⟨stage, dropped, fewer _ _ found, fun hash same => .inl same⟩
  · exact absurd same (plain index bytes hash)

/-- One request goes on, and nothing is checked. -/
theorem Sent.assign {files work flag}
    (goes : ∀ chunk stage, work = .chunk chunk stage → GoesOn receiver label id chunk stage)
    (checked : Checks receiver label) :
    Sent (history ++ [label]) ⟨files, receiver.requests.insert id ⟨work, flag⟩⟩ := by
  refine sent.next (fun other chunk stage dropped found => ?_) checked
  rcases Dict.get?_of_insert found with ⟨rfl, same⟩ | ⟨_, before⟩
  · exact goes chunk stage (congrArg Request.work same).symm
  · exact .inr ⟨stage, dropped, before, fun hash same => .inl same⟩

theorem Sent.begin {event work}
    (own : ∀ chunk stage, work = .chunk chunk stage →
      event = Event.chunk id chunk ∧ stage.hash = none) :
    Sent (history ++ [(event, (receiver.begin_ id work).2)]) (receiver.begin_ id work).1 := by
  unfold Receiver.begin_
  split
  · exact sent.fewer (Dict.Sub.refl _) (by simp)
  · refine sent.assign (fun chunk stage same => .inl ?_) fun _ _ _ same => by cases same
    obtain ⟨rfl, none⟩ := own chunk stage same
    exact ⟨rfl, none⟩

theorem Sent.settle {request}
    (found : receiver.requests.get? id = some request) :
    let (next, output) := receiver.settle id request (request.work.step sha256 receiver.files choice)
    Sent (history ++ [(.step id choice, output)]) next := by
  obtain ⟨work, dropped⟩ := request
  have goes (chunk : ChunkRequest) (stage : ChunkStage) :=
    @step_chunk sha256 receiver.files choice work chunk stage
  have checks (index : Nat) (bytes : Bytes) (hash : String) :=
    @step_checked sha256 receiver.files choice work index bytes hash
  rcases outcome : work.step sha256 receiver.files choice with ⟨files, after, output⟩
  rw [outcome] at goes checks
  have checked : Checks receiver (.step id choice, output) := by
    intro index bytes hash same
    obtain ⟨chunk, manifest, inode, rfl, here⟩ := checks index bytes hash same
    exact ⟨id, choice, chunk, manifest, inode, dropped, rfl, here, found⟩
  unfold Receiver.settle
  dsimp only
  split
  · refine sent.fewer (Dict.erase_sub _ _) fun index bytes hash same => ?_
    cases output <;> cases same
  · cases after with
    | none =>
        refine sent.next (fun other chunk stage flag known => ?_) checked
        exact .inr ⟨stage, flag, Dict.erase_sub _ _ _ _ known, fun hash same => .inl same⟩
    | some after =>
        refine sent.assign (fun chunk stage same => .inr ?_) checked
        obtain ⟨earlier, rfl, hashes⟩ := goes chunk stage (congrArg some same)
        exact ⟨earlier, dropped, found, hashes⟩

end

theorem Sent.step (sent : Sent history receiver) (event : Event) :
    Sent (history ++ [(event, (receiver.step sha256 event).2)]) (receiver.step sha256 event).1 := by
  cases event with
  | init id manifest | status id | commit id => exact sent.begin nofun
  | chunk id chunk =>
      refine sent.begin fun other stage same => ?_
      obtain ⟨rfl, rfl⟩ := Work.chunk.inj same
      exact ⟨rfl, rfl⟩
  | data id bytes =>
      unfold Receiver.step
      dsimp only
      split
      · rename_i request manifest hash inode offset size found
        refine sent.assign (fun chunk stage same => .inr ?_) nofun
        obtain ⟨rfl, rfl⟩ := Work.chunk.inj same
        refine ⟨_, false, found, fun sent same => .inl ?_⟩
        split at same
        · exact same
        · cases same
      · exact sent.fewer (Dict.Sub.refl _) nofun
  | finish id =>
      unfold Receiver.step
      dsimp only
      split
      · rename_i request manifest hash inode offset size found
        unfold Receiver.finish
        split
        · refine sent.assign (fun chunk stage same => .inr ?_) nofun
          obtain ⟨rfl, rfl⟩ := Work.chunk.inj same
          exact ⟨_, false, found, fun sent same => .inl same⟩
        · exact sent.fewer (Dict.erase_sub _ _) nofun
      · exact sent.fewer (Dict.Sub.refl _) nofun
  | step id choice =>
      unfold Receiver.step
      dsimp only
      split
      · exact sent.fewer (Dict.Sub.refl _) nofun
      · rename_i request found
        exact sent.settle found
  | unlink id entry =>
      unfold Receiver.step
      dsimp only
      split
      · exact sent.fewer (Dict.Sub.refl _) nofun
      · exact sent.fewer (Dict.Sub.refl _) nofun
  | fail id =>
      unfold Receiver.step
      dsimp only
      split
      · exact sent.fewer (Dict.Sub.refl _) nofun
      · rename_i request found
        unfold Receiver.fail
        split
        · refine sent.assign (fun chunk stage same => .inr ?_) nofun
          obtain ⟨rfl, rfl⟩ := Work.chunk.inj same
          exact ⟨_, false, found, nofun⟩
        · exact sent.fewer (Dict.erase_sub _ _) nofun
        · exact sent.fewer (Dict.erase_sub _ _) nofun
  | drop id =>
      unfold Receiver.step
      dsimp only
      split
      · exact sent.fewer (Dict.Sub.refl _) nofun
      · rename_i request found
        obtain ⟨work, dropped⟩ := request
        refine sent.assign (fun chunk stage same => .inr ?_) nofun
        obtain rfl : work = .chunk chunk stage := same
        exact ⟨stage, dropped, found, fun hash same => .inl same⟩
  | reap id =>
      unfold Receiver.step
      dsimp only
      split
      · exact sent.fewer (Dict.erase_sub _ _) nofun
      · exact sent.fewer (Dict.Sub.refl _) nofun

end Hashes

/-! ## Integrity -/

/-- A request for the chunk sent the hash of the bytes, and they were checked
    against it. -/
def Verified (sha256 : Bytes → String) (history : History) (index : Nat) (bytes : Bytes) : Prop :=
  ∃ id choice chunk hash, (Event.chunk id chunk, Output.done) ∈ history ∧ chunk.index = index ∧
    chunk.hash = some hash ∧ (Event.step id choice, Output.checked index bytes hash) ∈ history ∧
    sha256 bytes = hash

/-- Every chunk that a request with a manifest finds was verified and has the
    length that the manifest prescribes, and a destination that is replaced is
    made of such chunks. -/
structure Intact (sha256 : Bytes → String) (step : Receiver → Event × Output → Receiver → Prop)
    (history : History) (receiver : Receiver) : Prop where
  chunks : ∀ id request manifest index inode, receiver.requests.get? id = some request →
    request.work.manifest = some manifest → index < manifest.chunks →
    receiver.files.chunks.get? index = some inode →
    (receiver.files.content inode).length = manifest.expected index ∧
      Verified sha256 history index (receiver.files.content inode)
  replaced : ∀ label next manifest target content, step receiver label next →
    label.2 = .replaced manifest target content →
    content.length = manifest.size ∧
      Pieces (Verified sha256 history) manifest manifest.chunks content

/-- The steps in which the requests keep out of each other's way. -/
def Taken (sha256 : Bytes → String) (receiver : Receiver) (label : Event × Output)
    (next : Receiver) : Prop :=
  answers (Receiver.step sha256) receiver label next ∧ Undisturbed receiver label.1

section Integrity

variable {sha256 : Bytes → String} {history : History} {receiver : Receiver}

theorem sound_of_run (run : Run (Taken sha256) .new history receiver) :
    Sound sha256 history receiver := by
  refine run.historyInvariant (.new sha256) fun history before label next _ sound taken => ?_
  obtain ⟨answered, undisturbed⟩ := taken
  have stepped := (sound.step undisturbed).1
  rw [answered] at stepped
  exact stepped

theorem sent_of_run (run : Run (answers (Receiver.step sha256)) .new history receiver) :
    Sent history receiver := by
  have initial : Sent [] Receiver.new := ⟨nofun, nofun⟩
  refine run.historyInvariant initial fun history before label next _ sent taken => ?_
  have stepped := @Sent.step sha256 _ _ sent label.1
  rw [taken] at stepped
  exact stepped

theorem Sent.verified (sent : Sent history receiver) {index bytes}
    (checked : Checked sha256 history index bytes) : Verified sha256 history index bytes := by
  obtain ⟨event, hash, member, same⟩ := checked
  obtain ⟨id, choice, chunk, rfl, asked, here, known⟩ := sent.checked event index bytes hash member
  exact ⟨id, choice, chunk, hash, asked, here, known, member, same⟩

end Integrity

/-- As long as the requests keep out of each other's way, only verified chunks
    are seen and stored. -/
theorem uploads_are_intact (sha256 : Bytes → String) (history : History) (receiver : Receiver)
    (run : Run (Taken sha256) .new history receiver) :
    Intact sha256 (Taken sha256) history receiver := by
  have sound := sound_of_run run
  have sent := sent_of_run (run.mono fun _ _ _ taken => taken.1)
  constructor
  · intro id request manifest index inode found held within stored
    obtain ⟨content, sealed'⟩ := sound.chunks index inode stored
    refine ⟨(sound.held id request manifest found held).fits index inode stored within, ?_⟩
    rw [content_eq sealed'.node]
    exact sent.verified sealed'.checked
  · rintro ⟨event, output⟩ next manifest target content ⟨answered, undisturbed⟩ same
    have assembled := (sound.step undisturbed).2
    rw [answered] at assembled
    obtain ⟨sized, pieces⟩ := assembled manifest target content same
    exact ⟨sized, pieces.imp fun _ _ checked => sent.verified checked⟩

/-! ## Runs of one upload -/

def exampleHash : String := "039058c6f2c0cb492c533b0a4d14ef77cc0f78abccced5287d84a1a2011cfb81"

/-- SHA-256 on the bytes of the example. -/
def exampleSha256 (bytes : Bytes) : String :=
  if bytes = [1, 2, 3] then exampleHash
  else "e3b0c44298fc1c149afbf4c8996fb92427ae41e4649b934ca495991b7852b855"

def exampleManifest : Manifest := ⟨"file", 3, chunkBytes, 1, 0, 0⟩

def exampleChunk : ChunkRequest := ⟨0, some (some 3), some exampleHash⟩

def examplePick : Choice := ⟨0, 1024, true⟩

def initEvents : List Event :=
  .init 0 exampleManifest :: List.replicate 6 (.step 0 examplePick)

/-- A chunk is received and checked. -/
def chunkEvents : List Event :=
  [.chunk 1 exampleChunk, .step 1 examplePick, .step 1 examplePick, .data 1 [1, 2, 3],
    .step 1 examplePick, .finish 1, .step 1 examplePick]

/-- The chunk is stored and the upload is assembled. -/
def commitEvents : List Event :=
  .step 1 examplePick :: .commit 2 :: List.replicate 4 (.step 2 examplePick) ++
    .step 2 ⟨1, 0, true⟩ :: List.replicate 6 (.step 2 examplePick)

/-- The condition on one step, checked. -/
def calm (receiver : Receiver) : Event → Bool
  | .step id _ =>
      match receiver.requests.get? id with
      | none => true
      | some ⟨.init _ .write, _⟩ => receiver.files.chunks.entries.isEmpty
          && receiver.requests.values.all (·.work.manifest.isNone)
      | some request => request.work.makes.isNone
          || receiver.requests.values.all (·.work.claims.isNone)
  | _ => true

theorem calm_undisturbed {receiver event} (checked : calm receiver event = true) :
    Undisturbed receiver event := by
  constructor
  · rintro id choice ⟨work, dropped⟩ name rfl found makes other rival known claims
    simp only [calm, found] at checked
    split at checked
    · rename_i same
      cases same
    · rename_i same
      cases same
      cases makes
    · rename_i same
      cases same
      rw [show work.makes = some name from makes, Option.isNone_some, Bool.false_or,
        List.all_eq_true] at checked
      have free := checked rival (Dict.mem_values_iff.mpr ⟨other, known⟩)
      rw [claims] at free
      cases free
  · rintro id choice manifest dropped rfl found
    simp only [calm, found] at checked
    obtain ⟨empty, free⟩ := Bool.and_eq_true_iff.mp checked
    constructor
    · intro index inode stored _
      have member := Dict.get?_eq_some_iff.mp stored
      rw [List.isEmpty_iff.mp empty] at member
      cases member
    · intro other rival held known same
      have none := List.all_eq_true.mp free rival (Dict.mem_values_iff.mpr ⟨other, known⟩)
      rw [same] at none
      cases none

/-- One upload at a time: the destination gets the bytes that were sent. -/
theorem single_upload_is_intact :
    let run := feed (Receiver.step exampleSha256) .new (initEvents ++ chunkEvents ++ commitEvents)
    (run.2.step exampleSha256 (.step 2 examplePick)).2 =
      .replaced exampleManifest ["file".toList] [1, 2, 3] ∧
    Pieces (Verified exampleSha256 run.1) exampleManifest 1 [1, 2, 3] := by
  intro run
  have taken : Run (Taken exampleSha256) .new run.1 run.2 :=
    feed_run_of_passes (fun _ _ checked => ⟨rfl, calm_undisturbed checked⟩)
      (show feedPasses _ calm _ _ = true by decide)
  have answered : (run.2.step exampleSha256 (.step 2 examplePick)).2 =
      .replaced exampleManifest ["file".toList] [1, 2, 3] := by decide
  have undisturbed : Undisturbed run.2 (.step 2 examplePick) :=
    calm_undisturbed (by decide)
  have intact := uploads_are_intact exampleSha256 _ _ taken
  exact ⟨answered, (intact.replaced (.step 2 examplePick, _) _ _ _ _ ⟨rfl, undisturbed⟩
    answered).2⟩

/-- A second request for the chunk opens `0.part` after the first was checked and
    before it is renamed. A third one asks for the status. -/
def overlappingEvents : List Event :=
  initEvents ++ chunkEvents ++ [.chunk 2 exampleChunk, .step 2 examplePick, .step 2 examplePick,
    .step 1 examplePick, .status 3, .step 3 examplePick]

/-- The stored chunk is empty. -/
theorem overlapping_chunks_lose_bytes : ¬ ∀ history receiver,
      Run (answers (Receiver.step exampleSha256)) .new history receiver →
      Intact exampleSha256 (answers (Receiver.step exampleSha256)) history receiver := by
  intro all
  let run := feed (Receiver.step exampleSha256) .new overlappingEvents
  have intact := all run.1 run.2 (feed_run _ _ _)
  have held : (run.2.requests.get? 3).bind (·.work.manifest) = some exampleManifest := by
    decide
  obtain ⟨request, found, manifest⟩ := Option.bind_eq_some_iff.mp held
  have stored : run.2.files.chunks.get? 0 = some 0 := by decide
  have empty : (run.2.files.content 0).length = 0 := by decide
  have sized := (intact.chunks 3 request exampleManifest 0 0 found manifest (by decide) stored).1
  exact absurd sized (by decide)

end PortHub.Transfer.Upload
