import PortHub.Api.TerminalSessions

/-! # An ended session never comes back

The end of a session is held by its marker until the database holds it. The
handover is safe because the marker outlives the update and a registration looks
at the marker first and at the record afterwards, with the lock that every end
takes. Two things get around it: the monitor of a host can be aborted while its
`finish` waits for the marker, and an end whose marker could not be written can
reach the database while a registration after a restart is already past its
read. The main result holds for all runs without these two.
-/

namespace PortHub.Api.TerminalSessions

open PortHub.Terminal Runs

/-- The steps taken so far, with what they put out. -/
abbrev History := List (Event × Output)

/-- A `finish` of the session durably recorded its marker. -/
def Recorded (history : History) (id : String) : Prop :=
  ∃ event, (event, Output.recorded id) ∈ history

/-- A marker could not be recorded, and the process was not restarted since. -/
def Faulted (history : History) : Prop :=
  ∃ before event id after, history = before ++ (event, Output.recordFailed id) :: after ∧
    ∀ label ∈ after, label.2 ≠ .crashed

/-- The database holds the session as ended. -/
def Ended (sessions : Database) (id : String) : Prop :=
  ∃ record, sessions.get? id = some record ∧ record.active = false

/-- A `finish` waits for its marker. -/
def Gateway.recording (gateway : Gateway) : Bool :=
  match gateway.current with
  | some (.finish _ _ (.recording _)) => true
  | _ => false

/-- A registration of the session has read its record and is not completed. -/
def Gateway.admitting (gateway : Gateway) (id : String) : Bool :=
  match gateway.current with
  | some (.register _ hello (.found _)) => hello.id == id
  | some (.register _ hello (.inserting _)) => hello.id == id
  | some (.register _ hello (.ready _ _)) => hello.id == id
  | _ => false

/-- No `finish` is dropped while its marker is recorded, and no end takes effect
    late between the read and the completion of a registration. -/
structure Undisturbed (gateway : Gateway) (event : Event) : Prop where
  recording : ∀ ticket, event = .drop ticket → gateway.recording = false
  landing : ∀ ticket id overtaken, event = .land ticket →
    gateway.late.get? ticket = some ⟨.finish id, overtaken⟩ → gateway.admitting id = false

section History

variable {history : History} {label : Event × Output} {id : String}

theorem Recorded.mono (recorded : Recorded history id) (label : Event × Output) :
    Recorded (history ++ [label]) id := by
  obtain ⟨event, member⟩ := recorded
  exact ⟨event, List.mem_append_left _ member⟩

theorem recorded_append (recorded : Recorded (history ++ [label]) id) :
    Recorded history id ∨ label.2 = .recorded id :=
  output_append recorded

theorem faulted_append (faulted : Faulted (history ++ [label])) :
    (Faulted history ∧ label.2 ≠ .crashed) ∨ ∃ id, label.2 = .recordFailed id := by
  obtain ⟨before, event, id, after, same, quiet⟩ := faulted
  rcases split_snoc same with ⟨_, rfl, _⟩ | ⟨rest, rfl, rfl⟩
  · exact .inr ⟨id, rfl⟩
  · refine .inl ⟨⟨before, event, id, rest, rfl, ?_⟩, ?_⟩
    · intro other member
      exact quiet other (List.mem_append_left _ member)
    · exact quiet _ (List.mem_append_right _ (List.mem_singleton.mpr rfl))

end History

section Database

variable {sessions : Database} {id : String}

/-- What one operation puts into the database. -/
inductive Write.Puts (sessions : Database) : Write → String → Record → Prop where
  | insert {id : String} {record} (absent : sessions.get? id = none) :
      Puts sessions (.insert id record) id record
  | upsert {id : String} (absent : sessions.get? id = none) : Puts sessions (.finish id) id .upserted
  | finish {id : String} {record} (found : sessions.get? id = some record) :
      Puts sessions (.finish id) id { record with active := false }
  | rotate {id : String} {record current rotation} (found : sessions.get? id = some record)
      (allowed : record.invitationRevision = some current ∨ record.invitationRevision = none) :
      Puts sessions (.rotate id current rotation) id (record.rotate rotation)
  | revoke {id : String} {record} (found : sessions.get? id = some record) :
      Puts sessions (.revoke id) id { record with invitationsRevoked := true }

theorem Write.apply_puts (write : Write) (sessions : Database) :
    (write.apply sessions).1 = sessions ∨ ∃ id next, write.Puts sessions id next ∧
      (write.apply sessions).1 = sessions.insert id next := by
  cases write with
  | insert id record =>
      simp only [Write.apply]
      split
      · exact .inl rfl
      · rename_i absent
        exact .inr ⟨id, record, .insert (by simpa [Dict.contains] using absent), rfl⟩
  | finish id =>
      simp only [Write.apply]
      split
      · rename_i absent
        exact .inr ⟨id, _, .upsert absent, rfl⟩
      · rename_i record found
        exact .inr ⟨id, _, .finish found, rfl⟩
  | rotate id current rotation =>
      simp only [Write.apply]
      split
      · exact .inl rfl
      · rename_i record found
        split
        · rename_i allowed
          exact .inr ⟨id, _, .rotate found allowed.2, rfl⟩
        · exact .inl rfl
  | revoke id =>
      simp only [Write.apply]
      split
      · exact .inl rfl
      · rename_i record found
        split
        · exact .inr ⟨id, _, .revoke found, rfl⟩
        · exact .inl rfl

/-- An ended session stays ended. -/
theorem Ended.apply (ended : Ended sessions id) (write : Write) :
    Ended (write.apply sessions).1 id := by
  obtain ⟨record, found, inactive⟩ := ended
  obtain same | ⟨other, next, puts, same⟩ := write.apply_puts sessions
  · rw [same]
    exact ⟨record, found, inactive⟩
  · rw [same]
    by_cases here : id = other
    · subst here
      refine ⟨next, Dict.get?_insert_self _ _ _, ?_⟩
      cases puts with
      | insert absent => cases found.symm.trans absent
      | upsert | finish => rfl
      | rotate known | revoke known =>
          obtain rfl := Option.mem_unique found known
          exact inactive
    · exact ⟨record, (Dict.get?_insert_ne _ _ here).trans found, inactive⟩

/-- Only the end of a session ends it. -/
theorem Ended.of_apply {write : Write} (ended : Ended (write.apply sessions).1 id)
    (active : ∀ other record, write = .insert other record → record.active = true) :
    Ended sessions id ∨ write = .finish id := by
  obtain ⟨record, found, inactive⟩ := ended
  obtain same | ⟨other, next, puts, same⟩ := write.apply_puts sessions
  · exact .inl ⟨record, same ▸ found, inactive⟩
  · rw [same] at found
    rcases Dict.get?_of_insert found with ⟨rfl, rfl⟩ | ⟨_, kept⟩
    · cases puts with
      | insert =>
          rw [active _ _ rfl] at inactive
          cases inactive
      | upsert | finish => exact .inr rfl
      | rotate known | revoke known => exact .inl ⟨_, known, inactive⟩
    · exact .inl ⟨record, kept, inactive⟩

theorem ended_finish (sessions : Database) (id : String) :
    Ended ((Write.finish id).apply sessions).1 id := by
  simp only [Write.apply]
  split
  · exact ⟨_, Dict.get?_insert_self _ _ _, rfl⟩
  · exact ⟨_, Dict.get?_insert_self _ _ _, rfl⟩

end Database

/-- What a registration checks about the record that it found. -/
theorem admits_checks {digest : String → String} {record : Record} {machine hello persisted}
    (admits : record.admits digest machine hello = .ok persisted) :
    record.persisted = .ok persisted ∧ record.active = true ∧
      record.writeHash = digest hello.writeToken ∧ record.readHash = digest hello.readToken := by
  unfold Record.admits at admits
  cases stored : record.persisted with
  | error message =>
      rw [stored] at admits
      cases admits
  | ok state =>
      rw [stored] at admits
      cases options : record.options with
      | none =>
          rw [options] at admits
          cases admits
      | some options' =>
          rw [options] at admits
          simp only [ensure] at admits
          split at admits
          · rename_i checks
            simp only [Bool.and_eq_true, beq_iff_eq] at checks
            obtain ⟨⟨⟨⟨_, write⟩, read⟩, active⟩, _⟩ := checks
            obtain rfl : state = persisted := Except.ok.inj admits
            exact ⟨rfl, active, write, read⟩
          · cases admits

/-! ## The invariant -/

/-- Inserted records are active. -/
def Write.Fresh (write : Write) : Prop :=
  ∀ id record, write = .insert id record → record.active = true

/-- The session has not ended. -/
structure Clear (history : History) (sessions : Database) (id : String) : Prop where
  unrecorded : ¬ Recorded history id
  unended : ¬ Ended sessions id

/-- What the work that holds the lock has established. -/
def Fits (history : History) (sessions : Database) (fault : Bool) : Option Work → Prop
  | some (.register _ _ .admitted) => fault = false
  | some (.register _ hello .cleared) =>
      fault = false ∧ (Recorded history hello.id → Ended sessions hello.id)
  | some (.register _ hello (.found record)) =>
      fault = false ∧
        ((∀ known, record = some known → known.active = true) → Clear history sessions hello.id)
  | some (.register _ hello (.inserting record)) =>
      fault = false ∧ record.active = true ∧ Clear history sessions hello.id
  | some (.register _ hello (.ready _ _)) => fault = false ∧ Clear history sessions hello.id
  | some (.finish id _ .updated) => Ended sessions id
  | _ => True

/-- A job that records is awaited until it is done; one that removes has an
    ended session. -/
structure Job.Fits (gateway : Gateway) (number : Nat) (job : Job) : Prop where
  awaited : job.records = true → (∀ ok, job.stage ≠ .done ok) →
    ∃ reason, gateway.current = some (.finish job.id reason (.recording number))
  created : job.records = true → job.stage = .created →
    gateway.markers.contains job.id = true ∨ Ended gateway.sessions job.id
  removes : job.records = false → Ended gateway.sessions job.id

/-- The failure of a record is known, or its `finish` is about to learn it. -/
def Gateway.Closed (gateway : Gateway) : Prop :=
  gateway.fault = true ∨ ∃ id reason number owner,
    gateway.current = some (.finish id reason (.recording number)) ∧
      gateway.jobs.get? number = some ⟨true, owner, .done false⟩

structure Sound (history : History) (gateway : Gateway) : Prop where
  kept : ∀ id, Recorded history id →
    Ended gateway.sessions id ∨ gateway.markers.get? id = some true
  jobs : ∀ number job, gateway.jobs.get? number = some job → job.Fits gateway number
  late : ∀ ticket late, gateway.late.get? ticket = some late → late.write.Fresh
  fits : Fits history gateway.sessions gateway.fault gateway.current
  faulted : Faulted history → gateway.Closed

theorem sound_new : Sound [] Gateway.new where
  kept id recorded := by
    obtain ⟨event, member⟩ := recorded
    cases member
  jobs number job found := by cases found
  late ticket late found := by cases found
  fits := trivial
  faulted faulted := by
    obtain ⟨before, event, id, after, same, _⟩ := faulted
    cases before <;> cases same

/-- A marker was neither recorded nor failed to be. -/
def Output.quiet : Output → Bool
  | .recorded _ | .recordFailed _ => false
  | _ => true

def Quiet (label : Event × Output) : Prop := label.2.quiet = true

variable {label : Event × Output}

theorem Quiet.recorded (quiet : Quiet label) (id : String) :
    label.2 ≠ .recorded id := by
  intro same
  rw [Quiet, same] at quiet
  cases quiet

theorem Quiet.failed (quiet : Quiet label) (id : String) :
    label.2 ≠ .recordFailed id := by
  intro same
  rw [Quiet, same] at quiet
  cases quiet

theorem contains_insert {markers : Dict String Bool} {id other synced}
    (there : markers.contains id = true) : (markers.insert other synced).contains id = true := by
  by_cases same : id = other
  · exact Dict.contains_iff.mpr ⟨synced, same ▸ Dict.get?_insert_self _ _ _⟩
  · obtain ⟨before, found⟩ := Dict.contains_iff.mp there
    exact Dict.contains_iff.mpr ⟨before, (Dict.get?_insert_ne _ _ same).trans found⟩

section Steps

variable {history : History} {gateway : Gateway} {label : Event × Output} {id : String}
  {sessions : Database}

theorem Quiet.recorded_iff (quiet : Quiet label) :
    Recorded (history ++ [label]) id ↔ Recorded history id := by
  constructor
  · intro recorded
    exact (recorded_append recorded).resolve_right (quiet.recorded id)
  · intro recorded
    exact recorded.mono label

theorem Quiet.clear (quiet : Quiet label) (clear : Clear history sessions id) :
    Clear (history ++ [label]) sessions id :=
  ⟨fun recorded => clear.unrecorded (quiet.recorded_iff.mp recorded), clear.unended⟩

theorem Quiet.fits (quiet : Quiet label) {fault work} (fits : Fits history sessions fault work) :
    Fits (history ++ [label]) sessions fault work := by
  unfold Fits at fits ⊢
  split
  · exact fits
  · exact ⟨fits.1, fun recorded => fits.2 (quiet.recorded_iff.mp recorded)⟩
  · exact ⟨fits.1, fun active => quiet.clear (fits.2 active)⟩
  · exact ⟨fits.1, fits.2.1, quiet.clear fits.2.2⟩
  · exact ⟨fits.1, quiet.clear fits.2⟩
  · exact fits
  · trivial

/-- A quiet label changes nothing about what was recorded. -/
theorem Sound.quiet (sound : Sound history gateway) (quiet : Quiet label) :
    Sound (history ++ [label]) gateway where
  kept id recorded := sound.kept id (quiet.recorded_iff.mp recorded)
  __ := sound
  fits := quiet.fits sound.fits
  faulted faulted := by
    rcases faulted_append faulted with ⟨before, _⟩ | ⟨id, here⟩
    · exact sound.faulted before
    · exact absurd here (quiet.failed id)

/-- The hub, the hosts and what was scanned do not matter. -/
theorem Sound.elsewhere (sound : Sound history gateway) (hub : Hub.System) (hosts : Dict Nat Host)
    (pending : List String) : Sound history { gateway with hub, hosts, pending } where
  __ := sound
  jobs number job found := by
    have fits := sound.jobs number job found
    exact ⟨fits.awaited, fits.created, fits.removes⟩

theorem recording_eq_true {id reason number}
    (current : gateway.current = some (.finish id reason (.recording number))) :
    gateway.recording = true := by
  simp only [Gateway.recording, current]

section

variable (sound : Sound history gateway) (idle : gateway.recording = false)

include sound idle

/-- Work that waits for no marker is replaced. -/
theorem Sound.replace {work}
    (fits : Fits history gateway.sessions gateway.fault work) :
    Sound history { gateway with current := work } where
  __ := sound
  jobs number job found := by
    have before := sound.jobs number job found
    refine ⟨fun records pending => ?_, before.created, before.removes⟩
    obtain ⟨reason, current⟩ := before.awaited records pending
    rw [recording_eq_true current] at idle
    cases idle
  fits := fits
  faulted faulted := by
    rcases sound.faulted faulted with fault | ⟨id, reason, number, owner, current, _⟩
    · exact .inl fault
    · rw [recording_eq_true current] at idle
      cases idle

theorem Sound.go {work}
    (fits : Fits history gateway.sessions gateway.fault (some work)) :
    Sound history (gateway.go work) :=
  sound.replace idle fits

theorem Sound.stop : Sound history gateway.stop :=
  sound.replace idle trivial

end

theorem Clear.apply {write : Write} (clear : Clear history sessions id) (fresh : write.Fresh)
    (other : write ≠ .finish id) :
    Clear history (write.apply sessions).1 id :=
  ⟨clear.unrecorded, fun ended => (ended.of_apply fresh).elim clear.unended other⟩

/-- An operation on the database keeps what the work has established, unless it
    ends the session that is registered. -/
theorem Fits.apply {fault} {write : Write}
    (fits : Fits history gateway.sessions fault gateway.current) (fresh : write.Fresh)
    (other : ∀ id, write = .finish id → gateway.admitting id = false) :
    Fits history (write.apply gateway.sessions).1 fault gateway.current := by
  have admitting {id : String} (busy : gateway.admitting id = true) : write ≠ .finish id := by
    intro same
    rw [other id same] at busy
    cases busy
  generalize current : gateway.current = work at fits
  unfold Fits at fits ⊢
  split
  · exact fits
  · exact ⟨fits.1, fun recorded => (fits.2 recorded).apply write⟩
  · exact ⟨fits.1, fun active => (fits.2 active).apply fresh
      (admitting (by simp [Gateway.admitting, current]))⟩
  · exact ⟨fits.1, fits.2.1, fits.2.2.apply fresh
      (admitting (by simp [Gateway.admitting, current]))⟩
  · exact ⟨fits.1, fits.2.apply fresh (admitting (by simp [Gateway.admitting, current]))⟩
  · exact Ended.apply fits write
  · trivial

theorem Sound.apply (sound : Sound history gateway) (write : Write) (fresh : write.Fresh)
    (other : ∀ id, write = .finish id → gateway.admitting id = false) :
    Sound history { gateway with sessions := (write.apply gateway.sessions).1 } where
  kept id recorded := (sound.kept id recorded).imp_left fun ended => ended.apply write
  jobs number job found := by
    have fits := sound.jobs number job found
    exact ⟨fits.awaited, fun records created =>
      (fits.created records created).imp_right fun ended => ended.apply write,
      fun removes => (fits.removes removes).apply write⟩
  __ := sound
  fits := sound.fits.apply fresh other

/-- A job is spawned for work that waits for it. -/
theorem Sound.spawn (sound : Sound history gateway) (idle : gateway.recording = false) {number}
    {job : Job} {work} (fits : Fits history gateway.sessions gateway.fault (some work))
    (started : job.Fits { gateway with current := some work } number) :
    Sound history (gateway.spawn number job work).1 := by
  unfold Gateway.spawn
  split
  · exact sound
  · have moved : Sound history { gateway with current := some work } := sound.replace idle fits
    refine ⟨moved.kept, fun other job' found => ?_, moved.late, moved.fits, fun faulted => ?_⟩
    · rcases Dict.get?_of_insert found with ⟨rfl, rfl⟩ | ⟨_, before⟩
      · exact ⟨started.awaited, started.created, started.removes⟩
      · have fits := moved.jobs other job' before
        exact ⟨fits.awaited, fits.created, fits.removes⟩
    · rcases sound.faulted faulted with fault | ⟨id, reason, number, owner, current, _⟩
      · exact .inl fault
      · rw [recording_eq_true current] at idle
        cases idle

/-- The read of a registration leaves the operations themselves. -/
theorem late_read {ticket late} (found : (gateway.read id).late.get? ticket = some late) :
    ∃ before, gateway.late.get? ticket = some before ∧ late.write = before.write := by
  simp only [Gateway.read, Dict.get?_map, Option.map_eq_some_iff] at found
  obtain ⟨before, known, rfl⟩ := found
  refine ⟨before, known, ?_⟩
  split
  · split
    · rfl
    · rfl
  · rfl

theorem Sound.read (sound : Sound history gateway) (id : String) :
    Sound history (gateway.read id) where
  __ := sound
  jobs number job found := by
    have fits := sound.jobs number job found
    exact ⟨fits.awaited, fits.created, fits.removes⟩
  late ticket late found := by
    obtain ⟨before, known, same⟩ := late_read found
    rw [same]
    exact sound.late ticket before known

end Steps

section Work

variable (digest : String → String) (parse : String → Option Description)
variable {history : History} {gateway : Gateway} {id : String} {ok : Bool} {owner : String}
  {next : Gateway} {number : Nat} {job : Job} {label : Event × Output} {event : Event}

section

variable (sound : Sound history gateway)

include sound

theorem Sound.register {machine hello stage} (reading : Reading)
    (current : gateway.current = some (.register machine hello stage)) :
    Sound history (gateway.register digest parse machine hello reading stage).1 := by
  have idle : gateway.recording = false := by simp only [Gateway.recording, current]
  have fits := sound.fits
  rw [current] at fits
  cases stage with
  | start =>
      simp only [Gateway.register]
      split
      · exact sound.stop idle
      · split
        · exact sound.stop idle
        · rename_i open'
          exact sound.go idle (Bool.eq_false_iff.mpr open')
  | admitted =>
      simp only [Gateway.register]
      split
      · exact sound.stop idle
      · rename_i absent
        refine sound.go idle ⟨fits, fun recorded => (sound.kept _ recorded).resolve_right ?_⟩
        intro marked
        exact absent (Dict.contains_iff.mpr ⟨true, marked⟩)
  | cleared =>
      obtain ⟨admitted, cleared⟩ := fits
      refine (sound.read hello.id).go idle ⟨admitted, fun active => ?_⟩
      have unended : ¬ Ended gateway.sessions hello.id := by
        rintro ⟨record, found, inactive⟩
        rw [active record found] at inactive
        cases inactive
      exact ⟨fun recorded => unended (cleared recorded), unended⟩
  | found record =>
      obtain ⟨admitted, clear⟩ := fits
      cases record with
      | none =>
          simp only [Gateway.register]
          split
          · exact sound.stop idle
          · exact sound.go idle ⟨admitted, rfl, clear fun known same => by cases same⟩
      | some record =>
          simp only [Gateway.register]
          split
          · exact sound.stop idle
          · rename_i persisted admits
            refine sound.go idle ⟨admitted, clear fun known same => ?_⟩
            cases same
            exact (admits_checks admits).2.1
  | inserting record =>
      obtain ⟨admitted, active, clear⟩ := fits
      have fresh : (Write.insert hello.id record).Fresh := by
        intro other next same
        cases same
        exact active
      simp only [Gateway.register]
      split
      · exact sound.stop idle
      · rename_i sessions count _ inserted
        have same : sessions = ((Write.insert hello.id record).apply gateway.sessions).1 := by
          rw [inserted]
        subst same
        exact (sound.apply _ fresh (fun other same => by cases same)).go idle
          ⟨admitted, clear.apply fresh (fun same => by cases same)⟩
  | ready revoked persisted =>
      simp only [Gateway.register]
      split
      · exact (sound.stop idle).elsewhere _ _ _
      · exact (sound.stop idle).elsewhere _ _ _

/-- `finish` has seen the end of its job, so no record is under way. -/
theorem Sound.settle {reason job records}
    (current : gateway.current = some (.finish id reason (.recording job)))
    (done : gateway.jobs.get? job = some ⟨records, owner, .done ok⟩)
    (sessions : next.sessions = gateway.sessions) (markers : next.markers = gateway.markers)
    (jobs : next.jobs = gateway.jobs) (late : next.late = gateway.late)
    (fault : next.fault = (gateway.fault || !ok))
    (work : next.current = some (.finish id reason .recorded)) :
    Sound history next := by
  refine ⟨?_, fun number other found => ?_, ?_, ?_, fun faulted => .inl ?_⟩
  · rw [sessions, markers]
    exact sound.kept
  · rw [jobs] at found
    have fits := sound.jobs number other found
    refine ⟨fun records pending => ?_, ?_, ?_⟩
    · -- the job would be the one that is done
      obtain ⟨reason', awaited⟩ := fits.awaited records pending
      cases current.symm.trans awaited
      cases done.symm.trans found
      exact absurd rfl (pending ok)
    · rw [sessions, markers]
      exact fits.created
    · rw [sessions]
      exact fits.removes
  · rw [late]
    exact sound.late
  · rw [work]
    trivial
  · rw [fault]
    rcases sound.faulted faulted with before | ⟨_, _, number, owner', awaited, failed⟩
    · rw [before]
      rfl
    · cases current.symm.trans awaited
      cases done.symm.trans failed
      simp

theorem Sound.finish {reason stage} (reading : Reading)
    (current : gateway.current = some (.finish id reason stage)) :
    Sound history (gateway.finish digest parse id reason reading stage).1 := by
  have idle (other : ∀ job, stage ≠ .recording job) : gateway.recording = false := by
    simp only [Gateway.recording, current]
    split
    · rename_i same
      cases same
      exact absurd rfl (other _)
    · rfl
  have fits := sound.fits
  rw [current] at fits
  cases stage with
  | start =>
      refine sound.spawn (idle nofun) trivial ⟨fun _ _ => ⟨reason, rfl⟩, ?_, ?_⟩
      · intro _ created
        cases created
      · intro removes
        cases removes
  | recording job =>
      simp only [Gateway.finish]
      split
      · rename_i records owner done
        exact sound.settle current done rfl rfl rfl rfl (Bool.or_false _).symm rfl
      · rename_i records owner done
        exact sound.settle current done rfl rfl rfl rfl (Bool.or_true _).symm rfl
      · exact sound
  | recorded =>
      have moved : Sound history (gateway.go (.finish id reason .granting)) := sound.go (idle nofun) trivial
      exact moved.elsewhere _ _ _
  | granting =>
      exact sound.go (idle nofun) trivial
  | updating =>
      have applied := sound.apply (.finish id) (fun other record same => by cases same)
        (fun other same => by simp only [Gateway.admitting, current])
      exact applied.go (idle nofun) (ended_finish gateway.sessions id)
  | updated =>
      refine sound.spawn (idle nofun) trivial ⟨?_, ?_, fun _ => fits⟩
      · intro records
        cases records
      · intro records
        cases records
  | removing job =>
      simp only [Gateway.finish]
      split
      · exact sound.stop (idle nofun)
      · exact sound

theorem Sound.rotate {host update stage} (reading : Reading)
    (current : gateway.current = some (.rotate number update stage)) :
    Sound history (gateway.rotate digest parse number host update reading stage).1 := by
  have idle : gateway.recording = false := by simp only [Gateway.recording, current]
  cases stage with
  | start =>
      simp only [Gateway.rotate]
      split
      · exact sound.go idle trivial
      · exact sound.stop idle
  | finding => exact sound.go idle trivial
  | found record =>
      simp only [Gateway.rotate]
      split
      · exact sound.stop idle
      · exact (sound.stop idle).elsewhere _ _ _
      · exact sound.go idle trivial
  | updating revision =>
      simp only [Gateway.rotate]
      split
      · exact sound.stop idle
      · rename_i sessions count _ updated
        have same : sessions = ((Write.rotate host.id revision (rotation digest update)).apply
            gateway.sessions).1 := by
          rw [updated]
        subst same
        exact (sound.apply (.rotate host.id revision (rotation digest update))
          (fun other record same => nomatch same) (fun other same => nomatch same)).go idle trivial
  | matched =>
      simp only [Gateway.rotate]
      split
      · exact (sound.stop idle).elsewhere _ _ _
      · exact (sound.stop idle).elsewhere _ _ _

theorem Sound.refuse (call : Hub.Call) :
    Sound history (gateway.refuse digest parse id call) := by
  unfold Gateway.refuse
  split
  · exact sound
  · exact sound.elsewhere _ _ _

theorem Sound.revoke {host stage} (reading : Reading)
    (current : gateway.current = some (.revoke id host stage)) :
    Sound history (gateway.revoke digest parse id host reading stage).1 := by
  have idle : gateway.recording = false := by simp only [Gateway.recording, current]
  cases stage with
  | start =>
      cases host with
      | none => exact sound.go idle trivial
      | some number =>
          simp only [Gateway.revoke]
          split
          · exact sound.stop idle
          · split
            · exact sound.go idle trivial
            · exact sound.stop idle
  | updating =>
      simp only [Gateway.revoke]
      split
      · exact sound.stop idle
      · rename_i sessions count _ updated
        have same : sessions = ((Write.revoke id).apply gateway.sessions).1 := by
          rw [updated]
        subst same
        exact (sound.apply (.revoke id) (fun other record same => by cases same)
          (fun other same => by cases same)).go idle trivial
  | matched revision =>
      have refused : Sound history (gateway.refuse digest parse id reading.call).stop := by
        refine Sound.stop (sound.refuse digest parse reading.call) ?_
        unfold Gateway.refuse
        split
        · exact idle
        · exact idle
      simp only [Gateway.revoke]
      split
      · exact refused
      · exact refused.elsewhere _ _ _

theorem Sound.advance (reading : Reading) :
    Sound history (gateway.advance digest parse reading).1 := by
  unfold Gateway.advance
  split
  · exact sound
  · rename_i current
    exact sound.register digest parse reading current
  · rename_i current
    exact sound.finish digest parse reading current
  · rename_i current
    split
    · refine sound.stop ?_
      simp only [Gateway.recording, current]
    · exact sound.rotate digest parse reading current
  · rename_i current
    exact sound.revoke digest parse reading current

/-- A job makes a step on the journal. -/
theorem Sound.progress {markers : Dict String Bool}
    (kept : ∀ id, Recorded (history ++ [label]) id →
      Ended gateway.sessions id ∨ markers.get? id = some true)
    (marked : ∀ id, gateway.markers.contains id = true →
      markers.contains id = true ∨ Ended gateway.sessions id)
    (next : job.Fits { gateway with markers } number)
    (fits : Fits (history ++ [label]) gateway.sessions gateway.fault gateway.current)
    (closed : Faulted (history ++ [label]) →
      { gateway with markers, jobs := gateway.jobs.insert number job }.Closed) :
    Sound (history ++ [label]) { gateway with
      markers, jobs := gateway.jobs.insert number job } where
  kept := kept
  jobs other job' found := by
    rcases Dict.get?_of_insert found with ⟨rfl, rfl⟩ | ⟨_, before⟩
    · exact ⟨next.awaited, next.created, next.removes⟩
    · have fits := sound.jobs other job' before
      refine ⟨fits.awaited, fun records created => ?_, fits.removes⟩
      rcases fits.created records created with there | ended
      · exact marked _ there
      · exact .inr ended
  late := sound.late
  fits := fits
  faulted := closed

/-- Markers are made by recording jobs. -/
theorem Sound.record {stage}
    (found : gateway.jobs.get? number = some ⟨true, owner, stage⟩) :
    Sound (history ++ [(event, (gateway.work number ⟨true, owner, stage⟩ ok).2)])
      (gateway.work number ⟨true, owner, stage⟩ ok).1 := by
  have before := sound.jobs number _ found
  have open' (pending : ∀ ok, stage ≠ .done ok) :
      (∃ reason, gateway.current = some (.finish owner reason (.recording number))) ∧
        (Faulted history → gateway.fault = true) := by
    obtain ⟨reason, current⟩ := before.awaited rfl pending
    refine ⟨⟨reason, current⟩, fun faulted => ?_⟩
    rcases sound.faulted faulted with fault | ⟨_, _, other, _, awaited, failed⟩
    · exact fault
    · cases current.symm.trans awaited
      cases found.symm.trans failed
      exact absurd rfl (pending false)
  -- a failure is seen by the `finish` that waits for the job
  have failing (pending : ∀ ok, stage ≠ .done ok) :
      Sound (history ++ [(event, Output.recordFailed owner)]) { gateway with
        jobs := gateway.jobs.insert number ⟨true, owner, .done false⟩ } := by
    obtain ⟨⟨reason, current⟩, _⟩ := open' pending
    refine sound.progress (fun id recorded => ?_) (fun _ there => .inl there) ?_ ?_ (fun _ => ?_)
    · rcases recorded_append recorded with earlier | here
      · exact sound.kept id earlier
      · cases here
    · exact ⟨fun _ pending => absurd rfl (pending false), fun _ created => (by cases created),
        fun removes => (by cases removes)⟩
    · rw [current]
      trivial
    · exact .inr ⟨owner, reason, number, owner, current, Dict.get?_insert_self _ _ _⟩
  cases stage with
  | queued =>
      obtain ⟨⟨reason, current⟩, fault⟩ := open' fun ok same => by cases same
      simp only [Gateway.work]
      split
      · refine sound.progress (fun id recorded => ?_) (fun id there => .inl ?_) ?_ ?_ (fun faulted => ?_)
        · have earlier := (recorded_append recorded).resolve_right (fun same => by cases same)
          refine (sound.kept id earlier).imp_right fun marked => ?_
          split
          · exact marked
          · rename_i absent
            refine (Dict.get?_insert_ne _ _ ?_).trans marked
            rintro rfl
            exact absent (Dict.contains_iff.mpr ⟨true, marked⟩)
        · split
          · exact there
          · exact contains_insert there
        · refine ⟨fun _ _ => ⟨reason, current⟩, fun _ _ => .inl ?_, fun removes => (by cases removes)⟩
          split
          · assumption
          · exact Dict.contains_iff.mpr ⟨false, Dict.get?_insert_self _ _ _⟩
        · rw [current]
          trivial
        · rcases faulted_append faulted with ⟨earlier, _⟩ | ⟨id, here⟩
          · exact .inl (fault earlier)
          · cases here
      · exact failing fun ok same => by cases same
  | created =>
      obtain ⟨⟨reason, current⟩, fault⟩ := open' fun ok same => by cases same
      simp only [Gateway.work]
      split
      · refine sound.progress (fun id recorded => ?_) (fun id there => .inl ?_) ?_ ?_ (fun faulted => ?_)
        · by_cases same : id = owner
          · subst same
            split
            · exact .inr (Dict.get?_insert_self _ _ _)
            · rename_i absent
              exact .inl ((before.created rfl rfl).resolve_left absent)
          · have earlier := (recorded_append recorded).resolve_right
              (fun here => same (Output.recorded.inj here).symm)
            refine (sound.kept id earlier).imp_right fun marked => ?_
            split
            · exact (Dict.get?_insert_ne _ _ same).trans marked
            · exact marked
        · split
          · exact contains_insert there
          · exact there
        · exact ⟨fun _ pending => absurd rfl (pending true), fun _ created => (by cases created),
            fun removes => (by cases removes)⟩
        · rw [current]
          trivial
        · rcases faulted_append faulted with ⟨earlier, _⟩ | ⟨id, here⟩
          · exact .inl (fault earlier)
          · cases here
      · exact failing fun ok same => by cases same
  | done result => exact sound.quiet rfl

/-- Markers are taken when the database holds the end. -/
theorem Sound.unmark {stage}
    (found : gateway.jobs.get? number = some ⟨false, owner, stage⟩) :
    Sound (history ++ [(event, (gateway.work number ⟨false, owner, stage⟩ ok).2)])
      (gateway.work number ⟨false, owner, stage⟩ ok).1 := by
  have ended : Ended gateway.sessions owner := (sound.jobs number _ found).removes rfl
  have fits (result : Bool) (markers : Dict String Bool) :
      Job.Fits { gateway with markers } number ⟨false, owner, .done result⟩ :=
    ⟨fun records => (nomatch records), fun records => (nomatch records), fun _ => ended⟩
  have closed (result : Bool) (markers : Dict String Bool)
      (shut : gateway.Closed) : { gateway with
        markers, jobs := gateway.jobs.insert number ⟨false, owner, .done result⟩ }.Closed := by
    rcases shut with fault | ⟨id, reason, other, owner', current, failed⟩
    · exact .inl fault
    · refine .inr ⟨id, reason, other, owner', current, (Dict.get?_insert_ne _ _ ?_).trans failed⟩
      rintro rfl
      cases found.symm.trans failed
  cases stage with
  | queued =>
      simp only [Gateway.work]
      split
      · have steady : Sound (history ++ [(event, .removed owner)]) gateway := sound.quiet rfl
        refine sound.progress (fun id recorded => ?_) (fun id there => ?_) (fits true _) steady.fits
          (fun faulted => closed true _ (steady.faulted faulted))
        · by_cases same : id = owner
          · exact .inl (same ▸ ended)
          · refine (steady.kept id recorded).imp_right fun marked => ?_
            exact (Dict.get?_erase_ne _ same).trans marked
        · by_cases same : id = owner
          · exact .inr (same ▸ ended)
          · obtain ⟨synced, marked⟩ := Dict.contains_iff.mp there
            exact .inl (Dict.contains_iff.mpr ⟨synced, (Dict.get?_erase_ne _ same).trans marked⟩)
      · have steady : Sound (history ++ [(event, .done)]) gateway := sound.quiet rfl
        exact sound.progress steady.kept (fun _ there => .inl there) (fits false _) steady.fits
          (fun faulted => closed false _ (steady.faulted faulted))
  | created => exact sound.quiet rfl
  | done result => exact sound.quiet rfl

theorem Sound.work (found : gateway.jobs.get? number = some job) :
    Sound (history ++ [(event, (gateway.work number job ok).2)]) (gateway.work number job ok).1 := by
  obtain ⟨records, owner, stage⟩ := job
  cases records with
  | true => exact sound.record found
  | false => exact sound.unmark found

/-- The operation of the current work is as good as any other. -/
theorem Sound.inFlight {write}
    (flying : gateway.inFlight digest = some write) : write.Fresh := by
  have fits := sound.fits
  intro other record same
  subst same
  unfold Gateway.inFlight at flying
  split at flying
  · rw [Option.map_eq_some_iff] at flying
    obtain ⟨host, _, same⟩ := flying
    cases same
  · unfold Gateway.awaited at flying
    split at flying
    · rename_i current
      cases flying
      rw [current] at fits
      exact fits.2.1
    · cases flying
    · cases flying
    · cases flying

theorem Sound.late_dropped {ticket other late}
    (found : (gateway.dropped digest ticket).late.get? other = some late) : late.write.Fresh := by
  unfold Gateway.dropped at found
  split at found
  · exact sound.late other late found
  · rename_i write flying
    split at found
    · exact sound.late other late found
    · rcases Dict.get?_of_insert found with ⟨_, rfl⟩ | ⟨_, before⟩
      · exact sound.inFlight digest flying
      · exact sound.late other late before

theorem Sound.dropped (idle : gateway.recording = false)
    (ticket : Nat) : Sound history (gateway.dropped digest ticket) := by
  unfold Gateway.dropped
  split
  · exact sound.stop idle
  · rename_i write flying
    split
    · exact sound
    · have stopped := sound.stop idle
      refine ⟨stopped.kept, fun number job found => ?_, fun other late found => ?_, trivial,
        stopped.faulted⟩
      · have fits := stopped.jobs number job found
        exact ⟨fits.awaited, fits.created, fits.removes⟩
      · rcases Dict.get?_of_insert found with ⟨_, rfl⟩ | ⟨_, before⟩
        · exact sound.inFlight digest flying
        · exact sound.late other late before

end

/-- The work that holds the lock leaves the journal to its jobs. -/
theorem advance_journal (reading : Reading) :
    (gateway.advance digest parse reading).2.quiet = true ∧
      (gateway.advance digest parse reading).1.markers = gateway.markers := by
  unfold Gateway.advance
  split
  · exact ⟨rfl, rfl⟩
  · unfold Gateway.register
    repeat' split
    all_goals exact ⟨rfl, rfl⟩
  · unfold Gateway.finish Gateway.spawn
    repeat' split
    all_goals exact ⟨rfl, rfl⟩
  · unfold Gateway.rotate
    repeat' split
    all_goals exact ⟨rfl, rfl⟩
  · unfold Gateway.revoke
    have refused : (gateway.refuse digest parse ‹String› reading.call).markers = gateway.markers := by
      unfold Gateway.refuse
      split <;> rfl
    repeat' split
    all_goals first
      | exact ⟨rfl, rfl⟩
      | dsimp only
        split <;> exact ⟨rfl, refused⟩

theorem Sound.occupy {work : Host → Work} (sound : Sound history gateway)
    (idle : gateway.recording = false)
    (fits : ∀ host, Fits history gateway.sessions gateway.fault (some (work host))) :
    Sound history (gateway.occupy number work).1 := by
  unfold Gateway.occupy
  split
  · exact sound
  · split
    · exact (sound.replace idle (fits _)).elsewhere _ _ _
    · exact sound

theorem occupy_quiet {work : Host → Work} :
    (gateway.occupy number work).2.quiet = true := by
  unfold Gateway.occupy
  repeat' split
  all_goals rfl

/-- After a crash there is the database, what is in flight to it, and the
    markers that were synced. -/
theorem Sound.crash {ticket} (sound : Sound history gateway) (keep : List String)
    (sessions : next.sessions = gateway.sessions)
    (late : next.late = (gateway.dropped digest ticket).late)
    (markers : next.markers = gateway.markers.retain fun id synced => synced || keep.contains id)
    (jobs : next.jobs = .empty) (current : next.current = none) :
    Sound (history ++ [(event, .crashed)]) next where
  kept id recorded := by
    rw [sessions, markers]
    have earlier := (recorded_append recorded).resolve_right (fun same => nomatch same)
    refine (sound.kept id earlier).imp_right fun marked => ?_
    exact Dict.get?_retain_eq_some.mpr ⟨marked, Bool.true_or _⟩
  jobs number job found := by
    rw [jobs] at found
    cases found
  late other write found := by
    rw [late] at found
    exact sound.late_dropped digest found
  fits := by
    rw [current]
    trivial
  faulted faulted := by
    rcases faulted_append faulted with ⟨_, alive⟩ | ⟨id, here⟩
    · exact absurd rfl alive
    · cases here

theorem sessions_dropped (ticket : Nat) :
    (gateway.dropped digest ticket).sessions = gateway.sessions := by
  unfold Gateway.dropped
  split
  · rfl
  · split
    · rfl
    · rfl

theorem markers_dropped (ticket : Nat) :
    (gateway.dropped digest ticket).markers = gateway.markers := by
  unfold Gateway.dropped
  split
  · rfl
  · split
    · rfl
    · rfl

theorem recording_of_idle (idle : ¬ gateway.current.isSome = true) : gateway.recording = false := by
  simp only [Bool.not_eq_true, Option.isSome_eq_false_iff, Option.isNone_iff_eq_none] at idle
  simp only [Gateway.recording, idle]

/-- The steps of the gateway that meet the condition. -/
def Taken (gateway : Gateway) (label : Event × Output) (next : Gateway) : Prop :=
  answers (Gateway.step digest parse) gateway label next ∧ Undisturbed gateway label.1

theorem Sound.step {label next} (sound : Sound history gateway)
    (taken : Taken digest parse gateway label next) : Sound (history ++ [label]) next := by
  obtain ⟨event, output⟩ := label
  obtain ⟨answered, undisturbed⟩ := taken
  have state : (gateway.step digest parse event).1 = next := congrArg Prod.fst answered
  have put : (gateway.step digest parse event).2 = output := congrArg Prod.snd answered
  subst state put
  dsimp only at undisturbed ⊢
  cases event with
  | register machine hello | finish id reason =>
      simp only [Gateway.step]
      split
      · exact sound.quiet rfl
      · rename_i idle
        exact Sound.quiet (sound.go (recording_of_idle idle) trivial) rfl
  | scan ids | hub op call =>
      simp only [Gateway.step]
      split
      · exact (sound.elsewhere _ _ _).quiet rfl
      · exact sound.quiet rfl
  | reconcile id =>
      simp only [Gateway.step]
      split
      · exact sound.quiet rfl
      · rename_i idle
        simp only [Bool.or_eq_true, not_or] at idle
        exact Sound.quiet (sound.go (recording_of_idle idle.1) trivial) rfl
  | rotate host update =>
      simp only [Gateway.step]
      split
      · exact sound.quiet rfl
      · rename_i idle
        exact Sound.quiet (sound.occupy (recording_of_idle idle) fun _ => trivial) occupy_quiet
  | revoke id host =>
      cases host with
      | none =>
          simp only [Gateway.step]
          split
          · exact sound.quiet rfl
          · rename_i idle
            exact Sound.quiet (sound.go (recording_of_idle idle) trivial) rfl
      | some host =>
          simp only [Gateway.step]
          split
          · exact sound.quiet rfl
          · rename_i idle
            exact Sound.quiet (sound.occupy (recording_of_idle idle) fun _ => trivial) occupy_quiet
  | advance reading =>
      exact (sound.advance digest parse reading).quiet (advance_journal digest parse reading).1
  | fail =>
      simp only [Gateway.step]
      split
      · exact sound.quiet rfl
      · rename_i other
        refine (sound.stop ?_).quiet rfl
        simp only [Gateway.recording]
  | drop ticket =>
      exact (sound.dropped digest (undisturbed.recording ticket rfl) ticket).quiet rfl
  | work number ok =>
      simp only [Gateway.step]
      split
      · exact sound.quiet rfl
      · rename_i job found
        exact sound.work found
  | land ticket =>
      simp only [Gateway.step]
      split
      · exact sound.quiet rfl
      · rename_i late found
        have applied := sound.apply late.write (sound.late ticket late found) fun id same =>
          undisturbed.landing ticket id late.overtaken rfl (by rw [found, ← same])
        refine Sound.quiet ?_ rfl
        refine ⟨applied.kept, fun number job there => ?_, fun other late' there => ?_, applied.fits,
          applied.faulted⟩
        · have fits := applied.jobs number job there
          exact ⟨fits.awaited, fits.created, fits.removes⟩
        · exact applied.late other late' (gateway.late.erase_sub ticket _ _ there)
  | close number =>
      simp only [Gateway.step]
      split
      · exact sound.quiet rfl
      · exact (sound.elsewhere _ _ _).quiet rfl
  | crash ticket keep =>
      refine sound.crash digest keep (sessions_dropped digest ticket) rfl ?_ rfl rfl
      simp only [Gateway.step, markers_dropped]

theorem sound_run (run : Run (Taken digest parse) Gateway.new history next) : Sound history next :=
  run.historyInvariant sound_new fun _ _ _ _ _ sound taken => sound.step digest parse taken

/-- Sessions are registered at the end of a registration only. -/
theorem registered_advance {reading}
    (put : (gateway.advance digest parse reading).2 = .registered id) :
    ∃ machine hello revoked persisted, hello.id = id ∧
      gateway.current = some (.register machine hello (.ready revoked persisted)) := by
  unfold Gateway.advance at put
  split at put
  · cases put
  · rename_i machine hello stage current
    cases stage with
    | ready revoked persisted =>
        refine ⟨machine, hello, revoked, persisted, ?_, current⟩
        simp only [Gateway.register] at put
        split at put
        · exact Output.registered.inj put
        · cases put
    | cleared => cases put
    | found record =>
        cases record with
        | none | some record =>
            simp only [Gateway.register] at put
            split at put <;> cases put
    | _ =>
        simp only [Gateway.register] at put
        repeat' split at put
        all_goals cases put
  · unfold Gateway.finish Gateway.spawn at put
    repeat' split at put
    all_goals cases put
  · unfold Gateway.rotate at put
    repeat' split at put
    all_goals cases put
  · unfold Gateway.revoke at put
    repeat' split at put
    all_goals first
      | cases put
      | dsimp only at put
        split at put <;> cases put

theorem registered_step
    (answered : answers (Gateway.step digest parse) gateway (event, .registered id) next) :
    ∃ machine hello revoked persisted, hello.id = id ∧
      gateway.current = some (.register machine hello (.ready revoked persisted)) := by
  have put : (gateway.step digest parse event).2 = .registered id := congrArg Prod.snd answered
  cases event with
  | advance reading => exact registered_advance digest parse put
  | rotate host update =>
      simp only [Gateway.step, Gateway.occupy] at put
      repeat' split at put
      all_goals cases put
  | revoke owner host =>
      cases host with
      | none =>
          simp only [Gateway.step] at put
          split at put <;> cases put
      | some host =>
          simp only [Gateway.step, Gateway.occupy] at put
          repeat' split at put
          all_goals cases put
  | work number ok =>
      simp only [Gateway.step, Gateway.work] at put
      repeat' split at put
      all_goals cases put
  | drop ticket => cases put
  | crash ticket keep => cases put
  | _ =>
      simp only [Gateway.step] at put
      split at put <;> cases put

/-- A job takes a marker only to remove it. -/
theorem marker_work (there : gateway.markers.contains id = true)
    (gone : (gateway.work number job ok).1.markers.contains id = false) :
    job = ⟨false, id, .queued⟩ := by
  obtain ⟨records, owner, stage⟩ := job
  have absurd' (still : gateway.markers.contains id = false) : False := by
    cases there.symm.trans still
  cases records with
  | true =>
      cases stage with
      | queued =>
          simp only [Gateway.work] at gone
          split at gone
          · split at gone
            · exact (absurd' gone).elim
            · rw [contains_insert there] at gone
              cases gone
          · exact (absurd' gone).elim
      | created =>
          simp only [Gateway.work] at gone
          split at gone
          · split at gone
            · rw [contains_insert there] at gone
              cases gone
            · exact (absurd' gone).elim
          · exact (absurd' gone).elim
      | done result => exact (absurd' gone).elim
  | false =>
      cases stage with
      | queued =>
          simp only [Gateway.work] at gone
          split at gone
          · by_cases same : id = owner
            · rw [same]
            · simp only [Dict.contains, Dict.get?_erase_ne _ same] at gone
              exact (absurd' gone).elim
          · exact (absurd' gone).elim
      | created | done result => exact (absurd' gone).elim

/-- Markers are taken by removing jobs and by crashes. -/
theorem marker_step (answered : answers (Gateway.step digest parse) gateway label next)
    (there : gateway.markers.contains id = true) (gone : next.markers.contains id = false) :
    (∃ number, gateway.jobs.get? number = some ⟨false, id, .queued⟩) ∨
      (label.2 = .crashed ∧ gateway.markers.get? id = some false) := by
  obtain ⟨event, output⟩ := label
  have state : (gateway.step digest parse event).1 = next := congrArg Prod.fst answered
  have put : (gateway.step digest parse event).2 = output := congrArg Prod.snd answered
  subst state put
  have steady (same : (gateway.step digest parse event).1.markers = gateway.markers) : False := by
    rw [same, there] at gone
    cases gone
  cases event with
  | advance reading => exact (steady (advance_journal digest parse reading).2).elim
  | work number ok =>
      simp only [Gateway.step] at gone
      split at gone
      · cases there.symm.trans gone
      · rename_i job found
        obtain rfl := marker_work there gone
        exact .inl ⟨number, found⟩
  | crash ticket keep =>
      refine .inr ⟨rfl, ?_⟩
      obtain ⟨synced, marked⟩ := Dict.contains_iff.mp there
      cases synced with
      | false => exact marked
      | true =>
          have still : (gateway.markers.retain fun id synced => synced || keep.contains id).get? id =
              some true := Dict.get?_retain_eq_some.mpr ⟨marked, Bool.true_or _⟩
          simp only [Gateway.step, markers_dropped] at gone
          rw [Dict.contains, still] at gone
          cases gone
  | drop ticket => exact (steady (markers_dropped digest ticket)).elim
  | rotate host update =>
      refine (steady ?_).elim
      simp only [Gateway.step, Gateway.occupy]
      repeat' split
      all_goals rfl
  | revoke owner host =>
      refine (steady ?_).elim
      cases host with
      | none =>
          simp only [Gateway.step]
          split <;> rfl
      | some host =>
          simp only [Gateway.step, Gateway.occupy]
          repeat' split
          all_goals rfl
  | _ =>
      refine (steady ?_).elim
      simp only [Gateway.step]
      split <;> rfl

/-- The database is changed by the operation that is awaited, or by one that was
    cut off. -/
def Altered (gateway : Gateway) (after : Database) : Prop :=
  after = gateway.sessions ∨ ∃ write : Write, after = (write.apply gateway.sessions).1 ∧
    (gateway.inFlight digest = some write ∨
      ∃ ticket overtaken, gateway.late.get? ticket = some ⟨write, overtaken⟩)

theorem altered_advance (reading : Reading) :
    Altered digest gateway (gateway.advance digest parse reading).1.sessions := by
  unfold Gateway.advance
  split
  · exact .inl rfl
  · rename_i machine hello stage current
    cases stage with
    | inserting record =>
        simp only [Gateway.register]
        split
        · exact .inl rfl
        · rename_i inserted
          refine .inr ⟨.insert hello.id record, by rw [inserted]; rfl, .inl ?_⟩
          simp only [Gateway.inFlight, current, Gateway.awaited]
    | cleared => exact .inl rfl
    | found record =>
        refine .inl ?_
        cases record with
        | none | some record =>
            simp only [Gateway.register]
            split <;> rfl
    | _ =>
        refine .inl ?_
        simp only [Gateway.register]
        repeat' split
        all_goals rfl
  · rename_i id reason stage current
    cases stage with
    | updating =>
        refine .inr ⟨.finish id, rfl, .inl ?_⟩
        simp only [Gateway.inFlight, current, Gateway.awaited]
    | recorded => exact .inl rfl
    | granting => exact .inl rfl
    | _ =>
        refine .inl ?_
        simp only [Gateway.finish, Gateway.spawn]
        split <;> rfl
  · rename_i number update stage current
    split
    · exact .inl rfl
    · rename_i host found
      cases stage with
      | updating revision =>
          simp only [Gateway.rotate]
          split
          · exact .inl rfl
          · rename_i updated
            refine .inr ⟨.rotate host.id revision (rotation digest update), by rw [updated]; rfl,
              .inl ?_⟩
            simp only [Gateway.inFlight, current, found, Option.map_some]
      | finding => exact .inl rfl
      | _ =>
          refine .inl ?_
          simp only [Gateway.rotate]
          split <;> rfl
  · rename_i id host stage current
    cases stage with
    | updating =>
        simp only [Gateway.revoke]
        split
        · exact .inl rfl
        · rename_i updated
          refine .inr ⟨.revoke id, by rw [updated]; rfl, .inl ?_⟩
          simp only [Gateway.inFlight, current, Gateway.awaited]
    | start =>
        refine .inl ?_
        cases host with
        | none => rfl
        | some number =>
            simp only [Gateway.revoke]
            repeat' split
            all_goals rfl
    | matched revision =>
        refine .inl ?_
        have refused : (gateway.refuse digest parse id reading.call).sessions = gateway.sessions := by
          unfold Gateway.refuse
          split <;> rfl
        simp only [Gateway.revoke]
        split <;> exact refused

theorem altered_step (answered : answers (Gateway.step digest parse) gateway label next) :
    Altered digest gateway next.sessions := by
  rw [answered.next]
  obtain ⟨event, output⟩ := label
  cases event with
  | advance reading => exact altered_advance digest parse reading
  | land ticket =>
      simp only [Gateway.step]
      split
      · exact .inl rfl
      · rename_i late found
        exact .inr ⟨late.write, rfl, .inr ⟨ticket, late.overtaken, found⟩⟩
  | crash ticket keep | drop ticket => exact .inl (sessions_dropped digest ticket)
  | work number ok =>
      refine .inl ?_
      simp only [Gateway.step, Gateway.work]
      repeat' split
      all_goals rfl
  | rotate host update =>
      refine .inl ?_
      simp only [Gateway.step, Gateway.occupy]
      repeat' split
      all_goals rfl
  | revoke owner host =>
      refine .inl ?_
      cases host with
      | none =>
          simp only [Gateway.step]
          split <;> rfl
      | some host =>
          simp only [Gateway.step, Gateway.occupy]
          repeat' split
          all_goals rfl
  | _ =>
      refine .inl ?_
      simp only [Gateway.step]
      split <;> rfl

theorem Ended.step {label next} (ended : Ended gateway.sessions id)
    (answered : answers (Gateway.step digest parse) gateway label next) :
    Ended next.sessions id := by
  rcases altered_step digest parse answered with same | ⟨write, same, _⟩
  · rw [same]
    exact ended
  · rw [same]
    exact ended.apply write

/-- A session is registered only while it is clear. -/
theorem Sound.registered (sound : Sound history gateway)
    (taken : Taken digest parse gateway label next) (put : label.2 = .registered id) :
    gateway.fault = false ∧ Clear history gateway.sessions id := by
  obtain ⟨event, output⟩ := label
  subst put
  obtain ⟨machine, hello, revoked, persisted, rfl, current⟩ := registered_step digest parse taken.1
  have fits := sound.fits
  rw [current] at fits
  exact fits

/-- No run goes on from an ended session to its registration. -/
theorem unregistered_run {later} (sound : Sound history gateway)
    (past : Recorded history id ∨ Ended gateway.sessions id)
    (rest : Run (Taken digest parse) gateway later next) :
    Sound (history ++ later) next ∧ (Recorded (history ++ later) id ∨ Ended next.sessions id) ∧
      ∀ event, (event, Output.registered id) ∉ later := by
  induction rest with
  | start => exact ⟨by simpa using sound, by simpa using past, fun event member => nomatch member⟩
  | snoc prior taken ih =>
      rename_i earlier before label next
      obtain ⟨sound, past, unregistered⟩ := ih
      rw [← List.append_assoc]
      refine ⟨sound.step digest parse taken, ?_, fun event member => ?_⟩
      · exact past.imp (fun recorded => recorded.mono label)
          (fun ended => ended.step digest parse taken.1)
      · rcases mem_snoc.mp member with inside | here
        · exact unregistered event inside
        · have put : label.2 = .registered id := by rw [← here]
          obtain ⟨_, clear⟩ := sound.registered digest parse taken put
          exact past.elim clear.unrecorded clear.unended

end Work

/-- The end of a session lasts: once its marker was recorded or the database
    holds it as ended, it is not registered again. The marker is taken only from
    an ended session. Without a marker that could be recorded no session is
    registered before a restart. -/
structure Lasting (step : Gateway → Event × Output → Gateway → Prop) (history : History)
    (gateway : Gateway) : Prop where
  ended : ∀ id later next, Recorded history id ∨ Ended gateway.sessions id →
    Run step gateway later next → ∀ event, (event, Output.registered id) ∉ later
  marker : ∀ id label next, step gateway label next → gateway.markers.contains id = true →
    next.markers.contains id = false →
    Ended gateway.sessions id ∨ (label.2 = .crashed ∧ gateway.markers.get? id = some false)
  faulted : Faulted history → ∀ label next id, step gateway label next → label.2 ≠ .registered id

/-- An ended session stays ended, in every run without the two exceptions. -/
theorem ended_sessions_stay_ended (digest : String → String) (parse : String → Option Description)
    (history : History) (gateway : Gateway)
    (run : Run (Taken digest parse) .new history gateway) :
    Lasting (Taken digest parse) history gateway := by
  have sound := sound_run digest parse run
  refine ⟨fun id later next past rest => ?_, fun id label next taken there gone => ?_,
    fun faulted label next id taken put => ?_⟩
  · exact (unregistered_run digest parse sound past rest).2.2
  · rcases marker_step digest parse taken.1 there gone with ⟨number, found⟩ | lost
    · exact .inl ((sound.jobs number _ found).removes rfl)
    · exact .inr lost
  · obtain ⟨fault, _⟩ := sound.registered digest parse taken put
    rcases sound.faulted faulted with shut | ⟨_, _, _, _, current, _⟩
    · cases fault.symm.trans shut
    · obtain ⟨event, output⟩ := label
      subst put
      obtain ⟨_, _, _, _, _, other⟩ := registered_step digest parse taken.1
      cases current.symm.trans other

def endReading (fresh : Nat) : Reading := ⟨fun _ => 100, Hub.exampleCall, fresh⟩

section Example

variable {digest : String → String} {parse : String → Option Description}

/-- Without drops and late operations there is nothing to disturb. -/
def Event.plain : Event → Bool
  | .drop _ | .land _ => false
  | _ => true

theorem plain_taken (gateway : Gateway) (event : Event) (plain : event.plain = true) :
    Taken digest parse gateway (event, (gateway.step digest parse event).2)
      (gateway.step digest parse event).1 := by
  refine ⟨rfl, ?_, ?_⟩
  · intro ticket same
    obtain rfl : event = .drop ticket := same
    cases plain
  · intro ticket id overtaken same
    obtain rfl : event = .land ticket := same
    cases plain

end Example

/-- A host registers and its owner ends the session, whose marker is recorded. -/
def endedEvents : List Event :=
  .register "owner" Hub.exampleHello :: List.replicate 6 (.advance (endReading 0)) ++
    [.finish Hub.exampleHello.id "owner ended session", .advance (endReading 0),
      .work 0 true, .work 0 true]

/-- The host tries to register again. -/
def returnEvents : List Event :=
  .fail :: .advance (endReading 0) :: .fail :: .register "owner" Hub.exampleHello ::
    List.replicate 6 (.advance (endReading 0))

/-- The ended session was recorded and is not registered again. -/
theorem ended_host_is_refused :
    let run := feed (Gateway.step Hub.exampleDigest fun _ => none) .new endedEvents
    let rest := feed (Gateway.step Hub.exampleDigest fun _ => none) run.2 returnEvents
    Recorded run.1 Hub.exampleHello.id ∧
      ∀ event, (event, Output.registered Hub.exampleHello.id) ∉ rest.1 := by
  intro run rest
  have taken : Run (Taken Hub.exampleDigest fun _ => none) .new run.1 run.2 :=
    feed_run_of_passes plain_taken (by decide)
  have later : Run (Taken Hub.exampleDigest fun _ => none) run.2 rest.1 rest.2 :=
    feed_run_of_passes plain_taken (by decide)
  have recorded : Recorded run.1 Hub.exampleHello.id := exists_input (by decide)
  have lasting := ended_sessions_stay_ended Hub.exampleDigest (fun _ => none) _ _ taken
  exact ⟨recorded, lasting.ended _ _ _ (.inl recorded) later⟩

/-- A host registers, its monitor ends the session, and is aborted while the
    marker is recorded. -/
def abortedEvents : List Event :=
  .register "owner" Hub.exampleHello :: List.replicate 6 (.advance (endReading 0)) ++
    [.finish Hub.exampleHello.id "machine authorization revoked", .advance (endReading 0),
      .close 0, .drop 0]

/-- The host comes back after the marker could not be recorded. -/
def againEvents : List Event :=
  .register "owner" Hub.exampleHello :: List.replicate 4 (.advance (endReading 1))

/-- The failed record does not stop the registration. -/
theorem aborted_monitor_hides_failure : ¬ ∀ history gateway,
      Run (answers (Gateway.step Hub.exampleDigest fun _ => none)) .new history gateway →
      Lasting (answers (Gateway.step Hub.exampleDigest fun _ => none)) history gateway := by
  intro all
  let step := Gateway.step Hub.exampleDigest fun _ => none
  let first := feed step .new abortedEvents
  let failed := step first.2 (.work 0 false)
  let again := feed step failed.1 againEvents
  have put : failed.2 = .recordFailed Hub.exampleHello.id := by decide
  have aborted : Run (answers step) .new first.1 first.2 := feed_run step _ _
  have hidden : answers step first.2 (.work 0 false, failed.2) failed.1 := rfl
  have run : Run (answers step) .new (first.1 ++ [(.work 0 false, failed.2)] ++ again.1) again.2 :=
    (aborted.snoc hidden).trans (feed_run step _ _)
  have faulted : Faulted (first.1 ++ [(.work 0 false, failed.2)] ++ again.1) := by
    refine ⟨first.1, .work 0 false, Hub.exampleHello.id, again.1, ?_, ?_⟩
    · rw [put, List.append_assoc]
      rfl
    · have quiet : ∀ output ∈ again.1.map Prod.snd, output ≠ Output.crashed := by decide
      exact fun label member => quiet _ (List.mem_map_of_mem member)
  refine (all _ _ run).faulted faulted (.advance (endReading 1), _) _ Hub.exampleHello.id rfl ?_
  decide

end PortHub.Api.TerminalSessions
