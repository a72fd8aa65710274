import PortHub.Terminal.Attachments

/-! # What a host reports belongs to the present attachments

The history of a run says who is attached and under which number: attachments
are counted as they are admitted, and end when the participant is detached, when
the connection stops, or when its end is reported. The generations of the host
are these numbers.
-/

namespace PortHub.Terminal.Host

open Runs

/-- The clients of all attachments so far, in order, and the number of the present
    attachment of each client. -/
structure Attendance where
  admitted : List Nat
  current : Nat → Option Nat

namespace Attendance

def initial : Attendance := ⟨[], fun _ => none⟩

def enter (attendance : Attendance) (client : Nat) : Attendance where
  admitted := attendance.admitted ++ [client]
  current := Function.update attendance.current client (some (attendance.admitted.length + 1))

def leave (attendance : Attendance) (client : Nat) : Attendance :=
  { attendance with current := Function.update attendance.current client none }

def arrive (attendance : Attendance) (admitted : Bool) : Incoming → Attendance
  | .routed (.attach client _ _ _ _) => if admitted then attendance.enter client else attendance
  | .routed (.detach client) => attendance.leave client
  | .routed (.stop _) | .routed (.reconnect _) => { attendance with current := fun _ => none }
  | _ => attendance

def turn (attendance : Attendance) : Attachments.Turn → Attendance
  | .returned ⟨_, .closed client⟩ => attendance.leave client
  | _ => attendance

def attend (attendance : Attendance) : Event × Answer → Attendance
  | (.apply event _, .applied _ admitted) => attendance.arrive admitted event
  | (_, .turned turn) => attendance.turn turn
  | _ => attendance

end Attendance

def attendance (history : List (Event × Answer)) : Attendance := history.foldl .attend .initial

theorem attendance_snoc (history : List (Event × Answer)) (label : Event × Answer) :
    attendance (history ++ [label]) = (attendance history).attend label := by
  rw [attendance, List.foldl_append]
  rfl

/-- The attachment with that number is one of the client. -/
def Started (attendance : Attendance) (client number : Nat) : Prop :=
  1 ≤ number ∧ attendance.admitted[number - 1]? = some client

variable {client limit : Nat} {history earlier later : List (Event × Answer)}
  {label : Event × Answer} {item : Queued} {origin host : Attachments}

theorem Started.enter {attendance number} (started : Started attendance client number)
    (newcomer : Nat) :
    Started (attendance.enter newcomer) client number := by
  obtain ⟨positive, there⟩ := started
  refine ⟨positive, ?_⟩
  have inside : number - 1 < attendance.admitted.length := (List.getElem?_eq_some_iff.mp there).1
  rw [Attendance.enter, List.getElem?_append_left inside]
  exact there

theorem Attendance.enter_started (attendance : Attendance) (client : Nat) :
    Started (attendance.enter client) client (attendance.admitted.length + 1) :=
  ⟨by omega, by simp [enter]⟩

/-- What `apply` queues is about nobody, or under the present attachment of
    whoever it is about. -/
def Emitted (attendance : Attendance) (item : Queued) : Prop :=
  (item.scope = none ∧ participant item.output = none) ∨
    ∃ client number, item.scope = some (client, number) ∧ participant item.output = some client ∧
      attendance.current client = some number

/-- The step queues the item, under the attachment that the item names. -/
inductive Makes (attendance : Attendance) : Event × Answer → Queued → Prop where
  | emitted {event : Incoming} {outcome : Outcome} {result : Result Bool} {admitted : Bool}
      {item : Queued} (emitted : Emitted (attendance.arrive admitted event) item) :
      Makes attendance (.apply event outcome, .applied result admitted) item
  | forwarded {client number : Nat} {read : Option HostOutput} {output : HostOutput}
      (started : Started attendance client number)
      (own : participant output = some client ∨ output = .activity) :
      Makes attendance (.forward client number read, .sent (some ⟨some (client, number), output⟩))
        ⟨some (client, number), output⟩
  | paged {job : Job} {page sent : HistoryChunk} (started : Started attendance job.client job.generation) :
      Makes attendance
        (.chunk job page, .sent (some ⟨some (job.client, job.generation), .history job.client sent⟩))
        ⟨some (job.client, job.generation), .history job.client sent⟩

/-- Some step of the history queued the item. -/
def Produced (history : List (Event × Answer)) (item : Queued) : Prop :=
  ∃ earlier label later, history = earlier ++ label :: later ∧ Makes (attendance earlier) label item

theorem Produced.snoc {history item} (produced : Produced history item) (label : Event × Answer) :
    Produced (history ++ [label]) item := by
  obtain ⟨earlier, made, later, rfl, makes⟩ := produced
  exact ⟨earlier, made, later ++ [label], by simp, makes⟩

theorem Makes.produced (makes : Makes (attendance history) label item) :
    Produced (history ++ [label]) item :=
  ⟨history, label, [], rfl, makes⟩

/-- The scope of an item names the participant that it is about. -/
theorem Produced.scoped (produced : Produced history item)
    (about : participant item.output = some client) :
    ∃ number, item.scope = some (client, number) := by
  obtain ⟨earlier, label, later, _, makes⟩ := produced
  cases makes with
  | emitted emitted =>
      rcases emitted with ⟨_, nobody⟩ | ⟨other, number, scope, named, _⟩
      · cases nobody.symm.trans about
      · obtain rfl := Option.mem_unique named about
        exact ⟨number, scope⟩
  | forwarded _ own =>
      rcases own with named | rfl
      · obtain rfl := Option.mem_unique named about
        exact ⟨_, rfl⟩
      · cases about
  | paged _ =>
      cases about
      exact ⟨_, rfl⟩

/-- A host whose tables agree with the attendance, and whose queues hold only
    items that pass a test. -/
structure Sound (limit : Nat) (attendance : Attendance) (fine : Queued → Prop) (host : Attachments) :
    Prop where
  viewers : host.maxViewers = limit
  numbered : host.generation = attendance.admitted.length
  current : ∀ client, host.generations.get? client = attendance.current client
  known : ∀ client number, attendance.current client = some number → Started attendance client number
  held : ∀ client, host.clients.contains client = true →
    host.generations.contains client = true ∧ host.forwarders.contains client = true
  few : host.clients.len ≤ limit
  live : ∀ item ∈ host.live, fine item
  history : ∀ item ∈ host.history, fine item
  tasks : ∀ task ∈ host.tasks, Started attendance task.1 task.2
  jobs : ∀ job ∈ host.jobs, Started attendance job.client job.generation

namespace Sound

variable {limit : Nat} {attendance : Attendance} {fine : Queued → Prop} {host : Attachments}
  {client : Nat}

theorem mono {wider : Queued → Prop} (sound : Sound limit attendance fine host)
    (implies : ∀ item, fine item → wider item) : Sound limit attendance wider host :=
  { sound with
    live := fun item member => implies item (sound.live item member)
    history := fun item member => implies item (sound.history item member) }

theorem queued_emitted (sound : Sound limit attendance fine host) {output item}
    (made : host.queued output = .ok item) : Emitted attendance item := by
  unfold Attachments.queued at made
  split at made
  · rename_i nobody
    cases made
    exact .inl ⟨rfl, nobody⟩
  · rename_i client named
    split at made
    · cases made
    · rename_i generation found
      cases made
      exact .inr ⟨client, generation, rfl, named, (sound.current client).symm.trans found⟩

/-- What is queued by `apply` passes the test or belongs to a present attachment. -/
abbrev Also (attendance : Attendance) (fine : Queued → Prop) (item : Queued) : Prop :=
  fine item ∨ Emitted attendance item

theorem also (sound : Sound limit attendance fine host) : Sound limit attendance (Also attendance fine) host :=
  sound.mono fun _ passes => .inl passes

theorem tell (sound : Sound limit attendance fine host) (output : HostOutput) :
    Sound limit attendance (Also attendance fine) (host.tell output).1 := by
  unfold Attachments.tell Attachments.emit
  split
  · exact sound.also
  · rename_i item made
    split
    · refine { sound.also with live := ?_ }
      intro other member
      rcases mem_snoc.mp member with old | rfl
      · exact .inl (sound.live other old)
      · exact .inr (sound.queued_emitted made)
    · exact sound.also

/-- A terminal that is removed takes its forwarder with it. -/
theorem release (sound : Sound limit attendance fine host) (client : Nat) :
    Sound limit attendance fine (host.release client) := by
  refine { sound with held := ?_, few := ?_ }
  · intro other present
    obtain ⟨pty, found⟩ := Dict.contains_iff.mp present
    obtain ⟨apart, old⟩ := Dict.get?_of_erase found
    obtain ⟨numbered, forwarded⟩ := sound.held other (Dict.contains_iff.mpr ⟨pty, old⟩)
    refine ⟨numbered, ?_⟩
    obtain ⟨task, here⟩ := Dict.contains_iff.mp forwarded
    refine Dict.contains_iff.mpr ⟨task, ?_⟩
    rw [Attachments.release, Dict.get?_erase_ne _ apart]
    exact here
  · exact (Dict.len_erase_le _ _).trans sound.few

theorem release_absent (host : Attachments) (client : Nat) :
    (host.release client).clients.contains client = false := by
  simp [Attachments.release, Dict.contains]

section

variable (sound : Sound limit attendance fine host)

include sound

/-- A new attachment of a client that has no terminal. -/
theorem enter (client : Nat) :
    Sound limit (attendance.enter client) fine
      { host with
        generation := host.generation + 1
        generations := host.generations.insert client (host.generation + 1) } := by
  refine
    { sound with
      numbered := ?_
      current := ?_
      known := ?_
      held := ?_
      tasks := fun task member => (sound.tasks task member).enter client
      jobs := fun job member => (sound.jobs job member).enter client }
  · simp [Attendance.enter, sound.numbered]
  · intro other
    by_cases same : other = client
    · subst same
      simp [Attendance.enter, sound.numbered]
    · simp [Attendance.enter, same, sound.current other]
  · intro other number now
    by_cases same : other = client
    · subst same
      have last : attendance.admitted.length + 1 = number := by
        simpa [Attendance.enter] using now
      rw [← last]
      exact attendance.enter_started other
    · have before : attendance.current other = some number := by
        simpa [Attendance.enter, same] using now
      exact (sound.known other number before).enter client
  · intro other present
    obtain ⟨numbered, forwarded⟩ := sound.held other present
    refine ⟨?_, forwarded⟩
    by_cases same : other = client
    · subst same
      simp [Dict.contains]
    · simpa [Dict.contains, same] using numbered

/-- The end of an attachment whose terminal was removed. -/
theorem leave (gone : host.clients.contains client = false) :
    Sound limit (attendance.leave client) fine
      { host with generations := host.generations.erase client } := by
  refine { sound with current := ?_, known := ?_, held := ?_ }
  · intro other
    by_cases same : other = client
    · subst same
      simp [Attendance.leave]
    · simp [Attendance.leave, same, sound.current other]
  · intro other number now
    by_cases same : other = client
    · subst same
      simp [Attendance.leave] at now
    · exact sound.known other number (by simpa [Attendance.leave, same] using now)
  · intro other present
    obtain ⟨numbered, forwarded⟩ := sound.held other present
    refine ⟨?_, forwarded⟩
    have apart : other ≠ client := by
      rintro rfl
      cases gone.symm.trans present
    simpa [Dict.contains, apart] using numbered

theorem detach (client : Nat) :
    Sound limit (attendance.leave client) fine (host.detach client) :=
  { (sound.release client).leave (release_absent host client) with }

theorem stop : Sound limit { attendance with current := fun _ => none } fine host.stop := by
  refine { sound with current := fun _ => rfl, known := ?_, held := ?_, few := Nat.zero_le _ }
  · nofun
  · nofun

theorem delivery (outcome : Outcome) (client : Nat) :
    Sound limit attendance (Also attendance fine) (host.delivery outcome client).1 := by
  unfold Attachments.delivery
  split
  · exact sound.also
  · split
    · have removed :
          Sound limit attendance fine
            { host.release client with pendingRedraw := host.pendingRedraw.erase client } :=
        { sound.release client with }
      exact removed.tell _
    · exact sound.also

theorem directOffer (outcome : Outcome) (client : Nat)
    (request : UInt32) :
    Sound limit attendance (Also attendance fine) (host.directOffer outcome client request).1 := by
  unfold Attachments.directOffer
  split
  · exact sound.also
  · split
    · exact sound.tell _
    · exact sound.also

theorem redraw (client : Nat) :
    Sound limit attendance fine (host.redraw client).1 := by
  unfold Attachments.redraw
  split
  · exact { sound with }
  · exact sound

/-- A job is started for the present attachment, and the page of a request that is
    turned away names it. -/
theorem requestHistory (outcome : Outcome) (freeze : Bool)
    (snapshot : Option String) (client : Nat) (request : UInt32) (pane : String) (before : UInt32)
    (lines : UInt16) :
    Sound limit attendance (Also attendance fine)
      (host.requestHistory outcome freeze snapshot client request pane before lines).1 := by
  unfold Attachments.requestHistory
  split
  · exact sound.also
  split
  · exact sound.also
  split
  · exact sound.also
  split
  · exact sound.also
  rename_i generation found
  split
  · refine { sound.also with jobs := ?_ }
    intro job member
    rcases mem_snoc.mp member with old | rfl
    · exact sound.jobs job old
    · exact sound.known client generation ((sound.current client).symm.trans found)
  · split
    · exact sound.also
    · rename_i item made
      split
      · refine { sound.also with history := ?_ }
        intro other member
        rcases mem_snoc.mp member with old | rfl
        · exact .inl (sound.history other old)
        · exact .inr (sound.queued_emitted made)
      · exact sound.also

/-- A terminal whose forwarder was started under the present attachment. -/
theorem open' {generation} (direct : Finset Nat)
    (now : attendance.current client = some generation) :
    Sound limit attendance fine
      { host with
        direct
        forwarders := host.forwarders.insert client generation
        tasks := host.tasks ++ [(client, generation)] } := by
  refine { sound with held := ?_, tasks := ?_ }
  · intro other present
    obtain ⟨numbered, forwarded⟩ := sound.held other present
    refine ⟨numbered, ?_⟩
    by_cases same : other = client
    · subst same
      simp [Dict.contains]
    · simpa [Dict.contains, same] using forwarded
  · intro task member
    rcases mem_snoc.mp member with old | rfl
    · exact sound.tasks task old
    · exact sound.known client generation now

/-- A terminal may be kept if its attachment is present, its forwarder was started
    and the tables stay within the limit. -/
theorem hold (pty : Client)
    (numbered : host.generations.contains client = true)
    (forwarded : host.forwarders.contains client = true)
    (room : (host.clients.insert client pty).len ≤ limit) :
    Sound limit attendance fine { host with clients := host.clients.insert client pty } := by
  refine { sound with held := ?_, few := room }
  intro other present
  by_cases same : other = client
  · subst same
    exact ⟨numbered, forwarded⟩
  · exact sound.held other (by simpa [Dict.contains, same] using present)

theorem resize (outcome : Outcome) (client : Nat)
    (cols rows : UInt16) : Sound limit attendance fine (host.resize outcome client cols rows).1 := by
  unfold Attachments.resize
  split
  · exact sound
  · rename_i pty found
    split
    · exact sound
    · obtain ⟨numbered, forwarded⟩ := sound.held client (Dict.contains_iff.mpr ⟨pty, found⟩)
      exact sound.hold _ numbered forwarded ((Dict.len_insert_bound found _).trans_le sound.few)

theorem input (outcome : Outcome) (client : Nat) :
    Sound limit attendance (Also attendance fine) (host.input outcome client).1 := by
  unfold Attachments.input
  split
  · exact (sound.release client).tell _
  · exact sound.also

theorem attach_admitted (outcome : Outcome)
    (pty : Client) (absent : host.clients.contains client = false)
    (fits : host.generation + 1 < 2 ^ 64) :
    Sound limit (attendance.enter client) (Also (attendance.enter client) fine)
      (host.attach outcome client pty).1 := by
  have admitted := sound.enter client
  have now : (attendance.enter client).current client = some (host.generation + 1) := by
    simp [Attendance.enter, sound.numbered]
  simp only [Attachments.attach, absent, Bool.false_eq_true, if_false, Attachments.admitGeneration, fits,
    if_true]
  split
  · exact admitted.tell _
  · rename_i room
    split
    · have opened :=
        admitted.open'
          (if host.directEnabled && host.directConfigured then insert client host.direct else host.direct) now
      split
      · exact opened.also
      · have spare : host.clients.len < limit := by
          rw [← sound.viewers]
          omega
        exact
          (opened.hold pty (by simp [Dict.contains]) (by simp [Dict.contains])
            ((Dict.len_insert_le _ _ _).trans spare)).also
    · exact admitted.tell _

end

/-- An attachment that is refused leaves everything as it is. -/
theorem attach_refused (outcome : Outcome) (pty : Client)
    (refused : (!host.clients.contains client && decide (host.generation + 1 < 2 ^ 64)) = false) :
    (host.attach outcome client pty).1 = host := by
  unfold Attachments.attach
  split
  · rfl
  · rename_i absent
    have full : ¬ host.generation + 1 < 2 ^ 64 := by
      simpa [absent] using refused
    simp only [Attachments.admitGeneration, full, if_false]

section

variable (sound : Sound limit attendance fine host)

include sound

/-- What `apply` does to the tables, it does to the attendance. -/
theorem apply (outcome : Outcome) (event : Incoming) :
    Sound limit (attendance.arrive (host.admits event) event)
      (Also (attendance.arrive (host.admits event) event) fine) (host.apply outcome event).1 := by
  cases event with
  | ready => exact { sound.also with }
  | invitationsRotated => exact sound.also
  | ping => exact sound.tell _
  | routed event =>
      cases event with
      | delivery client => exact sound.delivery outcome client
      | directOffer client request => exact sound.directOffer outcome client request
      | redraw client => exact (sound.redraw client).also
      | history freeze snapshot client request pane before lines =>
          exact sound.requestHistory outcome freeze snapshot client request pane before lines
      | attach client readOnly cols rows term =>
          cases admitted : host.admits (.routed (.attach client readOnly cols rows term)) with
          | true =>
              have both : host.clients.contains client = false ∧ host.generation + 1 < 2 ^ 64 := by
                simpa [Attachments.admits] using admitted
              exact sound.attach_admitted outcome _ both.1 both.2
          | false =>
              simp only [Attachments.apply, attach_refused outcome _ admitted]
              exact sound.also
      | input client => exact sound.input outcome client
      | resize client cols rows => exact (sound.resize outcome client cols rows).also
      | detach client => exact (sound.detach client).also
      | stop => exact sound.stop.also
      | reconnect => exact sound.stop.also
      | invitationsRevoked => exact sound.also
      | presence => exact sound.also

theorem settle (item : Queued) :
    Sound limit (attendance.turn (host.settle item).2) fine (host.settle item).1 := by
  unfold Attachments.settle
  split
  · exact sound
  · obtain ⟨scope, output⟩ := item
    cases output with
    | closed client => exact { (sound.release client).leave (release_absent host client) with }
    | _ => exact sound

/-- A round of `next` waits, or takes an item that was queued. -/
theorem next_cases (redraws : Nat) :
    (Sound limit attendance fine (host.next redraws).1 ∧ (host.next redraws).2 = .pending) ∨
      ∃ taken item, Sound limit attendance fine taken ∧ fine item ∧
        host.next redraws = taken.settle item := by
  have page : ∀ {item rest} (pendingRedraw : List Nat), host.history = item :: rest →
      Sound limit attendance fine { host with history := rest, liveBurst := 0, pendingRedraw } ∧ fine item := by
    intro item rest pendingRedraw queue
    refine ⟨{ sound with history := ?_ }, sound.history item (by simp [queue])⟩
    intro other member
    exact sound.history other (by simp [queue, show other ∈ rest from member])
  unfold Attachments.next
  split
  · rename_i item rest queue
    split at queue
    · obtain ⟨left, passes⟩ := page host.pendingRedraw queue
      exact .inr ⟨_, item, left, passes, rfl⟩
    · cases queue
  · dsimp only
    split
    · rename_i item rest queue
      have left :
          Sound limit attendance fine
            { host with
              live := rest
              liveBurst := min (host.liveBurst + 1) 255
              pendingRedraw := host.pendingRedraw.drop redraws } := by
        refine { sound with live := ?_ }
        intro other member
        exact sound.live other (by simp [queue, show other ∈ rest from member])
      exact .inr ⟨_, item, left, sound.live item (by simp [queue]), rfl⟩
    · split
      · rename_i item rest queue
        obtain ⟨left, passes⟩ := page (host.pendingRedraw.drop redraws) queue
        exact .inr ⟨_, item, left, passes, rfl⟩
      · exact .inl ⟨{ sound with }, rfl⟩

theorem next (redraws : Nat) :
    Sound limit (attendance.turn (host.next redraws).2) fine (host.next redraws).1 := by
  obtain ⟨waiting, pending⟩ | ⟨taken, item, left, _, settled⟩ := sound.next_cases redraws
  · rw [pending]
    exact waiting
  · rw [settled]
    exact left.settle item

/-- What a round of `next` returns was queued, and belongs to a present attachment. -/
theorem next_returned {redraws item}
    (returned : (host.next redraws).2 = .returned item) :
    fine item ∧
      ∀ client number, item.scope = some (client, number) → attendance.current client = some number := by
  obtain ⟨_, pending⟩ | ⟨taken, other, left, passes, settled⟩ := sound.next_cases redraws
  · cases pending.symm.trans returned
  · rw [settled] at returned
    unfold Attachments.settle at returned
    split at returned
    · cases returned
    · rename_i present
      have same : other = item := by
        split at returned
        · exact Attachments.Turn.returned.inj returned
        · exact Attachments.Turn.returned.inj returned
      subst same
      refine ⟨passes, ?_⟩
      intro client number scope
      rw [← left.current client]
      simpa [scope] using present

theorem configureDirect (valid : Result Unit) :
    Sound limit attendance fine (host.configureDirect valid).1 := by
  unfold Attachments.configureDirect
  split
  · split
    · exact sound
    · exact { sound with }
  · exact sound

/-- What a forwarder sends is under the attachment it was started for. -/
theorem forward (client number : Nat)
    (read : Option HostOutput) :
    Sound limit attendance
      (fun item => fine item ∨
        Makes attendance (.forward client number read, .sent (host.forward client number read).2) item)
      (host.forward client number read).1 := by
  unfold Attachments.forward
  split
  · rename_i running
    refine { sound.mono fun _ passes => .inl passes with live := ?_, tasks := ?_ }
    · intro item member
      rcases mem_snoc.mp member with old | rfl
      · exact .inl (sound.live item old)
      · refine .inr (.forwarded (sound.tasks _ running.1) ?_)
        cases own : read.filter fun output =>
            decide (participant output = some client) || decide (output = .activity) with
        | none => exact .inl rfl
        | some output => simpa using (Option.filter_eq_some_iff.mp own).2
    · intro task member
      dsimp only at member
      split at member
      · exact sound.tasks task (List.mem_of_mem_erase member)
      · exact sound.tasks task member
  · exact sound.mono fun _ passes => .inl passes

theorem chunk (job : Job) (page : HistoryChunk) :
    Sound limit attendance
      (fun item => fine item ∨ Makes attendance (.chunk job page, .sent (host.chunk job page).2) item)
      (host.chunk job page).1 := by
  unfold Attachments.chunk
  split
  · rename_i running
    refine { sound.mono fun _ passes => .inl passes with history := ?_ }
    intro item member
    rcases mem_snoc.mp member with old | rfl
    · exact .inl (sound.history item old)
    · exact .inr (.paged (sound.jobs job running.1))
  · exact sound.mono fun _ passes => .inl passes

end

end Sound

theorem new_sound (made : Attachments.new limit = .ok origin) :
    Sound limit .initial (Produced []) origin := by
  simp only [Attachments.new, bind_eq_ok, pure_eq_ok] at made
  obtain ⟨_, _, rfl⟩ := made
  constructor <;> simp [Attendance.initial, Dict.contains, Dict.len, Dict.empty, Dict.get?]

theorem step_sound (sound : Sound limit (attendance history) (Produced history) host)
    (event : Event) :
    Sound limit (attendance (history ++ [(event, (step host event).2)]))
      (Produced (history ++ [(event, (step host event).2)])) (step host event).1 := by
  rw [attendance_snoc]
  cases event with
  | configureDirect valid =>
      exact (sound.configureDirect valid).mono fun item earlier => earlier.snoc _
  | apply event outcome =>
      refine (sound.apply outcome event).mono ?_
      rintro item (earlier | emitted)
      · exact earlier.snoc _
      · exact (Makes.emitted emitted).produced
  | forward client number read =>
      refine (sound.forward client number read).mono ?_
      rintro item (earlier | makes)
      · exact earlier.snoc _
      · exact makes.produced
  | chunk job page =>
      refine (sound.chunk job page).mono ?_
      rintro item (earlier | makes)
      · exact earlier.snoc _
      · exact makes.produced
  | next redraws => exact (sound.next redraws).mono fun item earlier => earlier.snoc _

theorem run_sound (made : Attachments.new limit = .ok origin)
    (run : Run (answers step) origin history host) :
    Sound limit (attendance history) (Produced history) host := by
  induction run with
  | start => exact new_sound made
  | @snoc history host label after _ taken sound =>
      obtain ⟨event, answer⟩ := label
      have moved : (step host event).1 = after := congrArg Prod.fst taken
      have answered : (step host event).2 = answer := congrArg Prod.snd taken
      rw [← moved, ← answered]
      exact step_sound sound event

/-- The step begins an attachment of the client. -/
def attaches (client : Nat) : Event × Answer → Bool
  | (.apply (.routed (.attach newcomer _ _ _ _)) _, .applied _ true) => decide (newcomer = client)
  | _ => false

/-- Only a new attachment makes a client present that was not. -/
theorem Attendance.attend_absent {attendance : Attendance}
    (absent : attendance.current client = none) (quiet : attaches client label = false) :
    (attendance.attend label).current client = none := by
  have leaves : ∀ other, (attendance.leave other).current client = none := by
    intro other
    by_cases same : client = other
    · simp [leave, same]
    · simp [leave, same, absent]
  unfold attend
  split
  · rename_i event outcome result admitted
    unfold arrive
    split
    · rename_i newcomer _ _ _ _
      split
      · rename_i admits
        have apart : newcomer ≠ client := by
          simpa [attaches, admits] using quiet
        simp [enter, apart.symm, absent]
      · exact absent
    · exact leaves _
    · rfl
    · rfl
    · exact absent
  · unfold turn
    split
    · exact leaves _
    · exact absent
  · exact absent

theorem attend_absent_all {attendance : Attendance} {labels : List (Event × Answer)}
    (absent : attendance.current client = none)
    (quiet : ∀ label ∈ labels, attaches client label = false) :
    (labels.foldl Attendance.attend attendance).current client = none := by
  induction labels generalizing attendance with
  | nil => exact absent
  | cons label labels ih =>
      exact ih (Attendance.attend_absent absent (quiet label (by simp)))
        fun other member => quiet other (by simp [member])

/-- What `next` returns was queued before, and belongs to a present attachment. -/
theorem returned_present {event} (made : Attachments.new limit = .ok origin)
    (run : Run (answers step) origin (earlier ++ (event, .turned (.returned item)) :: later) host) :
    Produced earlier item ∧ ∀ client number, item.scope = some (client, number) →
      (attendance earlier).current client = some number := by
  obtain ⟨before, after, prior, taken⟩ := run.taken
  have sound := run_sound made prior
  have answered : (step before event).2 = .turned (.returned item) := congrArg Prod.snd taken
  cases event with
  | next redraws => exact sound.next_returned (Answer.turned.inj answered)
  | configureDirect | apply | forward | chunk => cases answered

/-- After the end of an attachment was returned, something is returned under an
    attachment of the client only if there is a new one. -/
theorem closed_until_attached {between event other scope number output}
    (made : Attachments.new limit = .ok origin) (run : Run (answers step) origin
      (earlier ++ (event, .turned (.returned ⟨scope, .closed client⟩)) :: between ++
        (other, .turned (.returned ⟨some (client, number), output⟩)) :: later) host) :
    ∃ label ∈ between, attaches client label = true := by
  by_contra none
  have quiet : ∀ label ∈ between, attaches client label = false := by
    intro label member
    by_contra some
    exact none ⟨label, member, by simpa using some⟩
  obtain ⟨_, present⟩ := returned_present made run
  have now := present client number rfl
  have gone :
      ((attendance earlier).attend (event, .turned (.returned ⟨scope, .closed client⟩))).current client =
        Option.none := by
    have turned :
        (attendance earlier).attend (event, .turned (.returned ⟨scope, .closed client⟩)) =
          (attendance earlier).leave client := by
      cases event <;> rfl
    simp [turned, Attendance.leave]
  have absent := attend_absent_all gone quiet
  rw [attendance, List.foldl_append, List.foldl_cons] at now
  cases absent.symm.trans now

/-- In every run of a host, the terminals stay within the limit and each has its
    generation and its forwarder. What `next` returns was queued under the present
    attachment of the participant, and after the end of an attachment nothing is
    returned for the participant before it is attached again. -/
theorem outputs_belong_to_present_attachments {limit : Nat} {origin host : Attachments}
    {history : List (Event × Answer)} (made : Attachments.new limit = .ok origin)
    (run : Run (answers step) origin history host) :
    host.clients.len ≤ limit ∧
      (∀ client, host.clients.contains client = true →
        host.generations.contains client = true ∧ host.forwarders.contains client = true) ∧
      (∀ client, host.generations.get? client = (attendance history).current client) ∧
      (∀ earlier event item later, history = earlier ++ (event, .turned (.returned item)) :: later →
        Produced earlier item ∧
          (∀ client, participant item.output = some client →
            ∃ number, item.scope = some (client, number)) ∧
          ∀ client number, item.scope = some (client, number) →
            (attendance earlier).current client = some number) ∧
      ∀ earlier event scope client between other number output later,
        history =
            earlier ++ (event, .turned (.returned ⟨scope, .closed client⟩)) :: between ++
              (other, .turned (.returned ⟨some (client, number), output⟩)) :: later →
          ∃ label ∈ between, attaches client label = true := by
  have sound := run_sound made run
  refine ⟨sound.few, sound.held, sound.current, ?_, ?_⟩
  · rintro earlier event item later rfl
    obtain ⟨produced, present⟩ := returned_present made run
    exact ⟨produced, fun client about => produced.scoped about, present⟩
  · rintro earlier event scope client between other number output later rfl
    exact closed_until_attached made run

/-- A host for one participant. -/
def single : Attachments := ⟨∅, false, false, false, .empty, [], .empty, 0, .empty, 1, [], [], 0, [], []⟩

/-- Participant 7 attaches, detaches and attaches again. The output and the end of
    the first attachment come late, then the second one writes and ends. -/
def reattached : List Event :=
  let fine : Outcome := ⟨true, true, .ok (), true, .ok (), true⟩
  let arrival : Event := .apply (.routed (.attach 7 false 80 24 "")) fine
  [arrival, .forward 7 1 (some (.kick 7)), .apply (.routed (.detach 7)) fine, arrival,
    .forward 7 1 none, .next 0, .next 0, .forward 7 2 (some (.kick 7)), .forward 7 2 none,
    .next 0, .next 0]

def turnOf : Event × Answer → Option Attachments.Turn
  | (_, .turned turn) => some turn
  | _ => none

/-- Nothing of the first attachment is returned, and the end of the second one
    removes its terminal. -/
theorem reattached_keeps_present : (feed step single reattached).1.filterMap turnOf =
        [.skipped, .skipped, .returned ⟨some (7, 2), .kick 7⟩, .returned ⟨some (7, 2), .closed 7⟩] ∧
      (feed step single reattached).2.clients.len ≤ 1 ∧
      (feed step single reattached).2.generations.get? 7 = none := by
  have made : Attachments.new 1 = .ok single := rfl
  have facts := outputs_belong_to_present_attachments made (feed_run step single reattached)
  exact ⟨by decide, facts.1, by decide⟩

end PortHub.Terminal.Host
