import PortHub.Api.RelayRuns

/-! # Peers over whole runs

The lanes of a peer belong to one instance, the limits hold, and a peer that was
revoked stays out for a minute. A teardown knows its connection by a generation of
64 bits, so it takes that many registrations before it can meet a newer one.
-/

namespace PortHub.Api.PrivateRelay

section Lanes

variable {inner : Inner} {after : Inner} {system : System}

/-- The connections of the hub, as they are at any time. -/
structure Bounded (inner : Inner) : Prop where
  instances : ∀ {peer lane other connection twin}, Connected inner peer lane connection →
    Connected inner peer other twin → connection.instance' = twin.instance'
  occupied : ∀ {peer lanes}, inner.connections.get? peer = some lanes → 0 < lanes.len
  peers : inner.connections.len ≤ maxRelayPeers
  active : inner.active ≤ maxRelayConnections

section

variable (bounded : Bounded inner)

include bounded

theorem Bounded.of_same (same : after.connections = inner.connections) :
    Bounded after := by
  obtain ⟨leases, revoked, cleanup, connections, generation, dropped⟩ := after
  subst same
  exact ⟨bounded.instances, bounded.occupied, bounded.peers, bounded.active⟩

/-- A peer is forgotten. -/
theorem Bounded.forget {id}
    (erased : after.connections = inner.connections.erase id) : Bounded after := by
  have known {peer lanes} (found : after.connections.get? peer = some lanes) :
      inner.connections.get? peer = some lanes := by
    rw [erased] at found
    exact (Dict.get?_of_erase found).2
  have connected {peer lane connection} (still : Connected after peer lane connection) :
      Connected inner peer lane connection := by
    obtain ⟨lanes, found, present⟩ := still
    exact ⟨lanes, known found, present⟩
  constructor
  · intro peer lane other connection twin first second
    exact bounded.instances (connected first) (connected second)
  · intro peer lanes found
    exact bounded.occupied (known found)
  · rw [erased]
    exact (Dict.len_erase_le _ _).trans bounded.peers
  · have weight := Dict.weight_erase Dict.len inner.connections id
    have total := bounded.active
    unfold Inner.active at total ⊢
    rw [erased]
    omega

theorem Bounded.retire (ids : List (String × Nat)) :
    Bounded (ids.foldl (fun inner entry => inner.retire entry.1 entry.2) inner) := by
  induction ids generalizing inner with
  | nil => exact bounded
  | cons entry rest ih => exact ih (bounded.forget rfl)

theorem Bounded.revoke (now : Nat) (ids : List (String × Nat)) :
    Bounded (inner.revoke now ids) := by
  apply Bounded.retire
  exact bounded.of_same rfl

/-- A peer keeps some of its lanes, or is forgotten. -/
theorem Bounded.narrow {id channels} {kept : Dict Nat Connection}
    (found : inner.connections.get? id = some channels) (sub : kept.Sub channels)
    (fewer : kept.len ≤ channels.len) (replaced : after.connections =
      if kept.entries.isEmpty then inner.connections.erase id
      else inner.connections.insert id kept) : Bounded after := by
  split at replaced
  · exact bounded.forget replaced
  · rename_i occupied
    have connected {peer lane connection} (still : Connected after peer lane connection) :
        Connected inner peer lane connection := by
      obtain ⟨lanes, present, bound⟩ := still
      rw [replaced] at present
      rcases Dict.get?_of_insert present with ⟨rfl, rfl⟩ | ⟨_, present⟩
      · exact ⟨channels, found, sub lane connection bound⟩
      · exact ⟨lanes, present, bound⟩
    constructor
    · intro peer lane other connection twin first second
      exact bounded.instances (connected first) (connected second)
    · intro peer lanes present
      rw [replaced] at present
      rcases Dict.get?_of_insert present with ⟨_, rfl⟩ | ⟨_, present⟩
      · rw [List.isEmpty_iff] at occupied
        exact List.length_pos_iff.mpr occupied
      · exact bounded.occupied present
    · rw [replaced, Dict.len_insert_bound found]
      exact bounded.peers
    · have weight := Dict.weight_replace Dict.len found kept
      have total := bounded.active
      unfold Inner.active at total ⊢
      rw [replaced]
      omega

theorem Bounded.teardown (id : String) (lane generation : Nat) :
    Bounded (inner.teardown id lane generation) := by
  unfold Inner.teardown
  split
  · exact bounded
  · rename_i channels found
    refine bounded.narrow found ?_ ?_ rfl
    · split
      · exact Dict.erase_sub channels lane
      · exact Dict.Sub.refl channels
    · split
      · exact Dict.len_erase_le channels lane
      · exact Nat.le_refl _

end

/-- The lanes that stay open beside a new connection. -/
theorem lanes_len (inner : Inner) (id instance' : String) :
    (inner.lanes id instance' = (inner.connections.get? id).getD .empty) ∨
      ((inner.lanes id instance').len = 0 ∧ ∃ lanes, inner.connections.get? id = some lanes ∧
        0 < lanes.len) := by
  unfold Inner.lanes
  dsimp only
  split
  · rename_i mixed
    refine .inr ⟨rfl, ?_⟩
    cases found : inner.connections.get? id with
    | none =>
        rw [found] at mixed
        cases mixed
    | some lanes =>
        rw [found, Option.getD_some] at mixed
        obtain ⟨connection, member, _⟩ := List.any_eq_true.mp mixed
        obtain ⟨lane, bound⟩ := Dict.mem_values_iff.mp member
        exact ⟨lanes, rfl, Dict.len_pos_of_get? bound⟩
  · exact .inl rfl

/-- One connection more than before, unless it takes the place of another. -/
theorem Bounded.register (bounded : Bounded inner) {now mine channel id hash instance' added}
    (registered : inner.register now id hash instance' mine channel = some (after, added)) :
    Bounded after := by
  obtain ⟨_, room, space, fresh, replaced⟩ := register_spec registered
  have connections : after.connections =
      inner.connections.insert id ((inner.lanes id instance').insert mine added) := by
    rw [replaced]
  have own {peer lane connection} (connected : Connected after peer lane connection) :
      peer = id → connection.instance' = instance' := by
    rintro rfl
    rcases register_connected registered connected with ⟨_, _, rfl⟩ | ⟨_, _, same⟩
    · rw [fresh]
    · exact same rfl
  have more := Dict.len_insert_le (inner.lanes id instance') mine added
  have peers := bounded.peers
  have active := bounded.active
  constructor
  · intro peer lane other connection twin first second
    by_cases here : peer = id
    · rw [own first here, own second here]
    · rcases register_connected registered first with ⟨same, _⟩ | ⟨_, first, _⟩
      · exact absurd same here
      · rcases register_connected registered second with ⟨same, _⟩ | ⟨_, second, _⟩
        · exact absurd same here
        · exact bounded.instances first second
  · intro peer lanes found
    rw [connections] at found
    rcases Dict.get?_of_insert found with ⟨_, rfl⟩ | ⟨_, found⟩
    · exact Nat.succ_pos _
    · exact bounded.occupied found
  · rw [connections]
    cases found : inner.connections.get? id with
    | some lanes =>
        rw [Dict.len_insert_bound found]
        exact peers
    | none =>
        have absent : inner.connections.contains id = false := by simp [Dict.contains, found]
        rw [absent] at room
        have one := Dict.len_insert_le inner.connections id
          ((inner.lanes id instance').insert mine added)
        by_contra above
        exact absurd (room (by omega)) (by simp)
  · unfold Inner.active at active space ⊢
    rw [connections]
    cases found : inner.connections.get? id with
    | none =>
        have weight := Dict.weight_add Dict.len found ((inner.lanes id instance').insert mine added)
        have empty : (inner.lanes id instance').len = 0 := by
          rcases lanes_len inner id instance' with same | ⟨zero, _⟩
          · rw [same, found]
            rfl
          · exact zero
        rw [found, Option.any_none] at space
        by_contra above
        exact absurd (space (by omega)) (by simp)
    | some lanes =>
        have weight := Dict.weight_replace Dict.len found
          ((inner.lanes id instance').insert mine added)
        rcases lanes_len inner id instance' with same | ⟨zero, others, known, some⟩
        · rw [found, Option.getD_some] at same
          rw [found, Option.any_some] at space
          rw [same] at weight more ⊢
          by_cases taken : lanes.contains mine = true
          · -- the lane is taken over
            obtain ⟨old, bound⟩ := Dict.contains_iff.mp taken
            rw [Dict.len_insert_bound bound] at weight
            omega
          · by_contra above
            exact taken (space (by omega))
        · -- the lanes of another instance are closed
          rw [found, Option.some.injEq] at known
          subst known
          omega

/-- No task finds a connection on its lane that is older than its own. -/
def Newest (system : System) : Prop :=
  ∀ number task connection, system.tasks.get? number = some task →
    Connected system.inner task.peer task.lane connection → number ≤ connection.channel

theorem Newest.fewer {before} {after : System} (newest : Newest before)
    (fewer : ∀ {peer lane connection}, Connected after.inner peer lane connection →
      Connected before.inner peer lane connection)
    (labels : ∀ {number task}, after.tasks.get? number = some task →
      ∃ old, before.tasks.get? number = some old ∧ old.peer = task.peer ∧ old.lane = task.lane) :
    Newest after := by
  intro number task connection found connected
  obtain ⟨old, known, peer, lane⟩ := labels found
  refine newest number old connection known ?_
  rw [peer, lane]
  exact fewer connected

theorem Newest.calm {before after} (newest : Newest before) (calm : Calm before after) :
    Newest after := by
  refine newest.fewer ?_ ?_
  · intro peer lane connection connected
    unfold Connected at connected ⊢
    rwa [calm.connections] at connected
  · intro number task found
    obtain ⟨old, known, label⟩ := calm.earlier found
    simp only [Task.label, Prod.mk.injEq] at label
    exact ⟨old, known, label.1, label.2.1⟩

theorem Newest.register (newest : Newest system) (wired : Wired system) (id hash instance' : String)
    (lane lanes : Nat) :
    Newest (system.register id hash instance' lane lanes).1 := by
  unfold System.register
  split
  · exact newest
  · split
    · exact newest
    · rename_i inner added registered
      obtain ⟨_, _, _, rfl, _⟩ := register_spec registered
      intro number task connection found connected
      rcases Dict.get?_of_insert found with ⟨rfl, rfl⟩ | ⟨_, found⟩
      · rcases register_connected registered connected with ⟨_, _, rfl⟩ | ⟨other, _⟩
        · exact Nat.le_refl _
        · exact absurd ⟨rfl, rfl⟩ other
      · rcases register_connected registered connected with ⟨_, _, rfl⟩ | ⟨_, known, _⟩
        · exact Nat.le_of_lt (wired.numbered found).1
        · exact newest number task connection found known

theorem Newest.teardown (newest : Newest system) (number : Nat) :
    Newest (system.teardown number) := by
  unfold System.teardown
  split
  · rename_i task found
    split
    · refine newest.fewer (fun connected => (teardown_connected.mp connected).1) ?_
      intro other torn present
      rcases Dict.get?_of_insert present with ⟨rfl, rfl⟩ | ⟨_, present⟩
      · exact ⟨task, found, rfl, rfl⟩
      · exact ⟨torn, present, rfl, rfl⟩
    · exact newest
  · exact newest

theorem Newest.close (newest : Newest system) (number : Nat) :
    Newest (system.close number) := by
  unfold System.close
  split
  · rename_i task found
    split
    · exact newest
    · refine newest.fewer (fun connected => connected) ?_
      intro other closed present
      rcases Dict.get?_of_insert present with ⟨rfl, rfl⟩ | ⟨_, present⟩
      · exact ⟨task, found, rfl, rfl⟩
      · exact ⟨closed, present, rfl, rfl⟩
  · exact newest

theorem Newest.step {system} (newest : Newest system) (wired : Wired system)
    (tokenDigest : String → String) (action : Action) :
    Newest (system.step tokenDigest action).1 := by
  have same {number : Nat} {task : Task} (found : system.tasks.get? number = some task) :
      ∃ old, system.tasks.get? number = some old ∧ old.peer = task.peer ∧ old.lane = task.lane :=
    ⟨task, found, rfl, rfl⟩
  cases action with
  | publish elapsed id hash instance' ip allowed fresh =>
      refine newest.fewer ?_ same
      intro peer lane connection connected
      unfold Connected at connected ⊢
      rwa [← (publish_connections system.inner tokenDigest (system.time + elapsed) id hash instance'
        ip allowed fresh).1]
  | revoke elapsed ids => exact newest.fewer revoke_connected same
  | register elapsed id hash instance' lane lanes =>
      have ticked := newest.calm (calm_tick system elapsed)
      exact ticked.register (wired.calm (calm_tick system elapsed)) id hash instance' lane lanes
  | teardown task => exact newest.teardown task
  | close task => exact newest.close task
  | _ => exact newest.calm (calm_step tokenDigest system rfl)

theorem Bounded.step {system : System} (bounded : Bounded system.inner)
    (tokenDigest : String → String) (action : Action) :
    Bounded (system.step tokenDigest action).1.inner := by
  cases action with
  | publish elapsed id hash instance' ip allowed fresh =>
      exact bounded.of_same (publish_connections system.inner tokenDigest (system.time + elapsed) id
        hash instance' ip allowed fresh).1
  | revoke elapsed ids => exact bounded.revoke _ _
  | register elapsed id hash instance' lane lanes =>
      simp only [System.step, System.register]
      split
      · exact bounded
      · split
        · exact bounded
        · rename_i inner added registered
          exact bounded.register registered
  | teardown task =>
      simp only [System.step, System.teardown]
      split
      · split
        · exact bounded.teardown _ _ _
        · exact bounded
      · exact bounded
  | close task =>
      simp only [System.step, System.close]
      split
      · split
        · exact bounded
        · exact bounded
      · exact bounded
  | _ => exact bounded.of_same (calm_step tokenDigest system rfl).connections

theorem Bounded.initial : Bounded System.initial.inner where
  instances := by
    rintro _ _ _ _ _ ⟨_, found, _⟩
    cases found
  occupied found := by cases found
  peers := Nat.zero_le _
  active := Nat.zero_le _

end Lanes

section Fences

variable {inner : Inner} {reading : Nat}

/-- The action leaves the leases and the fences alone. -/
structure Steady (before after : System) : Prop where
  later : before.time ≤ after.time
  leases : after.inner.leases = before.inner.leases
  revoked : after.inner.revoked = before.inner.revoked

def Action.steady : Action → Bool
  | .publish .. | .revoke .. => false
  | _ => true

theorem steady_step (tokenDigest : String → String) (system : System) {action : Action}
    (steady : action.steady = true) : Steady system (system.step tokenDigest action).1 := by
  have calm (calm : action.calm = true) : Steady system (system.step tokenDigest action).1 :=
    have same := calm_step tokenDigest system calm
    ⟨same.later, same.leases, same.revoked⟩
  cases action with
  | publish | revoke => cases steady
  | register elapsed peer hash instance' lane lanes =>
      simp only [System.step, System.register]
      split
      · exact ⟨Nat.le_add_right _ _, rfl, rfl⟩
      · split
        · exact ⟨Nat.le_add_right _ _, rfl, rfl⟩
        · rename_i inner added registered
          obtain ⟨_, _, _, _, rfl⟩ := register_spec registered
          exact ⟨Nat.le_add_right _ _, rfl, rfl⟩
  | teardown task =>
      simp only [System.step, System.teardown, Inner.teardown]
      split
      · split
        · split
          · exact ⟨Nat.le_refl _, rfl, rfl⟩
          · exact ⟨Nat.le_refl _, rfl, rfl⟩
        · exact ⟨Nat.le_refl _, rfl, rfl⟩
      · exact ⟨Nat.le_refl _, rfl, rfl⟩
  | close task =>
      simp only [System.step, System.close]
      split
      · split
        · exact ⟨Nat.le_refl _, rfl, rfl⟩
        · exact ⟨Nat.le_refl _, rfl, rfl⟩
      · exact ⟨Nat.le_refl _, rfl, rfl⟩
  | _ => exact calm rfl

theorem cleanup_revoked (inner : Inner) (now : Nat) {id expires} :
    (inner.cleanup now).revoked.get? id = some expires → inner.revoked.get? id = some expires := by
  unfold Inner.cleanup
  split
  · exact fun found => (Dict.get?_retain_eq_some.mp found).1
  · exact fun found => found

/-- A fence that is not over stays. -/
theorem cleanup_keeps {now id expires} (fenced : inner.revoked.get? id = some expires)
    (active : now < expires) :
    (inner.cleanup now).revoked.get? id = some expires := by
  unfold Inner.cleanup
  split
  · exact Dict.get?_retain_eq_some.mpr ⟨fenced, by simpa using active⟩
  · exact fenced

theorem cleanup_leases (inner : Inner) (now : Nat) : (inner.cleanup now).leases = inner.leases := by
  unfold Inner.cleanup
  split <;> rfl

/-- What a publication can do to the leases. -/
theorem publish_spec (inner : Inner) (tokenDigest : String → String) (now : Nat)
    (id hash instance' : String) (ip : Ipv4Addr) (allowed : List String) (fresh : String) :
    let published := inner.publish tokenDigest now id hash instance' ip allowed fresh
    published.1.revoked = (inner.cleanup now).revoked ∧
    ((∃ expires, (inner.cleanup now).revoked.get? id = some expires ∧ now < expires ∧
        published.2 = "" ∧ published.1.leases = inner.leases) ∨
      (∀ expires, (inner.cleanup now).revoked.get? id = some expires → expires ≤ now) ∧
      let leases := inner.leases.retain fun _ lease => now < lease.expires
      ((leases.contains id = false ∧ published.2 = "" ∧ published.1.leases = leases) ∨
        ∃ lease, published.1.leases = leases.insert id lease ∧ lease.credentialHash = hash ∧
          lease.instance' = instance' ∧ lease.relayToken = published.2 ∧
          lease.expires = now + seconds 15 ∧
          ∀ old, leases.get? id = some old → old.credentialHash = hash →
            old.instance' = instance' → published.2 = old.relayToken)) := by
  unfold Inner.publish
  dsimp only
  split
  · rename_i fenced
    obtain ⟨expires, found, active⟩ := (Option.any_eq_true _ _).mp fenced
    refine ⟨rfl, .inl ⟨expires, found, ?_, rfl, cleanup_leases inner now⟩⟩
    simpa using active
  · rename_i unfenced
    have expired : ∀ expires, (inner.cleanup now).revoked.get? id = some expires → expires ≤ now := by
      intro expires found
      rw [found] at unfenced
      simpa using unfenced
    split
    · rename_i full
      refine ⟨rfl, .inr ⟨expired, .inl ⟨?_, rfl, ?_⟩⟩⟩
      · rw [← cleanup_leases inner now]
        simpa using full.2
      · rw [cleanup_leases]
    · refine ⟨rfl, .inr ⟨expired, .inr ?_⟩⟩
      rw [cleanup_leases]
      refine ⟨_, rfl, rfl, rfl, rfl, rfl, ?_⟩
      intro old found credential same
      rw [found]
      have live := (Dict.get?_retain_eq_some.mp found).2
      simp [Option.filter, live, credential, same]

theorem readings_sorted (ids : List (String × Nat)) (now : Nat) :
    (System.readings now ids).Pairwise (fun first second => first.2 ≤ second.2) ∧
      ∀ entry ∈ System.readings now ids, now ≤ entry.2 := by
  induction ids generalizing now with
  | nil => exact ⟨List.Pairwise.nil, fun _ member => absurd member List.not_mem_nil⟩
  | cons entry rest ih =>
      obtain ⟨sorted, above⟩ := ih (now + entry.2)
      refine ⟨List.Pairwise.cons above sorted, ?_⟩
      intro other member
      rcases List.mem_cons.mp member with rfl | member
      · exact Nat.le_add_right _ _
      · exact (Nat.le_add_right _ _).trans (above other member)

/-- The clock after a revocation. -/
theorem readings_last (ids : List (String × Nat)) (now : Nat) :
    let last := (((System.readings now ids).getLast?).map Prod.snd).getD now
    now ≤ last ∧ ∀ entry ∈ System.readings now ids, entry.2 ≤ last := by
  induction ids generalizing now with
  | nil => exact ⟨Nat.le_refl _, fun _ member => absurd member List.not_mem_nil⟩
  | cons entry rest ih =>
      obtain ⟨first, others⟩ := ih (now + entry.2)
      have same : (((System.readings now (entry :: rest)).getLast?).map Prod.snd).getD now =
          (((System.readings (now + entry.2) rest).getLast?).map Prod.snd).getD (now + entry.2) := by
        cases rest with
        | nil => rfl
        | cons next rest => simp [System.readings, List.getLast?_cons]
      dsimp only at first others ⊢
      rw [same]
      refine ⟨(Nat.le_add_right _ _).trans first, ?_⟩
      intro other member
      rcases List.mem_cons.mp member with rfl | member
      · exact first
      · exact others other member

/-- A fence lasts through further revocations. -/
theorem retire_fence {id low} (ids : List (String × Nat)) (later : ∀ entry ∈ ids, low ≤ entry.2)
    (inner : Inner)
    (fenced : ∃ expires, inner.revoked.get? id = some expires ∧ low + seconds 60 ≤ expires) :
    ∃ expires, (ids.foldl (fun inner entry => inner.retire entry.1 entry.2) inner).revoked.get? id =
      some expires ∧ low + seconds 60 ≤ expires := by
  induction ids generalizing inner with
  | nil => exact fenced
  | cons entry rest ih =>
      apply ih (fun other member => later other (List.mem_cons_of_mem _ member))
      by_cases here : id = entry.1
      · subst here
        refine ⟨entry.2 + seconds 60, Dict.get?_insert_self _ _ _, ?_⟩
        have above := later entry List.mem_cons_self
        omega
      · obtain ⟨expires, found, above⟩ := fenced
        refine ⟨expires, ?_, above⟩
        simp only [Inner.retire]
        rw [Dict.get?_insert_ne _ _ here]
        exact found

/-- A peer that is named is fenced for a minute from its reading. -/
theorem revoke_fences {id now} {ids : List (String × Nat)}
    (sorted : ids.Pairwise fun first second => first.2 ≤ second.2) (named : (id, reading) ∈ ids) :
    ∃ expires, (inner.revoke now ids).revoked.get? id = some expires ∧
      reading + seconds 60 ≤ expires := by
  obtain ⟨earlier, rest, rfl⟩ := List.append_of_mem named
  have later := (List.pairwise_cons.mp (List.pairwise_append.mp sorted).2.1).1
  unfold Inner.revoke
  rw [List.foldl_append, List.foldl_cons]
  apply retire_fence rest later
  exact ⟨reading + seconds 60, Dict.get?_insert_self _ _ _, Nat.le_refl _⟩

/-- The peer is out until a minute after the reading. -/
structure Fenced (id : String) (reading : Nat) (system : System) : Prop where
  past : reading ≤ system.time
  out : system.time < reading + seconds 60 → system.inner.leases.get? id = none ∧
    ∃ expires, system.inner.revoked.get? id = some expires ∧ reading + seconds 60 ≤ expires

theorem Fenced.steady {id before after} (fenced : Fenced id reading before)
    (steady : Steady before after) : Fenced id reading after := by
  refine ⟨fenced.past.trans steady.later, fun active => ?_⟩
  rw [steady.leases, steady.revoked]
  exact fenced.out (steady.later.trans_lt active)

theorem Fenced.publish {id system} (fenced : Fenced id reading system)
    (tokenDigest : String → String) (elapsed : Nat) (peer hash instance' : String) (ip : Ipv4Addr)
    (allowed : List String) (fresh : String) :
    Fenced id reading
      (system.step tokenDigest (.publish elapsed peer hash instance' ip allowed fresh)).1 := by
  refine ⟨fenced.past.trans (Nat.le_add_right _ _), fun active => ?_⟩
  simp only [System.step, System.tick] at active ⊢
  obtain ⟨gone, expires, found, above⟩ := fenced.out ((Nat.le_add_right _ _).trans_lt active)
  have kept := cleanup_keeps found (active.trans_le above)
  obtain ⟨revoked, outcome⟩ := publish_spec system.inner tokenDigest (system.time + elapsed) peer hash
    instance' ip allowed fresh
  dsimp only at revoked outcome
  refine ⟨?_, expires, ?_, above⟩
  · have nothing : (system.inner.leases.retain fun _ lease =>
        decide (system.time + elapsed < lease.expires)).get? id = none := by
      rw [Dict.get?_retain, gone]
      rfl
    rcases outcome with ⟨_, _, _, _, same⟩ | ⟨expired, ⟨_, _, same⟩ | ⟨lease, same, _⟩⟩
    · rw [same]
      exact gone
    · rw [same]
      exact nothing
    · rw [same]
      by_cases here : id = peer
      · -- its own publication is refused while the fence stands
        subst here
        have ended := expired expires kept
        omega
      · rw [Dict.get?_insert_ne _ _ here]
        exact nothing
  · rw [revoked]
    exact kept

theorem Fenced.revoke {id system} (fenced : Fenced id reading system)
    (tokenDigest : String → String) (elapsed : Nat) (ids : List (String × Nat)) :
    Fenced id reading (system.step tokenDigest (.revoke elapsed ids)).1 := by
  obtain ⟨later, _⟩ := readings_last ids (system.time + elapsed)
  have readings := (readings_sorted ids (system.time + elapsed)).2
  refine ⟨?_, fun active => ?_⟩
  · exact fenced.past.trans ((Nat.le_add_right _ _).trans later)
  · have earlier : system.time < reading + seconds 60 :=
      ((Nat.le_add_right _ _).trans later).trans_lt active
    obtain ⟨gone, known⟩ := fenced.out earlier
    constructor
    · simp only [System.step, Inner.revoke, System.tick]
      rw [(retire_all _ _).2.2 id]
      split
      · rfl
      · exact gone
    · refine retire_fence _ ?_ _ known
      intro entry member
      have past := fenced.past
      have read := readings entry member
      omega

theorem Fenced.step {id reading system} (fenced : Fenced id reading system)
    (tokenDigest : String → String) (action : Action) :
    Fenced id reading (system.step tokenDigest action).1 := by
  cases action with
  | publish elapsed peer hash instance' ip allowed fresh =>
      exact fenced.publish tokenDigest elapsed peer hash instance' ip allowed fresh
  | revoke elapsed ids => exact fenced.revoke tokenDigest elapsed ids
  | _ => exact fenced.steady (steady_step tokenDigest system rfl)

end Fences

section Tokens

open Runs

variable {system : System}

/-- A fence that is known for a peer with a lease is over. -/
def Apart (system : System) : Prop :=
  ∀ id lease expires, system.inner.leases.get? id = some lease →
    system.inner.revoked.get? id = some expires → expires ≤ system.time

theorem Apart.steady {before after} (apart : Apart before) (steady : Steady before after) :
    Apart after := by
  intro id lease expires found fenced
  rw [steady.leases] at found
  rw [steady.revoked] at fenced
  exact (apart id lease expires found fenced).trans steady.later

theorem Apart.publish (apart : Apart system) (tokenDigest : String → String) (elapsed : Nat)
    (peer hash instance' : String) (ip : Ipv4Addr) (allowed : List String) (fresh : String) :
    Apart (system.step tokenDigest (.publish elapsed peer hash instance' ip allowed fresh)).1 := by
  intro id lease expires found fenced
  simp only [System.step, System.tick] at found fenced ⊢
  obtain ⟨revoked, outcome⟩ := publish_spec system.inner tokenDigest (system.time + elapsed) peer hash
    instance' ip allowed fresh
  dsimp only at revoked outcome
  rw [revoked] at fenced
  have known {old : Lease} (present : system.inner.leases.get? id = some old) :
      expires ≤ system.time + elapsed :=
    (apart id old expires present (cleanup_revoked _ _ fenced)).trans (Nat.le_add_right _ _)
  rcases outcome with ⟨_, _, _, _, same⟩ | ⟨expired, ⟨_, _, same⟩ | ⟨new, same, _⟩⟩
  · rw [same] at found
    exact known found
  · rw [same] at found
    exact known (Dict.retain_sub _ _ _ _ found)
  · rw [same] at found
    rcases Dict.get?_of_insert found with ⟨rfl, _⟩ | ⟨_, found⟩
    · exact expired expires fenced
    · exact known (Dict.retain_sub _ _ _ _ found)

/-- Who is not named keeps the fence it had. -/
theorem retire_other {id} (ids : List (String × Nat)) (inner : Inner)
    (other : id ∉ ids.map Prod.fst) :
    (ids.foldl (fun inner entry => inner.retire entry.1 entry.2) inner).revoked.get? id =
      inner.revoked.get? id := by
  induction ids generalizing inner with
  | nil => rfl
  | cons entry rest ih =>
      simp only [List.map_cons, List.mem_cons, not_or] at other
      rw [List.foldl_cons, ih _ other.2]
      simp only [Inner.retire]
      rw [Dict.get?_insert_ne _ _ other.1]

theorem Apart.revoke (apart : Apart system) (tokenDigest : String → String) (elapsed : Nat)
    (ids : List (String × Nat)) : Apart (system.step tokenDigest (.revoke elapsed ids)).1 := by
  obtain ⟨later, _⟩ := readings_last ids (system.time + elapsed)
  intro id lease expires found fenced
  simp only [System.step, Inner.revoke, System.tick] at found fenced ⊢
  rw [(retire_all _ _).2.2 id] at found
  split at found
  · cases found
  · rename_i other
    rw [retire_other _ _ other] at fenced
    have expired := apart id lease expires found fenced
    omega

theorem Apart.step (apart : Apart system) (tokenDigest : String → String) (action : Action) :
    Apart (system.step tokenDigest action).1 := by
  cases action with
  | publish elapsed peer hash instance' ip allowed fresh =>
      exact apart.publish tokenDigest elapsed peer hash instance' ip allowed fresh
  | revoke elapsed ids => exact apart.revoke tokenDigest elapsed ids
  | _ => exact apart.steady (steady_step tokenDigest system rfl)

/-- The peer has a lease for these credentials that is live. -/
def Holds (id hash instance' : String) (system : System) (now : Nat) : Prop :=
  ∃ lease, system.inner.leases.get? id = some lease ∧ now < lease.expires ∧
    lease.credentialHash = hash ∧ lease.instance' = instance'

/-- A step up to which the lease stays live. -/
def Unlapsed (tokenDigest : String → String) (id hash instance' : String) (before : System)
    (event : Action × Output) (after : System) : Prop :=
  answers (System.step tokenDigest) before event after ∧ Holds id hash instance' before after.time

/-- The token of a lease for these credentials. -/
def Token (id hash instance' token : String) (system : System) : Prop :=
  ∀ lease, system.inner.leases.get? id = some lease → lease.credentialHash = hash →
    lease.instance' = instance' → lease.relayToken = token

theorem Token.steady {id hash instance' token before after}
    (same : Token id hash instance' token before) (steady : Steady before after) :
    Token id hash instance' token after := by
  intro lease found
  rw [steady.leases] at found
  exact same lease found

/-- A live lease is renewed with its token, and nothing else gives the peer another. -/
theorem Token.step {id hash instance' token} (same : Token id hash instance' token system)
    (apart : Apart system) {tokenDigest : String → String} {event next}
    (taken : Unlapsed tokenDigest id hash instance' system event next) :
    Token id hash instance' token next ∧
      ∀ elapsed ip allowed fresh, event.1 = .publish elapsed id hash instance' ip allowed fresh →
        event.2 = .token token := by
  obtain ⟨action, output⟩ := event
  obtain ⟨taken, lease, found, live, credential, inst⟩ := taken
  simp only [answers] at taken
  have reached : next = (system.step tokenDigest action).1 := by rw [taken]
  cases action with
  | publish elapsed peer otherHash otherInstance ip allowed fresh =>
      simp only [System.step, System.tick, Prod.mk.injEq] at taken
      obtain ⟨rfl, rfl⟩ := taken
      obtain ⟨_, outcome⟩ := publish_spec system.inner tokenDigest (system.time + elapsed) peer
        otherHash otherInstance ip allowed fresh
      dsimp only at outcome live
      have kept : (system.inner.leases.retain fun _ lease =>
          decide (system.time + elapsed < lease.expires)).get? id = some lease :=
        Dict.get?_retain_eq_some.mpr ⟨found, by simpa using live⟩
      by_cases here : peer = id
      · subst here
        rcases outcome with ⟨expires, fenced, active, _⟩ | ⟨_, ⟨absent, _⟩ | ⟨new, leases, newHash,
          newInstance, newToken, _, stable⟩⟩
        · -- a fence would be over, for the peer has a lease
          have expired := apart peer lease expires found (cleanup_revoked _ _ fenced)
          omega
        · rw [Dict.contains, kept] at absent
          cases absent
        · have mine := same lease found credential inst
          refine ⟨?_, ?_⟩
          · intro renewed present sameHash sameInstance
            rw [leases, Dict.get?_insert_self, Option.some.injEq] at present
            subst present
            rw [newToken, stable lease kept (credential.trans (sameHash.symm.trans newHash))
              (inst.trans (sameInstance.symm.trans newInstance))]
            exact mine
          · intro _ _ _ _ asked
            obtain ⟨_, rfl, rfl, _⟩ := asked
            rw [stable lease kept credential inst, mine]
      · refine ⟨?_, ?_⟩
        · intro renewed present
          have old : system.inner.leases.get? id = some renewed := by
            rcases outcome with ⟨_, _, _, _, leases⟩ | ⟨_, ⟨_, _, leases⟩ | ⟨new, leases, _⟩⟩
            · rwa [leases] at present
            · rw [leases] at present
              exact Dict.retain_sub _ _ _ _ present
            · rw [leases, Dict.get?_insert_ne _ _ (Ne.symm here)] at present
              exact Dict.retain_sub _ _ _ _ present
          exact same renewed old
        · intro _ _ _ _ asked
          simp only [Action.publish.injEq] at asked
          exact absurd asked.2.1 here
  | revoke elapsed ids =>
      refine ⟨?_, fun _ _ _ _ asked => by cases asked⟩
      rw [reached]
      intro kept present
      simp only [System.step, Inner.revoke, System.tick] at present
      rw [(retire_all _ _).2.2 id] at present
      split at present
      · cases present
      · exact same kept present
  | _ =>
      refine ⟨?_, fun _ _ _ _ asked => by cases asked⟩
      rw [reached]
      exact same.steady (steady_step tokenDigest system rfl)

end Tokens

section Lifecycle

open Runs

variable {system : System} {tokenDigest : String → String} {history : List (Action × Output)}
  {reading : Nat}

theorem Fenced.begin {id elapsed ids}
    (named : (id, reading) ∈ System.readings (system.time + elapsed) ids) :
    Fenced id reading (system.step tokenDigest (.revoke elapsed ids)).1 := by
  refine ⟨(readings_last ids (system.time + elapsed)).2 (id, reading) named, fun _ => ⟨?_, ?_⟩⟩
  · simp only [System.step, Inner.revoke, System.tick]
    rw [(retire_all _ _).2.2 id]
    have member : id ∈ (System.readings (system.time + elapsed) ids).map Prod.fst :=
      List.mem_map.mpr ⟨(id, reading), named, rfl⟩
    rw [if_pos member]
  · exact revoke_fences (readings_sorted ids _).1 named

theorem Fenced.run {id} (fenced : Fenced id reading system) {later}
    (run : Run (answers (System.step tokenDigest)) system history later) :
    Fenced id reading later := by
  induction run with
  | start => exact fenced
  | snoc _ taken ih =>
      rename_i before event next _
      rw [taken.next]
      exact ih.step tokenDigest event.1

/-- Nothing readmits a peer before its fence is over. -/
theorem Fenced.refuses {id wait} (fenced : Fenced id reading system)
    (early : system.time + wait < reading + seconds 60) (tokenDigest : String → String)
    (hash instance' : String) (ip : Ipv4Addr) (allowed : List String) (fresh : String) :
    let published := system.inner.publish tokenDigest (system.time + wait) id hash instance' ip allowed
      fresh
    published.2 = "" ∧ published.1.leases.get? id = none := by
  obtain ⟨gone, expires, found, above⟩ := fenced.out ((Nat.le_add_right _ _).trans_lt early)
  obtain ⟨_, outcome⟩ := publish_spec system.inner tokenDigest (system.time + wait) id hash instance'
    ip allowed fresh
  dsimp only at outcome ⊢
  rcases outcome with ⟨_, _, _, refused, leases⟩ | ⟨expired, _⟩
  · rw [leases]
    exact ⟨refused, gone⟩
  · have ended := expired expires (cleanup_keeps found (early.trans_le above))
    omega

theorem run_lifecycle (run : Run (answers (System.step tokenDigest)) System.initial history system) :
    Wired system ∧ Bounded system.inner ∧ Newest system ∧ Apart system := by
  induction run with
  | start =>
      refine ⟨.initial, .initial, ?_, ?_⟩
      · nofun
      · nofun
  | snoc _ taken ih =>
      rename_i before event next _
      obtain ⟨wired, bounded, newest, apart⟩ := ih
      rw [taken.next]
      exact ⟨wired.step tokenDigest event.1, bounded.step tokenDigest event.1,
        newest.step wired tokenDigest event.1, apart.step tokenDigest event.1⟩

/-- A teardown removes the connection on the lane of its task. Two tasks with one
    generation are 2^64 registrations apart. -/
theorem teardown_removes (wired : Wired system) (newest : Newest system)
    {number lane peer connection} (before : Connected system.inner peer lane connection)
    (after : ¬Connected (system.teardown number).inner peer lane connection) :
    ∃ task, system.tasks.get? number = some task ∧ peer = task.peer ∧ lane = task.lane ∧
      (connection.channel = number ∨ number + 2 ^ 64 ≤ connection.channel) := by
  unfold System.teardown at after
  split at after
  · rename_i task found
    split at after
    · have removed : peer = task.peer ∧ lane = task.lane ∧
          connection.generation = task.generation := by
        by_contra other
        exact after (teardown_connected.mpr ⟨before, other⟩)
      obtain ⟨rfl, rfl, generation⟩ := removed
      obtain ⟨owner, owned, _, _, same, _⟩ := wired.linked before
      have mine := (wired.numbered found).2
      have theirs := (wired.numbered owned).2
      have order := newest number task connection found before
      exact ⟨task, found, rfl, rfl, by omega⟩
    · exact absurd before after
  · exact absurd before after

theorem Token.run {id hash instance' token} (same : Token id hash instance' token system)
    (apart : Apart system) {later}
    (run : Run (Unlapsed tokenDigest id hash instance') system history later) :
    (Token id hash instance' token later ∧ Apart later) ∧
      ∀ elapsed ip allowed fresh output,
        (.publish elapsed id hash instance' ip allowed fresh, output) ∈ history →
          output = .token token := by
  induction run with
  | start => exact ⟨⟨same, apart⟩, fun _ _ _ _ _ member => absurd member List.not_mem_nil⟩
  | snoc _ taken ih =>
      rename_i before event next _
      obtain ⟨⟨kept, apart⟩, issued⟩ := ih
      obtain ⟨token, answer⟩ := kept.step apart taken
      refine ⟨⟨token, ?_⟩, ?_⟩
      · rw [taken.1.next]
        exact apart.step tokenDigest event.1
      · intro elapsed ip allowed fresh output member
        rcases List.mem_append.mp member with old | new
        · exact issued elapsed ip allowed fresh output old
        · rw [List.mem_singleton] at new
          subst new
          exact answer elapsed ip allowed fresh rfl

/-- In every state that a run reaches: one instance for each peer, no peer without lanes,
    the limits hold; a teardown meets no other lane, and on its own no newer connection
    before 2^64 registrations; a revoked peer stays out for a minute; a live lease keeps its token. -/
theorem peers_are_fenced (run : Run (answers (System.step tokenDigest)) System.initial history system) :
    Bounded system.inner ∧
    (∀ number peer lane connection, Connected system.inner peer lane connection →
      ¬Connected (system.teardown number).inner peer lane connection →
      ∃ task, system.tasks.get? number = some task ∧ peer = task.peer ∧ lane = task.lane ∧
        (connection.channel = number ∨ number + 2 ^ 64 ≤ connection.channel)) ∧
    (∀ elapsed ids id reading, (id, reading) ∈ System.readings (system.time + elapsed) ids →
      ∀ events later, Run (answers (System.step tokenDigest))
          (system.step tokenDigest (.revoke elapsed ids)).1 events later →
      ∀ wait, later.time + wait < reading + seconds 60 →
        (∀ hash instance' ip allowed fresh,
          let published := later.inner.publish tokenDigest (later.time + wait) id hash instance' ip
            allowed fresh
          published.2 = "" ∧ published.1.leases.get? id = none) ∧
        ∀ hash instance', later.inner.authorized (later.time + wait) id hash instance' = false) ∧
    ∀ id lease events later, system.inner.leases.get? id = some lease →
      Run (Unlapsed tokenDigest id lease.credentialHash lease.instance') system events later →
      ∀ elapsed ip allowed fresh output,
        (.publish elapsed id lease.credentialHash lease.instance' ip allowed fresh, output) ∈ events →
          output = .token lease.relayToken := by
  obtain ⟨wired, bounded, newest, apart⟩ := run_lifecycle run
  refine ⟨bounded, ?_, ?_, ?_⟩
  · intro number peer lane connection before after
    exact teardown_removes wired newest before after
  · intro elapsed ids id reading named events later continued wait early
    have fenced : Fenced id reading later := (Fenced.begin named).run continued
    constructor
    · intro hash instance' ip allowed fresh
      exact fenced.refuses early tokenDigest hash instance' ip allowed fresh
    · intro hash instance'
      rw [Inner.authorized, (fenced.out ((Nat.le_add_right _ _).trans_lt early)).1]
      rfl
  · intro id lease events later found continued
    have mine : Token id lease.credentialHash lease.instance' lease.relayToken system := by
      intro other present _ _
      rw [found, Option.some.injEq] at present
      rw [present]
    exact (mine.run apart continued).2

def exampleOpening : List Action :=
  [.publish 0 "p" "h" "i" ⟨10, 0, 0, 1⟩ [] "t", .register 0 "p" "h" "i" 0 1]

/-- A peer that was revoked asks for a lease again ten seconds later. -/
theorem revoked_peer_is_refused :
    let revoked := (feed (System.step id) System.initial exampleOpening).2.step id
      (.revoke 0 [("p", 0)])
    (revoked.1.inner.publish id (seconds 10) "p" "h" "i" ⟨10, 0, 0, 1⟩ [] "u").2 = "" ∧
      revoked.1.inner.authorized (seconds 10) "p" "h" "i" = false := by
  have run := feed_run (System.step id) System.initial exampleOpening
  have fenced := (peers_are_fenced run).2.2.1 0 [("p", 0)] "p" 0 List.mem_cons_self [] _ .start
    (seconds 10) (by decide)
  exact ⟨(fenced.1 "h" "i" ⟨10, 0, 0, 1⟩ [] "u").1, fenced.2 "h" "i"⟩

/-- A peer that is authorized takes its own lane over at any time. -/
theorem register_again {now mine} (channel : Nat) {id hash instance'} {inner : Inner} {connection}
    (authorized : inner.authorized now id hash instance' = true)
    (open' : Connected inner id mine connection) :
    ∃ after added, inner.register now id hash instance' mine channel = some (after, added) := by
  obtain ⟨lanes, found, present⟩ := open'
  have known : inner.connections.contains id = true := Dict.contains_iff.mpr ⟨lanes, found⟩
  have taken : lanes.contains mine = true := Dict.contains_iff.mpr ⟨connection, present⟩
  simp [Inner.register, authorized, known, found, taken]

def exampleLease : Lease := ⟨"h", "t", "t", "i", ⟨10, 0, 0, 1⟩, [], seconds 15⟩

/-- The first task of the peer still runs after any number of further registrations. -/
theorem registered_often (rounds : Nat) : ∃ history system task connection,
    Run (answers (System.step id)) System.initial history system ∧ system.time = 0 ∧
      system.inner.leases.get? "p" = some exampleLease ∧ system.nextTask = rounds + 1 ∧
      system.tasks.get? 0 = some task ∧ task.peer = "p" ∧ task.lane = 0 ∧ task.registered = true ∧
      Connected system.inner "p" 0 connection ∧ connection.channel = rounds := by
  induction rounds with
  | zero =>
      exact ⟨_, _, ⟨"p", 0, 1, 2048, [], true, true⟩, ⟨"i", 1, 0⟩,
        feed_run (System.step id) System.initial exampleOpening, rfl, rfl, rfl, rfl, rfl, rfl, rfl,
        ⟨_, rfl, rfl⟩, rfl⟩
  | succ rounds ih =>
      obtain ⟨history, system, task, connection, run, time, leased, next, found, peer, lane,
        registered, open', _⟩ := ih
      have authorized : system.inner.authorized system.time "p" "h" "i" = true := by
        rw [Inner.authorized, leased, time]
        rfl
      obtain ⟨after, added, again⟩ := register_again system.nextTask authorized open'
      obtain ⟨_, _, _, fresh, replaced⟩ := register_spec again
      have stepped : answers (System.step id) system
          (.register 0 "p" "h" "i" 0 1, .registered system.nextTask)
          { system with
            inner := after
            tasks := system.tasks.insert system.nextTask
              ⟨"p", 0, added.generation, system.capacity 1, [], true, true⟩
            nextTask := system.nextTask + 1 } := by
        have lanes : ¬((1 : Nat) = 0 ∨ maxRelayLanes < 1 ∨ 1 ≤ 0) := by decide
        simp only [answers, System.step, System.register, System.tick, Nat.add_zero, if_neg lanes]
        rw [again]
      refine ⟨_, _, task, added, run.snoc stepped, time, ?_, ?_, ?_, peer, lane, registered, ?_, ?_⟩
      · rw [replaced]
        exact leased
      · dsimp only
        rw [next]
      · dsimp only
        rw [Dict.get?_insert_ne _ _ (by omega)]
        exact found
      · rw [replaced]
        exact ⟨_, Dict.get?_insert_self _ _ _, Dict.get?_insert_self _ _ _⟩
      · rw [fresh]
        exact next

/-- After 2^64 registrations the first task shares its generation with the newest. -/
theorem teardown_meets_newer : ∃ history system connection,
    Run (answers (System.step id)) System.initial history system ∧
      Connected system.inner "p" 0 connection ∧ 0 < connection.channel ∧
      ¬Connected (system.teardown 0).inner "p" 0 connection := by
  obtain ⟨history, system, task, connection, run, _, _, _, found, peer, lane, registered, open',
    channel⟩ := registered_often (2 ^ 64)
  obtain ⟨wired, _⟩ := run_lifecycle run
  obtain ⟨owner, owned, _, _, same, _⟩ := wired.linked open'
  have mine := (wired.numbered found).2
  have theirs := (wired.numbered owned).2
  refine ⟨history, system, connection, run, open', by omega, ?_⟩
  intro still
  simp only [System.teardown, found, registered, if_true] at still
  refine (teardown_connected.mp still).2 ⟨peer.symm, lane.symm, ?_⟩
  omega

end Lifecycle

end PortHub.Api.PrivateRelay
