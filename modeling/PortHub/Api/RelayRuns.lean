import PortHub.Api.PrivateRelay

/-! # Connections over whole runs

What the validation of a record establishes, and how each action changes the
connections of the hub. Every connection of the hub is one that a running task
registered, and tasks are never renumbered.
-/

namespace PortHub.Api.PrivateRelay

section Records

variable {inner : Inner}

/-- What the validation of a record establishes. -/
structure Permitted (inner : Inner) (source hash instance' : String) (record : Bytes) (now : Nat)
    (target : String) (route : Forward) : Prop where
  /-- The record names the target and carries the packet. -/
  shape : ∃ name, record = UInt8.ofNat name.length :: name ++ route.packet ∧ name.length ≤ 60 ∧
    fromUtf8 name = some target
  bounded : 20 ≤ route.packet.length ∧ route.packet.length ≤ 1380
  leases : ∃ a b, inner.leases.get? source = some a ∧ inner.leases.get? target = some b ∧
    -- both leases are live, and each allows the other
    now < a.expires ∧ now < b.expires ∧ target ∈ a.allowed ∧ source ∈ b.allowed ∧
    -- the sender is still the one that authenticated
    (a.hash = hash ∨ a.credentialHash = hash) ∧ a.instance' = instance' ∧
    (route.packet.drop 12).take 4 = a.ip.octets ∧ (route.packet.drop 16).take 4 = b.ip.octets ∧
    ∃ lanes lane connection, inner.connections.get? target = some lanes ∧
      lanes.get? lane = some connection ∧ connection.channel = route.channel ∧
      connection.generation = route.generation ∧ connection.instance' = b.instance'

theorem mem_lookup {lanes lane choice connection}
    (found : Inner.lookup lanes lane choice = some connection) :
    ∃ other, lanes.get? other = some connection := by
  rcases Option.or_eq_some_iff.mp found with first | ⟨_, found⟩
  · exact ⟨lane, first⟩
  · rcases Option.or_eq_some_iff.mp found with second | ⟨_, third⟩
    · exact ⟨0, second⟩
    · exact Dict.mem_values_iff.mp (List.mem_of_getElem? third)

theorem routeRecord_permitted {source hash instance' lane now choice record route}
    (found : inner.routeRecord source hash instance' lane record now choice = some route) :
    ∃ target, Permitted inner source hash instance' record now target route := by
  cases record with
  | nil => cases found
  | cons length rest =>
      simp only [Inner.routeRecord] at found
      split at found
      · cases found
      · rename_i sized
        simp only [not_or, Nat.not_lt] at sized
        obtain ⟨nonempty, short, long, bounded⟩ := sized
        simp only [Option.bind_eq_bind, Option.bind_eq_some_iff, Option.filter_eq_some_iff,
          Option.pure_def, Option.some.injEq, Bool.and_eq_true, Inner.accepts, Bool.or_eq_true,
          beq_iff_eq, decide_eq_true_eq, List.contains_iff_mem, Option.ite_none_left_eq_some, not_or,
          ne_eq, not_not] at found
        obtain ⟨target, named, _, a, ⟨mine, ⟨⟨aLive, credential⟩, same⟩, allowed⟩, b,
          ⟨theirs, bLive, back⟩, addresses, lanes, ⟨registered, _⟩, connection,
          ⟨looked, current⟩, rfl⟩ := found
        obtain ⟨other, present⟩ := mem_lookup looked
        have size : (rest.take length.toNat).length = length.toNat := by
          rw [List.length_take]
          omega
        refine ⟨target, ⟨rest.take length.toNat, ?_, ?_, named⟩, ?_, a, b, mine, theirs, aLive, bLive,
          allowed, back, credential, same, addresses.1, addresses.2, lanes, other, connection,
          registered, present, rfl, rfl, current⟩
        · rw [size, UInt8.ofNat_toNat, List.cons_append, List.take_append_drop]
        · omega
        · rw [List.length_drop]
          omega

end Records

section Frames

/-- What identifies a task and its connection. -/
def Task.label (task : Task) : String × Nat × Nat × Bool × Bool :=
  (task.peer, task.lane, task.generation, task.registered, task.attached)

/-- The action changes neither the leases nor who is connected. -/
structure Calm (before after : System) : Prop where
  leases : after.inner.leases = before.inner.leases
  revoked : after.inner.revoked = before.inner.revoked
  cleanupAt : after.inner.revokedCleanupAt = before.inner.revokedCleanupAt
  connections : after.inner.connections = before.inner.connections
  generation : after.inner.generation = before.inner.generation
  nextTask : after.nextTask = before.nextTask
  labels : ∀ n, (after.tasks.get? n).map Task.label = (before.tasks.get? n).map Task.label
  later : before.time ≤ after.time

variable {system : System}

theorem Calm.refl (system : System) : Calm system system :=
  ⟨rfl, rfl, rfl, rfl, rfl, rfl, fun _ => rfl, Nat.le_refl _⟩

theorem Calm.trans {a b c} (first : Calm a b) (second : Calm b c) : Calm a c where
  leases := second.leases.trans first.leases
  revoked := second.revoked.trans first.revoked
  cleanupAt := second.cleanupAt.trans first.cleanupAt
  connections := second.connections.trans first.connections
  generation := second.generation.trans first.generation
  nextTask := second.nextTask.trans first.nextTask
  labels n := (second.labels n).trans (first.labels n)
  later := first.later.trans second.later

theorem labels_insert {tasks : Dict Nat Task} {number old} {new : Task}
    (found : tasks.get? number = some old) (same : new.label = old.label) (n : Nat) :
    ((tasks.insert number new).get? n).map Task.label = (tasks.get? n).map Task.label := by
  by_cases here : n = number
  · subst here
    rw [Dict.get?_insert_self, found, Option.map_some, Option.map_some, same]
  · rw [Dict.get?_insert_ne _ _ here]

theorem calm_setTask {number old} (new : Task) (found : system.tasks.get? number = some old)
    (same : new.label = old.label) : Calm system (system.setTask number new) :=
  ⟨rfl, rfl, rfl, rfl, rfl, rfl, labels_insert found same, Nat.le_refl _⟩

section

variable (system) (number : Nat)

theorem calm_setCall (call : Call) :
    Calm system (system.setCall number call) := ⟨rfl, rfl, rfl, rfl, rfl, rfl, fun _ => rfl, Nat.le_refl _⟩

theorem calm_freeSlot (channel : Nat) : Calm system (system.freeSlot channel) := by
  unfold System.freeSlot
  split
  · rename_i task found
    exact calm_setTask _ found rfl
  · exact .refl system

theorem calm_drop : Calm system system.drop :=
  ⟨rfl, rfl, rfl, rfl, rfl, rfl, fun _ => rfl, Nat.le_refl _⟩

theorem calm_tick (elapsed : Nat) : Calm system (system.tick elapsed) :=
  ⟨rfl, rfl, rfl, rfl, rfl, rfl, fun _ => rfl, Nat.le_add_right _ _⟩

theorem calm_take : Calm system (system.take number).1 := by
  unfold System.take
  split
  · rename_i task found
    split
    · exact ⟨rfl, rfl, rfl, rfl, rfl, rfl, labels_insert found rfl, Nat.le_refl _⟩
    · exact .refl system
  · exact .refl system

theorem calm_release : Calm system system.release := by
  unfold System.release
  split
  · exact .refl system
  · exact ⟨rfl, rfl, rfl, rfl, rfl, rfl, fun _ => rfl, Nat.le_refl _⟩

theorem calm_start (source hash instance' : String) (lane : Nat) (frame : Bytes) :
    Calm system (system.start source hash instance' lane frame).1 := by
  unfold System.start
  split
  · exact ⟨rfl, rfl, rfl, rfl, rfl, rfl, fun _ => rfl, Nat.le_refl _⟩
  · exact .refl system

theorem calm_validate (choice : Nat) : Calm system (system.validate number choice) := by
  unfold System.validate
  split
  · split
    · split
      · exact calm_setCall _ _ _
      · exact calm_setCall _ _ _
    · exact .refl system
  · exact .refl system

theorem calm_reserve : Calm system (system.reserve number) := by
  unfold System.reserve
  split
  · split
    · split
      · rename_i task found
        split
        · have moved := calm_setTask { task with free := task.free - 1 } found rfl
          exact moved.trans (calm_setCall _ _ _)
        · exact .refl system
      · exact .refl system
    · exact .refl system
  · exact .refl system

theorem calm_giveUp : Calm system (system.giveUp number) := by
  unfold System.giveUp
  split
  · split
    · exact (calm_setCall _ _ _).trans (calm_drop _)
    · exact .refl system
  · exact .refl system

theorem calm_acquire : Calm system (system.acquire number) := by
  unfold System.acquire
  split
  · split
    · split
      · exact ((calm_freeSlot system _).trans (calm_setCall _ _ _)).trans (calm_drop _)
      · exact ⟨rfl, rfl, rfl, rfl, rfl, rfl, fun _ => rfl, Nat.le_refl _⟩
    · exact .refl system
  · exact .refl system

theorem calm_abort : Calm system (system.abort number) := by
  unfold System.abort
  split
  · split
    · exact ⟨rfl, rfl, rfl, rfl, rfl, rfl, fun _ => rfl, Nat.le_refl _⟩
    · exact ⟨rfl, rfl, rfl, rfl, rfl, rfl, fun _ => rfl, Nat.le_refl _⟩
    · exact .refl system
  · exact .refl system

theorem calm_commit (choice : Nat) : Calm system (system.commit number choice).1 := by
  unfold System.commit
  have refused (channel : Nat) (call : Call) : Calm system
      { (system.freeSlot channel).skip number call with budget := system.budget + 1 } := by
    obtain ⟨leases, revoked, cleanupAt, connections, generation, nextTask, labels, later⟩ :=
      calm_freeSlot system channel
    exact ⟨leases, revoked, cleanupAt, connections, generation, nextTask, labels, later⟩
  split
  · split
    · dsimp only
      split
      · exact refused _ _
      · split
        · exact refused _ _
        · split
          · rename_i task found
            split
            · exact ⟨rfl, rfl, rfl, rfl, rfl, rfl, labels_insert found rfl, Nat.le_refl _⟩
            · exact ⟨rfl, rfl, rfl, rfl, rfl, rfl, fun _ => rfl, Nat.le_refl _⟩
          · exact refused _ _
    · exact .refl system
  · exact .refl system

end

/-- The actions that leave the leases and the connections alone. -/
def Action.calm : Action → Bool
  | .publish .. | .revoke .. | .register .. | .teardown _ | .close _ => false
  | _ => true

theorem calm_step (tokenDigest : String → String) (system : System) {action : Action}
    (calm : action.calm = true) : Calm system (system.step tokenDigest action).1 := by
  have ticked (elapsed : Nat) := calm_tick system elapsed
  cases action with
  | publish | revoke | register | teardown | close => cases calm
  | authorized elapsed id hash instance' => exact ticked elapsed
  | take task => exact calm_take system task
  | release => exact calm_release system
  | start source hash instance' lane frame => exact calm_start system source hash instance' lane frame
  | validate call elapsed choice => exact (ticked elapsed).trans (calm_validate _ call choice)
  | reserve call => exact calm_reserve system call
  | giveUp call => exact calm_giveUp system call
  | acquire call => exact calm_acquire system call
  | commit call elapsed choice => exact (ticked elapsed).trans (calm_commit _ call choice)
  | abort call => exact calm_abort system call

end Frames

section Connections

variable {inner : Inner} {peer : String} {lane : Nat} {connection : Connection} {now mine : Nat}
  {id : String} {after : Inner}

/-- The peer has the connection open on the lane. -/
def Connected (inner : Inner) (peer : String) (lane : Nat) (connection : Connection) : Prop :=
  ∃ lanes, inner.connections.get? peer = some lanes ∧ lanes.get? lane = some connection

theorem publish_connections (inner : Inner) (tokenDigest : String → String) (now : Nat) (id hash instance' : String)
    (ip : Ipv4Addr) (allowed : List String) (fresh : String) :
    (inner.publish tokenDigest now id hash instance' ip allowed fresh).1.connections =
        inner.connections ∧
      (inner.publish tokenDigest now id hash instance' ip allowed fresh).1.generation =
        inner.generation := by
  have cleaned : (inner.cleanup now).connections = inner.connections ∧
      (inner.cleanup now).generation = inner.generation := by
    unfold Inner.cleanup
    split
    · exact ⟨rfl, rfl⟩
    · exact ⟨rfl, rfl⟩
  unfold Inner.publish
  dsimp only
  split
  · exact cleaned
  · split
    · exact cleaned
    · exact cleaned

theorem retire_all (ids : List (String × Nat)) : ∀ inner : Inner,
    let after := ids.foldl (fun inner entry => inner.retire entry.1 entry.2) inner
    after.generation = inner.generation ∧
      (∀ peer, after.connections.get? peer =
        if peer ∈ ids.map Prod.fst then none else inner.connections.get? peer) ∧
      ∀ peer, after.leases.get? peer =
        if peer ∈ ids.map Prod.fst then none else inner.leases.get? peer := by
  induction ids with
  | nil =>
      simp
  | cons entry rest ih =>
      intro inner
      obtain ⟨generation, connections, leases⟩ := ih (inner.retire entry.1 entry.2)
      refine ⟨generation, fun peer => (connections peer).trans ?_, fun peer => (leases peer).trans ?_⟩
      · by_cases here : peer = entry.1
        · simp [here, Inner.retire]
        · simp only [Inner.retire, Dict.get?_erase_ne _ here, List.map_cons, List.mem_cons, here,
            false_or]
      · by_cases here : peer = entry.1
        · simp [here, Inner.retire]
        · simp only [Inner.retire, Dict.get?_erase_ne _ here, List.map_cons, List.mem_cons, here,
            false_or]

theorem revoke_connected {ids} (still : Connected (inner.revoke now ids) peer lane connection) :
    Connected inner peer lane connection := by
  obtain ⟨lanes, found, present⟩ := still
  rw [Inner.revoke, (retire_all ids _).2.1 peer] at found
  split at found
  · cases found
  · exact ⟨lanes, found, present⟩

/-- The lanes of one peer are replaced, and a peer without lanes is forgotten. -/
theorem connected_replace {channels : Dict Nat Connection} (replaced : after.connections =
      if channels.entries.isEmpty then inner.connections.erase id
      else inner.connections.insert id channels) :
    Connected after peer lane connection ↔
      (peer = id ∧ channels.get? lane = some connection) ∨
        (peer ≠ id ∧ Connected inner peer lane connection) := by
  unfold Connected
  rw [replaced]
  by_cases here : peer = id
  · subst here
    split
    · rename_i empty
      have nothing : channels.get? lane = none := by
        rw [Dict.get?, List.isEmpty_iff.mp empty]
        rfl
      simp [nothing]
    · simp
  · split
    · simp [here]
    · simp [here]

/-- A teardown removes what carries its generation on its lane, and nothing else. -/
theorem teardown_connected {generation} :
    Connected (inner.teardown id mine generation) peer lane connection ↔
      Connected inner peer lane connection ∧
        ¬(peer = id ∧ lane = mine ∧ connection.generation = generation) := by
  unfold Inner.teardown
  split
  · rename_i missing
    constructor
    · rintro ⟨lanes, found, present⟩
      refine ⟨⟨lanes, found, present⟩, ?_⟩
      rintro ⟨rfl, _⟩
      cases missing.symm.trans found
    · exact fun both => both.1
  · rename_i channels found
    have kept : (if (channels.get? mine).any fun c => c.generation == generation then
          channels.erase mine else channels).get? lane = some connection ↔
        channels.get? lane = some connection ∧ ¬(lane = mine ∧ connection.generation = generation) := by
      by_cases here : lane = mine
      · subst here
        cases present : channels.get? lane with
        | none => simp [present]
        | some old =>
            by_cases same : old.generation = generation
            · simp only [Option.any_some, same, beq_self_eq_true, if_true, Dict.get?_erase_self,
                reduceCtorEq, Option.some.injEq, false_iff]
              rintro ⟨rfl, other⟩
              exact other ⟨trivial, same⟩
            · simp only [Option.any_some, beq_iff_eq, same, if_false, present, Option.some.injEq]
              constructor
              · rintro rfl
                exact ⟨rfl, fun both => same both.2⟩
              · exact fun both => both.1
      · split
        · simp [here]
        · simp [here]
    rw [connected_replace rfl, kept]
    by_cases here : peer = id
    · subst here
      simp [Connected, found]
    · simp [here]

/-- What a registration that is not refused checks and does. -/
theorem register_spec {channel hash instance' added}
    (registered : inner.register now id hash instance' mine channel = some (after, added)) :
    inner.authorized now id hash instance' = true ∧
      (maxRelayPeers ≤ inner.connections.len → inner.connections.contains id = true) ∧
      (maxRelayConnections ≤ inner.active →
        ((inner.connections.get? id).any fun peer => peer.contains mine) = true) ∧
      added = ⟨instance', (inner.generation + 1) % 2 ^ 64, channel⟩ ∧
      after = { inner with
        generation := (inner.generation + 1) % 2 ^ 64
        connections := inner.connections.insert id ((inner.lanes id instance').insert mine added) } := by
  unfold Inner.register at registered
  split at registered
  · cases registered
  · rename_i authorized
    split at registered
    · cases registered
    · rename_i room
      split at registered
      · cases registered
      · rename_i space
        obtain ⟨rfl, rfl⟩ := registered
        refine ⟨?_, ?_, ?_, rfl, rfl⟩
        · simpa using authorized
        · simpa using room
        · simpa using space

/-- What a registration leaves: the new connection and the lanes of the same instance. -/
theorem register_connected {channel hash instance' added}
    (registered : inner.register now id hash instance' mine channel = some (after, added))
    (still : Connected after peer lane connection) :
    (peer = id ∧ lane = mine ∧ connection = added) ∨
      (¬(peer = id ∧ lane = mine) ∧ Connected inner peer lane connection ∧
        (peer = id → connection.instance' = instance')) := by
  obtain ⟨_, _, _, _, rfl⟩ := register_spec registered
  obtain ⟨lanes, found, present⟩ := still
  rcases Dict.get?_of_insert found with ⟨rfl, rfl⟩ | ⟨other, found⟩
  · rcases Dict.get?_of_insert present with ⟨rfl, rfl⟩ | ⟨other, present⟩
    · exact .inl ⟨rfl, rfl, rfl⟩
    · refine .inr ⟨fun both => other both.2, ?_⟩
      unfold Inner.lanes at present
      dsimp only at present
      split at present
      · cases present
      · rename_i uniform
        cases known : inner.connections.get? peer with
        | none =>
            rw [known] at present
            cases present
        | some channels =>
            rw [known, Option.getD_some] at present uniform
            refine ⟨⟨channels, known, present⟩, fun _ => ?_⟩
            by_contra different
            refine uniform (List.any_eq_true.mpr ⟨connection, ?_, ?_⟩)
            · exact Dict.mem_values_iff.mpr ⟨lane, present⟩
            · simpa using different
  · exact .inr ⟨fun both => other both.1, ⟨lanes, found, present⟩, fun here => absurd here other⟩

end Connections

section Wiring

/-- Every connection of the hub is the one that a running task registered. -/
structure Wired (system : System) : Prop where
  linked : ∀ {peer lane connection}, Connected system.inner peer lane connection →
    ∃ task, system.tasks.get? connection.channel = some task ∧ task.peer = peer ∧
      task.lane = lane ∧ task.generation = connection.generation ∧ task.registered = true
  attached : ∀ {number task}, system.tasks.get? number = some task → task.registered = true →
    task.attached = true
  numbered : ∀ {number task}, system.tasks.get? number = some task →
    number < system.nextTask ∧ task.generation = (number + 1) % 2 ^ 64
  counted : system.inner.generation = system.nextTask % 2 ^ 64

variable {before after system : System}

theorem Calm.task (calm : Calm before after) {number task}
    (found : before.tasks.get? number = some task) :
    ∃ same, after.tasks.get? number = some same ∧ same.label = task.label := by
  have labels := calm.labels number
  rw [found, Option.map_some] at labels
  exact Option.map_eq_some_iff.mp labels

theorem Calm.earlier (calm : Calm before after) {number task}
    (found : after.tasks.get? number = some task) :
    ∃ same, before.tasks.get? number = some same ∧ same.label = task.label := by
  have labels := calm.labels number
  rw [found, Option.map_some] at labels
  exact Option.map_eq_some_iff.mp labels.symm

theorem Wired.calm (wired : Wired before) (calm : Calm before after) :
    Wired after where
  linked := by
    intro peer lane connection connected
    have known : Connected before.inner peer lane connection := by
      unfold Connected at connected ⊢
      rwa [calm.connections] at connected
    obtain ⟨task, found, rfl, rfl, generation, registered⟩ := wired.linked known
    obtain ⟨same, found, label⟩ := calm.task found
    simp only [Task.label, Prod.mk.injEq] at label
    obtain ⟨peer, lane, sameGeneration, sameRegistered, _⟩ := label
    exact ⟨same, found, peer, lane, sameGeneration.trans generation,
      sameRegistered.trans registered⟩
  attached := by
    intro number task found registered
    obtain ⟨same, found, label⟩ := calm.earlier found
    simp only [Task.label, Prod.mk.injEq] at label
    obtain ⟨_, _, _, sameRegistered, sameAttached⟩ := label
    exact sameAttached.symm.trans (wired.attached found (sameRegistered.trans registered))
  numbered := by
    intro number task found
    obtain ⟨same, found, label⟩ := calm.earlier found
    simp only [Task.label, Prod.mk.injEq] at label
    obtain ⟨below, generation⟩ := wired.numbered found
    rw [calm.nextTask, ← label.2.2.1]
    exact ⟨below, generation⟩
  counted := by
    rw [calm.generation, calm.nextTask]
    exact wired.counted

theorem Wired.initial : Wired System.initial where
  linked := by
    rintro peer lane connection ⟨lanes, found, _⟩
    cases found
  attached := by
    intro number task found
    cases found
  numbered := by
    intro number task found
    cases found
  counted := rfl

/-- The hub loses connections, and the tasks stay as they are. -/
theorem Wired.fewer (wired : Wired before)
    (fewer : ∀ {peer lane connection}, Connected after.inner peer lane connection →
      Connected before.inner peer lane connection) (tasks : after.tasks = before.tasks)
    (nextTask : after.nextTask = before.nextTask)
    (generation : after.inner.generation = before.inner.generation) : Wired after where
  linked connected := by
    rw [tasks]
    exact wired.linked (fewer connected)
  attached := by
    rw [tasks]
    exact wired.attached
  numbered := by
    rw [tasks, nextTask]
    exact wired.numbered
  counted := by
    rw [generation, nextTask]
    exact wired.counted

theorem Wired.register (wired : Wired system) (id hash instance' : String) (lane lanes : Nat) :
    Wired (system.register id hash instance' lane lanes).1 := by
  unfold System.register
  split
  · exact wired
  · split
    · exact wired
    · rename_i inner added registered
      obtain ⟨_, _, _, rfl, rfl⟩ := register_spec registered
      have next : (system.inner.generation + 1) % 2 ^ 64 = (system.nextTask + 1) % 2 ^ 64 := by
        rw [wired.counted]
        omega
      refine ⟨?_, ?_, ?_, next⟩
      · intro peer other connection connected
        rcases register_connected registered connected with ⟨rfl, rfl, rfl⟩ | ⟨_, known, _⟩
        · exact ⟨_, Dict.get?_insert_self _ _ _, rfl, rfl, rfl, rfl⟩
        · obtain ⟨task, found, rest⟩ := wired.linked known
          have older := (wired.numbered found).1
          refine ⟨task, ?_, rest⟩
          rw [Dict.get?_insert_ne _ _ (by omega)]
          exact found
      · intro number task found registered
        rcases Dict.get?_of_insert found with ⟨_, rfl⟩ | ⟨_, found⟩
        · rfl
        · exact wired.attached found registered
      · intro number task found
        dsimp only
        rcases Dict.get?_of_insert found with ⟨rfl, rfl⟩ | ⟨_, found⟩
        · exact ⟨by omega, next⟩
        · obtain ⟨below, numbered⟩ := wired.numbered found
          exact ⟨by omega, numbered⟩

theorem Wired.teardown (wired : Wired system) (number : Nat) :
    Wired (system.teardown number) := by
  unfold System.teardown
  split
  · rename_i task found
    split
    · have generation : (system.inner.teardown task.peer task.lane task.generation).generation =
          system.inner.generation := by
        unfold Inner.teardown
        split <;> rfl
      refine ⟨?_, ?_, ?_, generation.trans wired.counted⟩
      · intro peer lane connection connected
        obtain ⟨known, other⟩ := teardown_connected.mp connected
        obtain ⟨owner, owned, rfl, rfl, same, registered⟩ := wired.linked known
        refine ⟨owner, ?_, rfl, rfl, same, registered⟩
        -- the connection of the task itself would have been removed
        have different : connection.channel ≠ number := by
          rintro rfl
          rw [found, Option.some.injEq] at owned
          subst owned
          exact other ⟨rfl, rfl, same.symm⟩
        rw [Dict.get?_insert_ne _ _ different]
        exact owned
      · intro other task' present registered
        rcases Dict.get?_of_insert present with ⟨_, rfl⟩ | ⟨_, present⟩
        · cases registered
        · exact wired.attached present registered
      · intro other task' present
        rcases Dict.get?_of_insert present with ⟨rfl, rfl⟩ | ⟨_, present⟩
        · have known := wired.numbered found
          exact known
        · exact wired.numbered present
    · exact wired
  · exact wired

theorem Wired.close (wired : Wired system) (number : Nat) :
    Wired (system.close number) := by
  unfold System.close
  split
  · rename_i task found
    split
    · exact wired
    · rename_i finished
      refine ⟨?_, ?_, ?_, wired.counted⟩
      · intro peer lane connection connected
        obtain ⟨owner, owned, rest⟩ := wired.linked connected
        refine ⟨owner, ?_, rest⟩
        have different : connection.channel ≠ number := by
          rintro rfl
          rw [found, Option.some.injEq] at owned
          subst owned
          exact finished rest.2.2.2
        rw [Dict.get?_insert_ne _ _ different]
        exact owned
      · intro other task' present registered
        rcases Dict.get?_of_insert present with ⟨_, rfl⟩ | ⟨_, present⟩
        · exact absurd registered finished
        · exact wired.attached present registered
      · intro other task' present
        rcases Dict.get?_of_insert present with ⟨rfl, rfl⟩ | ⟨_, present⟩
        · have known := wired.numbered found
          exact known
        · exact wired.numbered present
  · exact wired

theorem Wired.step {system} (wired : Wired system) (tokenDigest : String → String) (action : Action) :
    Wired (system.step tokenDigest action).1 := by
  have ticked (elapsed : Nat) : Wired (system.tick elapsed) := wired.calm (calm_tick system elapsed)
  cases action with
  | publish elapsed id hash instance' ip allowed fresh =>
      obtain ⟨connections, generation⟩ := publish_connections system.inner tokenDigest
        (system.time + elapsed) id hash instance' ip allowed fresh
      refine wired.fewer ?_ rfl rfl generation
      intro peer lane connection connected
      unfold Connected at connected ⊢
      rwa [← connections]
  | revoke elapsed ids =>
      exact wired.fewer revoke_connected rfl rfl (retire_all _ _).1
  | register elapsed id hash instance' lane lanes => exact (ticked elapsed).register ..
  | teardown task => exact wired.teardown task
  | close task => exact wired.close task
  | _ => exact wired.calm (calm_step tokenDigest system rfl)

end Wiring

end PortHub.Api.PrivateRelay
