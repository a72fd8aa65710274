import PortHub.Api.ExitNodes

/-! # The exit-route graph stays valid

A machine uses at most one enabled route and serves none while it uses one. Every
check runs on proposed records; what is stored has the same groups exactly when
the array of a record does not hide its single group.
-/

namespace PortHub.Api.ExitNodes

open Runs

section Graph

variable {α : Type} [DecidableEq α] (ids : ObjectIds α)

/-- A machine stands on one side of a route. -/
def Stands (workspace : Workspace α) (route : Route) (side : Side) (id : α) : Prop :=
  ∃ machine, workspace.machines.get? id = some machine ∧ machine.deletionPending = false ∧
    matchesSelectors ids route side id machine = true

/-- A route that is stored and enabled. -/
def Enabled (workspace : Workspace α) (key : α) (route : Route) : Prop :=
  workspace.routes.get? key = some route ∧ route.isEnabled = true

/-- Every machine is a client of at most one enabled route, and no client of one is
    a routing peer of any. -/
structure Valid (workspace : Workspace α) : Prop where
  single : ∀ id first second one two, Enabled workspace first one → Enabled workspace second two →
    Stands ids workspace one .distribution id → Stands ids workspace two .distribution id →
    first = second
  apart : ∀ id first second one two, Enabled workspace first one → Enabled workspace second two →
    Stands ids workspace one .distribution id → ¬ Stands ids workspace two .routing id

/-- Two records of a machine are in the same groups. -/
def SameGroups (left right : Machine α) : Prop := ∀ group, group ∈ left.groups ids ↔ group ∈ right.groups ids

end Graph

section Selecting

variable {α : Type} [DecidableEq α] {ids : ObjectIds α} {workspace : Workspace α}
  {entry : α × Machine α} {route : Route} {side : Side} {id : α} {peers : List α}
  {machines proposed : List (α × Machine α)}

theorem mem_enabledRoutes {entry} :
    entry ∈ workspace.enabledRoutes ↔ Enabled workspace entry.1 entry.2 := by
  simp [Workspace.enabledRoutes, Enabled, Dict.get?_eq_some_iff]

theorem mem_live :
    entry ∈ workspace.live ↔
      workspace.machines.get? entry.1 = some entry.2 ∧ entry.2.deletionPending = false := by
  simp [Workspace.live, Dict.get?_eq_some_iff]

theorem matchesSelectors_iff {machine} :
    matchesSelectors ids route side id machine = true ↔
      ∃ selectors, route.selectors side = some selectors ∧
        ∃ selector ∈ selectors, selector.matches ids id machine = true := by
  unfold matchesSelectors selectorPriority
  cases route.selectors side <;> simp [List.findIdx?_isSome]

theorem matches_iff {selector : Selector} {machine} :
    selector.matches ids id machine = true ↔
      selector.kind = "machine" ∧ selector.id = ids.toHex id ∨
      selector.kind = "group" ∧ ∃ group, ids.parseStr selector.id = some group ∧
        group ∈ machine.groups ids := by
  unfold Selector.matches
  by_cases machineKind : selector.kind = "machine"
  · simp [machineKind]
  · by_cases groupKind : selector.kind = "group"
    · cases parsed : ids.parseStr selector.id <;> simp [groupKind]
    · simp [machineKind, groupKind]

theorem matchesSelectors_congr {left right} (same : SameGroups ids left right) :
    matchesSelectors ids route side id left = matchesSelectors ids route side id right := by
  rw [Bool.eq_iff_iff, matchesSelectors_iff, matchesSelectors_iff]
  simp only [matches_iff, same _]

theorem mem_disjoint {left right} (apart : disjoint left right = true) (first : id ∈ left) :
    id ∉ right := by
  simp only [disjoint, List.all_eq_true] at apart
  simpa using apart id first

/-- `machine_ids` finds every machine that the selectors of a route match. -/
theorem machineIds_complete {selectors found} (read : readSelectors ids route side = .ok selectors)
    (resolved : machineIds ids workspace selectors = .ok found)
    (stands : Stands ids workspace route side id) : id ∈ found := by
  obtain ⟨machine, there, live, matching⟩ := stands
  obtain ⟨stored, given, selector, member, matched⟩ := matchesSelectors_iff.mp matching
  have same : stored = selectors := by
    simp only [readSelectors, given] at read
    split at read
    · exact Except.ok.inj read
    · cases read
  subst same
  obtain ⟨direct, directly, resolved⟩ := bind_eq_ok.mp resolved
  obtain ⟨selected, grouped, resolved⟩ := bind_eq_ok.mp resolved
  have resolved := ok_of_then (ok_of_then resolved)
  cases resolved
  rcases matches_iff.mp matched with ⟨kind, text⟩ | ⟨kind, group, parsed, inside⟩
  · refine List.mem_append_left _ ((mem_mapM_ok_iff directly).mpr ⟨selector, ?_, ?_⟩)
    · simp [member, kind]
    · rw [objectId_eq_ok, text]
      exact ids.parse_toHex id
  · refine List.mem_append_right _ (List.mem_map.mpr ⟨(id, machine), ?_, rfl⟩)
    have chosen : group ∈ selected :=
      (mem_mapM_ok_iff grouped).mpr ⟨selector, by simp [member, kind], objectId_eq_ok.mpr parsed⟩
    simp only [List.mem_filter, mem_live, List.any_eq_true]
    exact ⟨⟨there, live⟩, group, inside, by simpa using chosen⟩

/-- What `reject_overlapping_assignments` promises about an enabled candidate. -/
structure Admissible (ids : ObjectIds α) (workspace : Workspace α) (candidate : Route) (key : α) :
    Prop where
  own : ∀ id, Stands ids workspace candidate .distribution id →
    ¬ Stands ids workspace candidate .routing id
  single : ∀ other route, other ≠ key → Enabled workspace other route → ∀ id,
    Stands ids workspace candidate .distribution id → ¬ Stands ids workspace route .distribution id
  served : ∀ other route, other ≠ key → Enabled workspace other route → ∀ id,
    Stands ids workspace candidate .distribution id → ¬ Stands ids workspace route .routing id
  serving : ∀ other route, other ≠ key → Enabled workspace other route → ∀ id,
    Stands ids workspace route .distribution id → ¬ Stands ids workspace candidate .routing id

theorem forM_ok {β : Type} {check : β → ApiResult Unit} {items : List β}
    (passed : items.forM check = .ok ()) : ∀ item ∈ items, check item = .ok () := by
  induction items with
  | nil => simp
  | cons item rest ih =>
      obtain ⟨_, first, others⟩ := bind_eq_ok.mp passed
      intro other member
      rcases List.mem_cons.mp member with rfl | later
      · exact first
      · exact ih others other later

theorem rejectRoute_ok {machines} (passed : rejectRoute ids workspace machines peers route = .ok ())
    (assigned : Stands ids workspace route .distribution id) : id ∉ machines ∧ id ∉ peers := by
  obtain ⟨distribution, read, passed⟩ := bind_eq_ok.mp passed
  obtain ⟨clients, resolved, passed⟩ := bind_eq_ok.mp passed
  obtain ⟨_, single, passed⟩ := bind_eq_ok.mp passed
  obtain ⟨_, _, passed⟩ := bind_eq_ok.mp passed
  obtain ⟨_, _, passed⟩ := bind_eq_ok.mp passed
  have member := machineIds_complete read resolved assigned
  simp only [refuseIf_eq_ok, Bool.or_eq_false_iff, Bool.not_eq_false'] at single passed
  exact ⟨fun client => mem_disjoint single client member, fun peer => mem_disjoint passed.1 peer member⟩

theorem rejectRoute_routing {machines}
    (passed : rejectRoute ids workspace machines peers route = .ok ())
    (serving : Stands ids workspace route .routing id) : id ∉ machines := by
  obtain ⟨_, _, passed⟩ := bind_eq_ok.mp passed
  obtain ⟨_, _, passed⟩ := bind_eq_ok.mp passed
  obtain ⟨_, _, passed⟩ := bind_eq_ok.mp passed
  obtain ⟨routing, read, passed⟩ := bind_eq_ok.mp passed
  obtain ⟨serves, resolved, passed⟩ := bind_eq_ok.mp passed
  have member := machineIds_complete read resolved serving
  simp only [refuseIf_eq_ok, Bool.or_eq_false_iff, Bool.not_eq_false'] at passed
  exact fun client => mem_disjoint passed.2 client member

theorem reject_admissible {candidate exclude key}
    (passed : rejectOverlappingAssignments ids workspace candidate exclude = .ok ())
    (enabled : candidate.isEnabled = true) (others : ∀ other, other ≠ key → some other ≠ exclude) :
    Admissible ids workspace candidate key := by
  have on : candidate.enabled ≠ some false := by simpa [Route.isEnabled] using enabled
  rw [rejectOverlappingAssignments, if_neg on] at passed
  obtain ⟨distribution, readDistribution, passed⟩ := bind_eq_ok.mp passed
  obtain ⟨machines, resolved, passed⟩ := bind_eq_ok.mp passed
  have passed := ok_of_then (ok_of_then passed)
  obtain ⟨routing, readRouting, passed⟩ := bind_eq_ok.mp passed
  obtain ⟨peers, served, passed⟩ := bind_eq_ok.mp passed
  have passed := ok_of_then (ok_of_then passed)
  obtain ⟨_, own, passed⟩ := bind_eq_ok.mp passed
  simp only [refuseIf_eq_ok, Bool.not_eq_false'] at own
  have consumes {id : α} (stands : Stands ids workspace candidate .distribution id) : id ∈ machines :=
    machineIds_complete readDistribution resolved stands
  have serves {id : α} (stands : Stands ids workspace candidate .routing id) : id ∈ peers :=
    machineIds_complete readRouting served stands
  have against {other : α} {route : Route} (different : other ≠ key)
      (there : Enabled workspace other route) : rejectRoute ids workspace machines peers route = .ok () := by
    refine forM_ok passed (other, route) (List.mem_filter.mpr ⟨mem_enabledRoutes.mpr there, ?_⟩)
    simpa using others other different
  refine ⟨fun id client peer => mem_disjoint own (consumes client) (serves peer), ?_, ?_, ?_⟩
  · intro other route different there id client assigned
    exact (rejectRoute_ok (against different there) assigned).1 (consumes client)
  · intro other route different there id client serving
    exact rejectRoute_routing (against different there) serving (consumes client)
  · intro other route different there id assigned peer
    exact (rejectRoute_ok (against different there) assigned).2 (serves peer)

/-- Routes do not decide where machines stand. -/
theorem stands_routes {routes} :
    Stands ids { workspace with routes := routes } route side id ↔ Stands ids workspace route side id :=
  Iff.rfl

theorem Valid.putRoute (valid : Valid ids workspace) {key}
    (admissible : route.isEnabled = true → Admissible ids workspace route key) :
    Valid ids { workspace with routes := workspace.routes.insert key route } := by
  have cases_ {other : α} {stored : Route}
      (there : Enabled { workspace with routes := workspace.routes.insert key route } other stored) :
      other = key ∧ stored = route ∨ other ≠ key ∧ Enabled workspace other stored := by
    by_cases same : other = key
    · subst same
      have found := there.1
      rw [Dict.get?_insert_self] at found
      exact .inl ⟨rfl, (Option.some.inj found).symm⟩
    · have found := there.1
      rw [Dict.get?_insert_ne _ _ same] at found
      exact .inr ⟨same, found, there.2⟩
  constructor
  · intro id first second one two firstOn secondOn client other
    rw [stands_routes] at client other
    rcases cases_ firstOn with ⟨rfl, rfl⟩ | ⟨notFirst, firstThere⟩ <;>
      rcases cases_ secondOn with ⟨rfl, rfl⟩ | ⟨notSecond, secondThere⟩
    · rfl
    · exact ((admissible firstOn.2).single _ _ notSecond secondThere id client other).elim
    · exact ((admissible secondOn.2).single _ _ notFirst firstThere id other client).elim
    · exact valid.single id first second one two firstThere secondThere client other
  · intro id first second one two firstOn secondOn client peer
    rw [stands_routes] at client peer
    rcases cases_ firstOn with ⟨rfl, rfl⟩ | ⟨notFirst, firstThere⟩ <;>
      rcases cases_ secondOn with ⟨rfl, rfl⟩ | ⟨notSecond, secondThere⟩
    · exact (admissible firstOn.2).own id client peer
    · exact (admissible firstOn.2).served _ _ notSecond secondThere id client peer
    · exact (admissible secondOn.2).serving _ _ notFirst firstThere id client peer
    · exact valid.apart id first second one two firstThere secondThere client peer

theorem Valid.dropRoute (valid : Valid ids workspace) (key : α) :
    Valid ids { workspace with routes := workspace.routes.erase key } := by
  have earlier {other : α} {route : Route}
      (there : Enabled { workspace with routes := workspace.routes.erase key } other route) :
      Enabled workspace other route :=
    ⟨workspace.routes.erase_sub key _ _ there.1, there.2⟩
  exact ⟨fun id first second one two firstOn secondOn client other =>
      valid.single id first second one two (earlier firstOn) (earlier secondOn) client other,
    fun id first second one two firstOn secondOn client peer =>
      valid.apart id first second one two (earlier firstOn) (earlier secondOn) client peer⟩

theorem mem_overlay_kept (member : entry ∈ machines)
    (unchanged : ∀ changed ∈ proposed, changed.1 ≠ entry.1) :
    entry ∈ overlay machines proposed := by
  induction proposed generalizing machines with
  | nil => exact member
  | cons changed rest ih =>
      refine ih ?_ fun other later => unchanged other (List.mem_cons_of_mem _ later)
      have different := unchanged changed List.mem_cons_self
      exact List.mem_append_left _ (List.mem_filter.mpr ⟨member, by simpa using different.symm⟩)

theorem mem_overlay_proposed (distinct : (proposed.map Prod.fst).Nodup)
    (member : entry ∈ proposed) :
    entry ∈ overlay machines proposed := by
  induction proposed generalizing machines with
  | nil => cases member
  | cons changed rest ih =>
      rw [List.map_cons, List.nodup_cons] at distinct
      rcases List.mem_cons.mp member with rfl | later
      · have last : entry ∈ machines.filter (·.1 != entry.1) ++ [entry] := by simp
        change entry ∈ overlay (machines.filter (·.1 != entry.1) ++ [entry]) rest
        refine mem_overlay_kept last ?_
        intro other inside same
        exact distinct.1 (List.mem_map.mpr ⟨other, inside, same⟩)
      · exact ih distinct.2 later

theorem mem_selected :
    id ∈ selected ids machines route side ↔
      ∃ machine, (id, machine) ∈ machines ∧ matchesSelectors ids route side id machine = true := by
  simp [selected]

/-- Routes that pass have disjoint clients, and both sides are collected. -/
theorem validateRoutes_ok {routes clients allClients allPeers}
    (passed : validateRoutes ids workspace machines clients peers routes = .ok (allClients, allPeers)) :
    (∀ id ∈ clients, id ∈ allClients) ∧ (∀ id ∈ peers, id ∈ allPeers) ∧
    (∀ route ∈ routes, ∀ id ∈ selected ids machines route .distribution, id ∉ clients ∧ id ∈ allClients) ∧
    (∀ route ∈ routes, ∀ id ∈ selected ids machines route .routing, id ∈ allPeers) ∧
    routes.Pairwise fun one two => ∀ id ∈ selected ids machines one .distribution,
      id ∉ selected ids machines two .distribution := by
  induction routes generalizing clients peers with
  | nil =>
      cases passed
      simp
  | cons route rest ih =>
      obtain ⟨_, first, passed⟩ := bind_eq_ok.mp passed
      have single := ok_of_then (ok_of_then (ok_of_then first))
      simp only [refuseIf_eq_ok, Bool.not_eq_false'] at single
      obtain ⟨keptClients, keptPeers, later, routing, pairwise⟩ := ih passed
      simp only [List.mem_append, not_or] at keptClients keptPeers later
      refine ⟨fun id member => keptClients id (.inl member), fun id member => keptPeers id (.inl member),
        ?_, ?_, List.pairwise_cons.mpr ⟨?_, pairwise⟩⟩
      · intro other member id inside
        rcases List.mem_cons.mp member with rfl | among
        · exact ⟨fun before => mem_disjoint single before inside, keptClients id (.inr inside)⟩
        · exact ⟨(later other among id inside).1.1, (later other among id inside).2⟩
      · intro other member id inside
        rcases List.mem_cons.mp member with rfl | among
        · exact keptPeers id (.inr inside)
        · exact routing other among id inside
      · intro other member id mine theirs
        exact (later other member id theirs).1.2 mine

/-- The records that are stored have the groups of records that were checked. -/
def Reflects (ids : ObjectIds α) (workspace after : Workspace α) (proposed : List (α × Machine α)) :
    Prop :=
  ∀ id machine, after.machines.get? id = some machine → machine.deletionPending = false →
    ∃ checked, (id, checked) ∈ overlay workspace.live proposed ∧ SameGroups ids machine checked

theorem Reflects.stands {after} (reflects : Reflects ids workspace after proposed)
    (stands : Stands ids after route side id) :
    id ∈ selected ids (overlay workspace.live proposed) route side := by
  obtain ⟨machine, there, live, matching⟩ := stands
  obtain ⟨checked, member, same⟩ := reflects id machine there live
  exact mem_selected.mpr ⟨checked, member, by rwa [← matchesSelectors_congr same]⟩

/-- A change that stores what was checked keeps the graph valid. -/
theorem validated_valid {after : Workspace α}
    (passed : validateMachineChanges ids workspace proposed = .ok ())
    (routes : after.routes = workspace.routes) (reflects : Reflects ids workspace after proposed) :
    Valid ids after := by
  have earlier {key : α} {route : Route} (there : Enabled after key route) :
      (key, route) ∈ workspace.enabledRoutes :=
    mem_enabledRoutes.mpr ⟨routes ▸ there.1, there.2⟩
  by_cases none : workspace.enabledRoutes.isEmpty = true
  · rw [List.isEmpty_iff] at none
    exact ⟨fun id first second one two firstOn => by simpa [none] using earlier firstOn,
      fun id first second one two firstOn => by simpa [none] using earlier firstOn⟩
  · rw [validateMachineChanges, if_neg none] at passed
    obtain ⟨⟨clients, peers⟩, checked, passed⟩ := bind_eq_ok.mp passed
    simp only [refuseIf_eq_ok, Bool.not_eq_false'] at passed
    obtain ⟨_, _, consuming, routing, pairwise⟩ := validateRoutes_ok checked
    constructor
    · intro id first second one two firstOn secondOn client other
      by_contra different
      let machines := overlay workspace.live proposed
      have symmetric : Std.Symm fun one two : α × Route =>
          ∀ id ∈ selected ids machines one.2 .distribution, id ∉ selected ids machines two.2 .distribution :=
        ⟨fun _ _ apart id mine theirs => apart id theirs mine⟩
      have apart := (List.pairwise_map.mp pairwise).forall
      exact apart (earlier firstOn) (earlier secondOn) (by simp [different]) id
        (reflects.stands client) (reflects.stands other)
    · intro id first second one two firstOn secondOn client peer
      have inClients := (consuming one (List.mem_map.mpr ⟨_, earlier firstOn, rfl⟩) id
        (reflects.stands client)).2
      have inPeers := routing two (List.mem_map.mpr ⟨_, earlier secondOn, rfl⟩) id
        (reflects.stands peer)
      exact mem_disjoint passed inClients inPeers

end Selecting

section Records

variable {α : Type} [DecidableEq α] (ids : ObjectIds α)

/-- The group that the single field of an older record names. -/
def Machine.legacy (machine : Machine α) : Option α := machine.groupId.bind (Value.id? ids)

/-- A record from which the deletion of a group removes that group and nothing
    else: the group is named by its id, and where the array names only this group
    the single field names no other. -/
def DeletesCleanly (group : α) (machine : Machine α) : Prop :=
  (∀ value ∈ machine.groupIds.getD [], value.id? ids = some group → value = .objectId group) ∧
  (machine.names ids = [] → machine.legacy ids = some group →
    machine.groupId = some (.objectId group)) ∧
  (group ∈ machine.names ids → (∀ other ∈ machine.names ids, other = group) →
    machine.legacy ids = none ∨ machine.groupId = some (.objectId group))

/-- A record for which a member change stores the groups that it checked. -/
def StoresCleanly (group : α) (member : Bool) (machine : Machine α) : Prop :=
  if member then
    machine.groupIds.getD [] ≠ [] → machine.names ids = [] →
      ∀ legacy, machine.legacy ids = some legacy → legacy = group
  else
    (∀ value ∈ machine.groupIds.getD [], value.id? ids = some group →
      value = .objectId group ∨ value = .string (ids.toHex group)) ∧
    (group ∈ machine.names ids → (∀ other ∈ machine.names ids, other = group) →
      machine.legacy ids = none) ∧
    (machine.groupIds.getD [] ≠ [] → machine.names ids = [] → machine.legacy ids ≠ some group)

end Records

section Storing

variable {α : Type} [DecidableEq α] {ids : ObjectIds α} {machine : Machine α} {group : α}
  {other id : α} {machines : List α}

theorem mem_names :
    other ∈ machine.names ids ↔ ∃ value ∈ machine.groupIds.getD [], value.id? ids = some other := by
  simp [Machine.names, List.mem_eraseDups]

/-- What `inventory::group_ids` reads. -/
theorem mem_groups :
    other ∈ machine.groups ids ↔
      other ∈ machine.names ids ∨ machine.names ids = [] ∧ machine.legacy ids = some other := by
  unfold Machine.groups Machine.legacy
  cases same : machine.names ids with
  | nil => cases machine.groupId.bind (Value.id? ids) <;> simp [eq_comm]
  | cons first rest => simp

theorem mem_groups_propose {groups} :
    other ∈ (propose machine groups).groups ids ↔ other ∈ groups := by
  have named : other ∈ (propose machine groups).names ids ↔ other ∈ groups := by
    simp [mem_names, propose, Value.id?]
  rw [mem_groups, named]
  simp [Machine.legacy, propose]

theorem pullGroup_eq : pullGroup group machine =
    { machine with
      groupIds := machine.groupIds.map (List.filter fun value => value != .objectId group) } := by
  unfold pullGroup
  split
  · rfl
  · rename_i absent
    obtain ⟨pending, native, _ | values, single⟩ := machine
    · rfl
    · have all : values.filter (fun value => value != .objectId group) = values := by
        rw [List.filter_eq_self]
        intro value member
        simp only [bne_iff_ne]
        rintro rfl
        simp [member] at absent
      simp only [Option.map_some, all]

@[simp] theorem unsetGroup_names : (unsetGroup group machine).names ids = machine.names ids := by
  unfold unsetGroup
  split <;> rfl

theorem unsetGroup_legacy : (unsetGroup group machine).legacy ids =
    if machine.groupId = some (.objectId group) then none else machine.legacy ids := by
  unfold unsetGroup
  split <;> rfl

/-- The groups of a record that a group is removed from, by what its array still names
    and what its single field still names. -/
theorem removed_iff {stored : Machine α} (names : ∀ other ∈ stored.names ids, other ∈ machine.names ids)
    (kept : ∀ other ∈ machine.names ids, other ≠ group → other ∈ stored.names ids) :
    (∀ other, other ∈ stored.groups ids ↔ other ∈ machine.groups ids ∧ other ≠ group) ↔
      group ∉ stored.names ids ∧
      (machine.names ids = [] → ∀ other, stored.legacy ids = some other ↔
        machine.legacy ids = some other ∧ other ≠ group) ∧
      (group ∈ machine.names ids → (∀ other ∈ machine.names ids, other = group) →
        stored.legacy ids = none) := by
  have empty_iff (record : Machine α) : record.names ids = [] ↔ ∀ other, other ∉ record.names ids :=
    List.eq_nil_iff_forall_not_mem
  simp only [mem_groups]
  constructor
  · intro same
    have gone : group ∉ stored.names ids := fun still => ((same group).mp (.inl still)).2 rfl
    refine ⟨gone, ?_, ?_⟩
    · intro none other
      have bare : stored.names ids = [] := by
        rw [empty_iff]
        intro other member
        simpa [none] using names other member
      simpa [none, bare] using same other
    · intro member only
      have bare : stored.names ids = [] := by
        rw [empty_iff]
        intro other inside
        exact gone (only other (names other inside) ▸ inside)
      cases left : stored.legacy ids with
      | none => rfl
      | some other =>
          obtain ⟨inside | ⟨none, _⟩, different⟩ := (same other).mp (.inr ⟨bare, left⟩)
          · exact absurd (only other inside) different
          · simp [none] at member
  · rintro ⟨gone, bare, only⟩ other
    by_cases none : machine.names ids = []
    · have emptied : stored.names ids = [] := by
        rw [empty_iff]
        intro other member
        simpa [none] using names other member
      simpa [none, emptied] using bare none other
    · by_cases emptied : stored.names ids = []
      · have all : ∀ other ∈ machine.names ids, other = group := by
          intro other member
          by_contra different
          simpa [emptied] using kept other member different
        have member : group ∈ machine.names ids := by
          obtain ⟨first, inside⟩ := List.exists_mem_of_ne_nil _ none
          exact all first inside ▸ inside
        simp only [emptied, List.not_mem_nil, only member all, false_or, none, false_and, or_false]
        constructor
        · rintro ⟨_, ⟨⟩⟩
        · rintro ⟨inside, different⟩
          exact absurd (all other inside) different
      · simp only [emptied, none, false_and, or_false]
        constructor
        · intro member
          refine ⟨names other member, ?_⟩
          rintro rfl
          exact gone member
        · rintro ⟨member, different⟩
          exact kept other member different

/-- A deleted group leaves the groups that were checked exactly for clean records. -/
theorem deletes_iff :
    SameGroups ids (unsetGroup group (pullGroup group machine)) (withoutGroup ids group machine) ↔
      DeletesCleanly ids group machine := by
  have array : ∀ value, value ∈ (pullGroup group machine).groupIds.getD [] ↔
      value ∈ machine.groupIds.getD [] ∧ value ≠ .objectId group := by
    rw [pullGroup_eq]
    cases machine.groupIds <;> simp
  have legacy : (unsetGroup group (pullGroup group machine)).legacy ids =
      if machine.groupId = some (.objectId group) then none else machine.legacy ids := by
    rw [unsetGroup_legacy, pullGroup_eq]
    rfl
  have names {other : α} : other ∈ (unsetGroup group (pullGroup group machine)).names ids ↔
      ∃ value ∈ machine.groupIds.getD [], value ≠ .objectId group ∧ value.id? ids = some other := by
    rw [unsetGroup_names, mem_names]
    simp only [array, and_assoc]
  have removed := @removed_iff α _ ids machine group (unsetGroup group (pullGroup group machine))
    (fun other member => by
      obtain ⟨value, inside, _, named⟩ := names.mp member
      exact mem_names.mpr ⟨value, inside, named⟩)
    (fun other member different => by
      obtain ⟨value, inside, named⟩ := mem_names.mp member
      refine names.mpr ⟨value, inside, ?_, named⟩
      rintro rfl
      exact different (Option.some.inj named).symm)
  simp only [SameGroups, withoutGroup, mem_groups_propose, List.mem_filter, bne_iff_ne]
  rw [removed, DeletesCleanly, names, legacy]
  refine and_congr ?_ (and_congr ?_ ?_)
  · simp only [not_exists, not_and]
    grind
  · refine imp_congr_right fun none => ?_
    have named : machine.groupId = some (.objectId group) → machine.legacy ids = some group := by
      intro same
      simp [Machine.legacy, same, Value.id?]
    grind
  · refine imp_congr_right fun member => imp_congr_right fun only => ?_
    grind

/-- A record whose single group is moved into the array. -/
theorem migrateGroup_cases (empty : ids.parseStr "" = none) (machine : Machine α) :
    machine.groupIds.getD [] = [] ∧ migrateGroup ids machine = propose machine (machine.groups ids) ∨
      migrateGroup ids machine = machine ∧ (machine.groupIds.getD [] = [] → machine.legacy ids = none) := by
  unfold migrateGroup
  split
  · rename_i moved
    simp only [Bool.and_eq_true, Bool.not_eq_true'] at moved
    refine .inl ⟨?_, rfl⟩
    cases array : machine.groupIds with
    | none => rfl
    | some values => simpa [array] using moved.2
  · rename_i stays
    refine .inr ⟨rfl, ?_⟩
    intro bare
    cases single : machine.groupId with
    | none => simp [Machine.legacy, single]
    | some value =>
        have dull : value.truthy = false := by
          cases array : machine.groupIds <;> simp_all
        cases value with
        | objectId => cases dull
        | string text =>
            obtain rfl : text = "" := by simpa [Value.truthy] using dull
            simp [Machine.legacy, single, Value.id?, empty]
        | other => simp [Machine.legacy, single, Value.id?]

theorem mem_groups_added (member : machines.contains id = true) (record : Machine α) :
    other ∈ (storeMember ids group machines id record).groups ids ↔
      other ∈ record.names ids ∨ other = group := by
  have array (value : Value α) : value ∈ (storeMember ids group machines id record).groupIds.getD [] ↔
      value ∈ record.groupIds.getD [] ∨ value = .objectId group := by
    simp only [storeMember, member, if_true, Option.getD_some]
    split
    · rename_i there
      simp only [List.contains_iff_mem] at there
      constructor
      · exact .inl
      · rintro (inside | rfl)
        · exact inside
        · exact there
    · simp
  have names (other : α) : other ∈ (storeMember ids group machines id record).names ids ↔
      other ∈ record.names ids ∨ other = group := by
    simp only [mem_names, array, or_and_right, exists_or, exists_eq_left, Value.id?, Option.some.injEq,
      eq_comm]
  have some : (storeMember ids group machines id record).names ids ≠ [] := by
    intro none
    simpa [none] using (names group).mpr (.inr rfl)
  rw [mem_groups]
  simp only [some, false_and, or_false, names]

theorem mem_stored (member : machines.contains id = false) {record value} :
    value ∈ (storeMember ids group machines id record).groupIds.getD [] ↔
      value ∈ record.groupIds.getD [] ∧ value ≠ .objectId group ∧
        value ≠ .string (ids.toHex group) := by
  simp only [storeMember, member, Bool.false_eq_true, if_false]
  cases record.groupIds <;> simp

/-- A member change stores the groups that were checked exactly for clean records. -/
theorem stores_iff (empty : ids.parseStr "" = none) :
    SameGroups ids (storeMember ids group machines id (migrateGroup ids machine))
        (withMembers ids group machines id machine) ↔
      StoresCleanly ids group (machines.contains id) machine := by
  cases member : machines.contains id with
  | true =>
      simp only [SameGroups, mem_groups_added member, withMembers, member, if_true, mem_groups_propose,
        List.mem_append, List.mem_filter, bne_iff_ne, List.mem_singleton, StoresCleanly]
      rcases migrateGroup_cases empty machine with ⟨bare, moved⟩ | ⟨stays, none⟩
      · have named (other : α) : other ∈ (migrateGroup ids machine).names ids ↔
            other ∈ machine.groups ids := by
          rw [moved]
          simp [mem_names, propose, Value.id?]
        simp only [named, bare]
        grind
      · simp only [stays, mem_groups]
        have unnamed : machine.groupIds.getD [] = [] → machine.names ids = [] := by
          intro bare
          simp [Machine.names, bare]
        grind
  | false =>
      simp only [SameGroups, withMembers, member, mem_groups_propose, List.mem_filter, bne_iff_ne,
        Bool.false_eq_true, if_false, StoresCleanly]
      rcases migrateGroup_cases empty machine with ⟨bare, moved⟩ | ⟨stays, none⟩
      · have named (other : α) :
            other ∈ (storeMember ids group machines id (migrateGroup ids machine)).groups ids ↔
              other ∈ machine.groups ids ∧ other ≠ group := by
          rw [moved, mem_groups, mem_names]
          simp only [mem_stored member, propose, Option.getD_some, List.mem_map]
          simp [storeMember, Machine.legacy, Value.id?]
          grind
        have unnamed : machine.names ids = [] := by simp [Machine.names, bare]
        simp [named, bare, unnamed]
      · rw [stays]
        have names {other : α} : other ∈ (storeMember ids group machines id machine).names ids ↔
            ∃ value ∈ machine.groupIds.getD [], (value ≠ .objectId group ∧
              value ≠ .string (ids.toHex group)) ∧ value.id? ids = some other := by
          rw [mem_names]
          simp only [mem_stored member, and_assoc]
        have legacy : (storeMember ids group machines id machine).legacy ids = machine.legacy ids := by
          simp only [storeMember, member, Bool.false_eq_true, if_false, Machine.legacy]
        have removed := @removed_iff α _ ids machine group (storeMember ids group machines id machine)
          (fun other inside => by
            obtain ⟨value, there, _, named⟩ := names.mp inside
            exact mem_names.mpr ⟨value, there, named⟩)
          (fun other inside different => by
            obtain ⟨value, there, named⟩ := mem_names.mp inside
            refine names.mpr ⟨value, there, ⟨?_, ?_⟩, named⟩
            · rintro rfl
              exact different (Option.some.inj named).symm
            · rintro rfl
              exact different (Option.some.inj (named.symm.trans (ids.parse_toHex group))))
        rw [removed, names, legacy]
        rw [and_congr_right_iff.mpr fun _ => and_comm]
        refine and_congr ?_ (and_congr Iff.rfl ?_)
        · simp only [not_exists, not_and]
          grind
        · have unnamed : machine.groupIds.getD [] = [] → machine.names ids = [] := by
            intro bare
            simp [Machine.names, bare]
          grind

end Storing

section Steps

variable {α : Type} [DecidableEq α] {ids : ObjectIds α} {workspace after : Workspace α}

theorem deleteGroup_ok {text} (accepted : deleteGroup ids workspace text = .ok after) :
    ∃ group, ids.parseStr text = some group ∧
      validateMachineChanges ids workspace
        (workspace.machines.entries.map fun entry => (entry.1, withoutGroup ids group entry.2)) = .ok () ∧
      after.routes = workspace.routes ∧
      after.machines = workspace.machines.map fun _ machine =>
        unsetGroup group (pullGroup group machine) := by
  obtain ⟨group, parsed, accepted⟩ := bind_eq_ok.mp accepted
  have accepted := ok_of_then accepted
  obtain ⟨_, passed, accepted⟩ := bind_eq_ok.mp accepted
  cases accepted
  exact ⟨group, objectId_eq_ok.mp parsed, passed, rfl, rfl⟩

theorem members_ok {text request} (accepted : members ids workspace text request = .ok after) :
    ∃ group users machines chosen added, ids.parseStr text = some group ∧
      workspace.groups.get? group = some users ∧
      membersSelected ids workspace group users request = .ok (machines, chosen, added) ∧
      validateMachineChanges ids workspace (workspace.machines.entries.map fun entry =>
        (entry.1, withMembers ids group machines entry.1 entry.2)) = .ok () ∧
      after.routes = workspace.routes ∧
      after.machines = workspace.machines.map fun id machine =>
        storeMember ids group machines id (migrateGroup ids machine) := by
  obtain ⟨group, parsed, accepted⟩ := bind_eq_ok.mp accepted
  cases found : workspace.groups.get? group with
  | none => simp [found] at accepted
  | some users =>
      simp only [found] at accepted
      obtain ⟨⟨machines, chosen, added⟩, selected, accepted⟩ := bind_eq_ok.mp accepted
      have accepted := ok_of_then (ok_of_then (ok_of_then accepted))
      obtain ⟨_, passed, accepted⟩ := bind_eq_ok.mp accepted
      cases accepted
      exact ⟨group, users, machines, chosen, added, objectId_eq_ok.mp parsed, found, selected, passed,
        rfl, rfl⟩

theorem membership_ok {machineId groupId remove}
    (accepted : membership ids workspace machineId groupId remove = .ok after) :
    ∃ id group machine, ids.parseStr machineId = some id ∧ ids.parseStr groupId = some group ∧
      workspace.machines.get? id = some machine ∧
      (membershipCandidate ids machine group remove = .ok none ∧ after = workspace ∨
        ∃ candidate, membershipCandidate ids machine group remove = .ok (some candidate) ∧
          validateMachineChanges ids workspace [(id, candidate)] = .ok () ∧
          after = { workspace with machines := workspace.machines.insert id candidate }) := by
  obtain ⟨id, first, accepted⟩ := bind_eq_ok.mp accepted
  obtain ⟨group, second, accepted⟩ := bind_eq_ok.mp accepted
  cases found : workspace.machines.get? id with
  | none => simp [found] at accepted
  | some machine =>
      simp only [found] at accepted
      have accepted := ok_of_then (ok_of_then accepted)
      obtain ⟨choice, chosen, accepted⟩ := bind_eq_ok.mp accepted
      refine ⟨id, group, machine, objectId_eq_ok.mp first, objectId_eq_ok.mp second, found, ?_⟩
      cases choice with
      | none => exact .inl ⟨chosen, (Except.ok.inj accepted).symm⟩
      | some candidate =>
          obtain ⟨_, passed, accepted⟩ := bind_eq_ok.mp accepted
          exact .inr ⟨candidate, chosen, passed, (Except.ok.inj accepted).symm⟩

theorem updateMachine_ok {machineId texts}
    (accepted : updateMachine ids workspace machineId texts = .ok after) :
    ∃ id machine groups, ids.parseStr machineId = some id ∧ workspace.machines.get? id = some machine ∧
      validGroups ids workspace texts = .ok groups ∧
      validateMachineChanges ids workspace [(id, propose machine groups)] = .ok () ∧
      after = { workspace with machines := workspace.machines.insert id (propose machine groups) } := by
  obtain ⟨id, parsed, accepted⟩ := bind_eq_ok.mp accepted
  cases found : workspace.machines.get? id with
  | none => simp [found] at accepted
  | some machine =>
      simp only [found] at accepted
      have accepted := ok_of_then accepted
      obtain ⟨groups, valid, accepted⟩ := bind_eq_ok.mp accepted
      obtain ⟨_, passed, accepted⟩ := bind_eq_ok.mp accepted
      exact ⟨id, machine, groups, objectId_eq_ok.mp parsed, found, valid, passed,
        (Except.ok.inj accepted).symm⟩

/-- The record that was checked for a machine. -/
inductive Checked (ids : ObjectIds α) (workspace : Workspace α) : Event α → α → Machine α → Prop where
  | deleteGroup {text group id machine} : ids.parseStr text = some group →
      workspace.machines.get? id = some machine →
      Checked ids workspace (.deleteGroup text) id (withoutGroup ids group machine)
  | members {text request group users machines chosen added id machine} :
      ids.parseStr text = some group → workspace.groups.get? group = some users →
      membersSelected ids workspace group users request = .ok (machines, chosen, added) →
      workspace.machines.get? id = some machine →
      Checked ids workspace (.members text request) id (withMembers ids group machines id machine)
  | membership {machineId groupId remove id group machine candidate} :
      ids.parseStr machineId = some id → ids.parseStr groupId = some group →
      workspace.machines.get? id = some machine →
      membershipCandidate ids machine group remove = .ok (some candidate) →
      Checked ids workspace (.membership machineId groupId remove) id candidate
  | updateMachine {machineId texts id machine groups} :
      ids.parseStr machineId = some id → workspace.machines.get? id = some machine →
      validGroups ids workspace texts = .ok groups →
      Checked ids workspace (.updateMachine machineId texts) id (propose machine groups)

/-- What is stored has the groups that were checked. -/
def StoresChecked (ids : ObjectIds α) (workspace : Workspace α) (event : Event α)
    (after : Workspace α) : Prop :=
  ∀ id record stored, Checked ids workspace event id record → after.machines.get? id = some stored →
    SameGroups ids stored record

/-- A group change finds records that it can store as it checked them. -/
def Clean (ids : ObjectIds α) (workspace : Workspace α) : Event α → Prop
  | .deleteGroup text => ∀ group id machine, ids.parseStr text = some group →
      workspace.machines.get? id = some machine → DeletesCleanly ids group machine
  | .members text request => ∀ group users machines chosen added id machine,
      ids.parseStr text = some group → workspace.groups.get? group = some users →
      membersSelected ids workspace group users request = .ok (machines, chosen, added) →
      workspace.machines.get? id = some machine →
      StoresCleanly ids group (machines.contains id) machine
  | _ => True

theorem get?_insert_same {id machine stored} {machines : Dict α (Machine α)}
    (there : (machines.insert id machine).get? id = some stored) : stored = machine := by
  rw [Dict.get?_insert_self] at there
  exact (Option.some.inj there).symm

/-- Accepted changes store what they checked exactly when the records are clean. -/
theorem accepted_stores_iff (empty : ids.parseStr "" = none) {event}
    (accepted : step ids workspace event = .ok after) :
    StoresChecked ids workspace event after ↔ Clean ids workspace event := by
  cases event with
  | createRoute | updateRoute | deleteRoute =>
      refine iff_of_true ?_ trivial
      rintro id record stored ⟨⟩
  | deleteGroup text =>
      obtain ⟨group, parsed, _, _, machines⟩ := deleteGroup_ok accepted
      constructor
      · intro stores other id machine same there
        obtain rfl := Option.mem_unique parsed same
        refine deletes_iff.mp (stores id _ _ (.deleteGroup parsed there) ?_)
        rw [machines, Dict.get?_map, there]
        rfl
      · intro clean id record stored checked there
        cases checked with
        | deleteGroup same found =>
            obtain rfl := Option.mem_unique parsed same
            rw [machines, Dict.get?_map, found] at there
            cases there
            exact deletes_iff.mpr (clean group id _ parsed found)
  | members text request =>
      obtain ⟨group, users, machines, chosen, added, parsed, known, selected, _, _, stored⟩ :=
        members_ok accepted
      constructor
      · intro stores group' users' machines' chosen' added' id machine parsed' known' selected' there
        obtain rfl := Option.mem_unique parsed parsed'
        obtain rfl := Option.mem_unique known known'
        obtain ⟨rfl, _⟩ := Prod.mk.inj (Except.ok.inj (selected.symm.trans selected'))
        refine (stores_iff empty).mp (stores id _ _ (.members parsed known selected there) ?_)
        rw [stored, Dict.get?_map, there]
        rfl
      · intro clean id record kept checked there
        cases checked with
        | members parsed' known' selected' found =>
            obtain rfl := Option.mem_unique parsed parsed'
            obtain rfl := Option.mem_unique known known'
            obtain ⟨rfl, _⟩ := Prod.mk.inj (Except.ok.inj (selected.symm.trans selected'))
            rw [stored, Dict.get?_map, found] at there
            cases there
            exact (stores_iff empty).mpr (clean _ _ _ _ _ id _ parsed known selected found)
  | membership machineId groupId remove =>
      refine iff_of_true ?_ trivial
      obtain ⟨id, group, machine, first, second, found, outcome⟩ := membership_ok accepted
      intro other record stored checked there
      cases checked with
      | membership first' second' found' candidate' =>
          obtain rfl := Option.mem_unique first first'
          obtain rfl := Option.mem_unique second second'
          obtain rfl := Option.mem_unique found found'
          rcases outcome with ⟨nothing, _⟩ | ⟨candidate, chosen, _, rfl⟩
          · cases nothing.symm.trans candidate'
          · obtain rfl := Option.some.inj (Except.ok.inj (chosen.symm.trans candidate'))
            obtain rfl := get?_insert_same there
            exact fun _ => Iff.rfl
  | updateMachine machineId texts =>
      refine iff_of_true ?_ trivial
      obtain ⟨id, machine, groups, parsed, found, valid, _, rfl⟩ := updateMachine_ok accepted
      intro other record stored checked there
      cases checked with
      | updateMachine parsed' found' valid' =>
          obtain rfl := Option.mem_unique parsed parsed'
          obtain rfl := Option.mem_unique found found'
          obtain rfl := Except.ok.inj (valid.symm.trans valid')
          obtain rfl := get?_insert_same there
          exact fun _ => Iff.rfl

/-- All records were checked, each under its key. -/
theorem reflects_all {check store : α → Machine α → Machine α}
    (machines : after.machines = workspace.machines.map store)
    (same : ∀ id machine, workspace.machines.get? id = some machine →
      SameGroups ids (store id machine) (check id machine)) :
    Reflects ids workspace after
      (workspace.machines.entries.map fun entry => (entry.1, check entry.1 entry.2)) := by
  intro id stored there _
  rw [machines, Dict.get?_map] at there
  obtain ⟨machine, found, rfl⟩ := Option.map_eq_some_iff.mp there
  refine ⟨check id machine, mem_overlay_proposed ?_ ?_, same id machine found⟩
  · simpa [List.map_map, Function.comp_def] using workspace.machines.distinct
  · exact List.mem_map.mpr ⟨(id, machine), Dict.get?_eq_some_iff.mp found, rfl⟩

/-- One record was checked and stored. -/
theorem reflects_one {id candidate} :
    Reflects ids workspace { workspace with machines := workspace.machines.insert id candidate }
      [(id, candidate)] := by
  intro other stored there live
  by_cases same : other = id
  · subst same
    obtain rfl := get?_insert_same there
    exact ⟨stored, mem_overlay_proposed (by simp) (by simp), fun _ => Iff.rfl⟩
  · dsimp only at there
    rw [Dict.get?_insert_ne _ _ same] at there
    refine ⟨stored, mem_overlay_kept (mem_live.mpr ⟨there, live⟩) ?_, fun _ => Iff.rfl⟩
    simpa using Ne.symm same

theorem step_valid (valid : Valid ids workspace) {event}
    (accepted : step ids workspace event = .ok after)
    (stores : StoresChecked ids workspace event after) :
    Valid ids after := by
  cases event with
  | createRoute id request =>
      have accepted := ok_of_then (ok_of_then accepted)
      obtain ⟨_, passed, accepted⟩ := bind_eq_ok.mp accepted
      have accepted := ok_of_then accepted
      cases accepted
      exact valid.putRoute fun enabled => reject_admissible passed enabled (by simp)
  | updateRoute id request =>
      have accepted := ok_of_then (ok_of_then (ok_of_then accepted))
      obtain ⟨_, passed, accepted⟩ := bind_eq_ok.mp accepted
      cases accepted
      exact valid.putRoute fun enabled => reject_admissible passed enabled (by simp)
  | deleteRoute id =>
      have accepted := ok_of_then accepted
      cases accepted
      exact valid.dropRoute id
  | deleteGroup text =>
      obtain ⟨group, parsed, passed, routes, machines⟩ := deleteGroup_ok accepted
      refine validated_valid passed routes
        (@reflects_all _ _ _ _ _ (fun _ machine => withoutGroup ids group machine) _ machines ?_)
      intro id machine there
      refine stores id _ _ (.deleteGroup parsed there) ?_
      rw [machines, Dict.get?_map, there]
      rfl
  | members text request =>
      obtain ⟨group, users, machines, chosen, added, parsed, known, selected, passed, routes, stored⟩ :=
        members_ok accepted
      refine validated_valid passed routes (reflects_all stored ?_)
      intro id machine there
      refine stores id _ _ (.members parsed known selected there) ?_
      rw [stored, Dict.get?_map, there]
      rfl
  | membership machineId groupId remove =>
      obtain ⟨id, group, machine, _, _, _, ⟨_, rfl⟩ | ⟨candidate, _, passed, rfl⟩⟩ :=
        membership_ok accepted
      · exact valid
      · exact validated_valid passed rfl reflects_one
  | updateMachine machineId texts =>
      obtain ⟨id, machine, groups, _, _, _, passed, rfl⟩ := updateMachine_ok accepted
      exact validated_valid passed rfl reflects_one

/-- Every sequence of accepted requests keeps the graph valid, and each of them stores
    exactly the groups that it checked, as long as group changes find clean records;
    and a group change that does not stores other groups. -/
theorem exit_graph_stays_valid (empty : ids.parseStr "" = none) :
    (∀ (origin final : Workspace α) (history : List (Event α)), Valid ids origin →
      Run (fun before event after => step ids before event = .ok after ∧ Clean ids before event)
        origin history final →
      Valid ids final ∧ ∀ event after, step ids final event = .ok after → Clean ids final event →
        Valid ids after ∧ StoresChecked ids final event after) ∧
    ∀ (workspace after : Workspace α) (event : Event α), step ids workspace event = .ok after →
      (StoresChecked ids workspace event after ↔ Clean ids workspace event) := by
  have stores {before after : Workspace α} {event : Event α} (accepted : step ids before event = .ok after) :
      StoresChecked ids before event after ↔ Clean ids before event :=
    accepted_stores_iff empty accepted
  refine ⟨?_, fun workspace after event accepted => stores accepted⟩
  intro origin final history valid run
  have last : Valid ids final := by
    induction run with
    | start => exact valid
    | snoc _ taken ih => exact step_valid ih taken.1 ((stores taken.1).mpr taken.2)
  refine ⟨last, fun event after accepted clean => ?_⟩
  exact ⟨step_valid last accepted ((stores accepted).mpr clean), (stores accepted).mpr clean⟩

end Steps

section Samples

open PrivateNetworks (SampleId sampleIds sampleId)

def laptop : SampleId := sampleId 0

def firstExit : SampleId := sampleId 1

def secondExit : SampleId := sampleId 2

def group : SampleId := sampleId 3

def oldGroup : SampleId := sampleId 4

def firstRoute : SampleId := sampleId 5

def secondRoute : SampleId := sampleId 6

/-- A machine that stands in a group, with the single group of an older record. -/
def machineIn (groups : List SampleId) (legacy : Option SampleId) : Machine SampleId :=
  { deletionPending := false
    nativeDeletion := false
    groupIds := some (groups.map .objectId)
    groupId := legacy.map .objectId }

def selectorOf (kind : String) (id : SampleId) : Selector := ⟨kind, sampleIds.toHex id⟩

def routeFrom (name : String) (exit : SampleId) (client : Selector) : Route :=
  { name := name
    routingSelectors := some [selectorOf "machine" exit]
    distributionSelectors := some [client]
    enabled := some true
    torEnabled := some false
    trafficMode := some "internet_only" }

/-- A laptop with its own route, and a second route for an old group. -/
def sampleWorkspace (legacy : Option SampleId) : Workspace SampleId :=
  { owner := sampleId 9
    machines := ((Dict.empty.insert laptop (machineIn [group] legacy)).insert firstExit
      (machineIn [] none)).insert secondExit (machineIn [] none)
    groups := (Dict.empty.insert group []).insert oldGroup []
    routes := (Dict.empty.insert firstRoute
      (routeFrom "first" firstExit (selectorOf "machine" laptop))).insert secondRoute
      (routeFrom "second" secondExit (selectorOf "group" oldGroup))
    privatePeers := []
    members := [] }

/-- The workspace behind the deletion of the group. -/
def sampleAfter (legacy : Option SampleId) : Workspace SampleId :=
  { sampleWorkspace legacy with
    machines := (sampleWorkspace legacy).machines.map fun _ machine =>
      unsetGroup group (pullGroup group machine)
    groups := (sampleWorkspace legacy).groups.erase group }

theorem valid_of_validated {α : Type} [DecidableEq α] {ids : ObjectIds α} {workspace : Workspace α}
    (passed : validateMachineChanges ids workspace [] = .ok ()) : Valid ids workspace :=
  validated_valid passed rfl fun _ machine there live =>
    ⟨machine, mem_live.mpr ⟨there, live⟩, fun _ => Iff.rfl⟩

theorem delete_accepted {α : Type} [DecidableEq α] {ids} {workspace : Workspace α} {group}
    (known : workspace.groups.contains group = true)
    (passed : validateMachineChanges ids workspace
      (workspace.machines.entries.map fun entry => (entry.1, withoutGroup ids group entry.2)) = .ok ()) :
    step ids workspace (.deleteGroup (ids.toHex group)) =
      .ok { workspace with
        machines := workspace.machines.map fun _ machine => unsetGroup group (pullGroup group machine)
        groups := workspace.groups.erase group } := by
  simp [step, deleteGroup, objectId, ids.parse_toHex, refuseIf, known, passed, bind, Except.bind]

theorem ok_of_isOk {result : ApiResult Unit} (fine : result.isOk = true) : result = .ok () := by
  cases result with
  | error => cases fine
  | ok u => rfl

theorem join_accepted {α : Type} [DecidableEq α] {ids} {workspace : Workspace α} {id group machine candidate}
    (there : workspace.machines.get? id = some machine) (live : machine.nativeDeletion = false)
    (known : workspace.groups.contains group = true)
    (chosen : membershipCandidate ids machine group false = .ok (some candidate))
    (passed : validateMachineChanges ids workspace [(id, candidate)] = .ok ()) :
    step ids workspace (.membership (ids.toHex id) (ids.toHex group) false) =
      .ok { workspace with machines := workspace.machines.insert id candidate } := by
  simp [step, membership, objectId, ids.parse_toHex, there, refuseIf, live, known, chosen, passed, bind, Except.bind]

/-- The second exit joins the group of the laptop. -/
def joined : Workspace SampleId :=
  { sampleWorkspace none with
    machines := (sampleWorkspace none).machines.insert secondExit (machineIn [group] none) }

/-- The group of the two machines is deleted. -/
def deleted : Workspace SampleId :=
  { joined with
    machines := joined.machines.map fun _ machine => unsetGroup group (pullGroup group machine)
    groups := joined.groups.erase group }

/-- The group of the second route is deleted too. -/
def emptied : Workspace SampleId :=
  { deleted with
    machines := deleted.machines.map fun _ machine => unsetGroup oldGroup (pullGroup oldGroup machine)
    groups := deleted.groups.erase oldGroup }

theorem clean_of_entries {α : Type} [DecidableEq α] {ids : ObjectIds α} {workspace : Workspace α} {group}
    (all : ∀ entry ∈ workspace.machines.entries, DeletesCleanly ids group entry.2) :
    Clean ids workspace (.deleteGroup (ids.toHex group)) := by
  intro named id machine parsed there
  obtain rfl := Option.some.inj ((ids.parse_toHex group).symm.trans parsed)
  exact all (id, machine) (Dict.get?_eq_some_iff.mp there)

/-- Without an older record the deletions store what they checked. -/
theorem plain_group_is_deleted :
    Run (fun before event after => step sampleIds before event = .ok after ∧ Clean sampleIds before event)
      (sampleWorkspace none) [.membership (sampleIds.toHex secondExit) (sampleIds.toHex group) false,
        .deleteGroup (sampleIds.toHex group)] deleted ∧
    step sampleIds deleted (.deleteGroup (sampleIds.toHex oldGroup)) = .ok emptied ∧
    Valid sampleIds emptied ∧
    StoresChecked sampleIds deleted (.deleteGroup (sampleIds.toHex oldGroup)) emptied := by
  have valid : Valid sampleIds (sampleWorkspace none) :=
    valid_of_validated (ok_of_isOk (by decide))
  have join : step sampleIds (sampleWorkspace none)
      (.membership (sampleIds.toHex secondExit) (sampleIds.toHex group) false) = .ok joined :=
    @join_accepted _ _ sampleIds (sampleWorkspace none) secondExit group (machineIn [] none) _
      (by decide) rfl (by decide) (by rfl) (ok_of_isOk (by decide))
  have first := @delete_accepted _ _ sampleIds joined group (by decide) (ok_of_isOk (by decide))
  have second := @delete_accepted _ _ sampleIds deleted oldGroup (by decide) (ok_of_isOk (by decide))
  have run : Run (fun before event after => step sampleIds before event = .ok after ∧ Clean sampleIds before event)
      (sampleWorkspace none) [.membership (sampleIds.toHex secondExit) (sampleIds.toHex group) false,
        .deleteGroup (sampleIds.toHex group)] deleted := by
    refine .snoc (.single ⟨join, trivial⟩) ⟨first, clean_of_entries ?_⟩
    unfold DeletesCleanly
    decide
  have clean : Clean sampleIds deleted (.deleteGroup (sampleIds.toHex oldGroup)) := by
    refine clean_of_entries ?_
    unfold DeletesCleanly
    decide
  have stays := (@exit_graph_stays_valid SampleId _ sampleIds (by decide)).1
  exact ⟨run, second, (stays _ _ _ valid run).2 _ _ second clean⟩

/-- The deletion of the only group that the array names revives the old group, and
    the laptop uses two routes. -/
theorem emptied_array_revives_old_group :
    Valid sampleIds (sampleWorkspace (some oldGroup)) ∧
    step sampleIds (sampleWorkspace (some oldGroup)) (.deleteGroup (sampleIds.toHex group)) =
      .ok (sampleAfter (some oldGroup)) ∧
    ¬ StoresChecked sampleIds (sampleWorkspace (some oldGroup)) (.deleteGroup (sampleIds.toHex group))
      (sampleAfter (some oldGroup)) ∧
    ¬ Valid sampleIds (sampleAfter (some oldGroup)) := by
  have stored : (sampleAfter (some oldGroup)).machines.get? laptop =
      some (machineIn [] (some oldGroup)) := by decide
  refine ⟨valid_of_validated (ok_of_isOk (by decide)),
    delete_accepted (by decide) (ok_of_isOk (by decide)), ?_, ?_⟩
  · intro stores
    have same := stores laptop _ _ (.deleteGroup (sampleIds.parse_toHex group)
      (show _ = some (machineIn [group] (some oldGroup)) by decide)) stored oldGroup
    revert same
    decide
  · intro valid
    have same := valid.single laptop firstRoute secondRoute
      (routeFrom "first" firstExit (selectorOf "machine" laptop))
      (routeFrom "second" secondExit (selectorOf "group" oldGroup))
      ⟨by decide, by decide⟩ ⟨by decide, by decide⟩
      ⟨_, stored, by decide, by decide⟩ ⟨_, stored, by decide, by decide⟩
    revert same
    decide

end Samples

end PortHub.Api.ExitNodes
