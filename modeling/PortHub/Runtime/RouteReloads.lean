import PortHub.Lib.Pieces
import PortHub.Runtime.WebRoutes

/-! # Runs of reloads

What a snapshot serves is what the last accepted configuration lists. The hosts of
a configuration are trimmed and lowered; those of a request also lose their trailing
dots. The gateway hosts are only lowered, so one that ends in a dot protects nothing.
-/

namespace PortHub.Runtime.Web

variable {β : Type} {lib : Libraries β} {gateways : List String} {route : Route} {host : String}

/-- The snapshot holds the pools of these routes, one for each host. -/
structure Serving (gateways : List String) (routes : Config) (snapshot : Snapshot) : Prop where
  listed : ∀ route ∈ routes, ∃ prepared, snapshot.byId.get? route.id = some prepared ∧
    prepared.route = route.normalized
  known : ∀ id prepared, snapshot.byId.get? id = some prepared →
    ∃ route ∈ routes, route.id = id ∧ prepared.route = route.normalized
  hosts : ∀ host prepared, snapshot.hosts.get? host = some prepared ↔
    (∃ id, snapshot.byId.get? id = some prepared) ∧ host ∈ prepared.route.hosts
  allowed : ∀ host prepared, snapshot.hosts.get? host = some prepared →
    validHost host = true ∧ host ∉ gateways
  distinct : (routes.map Route.id).Nodup

theorem Serving.empty (gateways : List String) : Serving gateways [] ⟨Dict.empty, Dict.empty⟩ where
  listed := by simp
  known := by simp
  hosts := by simp
  allowed := by simp
  distinct := List.nodup_nil

theorem get?_insertAll (hosts : List String) (table : Dict String Prepared) (prepared : Prepared)
    (host : String) :
    (hosts.foldl (fun hosts host => hosts.insert host prepared) table).get? host =
      if host ∈ hosts then some prepared else table.get? host := by
  induction hosts generalizing table with
  | nil => simp
  | cons first rest ih =>
      rw [List.foldl_cons, ih]
      by_cases later : host ∈ rest
      · rw [if_pos later, if_pos (List.mem_cons_of_mem _ later)]
      · rw [if_neg later]
        by_cases same : host = first
        · rw [same, Dict.get?_insert_self, if_pos List.mem_cons_self]
        · rw [Dict.get?_insert_ne _ _ same, if_neg (by simp [same, later])]

theorem checkHosts_ok {hosts taken} (checked : checkHosts gateways taken hosts = .ok ()) :
    ∀ host ∈ hosts, validHost host = true ∧ host ∉ gateways ∧ taken.get? host = none := by
  induction hosts with
  | nil => simp
  | cons host rest ih =>
      obtain ⟨_, valid, checked⟩ := bind_eq_ok.mp checked
      obtain ⟨_, apart, checked⟩ := bind_eq_ok.mp checked
      obtain ⟨_, free, checked⟩ := bind_eq_ok.mp checked
      rw [List.forall_mem_cons]
      refine ⟨⟨ensure_eq_ok.mp valid, by simpa using apart, ?_⟩, ih checked⟩
      simpa [Dict.contains] using free

/-- A pool is for the route, and stays when the route did not change. -/
theorem prepare_ok {previous next later prepared}
    (made : prepare lib previous route next = .ok (prepared, later)) :
    prepared.route = route ∧ ∀ old, previous.byId.get? route.id = some old → old.route = route →
      prepared = old := by
  unfold prepare at made
  cases found : (previous.byId.get? route.id).filter fun old => old.route == route with
  | some old =>
      rw [found] at made
      cases made
      obtain ⟨there, same⟩ := Option.filter_eq_some_iff.mp found
      refine ⟨eq_of_beq same, fun other again _ => ?_⟩
      exact Option.mem_unique there again
  | none =>
      rw [found] at made
      obtain ⟨pool, _, made⟩ := bind_eq_ok.mp made
      cases made
      refine ⟨rfl, fun old there same => ?_⟩
      rw [there] at found
      simp [same] at found

theorem Serving.add {routes built} {prepared : Prepared} (serving : Serving gateways routes built)
    (fresh : built.byId.get? route.id = none)
    (checked : checkHosts gateways built.hosts route.normalized.hosts = .ok ())
    (made : prepared.route = route.normalized) :
    Serving gateways (routes ++ [route]) (built.add prepared) := by
  have named : prepared.route.id = route.id := made ▸ rfl
  have checked := checkHosts_ok checked
  rw [← made] at checked
  have self : (built.add prepared).byId.get? route.id = some prepared := by
    rw [← named]
    exact Dict.get?_insert_self _ _ _
  have others {id : String} (other : id ≠ route.id) :
      (built.add prepared).byId.get? id = built.byId.get? id :=
    Dict.get?_insert_ne _ _ (named ▸ other)
  have kept {id : String} {old : Prepared} (found : built.byId.get? id = some old) :
      (built.add prepared).byId.get? id = some old := by
    rw [others fun same => ?_]
    · exact found
    · rw [same, fresh] at found
      cases found
  have hosts (host : String) : (built.add prepared).hosts.get? host =
      if host ∈ prepared.route.hosts then some prepared else built.hosts.get? host :=
    get?_insertAll _ _ _ _
  refine ⟨fun r member => ?_, fun id found there => ?_, fun host found => ?_,
    fun host found there => ?_, ?_⟩
  · rcases List.mem_append.mp member with earlier | last
    · obtain ⟨old, there, same⟩ := serving.listed r earlier
      exact ⟨old, kept there, same⟩
    · obtain rfl := List.mem_singleton.mp last
      exact ⟨prepared, self, made⟩
  · by_cases same : id = route.id
    · subst same
      obtain rfl := Option.mem_unique self there
      exact ⟨route, by simp, rfl, made⟩
    · rw [others same] at there
      obtain ⟨r, member, same⟩ := serving.known id found there
      exact ⟨r, List.mem_append_left _ member, same⟩
  · rw [hosts]
    constructor
    · intro there
      split at there
      · rename_i mine
        cases there
        exact ⟨⟨route.id, self⟩, mine⟩
      · obtain ⟨⟨id, old⟩, member⟩ := (serving.hosts host found).mp there
        exact ⟨⟨id, kept old⟩, member⟩
    · rintro ⟨⟨id, there⟩, member⟩
      by_cases same : id = route.id
      · subst same
        obtain rfl := Option.mem_unique self there
        exact if_pos member
      · rw [others same] at there
        have old := (serving.hosts host found).mpr ⟨⟨id, there⟩, member⟩
        rw [if_neg fun mine => ?_]
        · exact old
        · rw [(checked host mine).2.2] at old
          cases old
  · rw [hosts] at there
    split at there
    · rename_i mine
      exact ⟨(checked host mine).1, (checked host mine).2.1⟩
    · exact serving.allowed host found there
  · rw [List.map_append, List.map_singleton, List.nodup_append]
    refine ⟨serving.distinct, List.nodup_singleton _, ?_⟩
    intro id earlier other last same
    obtain ⟨r, member, rfl⟩ := List.mem_map.mp earlier
    obtain ⟨old, there, _⟩ := serving.listed r member
    rw [same, List.mem_singleton.mp last, fresh] at there
    cases there

/-- One call of `reload`, with the configuration that was accepted last. -/
def call (lib : Libraries β) (state : WebRoutes × Config) (config : Config) : WebRoutes × Config :=
  match state.1.reload lib config with
  | .ok after => (after, config)
  | .error _ => state

/-- The state after some calls. -/
def calls (lib : Libraries β) (gateways : List String) (configs : List Config) : WebRoutes × Config :=
  configs.foldl (call lib) (WebRoutes.withGatewayHosts gateways, [])

/-- The name of a route ends in no dot. -/
theorem trimEnd_validHost (valid : validHost host = true) :
    Text.trimEnd '.' host.toList = host.toList := by
  refine List.rdropWhile_eq_self_iff.mpr fun nonempty dot => ?_
  have last : host.toList.getLast nonempty = '.' := by simpa using dot
  have whole := List.dropLast_append_getLast nonempty
  rw [last] at whole
  obtain ⟨first, others, pieces, empty⟩ := @Pieces.splitOn_concat Char _ '.' host.toList.dropLast
  rw [whole] at pieces
  simp only [validHost, pieces, Bool.and_eq_true, List.all_eq_true] at valid
  have label := valid.2 [] (List.mem_cons_of_mem _ empty)
  cases label

/-- A host as it is listed stands for a host as it is requested. -/
def Names (listed requested : String) : Prop :=
  bare (String.ofList (Text.trim listed.toList)) = bare requested

theorem names_iff {listed requested} (valid : validHost (normalHost listed) = true) :
    Names listed requested ↔ normalHost listed = bare requested := by
  have plain := trimEnd_validHost valid
  have same : bare (String.ofList (Text.trim listed.toList)) = normalHost listed := by
    simp only [normalHost, lowercase, String.toList_ofList] at plain
    simp only [bare, normalHost, lowercase, String.toList_ofList, Text.toAsciiLowercase_trimEnd, plain]
  rw [Names, same]

theorem mem_normalized :
    host ∈ route.normalized.hosts ↔ ∃ listed ∈ route.hosts, normalHost listed = host := by
  simp [Route.normalized, List.mem_eraseDups]

section Served

variable {gateways : List String} {routes : Config} {snapshot : Snapshot}

/-- The hosts of a route lead to its pool. -/
theorem Serving.leads (serving : Serving gateways routes snapshot) {route} (member : route ∈ routes)
    {listed} (own : listed ∈ route.hosts) :
    ∃ prepared, snapshot.hosts.get? (normalHost listed) = some prepared ∧
      snapshot.byId.get? route.id = some prepared ∧ prepared.route = route.normalized := by
  obtain ⟨prepared, there, shaped⟩ := serving.listed route member
  refine ⟨prepared, (serving.hosts _ _).mpr ⟨⟨_, there⟩, ?_⟩, there, shaped⟩
  rw [shaped, mem_normalized]
  exact ⟨listed, own, rfl⟩

/-- What leads to a pool is a host of its route. -/
theorem Serving.comes (serving : Serving gateways routes snapshot) {host prepared}
    (there : snapshot.hosts.get? host = some prepared) :
    ∃ route ∈ routes, prepared.route = route.normalized ∧ ∃ listed ∈ route.hosts, normalHost listed = host := by
  obtain ⟨⟨id, known⟩, own⟩ := (serving.hosts host prepared).mp there
  obtain ⟨route, member, _, shaped⟩ := serving.known id prepared known
  rw [shaped, mem_normalized] at own
  exact ⟨route, member, shaped, own⟩

theorem Serving.one (serving : Serving gateways routes snapshot) {route other}
    (member : route ∈ routes) (another : other ∈ routes) {listed} (own : listed ∈ route.hosts)
    (also : normalHost listed ∈ other.normalized.hosts) : other = route := by
  obtain ⟨prepared, leads, _, shaped⟩ := serving.leads member own
  obtain ⟨again, same, written⟩ := mem_normalized.mp also
  obtain ⟨second, leads', _, shaped'⟩ := serving.leads another same
  rw [written, leads] at leads'
  cases leads'
  have ids : other.normalized.id = route.normalized.id :=
    congrArg Route.id (shaped'.symm.trans shaped)
  exact List.inj_on_of_nodup_map serving.distinct another member ids

/-- The scheme that a route enables. -/
def Route.enables (route : Route) (secure : Bool) : Bool := if secure then route.https else route.http

theorem Serving.serves_iff (serving : Serving gateways routes snapshot) (requested : String) (secure : Bool) :
    (∃ prepared, snapshot.hosts.get? (bare requested) = some prepared ∧
        prepared.route.enables secure = true) ↔
      ∃ route ∈ routes, (∃ listed ∈ route.hosts, Names listed requested) ∧ route.enables secure = true := by
  constructor
  · rintro ⟨prepared, there, enabled⟩
    obtain ⟨route, member, shaped, listed, own, same⟩ := serving.comes there
    have valid := (serving.allowed _ _ there).1
    refine ⟨route, member, ⟨listed, own, (names_iff (same ▸ valid)).mpr same⟩, ?_⟩
    rw [shaped] at enabled
    exact enabled
  · rintro ⟨route, member, ⟨listed, own, named⟩, enabled⟩
    obtain ⟨prepared, there, _, shaped⟩ := serving.leads member own
    rw [names_iff (serving.allowed _ _ there).1] at named
    refine ⟨prepared, named ▸ there, ?_⟩
    rw [shaped]
    exact enabled

end Served

section Selecting

variable {web : WebRoutes} {request : Request β} {requested : String}

end Selecting

/-- A gateway host without its dots is a gateway host as well, or no name for a route. -/
def Guarded (gateways : List String) : Prop :=
  ∀ gateway ∈ gateways, bare gateway ∈ gateways.map lowercase ∨ validHost (bare gateway) = false

/-- Libraries that take every target and read a host as it is. -/
def sampleLibraries : Libraries String where
  access := {
    bodies := ⟨"", fun text => text.isEmpty, id⟩, path := id, form := fun _ => [], sha256 := id
    cost := fun _ => .ok 10, verify := fun _ _ => false, page := "" }
  parseUrl := fun _ => .ok ⟨"http", some "127.0.0.1", "", none⟩
  percentDecode := .ok
  targetUri := fun _ => .ok ()
  isUri := fun _ => true
  authorityHost := fun text => some (String.ofList text)
  uriHost := fun _ => none

end PortHub.Runtime.Web
