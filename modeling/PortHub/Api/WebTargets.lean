import PortHub.Api.TrafficRoutes

/-! # What a published binding reaches

The snapshot holds copies of listener addresses. A copy is right when it is made;
it stays right as long as no request takes the listener away from a connection
that an enabled binding of the snapshot names.
-/

namespace PortHub.Api.TrafficRoutes

open Runs
open ExitNodes (refuseIf_eq_ok objectId_eq_ok)

section Reaching

variable {α : Type} [DecidableEq α] (ids : ObjectIds α) (lib : Libraries)

/-- The target is the listener of an enabled connection of the owner. -/
def Reaches (state : State α) (owner : α) (dataId target : String) : Prop :=
  ∃ key connection, state.connections.get? key = some connection ∧ ids.toHex key = dataId ∧
    connection.userId = owner ∧ connection.enabled = true ∧ connection.target lib = some target

/-- Every published binding belongs to a stored one, and one that was configured as a
    connection binding reaches its own connection and nobody else's. -/
structure Faithful (state : State α) : Prop where
  stored : ∀ config, state.published = some config → ∀ route ∈ config, ∃ key record,
    state.routes.get? key = some record ∧ ids.toHex key = route.id ∧
    route.bindings.map Binding.id = (record.bindings.getD []).map BindingRecord.id
  reaches : ∀ config, state.published = some config → ∀ route ∈ config, ∀ binding ∈ route.bindings,
    binding.enabled = true → ∀ key record, state.routes.get? key = some record →
    ids.toHex key = route.id → ∀ configured ∈ record.bindings.getD [], configured.id = binding.id →
    configured.targetMode = .connection →
    Reaches ids lib state record.userId configured.dataId binding.targetUrl ∧
    ∀ other connection, state.connections.get? other = some connection →
      connection.target lib = some binding.targetUrl → ids.toHex other = configured.dataId

/-- An enabled connection binding of the snapshot names the connection. -/
def Serves (state : State α) (key : α) : Prop :=
  ∃ route ∈ state.published.getD [], ∃ binding ∈ route.bindings, binding.enabled = true ∧
    ∃ entry ∈ state.routes.entries, ids.toHex entry.1 = route.id ∧
    ∃ configured ∈ entry.2.bindings.getD [], configured.id = binding.id ∧
      configured.targetMode = .connection ∧ configured.dataId = ids.toHex key

instance (state : State α) (key : α) : Decidable (Serves ids state key) := by
  unfold Serves
  infer_instance

/-- The request takes no listener from a connection that the snapshot serves. -/
def Keeps (state : State α) : Request α → Prop
  | .saveConnection _ input true _ _ =>
      ∀ key connection, ids.parseStr (input.dataId.getD "") = some key →
        state.connections.get? key = some connection → Serves ids state key →
        input.enabled.getD true = true ∧ input.externalPort = connection.externalPort
  | .deleteConnection _ dataId _ => ∀ key, ids.parseStr dataId = some key → ¬ Serves ids state key
  | _ => True

/-- Machines of any owners, and nothing else. -/
def State.initial (machines : Dict α (Machine α)) : State α := ⟨machines, .empty, .empty, none⟩

end Reaching

section Targets

variable {lib : Libraries} {port : Int} {bind target : String}

theorem after_last {c : Char} {front other rest more : List Char}
    (same : front ++ c :: rest = other ++ c :: more) (first : c ∉ rest) (second : c ∉ more) :
    rest = more := by
  rcases List.append_eq_append_iff.mp same with ⟨middle, rfl, tail⟩ | ⟨middle, rfl, tail⟩
  · cases middle with
    | nil => simpa using tail
    | cons head middle =>
        simp only [List.cons_append, List.cons.injEq] at tail
        exact absurd (tail.2 ▸ by simp) first
  · cases middle with
    | nil => simpa using tail.symm
    | cons head middle =>
        simp only [List.cons_append, List.cons.injEq] at tail
        exact absurd (tail.2 ▸ by simp) second

theorem colon_not_mem (port : Nat) : ':' ∉ Decimal.render port := by
  intro member
  exact absurd (Decimal.render_isDigit member) (by decide)

theorem socketUrl_port {first second port other}
    (same : socketUrl lib first port = socketUrl lib second other) : port = other := by
  have texts := congrArg String.toList same
  simp only [socketUrl, String.toList_ofList] at texts
  exact Decimal.render_injective (after_last texts (colon_not_mem port) (colon_not_mem other))

theorem connectionWebTarget_eq_some (made : connectionWebTarget lib port bind = some target) :
    (1 ≤ port ∧ port ≤ 65535) ∧ ∃ address, target = socketUrl lib address port.toNat := by
  simp only [connectionWebTarget, Option.bind_eq_bind, Option.bind_eq_some_iff, Option.guard_eq_some',
    Option.pure_def, Option.some.injEq] at made
  obtain ⟨_, bounds, address, _, rfl⟩ := made
  exact ⟨bounds, address, rfl⟩

/-- A target names the port that it was made for. -/
theorem target_port {other elsewhere} (first : connectionWebTarget lib port bind = some target)
    (second : connectionWebTarget lib other elsewhere = some target) : port = other := by
  obtain ⟨_, address, rfl⟩ := connectionWebTarget_eq_some first
  obtain ⟨_, another, same⟩ := connectionWebTarget_eq_some second
  have := socketUrl_port same
  omega

/-- A target has no space at its ends. -/
theorem trimText_target (made : connectionWebTarget lib port bind = some target) :
    trimText target = target := by
  obtain ⟨_, address, rfl⟩ := connectionWebTarget_eq_some made
  have nonempty := Decimal.render_ne_nil port.toNat
  have scheme : httpScheme.head? = some 'h' := by decide
  have ends : Text.trim (httpScheme ++ address.render lib ++ ':' :: Decimal.render port.toNat)
      = httpScheme ++ address.render lib ++ ':' :: Decimal.render port.toNat := by
    refine Text.ends_eq_self ?_ ?_
    · intro c head
      obtain rfl : 'h' = c := Option.some.inj head
      decide
    · intro c last
      rw [List.getLast?_append, List.getLast?_cons, List.getLast?_eq_some_getLast nonempty] at last
      obtain rfl : (Decimal.render port.toNat).getLast nonempty = c := by simpa using last
      exact Text.digit_not_space (Decimal.render_isDigit (List.getLast_mem nonempty))
  simp only [trimText, socketUrl, String.toList_ofList]
  rw [ends]

end Targets

section Snapshot

variable {α : Type} [DecidableEq α] {ids : ObjectIds α} {lib : Libraries} {state : State α}
  {binding : BindingRecord} {route : Route} {routes : List (α × Record α)}

/-- A published binding against the stored one. -/
def Carries (ids : ObjectIds α) (lib : Libraries) (state : State α) (owner : α)
    (configured : BindingRecord) (binding : Binding) : Prop :=
  binding.id = configured.id ∧
    (configured.targetMode = .connection → binding.enabled = true →
      Reaches ids lib state owner configured.dataId binding.targetUrl)

/-- A published route against a stored one. -/
structure Mirrors (ids : ObjectIds α) (lib : Libraries) (state : State α) (route : Route) (key : α)
    (record : Record α) : Prop where
  id : ids.toHex key = route.id
  stored : state.routes.get? key = some record
  bindings : List.Forall₂ (Carries ids lib state record.userId) (record.bindings.getD []) route.bindings

/-- The bindings of a record: their ids differ, and connection bindings name a connection. -/
structure WellNamed (ids : ObjectIds α) (record : Record α) : Prop where
  distinct : ((record.bindings.getD []).map BindingRecord.id).Nodup
  named : ∀ binding ∈ record.bindings.getD [], binding.targetMode = .connection →
    ∃ metadata id, binding.connection = some metadata ∧ metadata.dataId = ids.toHex id

theorem hydrateBinding_fields (connections : List (α × Connection α)) (machines : List (α × Machine α))
    (owner : α) (binding : BindingRecord) :
    (hydrateBinding ids lib connections machines owner binding).id = binding.id ∧
    (hydrateBinding ids lib connections machines owner binding).targetMode = binding.targetMode := by
  unfold hydrateBinding
  dsimp only
  split
  · split <;> simp
  · simp

/-- A connection binding that is enabled in the snapshot has the target of its connection. -/
theorem hydrateBinding_reaches {connections machines owner}
    (read : ∀ entry ∈ connections, entry ∈ state.connections.entries)
    (mode : binding.targetMode = .connection)
    (enabled : (hydrateBinding ids lib connections machines owner binding).enabled = true) :
    ∃ port bind, connectionWebTarget lib port bind
        = some (hydrateBinding ids lib connections machines owner binding).targetUrl ∧
      Reaches ids lib state owner binding.dataId
        (hydrateBinding ids lib connections machines owner binding).targetUrl := by
  unfold hydrateBinding at enabled ⊢
  simp only [if_pos mode] at enabled ⊢
  split
  · rename_i target found
    simp only [Option.bind_eq_some_iff, Option.filter_eq_some_iff] at found
    obtain ⟨⟨key, connection⟩, ⟨there, usable⟩, made⟩ := found
    have member := read _ (List.mem_of_find?_eq_some there)
    have chosen := List.find?_some there
    simp only [Bool.and_eq_true, beq_iff_eq] at chosen usable
    exact ⟨_, _, made, key, connection, Dict.get?_eq_some_iff.mpr member, chosen.1, chosen.2, usable.1, made⟩
  · rename_i missing
    rw [missing] at enabled
    cases enabled

theorem renderBinding_eq_some {hosts rendered}
    (made : renderBinding lib hosts binding = some rendered) :
    rendered.id = binding.id ∧ rendered.enabled = binding.enabled ∧
      rendered.targetUrl = trimText binding.targetUrl := by
  simp only [renderBinding, Option.bind_eq_bind, Option.bind_eq_some_iff, Option.pure_def,
    Option.some.injEq] at made
  obtain ⟨_, _, _, _, _, _, rfl⟩ := made
  exact ⟨rfl, rfl, rfl⟩

omit [DecidableEq α] in
theorem renderRoute_eq_some {id record} (made : renderRoute ids lib id record = some route) :
    route.id = ids.toHex id ∧
      ∃ hosts, (record.bindings.getD []).mapM (renderBinding lib hosts) = some route.bindings := by
  simp only [renderRoute, Option.bind_eq_bind, Option.bind_eq_some_iff, Option.pure_def,
    Option.some.injEq] at made
  obtain ⟨_, _, bindings, rendered, rfl⟩ := made
  exact ⟨rfl, _, rendered⟩

theorem forall₂_trans {β γ δ : Type} {r : β → γ → Prop} {q : γ → δ → Prop} {t : β → δ → Prop}
    (compose : ∀ a b c, r a b → q b c → t a c) {first second third}
    (left : List.Forall₂ r first second) (right : List.Forall₂ q second third) :
    List.Forall₂ t first third := by
  induction left generalizing third with
  | nil =>
      cases right
      exact .nil
  | cons head _ ih =>
      cases right with
      | cons next rest => exact .cons (compose _ _ _ head next) (ih rest)

/-- A stored binding against the one that is rendered. -/
def Hydrates (ids : ObjectIds α) (lib : Libraries) (state : State α) (owner : α)
    (configured hydrated : BindingRecord) : Prop :=
  hydrated.id = configured.id ∧
    (configured.targetMode = .connection → hydrated.enabled = true →
      (∃ port bind, connectionWebTarget lib port bind = some hydrated.targetUrl) ∧
      Reaches ids lib state owner configured.dataId hydrated.targetUrl)

omit [DecidableEq α] in
theorem mem_boundIds {entry metadata id} (member : entry ∈ routes)
    (inside : binding ∈ entry.2.bindings.getD []) (named : binding.connection = some metadata)
    (text : metadata.dataId = ids.toHex id) : id ∈ boundIds ids routes := by
  simp only [boundIds, List.mem_filterMap, List.mem_flatMap]
  exact ⟨metadata, ⟨binding, ⟨entry, member, inside⟩, named⟩, by rw [text]; exact ids.parse_toHex id⟩

theorem hydrateBindings_mem {entry} (named : ∀ entry ∈ routes, WellNamed ids entry.2)
    (member : entry ∈ hydrateBindings ids lib state routes) :
    ∃ record, (entry.1, record) ∈ routes ∧
      List.Forall₂ (Hydrates ids lib state record.userId) (record.bindings.getD [])
        (entry.2.bindings.getD []) := by
  unfold hydrateBindings at member
  dsimp only at member
  split at member
  -- Without an id to look up no binding is a connection binding.
  · rename_i nothing
    refine ⟨entry.2, member, List.forall₂_same.mpr fun binding inside => ⟨rfl, fun mode => ?_⟩⟩
    obtain ⟨metadata, id, stored, text⟩ := (named entry member).named binding inside mode
    have bound := mem_boundIds member inside stored text
    rw [List.isEmpty_iff.mp nothing] at bound
    cases bound
  · obtain ⟨⟨key, record⟩, inside, rfl⟩ := List.mem_map.mp member
    refine ⟨record, inside, ?_⟩
    cases record.bindings with
    | none => exact .nil
    | some bindings =>
        refine List.forall₂_map_right_iff.mpr (List.forall₂_same.mpr fun binding _ => ⟨?_, ?_⟩)
        · exact (hydrateBinding_fields _ _ _ binding).1
        · intro mode enabled
          obtain ⟨port, bind, made, reached⟩ :=
            hydrateBinding_reaches (fun _ => List.mem_of_mem_filter) mode enabled
          exact ⟨⟨port, bind, made⟩, reached⟩

theorem renders_carries {owner hosts configured hydrated binding}
    (first : Hydrates ids lib state owner configured hydrated)
    (second : renderBinding lib hosts hydrated = some binding) :
    Carries ids lib state owner configured binding := by
  obtain ⟨id, enabled, target⟩ := renderBinding_eq_some second
  refine ⟨id.trans first.1, fun mode on => ?_⟩
  obtain ⟨⟨port, bind, made⟩, reached⟩ := first.2 mode (enabled ▸ on)
  rw [target, trimText_target made]
  exact reached

variable {settings : Settings}

omit [DecidableEq α] in
theorem renderWebForGateway_mem {config}
    (made : renderWebForGateway ids lib settings routes = some config) (member : route ∈ config) :
    ∃ entry ∈ routes, renderRoute ids lib entry.1 entry.2 = some route := by
  simp only [renderWebForGateway, Option.bind_eq_bind, Option.bind_eq_some_iff, Option.pure_def,
    Option.some.injEq] at made
  obtain ⟨all, rendered, _, _, rfl⟩ := made
  obtain ⟨entry, inside, same⟩ := mem_of_mapM rendered (List.mem_of_mem_filter member)
  exact ⟨entry, List.mem_of_mem_filter inside, same⟩

/-- What is published mirrors the records that it was made of. -/
theorem webSnapshot_mirrors {config}
    (named : ∀ key record, state.routes.get? key = some record → WellNamed ids record)
    (made : webSnapshot ids lib settings state = .ok config) (member : route ∈ config) :
    ∃ key record, Mirrors ids lib state route key record := by
  unfold webSnapshot at made
  dsimp only at made
  split at made
  · cases made
  · rename_i rendered
    split at made
    · cases made
    · cases made
      obtain ⟨entry, hydrated, routeMade⟩ := renderWebForGateway_mem rendered member
      have listed : ∀ entry ∈ (state.routes.entries.filter fun entry => entry.2.enabled).mergeSort (older ids),
          state.routes.get? entry.1 = some entry.2 := by
        intro entry inside
        exact Dict.get?_eq_some_iff.mpr (List.mem_of_mem_filter (List.mem_mergeSort.mp inside))
      generalize (state.routes.entries.filter fun entry => entry.2.enabled).mergeSort (older ids) = routes
        at listed hydrated
      have known : ∀ entry ∈ routes, WellNamed ids entry.2 :=
        fun entry inside => named entry.1 entry.2 (listed entry inside)
      obtain ⟨record, inside, related⟩ := hydrateBindings_mem known hydrated
      obtain ⟨id, hosts, bindings⟩ := renderRoute_eq_some routeMade
      refine ⟨entry.1, record, id.symm, listed _ inside, ?_⟩
      refine forall₂_trans ?_ related (forall₂_of_mapM bindings)
      intro configured hydrated binding first second
      exact renders_carries first second

end Snapshot

section Accepted

variable {α : Type} [DecidableEq α] {ids : ObjectIds α} {lib : Libraries} {settings : Settings}
  {state after : State α} {owner fresh : α} {text : String} {applied written : ApiResult Unit}
  {input : Input} {now : Nat}

theorem owned_ok {β : Type} {table} {user : β → α} {id error found}
    (accepted : owned table user owner id error = .ok found) :
    table.get? id = some found ∧ user found = owner := by
  unfold owned at accepted
  split at accepted
  · rename_i there
    split at accepted
    · rename_i own
      cases accepted
      exact ⟨there, own⟩
    · cases accepted
  · cases accepted

theorem ownedConnection_ok {found} (accepted : ownedConnection ids state owner text = .ok found) :
    ids.parseStr text = some found.1 ∧ state.connections.get? found.1 = some found.2 ∧
      found.2.userId = owner := by
  obtain ⟨id, parsed, accepted⟩ := bind_eq_ok.mp accepted
  obtain ⟨connection, own, accepted⟩ := bind_eq_ok.mp accepted
  cases accepted
  exact ⟨objectId_eq_ok.mp parsed, owned_ok own⟩

theorem previousConnection_ok {input updating previous}
    (accepted : previousConnection ids state owner input updating = .ok previous) :
    (updating = true ∧ ∃ found, previous = some found ∧
      ids.parseStr (input.dataId.getD "") = some found.1 ∧
      state.connections.get? found.1 = some found.2) ∨
    (updating = false ∧ previous = none) := by
  cases updating with
  | false => exact .inr ⟨rfl, (Except.ok.inj accepted).symm⟩
  | true =>
      obtain ⟨found, own, accepted⟩ := bind_eq_ok.mp accepted
      have accepted := ok_of_then accepted
      cases accepted
      obtain ⟨parsed, there, _⟩ := ownedConnection_ok own
      exact .inl ⟨rfl, found, rfl, parsed, there⟩

/-- What a saved connection is. -/
structure Saves (ids : ObjectIds α) (state : State α) (input : ConnectionInput) (updating : Bool)
    (key : α) (candidate : Connection α) : Prop where
  port : candidate.externalPort = input.externalPort
  enabled : candidate.enabled = input.enabled.getD true
  free : ∀ other connection, state.connections.get? other = some connection →
    connection.externalPort = input.externalPort → other = key
  replaces : updating = true → ids.parseStr (input.dataId.getD "") = some key ∧
    ∃ previous, state.connections.get? key = some previous ∧ candidate.userId = previous.userId ∧
      candidate.externalBindIp = previous.externalBindIp
  adds : updating = false → state.connections.get? key = none

theorem saveConnection_ok {input updating}
    (accepted : saveConnection ids settings state owner input updating fresh applied = .ok after) :
    ∃ key candidate, Saves ids state input updating key candidate ∧
      after = { state with connections := state.connections.insert key candidate } := by
  have accepted := ok_of_then accepted
  obtain ⟨machineId, _, accepted⟩ := bind_eq_ok.mp accepted
  obtain ⟨machine, _, accepted⟩ := bind_eq_ok.mp accepted
  have accepted := ok_of_then accepted
  obtain ⟨previous, read, accepted⟩ := bind_eq_ok.mp accepted
  split at accepted
  · cases accepted
  · obtain ⟨_, unused, accepted⟩ := bind_eq_ok.mp accepted
    obtain ⟨_, unknown, accepted⟩ := bind_eq_ok.mp accepted
    rw [refuseIf_eq_ok] at unused unknown
    have free : ∀ other connection, state.connections.get? other = some connection →
        connection.externalPort = input.externalPort → some other = previous.map Prod.fst := by
      intro other connection there same
      have := List.any_eq_false.mp unused _ (Dict.get?_eq_some_iff.mp there)
      simpa [same] using this
    have accepted := ok_of_then accepted
    have result := (Except.ok.inj accepted).symm
    clear accepted
    rcases previousConnection_ok read with ⟨rfl, found, rfl, parsed, there⟩ | ⟨rfl, rfl⟩
    · refine ⟨found.1, _, ?_, result⟩
      refine ⟨rfl, rfl, ?_, fun _ => ⟨parsed, found.2, there, rfl, rfl⟩, by simp⟩
      intro other connection known same
      exact Option.some.inj (free other connection known same)
    · refine ⟨fresh, _, ?_, result⟩
      refine ⟨rfl, rfl, ?_, by simp, fun _ => ?_⟩
      · intro other connection known same
        simpa using free other connection known same
      · simpa [Dict.contains] using unknown

theorem deleteConnection_ok (accepted : deleteConnection ids state owner text applied = .ok after) :
    ∃ key connection, ids.parseStr text = some key ∧ state.connections.get? key = some connection ∧
      after = { state with connections := state.connections.erase key } := by
  obtain ⟨found, own, accepted⟩ := bind_eq_ok.mp accepted
  have accepted := ok_of_then (ok_of_then accepted)
  cases accepted
  obtain ⟨parsed, there, _⟩ := ownedConnection_ok own
  exact ⟨found.1, found.2, parsed, there, rfl⟩

theorem metadata_ok {stored} (accepted : metadata ids state owner text = .ok stored) :
    text = "" ∨ ∃ made id, stored = some made ∧ made.dataId = ids.toHex id := by
  unfold metadata at accepted
  split at accepted
  · exact .inl ‹_›
  · obtain ⟨id, _, accepted⟩ := bind_eq_ok.mp accepted
    obtain ⟨_, _, accepted⟩ := bind_eq_ok.mp accepted
    obtain ⟨_, _, accepted⟩ := bind_eq_ok.mp accepted
    exact .inr ⟨_, id, (Except.ok.inj accepted).symm, rfl⟩

/-- What `parse_multiple` promises about the bindings of a request. -/
structure Checked (ids : ObjectIds α) (bindings : List BindingInput) : Prop where
  distinct : (bindings.map BindingInput.id).Nodup
  named : ∀ binding ∈ bindings, binding.targetMode = .connection →
    ∃ id, ids.parseStr (binding.connectionDataId.getD "") = some id

omit [DecidableEq α] in
theorem key_ok {binding : BindingInput} {key} (accepted : binding.key ids lib = .ok key)
    (mode : binding.targetMode = .connection) :
    ∃ id, ids.parseStr (binding.connectionDataId.getD "") = some id := by
  simp only [BindingInput.key, mode] at accepted
  obtain ⟨id, parsed, _⟩ := bind_eq_ok.mp accepted
  exact ⟨id, objectId_eq_ok.mp parsed⟩

omit [DecidableEq α] in
theorem checkBindings_ok {routing seen targets bindings}
    (passed : checkBindings ids lib routing seen targets bindings = .ok ()) :
    Checked ids bindings ∧ ∀ binding ∈ bindings, binding.id ∉ seen := by
  induction bindings generalizing seen targets with
  | nil => exact ⟨⟨by simp, by simp⟩, by simp⟩
  | cons binding rest ih =>
      obtain ⟨_, unused, passed⟩ := bind_eq_ok.mp passed
      have passed := ok_of_then passed
      obtain ⟨key, keyed, passed⟩ := bind_eq_ok.mp passed
      have passed := ok_of_then passed
      split at passed
      · cases passed
      · obtain ⟨checked, apart⟩ := ih passed
        simp only [refuseIf_eq_ok, Bool.or_eq_false_iff] at unused
        refine ⟨⟨?_, ?_⟩, ?_⟩
        · refine List.nodup_cons.mpr ⟨?_, checked.distinct⟩
          intro repeated
          obtain ⟨other, later, same⟩ := List.mem_map.mp repeated
          exact apart other later (by simp [same])
        · intro other member mode
          rcases List.mem_cons.mp member with rfl | later
          · exact key_ok keyed mode
          · exact checked.named other later mode
        · intro other member
          rcases List.mem_cons.mp member with rfl | later
          · simpa using unused.2
          · exact fun known => apart other later (List.mem_cons_of_mem _ known)

omit [DecidableEq α] in
theorem parse_ok {parsed} (accepted : parse ids lib input = .ok parsed) :
    Checked ids (parsed.bindings.getD []) := by
  unfold parse at accepted
  split at accepted
  · rename_i none
    cases accepted
    simp only [none]
    exact ⟨by simp, by simp⟩
  · rename_i bindings given
    have accepted := ok_of_then accepted
    dsimp only at accepted
    split at accepted
    · cases accepted
    · obtain ⟨_, passed, accepted⟩ := bind_eq_ok.mp accepted
      cases accepted
      simp only [given]
      exact (checkBindings_ok passed).1

theorem bindingRecord_ok {binding record} (empty : ids.parseStr "" = none)
    (accepted : bindingRecord ids lib state owner binding = .ok record) :
    record.id = binding.id ∧ record.targetMode = binding.targetMode ∧
      (binding.targetMode = .connection →
        (∃ id, ids.parseStr (binding.connectionDataId.getD "") = some id) →
        ∃ metadata id, record.connection = some metadata ∧ metadata.dataId = ids.toHex id) := by
  obtain ⟨stored, read, accepted⟩ := bind_eq_ok.mp accepted
  obtain ⟨target, _, accepted⟩ := bind_eq_ok.mp accepted
  cases accepted
  refine ⟨rfl, rfl, fun mode named => ?_⟩
  rw [bindingConnection, if_pos mode] at read
  rcases metadata_ok read with blank | found
  · rw [blank, empty] at named
    obtain ⟨_, impossible⟩ := named
    cases impossible
  · exact found

theorem map_of_mapM {ε β γ δ : Type} {f : β → Except ε γ} {g : γ → δ} {h : β → δ}
    (same : ∀ item value, f item = .ok value → g value = h item) {items : List β} {result}
    (made : items.mapM f = .ok result) : result.map g = items.map h := by
  induction items generalizing result with
  | nil =>
      cases made
      rfl
  | cons item rest ih =>
      rw [List.mapM_cons] at made
      obtain ⟨value, first, made⟩ := bind_eq_ok.mp made
      obtain ⟨others, later, made⟩ := bind_eq_ok.mp made
      cases made
      simp [same item value first, ih later]

/-- A record that `document` makes of a checked request. -/
theorem document_ok {record} (empty : ids.parseStr "" = none)
    (checked : Checked ids (input.bindings.getD []))
    (accepted : document ids lib settings state owner input fresh now = .ok record) :
    WellNamed ids record := by
  have accepted := ok_of_then accepted
  obtain ⟨records, made, accepted⟩ := bind_eq_ok.mp accepted
  obtain ⟨connection, _, accepted⟩ := bind_eq_ok.mp accepted
  have accepted := ok_of_then accepted
  have bindings : record.bindings.getD [] = records := by
    cases accepted
    cases records <;> rfl
  refine ⟨?_, ?_⟩
  · rw [bindings, map_of_mapM (fun _ _ stored => (bindingRecord_ok empty stored).1) made]
    exact checked.distinct
  · intro binding member mode
    rw [bindings] at member
    obtain ⟨item, inside, stored⟩ := (mem_mapM_ok_iff made).mp member
    obtain ⟨_, sameMode, named⟩ := bindingRecord_ok empty stored
    rw [sameMode] at mode
    exact named mode (checked.named item inside mode)

theorem ownedRoute_ok {found} (accepted : ownedRoute ids state owner text = .ok found) :
    state.routes.get? found.1 = some found.2 := by
  obtain ⟨id, _, accepted⟩ := bind_eq_ok.mp accepted
  obtain ⟨record, own, accepted⟩ := bind_eq_ok.mp accepted
  have accepted := ok_of_then accepted
  cases accepted
  exact (owned_ok own).1

/-- Nothing is ever published. -/
def Silent (settings : Settings) : Prop :=
  (settings.webRoutesConfigPath.isNone && settings.gatewayConfigPath.isNone) = true

theorem rebuildWeb_ok (accepted : rebuildWeb ids lib settings state written = .ok after) :
    (Silent settings ∧ after = state) ∨
    (¬ Silent settings ∧ ∃ config, webSnapshot ids lib settings state = .ok config ∧
      after = { state with published := some config }) := by
  unfold rebuildWeb at accepted
  split at accepted
  · exact .inl ⟨‹_›, (Except.ok.inj accepted).symm⟩
  · obtain ⟨config, made, accepted⟩ := bind_eq_ok.mp accepted
    have accepted := ok_of_then accepted
    exact .inr ⟨‹_›, config, made, (Except.ok.inj accepted).symm⟩

/-- A request for a route stores well-named records and publishes them. -/
def Republishes (ids : ObjectIds α) (lib : Libraries) (settings : Settings) (state after : State α) :
    Prop :=
  ∃ routes written, rebuildWeb ids lib settings { state with routes } written = .ok after ∧
    ∀ key record, routes.get? key = some record →
      state.routes.get? key = some record ∨ WellNamed ids record

theorem addRoute_ok (empty : ids.parseStr "" = none)
    (accepted : addRoute ids lib settings state owner input fresh now written = .ok after) :
    Republishes ids lib settings state after := by
  obtain ⟨parsed, checked, accepted⟩ := bind_eq_ok.mp accepted
  obtain ⟨candidate, made, accepted⟩ := bind_eq_ok.mp accepted
  have accepted := ok_of_then (ok_of_then accepted)
  refine ⟨_, written, accepted, fun key record there => ?_⟩
  rcases Dict.get?_of_insert there with ⟨_, rfl⟩ | ⟨_, older⟩
  · exact .inr (document_ok empty (parse_ok checked) made)
  · exact .inl older

theorem updateRoute_ok (empty : ids.parseStr "" = none)
    (named : ∀ key record, state.routes.get? key = some record → WellNamed ids record)
    (accepted : updateRoute ids lib settings state owner input fresh now written = .ok after) :
    Republishes ids lib settings state after := by
  obtain ⟨parsed, checked, accepted⟩ := bind_eq_ok.mp accepted
  obtain ⟨⟨id, previous⟩, own, accepted⟩ := bind_eq_ok.mp accepted
  have accepted := ok_of_then accepted
  obtain ⟨patch, made, accepted⟩ := bind_eq_ok.mp accepted
  have accepted := ok_of_then accepted
  refine ⟨_, written, accepted, fun key record there => ?_⟩
  rcases Dict.get?_of_insert there with ⟨_, rfl⟩ | ⟨_, older⟩
  · have fresh := document_ok empty (parse_ok checked) made
    have old := named id previous (ownedRoute_ok own)
    refine .inr ?_
    cases given : patch.bindings with
    | none => exact ⟨by simpa [given] using old.distinct, by simpa [given] using old.named⟩
    | some bindings =>
        exact ⟨by simpa [given] using fresh.distinct, by simpa [given] using fresh.named⟩
  · exact .inl older

theorem deleteRoute_ok
    (accepted : deleteRoute ids lib settings state owner text written = .ok after) :
    Republishes ids lib settings state after := by
  obtain ⟨found, _, accepted⟩ := bind_eq_ok.mp accepted
  refine ⟨_, written, accepted, fun key record there => ?_⟩
  exact .inl (Dict.erase_sub _ _ _ _ there)

end Accepted

section Steps

variable {α : Type} [DecidableEq α] {ids : ObjectIds α} {lib : Libraries} {settings : Settings}
  {state after : State α} {input : ConnectionInput} {key : α} {connections : Dict α (Connection α)}

/-- What accepted requests keep, the condition on connections apart. -/
structure Sound (ids : ObjectIds α) (settings : Settings) (state : State α) : Prop where
  ports : ∀ key other first second, state.connections.get? key = some first →
    state.connections.get? other = some second → first.externalPort = second.externalPort → key = other
  named : ∀ key record, state.routes.get? key = some record → WellNamed ids record
  silent : Silent settings → state.published = none

/-- The snapshot mirrors the database. -/
def Current (ids : ObjectIds α) (lib : Libraries) (state : State α) : Prop :=
  ∀ config, state.published = some config → ∀ route ∈ config,
    ∃ key record, Mirrors ids lib state route key record

omit [DecidableEq α] in
theorem toHex_injective {first second} (same : ids.toHex first = ids.toHex second) :
    first = second := by
  have parsed := ids.parse_toHex first
  rw [same, ids.parse_toHex] at parsed
  exact (Option.some.inj parsed).symm

theorem Republishes.sound (sound : Sound ids settings state)
    (republished : Republishes ids lib settings state after) :
    Sound ids settings after ∧ (¬ Silent settings → Current ids lib after) := by
  obtain ⟨routes, written, accepted, stored⟩ := republished
  have named : ∀ key record, routes.get? key = some record → WellNamed ids record := by
    intro key record there
    rcases stored key record there with old | fresh
    · exact sound.named key record old
    · exact fresh
  rcases rebuildWeb_ok accepted with ⟨quiet, rfl⟩ | ⟨loud, config, made, rfl⟩
  · exact ⟨⟨sound.ports, named, sound.silent⟩, fun loud => absurd quiet loud⟩
  · refine ⟨⟨sound.ports, named, fun quiet => absurd quiet loud⟩, fun _ => ?_⟩
    rintro _ ⟨⟩ route member
    obtain ⟨key, record, mirrors⟩ := webSnapshot_mirrors named made member
    exact ⟨key, record, mirrors.id, mirrors.stored, mirrors.bindings⟩

theorem Saves.sound {updating candidate} (saves : Saves ids state input updating key candidate)
    (sound : Sound ids settings state) :
    Sound ids settings { state with connections := state.connections.insert key candidate } := by
  refine ⟨?_, sound.named, sound.silent⟩
  intro first second one two there known same
  rcases Dict.get?_of_insert there with ⟨rfl, rfl⟩ | ⟨apart, old⟩ <;>
    rcases Dict.get?_of_insert known with ⟨rfl, rfl⟩ | ⟨other, older⟩
  · rfl
  · exact (saves.free second two older (same.symm.trans saves.port)).symm
  · exact saves.free first one old (same.trans saves.port)
  · exact sound.ports first second one two old older same

theorem Sound.erase (sound : Sound ids settings state) (key : α) :
    Sound ids settings { state with connections := state.connections.erase key } := by
  refine ⟨?_, sound.named, sound.silent⟩
  intro first second one two there known same
  exact sound.ports first second one two (Dict.erase_sub _ _ _ _ there) (Dict.erase_sub _ _ _ _ known) same

/-- Every accepted request keeps the invariant. -/
theorem Sound.step (empty : ids.parseStr "" = none) (sound : Sound ids settings state) {request}
    (accepted : step ids lib settings state request = .ok after) :
    Sound ids settings after := by
  cases request with
  | saveConnection owner input updating fresh applied =>
      obtain ⟨key, candidate, saves, rfl⟩ := saveConnection_ok accepted
      exact saves.sound sound
  | deleteConnection owner text applied =>
      obtain ⟨key, connection, _, _, rfl⟩ := deleteConnection_ok accepted
      exact sound.erase key
  | addRoute owner input fresh now written => exact ((addRoute_ok empty accepted).sound sound).1
  | updateRoute owner input fresh now written =>
      exact ((updateRoute_ok empty sound.named accepted).sound sound).1
  | deleteRoute owner text written => exact ((deleteRoute_ok accepted).sound sound).1

/-- The stored binding behind a published one. -/
theorem Mirrors.configured {route record binding} (mirrors : Mirrors ids lib state route key record)
    (member : binding ∈ route.bindings) :
    ∃ configured ∈ record.bindings.getD [], Carries ids lib state record.userId configured binding := by
  have related := mirrors.bindings
  generalize record.bindings.getD [] = stored at related ⊢
  generalize route.bindings = published at related member
  induction related with
  | nil => cases member
  | cons head _ ih =>
      rcases List.mem_cons.mp member with rfl | later
      · exact ⟨_, List.mem_cons_self, head⟩
      · obtain ⟨configured, inside, carries⟩ := ih later
        exact ⟨configured, List.mem_cons_of_mem _ inside, carries⟩

/-- A snapshot that mirrors the database is faithful. -/
theorem Current.faithful (current : Current ids lib state) (sound : Sound ids settings state) :
    Faithful ids lib state := by
  refine ⟨?_, ?_⟩
  · intro config published route member
    obtain ⟨key, record, mirrors⟩ := current config published route member
    refine ⟨key, record, mirrors.stored, mirrors.id, ?_⟩
    have related := mirrors.bindings
    generalize record.bindings.getD [] = stored at related
    generalize route.bindings = bindings at related
    induction related with
    | nil => rfl
    | cons head _ ih => simp [head.1, ih]
  · intro config published route member binding inside enabled key record stored id configured among
      sameId mode
    obtain ⟨other, found, mirrors⟩ := current config published route member
    obtain rfl : other = key := toHex_injective (mirrors.id.trans id.symm)
    obtain rfl : found = record := Option.mem_unique mirrors.stored stored
    obtain ⟨behind, listed, carries⟩ := mirrors.configured inside
    obtain rfl : behind = configured :=
      List.inj_on_of_nodup_map (sound.named _ _ stored).distinct listed among
        (carries.1.symm.trans sameId.symm)
    have reached := carries.2 mode enabled
    refine ⟨reached, fun another connection there same => ?_⟩
    obtain ⟨own, mine, known, text, _, _, target⟩ := reached
    rw [← text, sound.ports another own connection mine there known (target_port same target)]

theorem forall₂_of_mem {β γ : Type} {r q : β → γ → Prop} {first second}
    (related : List.Forall₂ r first second) (weaken : ∀ a ∈ first, ∀ b ∈ second, r a b → q a b) :
    List.Forall₂ q first second := by
  induction related with
  | nil => exact .nil
  | cons head _ ih =>
      refine .cons (weaken _ List.mem_cons_self _ List.mem_cons_self head) (ih fun a first b second => ?_)
      exact weaken a (List.mem_cons_of_mem _ first) b (List.mem_cons_of_mem _ second)

/-- Connections change, and those that the snapshot serves keep their listeners. -/
theorem Current.reconnect (current : Current ids lib state)
    (kept : ∀ key connection, state.connections.get? key = some connection →
      connection.enabled = true → Serves ids state key →
      ∃ next, connections.get? key = some next ∧ next.userId = connection.userId ∧
        next.enabled = true ∧ next.target lib = connection.target lib) :
    Current ids lib { state with connections } := by
  intro config published route member
  obtain ⟨key, record, mirrors⟩ := current config published route member
  refine ⟨key, record, mirrors.id, mirrors.stored, forall₂_of_mem mirrors.bindings ?_⟩
  intro configured among binding inside carries
  refine ⟨carries.1, fun mode enabled => ?_⟩
  obtain ⟨own, connection, known, text, user, on, target⟩ := carries.2 mode enabled
  have serves : Serves ids state own := by
    refine ⟨route, ?_, binding, inside, enabled, (key, record), ?_, mirrors.id, configured, among,
      carries.1.symm, mode, text.symm⟩
    · rw [show state.published = some config from published]
      exact member
    · exact Dict.get?_eq_some_iff.mp mirrors.stored
  obtain ⟨next, there, sameUser, stillOn, sameTarget⟩ := kept own connection known on serves
  exact ⟨own, next, there, text, sameUser.trans user, stillOn, sameTarget.trans target⟩

theorem Current.save (current : Current ids lib state) {owner fresh updating applied candidate}
    (saves : Saves ids state input updating key candidate)
    (keeps : Keeps ids state (.saveConnection owner input updating fresh applied)) :
    Current ids lib { state with connections := state.connections.insert key candidate } := by
  refine current.reconnect fun own connection known on serves => ?_
  by_cases same : own = key
  · subst same
    cases updating with
    | false =>
        rw [saves.adds rfl] at known
        cases known
    | true =>
        obtain ⟨parsed, previous, there, user, bind⟩ := saves.replaces rfl
        obtain rfl : previous = connection := Option.mem_unique there known
        obtain ⟨enabled, port⟩ := keeps own previous parsed there serves
        refine ⟨candidate, Dict.get?_insert_self _ _ _, user, saves.enabled.trans enabled, ?_⟩
        rw [Connection.target, Connection.target, saves.port, port, bind]
  · exact ⟨connection, by rw [Dict.get?_insert_ne _ _ same]; exact known, rfl, on, rfl⟩

theorem Current.delete (current : Current ids lib state) (unserved : ¬ Serves ids state key) :
    Current ids lib { state with connections := state.connections.erase key } := by
  refine current.reconnect fun own connection known on serves => ?_
  have apart : own ≠ key := by
    rintro rfl
    exact unserved serves
  exact ⟨connection, by rw [Dict.get?_erase_ne _ apart]; exact known, rfl, on, rfl⟩

/-- Every accepted request that keeps the served listeners leaves a current snapshot. -/
theorem Current.step (empty : ids.parseStr "" = none) (sound : Sound ids settings state)
    (current : Current ids lib state) {request}
    (accepted : step ids lib settings state request = .ok after) (keeps : Keeps ids state request) :
    Current ids lib after := by
  have next := sound.step empty accepted
  have published : Republishes ids lib settings state after → Current ids lib after := by
    intro republished
    by_cases quiet : Silent settings
    · intro config written
      rw [next.silent quiet] at written
      cases written
    · exact (republished.sound sound).2 quiet
  cases request with
  | saveConnection owner input updating fresh applied =>
      obtain ⟨key, candidate, saves, rfl⟩ := saveConnection_ok accepted
      exact current.save saves keeps
  | deleteConnection owner text applied =>
      obtain ⟨key, connection, parsed, _, rfl⟩ := deleteConnection_ok accepted
      exact current.delete (keeps key parsed)
  | addRoute owner input fresh now written => exact published (addRoute_ok empty accepted)
  | updateRoute owner input fresh now written =>
      exact published (updateRoute_ok empty sound.named accepted)
  | deleteRoute owner text written => exact published (deleteRoute_ok accepted)

/-- A faithful snapshot has the listener of every connection that it serves. Two
    states with one snapshot and the same routes agree about it. -/
theorem Faithful.agree (before : Faithful ids lib state)
    (now : Faithful ids lib { state with connections }) (serves : Serves ids state key) :
    ∃ first second, state.connections.get? key = some first ∧ connections.get? key = some second ∧
      second.enabled = true ∧ first.externalPort = second.externalPort := by
  obtain ⟨route, member, binding, inside, enabled, entry, stored, id, configured, among, sameId, mode,
    text⟩ := serves
  cases published : state.published with
  | none => simp [published] at member
  | some config =>
      have listed : route ∈ config := by simpa [published] using member
      have record := Dict.get?_eq_some_iff.mpr stored
      obtain ⟨⟨own, first, known, named, _, _, target⟩, _⟩ := before.reaches config published route
        listed binding inside enabled entry.1 entry.2 record id configured among sameId mode
      obtain ⟨⟨other, second, there, called, _, on, same⟩, _⟩ := now.reaches config published route
        listed binding inside enabled entry.1 entry.2 record id configured among sameId mode
      obtain rfl : own = key := toHex_injective (named.trans text)
      obtain rfl : other = own := toHex_injective (called.trans text)
      exact ⟨first, second, known, there, on, target_port target same⟩

/-- A connection that a faithful snapshot serves is there. -/
theorem Faithful.connected (faithful : Faithful ids lib state) (serves : Serves ids state key) :
    ∃ connection, state.connections.get? key = some connection := by
  obtain ⟨first, _, there, _⟩ := faithful.agree faithful serves
  exact ⟨first, there⟩

/-- A request that takes a served listener away leaves the snapshot behind. -/
theorem not_faithful (faithful : Faithful ids lib state) {request}
    (accepted : step ids lib settings state request = .ok after)
    (takes : ¬ Keeps ids state request) :
    ¬ Faithful ids lib after := by
  intro still
  apply takes
  cases request with
  | saveConnection owner input updating fresh applied =>
      obtain ⟨key, candidate, saves, rfl⟩ := saveConnection_ok accepted
      cases updating with
      | false => trivial
      | true =>
          intro own connection parsed known serves
          obtain ⟨named, _⟩ := saves.replaces rfl
          obtain rfl : own = key := Option.mem_unique parsed named
          obtain ⟨first, second, there, stored, on, port⟩ := faithful.agree still serves
          obtain rfl : first = connection := Option.mem_unique there known
          obtain rfl : candidate = second := by simpa using stored
          exact ⟨saves.enabled.symm.trans on, (port.trans saves.port).symm⟩
  | deleteConnection owner text applied =>
      obtain ⟨key, connection, parsed, _, rfl⟩ := deleteConnection_ok accepted
      intro own named serves
      obtain rfl : own = key := Option.mem_unique named parsed
      obtain ⟨_, second, _, stored, _⟩ := faithful.agree still serves
      simp at stored
  | addRoute owner input fresh now written => trivial
  | updateRoute owner input fresh now written => trivial
  | deleteRoute owner text written => trivial

/-- A request that succeeds and meets the condition. -/
def Careful (ids : ObjectIds α) (lib : Libraries) (settings : Settings) (state : State α)
    (request : Request α) (after : State α) : Prop :=
  step ids lib settings state request = .ok after ∧ Keeps ids state request

theorem run_current (empty : ids.parseStr "" = none) {machines history}
    (run : Run (Careful ids lib settings) (.initial machines) history state) :
    Sound ids settings state ∧ Current ids lib state := by
  induction run with
  | start =>
      refine ⟨⟨?_, ?_, fun _ => rfl⟩, ?_⟩
      · intro key other first second there
        cases there
      · intro key record there
        cases there
      · intro config published
        cases published
  | snoc _ taken ih => exact ⟨ih.1.step empty taken.1, ih.2.step empty ih.1 taken.1 taken.2⟩

/-- As long as no request takes the listener of a served connection away, every
    published connection binding reaches its own connection; and the first request
    that does leaves a binding that does not. -/
theorem web_proxies_reach_their_owner (empty : ids.parseStr "" = none)
    (machines : Dict α (Machine α)) (history : List (Request α)) (state : State α)
    (run : Run (Careful ids lib settings) (.initial machines) history state) :
    Faithful ids lib state ∧ ∀ request after, step ids lib settings state request = .ok after →
      (Faithful ids lib after ↔ Keeps ids state request) := by
  obtain ⟨sound, current⟩ := run_current empty run
  have faithful := current.faithful sound
  refine ⟨faithful, fun request after accepted => ⟨fun still => ?_, fun keeps => ?_⟩⟩
  · by_contra takes
    exact not_faithful faithful accepted takes still
  · exact (current.step empty sound accepted keeps).faithful (sound.step empty accepted)

end Steps

section Samples

open PrivateNetworks (SampleId sampleIds sampleId)

def alice : SampleId := sampleId ⟨0, by decide⟩

def bob : SampleId := sampleId ⟨1, by decide⟩

/-- The machine of an owner. -/
def machineOf (owner : SampleId) : SampleId := if owner = alice then sampleId ⟨2, by decide⟩ else sampleId ⟨3, by decide⟩

/-- The connection of an owner. -/
def connectionOf (owner : SampleId) : SampleId := if owner = alice then sampleId ⟨4, by decide⟩ else sampleId ⟨5, by decide⟩

/-- `Url::parse` on the texts of the sample. -/
def sampleUrl (text : String) : Option Url :=
  if text = "http://127.0.0.1:20001" then
    some ⟨"http", some "127.0.0.1", some 20001, "", none, "/", none, none, "http://127.0.0.1:20001/"⟩
  else if text = "https://hub.example.com" then
    some ⟨"https", some "hub.example.com", some 443, "", none, "/", none, none, "https://hub.example.com/"⟩
  else none

def sampleLibraries : Libraries where
  parseUrl := sampleUrl
  parseIpv6 _ := none
  showIpv6 _ := []
  routingError _ := none
  healthError _ _ := none
  reloadError _ _ := none

def sampleSettings : Settings where
  externalPortRange := none
  publicBaseUrl := "https://hub.example.com"
  tunnelHttpBaseUrl := "https://hub.example.com"
  gatewayAdvertisedUrl := none
  tunnelFallbackBaseUrls := []
  gatewayConfigPath := some "/var/lib/porthub/gateway.toml"
  webRoutesConfigPath := none

def sampleMachines : Dict SampleId (Machine SampleId) :=
  (Dict.empty.insert (machineOf alice) ⟨alice, true, false⟩).insert (machineOf bob) ⟨bob, true, false⟩

/-- The owner takes the port. -/
def take (owner : SampleId) : Request SampleId :=
  .saveConnection owner {
    dataId := none
    machineId := sampleIds.toHex (machineOf owner)
    serviceName := "web"
    externalPort := 20001
    enabled := none } false (connectionOf owner) (.ok ())

/-- The first owner binds a host to the connection. -/
def bindHost : Request SampleId :=
  .addRoute alice {
    dataId := none
    name := "site"
    hosts := ["site.example.com"]
    targetMode := .manual
    targetUrl := none
    entryPoints := ["web"]
    enabled := none
    connectionDataId := none
    bindings := some [{
      id := "primary"
      label := ""
      targetMode := .connection
      targetUrl := none
      connectionDataId := some (sampleIds.toHex (connectionOf alice))
      priority := 1
      weight := 1
      enabled := true
      passHost := none
      healthPath := none }]
    routing := none } (sampleId ⟨6, by decide⟩) 0 (.ok ())

def release : Request SampleId := .deleteConnection alice (sampleIds.toHex (connectionOf alice)) (.ok ())

/-- The state behind a request; a refused one changes nothing. -/
def serve (state : State SampleId) (request : Request SampleId) : State SampleId :=
  match step sampleIds sampleLibraries sampleSettings state request with
  | .ok after => after
  | .error _ => state

def bound : State SampleId := [take alice, bindHost].foldl serve (.initial sampleMachines)

def passedOn : State SampleId := [release, take bob].foldl serve bound

theorem serve_accepted {state request}
    (fine : (step sampleIds sampleLibraries sampleSettings state request).isOk = true) :
    step sampleIds sampleLibraries sampleSettings state request = .ok (serve state request) := by
  unfold serve
  cases taken : step sampleIds sampleLibraries sampleSettings state request with
  | error error =>
      rw [taken] at fine
      cases fine
  | ok after => rfl

/-- What the four requests answer and leave behind. -/
theorem requests_served :
    ((step sampleIds sampleLibraries sampleSettings (.initial sampleMachines) (take alice)).isOk = true ∧
      (step sampleIds sampleLibraries sampleSettings (serve (.initial sampleMachines) (take alice))
        bindHost).isOk = true ∧
      (step sampleIds sampleLibraries sampleSettings bound release).isOk = true ∧
      (step sampleIds sampleLibraries sampleSettings (serve bound release) (take bob)).isOk = true) ∧
    (bound.published.getD []).flatMap (fun route => route.bindings.map Binding.targetUrl)
      = ["http://127.0.0.1:20001"] ∧
    passedOn.connections.get? (connectionOf bob) =
      some ⟨bob, machineOf bob, "web", 20001, "", true, false⟩ ∧
    (passedOn.published.getD []).flatMap (fun route =>
        route.bindings.map fun binding => (binding.enabled, some binding.targetUrl))
      = [(true, some "http://127.0.0.1:20001")] ∧
    Serves sampleIds passedOn (connectionOf alice) ∧
    passedOn.connections.get? (connectionOf alice) = none := by
  -- one evaluation, since each of the facts needs the same states
  decide +kernel

theorem take_accepted :
    step sampleIds sampleLibraries sampleSettings (.initial sampleMachines) (take alice) =
      .ok (serve (.initial sampleMachines) (take alice)) :=
  serve_accepted requests_served.1.1

theorem bindHost_accepted :
    step sampleIds sampleLibraries sampleSettings (serve (.initial sampleMachines) (take alice)) bindHost =
      .ok bound := by
  rw [serve_accepted requests_served.1.2.1, bound, List.foldl_cons, List.foldl_cons, List.foldl_nil]

/-- The binding reaches the connection of its owner, as long as that is left alone. -/
theorem bound_host_reaches_its_connection :
    (bound.published.getD []).flatMap (fun route => route.bindings.map Binding.targetUrl)
      = ["http://127.0.0.1:20001"] ∧ Faithful sampleIds sampleLibraries bound := by
  have run : Run (Careful sampleIds sampleLibraries sampleSettings) (.initial sampleMachines)
      [take alice, bindHost] bound :=
    .snoc (.snoc .start ⟨take_accepted, trivial⟩) ⟨bindHost_accepted, trivial⟩
  refine ⟨requests_served.2.1, ?_⟩
  exact (web_proxies_reach_their_owner (by decide) _ _ _ run).1

/-- A port that its owner gave back and another owner took is still the target of the
    first owner's binding. -/
theorem released_port_serves_the_next_owner :
    Run (fun state request after => step sampleIds sampleLibraries sampleSettings state request = .ok after)
      (.initial sampleMachines) [take alice, bindHost, release, take bob] passedOn ∧
    (∃ connection, passedOn.connections.get? (connectionOf bob) = some connection ∧
      connection.userId = bob ∧ (passedOn.published.getD []).flatMap (fun route =>
        route.bindings.map fun binding => (binding.enabled, some binding.targetUrl))
        = [(true, connection.target sampleLibraries)]) ∧
    ¬ Faithful sampleIds sampleLibraries passedOn := by
  obtain ⟨⟨_, _, freed, taken⟩, _, held, targets, gone, missing⟩ := requests_served
  have last : serve (serve bound release) (take bob) = passedOn := by
    rw [passedOn, List.foldl_cons, List.foldl_cons, List.foldl_nil]
  have third := @serve_accepted bound release freed
  have fourth := @serve_accepted (serve bound release) (take bob) taken
  have address : (⟨bob, machineOf bob, "web", 20001, "", true, false⟩ : Connection SampleId).target
      sampleLibraries = some "http://127.0.0.1:20001" := by
    decide
  refine ⟨.snoc (.snoc (.snoc (.snoc .start take_accepted) bindHost_accepted) third) fourth, ?_, ?_⟩
  · exact ⟨_, held, rfl, by rw [targets, address]⟩
  · intro faithful
    obtain ⟨_, there⟩ := faithful.connected gone
    cases missing.symm.trans there

end Samples

end PortHub.Api.TrafficRoutes
