import PortHub.Api.AccountDelete
import PortHub.Lib.Runs

/-! # A stored deletion is resumed to its end

Every step of `resume` leaves the record of the account alone until all the others
are done. What a step deletes is found by the ids in the journal, so a partial
attempt takes nothing away that a later one needs.
-/

namespace PortHub.Api.AccountDelete

open Documents Faults Runs

section Statements

variable {α : Type} [DecidableEq α] (ids : ObjectIds α) (edge : Edge α)

/-- The fields by which a record belongs to an account or names what it owns. -/
def accountFields (owner : List (Scalar α)) (job : Job α) : Collection → Fields α
  | .users | .workspaceInvites | .proxyActivity => []
  | .userSessions | .trafficRoutes | .machineGroups => [("user_id", owner)]
  | .machines => machineFilter owner job
  | .privatePeers => peerFilter owner job
  | .connections => connectionFilter owner job
  | .firewallTraffic | .terminalTraffic => [("owner_id", owner)]
  | .machineStatusEvents => [("machine_id", job.machineIds)]
  | .machineInstallTickets => [("machine_id", job.machineIds), ("user_id", owner), ("created_by", owner)]
  | .privateInstallTickets => [("peer_id", job.peerIds), ("created_by", owner)]
  | .privateSignals => [("from", job.peerIds), ("to", job.peerIds)]
  | .workspaceMembers => [("user_id", owner), ("workspace_id", owner)]
  | .accessRulebooks => [("user_id", owner), ("workspace_id", owner), ("group_id", job.groupIds)]
  | .privateNetworks => [("_id", owner)]
  | .privateDnsRules => [("workspace_id", owner), ("machine_id", job.machineIds)]
  | .privateProxyGrants | .privateExitNodes => [("workspace_id", owner)]

/-- A deleted account: its id and the database in which its deletion was stored. -/
abbrev Retired (α : Type) := α × Database α

def Retired.owner (account : Retired α) : List (Scalar α) := values ids account.1

def Retired.job (account : Retired α) : Job α := jobOf ids account.2 account.1

def Retired.email (account : Retired α) : String := ((findUser account.2 account.1).map emailOf).getD ""

def Retired.fields (account : Retired α) (collection : Collection) : Fields α :=
  accountFields (account.owner ids) (account.job ids) collection

/-- The record is one of the account, or a ticket, an invite or a signal that names it. -/
def Refers (account : Retired α) (collection : Collection) (row : Doc α) : Prop :=
  row.anyIn (account.fields ids collection) = true ∨
    collection = .workspaceInvites ∧ invites edge (account.owner ids) account.email row = true

/-- No record of the account is left. -/
def Clean (account : Retired α) (db : Database α) : Prop :=
  ∀ collection, ∀ row ∈ db collection, row.anyIn (account.fields ids collection) = false

/-- Some items of an array are lost. -/
def Sheds (lost : Bson α → Prop) (before after : Option (Bson α)) : Prop :=
  after = before ∨ ∃ items keep, before = some (.array items) ∧ after = some (.array (items.filter keep)) ∧
    ∀ item ∈ items, keep item = false → lost item

/-- Some fields of a document are lost. -/
def ShedsFields (lost : String → Prop) (before after : Option (Bson α)) : Prop :=
  after = before ∨ ∃ fields keep, before = some (.document fields) ∧
    after = some (.document (fields.filter keep)) ∧ ∀ field ∈ fields, keep field = false → lost field.1

/-- The fields of other accounts' records that a deletion changes. -/
def touched : Collection → List String
  | .accessRulebooks => ["rules", "created_by", "revision"]
  | .machineGroups => ["user_ids"]
  | .machines => ["group_ids", "group_id"]
  | .proxyActivity => ["metrics", "revision"]
  | _ => []

/-- A record loses what refers to deleted identities, and nothing else of it changes but
    the counter of its revisions. -/
structure Loses (accounts : List (Retired α)) (collection : Collection) (row after : Doc α) : Prop where
  kept : ∀ key, key ∉ touched collection → after.get? key = row.get? key
  rules : collection = .accessRulebooks → Sheds (fun rule => ∃ account ∈ accounts,
      references (retiredIds (account.owner ids) (account.job ids)) rule = true)
    (row.get? "rules") (after.get? "rules")
  author : collection = .accessRulebooks → after.get? "created_by" = row.get? "created_by" ∨
    (after.get? "created_by" = some (.scalar .null) ∧ ∃ account ∈ accounts,
      (row.get? "created_by").any (·.among (account.owner ids)) = true)
  members : collection = .machineGroups → Sheds (fun member => ∃ account ∈ accounts,
      member.among (account.owner ids) = true) (row.get? "user_ids") (after.get? "user_ids")
  groups : collection = .machines → Sheds (fun group => ∃ account ∈ accounts,
      group.among (account.job ids).groupIds = true) (row.get? "group_ids") (after.get? "group_ids")
  group : collection = .machines → after.get? "group_id" = row.get? "group_id" ∨
    (after.get? "group_id" = none ∧ ∃ account ∈ accounts,
      (row.get? "group_id").any (·.inAny (account.job ids).groupIds) = true)
  metrics : collection = .proxyActivity → ShedsFields (fun name => ∃ account ∈ accounts,
      name ∈ routeNames ids (account.job ids).routeIds) (row.get? "metrics") (after.get? "metrics")

/-- Records that refer to none of the accounts stay, and lose only what does; nothing is
    created. -/
structure Spares (accounts : List (Retired α)) (before after : Database α) : Prop where
  stays : ∀ collection, collection ≠ .users → ∀ row ∈ before collection,
    (∃ account ∈ accounts, Refers ids edge account collection row) ∨
    ∃ next ∈ after collection, Loses ids accounts collection row next
  comes : ∀ collection, collection ≠ .users → ∀ next ∈ after collection, ∃ row ∈ before collection,
    (∃ account ∈ accounts, Refers ids edge account collection row) ∨
    Loses ids accounts collection row next

/-- The snapshot has no service of a machine of the account and no route of it. -/
def Snapshot.Free (id : α) : Snapshot α → Prop
  | .gateway services => ∀ service ∈ services, service.2.hasIn "user_id" (values ids id) = false
  | .web routes => ∀ route ∈ routes, route.hasIn "user_id" (values ids id) = false

end Statements

section Fields

variable {α : Type}

theorem foldl_get? {β : Type} {change : Doc α → β → Doc α} {keyOf : β → String} {key}
    (frame : ∀ doc item, key ≠ keyOf item → (change doc item).get? key = doc.get? key)
    {items : List β} (other : ∀ item ∈ items, key ≠ keyOf item) (doc : Doc α) :
    (items.foldl change doc).get? key = doc.get? key := by
  induction items generalizing doc with
  | nil => rfl
  | cons item rest ih =>
      rw [List.foldl_cons, ih fun x member => other x (List.mem_cons_of_mem _ member)]
      exact frame doc item (other item List.mem_cons_self)

variable [DecidableEq α]

/-- The fields that a change can touch. -/
def Change.keys (change : Change α) : List String :=
  change.sets.map Prod.fst ++ change.unsets ++ change.pulls.map Prod.fst

theorem Change.get?_apply {change : Change α} {key} (other : key ∉ change.keys) (doc : Doc α) :
    (change.apply doc).get? key = doc.get? key := by
  simp only [Change.keys, List.mem_append, List.mem_map, not_or, not_exists, not_and] at other
  obtain ⟨⟨sets, unsets⟩, pulls⟩ := other
  unfold Change.apply
  have pulled := @foldl_get? α _ _ Prod.fst key
    (fun doc field different => Doc.get?_pull_ne field.2 doc different) change.pulls
    (fun field member same => pulls field member same.symm)
  have removed := @foldl_get? α _ (fun doc key => doc.unset key) id key
    (fun doc name different => Doc.get?_unset_ne doc different) change.unsets
    (fun name member same => unsets (by rw [show key = name from same]; exact member))
  have written := @foldl_get? α _ _ Prod.fst key
    (fun doc field different => Doc.get?_set_ne field.2 doc different) change.sets
    (fun field member same => sets field member same.symm)
  rw [pulled, removed, written]

theorem hasIn_mono {key some all} (inside : ∀ id ∈ some, id ∈ all) {doc : Doc α}
    (found : doc.hasIn key some = true) : doc.hasIn key all = true := by
  have scalar : ∀ value : Bson α, value.among some = true → value.among all = true := by
    intro value
    cases value with
    | scalar value => simpa [Bson.among] using inside value
    | array items => simp [Bson.among]
    | document fields => simp [Bson.among]
  obtain ⟨value, there, among⟩ := Option.any_eq_true _ _ |>.mp found
  refine Option.any_eq_true _ _ |>.mpr ⟨value, there, ?_⟩
  cases value with
  | scalar value => exact scalar (.scalar value) among
  | document fields => exact scalar (.document fields) among
  | array items =>
      obtain ⟨item, member, named⟩ := List.any_eq_true.mp among
      exact List.any_eq_true.mpr ⟨item, member, scalar item named⟩

end Fields

section Relations

variable {α : Type} {x y z : Option (Bson α)}

theorem Sheds.trans {lost : Bson α → Prop} (first : Sheds lost x y) (second : Sheds lost y z) :
    Sheds lost x z := by
  rcases first with rfl | ⟨items, keep, before, middle, dropped⟩
  · exact second
  · rcases second with rfl | ⟨others, keeps, same, after, gone⟩
    · exact .inr ⟨items, keep, before, middle, dropped⟩
    · obtain rfl : items.filter keep = others := by simpa [middle] using same
      refine .inr ⟨items, fun item => keeps item && keep item, before, ?_, ?_⟩
      · rw [after, List.filter_filter]
      · intro item member out
        cases kept : keep item with
        | false => exact dropped item member kept
        | true => exact gone item (List.mem_filter.mpr ⟨member, kept⟩) (by simpa [kept] using out)

theorem Sheds.mono {lost more : Bson α → Prop} (wider : ∀ item, lost item → more item)
    (sheds : Sheds lost x y) : Sheds more x y := by
  rcases sheds with same | ⟨items, keep, before, after, dropped⟩
  · exact .inl same
  · exact .inr ⟨items, keep, before, after, fun item member out => wider item (dropped item member out)⟩

theorem ShedsFields.trans {lost : String → Prop} (first : ShedsFields lost x y)
    (second : ShedsFields lost y z) : ShedsFields lost x z := by
  rcases first with rfl | ⟨fields, keep, before, middle, dropped⟩
  · exact second
  · rcases second with rfl | ⟨others, keeps, same, after, gone⟩
    · exact .inr ⟨fields, keep, before, middle, dropped⟩
    · obtain rfl : fields.filter keep = others := by simpa [middle] using same
      refine .inr ⟨fields, fun field => keeps field && keep field, before, ?_, ?_⟩
      · rw [after, List.filter_filter]
      · intro field member out
        cases kept : keep field with
        | false => exact dropped field member kept
        | true => exact gone field (List.mem_filter.mpr ⟨member, kept⟩) (by simpa [kept] using out)

theorem ShedsFields.mono {lost more : String → Prop} (wider : ∀ name, lost name → more name)
    (sheds : ShedsFields lost x y) : ShedsFields more x y := by
  rcases sheds with same | ⟨fields, keep, before, after, dropped⟩
  · exact .inl same
  · exact .inr ⟨fields, keep, before, after, fun field member out => wider _ (dropped field member out)⟩

variable [DecidableEq α] {ids : ObjectIds α} {edge : Edge α} {accounts more : List (Retired α)}
  {collection : Collection} {row next last : Doc α} {account : Retired α}

theorem Loses.refl (accounts : List (Retired α)) (collection : Collection) (row : Doc α) :
    Loses ids accounts collection row row :=
  ⟨fun _ _ => rfl, fun _ => .inl rfl, fun _ => .inl rfl, fun _ => .inl rfl, fun _ => .inl rfl,
    fun _ => .inl rfl, fun _ => .inl rfl⟩

/-- No form of an id is `null`. -/
theorem null_not_owner (account : Retired α) :
    (some (Bson.scalar .null) : Option (Bson α)).any (·.among (account.owner ids)) = false := by
  simp [Bson.among, Retired.owner, values]

theorem Loses.trans (first : Loses ids accounts collection row next)
    (second : Loses ids accounts collection next last) : Loses ids accounts collection row last where
  kept key other := (second.kept key other).trans (first.kept key other)
  rules books := (first.rules books).trans (second.rules books)
  author books := by
    rcases second.author books with same | ⟨null, account, member, named⟩
    · rw [same]
      exact first.author books
    · rcases first.author books with same | ⟨cleared, _⟩
      · rw [same] at named
        exact .inr ⟨null, account, member, named⟩
      · rw [cleared, null_not_owner] at named
        cases named
  members groups := (first.members groups).trans (second.members groups)
  groups machines := (first.groups machines).trans (second.groups machines)
  group machines := by
    rcases second.group machines with same | ⟨gone, account, member, named⟩
    · rw [same]
      exact first.group machines
    · rcases first.group machines with same | ⟨cleared, _⟩
      · rw [same] at named
        exact .inr ⟨gone, account, member, named⟩
      · rw [cleared] at named
        cases named
  metrics activity := (first.metrics activity).trans (second.metrics activity)

theorem Loses.mono (wider : ∀ account ∈ accounts, account ∈ more)
    (loses : Loses ids accounts collection row next) : Loses ids more collection row next where
  kept := loses.kept
  rules books := (loses.rules books).mono fun _ ⟨account, member, named⟩ =>
    ⟨account, wider account member, named⟩
  author books := by
    rcases loses.author books with same | ⟨null, account, member, named⟩
    · exact .inl same
    · exact .inr ⟨null, account, wider account member, named⟩
  members groups := (loses.members groups).mono fun _ ⟨account, member, named⟩ =>
    ⟨account, wider account member, named⟩
  groups machines := (loses.groups machines).mono fun _ ⟨account, member, named⟩ =>
    ⟨account, wider account member, named⟩
  group machines := by
    rcases loses.group machines with same | ⟨gone, account, member, named⟩
    · exact .inl same
    · exact .inr ⟨gone, account, wider account member, named⟩
  metrics activity := (loses.metrics activity).mono fun _ ⟨account, member, named⟩ =>
    ⟨account, wider account member, named⟩

/-- The fields that tell whose a record is. -/
def identity : Collection → List String
  | .users | .workspaceInvites | .proxyActivity => []
  | .userSessions | .trafficRoutes | .machineGroups => ["user_id"]
  | .machines => ["_id", "user_id"]
  | .privatePeers => ["_id", "owner_id", "workspace_id", "machine_id"]
  | .connections => ["user_id", "machine_id"]
  | .firewallTraffic | .terminalTraffic => ["owner_id"]
  | .machineStatusEvents => ["machine_id"]
  | .machineInstallTickets => ["machine_id", "user_id", "created_by"]
  | .privateInstallTickets => ["peer_id", "created_by"]
  | .privateSignals => ["from", "to"]
  | .workspaceMembers => ["user_id", "workspace_id"]
  | .accessRulebooks => ["user_id", "workspace_id", "group_id"]
  | .privateNetworks => ["_id"]
  | .privateDnsRules => ["workspace_id", "machine_id"]
  | .privateProxyGrants | .privateExitNodes => ["workspace_id"]

omit [DecidableEq α] in
theorem accountFields_names (owner : List (Scalar α)) (job : Job α) (collection : Collection) :
    (accountFields owner job collection).map Prod.fst = identity collection := by
  cases collection <;> rfl

/-- They are not among the fields that change in records of others. -/
theorem identity_untouched (collection : Collection) :
    ∀ key ∈ identity collection, key ∉ touched collection := by
  cases collection <;> decide

/-- A record that still says whose it is. -/
def Follows (collection : Collection) (row next : Doc α) : Prop :=
  ∀ key ∈ identity collection, next.get? key = row.get? key

omit [DecidableEq α] in
theorem Follows.trans (first : Follows collection row next) (second : Follows collection next last) :
    Follows collection row last :=
  fun key named => (second key named).trans (first key named)

theorem Follows.anyIn (follows : Follows collection row next) (account : Retired α) :
    next.anyIn (account.fields ids collection) = row.anyIn (account.fields ids collection) := by
  apply Doc.anyIn_congr
  intro field member
  apply follows
  rw [← accountFields_names (account.owner ids) (account.job ids) collection]
  exact List.mem_map_of_mem member

theorem Loses.follows (loses : Loses ids accounts collection row next) : Follows collection row next :=
  fun key named => loses.kept key (identity_untouched collection key named)

/-- What loses parts refers to an account only if it did before. -/
theorem Loses.refers (loses : Loses ids accounts collection row next)
    (refers : Refers ids edge account collection next) :
    Refers ids edge account collection row := by
  rcases refers with named | ⟨rfl, invited⟩
  · rw [loses.follows.anyIn account] at named
    exact .inl named
  · refine .inr ⟨rfl, ?_⟩
    have same (key : String) : next.get? key = row.get? key := loses.kept key (by simp [touched])
    have fields : next.anyIn [("workspace_id", account.owner ids), ("created_by", account.owner ids)] =
        row.anyIn [("workspace_id", account.owner ids), ("created_by", account.owner ids)] :=
      Doc.anyIn_congr fun field _ => same field.1
    rw [invites, same "email", fields] at invited
    exact invited

theorem Spares.refl (accounts : List (Retired α)) (db : Database α) : Spares ids edge accounts db db where
  stays collection _ row member := .inr ⟨row, member, Loses.refl accounts collection row⟩
  comes collection _ row member := ⟨row, member, .inr (Loses.refl accounts collection row)⟩

theorem Spares.trans {first second third} (left : Spares ids edge accounts first second)
    (right : Spares ids edge accounts second third) : Spares ids edge accounts first third where
  stays collection other row member := by
    rcases left.stays collection other row member with refers | ⟨middle, there, loses⟩
    · exact .inl refers
    · rcases right.stays collection other middle there with ⟨account, listed, refers⟩ | ⟨next, found, more⟩
      · exact .inl ⟨account, listed, loses.refers refers⟩
      · exact .inr ⟨next, found, loses.trans more⟩
  comes collection other next member := by
    obtain ⟨middle, there, origin⟩ := right.comes collection other next member
    obtain ⟨row, found, earlier⟩ := left.comes collection other middle there
    refine ⟨row, found, ?_⟩
    rcases earlier with refers | loses
    · exact .inl refers
    · rcases origin with ⟨account, listed, refers⟩ | more
      · exact .inl ⟨account, listed, loses.refers refers⟩
      · exact .inr (loses.trans more)

theorem Spares.mono {before after} (wider : ∀ account ∈ accounts, account ∈ more)
    (spares : Spares ids edge accounts before after) : Spares ids edge more before after where
  stays collection other row member := by
    rcases spares.stays collection other row member with ⟨account, listed, refers⟩ | ⟨next, found, loses⟩
    · exact .inl ⟨account, wider account listed, refers⟩
    · exact .inr ⟨next, found, loses.mono wider⟩
  comes collection other next member := by
    obtain ⟨row, found, origin⟩ := spares.comes collection other next member
    refine ⟨row, found, ?_⟩
    rcases origin with ⟨account, listed, refers⟩ | loses
    · exact .inl ⟨account, wider account listed, refers⟩
    · exact .inr (loses.mono wider)

/-- One change of the database on behalf of an account: users stay, records go on saying
    whose they are, and those of others are spared. -/
structure Changes (ids : ObjectIds α) (edge : Edge α) (account : Retired α) (before after : Database α) :
    Prop where
  users : after .users = before .users
  follows : ∀ collection, ∀ next ∈ after collection, ∃ row ∈ before collection, Follows collection row next
  spares : Spares ids edge [account] before after

theorem Changes.refl (account : Retired α) (db : Database α) : Changes ids edge account db db :=
  ⟨rfl, fun _ next member => ⟨next, member, fun _ _ => rfl⟩, Spares.refl _ db⟩

theorem Changes.trans {first second third} (left : Changes ids edge account first second)
    (right : Changes ids edge account second third) :
    Changes ids edge account first third where
  users := right.users.trans left.users
  follows collection next member := by
    obtain ⟨middle, there, last⟩ := right.follows collection next member
    obtain ⟨row, found, earlier⟩ := left.follows collection middle there
    exact ⟨row, found, earlier.trans last⟩
  spares := left.spares.trans right.spares

/-- Rows of a collection are dropped or replaced one by one. -/
theorem Changes.of_rows (other : collection ≠ .users) {db} {f : List (Doc α) → List (Doc α)}
    (each : ∀ row ∈ db collection, (∃ account' ∈ [account], Refers ids edge account' collection row) ∨
      ∃ next ∈ f (db collection), Loses ids [account] collection row next)
    (comes : ∀ next ∈ f (db collection), ∃ row ∈ db collection, Follows collection row next ∧
      ((∃ account' ∈ [account], Refers ids edge account' collection row) ∨
        Loses ids [account] collection row next)) :
    Changes ids edge account db (Db.change collection f db) where
  users := Db.change_ne f db other.symm
  follows place next member := by
    by_cases here : place = collection
    · subst here
      rw [Db.change_self] at member
      obtain ⟨row, found, follows, _⟩ := comes next member
      exact ⟨row, found, follows⟩
    · rw [Db.change_ne f db here] at member
      exact ⟨next, member, fun _ _ => rfl⟩
  spares := by
    constructor
    · intro place _ row member
      by_cases here : place = collection
      · subst here
        rw [Db.change_self]
        exact each row member
      · rw [Db.change_ne f db here]
        exact .inr ⟨row, member, Loses.refl _ _ row⟩
    · intro place _ next member
      by_cases here : place = collection
      · subst here
        rw [Db.change_self] at member
        obtain ⟨row, found, _, origin⟩ := comes next member
        exact ⟨row, found, origin⟩
      · rw [Db.change_ne f db here] at member
        exact ⟨next, member, .inr (Loses.refl _ _ next)⟩

theorem Changes.deleteMany (other : collection ≠ .users) {filter : Doc α → Bool}
    (refers : ∀ row, filter row = true → Refers ids edge account collection row) (db : Database α) :
    Changes ids edge account db (Db.deleteMany collection filter db) := by
  refine Changes.of_rows other ?_ ?_
  · intro row member
    cases dropped : filter row with
    | true => exact .inl ⟨account, List.mem_singleton_self _, refers row dropped⟩
    | false => exact .inr ⟨row, List.mem_filter.mpr ⟨member, by simp [dropped]⟩, Loses.refl _ _ row⟩
  · intro next member
    exact ⟨next, (List.mem_filter.mp member).1, fun _ _ => rfl, .inr (Loses.refl _ _ next)⟩

theorem Changes.updateMany (other : collection ≠ .users) {filter : Doc α → Bool}
    {update : Doc α → Doc α} (follows : ∀ row, Follows collection row (update row))
    (loses : ∀ row, filter row = true → Refers ids edge account collection row ∨
      Loses ids [account] collection row (update row)) (db : Database α) :
    Changes ids edge account db (Db.updateMany collection filter update db) := by
  have one (row : Doc α) : Refers ids edge account collection row ∨
      Loses ids [account] collection row (if filter row then update row else row) := by
    split
    · rename_i chosen
      exact loses row chosen
    · exact .inr (Loses.refl _ _ row)
  refine Changes.of_rows other ?_ ?_
  · intro row member
    rcases one row with refers | lost
    · exact .inl ⟨account, List.mem_singleton_self _, refers⟩
    · exact .inr ⟨_, List.mem_map_of_mem member, lost⟩
  · intro next member
    obtain ⟨row, found, rfl⟩ := List.mem_map.mp member
    refine ⟨row, found, ?_, ?_⟩
    · split
      · exact follows row
      · exact fun _ _ => rfl
    · rcases one row with refers | lost
      · exact .inl ⟨account, List.mem_singleton_self _, refers⟩
      · exact .inr lost

end Relations

/-! ## The steps of a resume -/

section Steps

variable {α : Type} [DecidableEq α] {ids : ObjectIds α} {edge : Edge α} {account : Retired α}

theorem sheds_pull (key : String) (retired : List (Scalar α)) (doc : Doc α) :
    Sheds (fun item => item.among retired = true) (doc.get? key) ((doc.pull key retired).get? key) := by
  unfold Doc.pull
  split
  · rename_i items found
    refine .inr ⟨items, fun item => !item.among retired, found, Doc.get?_set_self .., ?_⟩
    simp
  · exact .inl rfl

/-- An account that is left out of a group loses its membership there. -/
theorem pullMembers_loses (row : Doc α) : Loses ids [account] .machineGroups row
    ((⟨[], [], [("user_ids", account.owner ids)]⟩ : Change α).apply row) where
  kept key other := Change.get?_apply other row
  rules other := by cases other
  author other := by cases other
  members _ := (sheds_pull "user_ids" (account.owner ids) row).mono fun item among =>
    ⟨account, List.mem_singleton_self _, among⟩
  groups other := by cases other
  group other := by cases other
  metrics other := by cases other

theorem pullGroups_loses (row : Doc α) : Loses ids [account] .machines row
    ((⟨[], [], [("group_ids", (account.job ids).groupIds)]⟩ : Change α).apply row) where
  kept key other := Change.get?_apply (by simp [touched] at other; simp [Change.keys, other]) row
  rules other := by cases other
  author other := by cases other
  members other := by cases other
  groups _ := (sheds_pull "group_ids" _ row).mono fun item among =>
    ⟨account, List.mem_singleton_self _, among⟩
  group _ := .inl (Change.get?_apply (by simp [Change.keys]) row)
  metrics other := by cases other

theorem unsetGroup_loses {row : Doc α}
    (named : row.anyIn [("group_id", (account.job ids).groupIds)] = true) :
    Loses ids [account] .machines row ((⟨[], ["group_id"], []⟩ : Change α).apply row) where
  kept key other := Change.get?_apply (by simp [touched] at other; simp [Change.keys, other]) row
  rules other := by cases other
  author other := by cases other
  members other := by cases other
  groups _ := .inl (Change.get?_apply (by simp [Change.keys]) row)
  group _ := .inr ⟨Doc.get?_unset_self "group_id" row, account, List.mem_singleton_self _,
    by simpa [Doc.anyIn, Doc.hasIn] using named⟩
  metrics other := by cases other

theorem withoutMetrics_loses (row : Doc α) : Loses ids [account] .proxyActivity row
    (withoutMetrics (routeNames ids (account.job ids).routeIds) row) where
  kept key other := by
    simp only [touched, List.mem_cons, List.not_mem_nil, or_false, not_or] at other
    unfold withoutMetrics
    rw [Doc.get?_set_ne _ _ other.2]
    split
    · exact Doc.get?_set_ne _ _ other.1
    · rfl
  rules other := by cases other
  author other := by cases other
  members other := by cases other
  groups other := by cases other
  group other := by cases other
  metrics _ := by
    unfold withoutMetrics
    rw [Doc.get?_set_ne _ _ (by decide)]
    split
    · rename_i metrics found
      refine .inr ⟨metrics, _, found, Doc.get?_set_self .., ?_⟩
      intro metric _ dropped
      exact ⟨account, List.mem_singleton_self _, by simpa using dropped⟩
    · exact .inl rfl

/-- The rules that a changed book gets. -/
def ruleSets (retired : List (Scalar α)) (book : Doc α) : List (String × Bson α) :=
  match book.get? "rules" with
  | some (.array rules) =>
      if (keptRules retired rules).length = rules.length then []
      else [("rules", .array (keptRules retired rules))]
  | _ => []

/-- The author that a changed book gets. -/
def authorSets (owner : List (Scalar α)) (book : Doc α) : List (String × Bson α) :=
  if (book.get? "created_by").any (·.among owner) then [("created_by", .scalar .null)] else []

def bookUpdate (owner retired : List (Scalar α)) (book : Doc α) : Change α :=
  ⟨ruleSets retired book ++ authorSets owner book ++
    [("revision", .scalar (.int (book.int "revision" + 1)))], [], []⟩

theorem bookChange_eq (owner retired : List (Scalar α)) (book : Doc α) :
    bookChange owner retired book =
      if (ruleSets retired book ++ authorSets owner book).isEmpty then none
      else some (bookUpdate owner retired book) := rfl

omit [DecidableEq α] in
/-- Fields under one name leave the others alone. -/
theorem foldl_set_other {sets : List (String × Bson α)} {name key}
    (named : ∀ field ∈ sets, field.1 = name) (different : key ≠ name) (doc : Doc α) :
    (sets.foldl (fun doc field => Doc.set field.1 field.2 doc) doc).get? key = doc.get? key :=
  @foldl_get? α _ _ Prod.fst key (fun doc field other => Doc.get?_set_ne field.2 doc other) sets
    (fun field member => named field member ▸ different) doc

theorem ruleSets_named (retired : List (Scalar α)) (book : Doc α) :
    ∀ field ∈ ruleSets retired book, field.1 = "rules" := by
  unfold ruleSets
  split
  · split
    · simp
    · simp
  · simp

theorem authorSets_named (owner : List (Scalar α)) (book : Doc α) :
    ∀ field ∈ authorSets owner book, field.1 = "created_by" := by
  unfold authorSets
  split
  · simp
  · simp

theorem pruned_eq (owner retired : List (Scalar α)) (book : Doc α) :
    pruned owner retired book = book ∨
      pruned owner retired book = (bookUpdate owner retired book).apply book := by
  unfold pruned
  rw [bookChange_eq]
  split
  · rename_i change found
    split at found
    · cases found
    · cases found
      exact .inr rfl
  · exact .inl rfl

theorem bookUpdate_keys (owner retired : List (Scalar α)) (book : Doc α) :
    ∀ key ∈ (bookUpdate owner retired book).keys, key ∈ touched .accessRulebooks := by
  intro key member
  simp only [Change.keys, bookUpdate, List.map_append, List.map_nil, List.append_nil, List.mem_append,
    List.mem_map, List.mem_singleton, exists_eq_left] at member
  rcases member with (⟨field, listed, rfl⟩ | ⟨field, listed, rfl⟩) | rfl
  · simp [touched, ruleSets_named retired book field listed]
  · simp [touched, authorSets_named owner book field listed]
  · simp [touched]

theorem bookUpdate_rules (owner retired : List (Scalar α)) (book : Doc α) :
    Sheds (fun rule => references retired rule = true) (book.get? "rules")
      (((bookUpdate owner retired book).apply book).get? "rules") := by
  simp only [Change.apply, bookUpdate, List.foldl_append, List.foldl_cons, List.foldl_nil]
  rw [Doc.get?_set_ne _ _ (by decide), foldl_set_other (authorSets_named owner book) (by decide)]
  unfold ruleSets
  split
  · rename_i rules found
    split
    · exact .inl rfl
    · refine .inr ⟨rules, fun rule => !references retired rule, found, Doc.get?_set_self .., ?_⟩
      simp
  · exact .inl rfl

theorem bookUpdate_author (owner retired : List (Scalar α)) (book : Doc α) :
    ((bookUpdate owner retired book).apply book).get? "created_by" = book.get? "created_by" ∨
      (((bookUpdate owner retired book).apply book).get? "created_by" = some (.scalar .null) ∧
        (book.get? "created_by").any (·.among owner) = true) := by
  simp only [Change.apply, bookUpdate, List.foldl_append, List.foldl_cons, List.foldl_nil]
  rw [Doc.get?_set_ne _ _ (by decide)]
  unfold authorSets
  split
  · rename_i named
    exact .inr ⟨Doc.get?_set_self .., named⟩
  · exact .inl (foldl_set_other (ruleSets_named retired book) (by decide) book)

theorem pruned_loses (row : Doc α) : Loses ids [account] .accessRulebooks row
    (pruned (account.owner ids) (retiredIds (account.owner ids) (account.job ids)) row) := by
  rcases pruned_eq (account.owner ids) (retiredIds (account.owner ids) (account.job ids)) row with
    same | changed
  · rw [same]
    exact Loses.refl _ _ row
  · rw [changed]
    refine ⟨fun key other => Change.get?_apply (fun inside => other (bookUpdate_keys _ _ row key inside)) row,
      fun _ => (bookUpdate_rules _ _ row).mono fun rule named => ⟨account, List.mem_singleton_self _, named⟩,
      fun _ => ?_, ?_, ?_, ?_, ?_⟩
    · rcases bookUpdate_author (account.owner ids)
        (retiredIds (account.owner ids) (account.job ids)) row with kept | ⟨cleared, named⟩
      · exact .inl kept
      · exact .inr ⟨cleared, account, List.mem_singleton_self _, named⟩
    all_goals exact nofun

/-- A step that works on behalf of an account only. -/
def Step.Safe (ids : ObjectIds α) (edge : Edge α) (account : Retired α) : Step α → Prop
  | .delete collection fields => collection ≠ .users ∧ fields = account.fields ids collection
  | .deleteInvites owner email => owner = account.owner ids ∧ email = account.email
  | .update collection fields change => collection ≠ .users ∧
      (∀ key ∈ identity collection, key ∉ change.keys) ∧
      ∀ row, row.anyIn fields = true → Refers ids edge account collection row ∨
        Loses ids [account] collection row (change.apply row)
  | .rebuild | .rebuildWeb | .closePorts _ => True
  | .pruneBooks owner retired =>
      owner = account.owner ids ∧ retired = retiredIds (account.owner ids) (account.job ids)
  | .forgetMetrics routes => routes = routeNames ids (account.job ids).routeIds

/-- An update of the records of the account. -/
theorem Step.safe_update {collection} {change : Change α} (other : collection ≠ .users)
    (keeps : ∀ key ∈ identity collection, key ∉ change.keys) :
    Step.Safe ids edge account (.update collection (account.fields ids collection) change) :=
  ⟨other, keeps, fun _ named => .inl (.inl named)⟩

theorem steps_safe : ∀ step ∈ steps ids (account.owner ids) (account.job ids) account.email,
    step.Safe ids edge account := by
  have deletes (collection : Collection) (other : collection ≠ .users) :
      Step.Safe ids edge account (.delete collection (account.fields ids collection)) := ⟨other, rfl⟩
  simp only [steps, List.forall_mem_cons, List.not_mem_nil, false_implies, implies_true, and_true]
  refine ⟨deletes .userSessions (by decide), Step.safe_update (by decide) ?_,
    Step.safe_update (by decide) ?_, Step.safe_update (by decide) ?_, deletes .firewallTraffic (by decide),
    deletes .terminalTraffic (by decide), Step.safe_update (by decide) ?_, trivial, trivial, trivial,
    deletes .connections (by decide), deletes .trafficRoutes (by decide),
    deletes .machineStatusEvents (by decide), deletes .machineInstallTickets (by decide),
    deletes .privateInstallTickets (by decide), deletes .privateSignals (by decide),
    deletes .privatePeers (by decide), deletes .workspaceMembers (by decide), ⟨rfl, rfl⟩,
    deletes .accessRulebooks (by decide), ⟨rfl, rfl⟩, deletes .machineGroups (by decide),
    ⟨by decide, ?_, fun row _ => .inr (pullMembers_loses row)⟩,
    ⟨by decide, ?_, fun row _ => .inr (pullGroups_loses row)⟩,
    ⟨by decide, ?_, fun row named => .inr (unsetGroup_loses named)⟩, deletes .machines (by decide),
    deletes .privateNetworks (by decide), deletes .privateDnsRules (by decide),
    deletes .privateProxyGrants (by decide), deletes .privateExitNodes (by decide), rfl⟩
  all_goals simp [identity, Change.keys]

/-- Every collection with records of the account has a step that deletes them. -/
theorem deletes_all {collection} (owned : account.fields ids collection ≠ []) :
    Step.delete collection (account.fields ids collection) ∈
      steps ids (account.owner ids) (account.job ids) account.email := by
  revert owned
  cases collection <;> simp [steps, Retired.fields, accountFields]

end Steps

end PortHub.Api.AccountDelete
