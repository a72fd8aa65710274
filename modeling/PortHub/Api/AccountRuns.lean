import PortHub.Api.AccountRetirement

/-! # Runs of account deletions

What holds of the database, the stored deletions and everything that was published
is kept by every operation, however it ends, and so by every sequence of calls.
-/

namespace PortHub.Api.AccountDelete

open Documents Faults

section Statements

variable {α : Type} [DecidableEq α] (ids : ObjectIds α) (edge : Edge α)

/-- The record of an account with the journal that was stored for it. -/
def Carries (account : Retired α) (user : Doc α) : Prop :=
  ∃ job, (user.get? "account_deletion").bind Bson.document? = some job ∧
    Job.read job = account.job ids ∧ emailOf user = account.email

/-- No two users have one id. -/
def Distinct (db : Database α) : Prop := ∀ id, ((db .users).filter (isUser id)).length ≤ 1

def Present (db : Database α) (id : α) : Prop := ∃ user ∈ db .users, isUser id user = true

structure Sound (origin : Database α) (world : World α) : Prop where
  distinct : Distinct world.db
  single : (world.stored.map Prod.fst).Nodup
  standing : ∀ account ∈ world.stored, ∀ user ∈ world.db .users, isUser account.1 user = true →
    Carries ids account user
  marked : ∀ user ∈ world.db .users, hasJournal user = true →
    ∃ account ∈ world.stored, isUser account.1 user = true
  closed : ∀ account ∈ world.stored, Present world.db account.1 ∨ Clean ids account world.db
  fenced : ∀ entry ∈ world.published, ∀ id ∈ entry.2, entry.1.Free ids id
  spares : Spares ids edge world.stored origin world.db
  others : ∀ user, (∀ account ∈ world.stored, isUser account.1 user = false) →
    (user ∈ world.db .users ↔ user ∈ origin .users)
  admin : (∃ user ∈ origin .users, isAdmin user = true) →
    ∃ user ∈ world.db .users, isAdmin user = true ∧ hasJournal user = false

/-- The world after some operations on behalf of a stored account. -/
structure Advances (origin : Database α) (account : Retired α) (before after : World α) : Prop where
  stored : after.stored = before.stored
  changes : Changes ids edge account before.db after.db
  sound : account ∈ before.stored → Sound ids edge origin before → Sound ids edge origin after

/-- The world after some publications. -/
structure Publishes (origin : Database α) (before after : World α) : Prop where
  stored : after.stored = before.stored
  db : after.db = before.db
  sound : Sound ids edge origin before → Sound ids edge origin after

end Statements

section Sound

variable {α : Type} [DecidableEq α] {ids : ObjectIds α} {edge : Edge α} {origin : Database α}
  {world : World α} {account : Retired α}

theorem Clean.change {before after changed} (clean : Clean ids account before)
    (changes : Changes ids edge changed before after) :
    Clean ids account after := by
  intro collection next member
  obtain ⟨row, found, follows⟩ := changes.follows collection next member
  rw [follows.anyIn account]
  exact clean collection row found

/-- A change of the database on behalf of a stored account. -/
theorem Sound.change (sound : Sound ids edge origin world) (listed : account ∈ world.stored)
    {next : World α} (stored : next.stored = world.stored) (published : next.published = world.published)
    (changes : Changes ids edge account world.db next.db) : Sound ids edge origin next where
  distinct id := by
    rw [changes.users]
    exact sound.distinct id
  single := stored ▸ sound.single
  standing other member user there := by
    rw [changes.users] at there
    exact sound.standing other (stored ▸ member) user there
  marked user there := by
    rw [changes.users] at there
    rw [stored]
    exact sound.marked user there
  closed other member := by
    rcases sound.closed other (stored ▸ member) with ⟨user, there, named⟩ | clean
    · refine .inl ⟨user, ?_, named⟩
      rw [changes.users]
      exact there
    · exact .inr (clean.change changes)
  fenced := published ▸ sound.fenced
  spares := by
    rw [stored]
    refine sound.spares.trans (changes.spares.mono fun other member => ?_)
    rw [List.mem_singleton.mp member]
    exact listed
  others user unnamed := by
    rw [changes.users]
    exact sound.others user (stored ▸ unnamed)
  admin exists_ := by
    rw [changes.users]
    exact sound.admin exists_

/-- A snapshot without the stored accounts is published. -/
theorem Sound.publish (sound : Sound ids edge origin world) {snapshot : Snapshot α}
    (free : ∀ account ∈ world.stored, snapshot.Free ids account.1) :
    Sound ids edge origin { world with
      published := world.published ++ [(snapshot, world.stored.map Prod.fst)] } where
  __ := sound
  fenced entry member id inside := by
    rcases Runs.mem_snoc.mp member with old | rfl
    · exact sound.fenced entry old id inside
    · obtain ⟨account, listed, rfl⟩ := List.mem_map.mp inside
      exact free account listed

theorem Carries.hasJournal {user} (carries : Carries ids account user) :
    hasJournal user = true := by
  obtain ⟨job, found, _⟩ := carries
  unfold AccountDelete.hasJournal
  cases there : user.get? "account_deletion" with
  | none => simp [there] at found
  | some value => rfl

theorem isUser_iff {id : α} {user : Doc α} : isUser id user = true ↔ idOf user = some (.objectId id) := by
  simp [isUser]

/-- The retiring owners have both forms of the id of a present account. -/
theorem Sound.retiring (sound : Sound ids edge origin world) (listed : account ∈ world.stored)
    (present : Present world.db account.1) : ∀ id ∈ values ids account.1, id ∈ retiringOwners ids world.db := by
  obtain ⟨user, there, named⟩ := present
  have journal := (sound.standing account listed user there named).hasJournal
  intro id member
  refine List.mem_flatMap.mpr ⟨.objectId account.1, ?_, by simpa [values, otherForm] using member⟩
  exact List.mem_filterMap.mpr ⟨user, List.mem_filter.mpr ⟨there, journal⟩, isUser_iff.mp named⟩

theorem Clean.hasIn (clean : Clean ids account world.db) {collection row}
    (member : row ∈ world.db collection)
    (field : ("user_id", values ids account.1) ∈ account.fields ids collection) :
    row.hasIn "user_id" (values ids account.1) = false := by
  have none := clean collection row member
  simpa using List.any_eq_false.mp none _ field

section

variable (sound : Sound ids edge origin world) (listed : account ∈ world.stored)

include sound listed

/-- Rows that pass the fence are not of a stored account. -/
theorem Sound.fence
    {collection} (field : ("user_id", values ids account.1) ∈ account.fields ids collection) {row}
    (member : row ∈ world.db collection)
    (passes : row.hasIn "user_id" (retiringOwners ids world.db) = false) :
    row.hasIn "user_id" (values ids account.1) = false := by
  rcases sound.closed account listed with present | clean
  · by_contra named
    rw [Bool.not_eq_false] at named
    rw [hasIn_mono (sound.retiring listed present) named] at passes
    cases passes
  · exact clean.hasIn member field

theorem Sound.gateway_free (connections : List (Doc α)) :
    (Snapshot.gateway (services ids (activeMachines (retiringOwners ids world.db) world.db)
      connections)).Free ids account.1 := by
  intro service member
  obtain ⟨connection, _, found⟩ := List.mem_filterMap.mp member
  obtain ⟨machine, matched, rfl⟩ := Option.map_eq_some_iff.mp found
  have usable := List.mem_reverse.mp (List.mem_of_find?_eq_some matched)
  obtain ⟨active, passes⟩ := List.mem_filter.mp (List.mem_filter.mp usable).1
  simp only [Bool.and_eq_true, Bool.not_eq_true'] at passes
  exact sound.fence listed (by simp [Retired.fields, accountFields, machineFilter, Retired.owner]) active
    passes.1.1.1

theorem Sound.web_free :
    (Snapshot.web ((webRoutes (retiringOwners ids world.db) world.db).filter edge.proxied)).Free
      ids account.1 := by
  intro route member
  obtain ⟨active, passes⟩ := List.mem_filter.mp (List.mem_filter.mp member).1
  simp only [Bool.and_eq_true, Bool.not_eq_true'] at passes
  exact sound.fence listed (by simp [Retired.fields, accountFields, Retired.owner]) active passes.1

end

end Sound

/-! ## Publications and steps -/

section Programs

variable {α : Type} [DecidableEq α] {ids : ObjectIds α} {edge : Edge α} {origin : Database α}
  {account : Retired α} {s : World α} {step : Step α}

omit [DecidableEq α] in
theorem query_then {β γ : Type} {read : Database α → β} {rest : β → Action α γ} {ends}
    (next : (rest (read s.db)).Meets s ends) (failed : ∀ error, ends.failed error s)
    (died : ends.died s) :
    (query read >>= rest).Meets s ends := by
  refine Prog.Meets.bind (Prog.Meets.op ?_ (failed _) died)
  intro value t found
  cases found
  exact next

theorem Publishes.refl (world : World α) : Publishes ids edge origin world world := ⟨rfl, rfl, id⟩

theorem Publishes.trans {first second third} (left : Publishes ids edge origin first second)
    (right : Publishes ids edge origin second third) : Publishes ids edge origin first third :=
  ⟨right.stored.trans left.stored, right.db.trans left.db, right.sound ∘ left.sound⟩

theorem Advances.refl (world : World α) : Advances ids edge origin account world world :=
  ⟨rfl, Changes.refl account world.db, fun _ => id⟩

theorem Advances.trans {first second third} (left : Advances ids edge origin account first second)
    (right : Advances ids edge origin account second third) :
    Advances ids edge origin account first third :=
  ⟨right.stored.trans left.stored, left.changes.trans right.changes,
    fun listed sound => right.sound (left.stored ▸ listed) (left.sound listed sound)⟩

theorem Publishes.advances {before after} (published : Publishes ids edge origin before after) :
    Advances ids edge origin account before after :=
  ⟨published.stored, published.db.symm ▸ Changes.refl account before.db, fun _ => published.sound⟩

omit [DecidableEq α] in
theorem request_moves {related : World α → World α → Prop} (refl : ∀ s, related s s) :
    (request : Action α Unit).Moves related := by
  refine Prog.Moves.op refl ?_
  intro s value t found
  cases found
  exact refl s

theorem write_meets {snapshot : Snapshot α}
    (free : Sound ids edge origin s → ∀ account ∈ s.stored, snapshot.Free ids account.1) :
    (write snapshot).Meets s (.all (Publishes ids edge origin s)) := by
  refine Prog.Meets.bind (Prog.Meets.op ?_ (Publishes.refl s) (Publishes.refl s))
  intro _ t found
  cases found
  have written : Publishes ids edge origin s { s with
      published := s.published ++ [(snapshot, s.stored.map Prod.fst)] } :=
    ⟨rfl, rfl, fun sound => sound.publish (free sound)⟩
  exact Prog.Moves.after Publishes.trans (request_moves Publishes.refl) written

theorem publish_moves (apply : Bool) :
    (publish ids edge apply).Moves (Publishes ids edge origin) := by
  unfold publish
  split
  · refine Prog.Moves.of_meets fun s => ?_
    refine query_then ?_ (fun _ => Publishes.refl s) (Publishes.refl s)
    refine query_then ?_ (fun _ => Publishes.refl s) (Publishes.refl s)
    refine query_then ?_ (fun _ => Publishes.refl s) (Publishes.refl s)
    refine Prog.Meets.bind (Prog.Meets.ensure (fun _ => ?_) fun _ => Publishes.refl s)
    refine Prog.Meets.seq (fun _ t => Publishes ids edge origin s t) (write_meets ?_) ?_
    · intro sound account listed
      exact sound.gateway_free listed _
    · intro _ t written
      exact Prog.Moves.after Publishes.trans
        (Prog.Moves.onlyIf Publishes.refl fun _ => request_moves Publishes.refl) written
  · exact Prog.Moves.ensure Publishes.refl _ _

theorem rebuildWeb_moves : (rebuildWeb ids edge).Moves (Publishes ids edge origin) := by
  unfold rebuildWeb
  split
  · refine Prog.Moves.of_meets fun s => ?_
    refine query_then ?_ (fun _ => Publishes.refl s) (Publishes.refl s)
    refine query_then ?_ (fun _ => Publishes.refl s) (Publishes.refl s)
    refine Prog.Meets.bind (Prog.Meets.ensure (fun _ => ?_) fun _ => Publishes.refl s)
    exact write_meets fun sound account listed => sound.web_free listed
  · exact Prog.Moves.pure Publishes.refl ()

section Preorder

variable {related : World α → World α → Prop} (refl : ∀ s, related s s)
  (trans : ∀ {s t u}, related s t → related t u → related s u)

include refl trans

omit [DecidableEq α] in
theorem exec_moves {change : Database α → Database α}
    (changes : ∀ s : World α, related s { s with db := change s.db }) : (exec change).Moves related := by
  refine (Prog.Moves.op refl ?_).bind (fun _ => request_moves refl) trans
  intro s _ t found
  cases found
  exact changes s

omit [DecidableEq α] in
theorem query_moves {β γ : Type} {read : Database α → β} {rest : β → Action α γ}
    (next : ∀ value, (rest value).Moves related) : (query read >>= rest).Moves related := by
  refine (Prog.Moves.op refl ?_).bind next trans
  intro s _ t found
  cases found
  exact refl s

end Preorder

/-- The changes of the database that a step makes. -/
def Step.Makes (edge : Edge α) (change : Database α → Database α) : Step α → Prop
  | .delete collection fields => change = Db.deleteMany collection (Doc.anyIn fields)
  | .deleteInvites owner email => change = Db.deleteMany .workspaceInvites (invites edge owner email)
  | .update collection fields effect => change = Db.updateMany collection (Doc.anyIn fields) effect.apply
  | .rebuild | .rebuildWeb | .closePorts _ => False
  | .pruneBooks owner retired => ∃ book, change =
      Db.updateMany .accessRulebooks (fun doc => idOf doc == idOf book) (pruned owner retired)
  | .forgetMetrics routes => change = Db.updateMany .proxyActivity (fun _ => true) (withoutMetrics routes)

/-- A step is made of publications and of its changes. -/
theorem Step.moves_of {related : World α → World α → Prop} (refl : ∀ s, related s s)
    (trans : ∀ {s t u}, related s t → related t u → related s u)
    (publishes : ∀ s t, Publishes ids edge origin s t → related s t)
    (makes : ∀ change, step.Makes edge change → ∀ s : World α, related s { s with db := change s.db }) :
    (step.perform ids edge).Moves related := by
  have executed (change : Database α → Database α) (made : step.Makes edge change) :
      (exec change).Moves related := exec_moves refl trans (makes change made)
  have ports (asked : Int → Bool) (connections : List (Doc α)) : (eachPort asked connections).Moves related :=
    Prog.Moves.each refl trans fun _ _ => request_moves refl
  have rebuilds : (AccountDelete.rebuild ids edge).Moves related := (publish_moves true).mono publishes
  cases step with
  | delete collection fields | deleteInvites owner email | update collection fields change =>
      exact executed _ rfl
  | rebuild => exact rebuilds
  | rebuildWeb => exact rebuildWeb_moves.mono publishes
  | closePorts fields =>
      refine query_moves refl trans fun connections => Prog.Moves.bind ?_ (fun _ => ?_) trans
      · refine Prog.Moves.onlyIf refl fun _ => ?_
        refine Prog.Moves.bind ?_ (fun _ => ports _ connections) trans
        exact Prog.Moves.onlyIf refl fun _ => rebuilds
      · exact Prog.Moves.onlyIf refl fun _ => ports _ connections
  | pruneBooks owner retired =>
      refine query_moves refl trans fun books => Prog.Moves.each refl trans fun book _ => ?_
      exact Prog.Moves.onlyIf refl fun _ => executed _ ⟨book, rfl⟩
  | forgetMetrics routes => exact Prog.Moves.onlyIf refl fun _ => executed _ rfl

/-- What a safe step changes, it changes on behalf of the account. -/
theorem Step.Safe.changes (safe : step.Safe ids edge account) {change : Database α → Database α}
    (made : step.Makes edge change) (db : Database α) :
    Changes ids edge account db (change db) := by
  cases step with
  | delete collection fields =>
      obtain ⟨other, rfl⟩ := safe
      subst made
      exact Changes.deleteMany other (fun _ named => .inl named) db
  | deleteInvites owner email =>
      obtain ⟨rfl, rfl⟩ := safe
      subst made
      exact Changes.deleteMany (by decide) (fun _ invited => .inr ⟨rfl, invited⟩) db
  | update collection fields change =>
      obtain ⟨other, keeps, loses⟩ := safe
      subst made
      exact Changes.updateMany other (fun row key named => Change.get?_apply (keeps key named) row) loses db
  | rebuild => cases made
  | rebuildWeb => cases made
  | closePorts fields => cases made
  | pruneBooks owner retired =>
      obtain ⟨rfl, rfl⟩ := safe
      obtain ⟨book, rfl⟩ := made
      exact Changes.updateMany (by decide) (fun row => (pruned_loses row).follows)
        (fun row _ => .inr (pruned_loses row)) db
  | forgetMetrics routes =>
      subst safe made
      exact Changes.updateMany (by decide) (fun row => (withoutMetrics_loses row).follows)
        (fun row _ => .inr (withoutMetrics_loses row)) db

/-- Every step of a resume moves on, however it ends. -/
theorem Step.perform_moves (safe : step.Safe ids edge account) :
    (step.perform ids edge).Moves (Advances ids edge origin account) := by
  refine Step.moves_of Advances.refl Advances.trans (fun _ _ published => published.advances) ?_
  intro change made s
  have changes := safe.changes made s.db
  exact ⟨rfl, changes, fun listed sound => sound.change listed rfl rfl changes⟩

/-- No record of the account is left in one collection. -/
def Gone (ids : ObjectIds α) (account : Retired α) (collection : Collection) (db : Database α) : Prop :=
  ∀ row ∈ db collection, row.anyIn (account.fields ids collection) = false

theorem Gone.change {collection before after} (gone : Gone ids account collection before)
    (changes : Changes ids edge account before after) :
    Gone ids account collection after := by
  intro next member
  obtain ⟨row, found, follows⟩ := changes.follows collection next member
  rw [follows.anyIn account]
  exact gone row found

theorem delete_meets (collection : Collection) :
    (Step.perform ids edge (.delete collection (account.fields ids collection))).Meets s
      ⟨fun _ t => Gone ids account collection t.db, fun _ _ => True, fun _ => True⟩ := by
  refine Prog.Meets.bind (Prog.Meets.op ?_ trivial trivial)
  intro _ t found
  cases found
  refine Prog.Meets.op ?_ trivial trivial
  intro _ u same row member
  cases same
  simp only [Db.deleteMany, Db.change_self] at member
  simpa using (List.mem_filter.mp member).2

/-- All steps together leave no record of the account, whatever was there before. -/
theorem retire_meets : (retire ids edge account.1 (account.job ids) account.email).Meets s
    ⟨fun _ t => Advances ids edge origin account s t ∧ Clean ids account t.db,
      fun _ t => Advances ids edge origin account s t,
      fun t => Advances ids edge origin account s t⟩ := by
  refine Prog.Meets.each (fun before t => Advances ids edge origin account s t ∧
    ∀ collection, Step.delete collection (account.fields ids collection) ∈ before →
      Gone ids account collection t.db) ⟨Advances.refl s, by simp⟩ ?_ ?_
  · rintro before step after t whole ⟨advanced, gone⟩
    have member : step ∈ steps ids (account.owner ids) (account.job ids) account.email := by
      have inside : step ∈ before ++ step :: after := by simp
      rw [← whole] at inside
      exact inside
    have moves : (Step.perform ids edge step).Moves (Advances ids edge origin account) :=
      Step.perform_moves (steps_safe step member)
    -- What was gone stays gone, and a deletion adds its own collection.
    have ends : (Step.perform ids edge step).Meets t ⟨fun _ u => ∀ collection,
        Step.delete collection (account.fields ids collection) = step → Gone ids account collection u.db,
        fun _ _ => True, fun _ => True⟩ := by
      cases step with
      | delete collection fields =>
          by_cases own : fields = account.fields ids collection
          · subst own
            refine (delete_meets collection).mono ?_ (fun _ _ _ => trivial) fun _ _ => trivial
            intro _ u gone other same
            obtain ⟨rfl, _⟩ := Step.delete.inj same
            exact gone
          · refine (moves.meets t).mono ?_ (fun _ _ _ => trivial) fun _ _ => trivial
            intro _ u _ other same
            obtain ⟨rfl, equal⟩ := Step.delete.inj same
            exact absurd equal.symm own
      | _ =>
          refine (moves.meets t).mono ?_ (fun _ _ _ => trivial) fun _ _ => trivial
          intro _ u _ other same
          cases same
    refine (moves.and_meets ends).mono ?_ ?_ ?_
    · rintro _ u ⟨here, moved⟩
      refine ⟨advanced.trans moved, fun collection listed => ?_⟩
      rcases Runs.mem_snoc.mp listed with old | new
      · exact (gone collection old).change moved.changes
      · exact here collection new
    · exact fun _ u ended => advanced.trans ended.2
    · exact fun u ended => advanced.trans ended.2
  · rintro t ⟨advanced, gone⟩
    refine ⟨advanced, fun collection row member => ?_⟩
    by_cases owned : account.fields ids collection = []
    · rw [owned]
      rfl
    · exact gone collection (deletes_all owned) row member

end Programs

/-! ## The records of the accounts -/

section Users

variable {α : Type} [DecidableEq α] {ids : ObjectIds α} {edge : Edge α} {origin : Database α}
  {world next : World α} {account : Retired α} {db : Database α} {id : α} {user other : Doc α}
  {key : String}

/-- Changes of the users alone spare every other record. -/
theorem Spares.of_users {accounts before after}
    (same : ∀ collection, collection ≠ .users → after collection = before collection) :
    Spares ids edge accounts before after where
  stays collection other row member :=
    .inr ⟨row, same collection other ▸ member, Loses.refl _ _ row⟩
  comes collection other next member :=
    ⟨next, same collection other ▸ member, .inr (Loses.refl _ _ next)⟩

theorem Clean.of_users {before after} (clean : Clean ids account before)
    (same : ∀ collection, collection ≠ .users → after collection = before collection) :
    Clean ids account after := by
  intro collection row member
  by_cases users : collection = .users
  · subst users
    rfl
  · exact clean collection row (same collection users ▸ member)

theorem Distinct.eq (distinct : Distinct db) (first : user ∈ db .users) (second : other ∈ db .users)
    (named : isUser id user = true) (same : isUser id other = true) : user = other := by
  have left := List.mem_filter.mpr ⟨first, named⟩
  have right := List.mem_filter.mpr ⟨second, same⟩
  have short := distinct id
  generalize (db .users).filter (isUser id) = found at left right short
  rcases found with _ | ⟨only, _ | ⟨more, rest⟩⟩
  · cases left
  · rw [List.mem_singleton.mp left, List.mem_singleton.mp right]
  · simp at short

theorem isUser_unique {other : α} (first : isUser id user = true)
    (second : isUser other user = true) : id = other := by
  rw [isUser_iff] at first second
  exact Scalar.objectId.inj (Option.mem_unique first second)

theorem Sound.known (sound : Sound ids edge origin world) (there : user ∈ world.db .users)
    (marked : hasJournal user = true) (named : isUser id user = true) :
    ∃ account ∈ world.stored, account.1 = id := by
  obtain ⟨account, listed, same⟩ := sound.marked user there marked
  exact ⟨account, listed, isUser_unique same named⟩

theorem Sound.unmarked (sound : Sound ids edge origin world) (there : user ∈ world.db .users)
    (unnamed : ∀ account ∈ world.stored, isUser account.1 user = false) :
    hasJournal user = false := by
  by_contra marked
  rw [Bool.not_eq_false] at marked
  obtain ⟨account, listed, named⟩ := sound.marked user there marked
  rw [unnamed account listed] at named
  cases named

/-- The record goes when nothing of the account is left. -/
theorem Sound.remove (sound : Sound ids edge origin world) (listed : account ∈ world.stored)
    (clean : Clean ids account world.db) (stored : next.stored = world.stored)
    (published : next.published = world.published)
    (db : next.db = Db.deleteMany .users (fun user => isUser account.1 user && hasJournal user) world.db) :
    Sound ids edge origin next := by
  have others (collection : Collection) (other : collection ≠ .users) :
      next.db collection = world.db collection := by
    rw [db, Db.deleteMany, Db.change_ne _ _ other]
  have users : next.db .users =
      (world.db .users).filter fun user => !(isUser account.1 user && hasJournal user) := by
    rw [db, Db.deleteMany, Db.change_self]
  have member {user : Doc α} (there : user ∈ next.db .users) : user ∈ world.db .users :=
    (List.mem_filter.mp (users ▸ there)).1
  refine ⟨?_, stored ▸ sound.single, ?_, ?_, ?_, published ▸ sound.fenced, ?_, ?_, ?_⟩
  · intro id
    rw [users, List.filter_filter]
    refine le_trans (List.Sublist.length_le ?_) (sound.distinct id)
    exact List.monotone_filter_right _ fun user both => by simpa using (Bool.and_eq_true_iff.mp both).1
  · intro other inside user there
    exact sound.standing other (stored ▸ inside) user (member there)
  · intro user there
    rw [stored]
    exact sound.marked user (member there)
  · intro other inside
    rw [stored] at inside
    by_cases same : other.1 = account.1
    · obtain rfl := List.inj_on_of_nodup_map sound.single inside listed same
      exact .inr (clean.of_users others)
    · rcases sound.closed other inside with ⟨user, there, named⟩ | gone
      · refine .inl ⟨user, users ▸ List.mem_filter.mpr ⟨there, ?_⟩, named⟩
        have different : isUser account.1 user = false := by
          by_contra also
          rw [Bool.not_eq_false] at also
          exact same (isUser_unique named also)
        simp [different]
      · exact .inr (gone.of_users others)
  · rw [stored]
    exact sound.spares.trans (Spares.of_users others)
  · intro user unnamed
    rw [stored] at unnamed
    rw [← sound.others user unnamed, users, List.mem_filter]
    simp [unnamed account listed]
  · intro exists_
    obtain ⟨user, there, role, unmarked⟩ := sound.admin exists_
    exact ⟨user, users ▸ List.mem_filter.mpr ⟨there, by simp [unmarked]⟩, role, unmarked⟩

/-- A change of a user that keeps what the deletion reads. -/
structure Harmless (ids : ObjectIds α) (change : Doc α → Doc α) : Prop where
  idOf : ∀ user, AccountDelete.idOf (change user) = AccountDelete.idOf user
  hasJournal : ∀ user, AccountDelete.hasJournal (change user) = AccountDelete.hasJournal user
  isAdmin : ∀ user, AccountDelete.isAdmin (change user) = AccountDelete.isAdmin user
  unmarked : ∀ user, AccountDelete.hasJournal user = false → change user = user
  carries : ∀ account user, Carries ids account user → Carries ids account (change user)

theorem Sound.updateUsers (sound : Sound ids edge origin world) {filter : Doc α → Bool}
    {change : Doc α → Doc α} (harmless : Harmless ids change) (stored : next.stored = world.stored)
    (published : next.published = world.published)
    (db : next.db = Db.updateMany .users filter change world.db) : Sound ids edge origin next := by
  have others (collection : Collection) (other : collection ≠ .users) :
      next.db collection = world.db collection := by
    rw [db, Db.updateMany, Db.change_ne _ _ other]
  have users : next.db .users =
      (world.db .users).map fun user => if filter user then change user else user := by
    rw [db, Db.updateMany, Db.change_self]
  have sameId (id : α) (user : Doc α) :
      isUser id (if filter user then change user else user) = isUser id user := by
    split
    · simp [isUser, harmless.idOf]
    · rfl
  have sameJournal (user : Doc α) :
      hasJournal (if filter user then change user else user) = hasJournal user := by
    split
    · exact harmless.hasJournal user
    · rfl
  have sameRole (user : Doc α) :
      isAdmin (if filter user then change user else user) = isAdmin user := by
    split
    · exact harmless.isAdmin user
    · rfl
  refine ⟨?_, stored ▸ sound.single, ?_, ?_, ?_, published ▸ sound.fenced, ?_, ?_, ?_⟩
  · intro id
    rw [users, List.filter_map, List.length_map]
    simpa [Function.comp_def, sameId] using sound.distinct id
  · intro account inside user there named
    rw [users] at there
    obtain ⟨old, found, rfl⟩ := List.mem_map.mp there
    have carries := sound.standing account (stored ▸ inside) old found (sameId _ old ▸ named)
    split
    · exact harmless.carries account old carries
    · exact carries
  · intro user there marked
    rw [users] at there
    obtain ⟨old, found, rfl⟩ := List.mem_map.mp there
    rw [stored]
    obtain ⟨account, listed, named⟩ := sound.marked old found (sameJournal old ▸ marked)
    exact ⟨account, listed, (sameId account.1 old).trans named⟩
  · intro account inside
    rcases sound.closed account (stored ▸ inside) with ⟨user, there, named⟩ | gone
    · exact .inl ⟨_, users ▸ List.mem_map_of_mem there, sameId account.1 user ▸ named⟩
    · exact .inr (gone.of_users others)
  · rw [stored]
    exact sound.spares.trans (Spares.of_users others)
  · intro user unnamed
    rw [stored] at unnamed
    rw [← sound.others user unnamed, users]
    have fixed (old : Doc α) (there : old ∈ world.db .users)
        (unnamed : ∀ account ∈ world.stored, isUser account.1 old = false) :
        (if filter old then change old else old) = old := by
      have plain := sound.unmarked there unnamed
      rw [harmless.unmarked old plain, ite_self]
    constructor
    · intro member
      obtain ⟨old, there, rfl⟩ := List.mem_map.mp member
      rw [fixed old there fun account listed => sameId account.1 old ▸ unnamed account listed]
      exact there
    · intro there
      exact List.mem_map.mpr ⟨user, there, fixed user there unnamed⟩
  · intro exists_
    obtain ⟨user, there, role, unmarked⟩ := sound.admin exists_
    exact ⟨_, users ▸ List.mem_map_of_mem there, sameRole user ▸ role, sameJournal user ▸ unmarked⟩

omit [DecidableEq α] in
theorem emailOf_congr (same : other.get? "username" = user.get? "username") :
    emailOf other = emailOf user := by
  simp only [emailOf, Doc.string, same]

omit [DecidableEq α] in
theorem isAdmin_congr (same : other.get? "role" = user.get? "role") :
    isAdmin other = isAdmin user := by
  simp only [isAdmin, Doc.string, same]

omit [DecidableEq α] in
theorem idOf_congr (same : other.get? "_id" = user.get? "_id") :
    idOf other = idOf user := by
  simp only [idOf, same]

omit [DecidableEq α] in
theorem postpone_get? (other : key ≠ "account_deletion") (now : Int) (user : Doc α) :
    (postpone now user).get? key = user.get? key := by
  unfold postpone
  split
  · exact Doc.get?_set_ne _ _ other
  · rfl

omit [DecidableEq α] in
theorem read_set (value : Bson α) (job : Doc α) :
    Job.read (Doc.set "next_attempt_at" value job) = Job.read job := by
  have same (key : String) (other : key ≠ "next_attempt_at") :
      listOf (Doc.set "next_attempt_at" value job) key = listOf job key := by
    simp only [listOf, Doc.items, Doc.get?_set_ne value job other]
  simp only [Job.read, same _ (show "machine_ids" ≠ "next_attempt_at" by decide),
    same _ (show "peer_ids" ≠ "next_attempt_at" by decide),
    same _ (show "group_ids" ≠ "next_attempt_at" by decide),
    same _ (show "route_ids" ≠ "next_attempt_at" by decide)]

theorem postpone_harmless (now : Int) : Harmless ids (postpone now) where
  idOf user := idOf_congr (postpone_get? (by decide) now user)
  hasJournal user := by
    unfold postpone
    split
    · rename_i job found
      simp [hasJournal, found]
    · rfl
  isAdmin user := isAdmin_congr (postpone_get? (by decide) now user)
  unmarked user plain := by
    unfold postpone
    split
    · rename_i job found
      simp [hasJournal, found] at plain
    · rfl
  carries account user := by
    rintro ⟨job, found, read, email⟩
    obtain ⟨value, there, document⟩ := Option.bind_eq_some_iff.mp found
    cases value with
    | scalar value => cases document
    | array items => cases document
    | document fields =>
        obtain rfl := Option.some.inj document
        refine ⟨Doc.set "next_attempt_at" (.scalar (.int (now + 5000))) fields, ?_, ?_, ?_⟩
        · simp [postpone, there, Bson.document?]
        · rw [read_set, read]
        · rw [emailOf_congr (postpone_get? (by decide) now user), email]

omit [DecidableEq α] in
theorem storeJournal_get? (other : key ≠ "account_deletion") (job : Job α) (now : Int)
    (user : Doc α) : (storeJournal job now user).get? key = user.get? key :=
  Doc.get?_set_ne _ _ other

omit [DecidableEq α] in
theorem listOf_ofScalars (fields : Doc α) {found}
    (there : fields.get? key = some (.ofScalars found)) : listOf fields key = found := by
  simp [listOf, Doc.items, there, Bson.ofScalars, Bson.array?, Bson.scalar?, List.filterMap_map,
    Function.comp_def]

omit [DecidableEq α] in
/-- What is stored is read back. -/
theorem storeJournal_read (job : Job α) (now : Int) (user : Doc α) :
    ∃ fields, ((storeJournal job now user).get? "account_deletion").bind Bson.document? = some fields ∧
      Job.read fields = job := by
  refine ⟨_, by rw [storeJournal, Doc.get?_set_self]; rfl, ?_⟩
  rw [Job.read, listOf_ofScalars _ rfl, listOf_ofScalars _ rfl, listOf_ofScalars _ rfl,
    listOf_ofScalars _ rfl]

theorem findUser_some (found : findUser db id = some user) :
    user ∈ db .users ∧ isUser id user = true :=
  ⟨List.mem_of_find?_eq_some found, List.find?_some (p := isUser id) found⟩

/-- Another administrator stays when the record of one gets its journal. -/
theorem Distinct.other_admin (distinct : Distinct db) (several : 1 < (admins db).length) :
    ∃ user ∈ db .users, isUser id user = false ∧ isAdmin user = true ∧ hasJournal user = false := by
  by_contra none
  have all : ∀ user ∈ admins db, isUser id user = true := by
    intro user member
    by_contra other
    obtain ⟨there, staying⟩ := List.mem_filter.mp member
    simp only [Bool.and_eq_true, Bool.not_eq_true'] at staying
    exact none ⟨user, there, by simpa using other, staying⟩
  have within : (admins db).Sublist ((db .users).filter (isUser id)) := by
    rw [← List.filter_eq_self.mpr all]
    exact (List.filter_sublist (l := db .users)).filter (isUser id)
  have := within.length_le.trans (distinct id)
  omega

/-- The moment the deletion is stored. -/
theorem Sound.store (sound : Sound ids edge origin world) {now}
    (found : findUser world.db id = some user) (unmarked : hasJournal user = false)
    (spared : isAdmin user = true → 1 < (admins world.db).length)
    (stored : next.stored = (id, world.db) :: world.stored)
    (published : next.published = world.published)
    (db : next.db = Db.updateMany .users (isUser id) (storeJournal (jobOf ids world.db id) now) world.db) :
    Sound ids edge origin next := by
  obtain ⟨there, named⟩ := findUser_some found
  have others (collection : Collection) (other : collection ≠ .users) :
      next.db collection = world.db collection := by
    rw [db, Db.updateMany, Db.change_ne _ _ other]
  have users : next.db .users = (world.db .users).map fun user =>
      if isUser id user then storeJournal (jobOf ids world.db id) now user else user := by
    rw [db, Db.updateMany, Db.change_self]
  have sameId (other : α) (user : Doc α) :
      isUser other (if isUser id user then storeJournal (jobOf ids world.db id) now user else user) =
        isUser other user := by
    split
    · rw [isUser, isUser, idOf_congr (storeJournal_get? (by decide) _ _ user)]
    · rfl
  have fresh : ∀ account ∈ world.stored, account.1 ≠ id := by
    rintro account listed rfl
    have marked := (sound.standing account listed user there named).hasJournal
    cases unmarked.symm.trans marked
  refine ⟨?_, ?_, ?_, ?_, ?_, published ▸ sound.fenced, ?_, ?_, ?_⟩
  · intro other
    rw [users, List.filter_map, List.length_map]
    simpa [Function.comp_def, sameId] using sound.distinct other
  · rw [stored, List.map_cons, List.nodup_cons]
    refine ⟨fun again => ?_, sound.single⟩
    obtain ⟨account, listed, same⟩ := List.mem_map.mp again
    exact fresh account listed same
  · intro account inside record member same
    rw [users] at member
    obtain ⟨old, before, rfl⟩ := List.mem_map.mp member
    rw [sameId] at same
    rw [stored] at inside
    rcases List.mem_cons.mp inside with rfl | listed
    · rw [if_pos same]
      obtain ⟨fields, journal, read⟩ := storeJournal_read (jobOf ids world.db id) now old
      refine ⟨fields, journal, read, ?_⟩
      rw [emailOf_congr (storeJournal_get? (by decide) _ _ old),
        sound.distinct.eq before there same named]
      simp [Retired.email, found]
    · have other : isUser id old = false := by
        by_contra also
        rw [Bool.not_eq_false] at also
        exact fresh account listed (isUser_unique same also)
      simp only [other, Bool.false_eq_true, if_false]
      exact sound.standing account listed old before same
  · intro record member marked
    rw [users] at member
    obtain ⟨old, before, rfl⟩ := List.mem_map.mp member
    rw [stored]
    by_cases own : isUser id old = true
    · exact ⟨(id, world.db), List.mem_cons_self, (sameId id old).trans own⟩
    · simp only [own, Bool.false_eq_true, if_false] at marked ⊢
      obtain ⟨account, listed, same⟩ := sound.marked old before marked
      exact ⟨account, List.mem_cons_of_mem _ listed, same⟩
  · intro account inside
    rw [stored] at inside
    rcases List.mem_cons.mp inside with rfl | listed
    · exact .inl ⟨_, users ▸ List.mem_map_of_mem there, (sameId id user).trans named⟩
    · rcases sound.closed account listed with ⟨old, before, same⟩ | gone
      · exact .inl ⟨_, users ▸ List.mem_map_of_mem before, (sameId account.1 old).trans same⟩
      · exact .inr (gone.of_users others)
  · rw [stored]
    exact (sound.spares.mono fun account listed => List.mem_cons_of_mem _ listed).trans
      (Spares.of_users others)
  · intro record unnamed
    rw [stored] at unnamed
    rw [← sound.others record fun account listed => unnamed account (List.mem_cons_of_mem _ listed), users]
    have other : isUser id record = false := unnamed (id, world.db) List.mem_cons_self
    constructor
    · intro member
      obtain ⟨old, before, rfl⟩ := List.mem_map.mp member
      rw [sameId] at other
      simp only [other, Bool.false_eq_true, if_false]
      exact before
    · intro before
      exact List.mem_map.mpr ⟨record, before, by simp [other]⟩
  · intro exists_
    obtain ⟨staying, member, role, plain⟩ := sound.admin exists_
    obtain ⟨kept, before, different, kind, open_⟩ : ∃ kept ∈ world.db .users,
        isUser id kept = false ∧ isAdmin kept = true ∧ hasJournal kept = false := by
      by_cases own : isUser id staying = true
      · obtain rfl := sound.distinct.eq member there own named
        exact sound.distinct.other_admin (spared role)
      · exact ⟨staying, member, by simpa using own, role, plain⟩
    refine ⟨kept, users ▸ List.mem_map.mpr ⟨kept, before, ?_⟩, kind, open_⟩
    simp [different]

end Users

/-! ## Requests -/

section Requests

variable {α : Type} [DecidableEq α] {ids : ObjectIds α} {edge : Edge α} {origin : Database α}
  {s : World α} {account : Retired α} {id : α} {user : Doc α}

/-- However a program ends, the world is sound. -/
def soundEnds (ids : ObjectIds α) (edge : Edge α) (origin : Database α) (β : Type) :
    Ends (World α) ApiError β :=
  ⟨fun _ t => Sound ids edge origin t, fun _ t => Sound ids edge origin t, fun t => Sound ids edge origin t⟩

omit [DecidableEq α] in
theorem request_watches : (request : Action α Unit).Watches s fun _ => True := by
  refine Prog.Watches.op ?_
  intro _ t found
  cases found
  exact ⟨rfl, trivial⟩

theorem request_sound (sound : Sound ids edge origin s) :
    (request : Action α Unit).Meets s (soundEnds ids edge origin Unit) := by
  refine Prog.Meets.mono request_watches ?_ ?_ ?_
  · rintro _ t ⟨rfl, _⟩
    exact sound
  · rintro _ t rfl
    exact sound
  · rintro t rfl
    exact sound

theorem exec_sound {change : Database α → Database α} (sound : Sound ids edge origin s)
    (changed : Sound ids edge origin { s with db := change s.db }) :
    (exec change).Meets s (soundEnds ids edge origin Unit) := by
  refine Prog.Meets.bind (Prog.Meets.op ?_ sound sound)
  intro _ t found
  cases found
  exact request_sound changed

theorem objectIdOf_eq (named : isUser id user = true) :
    objectIdOf user = some id := by
  simp [objectIdOf, isUser_iff.mp named]

/-- A resume keeps the world sound wherever it stops. -/
theorem resume_sound (sound : Sound ids edge origin s) (listed : account ∈ s.stored)
    (named : isUser account.1 user = true) (carries : Carries ids account user) :
    (resume ids edge user).Meets s (soundEnds ids edge origin Unit) := by
  obtain ⟨job, journal, read, email⟩ := carries
  have steps : (retire ids edge account.1 (account.job ids) account.email).Meets s
      ⟨fun _ t => Advances ids edge origin account s t ∧ Clean ids account t.db,
        fun _ t => Advances ids edge origin account s t,
        fun t => Advances ids edge origin account s t⟩ := retire_meets
  simp only [resume, objectIdOf_eq named, journal, read, email]
  refine Prog.Meets.seq (fun _ t => Advances ids edge origin account s t ∧ Clean ids account t.db)
    (steps.mono (fun _ _ ended => ended) ?_ ?_) ?_
  · exact fun _ t advanced => advanced.sound listed sound
  · exact fun t advanced => advanced.sound listed sound
  · rintro _ t ⟨advanced, clean⟩
    have next := advanced.sound listed sound
    exact exec_sound next (next.remove (advanced.stored ▸ listed) clean rfl rfl rfl)

theorem postpone_sound {filter : Doc α → Bool} (later : Int) (sound : Sound ids edge origin s) :
    (exec (Db.updateMany .users filter (postpone later))).Meets s (soundEnds ids edge origin Unit) :=
  exec_sound sound (sound.updateUsers (postpone_harmless later) rfl rfl rfl)

/-- The record that a deletion goes on with. -/
def Resumable (ids : ObjectIds α) (edge : Edge α) (origin : Database α) (user : Doc α) (s : World α) : Prop :=
  Sound ids edge origin s ∧ ∃ account ∈ s.stored, isUser account.1 user = true ∧ Carries ids account user

theorem begin_meets (sound : Sound ids edge origin s) (now : Int)
    (found : findUser s.db id = some user) (unmarked : hasJournal user = false) :
    (begin ids id user now).Meets s ⟨fun user t => Resumable ids edge origin user t,
      fun _ t => Sound ids edge origin t, fun t => Sound ids edge origin t⟩ := by
  obtain ⟨there, named⟩ := findUser_some found
  have checked : (requireAdmin user).Watches s fun _ => isAdmin user = true → 1 < (admins s.db).length := by
    refine Prog.Meets.onlyIf (fun _ => ?_) fun other => ⟨rfl, fun role => by rw [other] at role; cases role⟩
    refine query_then ?_ (fun _ => rfl) rfl
    exact Prog.Watches.ensure fun several _ => of_decide_eq_true several
  refine checked.then_ (fun _ spared => ?_) (fun _ => sound) sound
  refine query_then ?_ (fun _ => sound) sound
  refine Prog.Meets.bind (Prog.Meets.op ?_ sound sound)
  intro _ t effect
  cases effect
  have next : Sound ids edge origin { s with
      db := Db.updateMany .users (isUser id) (storeJournal (jobOf ids s.db id) now) s.db
      stored := (id, s.db) :: s.stored } := sound.store found unmarked spared rfl rfl rfl
  refine request_watches.then_ (fun _ _ => Prog.Meets.pure ?_) (fun _ => next) next
  obtain ⟨fields, journal, read⟩ := storeJournal_read (jobOf ids s.db id) now user
  refine ⟨next, (id, s.db), List.mem_cons_self, ?_, fields, journal, read, ?_⟩
  · rw [isUser, idOf_congr (storeJournal_get? (by decide) _ _ user)]
    exact named
  · rw [emailOf_congr (storeJournal_get? (by decide) _ _ user)]
    simp [Retired.email, found]

theorem journaled_meets (sound : Sound ids edge origin s) (now : Int)
    (found : findUser s.db id = some user) :
    (journaled ids id user now).Meets s ⟨fun user t => Resumable ids edge origin user t,
      fun _ t => Sound ids edge origin t, fun t => Sound ids edge origin t⟩ := by
  unfold journaled
  obtain ⟨there, named⟩ := findUser_some found
  split
  · rename_i marked
    obtain ⟨account, listed, rfl⟩ := sound.known there marked named
    exact Prog.Meets.pure ⟨sound, account, listed, named, sound.standing account listed user there named⟩
  · rename_i unmarked
    exact begin_meets sound now found (by simpa using unmarked)

/-- The resume of a record, and what its failure does. -/
theorem resumed_sound (resumable : Resumable ids edge origin user s) {β : Type}
    {rest : Except ApiError Unit → Action α β}
    (next : ∀ result t, Sound ids edge origin t → (rest result).Meets t (soundEnds ids edge origin β)) :
    (Prog.caught (resume ids edge user) >>= rest).Meets s (soundEnds ids edge origin β) := by
  obtain ⟨sound, account, listed, named, carries⟩ := resumable
  refine Prog.Meets.seq (fun _ t => Sound ids edge origin t) (Prog.Meets.caught ?_) next
  exact resume_sound sound listed named carries

theorem deleteLocked_sound (id : α) (now later : Int) (sound : Sound ids edge origin s) :
    (deleteLocked ids edge id now later).Meets s (soundEnds ids edge origin Unit) := by
  refine query_then ?_ (fun _ => sound) sound
  cases found : findUser s.db id with
  | none => exact Prog.Meets.throw sound
  | some user =>
      refine Prog.Meets.seq (fun user t => Resumable ids edge origin user t)
        (journaled_meets sound now found) ?_
      intro user t resumable
      refine resumed_sound resumable ?_
      intro result u kept
      cases result with
      | ok done => exact Prog.Meets.pure kept
      | error message =>
          refine Prog.Meets.seq (fun _ t => Sound ids edge origin t) (postpone_sound later kept) ?_
          exact fun _ t after => Prog.Meets.throw after

theorem recover_sound (later : Int) (candidate : Doc α) (sound : Sound ids edge origin s) :
    (recover ids edge later candidate).Meets s (soundEnds ids edge origin Unit) := by
  unfold recover
  cases objectIdOf candidate with
  | none => exact Prog.Meets.throw sound
  | some id =>
      refine query_then ?_ (fun _ => sound) sound
      cases found : (s.db .users).find? fun user => isUser id user && hasJournal user with
      | none => exact Prog.Meets.pure sound
      | some current =>
          have there := List.mem_of_find?_eq_some found
          have covered : (isUser id current && hasJournal current) = true :=
            List.find?_some (p := fun user => isUser id user && hasJournal user) found
          obtain ⟨named, marked⟩ := Bool.and_eq_true_iff.mp covered
          obtain ⟨account, listed, rfl⟩ := sound.known there marked named
          refine resumed_sound ⟨sound, account, listed, named,
            sound.standing account listed current there named⟩ ?_
          intro result t kept
          cases result with
          | ok done => exact Prog.Meets.pure kept
          | error message => exact postpone_sound later kept

theorem recoverDue_sound (now later : Int) (sound : Sound ids edge origin s) :
    (recoverDue ids edge now later).Meets s (soundEnds ids edge origin Unit) := by
  refine query_then ?_ (fun _ => sound) sound
  refine Prog.Meets.seq (fun _ t => Sound ids edge origin t) ?_ fun _ t kept => request_sound kept
  refine Prog.Meets.each (fun _ t => Sound ids edge origin t) sound ?_ fun _ kept => kept
  exact fun _ candidate _ t _ kept => recover_sound later candidate kept

/-- Every call keeps the world sound, however its operations go. -/
theorem Event.perform_sound (event : Event α) (sound : Sound ids edge origin s) :
    (event.perform ids edge).Meets s (soundEnds ids edge origin Unit) := by
  have published {program : Action α Unit} (moves : program.Moves (Publishes ids edge origin)) :
      program.Meets s (soundEnds ids edge origin Unit) :=
    (moves.meets s).mono (fun _ _ next => next.sound sound) (fun _ _ next => next.sound sound)
      fun _ next => next.sound sound
  cases event with
  | deleteLocked id now later => exact deleteLocked_sound id now later sound
  | recoverDue now later => exact recoverDue_sound now later sound
  | publish apply => exact published (publish_moves apply)
  | rebuildWeb => exact published rebuildWeb_moves

theorem step_sound (event : Event α × List Verdict) (sound : Sound ids edge origin s) :
    Sound ids edge origin (step ids edge s event) := by
  have ended : (soundEnds ids edge origin Unit).hold (event.1.perform ids edge s event.2) :=
    event.1.perform_sound sound event.2
  unfold step
  rcases outcome : event.1.perform ids edge s event.2 with ⟨result, t, rest⟩
  rw [outcome] at ended
  cases result with
  | done value => exact ended
  | failed error => exact ended
  | died => exact ended

theorem run_sound (history : List (Event α × List Verdict)) (sound : Sound ids edge origin s) :
    Sound ids edge origin (history.foldl (step ids edge) s) := by
  induction history generalizing s with
  | nil => exact sound
  | cons event rest ih => exact ih (step_sound event sound)

end Requests

end PortHub.Api.AccountDelete
