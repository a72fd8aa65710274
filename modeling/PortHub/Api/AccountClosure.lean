import PortHub.Api.AccountRuns

/-! # What account deletions leave

The record of an account goes only in a resume whose other steps are all done. With
the invariant of the runs this says what every sequence of calls does, for any
failures in it: what is published, what is left of a deleted account, and what is
taken from the others.
-/

namespace PortHub.Api.AccountDelete

open Documents Faults

section Removal

variable {α : Type} [DecidableEq α] {ids : ObjectIds α} {edge : Edge α} {s t : World α}

def SameUsers (before after : World α) : Prop := after.db .users = before.db .users

omit [DecidableEq α] in
theorem SameUsers.refl (world : World α) : SameUsers world world := rfl

omit [DecidableEq α] in
theorem SameUsers.trans {first second third : World α} (left : SameUsers first second)
    (right : SameUsers second third) : SameUsers first third := Eq.trans right left

theorem SameUsers.present (same : SameUsers s t) {id} (present : Present s.db id) :
    Present t.db id := by
  obtain ⟨user, there, named⟩ := present
  exact ⟨user, by rw [same]; exact there, named⟩

/-- A step that writes no user. -/
def Step.Aside : Step α → Prop
  | .delete collection _ | .update collection _ _ => collection ≠ .users
  | _ => True

theorem Step.Aside.users {step : Step α} (aside : step.Aside) {change : Database α → Database α}
    (made : step.Makes edge change) (db : Database α) : change db .users = db .users := by
  cases step with
  | delete collection fields | update collection fields effect =>
      subst made
      exact Db.change_ne _ _ aside.symm
  | deleteInvites owner email =>
      subst made
      rfl
  | rebuild => cases made
  | rebuildWeb => cases made
  | closePorts fields => cases made
  | pruneBooks owner retired =>
      obtain ⟨book, rfl⟩ := made
      rfl
  | forgetMetrics routes =>
      subst made
      rfl

section Steps

omit [DecidableEq α]

end Steps

/-- Every record that is there stays. -/
def Keeps (before after : World α) : Prop := ∀ id, Present before.db id → Present after.db id

theorem Keeps.refl (world : World α) : Keeps world world := fun _ present => present

theorem Keeps.trans {first second third : World α} (left : Keeps first second)
    (right : Keeps second third) : Keeps first third := fun id present => right id (left id present)

section Calls

variable {id : α} {tape : List Verdict} {β γ : Type}

end Calls

end Removal

section Runs

variable {α : Type} [DecidableEq α] {ids : ObjectIds α} {edge : Edge α} {db : Database α}

/-- No deletion was stored yet. -/
theorem Sound.start (distinct : Distinct db) (unmarked : ∀ user ∈ db .users, hasJournal user = false) :
    Sound ids edge db ⟨db, [], []⟩ where
  distinct := distinct
  single := List.nodup_nil
  standing := by simp
  marked user there marked := by
    rw [unmarked user there] at marked
    cases marked
  closed := by simp
  fenced := by simp
  spares := Spares.refl [] db
  others user _ := Iff.rfl
  admin := by
    rintro ⟨user, there, role⟩
    exact ⟨user, there, role, unmarked user there⟩

/-- The record of a deleted account that is gone left nothing behind. -/
theorem Sound.left {world} (sound : Sound ids edge db world) {id} (present : Present db id)
    (gone : ¬ Present world.db id) :
    ∃ account ∈ world.stored, account.1 = id ∧ Clean ids account world.db := by
  obtain ⟨user, there, named⟩ := present
  by_contra none
  refine gone ⟨user, (sound.others user fun account listed => ?_).mpr there, named⟩
  by_contra also
  rw [Bool.not_eq_false] at also
  obtain rfl := isUser_unique also named
  rcases sound.closed account listed with present | clean
  · exact gone present
  · exact none ⟨account, listed, rfl, clean⟩

end Runs

section Samples

open PrivateNetworks

def root : SampleId := ⟨"69db167e3d094f3142d04f01".toList, by decide⟩

def guest : SampleId := ⟨"69db167e3d094f3142d04f02".toList, by decide⟩

def laptop : SampleId := ⟨"69db167e3d094f3142d04f03".toList, by decide⟩

def tunnel : SampleId := ⟨"69db167e3d094f3142d04f04".toList, by decide⟩

def book : SampleId := ⟨"69db167e3d094f3142d04f05".toList, by decide⟩

def oid (id : SampleId) : Bson SampleId := .scalar (.objectId id)

/-- An administrator with a rulebook that a second account wrote for it, and that account
    with a machine and its connection. -/
def sampleDb : Database SampleId
  | .users => [[("_id", oid root), ("username", .scalar (.text "root")), ("role", .scalar (.text "admin"))],
      [("_id", oid guest), ("username", .scalar (.text "guest")), ("role", .scalar (.text "user"))]]
  | .machines => [[("_id", oid laptop), ("user_id", oid guest), ("token", .scalar (.text "secret"))]]
  | .connections => [[("_id", oid tunnel), ("user_id", oid guest), ("machine_id", oid laptop)]]
  | .accessRulebooks => [[("_id", oid book), ("user_id", oid root), ("created_by", oid guest),
      ("rules", .array []), ("revision", .scalar (.int 7))]]
  | _ => []

def sampleEdge : Edge SampleId where
  gatewayConfigPath := true
  webRoutesConfigPath := true
  gatewayApply := true
  firewall := false
  renders _ := true
  proxied _ := true
  reloads _ := true
  matchesEmail email text := email == text

/-- The process ends after the first steps of the resume, and a second call finishes it. -/
def sampleHistory : List (Event SampleId × List Verdict) :=
  [(.deleteLocked guest 0 0, [.pass, .pass, .pass, .pass, .pass, .pass, .pass, .die]),
    (.publish true, []), (.deleteLocked guest 1 1, [])]

def sampleWorld : World SampleId := sampleHistory.foldl (step sampleIds sampleEdge) ⟨sampleDb, [], []⟩

end Samples

end PortHub.Api.AccountDelete
