import CronPanel.Services.Users

namespace CronPanel.Services.Snapshots

open Library.Strings Library.Tables Library.Fallible
open Core.Permissions Core.Security Data.Records Data.Repositories Schemas.Accounts
open Audit CronJobs Auth Users

/-- `_ensure_not_last_active_admin` with the count as it was read. -/
def protectFrom (activeAdmins : ℕ) (user : User) : Except UserError Unit :=
  if user.role = .admin ∧ user.isActive ∧ activeAdmins ≤ 1 then .error .lastAdminProtected
    else .ok ()

/-- The `UPDATE` of a flush, which writes the columns that have changed and fails when the row
is gone. -/
def writeUser (targetId : ℕ) (change : User → User) (db : Database) : Except UserError Database :=
  match db.users.get? targetId with
  | none => .error .integrity
  | some row => .ok { db with users := db.users.set targetId (change row) }

def revokeAllFrom (now : Instant) (targetId : ℕ) (change : User → User) (user : User)
    (db : Database) :
    Except UserError (User × Database) := do
  let (revoked, recorded) := revokeAllTokensForUser now targetId (change user) db
  let db ← writeUser targetId (fun row ↦ { change row with tokensInvalidBefore := some now, updatedAt := now }) db
  .ok (revoked, { db with auditLogs := recorded.auditLogs })

/-- The parts of `update_user` in a session that read the account before; each hands on the
object that the session holds. -/
def setActiveFrom (call : Call) (targetId : ℕ) (isActive : Option Bool) (activeAdmins : ℕ)
    (user : User)
    (db : Database) : Except UserError (User × Database) :=
  match isActive with
  | none => .ok (user, db)
  | some isActive =>
    if isActive = user.isActive then .ok (user, db)
    else do
      protectFrom activeAdmins user
      let change (row : User) : User := { row with isActive, updatedAt := call.now }
      let db ← writeUser targetId change db
      let db :=
        recordUserEvent call (if isActive then .userActivate else .userDeactivate) targetId [] db
      if isActive then .ok (change user, db) else revokeAllFrom call.now targetId (fun row ↦ row) (change user) db

def setRoleFrom (call : Call) (targetId : ℕ) (role : Option Role) (activeAdmins : ℕ) (user : User)
    (db : Database) : Except UserError (User × Database) :=
  match role with
  | none => .ok (user, db)
  | some role =>
    if role = user.role then .ok (user, db)
    else if call.actor.id = targetId then .error .cannotModifySelfRole
    else do
      protectFrom activeAdmins user
      let new ← getRole db role
      let (changed, db) ← revokeAllFrom call.now targetId
          (fun row ↦ { row with role := new }) user db
      .ok (changed, recordUserEvent call .roleChange targetId
        [("old_role".toList, .text user.role.name), ("new_role".toList, .text role.name)] db)

def setEmailFrom (call : Call) (targetId : ℕ) (email : Option Text) (user : User) (db : Database) :
    Except UserError (User × Database) :=
  match email with
  | none => .ok (user, db)
  | some email =>
    if email = user.email then .ok (user, db)
    else if (db.userByEmail email).any fun existing ↦ existing.1 ≠ targetId then
      .error (.duplicateIdentity "email".toList)
    else do
      let change (row : User) : User := { row with email, updatedAt := call.now }
      let db ← writeUser targetId change db
      .ok (change user,
        recordUserEvent call .userUpdate targetId [("changed_field".toList, .text "email".toList)] db)

def setPasswordFrom (bcrypt : Bcrypt) (settings : Settings) (call : Call) (salt : Text)
    (targetId : ℕ)
    (password : Option Text) (user : User) (db : Database) : Except UserError (User × Database) :=
  match password with
  | none => .ok (user, db)
  | some password => do
    let hashedPassword ← newPassword bcrypt settings salt password user.username
    let (changed, db) ← revokeAllFrom call.now targetId
        (fun row ↦ { row with hashedPassword }) user db
    .ok (changed, recordUserEvent call .passwordReset targetId [] db)

/-- `update_user` from the account and the count of administrators as they were read: a
session that has flushed counts again, with what it has flushed. -/
def updateUserFrom (bcrypt : Bcrypt) (settings : Settings) (call : Call) (salt : Text)
    (targetId : ℕ)
    (body : UserUpdate Role) (activeAdmins : ℕ) (user : User) (db : Database) :
    Except UserError Database := do
  let (edited, db) ← setActiveFrom call targetId body.isActive activeAdmins user db
  let activeAdmins := if edited.isActive = user.isActive then activeAdmins else db.countActiveAdmins
  let (edited, db) ← setRoleFrom call targetId body.role activeAdmins edited db
  let (edited, db) ← setEmailFrom call targetId body.email edited db
  let (_, db) ← setPasswordFrom bcrypt settings call salt targetId body.password edited db
  .ok db

/-- `delete_user` from the account and the count of administrators as they were read. -/
def deleteUserFrom (call : Call) (targetId activeAdmins : ℕ) (user : User) (db : Database) :
    Except UserError Database := do
  protectFrom activeAdmins user
  if call.actor.id = targetId then .error .selfDelete
  else if db.cronJobs.rows.any fun r ↦ r.2.ownerId = targetId then .error .integrity
  else
    .ok (recordUserEvent call .userDelete targetId [("deleted_username".toList, .text user.username)]
      { db with
        users := db.users.erase targetId
        scripts := db.scripts.map fun script ↦
          if script.createdBy = some targetId then { script with createdBy := none, updatedAt := call.now }
          else script })

section Alone

variable {bcrypt : Bcrypt} {settings : Settings} {call : Call} {targetId : ℕ} {user edited : User}
variable {db db' : Database}

theorem protectFrom_count (db : Database) (user : User) :
    protectFrom db.countActiveAdmins user = protectLastAdmin db user := by
  unfold protectFrom protectLastAdmin ensureNotLastActiveAdmin
  cases hrole : decide (user.role = .admin) <;> cases hactive : user.isActive <;> simp_all

theorem writeUser_row (h : db.users.get? targetId = some user) (change : User → User) :
    writeUser targetId change db = .ok { db with users := db.users.set targetId (change user) } := by
  rw [writeUser, h]

theorem revokeAllFrom_row (h : db.users.get? targetId = some user) (now : Instant)
    (change : User → User) :
    revokeAllFrom now targetId change user db =
      .ok (revokeAllTokensForUser now targetId (change user) db) := by
  rw [revokeAllFrom, writeUser_row h]
  rfl

theorem setActiveFrom_row (h : db.users.get? targetId = some user) (isActive : Option Bool) :
    setActiveFrom call targetId isActive db.countActiveAdmins user db = setActive call targetId isActive user db := by
  unfold setActiveFrom setActive
  cases isActive with
  | none => rfl
  | some isActive =>
    dsimp only
    rw [protectFrom_count, writeUser_row h]
    by_cases hsame : isActive = user.isActive
    · rw [if_pos hsame, if_pos hsame]
    · rw [if_neg hsame, if_neg hsame]
      cases protectLastAdmin db user with
      | error e => rfl
      | ok _ =>
        cases isActive with
        | true => rfl
        | false => exact revokeAllFrom_row (Table.get?_set_self _ _ _) _ _

theorem setRoleFrom_row (h : db.users.get? targetId = some user) (role : Option Role) :
    setRoleFrom call targetId role db.countActiveAdmins user db =
      setRole call targetId role user db := by
  unfold setRoleFrom setRole
  cases role with
  | none => rfl
  | some role =>
    dsimp only
    rw [protectFrom_count]
    simp only [revokeAllFrom_row h]
    rfl

theorem setEmailFrom_row (h : db.users.get? targetId = some user) (email : Option Text) :
    setEmailFrom call targetId email user db = setEmail call targetId email user db := by
  unfold setEmailFrom setEmail
  cases email with
  | none => rfl
  | some email =>
    dsimp only
    rw [writeUser_row h]
    rfl

theorem setPasswordFrom_row {salt : Text} (h : db.users.get? targetId = some user)
    (password : Option Text) :
    setPasswordFrom bcrypt settings call salt targetId password user db =
      setPassword bcrypt settings call salt targetId password user db := by
  unfold setPasswordFrom setPassword
  cases password with
  | none => rfl
  | some password =>
    simp only [revokeAllFrom_row h]
    rfl

theorem setActive_row (h : db.users.get? targetId = some user) {isActive : Option Bool}
    (hs : setActive call targetId isActive user db = .ok (edited, db')) :
    db'.users.get? targetId = some edited ∧ (edited.isActive = user.isActive → db' = db) := by
  cases isActive with
  | none =>
    cases hs
    exact ⟨h, fun _ ↦ rfl⟩
  | some isActive =>
    simp only [setActive] at hs
    split_ifs at hs with hsame hon
    · cases hs
      exact ⟨h, fun _ ↦ rfl⟩
    · obtain ⟨⟨⟩, -, hs⟩ := bind_eq_ok.mp hs
      cases hs
      exact ⟨Table.get?_set_self _ _ _, fun heq ↦ absurd heq hsame⟩
    · obtain ⟨⟨⟩, -, hs⟩ := bind_eq_ok.mp hs
      cases hs
      exact ⟨Table.get?_set_self _ _ _, fun heq ↦ absurd heq hsame⟩

theorem setRole_row (h : db.users.get? targetId = some user) {role : Option Role}
    (hs : setRole call targetId role user db = .ok (edited, db')) :
    db'.users.get? targetId = some edited := by
  cases role with
  | none =>
    cases hs
    exact h
  | some role =>
    simp only [setRole] at hs
    split_ifs at hs
    · cases hs
      exact h
    · obtain ⟨⟨⟩, -, hs⟩ := bind_eq_ok.mp hs
      obtain ⟨new, -, hs⟩ := bind_eq_ok.mp hs
      cases hs
      exact Table.get?_set_self _ _ _

theorem setEmail_row (h : db.users.get? targetId = some user) {email : Option Text}
    (hs : setEmail call targetId email user db = .ok (edited, db')) :
    db'.users.get? targetId = some edited := by
  cases email with
  | none =>
    cases hs
    exact h
  | some email =>
    simp only [setEmail] at hs
    split_ifs at hs
    · cases hs
      exact h
    · cases hs
      exact Table.get?_set_self _ _ _

/-- A session whose reads are still true when it writes is `update_user` as a whole. -/
theorem updateUserFrom_row {salt : Text} {body : UserUpdate Role}
    (h : db.users.get? targetId = some user) :
    updateUserFrom bcrypt settings call salt targetId body db.countActiveAdmins user db =
      updateUser bcrypt settings call salt targetId body db := by
  unfold updateUserFrom updateUser getUserOrRaise
  rw [h, setActiveFrom_row h]
  simp only [Option.elim_some, ok_bind]
  cases hactive : setActive call targetId body.isActive user db with
  | error e => rfl
  | ok r =>
    obtain ⟨u₁, db₁⟩ := r
    obtain ⟨h₁, hsame⟩ := setActive_row h hactive
    have hcount :
        (if u₁.isActive = user.isActive then db.countActiveAdmins else db₁.countActiveAdmins) =
        db₁.countActiveAdmins := by
      split_ifs with heq
      · rw [hsame heq]
      · rfl
    simp only [ok_bind, hcount, setRoleFrom_row h₁]
    cases hrole : setRole call targetId body.role u₁ db₁ with
    | error e => rfl
    | ok r =>
      obtain ⟨u₂, db₂⟩ := r
      have h₂ := setRole_row h₁ hrole
      simp only [ok_bind, setEmailFrom_row h₂]
      cases hemail : setEmail call targetId body.email u₂ db₂ with
      | error e => rfl
      | ok r =>
        obtain ⟨u₃, db₃⟩ := r
        have h₃ := setEmail_row h₂ hemail
        simp only [ok_bind, setPasswordFrom_row h₃]

/-- A session whose reads are still true when it writes is `delete_user` as a whole. -/
theorem deleteUserFrom_row (h : db.users.get? targetId = some user) :
    deleteUserFrom call targetId db.countActiveAdmins user db = deleteUser call targetId db := by
  unfold deleteUserFrom deleteUser getUserOrRaise
  rw [h, protectFrom_count]
  rfl

end Alone

section Standing

/-- Whether an account is active, and its role. -/
def standing (user : User) : Bool × Role := (user.isActive, user.role)

/-- What an update by a session that holds `user` leaves in a column of the row. -/
def newColumn {α : Type} [DecidableEq α] (asked : Option α) (held stored : α) : α :=
  match asked with
  | none => stored
  | some value => if value = held then stored else value

/-- The standings after a write to one row. -/
def Restood (targetId : ℕ) (change : Bool × Role → Bool × Role) (db db' : Database) : Prop :=
  ∀ j, (db'.users.get? j).map standing =
    ((db.users.get? j).map standing).map fun held ↦ if j = targetId then change held else held

variable {bcrypt : Bcrypt} {settings : Settings} {call : Call} {targetId activeAdmins : ℕ}
    {user edited : User}
variable {db db' : Database} {change change' : Bool × Role → Bool × Role}

theorem Restood.refl (h : ∀ held, change held = held) : Restood targetId change db db := by
  intro j
  simp only [h, ite_self, Option.map_id']

theorem Restood.trans {db₁ db₂ : Database} (h : Restood targetId change db db₁)
    (h' : Restood targetId change' db₁ db₂) : Restood targetId (change' ∘ change) db db₂ := by
  intro j
  rw [h' j, h j, Option.map_map]
  congr 1
  funext held
  dsimp only [Function.comp_apply]
  split_ifs <;> rfl

theorem Restood.congr {db₁ : Database} (h : Restood targetId change db db₁)
    (hu : db'.users = db₁.users) :
    Restood targetId change db db' := by
  intro j
  rw [hu]
  exact h j

theorem writeUser_restood {write : User → User} (h : writeUser targetId write db = .ok db')
    (hwrite : ∀ row, standing (write row) = change (standing row)) : Restood targetId change db db' := by
  unfold writeUser at h
  split at h
  · cases h
  · rename_i row hrow
    cases h
    intro j
    rw [Table.get?_set]
    split_ifs with hj
    · rw [hj, hrow]
      exact congrArg some (hwrite row)
    · rw [Option.map_id']

theorem revokeAllFrom_restood {now : Instant} {write : User → User}
    (h : revokeAllFrom now targetId write user db = .ok (edited, db'))
    (hwrite : ∀ row, standing (write row) = change (standing row)) :
    Restood targetId change db db' ∧ standing edited = standing (write user) := by
  obtain ⟨db₁, hdb, h⟩ := bind_eq_ok.mp h
  cases h
  have hrevoked := writeUser_restood hdb hwrite
  exact ⟨hrevoked.congr rfl, rfl⟩

theorem setActiveFrom_restood {isActive : Option Bool}
    (h : setActiveFrom call targetId isActive activeAdmins user db = .ok (edited, db')) :
    Restood targetId (fun held ↦ (newColumn isActive user.isActive held.1, held.2)) db db' ∧
      edited.role = user.role := by
  cases isActive with
  | none =>
    cases h
    exact ⟨.refl fun _ ↦ rfl, rfl⟩
  | some isActive =>
    simp only [setActiveFrom] at h
    by_cases hsame : isActive = user.isActive
    · rw [if_pos hsame] at h
      cases h
      refine ⟨.refl ?_, rfl⟩
      intro held
      rw [newColumn, if_pos hsame]
    · rw [if_neg hsame] at h
      obtain ⟨⟨⟩, -, h⟩ := bind_eq_ok.mp h
      obtain ⟨db₁, hdb, h⟩ := bind_eq_ok.mp h
      have hwritten : Restood targetId (fun held ↦ (newColumn (some isActive) user.isActive held.1, held.2)) db db₁ := by
        apply writeUser_restood hdb
        intro row
        rw [newColumn, if_neg hsame]
        rfl
      split_ifs at h
      · cases h
        exact ⟨hwritten.congr rfl, rfl⟩
      · have hsame' (row : User) : standing row = id (standing row) := rfl
        obtain ⟨hrevoked, hedited⟩ := revokeAllFrom_restood h hsame'
        exact ⟨(hwritten.congr rfl).trans hrevoked, congrArg Prod.snd hedited⟩

theorem setRoleFrom_restood {role : Option Role}
    (h : setRoleFrom call targetId role activeAdmins user db = .ok (edited, db')) :
    Restood targetId (fun held ↦ (held.1, newColumn role user.role held.2)) db db' := by
  cases role with
  | none =>
    cases h
    exact .refl fun _ ↦ rfl
  | some role =>
    simp only [setRoleFrom] at h
    by_cases hsame : role = user.role
    · rw [if_pos hsame] at h
      cases h
      refine .refl ?_
      intro held
      rw [newColumn, if_pos hsame]
    · rw [if_neg hsame] at h
      split_ifs at h
      obtain ⟨⟨⟩, -, h⟩ := bind_eq_ok.mp h
      obtain ⟨new, hnew, h⟩ := bind_eq_ok.mp h
      obtain ⟨⟨changed, db₁⟩, hrevoke, h⟩ := bind_eq_ok.mp h
      cases h
      have hrole : new = role := by
        unfold getRole at hnew
        split_ifs at hnew
        exact (Except.ok.inj hnew).symm
      subst hrole
      refine (revokeAllFrom_restood hrevoke ?_).1.congr rfl
      intro row
      rw [newColumn, if_neg hsame]
      rfl

theorem setEmailFrom_restood {email : Option Text}
    (h : setEmailFrom call targetId email user db = .ok (edited, db')) :
    Restood targetId id db db' := by
  cases email with
  | none =>
    cases h
    exact .refl fun _ ↦ rfl
  | some email =>
    simp only [setEmailFrom] at h
    split_ifs at h
    · cases h
      exact .refl fun _ ↦ rfl
    · obtain ⟨db₁, hdb, h⟩ := bind_eq_ok.mp h
      cases h
      have hwritten : Restood targetId id db db₁ := writeUser_restood hdb fun _ ↦ rfl
      exact hwritten.congr rfl

theorem setPasswordFrom_restood {salt : Text} {password : Option Text}
    (h : setPasswordFrom bcrypt settings call salt targetId password user db = .ok (edited, db')) :
    Restood targetId id db db' := by
  cases password with
  | none =>
    cases h
    exact .refl fun _ ↦ rfl
  | some password =>
    obtain ⟨hashedPassword, -, h⟩ := bind_eq_ok.mp h
    obtain ⟨⟨changed, db₁⟩, hrevoke, h⟩ := bind_eq_ok.mp h
    cases h
    have hrevoked : Restood targetId id db db₁ := (revokeAllFrom_restood hrevoke fun _ ↦ rfl).1
    exact hrevoked.congr rfl

/-- An update changes the standing of its target alone, in the columns where it asks for
another value than the one it read. -/
theorem updateUserFrom_restood {salt : Text} {body : UserUpdate Role}
    (h : updateUserFrom bcrypt settings call salt targetId body activeAdmins user db = .ok db') :
    Restood targetId (fun held ↦ (newColumn body.isActive user.isActive held.1, newColumn body.role user.role held.2))
      db db' := by
  obtain ⟨⟨u₁, db₁⟩, h₁, h⟩ := bind_eq_ok.mp h
  obtain ⟨⟨u₂, db₂⟩, h₂, h⟩ := bind_eq_ok.mp h
  obtain ⟨⟨u₃, db₃⟩, h₃, h⟩ := bind_eq_ok.mp h
  obtain ⟨⟨u₄, db₄⟩, h₄, h⟩ := bind_eq_ok.mp h
  cases h
  obtain ⟨hactive, hrole⟩ := setActiveFrom_restood h₁
  have hroles := setRoleFrom_restood h₂
  rw [hrole] at hroles
  exact ((hactive.trans hroles).trans (setEmailFrom_restood h₃)).trans (setPasswordFrom_restood h₄)

theorem deleteUserFrom_users (h : deleteUserFrom call targetId activeAdmins user db = .ok db') :
    db'.users = db.users.erase targetId := by
  obtain ⟨⟨⟩, -, h⟩ := bind_eq_ok.mp h
  split_ifs at h
  cases h
  rfl

end Standing

end CronPanel.Services.Snapshots
