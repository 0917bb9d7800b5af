import CronPanel.Api.Accounts
import CronPanel.Services.Trail

namespace CronPanel.Api.Requests

open Library.Strings Library.Tables Library.Fallible Core.Security Data.Records Data.Repositories
open Schemas.Bodies Schemas.Accounts Services.Audit Services.CronJobs Services.Auth Services.Users
open Services.Trail Errors Accounts

/-- The requests of `/api/auth` and `/api/users` that write. -/
inductive AccountRequest
  | login (now : Instant) (ipAddress : Option Text) (jti username password : Text)
  | logout (bearer : Bearer)
  | changePassword (bearer : Bearer) (salt : Text) (body : ChangePasswordRequest)
  | createUser (bearer : Bearer) (salt : Text) (body : UserCreate Text)
  | updateUser (bearer : Bearer) (salt : Text) (id : ℕ) (body : UserUpdate Text)
  | deleteUser (bearer : Bearer) (id : ℕ)

/-- What a request leaves when all it does is one transaction. -/
def answer (db : Database)
    (result : Except HttpError Database) : Database × Except HttpError Unit :=
  match result with
  | .ok db => (db, .ok ())
  | .error e => (db, .error e)

def AccountRequest.serve (bcrypt : Bcrypt) (settings : Settings) (db : Database) :
    AccountRequest → Database × Except HttpError Unit
  | login now ipAddress jti username password =>
    let (db, outcome) := Accounts.login bcrypt settings now ipAddress jti username password db
    (db, outcome.map fun _ ↦ ())
  | logout bearer => answer db (Accounts.logout bearer db)
  | changePassword bearer salt body => Accounts.changePassword bcrypt settings bearer salt body db
  | createUser bearer salt body =>
    answer db (Prod.snd <$> Accounts.createUser bcrypt settings bearer salt body db)
  | updateUser bearer salt id body =>
    answer db (Accounts.updateUser bcrypt settings bearer salt id body db)
  | deleteUser bearer id => answer db (Accounts.deleteUser bearer id db)

/-- A script without its creator, whose account can be deleted. -/
def anonymous (script : Script) : Script := { script with createdBy := none, updatedAt := 0 }

/-- What no request about the accounts changes. -/
structure AccountFrame (db db' : Database) : Prop where
  cronJobs : db'.cronJobs = db.cronJobs
  cronJobHistory : db'.cronJobHistory = db.cronJobHistory
  scripts : db'.scripts.map anonymous = db.scripts.map anonymous
  executions : db'.executions = db.executions
  executionLog : executionLog db' = executionLog db

namespace AccountFrame

variable {db db₁ db₂ : Database}

theorem refl (db : Database) : AccountFrame db db := ⟨rfl, rfl, rfl, rfl, rfl⟩

theorem trans (h : AccountFrame db db₁) (h' : AccountFrame db₁ db₂) : AccountFrame db db₂ where
  cronJobs := h'.cronJobs.trans h.cronJobs
  cronJobHistory := h'.cronJobHistory.trans h.cronJobHistory
  scripts := h'.scripts.trans h.scripts
  executions := h'.executions.trans h.executions
  executionLog := h'.executionLog.trans h.executionLog

theorem users (db : Database) (users : Table ℕ User) :
    AccountFrame db { db with users } := ⟨rfl, rfl, rfl, rfl, rfl⟩

theorem tokens (db : Database) (revokedTokens : Table ℕ RevokedToken) :
    AccountFrame db { db with revokedTokens } := ⟨rfl, rfl, rfl, rfl, rfl⟩

theorem accounts (db : Database) (users : Table ℕ User) {scripts : Table ℕ Script}
    (h : scripts.map anonymous = db.scripts.map anonymous) :
    AccountFrame db { db with users, scripts } :=
  ⟨rfl, rfl, h, rfl, rfl⟩

theorem event {event : Event} (h : isExecutionAction event.action = false) (now : Instant)
    (db : Database) :
    AccountFrame db (recordEvent now event db) := ⟨rfl, rfl, rfl, rfl, logged_other h now db⟩

end AccountFrame

section

variable {bcrypt : Bcrypt} {settings : Settings} {call : Call} {db db' : Database} {id : ℕ}
    {user user' : User}

theorem revokeAll_frame (now : Instant) (id : ℕ) (user : User) (db : Database) :
    AccountFrame db (revokeAllTokensForUser now id user db).2 :=
  (AccountFrame.users db _).trans (.event rfl now _)

theorem recordUserEvent_frame (action : AuditAction) (h : isExecutionAction action = false)
    (details : List (Text × Library.JsonData.Json)) (db : Database) :
    AccountFrame db (recordUserEvent call action id details db) := .event h call.now db

theorem setActive_frame {isActive : Option Bool}
    (h : setActive call id isActive user db = .ok (user', db')) :
    AccountFrame db db' := by
  cases isActive with
  | none =>
    cases h
    exact .refl db
  | some isActive =>
    simp only [setActive] at h
    split_ifs at h with hsame hon
    · cases h
      exact .refl db
    · obtain ⟨⟨⟩, -, h⟩ := bind_eq_ok.mp h
      cases h
      exact (AccountFrame.users db _).trans (recordUserEvent_frame .userActivate rfl _ _)
    · obtain ⟨⟨⟩, -, h⟩ := bind_eq_ok.mp h
      cases h
      refine AccountFrame.trans ?_ (revokeAll_frame _ _ _ _)
      exact (AccountFrame.users db _).trans (recordUserEvent_frame _ rfl _ _)

theorem setRole_frame {role : Option Core.Permissions.Role}
    (h : setRole call id role user db = .ok (user', db')) :
    AccountFrame db db' := by
  cases role with
  | none =>
    cases h
    exact .refl db
  | some role =>
    simp only [setRole] at h
    split_ifs at h with hsame hself
    · cases h
      exact .refl db
    · obtain ⟨⟨⟩, -, h⟩ := bind_eq_ok.mp h
      obtain ⟨new, -, h⟩ := bind_eq_ok.mp h
      cases h
      exact (revokeAll_frame _ _ _ _).trans (recordUserEvent_frame _ rfl _ _)

theorem setEmail_frame {email : Option Text}
    (h : setEmail call id email user db = .ok (user', db')) :
    AccountFrame db db' := by
  cases email with
  | none =>
    cases h
    exact .refl db
  | some email =>
    simp only [setEmail] at h
    split_ifs at h
    · cases h
      exact .refl db
    · cases h
      exact (AccountFrame.users db _).trans (recordUserEvent_frame _ rfl _ _)

theorem setPassword_frame {salt : Text} {password : Option Text}
    (h : setPassword bcrypt settings call salt id password user db = .ok (user', db')) :
    AccountFrame db db' := by
  cases password with
  | none =>
    cases h
    exact .refl db
  | some password =>
    obtain ⟨hashed, -, h⟩ := bind_eq_ok.mp h
    cases h
    exact (revokeAll_frame _ _ _ _).trans (recordUserEvent_frame _ rfl _ _)

theorem updateUser_frame {salt : Text} {body : UserUpdate Core.Permissions.Role}
    (h : Services.Users.updateUser bcrypt settings call salt id body db = .ok db') :
    AccountFrame db db' := by
  obtain ⟨old, u₁, db₁, u₂, db₂, u₃, db₃, u₄, -, h₁, h₂, h₃, h₄⟩ := updateUser_eq_ok h
  have hrole := (setActive_frame h₁).trans (setRole_frame h₂)
  exact (hrole.trans (setEmail_frame h₃)).trans (setPassword_frame h₄)

theorem createUser_frame {salt : Text} {body : UserCreate Core.Permissions.Role}
    (h : Services.Users.createUser bcrypt settings call salt body db = .ok (id, db')) :
    AccountFrame db db' := by
  obtain ⟨hashed, role, -, -, rfl, rfl⟩ := createUser_eq_ok h
  exact (AccountFrame.users db _).trans (recordUserEvent_frame _ rfl _ _)

theorem anonymous_map (scripts : Table ℕ Script) {f : Script → Script}
    (h : ∀ script, anonymous (f script) = anonymous script) :
    (scripts.map f).map anonymous = scripts.map anonymous := by
  refine Table.ext_get? ?_
  intro k
  simp only [Table.get?_map, Option.map_map]
  exact congrArg (fun g ↦ Option.map g (scripts.get? k)) (funext h)

theorem deleteUser_frame (h : Services.Users.deleteUser call id db = .ok db') :
    AccountFrame db db' := by
  obtain ⟨user, -, -, -, rfl⟩ := deleteUser_eq_ok h
  have hscripts (script : Script) : anonymous (if script.createdBy = some id then
      { script with createdBy := none, updatedAt := call.now } else script) = anonymous script := by
    split_ifs <;> rfl
  exact (AccountFrame.accounts db _ (anonymous_map db.scripts hscripts)).trans
    (recordUserEvent_frame _ rfl _ _)

theorem changePassword_frame {salt current new : Text} {outcome : Except PasswordError Unit}
    (h : Services.Auth.changePassword bcrypt settings call salt current new db = (db', outcome)) :
    AccountFrame db db' := by
  simp only [Services.Auth.changePassword] at h
  split_ifs at h
  · cases h
    exact .event rfl _ _
  · split at h
    · cases h
      exact .refl db
    · split at h
      · cases h
        exact .refl db
      · cases h
        exact (revokeAll_frame _ _ _ _).trans (.event rfl _ _)

theorem authenticateUser_frame {now : Instant} {ipAddress : Option Text} {username password : Text}
    {outcome : Option (ℕ × User)}
    (h : authenticateUser bcrypt now ipAddress username password db = (db', outcome)) :
    AccountFrame db db' := by
  unfold authenticateUser at h
  cases hu : db.userByUsername username with
  | none =>
    rw [hu] at h
    cases h
    exact .event rfl _ _
  | some found =>
    obtain ⟨id, user⟩ := found
    rw [hu] at h
    dsimp only at h
    split_ifs at h
    all_goals
      cases h
      exact .event rfl _ _

theorem answer_frame {result : Except HttpError Database}
    (h : ∀ db', result = .ok db' → AccountFrame db db') :
    AccountFrame db (answer db result).1 := by
  cases result with
  | error e => exact .refl db
  | ok db' => exact h db' rfl

/-- No request about the accounts touches a job, its history, an execution or their trail. -/
theorem serve_frame (bcrypt : Bcrypt) (settings : Settings) (db : Database) (r : AccountRequest) :
    AccountFrame db (r.serve bcrypt settings db).1 := by
  cases r with
  | login now ipAddress jti username password =>
    change AccountFrame db (Accounts.login bcrypt settings now ipAddress jti username password db).1
    unfold Accounts.login
    cases hauth : authenticateUser bcrypt now ipAddress username password db with | mk db₁ found =>
    have hframe := authenticateUser_frame hauth
    cases found with
    | none => exact hframe
    | some found => exact hframe.trans (.users _ _)
  | logout bearer =>
    apply answer_frame
    intro db' h
    obtain ⟨call, -, h⟩ := bind_eq_ok.mp h
    dsimp only at h
    split_ifs at h
    · cases h
      exact ((AccountFrame.tokens db _).trans (.event rfl _ _)).trans (.tokens _ _)
    · cases h
      exact (AccountFrame.event rfl _ db).trans (.tokens _ _)
  | changePassword bearer salt body =>
    change AccountFrame db (Accounts.changePassword bcrypt settings bearer salt body db).1
    unfold Accounts.changePassword
    split
    · exact .refl db
    · exact .refl db
    · rename_i call body _ _
      exact changePassword_frame (Prod.eta _).symm
  | createUser bearer salt body =>
    apply answer_frame
    intro db' h
    obtain ⟨⟨id, db₁⟩, hcreate, rfl⟩ := map_eq_ok.mp h
    obtain ⟨call, -, h⟩ := bind_eq_ok.mp hcreate
    obtain ⟨checked, -, h⟩ := bind_eq_ok.mp h
    exact createUser_frame (mapError_eq_ok.mp h)
  | updateUser bearer salt id body =>
    apply answer_frame
    intro db' h
    obtain ⟨call, -, h⟩ := bind_eq_ok.mp h
    obtain ⟨checked, -, h⟩ := bind_eq_ok.mp h
    exact updateUser_frame (mapError_eq_ok.mp h)
  | deleteUser bearer id =>
    apply answer_frame
    intro db' h
    obtain ⟨call, -, h⟩ := bind_eq_ok.mp h
    exact deleteUser_frame (mapError_eq_ok.mp h)

end

end CronPanel.Api.Requests
