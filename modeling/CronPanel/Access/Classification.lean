import CronPanel.Access.Attribution

namespace CronPanel.Access.Classification

open Library.Strings Library.Tables Library.Fallible Core.Permissions Core.PasswordPolicy
open Core.Security Data.Records Data.Repositories Schemas.Bodies Schemas.Accounts
open Services.CronJobs Services.Users Api.Errors Api.Accounts Sessions.Edits
open Administrators (isActiveAdmin countActiveAdmins_le_one ensureNotLastActiveAdmin_error)
open Owners (protectLastAdmin_ok)
open Attribution (setEmail_succeeds_iff userByEmail_set)

/-- What a service call ends in: an error of its own, or one of the database with its text. -/
inductive Failure
  | raised (error : UserError)
  | database (message : Text)

/-- The last handler of `POST /api/users`, by the text of the exception. -/
def createHandler (message : Text) : HttpError :=
  if "rol".toList <:+: lower message ∨ "role".toList <:+: lower message then
    .detail 422 "INVALID_ROLE".toList message
  else .internal

def updateHandler (message : Text) : HttpError :=
  if "contraseña".toList <:+: lower message then .internal
  else .detail 422 "VALIDATION_ERROR".toList message

def answerCreate : Failure → HttpError
  | .raised e => ofCreateError e
  | .database message => createHandler message

def answerUpdate : Failure → HttpError
  | .raised e => ofUpdateError e
  | .database message => updateHandler message

section Routes

variable (bcrypt : Bcrypt) (settings : Settings)

/-- The outcomes of `create_user`: that of its code, or the error of a statement that the
database does not carry out. -/
def createOutcome (call : Call) (salt : Text) (body : UserCreate Role) (db : Database)
    (fault : Option Text) : Except Failure (ℕ × Database) :=
  match fault with
  | none => (Services.Users.createUser bcrypt settings call salt body db).mapError .raised
  | some message => .error (.database message)

def updateOutcome (call : Call) (salt : Text) (id : ℕ) (body : UserUpdate Role) (db : Database)
    (fault : Option Text) : Except Failure Database :=
  match fault with
  | none => (Services.Users.updateUser bcrypt settings call salt id body db).mapError .raised
  | some message => .error (.database message)

def createRoute (bearer : Bearer) (salt : Text) (body : UserCreate Text) (db : Database)
    (fault : Option Text) : Except HttpError (ℕ × Database) := do
  let call ← authorized bearer .usersCreate db
  let body ← checkBody body.validate
  (createOutcome bcrypt settings call salt body db fault).mapError answerCreate

def updateRoute (bearer : Bearer) (salt : Text) (id : ℕ) (body : UserUpdate Text) (db : Database)
    (fault : Option Text) : Except HttpError Database := do
  let call ← authorized bearer .usersUpdate db
  let body ← checkBody body.validate
  (updateOutcome bcrypt settings call salt id body db fault).mapError answerUpdate

/-- Another account is that of an active administrator. -/
def OtherAdmin (db : Database) (id : ℕ) : Prop :=
  ∃ j other, j ≠ id ∧ db.users.get? j = some other ∧ isActiveAdmin other

/-- Where the database carries out every statement, the routes are those of the panel. -/
theorem routes_without_fault (bearer : Bearer) (salt : Text) (db : Database) :
    (∀ body, createRoute bcrypt settings bearer salt body db none =
      Api.Accounts.createUser bcrypt settings bearer salt body db) ∧
    ∀ id body, updateRoute bcrypt settings bearer salt id body db none =
      Api.Accounts.updateUser bcrypt settings bearer salt id body db := by
  have htwice {α : Type} (x : Except UserError α) (answer : Failure → HttpError) :
      (x.mapError Failure.raised).mapError answer = x.mapError fun e ↦ answer (.raised e) := by
    cases x <;> rfl
  constructor
  · intro body
    unfold createRoute Api.Accounts.createUser createOutcome
    simp only [htwice]
    rfl
  · intro id body
    unfold updateRoute Api.Accounts.updateUser updateOutcome
    simp only [htwice]
    rfl

end Routes

section

variable {bcrypt : Bcrypt} {settings : Settings} {call : Call} {db db' db₁ : Database} {id : ℕ}
    {salt : Text} {user u₁ : User} {body : UserUpdate Role} {fault : Option Text}

theorem OtherAdmin.congr (h : db₁.users = db.users.set id u₁) : OtherAdmin db₁ id ↔ OtherAdmin db id := by
  unfold OtherAdmin
  rw [h]
  refine exists_congr fun j ↦ exists_congr fun other ↦ and_congr_right fun hne ↦ ?_
  rw [Table.get?_set_ne _ _ hne]

end

section Sample

open Administrators (sample sampleAdmin sampleBearer sampleBcrypt)

def sampleCall : Call := ⟨⟨1, sampleAdmin "ana".toList "ana@example.com".toList⟩, 0, none⟩

end Sample

end CronPanel.Access.Classification
