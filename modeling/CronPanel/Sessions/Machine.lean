import CronPanel.Library.Run
import CronPanel.Api.Accounts
import CronPanel.Api.Frames

namespace CronPanel.Sessions.Machine

open Library.Strings Library.Tables Library.Fallible Library.Run Core.Permissions Core.Security
open Data.Records Data.Repositories Schemas.Bodies Schemas.Accounts Services.CronJobs Services.Auth Services.Users
open Api.Errors Api.Operations Api.Accounts Api.Frames

/-- An account: the id of its row, and how many accounts had been created under that id
when its own was. -/
structure Account where
  id : ℕ
  generation : ℕ
  deriving DecidableEq

structure Issue where
  payload : Payload
  time : Instant
  account : Account
  deriving DecidableEq

inductive Event
  | created (id : ℕ)
  | deleted (account : Account)
  | loggedOut (k : ℕ)
  | revokedAll (account : Account) (time : Instant)
  deriving DecidableEq

structure World where
  db : Database
  clock : Instant
  issued : Table ℕ Issue
  events : List Event

/-- The account that has an id at the moment, or had it last. -/
def accountOf (events : List Event) (id : ℕ) : Account := ⟨id, events.count (.created id)⟩

/-- The requests; those of users carry the number of the token they present. -/
inductive Request
  | login (username password jti : Text)
  | logout (k : ℕ)
  | changePassword (k : ℕ) (salt : Text) (body : ChangePasswordRequest)
  | createUser (k : ℕ) (salt : Text) (body : UserCreate Text)
  | updateUser (k : ℕ) (salt : Text) (id : ℕ) (body : UserUpdate Text)
  | deleteUser (k : ℕ) (id : ℕ)
  | edit (op : Operation)
  | restart

structure Action where
  now : Instant
  ipAddress : Option Text
  request : Request

/-- `uuid4` gives no identifier twice. -/
def FreshJti (w : World) (jti : Text) : Prop :=
  jti ≠ [] ∧ ¬w.db.isRevoked jti ∧ ∀ r ∈ w.issued.rows, r.2.payload.jti ≠ jti

instance (w : World) (jti : Text) : Decidable (FreshJti w jti) :=
  inferInstanceAs (Decidable (_ ∧ _ ∧ _))

/-- The updates of an account that end its sessions: a new password, a deactivation and a
change of role. -/
def EndsSessions (old : User) (body : UserUpdate Text) : Prop :=
  body.password.isSome ∨ (body.isActive = some false ∧ old.isActive) ∨
    ∃ role, body.role = some role ∧ role ≠ old.role.name

instance (old : User) (body : UserUpdate Text) : Decidable (EndsSessions old body) :=
  haveI : Decidable (∃ role, body.role = some role ∧ role ≠ old.role.name) :=
    decidable_of_iff (body.role.any (· ≠ old.role.name)) (by simp [Option.any_eq_true])
  inferInstanceAs (Decidable (_ ∨ _ ∨ _))

section

variable (bcrypt : Bcrypt) (settings : Settings)

def serve (w : World) (ipAddress : Option Text) : Request → World
  | .login username password jti =>
    match login bcrypt settings w.clock ipAddress jti username password w.db with
    | (db, .error _) => { w with db }
    | (db, .ok payload) =>
      { w with db, issued := (w.issued.insert ⟨payload, w.clock, accountOf w.events payload.sub⟩).2 }
  | .logout k =>
    match w.issued.get? k with
    | none => w
    | some issue =>
      match logout ⟨issue.payload, w.clock, ipAddress⟩ w.db with
      | .error _ => w
      | .ok db => { w with db, events := .loggedOut k :: w.events }
  | .changePassword k salt body =>
    match w.issued.get? k with
    | none => w
    | some issue =>
      match changePassword bcrypt settings ⟨issue.payload, w.clock, ipAddress⟩ salt body w.db with
      | (db, .error _) => { w with db }
      | (db, .ok ()) =>
        { w with db, events := .revokedAll (accountOf w.events issue.payload.sub) w.clock ::
          w.events }
  | .createUser k salt body =>
    match w.issued.get? k with
    | none => w
    | some issue =>
      match createUser bcrypt settings ⟨issue.payload, w.clock, ipAddress⟩ salt body w.db with
      | .error _ => w
      | .ok (id, db) => { w with db, events := .created id :: w.events }
  | .updateUser k salt id body =>
    match w.issued.get? k, w.db.users.get? id with
    | some issue, some old =>
      match updateUser bcrypt settings ⟨issue.payload, w.clock, ipAddress⟩ salt id body w.db with
      | .error _ => w
      | .ok db =>
        { w with
          db
          events :=
            if EndsSessions old body then .revokedAll (accountOf w.events id) w.clock :: w.events
            else w.events }
    | _, _ => w
  | .deleteUser k id =>
    match w.issued.get? k with
    | none => w
    | some issue =>
      match deleteUser ⟨issue.payload, w.clock, ipAddress⟩ id w.db with
      | .error _ => w
      | .ok db => { w with db, events := .deleted (accountOf w.events id) :: w.events }
  | .edit op =>
    match op.commit w.db with
    | .error _ => w
    | .ok (db, _) => { w with db }
  | .restart => { w with db := w.db.purgeExpired w.clock }

/-- The clock does not go back, and a login is given a new identifier. -/
def Possible (w : World) (a : Action) : Prop :=
  w.clock ≤ a.now ∧ ∀ username password jti, a.request = .login username password jti →
    FreshJti w jti

instance (w : World) (a : Action) : Decidable (Possible w a) :=
  match h : a.request with
  | .login username password jti =>
    decidable_of_iff (w.clock ≤ a.now ∧ FreshJti w jti) (by simp [Possible, h])
  | .logout _ | .changePassword _ _ _ | .createUser _ _ _ | .updateUser _ _ _ _ | .deleteUser _ _ | .edit _
  | .restart => decidable_of_iff (w.clock ≤ a.now) (by simp [Possible, h])

def step (w : World) (a : Action) : Option World :=
  if Possible w a then some (serve bcrypt settings { w with clock := a.now } a.ipAddress a.request)
    else none

end

/-- The panel on a database at a moment; the thresholds it holds are of sessions ended before. -/
def begin (clock : Instant) (db : Database) : World where
  db
  clock
  issued := .empty
  events := db.users.rows.filterMap fun r ↦ r.2.tokensInvalidBefore.map fun t ↦
    .revokedAll ⟨r.1, 0⟩ t

def PastThresholds (clock : Instant) (db : Database) : Prop :=
  ∀ r ∈ db.users.rows, ∀ t ∈ r.2.tokensInvalidBefore, t ≤ clock

instance (clock : Instant) (db : Database) : Decidable (PastThresholds clock db) :=
  inferInstanceAs (Decidable (∀ r ∈ db.users.rows, ∀ t ∈ r.2.tokensInvalidBefore, t ≤ clock))

/-- Hashes that keep the password behind the 29 characters of the salt. -/
def sampleBcrypt : Bcrypt :=
  ⟨fun password salt ↦ .ok (salt ++ password),
    fun plainPassword hashedPassword ↦ hashedPassword.drop 29 = plainPassword⟩

def sampleSalt : Text := "$2b$12$Zq0fXyE1mGkVn5bS8tLrOu".toList

def sampleSettings : Settings := ⟨60, 10⟩

def sample : Database :=
  { Database.seeded with
    users := Table.empty.set 1
      { username := "admin".toList
        email := "admin@example.com".toList
        hashedPassword := sampleSalt ++ "Cronograma2024".toList
        isActive := true
        role := .admin
        createdAt := 0
        updatedAt := 0
        lastLoginAt := none
        tokensInvalidBefore := none } }

end CronPanel.Sessions.Machine
