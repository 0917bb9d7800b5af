import CronPanel.Services.Trail
import CronPanel.Services.Transactions
import CronPanel.Sessions.Changes

namespace CronPanel.Sessions.Edits

open Library.Strings Library.JsonData Library.Tables Library.Fallible Library.Transactions
open Library.Transactions.Procedure Core.Permissions Core.Security Data.Records Data.Repositories
open Schemas.Accounts Services.Audit Services.CronJobs Services.Auth Services.Users Services.Trail
open Changes

/-- The row of one account changes, the trail grows, and nothing else changes. -/
structure Edited (id : ℕ) (user user' : User) (entries : List AuditLog) (db db' : Database) :
    Prop where
  users : db.users.get? id = some user → db'.users = db.users.set id user'
  entries : Appends db db' entries
  roles : db'.roles = db.roles
  cronJobs : db'.cronJobs = db.cronJobs
  cronJobHistory : db'.cronJobHistory = db.cronJobHistory
  scripts : db'.scripts = db.scripts
  executions : db'.executions = db.executions
  revokedTokens : db'.revokedTokens = db.revokedTokens

/-- The entry of a change of an account. -/
def userEntry (call : Call) (action : AuditAction) (targetId : ℕ) (details : List (Text × Json)) :
    AuditLog :=
  Event.entry
    { action
      userId := some targetId
      username := some call.actor.user.username
      resource := some "user".toList
      resourceId := some (decimal targetId)
      ipAddress := call.ipAddress
      details } call.now

/-- The entry of the end of all sessions of an account. -/
def revokedEntry (now : Instant) (id : ℕ) (user : User) : AuditLog :=
  Event.entry
    { action := .tokenRevoked
      userId := some id
      username := some user.username
      resource := some "session".toList
      details := [("scope".toList, .text "all_sessions".toList)] } now

section Parts

/-- The entries for `is_active`, for the role, for the address and for the password. -/
def activeEntries (call : Call) (targetId : ℕ) (isActive : Option Bool) (user : User) :
    List AuditLog :=
  match isActive with
  | none => []
  | some isActive =>
    if isActive = user.isActive then []
    else [userEntry call (if isActive then .userActivate else .userDeactivate) targetId []]

def roleEntries (call : Call) (targetId : ℕ) (role : Option Role) (user : User) : List AuditLog :=
  match role with
  | none => []
  | some role =>
    if role = user.role then []
    else [userEntry call .roleChange targetId
      [("old_role".toList, .text user.role.name), ("new_role".toList, .text role.name)]]

def emailEntries (call : Call) (targetId : ℕ) (email : Option Text) (user : User) : List AuditLog :=
  match email with
  | none => []
  | some email =>
    if email = user.email then []
    else [userEntry call .userUpdate targetId [("changed_field".toList, .text "email".toList)]]

def passwordEntries (call : Call) (targetId : ℕ) (password : Option Text) : List AuditLog :=
  match password with
  | none => []
  | some _ => [userEntry call .passwordReset targetId []]

variable {call : Call} {id : ℕ} {user : User}

theorem mem_activeEntries {isActive : Option Bool}
    (h : isActive.getD user.isActive ≠ user.isActive) :
    userEntry call (if isActive.getD user.isActive then .userActivate else .userDeactivate) id [] ∈
      activeEntries call id isActive user := by
  cases isActive with
  | none => exact absurd rfl h
  | some isActive =>
    simp only [activeEntries, Option.getD_some] at h ⊢
    rw [if_neg h]
    exact List.mem_singleton_self _

theorem mem_roleEntries {role : Option Role} (h : role.getD user.role ≠ user.role) :
    ∃ details, userEntry call .roleChange id details ∈ roleEntries call id role user := by
  cases role with
  | none => exact absurd rfl h
  | some role =>
    simp only [roleEntries, Option.getD_some] at h ⊢
    rw [if_neg h]
    exact ⟨_, List.mem_singleton_self _⟩

theorem mem_emailEntries {email : Option Text} (h : email.getD user.email ≠ user.email) :
    ∃ details, userEntry call .userUpdate id details ∈ emailEntries call id email user := by
  cases email with
  | none => exact absurd rfl h
  | some email =>
    simp only [emailEntries, Option.getD_some] at h ⊢
    rw [if_neg h]
    exact ⟨_, List.mem_singleton_self _⟩

end Parts

/-- The entries of a list other than those of the ended sessions. -/
def withoutRevocations (entries : List AuditLog) : List AuditLog :=
  entries.filter fun entry ↦ entry.action ≠ .tokenRevoked

theorem withoutRevocations_append (entries entries' : List AuditLog) :
    withoutRevocations (entries ++ entries') =
      withoutRevocations entries ++ withoutRevocations entries' := List.filter_append ..

section Steps

variable {bcrypt : Bcrypt} {settings : Settings} {call : Call} {db db₁ db₂ : Database} {id : ℕ}
    {user u₁ u₂ : User} {entries entries₁ entries₂ : List AuditLog}

theorem Edited.refl (db : Database) : Edited id user user [] db db :=
  ⟨fun h ↦ (Table.set_get? h).symm, .of_same rfl, rfl, rfl, rfl, rfl, rfl, rfl⟩

theorem Edited.trans (h : Edited id user u₁ entries₁ db db₁)
    (h' : Edited id u₁ u₂ entries₂ db₁ db₂) :
    Edited id user u₂ (entries₁ ++ entries₂) db db₂ where
  users := by
    intro hget
    have hset := h.users hget
    rw [h'.users (by rw [hset, Table.get?_set_self]), hset, Table.set_set]
  entries := h.entries.trans h'.entries
  roles := h'.roles.trans h.roles
  cronJobs := h'.cronJobs.trans h.cronJobs
  cronJobHistory := h'.cronJobHistory.trans h.cronJobHistory
  scripts := h'.scripts.trans h.scripts
  executions := h'.executions.trans h.executions
  revokedTokens := h'.revokedTokens.trans h.revokedTokens

theorem edited_row (user user' : User) (db : Database) :
    Edited id user user' [] db { db with users := db.users.set id user' } :=
  ⟨fun _ ↦ rfl, .of_same rfl, rfl, rfl, rfl, rfl, rfl, rfl⟩

theorem edited_event (event : Event) (now : Instant) (user : User) (db : Database) :
    Edited id user user [event.entry now] db (recordEvent now event db) :=
  ⟨fun h ↦ (Table.set_get? h).symm, appends_event now event db, rfl, rfl, rfl, rfl, rfl, rfl⟩

theorem revokeAll_edited (now : Instant) (user u₁ : User) (db : Database) :
    Edited id user (revokeAllTokensForUser now id u₁ db).1 [revokedEntry now id u₁] db
      (revokeAllTokensForUser now id u₁ db).2 :=
  (edited_row user _ db).trans (edited_event _ now _ _)

theorem setActive_edited {isActive : Option Bool}
    (h : setActive call id isActive user db = .ok (u₁, db₁)) :
    (∃ entries, Edited id user u₁ entries db db₁ ∧
        withoutRevocations entries = activeEntries call id isActive user) ∧
      ∃ t s, u₁ =
        { user with isActive := isActive.getD user.isActive, tokensInvalidBefore := t, updatedAt := s } := by
  cases isActive with
  | none =>
    cases h
    exact ⟨⟨[], .refl db, rfl⟩, _, _, rfl⟩
  | some isActive =>
    simp only [setActive] at h
    unfold activeEntries
    dsimp only
    split_ifs at h ⊢ with hsame hon
    · cases h
      refine ⟨⟨[], .refl db, rfl⟩, ?_⟩
      rw [hsame]
      exact ⟨_, _, rfl⟩
    · obtain ⟨⟨⟩, -, h⟩ := bind_eq_ok.mp h
      cases h
      exact ⟨⟨_, (edited_row user _ db).trans (edited_event _ call.now _ _), rfl⟩, _, _, rfl⟩
    · obtain ⟨⟨⟩, -, h⟩ := bind_eq_ok.mp h
      cases h
      refine ⟨⟨_, ((edited_row user _ db).trans (edited_event _ call.now _ _)).trans
        (revokeAll_edited call.now _ _ _), rfl⟩, _, _, rfl⟩

theorem setRole_edited {role : Option Role} (h : setRole call id role user db = .ok (u₁, db₁)) :
    (∃ entries, Edited id user u₁ entries db db₁ ∧
        withoutRevocations entries = roleEntries call id role user) ∧
      ∃ t s, u₁ =
        { user with role := role.getD user.role, tokensInvalidBefore := t, updatedAt := s } := by
  cases role with
  | none =>
    cases h
    exact ⟨⟨[], .refl db, rfl⟩, _, _, rfl⟩
  | some role =>
    simp only [setRole] at h
    unfold roleEntries
    dsimp only
    split_ifs at h ⊢ with hsame hself
    · cases h
      refine ⟨⟨[], .refl db, rfl⟩, ?_⟩
      rw [hsame]
      exact ⟨_, _, rfl⟩
    · obtain ⟨⟨⟩, -, h⟩ := bind_eq_ok.mp h
      obtain ⟨new, hnew, h⟩ := bind_eq_ok.mp h
      obtain rfl : role = new := by
        unfold getRole at hnew
        split_ifs at hnew
        exact Except.ok.inj hnew
      cases h
      exact ⟨⟨_, (revokeAll_edited call.now user _ db).trans (edited_event _ call.now _ _), rfl⟩,
        _, _, rfl⟩

theorem setEmail_edited {email : Option Text} (h : setEmail call id email user db = .ok (u₁, db₁)) :
    (∃ entries, Edited id user u₁ entries db db₁ ∧
        withoutRevocations entries = emailEntries call id email user) ∧
      ∃ t s, u₁ =
        { user with email := email.getD user.email, tokensInvalidBefore := t, updatedAt := s } := by
  cases email with
  | none =>
    cases h
    exact ⟨⟨[], .refl db, rfl⟩, _, _, rfl⟩
  | some email =>
    simp only [setEmail] at h
    unfold emailEntries
    dsimp only
    split_ifs at h ⊢ with hsame htaken
    · cases h
      refine ⟨⟨[], .refl db, rfl⟩, ?_⟩
      rw [hsame]
      exact ⟨_, _, rfl⟩
    · cases h
      exact ⟨⟨_, (edited_row user _ db).trans (edited_event _ call.now _ _), rfl⟩, _, _, rfl⟩

/-- The hash of the password that is given, if one is. -/
def Hashed (bcrypt : Bcrypt) (settings : Settings) (salt : Text) (password : Option Text)
    (username old new : Text) : Prop :=
  match password with
  | none => new = old
  | some password => newPassword bcrypt settings salt password username = .ok new

theorem setPassword_edited {salt : Text} {password : Option Text}
    (h : setPassword bcrypt settings call salt id password user db = .ok (u₁, db₁)) :
    (∃ entries, Edited id user u₁ entries db db₁ ∧
        withoutRevocations entries = passwordEntries call id password) ∧
      ∃ hashed t s, Hashed bcrypt settings salt password user.username user.hashedPassword hashed ∧
        u₁ = { user with hashedPassword := hashed, tokensInvalidBefore := t, updatedAt := s } := by
  cases password with
  | none =>
    cases h
    exact ⟨⟨[], .refl db, rfl⟩, _, _, _, rfl, rfl⟩
  | some password =>
    obtain ⟨hashed, hhashed, h⟩ := bind_eq_ok.mp h
    cases h
    exact ⟨⟨_, (revokeAll_edited call.now user _ db).trans (edited_event _ call.now _ _), rfl⟩,
      _, _, _, hhashed, rfl⟩

end Steps

/-- What `update_user` makes of an account and of the trail. -/
structure Updated (bcrypt : Bcrypt) (settings : Settings) (call : Call) (salt : Text) (id : ℕ)
    (body : UserUpdate Role) (old new : User) (db db' : Database) : Prop where
  row : new =
    { old with
      isActive := body.isActive.getD old.isActive
      role := body.role.getD old.role
      email := body.email.getD old.email
      hashedPassword := new.hashedPassword
      tokensInvalidBefore := new.tokensInvalidBefore
      updatedAt := new.updatedAt }
  password : Hashed bcrypt settings salt body.password old.username old.hashedPassword new.hashedPassword
  sessions : Moves (((body.isActive = some false ∧ old.isActive) ∨
      ∃ role, body.role = some role ∧ role ≠ old.role) ∨ body.password.isSome)
    call.now old.tokensInvalidBefore new.tokensInvalidBefore
  edited : ∃ entries, Edited id old new entries db db' ∧ withoutRevocations entries =
    activeEntries call id body.isActive old ++ roleEntries call id body.role old ++
      emailEntries call id body.email old ++ passwordEntries call id body.password

section Update

variable {bcrypt : Bcrypt} {settings : Settings} {call : Call} {db db' : Database} {id : ℕ}

theorem updateUser_updated {salt : Text} {body : UserUpdate Role}
    (h : Services.Users.updateUser bcrypt settings call salt id body db = .ok db') :
    ∃ old new, db.users.get? id = some old ∧
      Updated bcrypt settings call salt id body old new db db' := by
  obtain ⟨old, u₁, db₁, u₂, db₂, u₃, db₃, u₄, hold, h₁, h₂, h₃, h₄⟩ := updateUser_eq_ok h
  obtain ⟨-, -, m₁⟩ := setActive_ok h₁
  obtain ⟨-, m₂⟩ := setRole_ok h₂
  obtain ⟨-, heq⟩ := setEmail_ok h₃
  obtain ⟨-, m₄⟩ := setPassword_ok h₄
  obtain ⟨⟨es₁, edit₁, hes₁⟩, t₁, s₁, rfl⟩ := setActive_edited h₁
  obtain ⟨⟨es₂, edit₂, hes₂⟩, t₂, s₂, rfl⟩ := setRole_edited h₂
  obtain ⟨⟨es₃, edit₃, hes₃⟩, t₃, s₃, rfl⟩ := setEmail_edited h₃
  obtain ⟨⟨es₄, edit₄, hes₄⟩, hashed, t₄, s₄, hhashed, hu₄⟩ := setPassword_edited h₄
  refine ⟨old, u₄, hold, ?_, ?_, ?_, ?_⟩
  · rw [hu₄]
  · rw [hu₄]
    exact hhashed
  · rw [heq] at m₄
    exact (m₁.trans m₂).trans m₄
  · refine ⟨_, ((edit₁.trans edit₂).trans edit₃).trans edit₄, ?_⟩
    rw [withoutRevocations_append, withoutRevocations_append, withoutRevocations_append,
      hes₁, hes₂, hes₃, hes₄]
    rfl

/-- `update_user` fails and leaves the database as it was, wherever its session stops, or commits
at once just what it was asked for. -/
theorem updateUser_all_or_nothing (bcrypt : Bcrypt) (settings : Settings) (call : Call)
    (salt : Text)
    (id : ℕ) (body : UserUpdate Role) (db : Database) :
    ((∃ e, ((Services.Transactions.updateUser bcrypt settings call salt id body).run (.opened db)).2 =
          .error e ∧
        ((Services.Transactions.updateUser bcrypt settings call salt id body).run (.opened db)).1.stored =
          db) ∨
      ∃ old new, ((Services.Transactions.updateUser bcrypt settings call salt id body).run (.opened db)).2 =
          .ok () ∧
        db.users.get? id = some old ∧ Updated bcrypt settings call salt id body old new db
          ((Services.Transactions.updateUser bcrypt settings call salt id body).run (.opened db)).1.stored) ∧
      ∀ t, (Services.Transactions.updateUser bcrypt settings call salt id body).Durable
        (.opened db) t →
        t = db ∨ t =
          ((Services.Transactions.updateUser bcrypt settings call salt id body).run (.opened db)).1.stored := by
  have h : Commits (Prod.mk ())
      (Services.Transactions.updateUser bcrypt settings call salt id body) _ :=
    Services.Transactions.updateUser_commits salt id body
  have hresult := h.result db
  constructor
  · cases hf : Services.Users.updateUser bcrypt settings call salt id body db with
    | error e =>
      rw [hf] at hresult
      exact .inl ⟨e, hresult, h.unchanged hf⟩
    | ok db' =>
      rw [hf] at hresult
      obtain ⟨old, new, hold, hupdated⟩ := updateUser_updated hf
      refine .inr ⟨old, new, hresult, hold, ?_⟩
      rw [h.stored hf]
      exact hupdated
  · intro t ht
    rcases h.durable ht with h₁ | ⟨db', hf, h₁⟩
    · exact .inl h₁
    · exact .inr (h₁.trans (h.stored hf).symm)

end Update

end CronPanel.Sessions.Edits
