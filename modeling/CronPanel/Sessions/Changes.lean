import CronPanel.Sessions.Machine

namespace CronPanel.Sessions.Changes

open Library.Strings Library.Tables Library.Fallible Library.Run Core.Permissions Core.Security
open Data.Records Data.Repositories Schemas.Bodies Schemas.Accounts Services.Audit Services.CronJobs
open Services.Auth Services.Users Api.Errors Api.Operations Api.Accounts Api.Frames Machine

def SameThresholds (db db' : Database) : Prop :=
  ∀ id, (db'.users.get? id).map User.tokensInvalidBefore =
    (db.users.get? id).map User.tokensInvalidBefore

theorem SameThresholds.get? {db db' : Database} (h : SameThresholds db db') {id : ℕ} {user' : User}
    (hu : db'.users.get? id = some user') :
    ∃ user, db.users.get? id = some user ∧ user'.tokensInvalidBefore =
      user.tokensInvalidBefore := by
  have hsame := h id
  rw [hu, Option.map_some] at hsame
  obtain ⟨user, hget, heq⟩ := Option.map_eq_some_iff.mp hsame.symm
  exact ⟨user, hget, heq.symm⟩

theorem SameThresholds.isSome {db db' : Database} (h : SameThresholds db db') (id : ℕ) :
    (db'.users.get? id).isSome = (db.users.get? id).isSome := by
  rw [← Option.isSome_map, h id, Option.isSome_map]

theorem SameThresholds.get?_none {db db' : Database} (h : SameThresholds db db') {id : ℕ}
    (hnone : db.users.get? id = none) : db'.users.get? id = none := by
  rw [← Option.not_isSome_iff_eq_none, h.isSome, hnone]
  exact Bool.false_ne_true

/-- A threshold that an operation moves up to its moment, or leaves. -/
def Moves (ends : Prop) (now : Instant) (old new : Option Instant) : Prop :=
  (ends → new = some now) ∧ (¬ends → new = old)

theorem Moves.trans {p q : Prop} {now : Instant} {a b c : Option Instant} (h : Moves p now a b)
    (h' : Moves q now b c) : Moves (p ∨ q) now a c := by
  by_cases hq : q
  · exact ⟨fun _ ↦ h'.1 hq, fun hn ↦ absurd (.inr hq) hn⟩
  · rw [Moves, or_iff_left hq, h'.2 hq]
    exact h

theorem moves_none {now : Instant} {a : Option Instant} {p : Prop} (hp : ¬p) : Moves p now a a :=
  ⟨fun h ↦ absurd h hp, fun _ ↦ rfl⟩

theorem moves_some {now : Instant} {a : Option Instant} {p : Prop} (hp : p) :
    Moves p now a (some now) :=
  ⟨fun _ ↦ rfl, fun h ↦ absurd hp h⟩

section Services

variable {bcrypt : Bcrypt} {settings : Settings} {call : Call} {db db' : Database} {id : ℕ}
    {user user' : User}

structure Wrote (id : ℕ) (user user' : User) (db db' : Database) : Prop where
  users : db.users.get? id = some user → db'.users = db.users.set id user'
  revokedTokens : db'.revokedTokens = db.revokedTokens

theorem Wrote.refl : Wrote id user user db db := ⟨fun h ↦ (Table.set_get? h).symm, rfl⟩

theorem Wrote.trans {u₁ u₂ u₃ : User} {db₁ db₂ db₃ : Database} (h : Wrote id u₁ u₂ db₁ db₂)
    (h' : Wrote id u₂ u₃ db₂ db₃) : Wrote id u₁ u₃ db₁ db₃ := by
  refine ⟨fun hu ↦ ?_, h'.revokedTokens.trans h.revokedTokens⟩
  have hset := h.users hu
  rw [h'.users (by rw [hset, Table.get?_set_self]), hset, Table.set_set]

theorem setActive_ok {isActive : Option Bool}
    (h : setActive call id isActive user db = .ok (user', db')) :
    Wrote id user user' db db' ∧ user'.role = user.role ∧
      Moves (isActive = some false ∧ user.isActive) call.now user.tokensInvalidBefore user'.tokensInvalidBefore := by
  cases isActive with
  | none =>
    cases h
    exact ⟨.refl, rfl, moves_none fun hp ↦ by cases hp.1⟩
  | some isActive =>
    cases isActive with
    | true =>
      have hnot : ¬(some true = some false ∧ user.isActive) := fun hp ↦ by cases hp.1
      simp only [setActive, if_true] at h
      split_ifs at h
      · cases h
        exact ⟨.refl, rfl, moves_none hnot⟩
      · obtain ⟨⟨⟩, -, h⟩ := bind_eq_ok.mp h
        cases h
        exact ⟨⟨fun _ ↦ rfl, rfl⟩, rfl, moves_none hnot⟩
    | false =>
      simp only [setActive, Bool.false_eq_true, if_false] at h
      split_ifs at h with hsame
      · cases h
        exact ⟨.refl, rfl, moves_none fun hp ↦ by simp [hp.2] at hsame⟩
      · have hactive : user.isActive := by simpa using hsame
        obtain ⟨⟨⟩, -, h⟩ := bind_eq_ok.mp h
        cases h
        exact ⟨⟨fun _ ↦ Table.set_set _ _ _ _, rfl⟩, rfl, moves_some ⟨rfl, hactive⟩⟩

theorem setRole_ok {role : Option Role} (h : setRole call id role user db = .ok (user', db')) :
    Wrote id user user' db db' ∧
      Moves (∃ r, role = some r ∧ r ≠ user.role) call.now user.tokensInvalidBefore user'.tokensInvalidBefore := by
  cases role with
  | none =>
    cases h
    exact ⟨.refl, moves_none fun ⟨r, hr, _⟩ ↦ by cases hr⟩
  | some role =>
    simp only [setRole] at h
    split_ifs at h with hsame hself
    · cases h
      exact ⟨.refl, moves_none fun ⟨r, hr, hne⟩ ↦ hne (Option.some.inj hr ▸ hsame)⟩
    · obtain ⟨⟨⟩, -, h⟩ := bind_eq_ok.mp h
      obtain ⟨new, -, h⟩ := bind_eq_ok.mp h
      cases h
      exact ⟨⟨fun _ ↦ rfl, rfl⟩, moves_some ⟨role, rfl, hsame⟩⟩

theorem setEmail_ok {email : Option Text} (h : setEmail call id email user db = .ok (user', db')) :
    Wrote id user user' db db' ∧ user'.tokensInvalidBefore = user.tokensInvalidBefore := by
  cases email with
  | none =>
    cases h
    exact ⟨.refl, rfl⟩
  | some email =>
    simp only [setEmail] at h
    split_ifs at h
    · cases h
      exact ⟨.refl, rfl⟩
    · cases h
      exact ⟨⟨fun _ ↦ rfl, rfl⟩, rfl⟩

theorem setPassword_ok {salt : Text} {password : Option Text}
    (h : setPassword bcrypt settings call salt id password user db = .ok (user', db')) :
    Wrote id user user' db db' ∧
      Moves password.isSome call.now user.tokensInvalidBefore user'.tokensInvalidBefore := by
  cases password with
  | none =>
    cases h
    exact ⟨.refl, moves_none (by simp)⟩
  | some password =>
    obtain ⟨hashed, -, h⟩ := bind_eq_ok.mp h
    cases h
    exact ⟨⟨fun _ ↦ rfl, rfl⟩, moves_some rfl⟩

theorem updateUser_ok {salt : Text} {body : UserUpdate Role}
    (h : Services.Users.updateUser bcrypt settings call salt id body db = .ok db') :
    ∃ old new, db.users.get? id = some old ∧ db'.users = db.users.set id new ∧
      db'.revokedTokens = db.revokedTokens ∧
      Moves (((body.isActive = some false ∧ old.isActive) ∨ ∃ r, body.role = some r ∧ r ≠ old.role) ∨
        body.password.isSome) call.now old.tokensInvalidBefore new.tokensInvalidBefore := by
  obtain ⟨old, u₁, db₁, u₂, db₂, u₃, db₃, u₄, hget, h₁, h₂, h₃, h₄⟩ := updateUser_eq_ok h
  obtain ⟨w₁, hrole, m₁⟩ := setActive_ok h₁
  obtain ⟨w₂, m₂⟩ := setRole_ok h₂
  obtain ⟨w₃, heq⟩ := setEmail_ok h₃
  obtain ⟨w₄, m₄⟩ := setPassword_ok h₄
  have hwrote := ((w₁.trans w₂).trans w₃).trans w₄
  rw [hrole] at m₂
  rw [heq] at m₄
  exact ⟨old, u₄, hget, hwrote.users hget, hwrote.revokedTokens, (m₁.trans m₂).trans m₄⟩

theorem createUser_ok {salt : Text} {body : UserCreate Role}
    (h : Services.Users.createUser bcrypt settings call salt body db = .ok (id, db')) :
    id = db.users.nextId ∧ db'.revokedTokens = db.revokedTokens ∧
      ∃ user, db'.users = db.users.set id user ∧ user.isActive ∧
        user.tokensInvalidBefore = none := by
  obtain ⟨hashed, role, -, -, rfl, rfl⟩ := createUser_eq_ok h
  exact ⟨rfl, rfl, _, rfl, rfl, rfl⟩

theorem deleteUser_ok (h : Services.Users.deleteUser call id db = .ok db') :
    db'.users = db.users.erase id ∧ db'.revokedTokens = db.revokedTokens := by
  obtain ⟨user, -, -, -, rfl⟩ := deleteUser_eq_ok h
  exact ⟨rfl, rfl⟩

theorem changePassword_cases {salt current new : Text} {outcome : Except PasswordError Unit}
    (h : Services.Auth.changePassword bcrypt settings call salt current new db = (db', outcome)) :
    db'.revokedTokens = db.revokedTokens ∧
      ((∃ e, outcome = .error e ∧ db'.users = db.users) ∨
        ∃ user, outcome = .ok () ∧ db'.users = db.users.set call.actor.id user ∧
          user.tokensInvalidBefore = some call.now) := by
  simp only [Services.Auth.changePassword] at h
  split_ifs at h
  · cases h
    exact ⟨rfl, .inl ⟨_, rfl, rfl⟩⟩
  · split at h
    · cases h
      exact ⟨rfl, .inl ⟨_, rfl, rfl⟩⟩
    · split at h
      · cases h
        exact ⟨rfl, .inl ⟨_, rfl, rfl⟩⟩
      · cases h
        exact ⟨rfl, .inr ⟨_, rfl, rfl, rfl⟩⟩

theorem userByUsername_get? {username : Text} (h : db.userByUsername username = some (id, user)) :
    db.users.get? id = some user := Table.mem_rows.mp (List.mem_of_find?_eq_some h)

theorem set_sameThresholds (hu : db'.users = db.users.set id user')
    (hget : db.users.get? id = some user)
    (h : user'.tokensInvalidBefore = user.tokensInvalidBefore) : SameThresholds db db' := by
  intro j
  rw [hu, Table.get?_set]
  split_ifs with hj
  · rw [hj, hget, Option.map_some, Option.map_some, h]
  · rfl

theorem sameThresholds_of_users (h : db'.users = db.users) :
    SameThresholds db db' := fun _ ↦ h ▸ rfl

theorem authenticateUser_cases {now : Instant} {ipAddress : Option Text} {username password : Text}
    {outcome : Option (ℕ × User)}
    (h : authenticateUser bcrypt now ipAddress username password db = (db', outcome)) :
    db'.users = db.users ∧ db'.revokedTokens = db.revokedTokens ∧
      ∀ r, outcome = some r → db.users.get? r.1 = some r.2 := by
  unfold authenticateUser at h
  cases hu : db.userByUsername username with
  | none =>
    rw [hu] at h
    cases h
    exact ⟨rfl, rfl, fun _ hr ↦ by cases hr⟩
  | some found =>
    obtain ⟨id, user⟩ := found
    rw [hu] at h
    dsimp only at h
    split_ifs at h
    · cases h
      exact ⟨rfl, rfl, fun _ hr ↦ by cases hr⟩
    · cases h
      exact ⟨rfl, rfl, fun _ hr ↦ by cases hr⟩
    · cases h
      exact ⟨rfl, rfl, fun _ hr ↦ by
        cases hr
        exact userByUsername_get? hu⟩

theorem login_cases {now : Instant} {ipAddress : Option Text} {jti username password : Text}
    {outcome : Except HttpError Payload}
    (h : login bcrypt settings now ipAddress jti username password db = (db', outcome)) :
    db'.revokedTokens = db.revokedTokens ∧ SameThresholds db db' ∧
      ∀ payload, outcome = .ok payload → ∃ id user, db.users.get? id = some user ∧
        payload = issueAccessToken settings now jti id user := by
  unfold login at h
  cases hauth : authenticateUser bcrypt now ipAddress username password db with | mk db₁ found =>
  obtain ⟨husers, hrevoked, hfound⟩ := authenticateUser_cases hauth
  rw [hauth] at h
  cases found with
  | none =>
    cases h
    exact ⟨hrevoked, sameThresholds_of_users husers, fun _ hp ↦ by cases hp⟩
  | some found =>
    obtain ⟨id, user⟩ := found
    cases h
    have hget := hfound _ rfl
    have hset := congrArg (fun t ↦ Table.set t id { user with lastLoginAt := some now, updatedAt := now }) husers
    refine ⟨hrevoked, set_sameThresholds hset hget rfl, fun payload hp ↦ ⟨id, user, hget, ?_⟩⟩
    cases hp
    rfl

theorem getTokenPayload_eq_ok {now : Instant} {token payload : Payload} :
    getTokenPayload now token db = .ok payload ↔
      payload = token ∧ now < ensureUtc token.exp ∧ token.type = accessTokenType ∧
        (token.jti ≠ [] → ¬db.isRevoked token.jti) := by
  unfold getTokenPayload
  cases hd : decodeToken now token with
  | none =>
    refine iff_of_false (fun h ↦ by cases h) fun h ↦ ?_
    rw [decodeToken_eq_some.mpr ⟨h.1, h.2.1, h.2.2.1⟩] at hd
    cases hd
  | some found =>
    obtain ⟨rfl, hexp, htype⟩ := decodeToken_eq_some.mp hd
    dsimp only
    rw [if_neg (not_not.mpr htype)]
    by_cases hr : found.jti ≠ [] ∧ db.isRevoked found.jti
    · rw [if_pos hr]
      exact iff_of_false (fun h ↦ by cases h) fun h ↦ h.2.2.2 hr.1 hr.2
    · rw [if_neg hr, Except.ok.injEq, eq_comm]
      exact ⟨fun h ↦ ⟨h, hexp, htype, fun hj hrev ↦ hr ⟨hj, hrev⟩⟩, fun h ↦ h.1⟩

theorem any_threshold {threshold : Option Instant} {s : Instant} :
    (threshold.any fun t ↦ s < t) = false ↔ ∀ t, threshold = some t → t ≤ s := by
  cases threshold with
  | none => exact iff_of_true rfl fun _ h ↦ by cases h
  | some t => simp

/-- The tokens that are accepted. -/
theorem getCurrentUser_eq_ok {now : Instant} {token : Payload} {actor : Actor} :
    getCurrentUser now token db = .ok actor ↔
      (now < ensureUtc token.exp ∧ token.type = accessTokenType ∧
        (token.jti ≠ [] → ¬db.isRevoked token.jti)) ∧
        actor.id = token.sub ∧ db.users.get? token.sub = some actor.user ∧ actor.user.isActive ∧
        ∀ t, actor.user.tokensInvalidBefore = some t → t ≤ ensureUtc token.iat := by
  unfold getCurrentUser
  rw [bind_eq_ok]
  simp only [getTokenPayload_eq_ok, and_assoc, exists_eq_left]
  refine and_congr_right fun _ ↦ and_congr_right fun _ ↦ and_congr_right fun _ ↦ ?_
  cases hu : loadUser db token.sub with
  | none =>
    refine iff_of_false (fun h ↦ by cases h) fun ⟨_, hget, hactive, _⟩ ↦ ?_
    have hload :
        loadUser db token.sub = some actor.user := Option.filter_eq_some_iff.mpr ⟨hget, hactive⟩
    rw [hu] at hload
    cases hload
  | some user =>
    obtain ⟨hget, hactive⟩ := Option.filter_eq_some_iff.mp hu
    rw [hget]
    dsimp only
    cases hthreshold : user.tokensInvalidBefore.any fun t ↦ ensureUtc token.iat < t with
    | false =>
      rw [if_neg Bool.false_ne_true]
      constructor
      · intro h
        cases h
        exact ⟨rfl, rfl, hactive, any_threshold.mp hthreshold⟩
      · intro hx
        obtain ⟨hid, huser, -⟩ := hx
        cases huser
        rw [← hid]
    | true =>
      rw [if_pos rfl]
      refine iff_of_false (fun h ↦ by cases h) fun ⟨_, huser, _, hle⟩ ↦ ?_
      cases huser
      rw [any_threshold.mpr hle] at hthreshold
      cases hthreshold

end Services

section Routes

variable {bcrypt : Bcrypt} {settings : Settings} {bearer : Bearer} {db db' : Database} {id : ℕ}

theorem authenticated_ok {call : Call} (h : authenticated bearer db = .ok call) :
    call.now = bearer.now ∧ getCurrentUser bearer.now bearer.token db = .ok call.actor := by
  obtain ⟨actor, ha, h⟩ := bind_eq_ok.mp h
  cases h
  exact ⟨rfl, ha⟩

theorem authenticated_user {call : Call} (h : authenticated bearer db = .ok call) :
    db.users.get? call.actor.id = some call.actor.user ∧ call.actor.user.isActive := by
  obtain ⟨-, hid, hget, hactive, -⟩ := getCurrentUser_eq_ok.mp (authenticated_ok h).2
  rw [hid]
  exact ⟨hget, hactive⟩

theorem authorized_ok {permission : Permission} {call : Call}
    (h : authorized bearer permission db = .ok call) :
    call.now = bearer.now := by
  obtain ⟨call', ha, h⟩ := bind_eq_ok.mp h
  split_ifs at h
  cases h
  exact (authenticated_ok ha).1

theorem changePassword_route {salt : Text} {body : ChangePasswordRequest}
    {outcome : Except HttpError Unit}
    (h : Api.Accounts.changePassword bcrypt settings bearer salt body db = (db', outcome)) :
    db'.revokedTokens = db.revokedTokens ∧
      ((∃ e, outcome = .error e ∧ db'.users = db.users) ∨
        ∃ old new, outcome = .ok () ∧ db.users.get? bearer.token.sub = some old ∧
          db'.users = db.users.set bearer.token.sub new ∧
            new.tokensInvalidBefore = some bearer.now) := by
  unfold Api.Accounts.changePassword at h
  split at h
  · cases h
    exact ⟨rfl, .inl ⟨_, rfl, rfl⟩⟩
  · cases h
    exact ⟨rfl, .inl ⟨_, rfl, rfl⟩⟩
  · rename_i call checked hauth hchecked
    obtain ⟨hnow, hactor⟩ := authenticated_ok hauth
    obtain ⟨-, hid, hget, -⟩ := getCurrentUser_eq_ok.mp hactor
    cases hc : Services.Auth.changePassword bcrypt settings call salt checked.currentPassword checked.newPassword
      db with | mk db₁ outcome₁ =>
    rw [hc] at h
    cases h
    obtain ⟨hrevoked, ⟨e, rfl, husers⟩ | ⟨user, rfl, husers, hthreshold⟩⟩ := changePassword_cases hc
    · exact ⟨hrevoked, .inl ⟨_, rfl, husers⟩⟩
    · exact ⟨hrevoked, .inr ⟨call.actor.user, user, rfl, hget, hid ▸ husers, hnow ▸ hthreshold⟩⟩

theorem roleOf?_name {name : Text} {role : Role} (h : roleOf? name = some role) :
    role.name = name := by
  unfold roleOf? at h
  simpa using List.find?_some h

theorem role_ok {value : Text} {role : Role} (h : User.role value = .ok role) :
    role.name = value := by
  obtain ⟨value', hlength, h⟩ := bind_eq_ok.mp h
  unfold checkLength at hlength
  split_ifs at hlength
  cases hlength
  split at h
  · rename_i found hfound
    cases h
    exact roleOf?_name hfound
  · cases h

theorem name_injective {r r' : Role} (h : r.name = r'.name) : r = r' := by
  revert h
  cases r <;> cases r' <;> decide

theorem optionalRole_ok {value : Option Text} {role : Option Role}
    (h : optionalRole value = .ok role) :
    value = role.map Role.name := by
  cases value with
  | none =>
    cases h
    rfl
  | some value =>
    obtain ⟨r, hr, rfl⟩ := map_eq_ok.mp h
    rw [Option.map_some, role_ok hr]

theorem optional_ok {check : Text → Except FieldError Text} {value value' : Option Text}
    (h : optional check value = .ok value') : value'.isSome = value.isSome := by
  cases value with
  | none =>
    cases h
    rfl
  | some value =>
    obtain ⟨t, -, rfl⟩ := map_eq_ok.mp h
    rfl

theorem UserUpdate.validate_ok {body : UserUpdate Text} {checked : UserUpdate Role}
    (h : body.validate = .ok checked) :
    checked.isActive = body.isActive ∧ checked.password.isSome = body.password.isSome ∧
      body.role = checked.role.map Role.name := by
  unfold UserUpdate.validate at h
  dsimp only at h
  split at h
  · rename_i email password role hemail hpassword hrole
    cases h
    exact ⟨rfl, optional_ok hpassword, optionalRole_ok hrole⟩
  · cases h

theorem createUser_route {salt : Text} {body : UserCreate Text}
    (h : Api.Accounts.createUser bcrypt settings bearer salt body db = .ok (id, db')) :
    id = db.users.nextId ∧ db'.revokedTokens = db.revokedTokens ∧
      ∃ user, db'.users = db.users.set id user ∧ user.isActive ∧
        user.tokensInvalidBefore = none := by
  obtain ⟨call, -, h⟩ := bind_eq_ok.mp h
  obtain ⟨checked, -, h⟩ := bind_eq_ok.mp h
  exact createUser_ok (mapError_eq_ok.mp h)

theorem updateUser_route {salt : Text} {body : UserUpdate Text}
    (h : Api.Accounts.updateUser bcrypt settings bearer salt id body db = .ok db') :
    ∃ old new, db.users.get? id = some old ∧ db'.users = db.users.set id new ∧
      db'.revokedTokens = db.revokedTokens ∧
      Moves (EndsSessions old body) bearer.now old.tokensInvalidBefore new.tokensInvalidBefore := by
  obtain ⟨call, hcall, h⟩ := bind_eq_ok.mp h
  obtain ⟨checked, hchecked, h⟩ := bind_eq_ok.mp h
  obtain ⟨hactive, hpassword, hrole⟩ := UserUpdate.validate_ok (mapError_eq_ok.mp hchecked)
  obtain ⟨old, new, hold, hset, hrevoked, hmoves⟩ := updateUser_ok (mapError_eq_ok.mp h)
  refine ⟨old, new, hold, hset, hrevoked, ?_⟩
  have hends : EndsSessions old body ↔
      ((checked.isActive = some false ∧ old.isActive) ∨ ∃ r, checked.role = some r ∧ r ≠ old.role) ∨
        checked.password.isSome := by
    have hname (r : Role) : r.name ≠ old.role.name ↔ r ≠ old.role :=
      not_congr ⟨name_injective, congrArg Role.name⟩
    unfold EndsSessions
    rw [hactive, hpassword, hrole]
    cases checked.role with
    | none => simp [or_comm]
    | some r =>
      simp only [Option.map_some, Option.some.injEq, exists_eq_left', hname]
      exact or_comm
  rw [hends, ← authorized_ok hcall]
  exact hmoves

end Routes

/-- How a request changes the accounts, the revoked tokens and the history, at the time of
the clock. -/
inductive Change (settings : Settings) (w : World) : World → Prop
  | quiet (db : Database) (husers : SameThresholds w.db db)
    (hrevoked : db.revokedTokens = w.db.revokedTokens) :
      Change settings w { w with db }
  | purge : Change settings w { w with db := w.db.purgeExpired w.clock }
  | issue (db : Database) (id : ℕ) (user : User) (jti : Text) (hfresh : FreshJti w jti)
      (husers : SameThresholds w.db db) (hrevoked : db.revokedTokens = w.db.revokedTokens)
      (huser : w.db.users.get? id = some user) :
      Change settings w { w with
        db
        issued := (w.issued.insert
          ⟨issueAccessToken settings w.clock jti id user, w.clock, accountOf w.events id⟩).2 }
  | logout (db : Database) (k : ℕ) (issue : Issue) (row : RevokedToken)
    (hk : w.issued.get? k = some issue)
      (hjti : row.jti = issue.payload.jti) (hexp : row.expiresAt = ensureUtc issue.payload.exp)
      (husers : db.users = w.db.users)
      (hrevoked : db.revokedTokens = (w.db.revokedTokens.insert row).2.filter
        fun token ↦ !decide (token.expiresAt < w.clock)) :
      Change settings w { w with db, events := .loggedOut k :: w.events }
  | revokeAll (db : Database) (id : ℕ) (old new : User) (hold : w.db.users.get? id = some old)
      (husers : db.users = w.db.users.set id new) (hnew : new.tokensInvalidBefore = some w.clock)
      (hrevoked : db.revokedTokens = w.db.revokedTokens) :
      Change settings w { w with db, events := .revokedAll (accountOf w.events id) w.clock :: w.events }
  | create (db : Database) (user : User) (husers : db.users = w.db.users.set w.db.users.nextId user)
      (hactive : user.isActive) (hnone : user.tokensInvalidBefore = none)
      (hrevoked : db.revokedTokens = w.db.revokedTokens) :
      Change settings w { w with db, events := .created w.db.users.nextId :: w.events }
  | delete (db : Database) (id : ℕ) (husers : db.users = w.db.users.erase id)
      (hrevoked : db.revokedTokens = w.db.revokedTokens) :
      Change settings w { w with db, events := .deleted (accountOf w.events id) :: w.events }

section Serve

variable {bcrypt : Bcrypt} {settings : Settings} {w : World}

theorem Change.refl : Change settings w w := .quiet w.db (fun _ ↦ rfl) rfl

theorem login_change {username password jti : Text} {ipAddress : Option Text}
    (hfresh : FreshJti w jti) :
    Change settings w (serve bcrypt settings w ipAddress (.login username password jti)) := by
  dsimp only [serve]
  cases hl : login bcrypt settings w.clock ipAddress jti username password w.db with | mk db outcome =>
  obtain ⟨hrevoked, husers, hpayload⟩ := login_cases hl
  cases outcome with
  | error e => exact .quiet db husers hrevoked
  | ok payload =>
    obtain ⟨id, user, huser, rfl⟩ := hpayload payload rfl
    exact .issue db id user jti hfresh husers hrevoked huser

theorem logout_change {ipAddress : Option Text} {k : ℕ}
    (hissued : ∀ issue, w.issued.get? k = some issue → issue.payload.jti ≠ []) :
    Change settings w (serve bcrypt settings w ipAddress (.logout k)) := by
  dsimp only [serve]
  cases hk : w.issued.get? k with
  | none => exact .refl
  | some issue =>
    dsimp only
    cases hl : Api.Accounts.logout ⟨issue.payload, w.clock, ipAddress⟩ w.db with
    | error e => exact .refl
    | ok db =>
      obtain ⟨call, hcall, h⟩ := bind_eq_ok.mp hl
      obtain ⟨hnow, hactor⟩ := authenticated_ok hcall
      obtain ⟨⟨hexp, -⟩, -⟩ := getCurrentUser_eq_ok.mp hactor
      have hpos : issue.payload.exp ≠ 0 := by
        intro hzero
        rw [hzero] at hexp
        exact absurd hexp (Nat.not_lt_zero _)
      dsimp only at h
      rw [if_pos ⟨hissued issue hk, hpos⟩] at h
      cases h
      refine .logout _ k issue ⟨issue.payload.jti, some call.actor.id, call.now,
        ensureUtc issue.payload.exp⟩ hk
        rfl rfl rfl ?_
      rw [hnow]
      rfl

theorem changePassword_change {ipAddress : Option Text} {k : ℕ} {salt : Text}
    {body : ChangePasswordRequest} :
    Change settings w (serve bcrypt settings w ipAddress (.changePassword k salt body)) := by
  dsimp only [serve]
  cases hk : w.issued.get? k with
  | none => exact .refl
  | some issue =>
    dsimp only
    cases hc : Api.Accounts.changePassword bcrypt settings
      ⟨issue.payload, w.clock, ipAddress⟩ salt body w.db with
    | mk db outcome =>
    obtain ⟨hrevoked, ⟨e, rfl, husers⟩ | ⟨old, new, rfl, hold, husers, hnew⟩⟩ :=
        changePassword_route hc
    · exact .quiet db (sameThresholds_of_users husers) hrevoked
    · exact .revokeAll db issue.payload.sub old new hold husers hnew hrevoked

theorem createUser_change {ipAddress : Option Text} {k : ℕ} {salt : Text} {body : UserCreate Text} :
    Change settings w (serve bcrypt settings w ipAddress (.createUser k salt body)) := by
  dsimp only [serve]
  cases hk : w.issued.get? k with
  | none => exact .refl
  | some issue =>
    dsimp only
    cases hc : Api.Accounts.createUser bcrypt settings
      ⟨issue.payload, w.clock, ipAddress⟩ salt body w.db with
    | error e => exact .refl
    | ok r =>
      obtain ⟨id, db⟩ := r
      obtain ⟨rfl, hrevoked, user, husers, hactive, hnone⟩ := createUser_route hc
      exact .create db user husers hactive hnone hrevoked

theorem updateUser_change {ipAddress : Option Text} {k id : ℕ} {salt : Text}
    {body : UserUpdate Text} :
    Change settings w (serve bcrypt settings w ipAddress (.updateUser k salt id body)) := by
  dsimp only [serve]
  cases hk : w.issued.get? k with
  | none => exact .refl
  | some issue =>
    cases hold : w.db.users.get? id with
    | none => exact .refl
    | some old =>
      dsimp only
      cases hu : Api.Accounts.updateUser bcrypt settings
        ⟨issue.payload, w.clock, ipAddress⟩ salt id body w.db with
      | error e => exact .refl
      | ok db =>
        obtain ⟨old', new, hold', husers, hrevoked, hmoves⟩ := updateUser_route hu
        obtain rfl := Option.some.inj (hold.symm.trans hold')
        by_cases hends : EndsSessions old body
        · dsimp only
          rw [if_pos hends]
          exact .revokeAll db id old new hold husers (hmoves.1 hends) hrevoked
        · dsimp only
          rw [if_neg hends]
          exact .quiet db (set_sameThresholds husers hold (hmoves.2 hends)) hrevoked

theorem deleteUser_change {ipAddress : Option Text} {k id : ℕ} :
    Change settings w (serve bcrypt settings w ipAddress (.deleteUser k id)) := by
  dsimp only [serve]
  cases hk : w.issued.get? k with
  | none => exact .refl
  | some issue =>
    dsimp only
    cases hd : Api.Accounts.deleteUser ⟨issue.payload, w.clock, ipAddress⟩ id w.db with
    | error e => exact .refl
    | ok db =>
      obtain ⟨call, -, h⟩ := bind_eq_ok.mp hd
      obtain ⟨husers, hrevoked⟩ := deleteUser_ok (mapError_eq_ok.mp h)
      exact .delete db id husers hrevoked

theorem serve_change {ipAddress : Option Text} {request : Request}
    (hissued : ∀ k issue, w.issued.get? k = some issue → issue.payload.jti ≠ [])
    (hfresh : ∀ username password jti, request = .login username password jti → FreshJti w jti) :
    Change settings w (serve bcrypt settings w ipAddress request) := by
  cases request with
  | login username password jti => exact login_change (hfresh username password jti rfl)
  | logout k => exact logout_change (hissued k)
  | changePassword k salt body => exact changePassword_change
  | createUser k salt body => exact createUser_change
  | updateUser k salt id body => exact updateUser_change
  | deleteUser k id => exact deleteUser_change
  | edit op =>
    dsimp only [serve]
    cases hc : op.commit w.db with
    | error e => exact .refl
    | ok r =>
      have hf := commit_framed hc
      exact .quiet r.1 (sameThresholds_of_users hf.users) hf.revokedTokens
  | restart => exact .purge

end Serve

end CronPanel.Sessions.Changes
