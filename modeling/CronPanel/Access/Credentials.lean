import CronPanel.Access.Classification

namespace CronPanel.Access.Credentials

open Library.Strings Library.Tables Library.Fallible Core.Permissions Core.PasswordPolicy
open Core.Security Data.Records Data.Repositories Schemas.Accounts
open Services.CronJobs Services.Auth Services.Users Sessions.Edits

/-- The two behaviours of the hashing library that the requirements admit. -/
inductive Version
  | before5
  | since5
  deriving DecidableEq

/-- Before version 5 the first 72 bytes of a password are hashed and compared; since then a
longer password is refused. -/
def Documented (bcrypt : Bcrypt) : Version → Prop
  | .before5 => ∀ password salt, ∃ hash, bcrypt.hashpw password salt = .ok hash ∧
      ∀ p, bcrypt.checkpw p hash ↔ (utf8 p).take 72 = (utf8 password).take 72
  | .since5 => ∀ password salt,
      (72 < (utf8 password).length → ∃ message, bcrypt.hashpw password salt = .error message) ∧
      ((utf8 password).length ≤ 72 → ∃ hash, bcrypt.hashpw password salt = .ok hash ∧
        ∀ p, bcrypt.checkpw p hash ↔ utf8 p = utf8 password)

/-- The passwords that the library hashes as a whole and apart from every longer one. -/
def Fits : Version → Text → Prop
  | .before5, password => (utf8 password).length < 72
  | .since5, password => (utf8 password).length ≤ 72

/-- A stored hash accepts a password and no other. -/
def Accepts (bcrypt : Bcrypt) (hash password : Text) : Prop :=
  ∀ p, verifyPassword bcrypt p hash ↔ p = password

/-- The database after a call has the hash that accepts just the password in the row. -/
def Stores (bcrypt : Bcrypt) (db : Database) (id : ℕ) (password : Text) : Prop :=
  ∃ row, db.users.get? id = some row ∧ Accepts bcrypt row.hashedPassword password

section

variable {bcrypt : Bcrypt} {version : Version} {settings : Settings} {call : Call}
    {salt password : Text} {db db' : Database} {id : ℕ} {user : User}

theorem hash_accepts_iff (h : Documented bcrypt version) (salt password : Text) :
    (∃ hash, hashPassword bcrypt salt password = .ok hash ∧ Accepts bcrypt hash password) ↔
      Fits version password := by
  cases version with
  | before5 =>
    obtain ⟨hash, hhash, hcheck⟩ := h password salt
    constructor
    · intro hin
      obtain ⟨hash', hhash', haccepts⟩ := hin
      obtain rfl := Except.ok.inj (hhash.symm.trans hhash')
      by_contra hlong
      have hextended : verifyPassword bcrypt (password ++ ['x']) hash := by
        refine (hcheck _).mpr ?_
        rw [utf8_append, List.take_append_of_le_length (Nat.not_lt.mp hlong)]
      have hsame := (haccepts _).mp hextended
      simp at hsame
    · intro hfits
      refine ⟨hash, hhash, fun p ↦ (hcheck p).trans ?_⟩
      have hshort : (utf8 password).length < 72 := hfits
      rw [List.take_of_length_le hshort.le]
      constructor
      · intro htake
        have hlength := congrArg List.length htake
        rw [List.length_take] at hlength
        rw [List.take_of_length_le (by omega)] at htake
        exact utf8_injective htake
      · rintro rfl
        exact List.take_of_length_le hshort.le
  | since5 =>
    obtain ⟨hlong, hshort⟩ := h password salt
    constructor
    · intro hin
      obtain ⟨hash, hhash, -⟩ := hin
      by_contra hfits
      obtain ⟨message, herror⟩ := hlong (Nat.not_le.mp hfits)
      rw [hashPassword, herror] at hhash
      cases hhash
    · intro hfits
      obtain ⟨hash, hhash, hcheck⟩ := hshort hfits
      exact ⟨hash, hhash, fun p ↦ (hcheck p).trans utf8_injective.eq_iff⟩

theorem newPassword_of_policy {username : Text}
    (h : validatePassword settings.passwordMinLength password username = []) :
    newPassword bcrypt settings salt password username =
      (hashPassword bcrypt salt password).mapError .hashing := by
  unfold newPassword enforcePasswordPolicy
  rw [if_pos h]
  rfl

theorem createUser_stores_iff {body : UserCreate Role}
    (hname : db.userByUsername body.username = none) (hemail : db.userByEmail body.email = none)
    (hrole : body.role ∈ db.roles)
    (hpolicy : validatePassword settings.passwordMinLength body.password body.username = []) :
    (∃ id db', Services.Users.createUser bcrypt settings call salt body db = .ok (id, db') ∧
        Stores bcrypt db' id body.password) ↔
      ∃ hash, hashPassword bcrypt salt body.password = .ok hash ∧
        Accepts bcrypt hash body.password := by
  unfold Services.Users.createUser
  rw [hname, hemail, newPassword_of_policy hpolicy, getRole, if_pos hrole]
  cases hhash : hashPassword bcrypt salt body.password with
  | error message =>
    refine iff_of_false ?_ ?_
    · intro h
      obtain ⟨id, db', h, -⟩ := h
      cases h
    · intro h
      obtain ⟨hash, h, -⟩ := h
      cases h
  | ok hash =>
    constructor
    · intro h
      obtain ⟨id, db', h, row, hrow, haccepts⟩ := h
      cases h
      change (Table.set _ _ _).get? _ = some row at hrow
      rw [Table.get?_set_self] at hrow
      obtain rfl := Option.some.inj hrow
      exact ⟨hash, rfl, haccepts⟩
    · intro h
      obtain ⟨hash', h, haccepts⟩ := h
      obtain rfl := Except.ok.inj h
      exact ⟨_, _, rfl, _, Table.get?_set_self _ _ _, haccepts⟩

/-- A new password is stored as a hash that accepts just it, if there is one. -/
theorem setPassword_stores_iff (hget : db.users.get? id = some user)
    (hpolicy : validatePassword settings.passwordMinLength password user.username = []) :
    (∃ db', (setPassword bcrypt settings call salt id (some password) user db >>= fun r ↦ .ok r.2) =
        .ok db' ∧ Stores bcrypt db' id password) ↔
      ∃ hash, hashPassword bcrypt salt password = .ok hash ∧ Accepts bcrypt hash password := by
  constructor
  · intro h
    obtain ⟨db₁, h, row, hrow, haccepts⟩ := h
    obtain ⟨⟨u₁, db₁⟩, h₁, h⟩ := bind_eq_ok.mp h
    cases h
    obtain ⟨⟨entries₁, edit₁, -⟩, hash, t₁, s₁, hhash, hu₁⟩ := setPassword_edited h₁
    rw [edit₁.users hget, Table.get?_set_self] at hrow
    obtain rfl := Option.some.inj hrow
    rw [hu₁] at haccepts
    refine ⟨hash, ?_, haccepts⟩
    have hnew : newPassword bcrypt settings salt password user.username = .ok hash := hhash
    rw [newPassword_of_policy hpolicy] at hnew
    exact mapError_eq_ok.mp hnew
  · intro h
    obtain ⟨hash, hhash, haccepts⟩ := h
    have hnew : newPassword bcrypt settings salt password user.username = .ok hash := by
      rw [newPassword_of_policy hpolicy, hhash]
      rfl
    have h₁ : Succeeds (setPassword bcrypt settings call salt id (some password) user db) := by
      simp only [setPassword]
      rw [hnew]
      exact ⟨_, rfl⟩
    obtain ⟨⟨u₁, db₁⟩, h₁⟩ := h₁
    obtain ⟨⟨entries₁, edit₁, -⟩, hash', t₁, s₁, hhash', hu₁⟩ := setPassword_edited h₁
    have hsame : hash' = hash := Except.ok.inj (Eq.trans (Eq.symm hhash') hnew)
    refine ⟨db₁, by rw [h₁]; rfl, u₁, ?_, ?_⟩
    · rw [edit₁.users hget, Table.get?_set_self]
    · rw [hu₁, hsame]
      exact haccepts

/-- The hash that `update_user` writes, where the rest of the request passes. -/
theorem updateUser_stores_iff {body : UserUpdate Role}
    (hrest : Succeeds (Services.Users.updateUser bcrypt settings call salt id
      { body with password := none } db))
    (hget : db.users.get? id = some user) (hpassword : body.password = some password)
    (hpolicy : validatePassword settings.passwordMinLength password user.username = []) :
    (∃ db', Services.Users.updateUser bcrypt settings call salt id body db = .ok db' ∧
        Stores bcrypt db' id password) ↔
      ∃ hash, hashPassword bcrypt salt password = .ok hash ∧ Accepts bcrypt hash password := by
  obtain ⟨db', hrest⟩ := hrest
  obtain ⟨old, hold, hrest⟩ := bind_eq_ok.mp hrest
  obtain rfl := Option.some.inj (hget.symm.trans (getUserOrRaise_eq_ok.mp hold))
  obtain ⟨⟨u₁, db₁⟩, h₁, hrest⟩ := bind_eq_ok.mp hrest
  obtain ⟨⟨u₂, db₂⟩, h₂, hrest⟩ := bind_eq_ok.mp hrest
  obtain ⟨⟨u₃, db₃⟩, h₃, -⟩ := bind_eq_ok.mp hrest
  dsimp only at h₁ h₂ h₃
  obtain ⟨⟨entries₁, edit₁, -⟩, t₁, s₁, hu₁⟩ := setActive_edited h₁
  obtain ⟨⟨entries₂, edit₂, -⟩, t₂, s₂, hu₂⟩ := setRole_edited h₂
  obtain ⟨⟨entries₃, edit₃, -⟩, t₃, s₃, hu₃⟩ := setEmail_edited h₃
  have hname : u₃.username = user.username := by rw [hu₃, hu₂, hu₁]
  have hget₃ : db₃.users.get? id = some u₃ := by
    rw [((edit₁.trans edit₂).trans edit₃).users hget, Table.get?_set_self]
  have hupdate : Services.Users.updateUser bcrypt settings call salt id body db =
      setPassword bcrypt settings call salt id (some password) u₃ db₃ >>= fun r ↦ .ok r.2 := by
    unfold Services.Users.updateUser
    rw [hold, ok_bind, h₁, ok_bind]
    dsimp only
    rw [h₂, ok_bind]
    dsimp only
    rw [h₃, ok_bind, hpassword]
  rw [hupdate]
  exact setPassword_stores_iff hget₃ (hname ▸ hpolicy)

theorem changePassword_stores_iff {current : Text}
    (hcurrent : verifyPassword bcrypt current call.actor.user.hashedPassword)
    (hpolicy : validatePassword settings.passwordMinLength password call.actor.user.username = []) :
    (∃ db', changePassword bcrypt settings call salt current password db = (db', .ok ()) ∧
        Stores bcrypt db' call.actor.id password) ↔
      ∃ hash, hashPassword bcrypt salt password = .ok hash ∧ Accepts bcrypt hash password := by
  unfold changePassword enforcePasswordPolicy
  dsimp only
  rw [hcurrent, if_pos hpolicy]
  cases hhash : hashPassword bcrypt salt password with
  | error message =>
    refine iff_of_false ?_ ?_
    · intro h
      obtain ⟨db', h, -⟩ := h
      cases h
    · intro h
      obtain ⟨hash, h, -⟩ := h
      cases h
  | ok hash =>
    constructor
    · intro h
      obtain ⟨db', h, row, hrow, haccepts⟩ := h
      cases h
      change (Table.set _ _ _).get? _ = some row at hrow
      rw [Table.get?_set_self] at hrow
      obtain rfl := Option.some.inj hrow
      exact ⟨hash, rfl, haccepts⟩
    · intro h
      obtain ⟨hash', h, haccepts⟩ := h
      obtain rfl := Except.ok.inj h
      exact ⟨_, rfl, _, Table.get?_set_self _ _ _, haccepts⟩

end

/-- The stored hash accepts just the chosen password exactly when the hashing library takes in
the whole of it and of no longer one. -/
theorem stored_credential_exact_iff {bcrypt : Bcrypt} {version : Version}
    (h : Documented bcrypt version) (settings : Settings) (call : Call) (salt : Text) (db : Database) :
    (∀ body : UserCreate Role, db.userByUsername body.username = none →
      db.userByEmail body.email = none → body.role ∈ db.roles →
      validatePassword settings.passwordMinLength body.password body.username = [] →
      ((∃ id db', Services.Users.createUser bcrypt settings call salt body db = .ok (id, db') ∧
          Stores bcrypt db' id body.password) ↔ Fits version body.password)) ∧
    (∀ id user (body : UserUpdate Role) password,
      Succeeds (Services.Users.updateUser bcrypt settings call salt id
        { body with password := none } db) →
      db.users.get? id = some user → body.password = some password →
      validatePassword settings.passwordMinLength password user.username = [] →
      ((∃ db', Services.Users.updateUser bcrypt settings call salt id body db = .ok db' ∧
          Stores bcrypt db' id password) ↔ Fits version password)) ∧
    ∀ current password, verifyPassword bcrypt current call.actor.user.hashedPassword →
      validatePassword settings.passwordMinLength password call.actor.user.username = [] →
      ((∃ db', changePassword bcrypt settings call salt current password db = (db', .ok ()) ∧
          Stores bcrypt db' call.actor.id password) ↔ Fits version password) := by
  refine ⟨?_, ?_, ?_⟩
  · intro body hname hemail hrole hpolicy
    exact (createUser_stores_iff hname hemail hrole hpolicy).trans (hash_accepts_iff h salt _)
  · intro id user body password hrest hget hpassword hpolicy
    exact (updateUser_stores_iff hrest hget hpassword hpolicy).trans (hash_accepts_iff h salt _)
  · intro current password hcurrent hpolicy
    exact (changePassword_stores_iff hcurrent hpolicy).trans (hash_accepts_iff h salt _)

section Sample

open Administrators (sample sampleAdmin)
open Classification (sampleCall)

/-- The code point below 256 that stands for a byte. -/
def byteChar (b : UInt8) : Char := Char.ofNat b.toNat

def digest (password : Text) : Text := ((utf8 password).take 72).map byteChar

/-- The first 72 bytes of a password, and the salt after a code point that is no byte. -/
def sampleBcrypt (version : Version) : Bcrypt where
  hashpw password salt :=
    if version = .since5 ∧ 72 < (utf8 password).length then
      .error "password cannot be longer than 72 bytes".toList
    else .ok (digest password ++ '\u0100' :: salt)
  checkpw p hash :=
    decide ((version = .since5 → (utf8 p).length ≤ 72) ∧ hash.takeWhile (· ≠ '\u0100') = digest p)

theorem toNat_byteChar (b : UInt8) : (byteChar b).toNat = b.toNat := by
  have hall : ∀ n < 256, (Char.ofNat n).toNat = n := by decide +kernel
  exact hall b.toNat b.toNat_lt

theorem byteChar_injective : Function.Injective byteChar := by
  intro b c h
  have hnat := congrArg Char.toNat h
  rw [toNat_byteChar, toNat_byteChar] at hnat
  exact UInt8.toNat_inj.mp hnat

theorem digest_eq_iff {p password : Text} :
    digest p = digest password ↔ (utf8 p).take 72 = (utf8 password).take 72 :=
  (List.map_injective_iff.mpr byteChar_injective).eq_iff

theorem takeWhile_digest (password salt : Text) :
    (digest password ++ '\u0100' :: salt).takeWhile (· ≠ '\u0100') = digest password := by
  have hbyte : ∀ c ∈ digest password, decide (c ≠ '\u0100') := by
    intro c hc
    obtain ⟨b, -, rfl⟩ := List.mem_map.mp hc
    refine decide_eq_true ?_
    intro heq
    have hnat := congrArg Char.toNat heq
    rw [toNat_byteChar] at hnat
    have hlt := b.toNat_lt
    have hsep : '\u0100'.toNat = 256 := rfl
    omega
  rw [List.takeWhile_append_of_pos hbyte]
  simp

theorem sampleBcrypt_documented (version : Version) : Documented (sampleBcrypt version) version := by
  have hcheck (p password salt : Text) :
      (sampleBcrypt version).checkpw p (digest password ++ '\u0100' :: salt) ↔
        (version = .since5 → (utf8 p).length ≤ 72) ∧
          (utf8 p).take 72 = (utf8 password).take 72 := by
    change decide _ = true ↔ _
    rw [decide_eq_true_eq, takeWhile_digest]
    exact and_congr_right fun _ ↦ eq_comm.trans digest_eq_iff
  cases version with
  | before5 =>
    intro password salt
    have hhash : (sampleBcrypt .before5).hashpw password salt =
        .ok (digest password ++ '\u0100' :: salt) := rfl
    refine ⟨_, hhash, fun p ↦ (hcheck p password salt).trans ?_⟩
    exact and_iff_right (by simp)
  | since5 =>
    intro password salt
    refine ⟨fun hlong ↦ ⟨_, if_pos ⟨rfl, hlong⟩⟩, fun hshort ↦ ?_⟩
    refine ⟨_, if_neg fun h ↦ Nat.not_lt.mpr hshort h.2, fun p ↦ (hcheck p password salt).trans ?_⟩
    rw [List.take_of_length_le hshort]
    constructor
    · intro h
      rw [List.take_of_length_le (h.1 rfl)] at h
      exact h.2
    · intro h
      rw [h]
      exact ⟨fun _ ↦ hshort, List.take_of_length_le hshort⟩

/-- A password of 72 letters and digits. -/
def longPassword : Text := "A1".toList ++ List.replicate 70 'x'

/-- A password of 40 letters, most of them of two bytes. -/
def accentedPassword : Text := "Aa1".toList ++ List.replicate 37 'ñ'

def account (password : Text) : UserCreate Role :=
  { username := "juan".toList, email := "juan@example.com".toList, password, role := .viewer }

/-- A longer password is accepted too, or the chosen one is refused. -/
theorem chosen_password_not_exact :
    (validatePassword 10 longPassword "juan".toList = [] ∧ longPassword.length ≤ 128 ∧
      ¬∃ id db', Services.Users.createUser (sampleBcrypt .before5) ⟨60, 10⟩ sampleCall []
          (account longPassword) sample = .ok (id, db') ∧
        Stores (sampleBcrypt .before5) db' id longPassword) ∧
    validatePassword 10 accentedPassword "juan".toList = [] ∧ accentedPassword.length ≤ 128 ∧
      ¬∃ id db', Services.Users.createUser (sampleBcrypt .since5) ⟨60, 10⟩ sampleCall []
          (account accentedPassword) sample = .ok (id, db') ∧
        Stores (sampleBcrypt .since5) db' id accentedPassword := by
  have hlong : validatePassword 10 longPassword "juan".toList = [] := by decide +kernel
  have haccented : validatePassword 10 accentedPassword "juan".toList = [] := by decide +kernel
  refine ⟨⟨hlong, by decide, ?_⟩, haccented, by decide, ?_⟩
  · intro h
    have hfits : Fits .before5 longPassword := by
      refine (hash_accepts_iff (sampleBcrypt_documented .before5) [] longPassword).mp ?_
      refine (createUser_stores_iff ?_ ?_ ?_ ?_).mp h
      · rfl
      · rfl
      · decide
      · exact hlong
    have hlength : (utf8 longPassword).length = 72 := by decide +kernel
    exact Nat.lt_irrefl 72 (hlength ▸ hfits)
  · intro h
    have hfits : Fits .since5 accentedPassword := by
      refine (hash_accepts_iff (sampleBcrypt_documented .since5) [] accentedPassword).mp ?_
      refine (createUser_stores_iff ?_ ?_ ?_ ?_).mp h
      · rfl
      · rfl
      · decide
      · exact haccented
    have hlength : (utf8 accentedPassword).length = 77 := by decide +kernel
    exact absurd (hlength ▸ hfits : 77 ≤ 72) (by decide)

/-- The hash of the administrator in the sample, which is that of the empty password. -/
def knownCall : Call :=
  ⟨⟨1, { sampleAdmin "ana".toList "ana@example.com".toList with
    hashedPassword := ['\u0100'] }⟩, 0, none⟩

theorem stored_credential_exact_iff_sample :
    ((∃ id db', Services.Users.createUser (sampleBcrypt .before5) ⟨60, 10⟩ knownCall []
          (account longPassword) sample = .ok (id, db') ∧
        Stores (sampleBcrypt .before5) db' id longPassword) ↔ Fits .before5 longPassword) ∧
    ((∃ db', Services.Users.updateUser (sampleBcrypt .before5) ⟨60, 10⟩ knownCall [] 2
          { password := some longPassword } sample = .ok db' ∧
        Stores (sampleBcrypt .before5) db' 2 longPassword) ↔ Fits .before5 longPassword) ∧
    ((∃ db', changePassword (sampleBcrypt .before5) ⟨60, 10⟩ knownCall [] [] longPassword sample =
          (db', .ok ()) ∧
        Stores (sampleBcrypt .before5) db' 1 longPassword) ↔ Fits .before5 longPassword) := by
  obtain ⟨hcreate, hupdate, hchange⟩ := stored_credential_exact_iff
    (sampleBcrypt_documented .before5) ⟨60, 10⟩ knownCall [] sample
  refine ⟨hcreate (account longPassword) rfl rfl (by decide) (by decide +kernel), ?_,
    hchange [] longPassword (by decide) (by decide +kernel)⟩
  exact hupdate 2 _ { password := some longPassword } longPassword ⟨_, rfl⟩ rfl rfl
    (by decide +kernel)

end Sample

end CronPanel.Access.Credentials
