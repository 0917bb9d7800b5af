import CronPanel.Core.Permissions
import CronPanel.Data.Records

namespace CronPanel.Core.Security

open Library.Strings Permissions Data.Records

/-- The password hashing library, with the text of the error it raises on a password it
does not hash. The salt is drawn for each call. -/
structure Bcrypt where
  hashpw : Text → Text → Except Text Text
  checkpw : Text → Text → Bool

def hashPassword (bcrypt : Bcrypt) (salt password : Text) : Except Text Text :=
  bcrypt.hashpw password salt

def verifyPassword (bcrypt : Bcrypt) (plainPassword hashedPassword : Text) : Bool :=
  bcrypt.checkpw plainPassword hashedPassword

structure Settings where
  accessTokenExpireMinutes : ℕ
  passwordMinLength : ℕ

def accessTokenType : Text := "access".toList

/-- The claims of a token; `sub` is kept as the number whose decimal text it is, and `iat`
and `exp` are whole seconds. -/
structure Payload where
  sub : ℕ
  iat : ℕ
  exp : ℕ
  jti : Text
  type : Text
  username : Text
  role : Text
  deriving DecidableEq

/-- A moment as the encoder of tokens writes it. -/
def seconds (t : Instant) : ℕ := t / 1000000

/-- The moment a number of seconds stands for, as `ensure_utc` reads it. -/
def ensureUtc (s : ℕ) : Instant := 1000000 * s

def createAccessToken (settings : Settings) (issuedAt : Instant) (jti : Text) (subject : ℕ)
    (username role : Text) : Payload :=
  { sub := subject
    iat := seconds issuedAt
    exp := seconds (issuedAt + 60000000 * settings.accessTokenExpireMinutes)
    jti
    type := accessTokenType
    username
    role }

/-- `decode_token` on a token signed with the key of the panel. -/
def decodeToken (now : Instant) (token : Payload) : Option Payload :=
  if ensureUtc token.exp ≤ now then none
  else if token.type ≠ accessTokenType then none
  else some token

theorem decodeToken_eq_some {now : Instant} {token payload : Payload} :
    decodeToken now token = some payload ↔
      payload = token ∧ now < ensureUtc token.exp ∧ token.type = accessTokenType := by
  unfold decodeToken
  split_ifs with hexp htype
  · exact iff_of_false (fun h ↦ by cases h) fun h ↦ absurd h.2.1 (not_lt.mpr hexp)
  · exact iff_of_false (fun h ↦ by cases h) fun h ↦ htype h.2.2
  · rw [Option.some.injEq, eq_comm]
    exact ⟨fun h ↦ ⟨h, not_le.mp hexp, not_not.mp htype⟩, fun h ↦ h.1⟩

theorem ensureUtc_seconds_le (t : Instant) : ensureUtc (seconds t) ≤ t := Nat.mul_div_le t 1000000

end CronPanel.Core.Security
