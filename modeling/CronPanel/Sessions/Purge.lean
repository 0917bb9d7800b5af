import CronPanel.Api.TokensApart
import CronPanel.Sessions.Consistency

namespace CronPanel.Sessions.Purge

open Library.Strings Library.Tables Library.Fallible Library.Run Core.Permissions Core.Security
open Data.Records Data.Repositories Schemas.Accounts Services.Audit Services.CronJobs Services.Auth
open Api.Errors Api.Operations Api.Accounts Api.TokensApart Machine Changes Consistency

/-- `POST /api/auth/logout` up to the purge. -/
def logoutKeeping (bearer : Bearer) (db : Database) : Except HttpError Database := do
  let call ← authenticated bearer db
  let payload := bearer.token
  let revoked : RevokedToken :=
    { jti := payload.jti
      userId := some call.actor.id
      revokedAt := call.now
      expiresAt := ensureUtc payload.exp }
  let db :=
    if payload.jti ≠ [] ∧ payload.exp ≠ 0 then
      { db with revokedTokens := (db.revokedTokens.insert revoked).2 }
    else db
  .ok (recordEvent call.now
    { action := .logout
      userId := some call.actor.id
      username := some call.actor.user.username
      ipAddress := call.ipAddress
      resource := some "session".toList
      resourceId := some payload.jti } db)

/-- What a request is answered. -/
inductive Answer
  | token (payload : Payload)
  | account (id : ℕ)
  | edited (notification : Notification)
  | done
  deriving DecidableEq

section

variable (bcrypt : Bcrypt) (settings : Settings)

/-- The answer to a request; one with the number of no token is not sent. -/
def answer (w : World) (ipAddress : Option Text) : Request → Option (Except HttpError Answer)
  | .login username password jti =>
    some ((login bcrypt settings w.clock ipAddress jti username password w.db).2.map .token)
  | .logout k => (w.issued.get? k).map fun issue ↦
    (logout ⟨issue.payload, w.clock, ipAddress⟩ w.db).map fun _ ↦ .done
  | .changePassword k salt body => (w.issued.get? k).map fun issue ↦
    (changePassword bcrypt settings ⟨issue.payload, w.clock, ipAddress⟩ salt body w.db).2.map fun _ ↦
      .done
  | .createUser k salt body => (w.issued.get? k).map fun issue ↦
    (createUser bcrypt settings ⟨issue.payload, w.clock, ipAddress⟩ salt body w.db).map fun r ↦
      .account r.1
  | .updateUser k salt id body => (w.issued.get? k).map fun issue ↦
    (updateUser bcrypt settings ⟨issue.payload, w.clock, ipAddress⟩ salt id body w.db).map fun _ ↦
      .done
  | .deleteUser k id => (w.issued.get? k).map fun issue ↦
    (deleteUser ⟨issue.payload, w.clock, ipAddress⟩ id w.db).map fun _ ↦ .done
  | .edit op => some ((op.commit w.db).map fun r ↦ .edited r.2)
  | .restart => none

/-- The panel that never purges the revoked tokens. -/
def serveKeeping (w : World) (ipAddress : Option Text) : Request → World
  | .logout k =>
    match w.issued.get? k with
    | none => w
    | some issue =>
      match logoutKeeping ⟨issue.payload, w.clock, ipAddress⟩ w.db with
      | .error _ => w
      | .ok db => { w with db, events := .loggedOut k :: w.events }
  | .restart => w
  | request => serve bcrypt settings w ipAddress request

def stepKeeping (w : World) (a : Action) : Option World :=
  if Possible w a then
    some (serveKeeping bcrypt settings { w with clock := a.now } a.ipAddress a.request)
  else none

end

/-- The same world with other revoked tokens. -/
def other (tokens : Table ℕ RevokedToken) (w : World) : World :=
  { w with db := withTokens tokens w.db }

/-- A token has been revoked, as one table or the other has it. -/
def Listed (tokens : Table ℕ RevokedToken) (jti : Text) : Prop :=
  ∃ j row, tokens.get? j = some row ∧ row.jti = jti

theorem isRevoked_iff_listed {db : Database} {jti : Text} :
    db.isRevoked jti ↔ Listed db.revokedTokens jti := Database.isRevoked_iff

/-- A world of the panel beside the revoked tokens of the panel that never purges: these have all
that the panel has, and the tokens among them have been logged out. -/
structure Shadowed (tokens : Table ℕ RevokedToken) (v : World) : Prop where
  consistent : Consistent v
  listed : ∀ jti, Listed v.db.revokedTokens jti → Listed tokens jti
  loggedOut : ∀ k i, v.issued.get? k = some i → Listed tokens i.payload.jti →
    .loggedOut k ∈ v.events

section Accepted

variable {tokens : Table ℕ RevokedToken} {v : World} {k : ℕ} {i : Issue} {now : Instant}

/-- Every token issued is accepted in both worlds or in none. -/
theorem Shadowed.getTokenPayload (h : Shadowed tokens v) (hk : v.issued.get? k = some i)
    (hnow : v.clock ≤ now) :
    getTokenPayload now i.payload (withTokens tokens v.db) =
      getTokenPayload now i.payload v.db := by
  unfold Api.Accounts.getTokenPayload
  cases hdecode : decodeToken now i.payload with
  | none => rfl
  | some payload =>
    obtain ⟨rfl, hexp, -⟩ := decodeToken_eq_some.mp hdecode
    have hsame : (i.payload.jti ≠ [] ∧ (withTokens tokens v.db).isRevoked i.payload.jti) ↔
        i.payload.jti ≠ [] ∧ v.db.isRevoked i.payload.jti := by
      refine and_congr_right fun hjti ↦ ?_
      rw [isRevoked_iff_listed, isRevoked_iff_listed]
      refine ⟨fun hlisted ↦ ?_, h.listed _⟩
      have hout := h.loggedOut k i hk hlisted
      by_contra hnot
      have hnot' : ¬v.db.isRevoked i.payload.jti := mt isRevoked_iff_listed.mp hnot
      exact (h.consistent.notRevoked_iff hk hnow hexp).mp (fun _ ↦ hnot') hout
    dsimp only
    rw [if_congr hsame rfl rfl]

theorem Shadowed.authenticated (h : Shadowed tokens v) (hk : v.issued.get? k = some i)
    (hnow : v.clock ≤ now) (ipAddress : Option Text) :
    authenticated ⟨i.payload, now, ipAddress⟩ (withTokens tokens v.db) =
      authenticated ⟨i.payload, now, ipAddress⟩ v.db := by
  unfold Api.Accounts.authenticated getCurrentUser
  dsimp only
  rw [h.getTokenPayload hk hnow]
  rfl

end Accepted

section Steps

variable {bcrypt : Bcrypt} {settings : Settings} {tokens : Table ℕ RevokedToken} {v w w' : World}
  {ipAddress : Option Text}

theorem change_issued (h : Change settings w w') {k : ℕ} {i : Issue}
    (hk : w'.issued.get? k = some i) :
    w.issued.get? k = some i ∨ ¬w.db.isRevoked i.payload.jti := by
  cases h with
  | issue db id user jti hfresh husers hrevoked huser =>
    dsimp only at hk
    rw [Table.insert, Table.get?_set] at hk
    split_ifs at hk
    · cases hk
      exact .inr hfresh.2.1
    · exact .inl hk
  | _ => exact .inl hk

theorem change_loggedOut (h : Change settings w w') {k : ℕ} (hk : .loggedOut k ∈ w.events) :
    .loggedOut k ∈ w'.events := by
  cases h with
  | quiet | purge | issue => exact hk
  | logout | revokeAll | create | delete => exact List.mem_cons_of_mem _ hk

/-- Requests other than a logout and a restart leave the revoked tokens alone. -/
def Neutral : Request → Prop
  | .logout _ | .restart => False
  | _ => True

theorem serveKeeping_neutral {request : Request} (h : Neutral request) :
    serveKeeping bcrypt settings w ipAddress request = serve bcrypt settings w ipAddress request := by
  cases request with
  | logout | restart => exact absurd h not_false
  | _ => rfl

/-- What such a request does depends on the revoked tokens only as far as its token is accepted. -/
theorem serve_other {request : Request} (hneutral : Neutral request)
    (haccept : ∀ k i, v.issued.get? k = some i →
      authenticated ⟨i.payload, v.clock, ipAddress⟩ (withTokens tokens v.db) =
        authenticated ⟨i.payload, v.clock, ipAddress⟩ v.db) :
    serve bcrypt settings (other tokens v) ipAddress request =
        other tokens (serve bcrypt settings v ipAddress request) ∧
      answer bcrypt settings (other tokens v) ipAddress request =
        answer bcrypt settings v ipAddress request := by
  cases request with
  | logout | restart => exact absurd hneutral not_false
  | login username password jti =>
    dsimp only [serve, answer, other]
    rw [login_apart]
    cases login bcrypt settings v.clock ipAddress jti username password v.db with | mk db outcome =>
    cases outcome <;> exact ⟨rfl, rfl⟩
  | changePassword k salt body =>
    dsimp only [serve, answer, other]
    cases hk : v.issued.get? k with
    | none => exact ⟨rfl, rfl⟩
    | some i =>
      dsimp only [Option.map_some]
      rw [passwordRoute_apart (haccept k i hk)]
      cases changePassword bcrypt settings ⟨i.payload, v.clock, ipAddress⟩ salt body v.db with
      | mk db outcome =>
      cases outcome <;> exact ⟨rfl, rfl⟩
  | createUser k salt body =>
    dsimp only [serve, answer, other]
    cases hk : v.issued.get? k with
    | none => exact ⟨rfl, rfl⟩
    | some i =>
      dsimp only [Option.map_some]
      rw [Agree.eq_map (createRoute_apart (haccept k i hk))]
      cases createUser bcrypt settings ⟨i.payload, v.clock, ipAddress⟩ salt body v.db <;>
        exact ⟨rfl, rfl⟩
  | updateUser k salt id body =>
    dsimp only [serve, answer, other]
    cases hk : v.issued.get? k with
    | none => exact ⟨rfl, rfl⟩
    | some i =>
      dsimp only [Option.map_some]
      rw [show (withTokens tokens v.db).users = v.db.users from rfl]
      cases v.db.users.get? id with
      | none =>
        rw [Agree.eq_map (updateRoute_apart (haccept k i hk))]
        cases updateUser bcrypt settings ⟨i.payload, v.clock, ipAddress⟩ salt id body v.db <;>
          exact ⟨rfl, rfl⟩
      | some old =>
        dsimp only
        rw [Agree.eq_map (updateRoute_apart (haccept k i hk))]
        cases updateUser bcrypt settings ⟨i.payload, v.clock, ipAddress⟩ salt id body v.db <;>
          exact ⟨rfl, rfl⟩
  | deleteUser k id =>
    dsimp only [serve, answer, other]
    cases hk : v.issued.get? k with
    | none => exact ⟨rfl, rfl⟩
    | some i =>
      dsimp only [Option.map_some]
      rw [Agree.eq_map (deleteRoute_apart (haccept k i hk))]
      cases deleteUser ⟨i.payload, v.clock, ipAddress⟩ id v.db <;> exact ⟨rfl, rfl⟩
  | edit op =>
    dsimp only [serve, answer, other]
    rw [Agree.eq_map (commit_apart op)]
    cases op.commit v.db <;> exact ⟨rfl, rfl⟩

theorem serve_revokedTokens {request : Request} (hneutral : Neutral request) :
    (serve bcrypt settings v ipAddress request).db.revokedTokens = v.db.revokedTokens := by
  have h : serve bcrypt settings v ipAddress request =
      other v.db.revokedTokens (serve bcrypt settings v ipAddress request) :=
    (serve_other hneutral fun _ _ _ ↦ rfl).1
  exact congrArg (fun w ↦ w.db.revokedTokens) h

theorem listed_insert {row : RevokedToken} {jti : Text} :
    Listed (tokens.insert row).2 jti ↔ row.jti = jti ∨ Listed tokens jti := by
  constructor
  · intro hx
    obtain ⟨j, found, hj, rfl⟩ := hx
    rw [Table.insert, Table.get?_set] at hj
    split_ifs at hj
    · cases hj
      exact .inl rfl
    · exact .inr ⟨j, found, hj, rfl⟩
  · intro hx
    obtain rfl | ⟨j, found, hj, rfl⟩ := hx
    · exact ⟨tokens.nextId, row, by rw [Table.insert, Table.get?_set_self], rfl⟩
    · refine ⟨j, found, ?_, rfl⟩
      rw [Table.insert, Table.get?_set_ne _ _ (Table.lt_nextId hj).ne, hj]

theorem Listed.of_filter {p : RevokedToken → Bool} {jti : Text} (h : Listed (tokens.filter p) jti) :
    Listed tokens jti := by
  obtain ⟨j, row, hj, rfl⟩ := h
  exact ⟨j, row, filter_rows hj, rfl⟩

theorem Shadowed.neutral (h : Shadowed tokens v) {request : Request} (hneutral : Neutral request)
    (hfresh : ∀ username password jti, request = .login username password jti →
      FreshJti (other tokens v) jti)
    (hconsistent : Consistent (serve bcrypt settings v ipAddress request)) :
    Shadowed tokens (serve bcrypt settings v ipAddress request) := by
  have hchange : Change settings (other tokens v)
      (serve bcrypt settings (other tokens v) ipAddress request) :=
    serve_change (fun k i hk ↦ (h.consistent.issued.genuine k i hk).jti) hfresh
  rw [(serve_other hneutral fun k i hk ↦ h.authenticated hk le_rfl ipAddress).1] at hchange
  refine ⟨hconsistent, ?_, fun k i hk hlisted ↦ ?_⟩
  · rw [serve_revokedTokens hneutral]
    exact h.listed
  · obtain hold | hnot := change_issued hchange hk
    · exact change_loggedOut hchange (h.loggedOut k i hold hlisted)
    · exact absurd (isRevoked_iff_listed.mpr hlisted) hnot

/-- A logout is taken in both worlds or in none. -/
theorem Shadowed.logout (h : Shadowed tokens v) (k : ℕ)
    (hconsistent : Consistent (serve bcrypt settings v ipAddress (.logout k))) :
    ∃ tokens', serveKeeping bcrypt settings (other tokens v) ipAddress (.logout k) =
        other tokens' (serve bcrypt settings v ipAddress (.logout k)) ∧
      Shadowed tokens' (serve bcrypt settings v ipAddress (.logout k)) := by
  revert hconsistent
  dsimp only [serve, serveKeeping, other]
  cases hk : v.issued.get? k with
  | none => exact fun _ ↦ ⟨tokens, rfl, h⟩
  | some i =>
    dsimp only
    unfold Api.Accounts.logout logoutKeeping
    rw [h.authenticated hk le_rfl ipAddress]
    cases hauth : Api.Accounts.authenticated ⟨i.payload, v.clock, ipAddress⟩ v.db with
    | error e => exact fun _ ↦ ⟨tokens, rfl, h⟩
    | ok call =>
      have hgiven : i.payload.jti ≠ [] ∧ i.payload.exp ≠ 0 := by
        obtain ⟨⟨hexp, -⟩, -⟩ := getCurrentUser_eq_ok.mp (authenticated_ok hauth).2
        refine ⟨(h.consistent.issued.genuine k i hk).jti, fun hzero ↦ ?_⟩
        rw [hzero] at hexp
        exact absurd hexp (Nat.not_lt_zero _)
      simp only [ok_bind, if_pos hgiven]
      intro hconsistent
      refine ⟨(tokens.insert
        ⟨i.payload.jti, some call.actor.id, call.now, ensureUtc i.payload.exp⟩).2,
        rfl, hconsistent, fun jti hlisted ↦ ?_, fun j i' hj hlisted ↦ ?_⟩
      · exact listed_insert.mpr ((listed_insert.mp hlisted.of_filter).imp_right (h.listed jti))
      · obtain hjti | hold := listed_insert.mp hlisted
        · obtain rfl := h.consistent.issued.unique k j i i' hk hj hjti
          exact List.mem_cons_self
        · exact List.mem_cons_of_mem _ (h.loggedOut j i' hj hold)

theorem Shadowed.tick (h : Shadowed tokens v) {now : Instant} (hnow : v.clock ≤ now) :
    Shadowed tokens { v with clock := now } :=
  ⟨h.consistent.tick hnow, h.listed, h.loggedOut⟩

theorem possible_of_other {a : Action} (h : Shadowed tokens v) (ha : Possible (other tokens v) a) :
    Possible v a := by
  refine ⟨ha.1, fun username password jti hr ↦ ?_⟩
  obtain ⟨hne, hnot, hnew⟩ := ha.2 username password jti hr
  refine ⟨hne, fun hrevoked ↦ hnot ?_, hnew⟩
  exact isRevoked_iff_listed.mpr (h.listed jti (isRevoked_iff_listed.mp hrevoked))

/-- Each step of the panel that never purges is one of the panel. -/
theorem Shadowed.step (h : Shadowed tokens v) {a : Action}
    (hs : stepKeeping bcrypt settings (other tokens v) a = some w') :
    ∃ tokens' v', step bcrypt settings v a = some v' ∧ w' = other tokens' v' ∧
      Shadowed tokens' v' := by
  unfold stepKeeping at hs
  split_ifs at hs with hother
  obtain rfl := Option.some.inj hs
  have hpossible := possible_of_other h hother
  have hstep : step bcrypt settings v a =
      some (serve bcrypt settings { v with clock := a.now } a.ipAddress a.request) :=
    if_pos hpossible
  have hticked := h.tick hpossible.1
  have hconsistent := h.consistent.step hstep
  by_cases hneutral : Neutral a.request
  · refine ⟨tokens, _, hstep, ?_, hticked.neutral hneutral hother.2 hconsistent⟩
    rw [serveKeeping_neutral hneutral]
    exact (serve_other hneutral fun k i hk ↦ hticked.authenticated hk le_rfl a.ipAddress).1
  cases hr : a.request with
  | logout k =>
    rw [hr] at hconsistent hstep
    obtain ⟨tokens', heq, h'⟩ := hticked.logout k hconsistent
    exact ⟨tokens', _, hstep, heq, h'⟩
  | restart =>
    rw [hr] at hconsistent hstep
    refine ⟨tokens, _, hstep, rfl, hconsistent, fun jti hlisted ↦ ?_, h.loggedOut⟩
    exact h.listed jti hlisted.of_filter
  | _ =>
    rw [hr] at hneutral
    exact absurd trivial hneutral

/-- No answer tells the two worlds apart. -/
theorem Shadowed.answer (h : Shadowed tokens v) (request : Request) :
    answer bcrypt settings (other tokens v) ipAddress request =
      answer bcrypt settings v ipAddress request := by
  by_cases hneutral : Neutral request
  · exact (serve_other hneutral fun k i hk ↦ h.authenticated hk le_rfl ipAddress).2
  cases request with
  | logout k =>
    dsimp only [Purge.answer, other]
    cases hk : v.issued.get? k with
    | none => rfl
    | some i =>
      dsimp only [Option.map_some]
      unfold Api.Accounts.logout
      rw [h.authenticated hk le_rfl ipAddress]
      cases Api.Accounts.authenticated ⟨i.payload, v.clock, ipAddress⟩ v.db <;> rfl
  | restart => rfl
  | _ => exact absurd trivial hneutral

end Steps

section Runs

variable {bcrypt : Bcrypt} {settings : Settings} {clock : Instant} {db : Database}

theorem shadowed_begin (hpast : PastThresholds clock db) :
    Shadowed db.revokedTokens (begin clock db) where
  consistent := consistent_begin hpast
  listed jti h := h
  loggedOut := Table.forall_empty

/-- Dropping the expired rows of the revoked tokens at every start and every logout is never seen:
whatever is asked of a panel that keeps them all, the panel that drops them ends with the same
tables but for those rows, and answers every later request in the same way. -/
theorem purge_unseen (hpast : PastThresholds clock db) {as : List Action} {w : World}
    (hw : exec (stepKeeping bcrypt settings) (begin clock db) as = some w) :
    ∃ v, exec (step bcrypt settings) (begin clock db) as = some v ∧
      w = other w.db.revokedTokens v ∧
      ∀ now, w.clock ≤ now → ∀ ipAddress request,
        answer bcrypt settings { w with clock := now } ipAddress request =
          answer bcrypt settings { v with clock := now } ipAddress request := by
  have hbegin : ∃ tokens, begin clock db = other tokens (begin clock db) ∧
      Shadowed tokens (begin clock db) := ⟨_, rfl, shadowed_begin hpast⟩
  obtain ⟨v, hv, tokens, rfl, h⟩ := exec_simulated
    (R := fun w v ↦ ∃ tokens, w = other tokens v ∧ Shadowed tokens v)
    (fun w v a w' hr hs ↦ by
      obtain ⟨tokens, rfl, h⟩ := hr
      obtain ⟨tokens', v', hv', heq, h'⟩ := h.step hs
      exact ⟨v', hv', tokens', heq, h'⟩) hbegin hw
  refine ⟨v, hv, rfl, fun now hnow ipAddress request ↦ ?_⟩
  exact (h.tick hnow).answer request

end Runs

section Sample

/-- The administrator logs out; the token has expired when the panel is started again, and a new
one is logged out after it. -/
def outlived : List Action :=
  [⟨1700000000000000, none, .login "admin".toList "Cronograma2024".toList "a1".toList⟩,
    ⟨1700000005000000, none, .logout 1⟩,
    ⟨1700007200000000, none, .restart⟩,
    ⟨1700007201000000, none, .login "admin".toList "Cronograma2024".toList "a2".toList⟩,
    ⟨1700007202000000, none, .logout 2⟩]

theorem purge_unseen_outlived :
    ∃ w, exec (stepKeeping sampleBcrypt sampleSettings) (begin 1700000000000000 sample) outlived =
        some w ∧ w.db.revokedTokens.rows.length = 2 ∧
      ∃ v, exec (step sampleBcrypt sampleSettings) (begin 1700000000000000 sample) outlived =
          some v ∧ w = other w.db.revokedTokens v ∧
        ∀ now, w.clock ≤ now → ∀ ipAddress request,
          answer sampleBcrypt sampleSettings { w with clock := now } ipAddress request =
            answer sampleBcrypt sampleSettings { v with clock := now } ipAddress request := by
  have hlength : (exec (stepKeeping sampleBcrypt sampleSettings) (begin 1700000000000000 sample)
      outlived).map (fun w ↦ w.db.revokedTokens.rows.length) = some 2 := by decide
  obtain ⟨w, hw, hlength⟩ := Option.map_eq_some_iff.mp hlength
  exact ⟨w, hw, hlength, purge_unseen (by decide) hw⟩

end Sample

end CronPanel.Sessions.Purge
