import CronPanel.Sessions.Consistency

namespace CronPanel.Sessions.Identity

open Library.Strings Library.Tables Library.Fallible Library.Run Core.Permissions Core.Security
open Data.Records Data.Repositories Services.CronJobs Api.Accounts Machine Changes Consistency

def OwnAccountOnly (w : World) : Prop :=
  ∀ k i, w.issued.get? k = some i → ∀ now, w.clock ≤ now → ∀ actor,
    getCurrentUser now i.payload w.db = .ok actor → accountOf w.events actor.id = i.account

/-- A token that neither a logout nor its age keeps out at a moment. -/
def Usable (w : World) (now : Instant) (k : ℕ) (i : Issue) : Prop :=
  w.issued.get? k = some i ∧ .loggedOut k ∉ w.events ∧ now < ensureUtc i.payload.exp

/-- An account is created under the id that a usable token names. -/
def Reuses (bcrypt : Bcrypt) (settings : Settings) (w : World) (a : Action) : Prop :=
  w.clock ≤ a.now ∧ (∃ k salt body issue, a.request = .createUser k salt body ∧
    w.issued.get? k = some issue ∧
    Succeeds (createUser bcrypt settings ⟨issue.payload, a.now, a.ipAddress⟩ salt body w.db)) ∧
    ∃ k i, Usable w a.now k i ∧ i.payload.sub = w.db.users.nextId

/-- The account of a token has its id, or no account has it, or the token is not usable. -/
def Harmless (w : World) : Prop :=
  ∀ k i, Usable w w.clock k i →
    i.account = accountOf w.events i.account.id ∨ w.db.users.get? i.account.id = none

structure Safe (w : World) : Prop where
  consistent : Consistent w
  harmless : Harmless w

section

variable {bcrypt : Bcrypt} {settings : Settings} {w w' : World} {a : Action}

theorem Safe.ownAccountOnly (h : Safe w) : OwnAccountOnly w := by
  intro k i hk now hnow actor hactor
  obtain ⟨hexp, hout, hid, hu, -⟩ := (h.consistent.getCurrentUser_iff hk hnow).mp hactor
  rcases h.harmless k i ⟨hk, hout, hnow.trans_lt hexp⟩ with hcurrent | hnone
  · rw [hid, ← hcurrent]
  · rw [hnone] at hu
    cases hu

theorem created_of_serve {ipAddress : Option Text} {request : Request} {id : ℕ}
    (h : (serve bcrypt settings w ipAddress request).events = .created id :: w.events) :
    ∃ k salt body issue, request = .createUser k salt body ∧ w.issued.get? k = some issue ∧
      Succeeds (createUser bcrypt settings ⟨issue.payload, w.clock, ipAddress⟩ salt body w.db) := by
  have hne : w.events ≠ .created id :: w.events := fun he ↦ List.cons_ne_self _ _ he.symm
  cases request with
  | createUser k salt body =>
    dsimp only [serve] at h
    split at h
    · exact absurd h hne
    · rename_i issue hk
      split at h
      · exact absurd h hne
      · rename_i hok
        exact ⟨k, salt, body, issue, rfl, hk, _, hok⟩
  | login username password jti =>
    dsimp only [serve] at h
    split at h <;> exact absurd h hne
  | logout k =>
    dsimp only [serve] at h
    split at h
    · exact absurd h hne
    · split at h
      · exact absurd h hne
      · cases (List.cons.inj h).1
  | changePassword k salt body =>
    dsimp only [serve] at h
    split at h
    · exact absurd h hne
    · split at h
      · exact absurd h hne
      · cases (List.cons.inj h).1
  | updateUser k salt id' body =>
    dsimp only [serve] at h
    split at h
    · split at h
      · exact absurd h hne
      · dsimp only at h
        split_ifs at h
        · cases (List.cons.inj h).1
        · exact absurd h hne
    · exact absurd h hne
  | deleteUser k id' =>
    dsimp only [serve] at h
    split at h
    · exact absurd h hne
    · split at h
      · exact absurd h hne
      · cases (List.cons.inj h).1
  | edit op =>
    dsimp only [serve] at h
    split at h <;> exact absurd h hne
  | restart => exact absurd h hne

theorem Harmless.frame (h : Harmless w) (hclock : w.clock ≤ w'.clock)
    (hissued : w'.issued = w.issued)
    (hevents : ∀ e ∈ w.events, e ∈ w'.events)
    (haccount : ∀ id, accountOf w'.events id = accountOf w.events id)
    (husers : ∀ id, w.db.users.get? id = none → w'.db.users.get? id = none) : Harmless w' := by
  intro k i hx
  obtain ⟨hk, hout, hexp⟩ := hx
  rw [haccount]
  have husable :
      Usable w w.clock k i := ⟨hissued ▸ hk, fun he ↦ hout (hevents _ he), hclock.trans_lt hexp⟩
  exact (h k i husable).imp_right (husers _)

theorem Harmless.tick (h : Harmless w) {now : Instant} (hnow : w.clock ≤ now) :
    Harmless { w with clock := now } :=
  h.frame hnow rfl (fun _ he ↦ he) (fun _ ↦ rfl) fun _ hnone ↦ hnone

theorem Harmless.change (h : Harmless w) (hconsistent : Consistent w) (hc : Change settings w w')
    (hsafe : w'.events = .created w.db.users.nextId :: w.events →
      ∀ k i, Usable w w.clock k i → i.payload.sub ≠ w.db.users.nextId) : Harmless w' := by
  cases hc with
  | quiet db husers hrevoked =>
    exact h.frame le_rfl rfl (fun _ he ↦ he) (fun _ ↦ rfl) fun _ hnone ↦ husers.get?_none hnone
  | purge => exact h
  | issue db id user jti hfresh husers hrevoked huser =>
    intro k i hx
    obtain ⟨hk, hout, hexp⟩ := hx
    dsimp only at hk
    rw [Table.insert, Table.get?_set] at hk
    split_ifs at hk
    · cases hk
      exact .inl rfl
    · exact (h k i ⟨hk, hout, hexp⟩).imp_right husers.get?_none
  | logout db k issue row hk hjti hexp husers hrevoked =>
    exact h.frame le_rfl rfl (fun _ ↦ List.mem_cons_of_mem _) (fun _ ↦ accountOf_loggedOut)
      fun _ hnone ↦ husers ▸ hnone
  | revokeAll db id old new hold husers hnew hrevoked =>
    refine h.frame le_rfl rfl (fun _ ↦ List.mem_cons_of_mem _)
      (fun _ ↦ accountOf_revokedAll) fun j hnone ↦ ?_
    have hne : j ≠ id := by
      intro heq
      obtain rfl := heq
      rw [hold] at hnone
      cases hnone
    rw [husers, Table.get?_set_ne _ _ hne, hnone]
  | create db user husers hactive hnone hrevoked =>
    intro k i hx
    obtain ⟨hk, hout, hexp⟩ := hx
    have husable : Usable w w.clock k i := ⟨hk, fun he ↦ hout (List.mem_cons_of_mem _ he), hexp⟩
    have hne :
        i.account.id ≠ w.db.users.nextId :=
        (hconsistent.issued.genuine k i hk).sub ▸ hsafe rfl k i husable
    rw [accountOf_cons fun he ↦ hne (Event.created.inj he).symm, husers, Table.get?_set_ne _ _ hne]
    exact h k i husable
  | delete db id husers hrevoked =>
    refine h.frame le_rfl rfl (fun _ ↦ List.mem_cons_of_mem _)
      (fun _ ↦ accountOf_deleted) fun j hnone ↦ ?_
    rw [husers, Table.get?_erase, hnone, ite_self]

theorem Safe.step (h : Safe w) (hno : ¬Reuses bcrypt settings w a)
    (hs : step bcrypt settings w a = some w') :
    Safe w' := by
  obtain ⟨hnow, hchange⟩ := step_change h.consistent hs
  refine ⟨h.consistent.step hs, (h.harmless.tick hnow).change (h.consistent.tick hnow) hchange ?_⟩
  intro hcreated k i husable hsub
  unfold Machine.step at hs
  split_ifs at hs
  cases hs
  exact hno ⟨hnow, created_of_serve hcreated, k, i, husable, hsub⟩

theorem Safe.reused (h : Safe w) (hr : Reuses bcrypt settings w a) :
    ∃ w', Machine.step bcrypt settings w a = some w' ∧ ¬OwnAccountOnly w' := by
  obtain ⟨hnow, ⟨k, salt, body, issue, hrequest, hk, ⟨id, db⟩, hcreate⟩, k', i,
      ⟨hk', hout, hexp⟩, hsub⟩ := hr
  obtain ⟨rfl, -, user, husers, hactive, hnone⟩ := createUser_route hcreate
  have hstep : Machine.step bcrypt settings w a =
      some { w with db, clock := a.now, events := .created w.db.users.nextId :: w.events } := by
    have hpossible : Possible w a := ⟨hnow, fun _ _ _ he ↦ by rw [hrequest] at he; cases he⟩
    unfold Machine.step
    rw [if_pos hpossible, hrequest]
    dsimp only [serve]
    rw [hk]
    dsimp only
    rw [hcreate]
  refine ⟨_, hstep, fun hown ↦ ?_⟩
  have hconsistent := h.consistent.step hstep
  have hid : i.account.id = w.db.users.nextId := (h.consistent.issued.genuine k' i hk').sub ▸ hsub
  have hu : db.users.get? i.account.id = some user := by rw [husers, hid, Table.get?_set_self]
  have haccepted : getCurrentUser a.now i.payload db = .ok ⟨i.account.id, user⟩ := by
    refine (hconsistent.getCurrentUser_iff hk' le_rfl).mpr
      ⟨hexp, fun he ↦ ?_, rfl, hu, hactive, fun t ht ↦ ?_⟩
    · exact hout (List.mem_of_ne_of_mem (fun he ↦ by cases he) he)
    · obtain ⟨threshold, hthreshold, -⟩ := hconsistent.thresholds.stored _ user hu t ht
      cases hnone.symm.trans hthreshold
  have hsame := hown k' i hk' a.now le_rfl _ haccepted
  have hgeneration := (h.consistent.issued.genuine k' i hk').generation
  rw [← hsame, hid, accountOf_created_self] at hgeneration
  exact absurd hgeneration (Nat.not_succ_le_self _)

end

/-- In every run from a database whose thresholds are past, no token is ever accepted as
another account exactly when no account is created under the id that a usable token names. -/
theorem own_account_only_iff {bcrypt : Bcrypt} {settings : Settings} {clock : Instant}
    {db : Database}
    (hpast : PastThresholds clock db) (as : List Action) :
    Always (step bcrypt settings) OwnAccountOnly (begin clock db) as ↔
      Guarded (step bcrypt settings) (fun w a ↦ ¬Reuses bcrypt settings w a) (begin clock db) as :=
  always_iff_guarded (I := Safe) (fun _ h ↦ h.ownAccountOnly) (fun _ _ _ h hno hs ↦ h.step hno hs)
    (fun _ _ h hr ↦ h.reused (not_not.mp hr)) as
    ⟨consistent_begin hpast, fun _ _ h ↦ (Option.some_ne_none _ h.1.symm).elim⟩

/-- The administrator creates an account and deletes it once it has a token, and then
creates another. -/
def deleteThenCreate : List Action :=
  [⟨1700000000000000, none, .login "admin".toList "Cronograma2024".toList "a1".toList⟩,
    ⟨1700000001000000, none, .createUser 1 sampleSalt
      ⟨"lucia".toList, "lucia@example.com".toList, "Planificador7".toList, "admin".toList⟩⟩,
    ⟨1700000002000000, none, .login "lucia".toList "Planificador7".toList "b1".toList⟩,
    ⟨1700000003000000, none, .deleteUser 1 2⟩,
    ⟨1700000004000000, none, .createUser 1 sampleSalt
      ⟨"mateo".toList, "mateo@example.com".toList, "Programador8".toList, "viewer".toList⟩⟩]

def deletedLogin : Issue where
  payload :=
    { sub := 2
      iat := 1700000002
      exp := 1700003602
      jti := "b1".toList
      type := accessTokenType
      username := "lucia".toList
      role := "admin".toList }
  time := 1700000002000000
  account := ⟨2, 1⟩

theorem deleted_login_becomes_other :
    (∃ w, exec (step sampleBcrypt sampleSettings) (begin 1700000000000000 sample) deleteThenCreate = some w ∧
      w.clock ≤ 1700000005000000 ∧ w.issued.get? 2 = some deletedLogin ∧
      ∃ actor, getCurrentUser 1700000005000000 deletedLogin.payload w.db = .ok actor ∧
        actor.user.username = "mateo".toList ∧ accountOf w.events actor.id = ⟨2, 2⟩) ∧
      ¬Always (step sampleBcrypt sampleSettings) OwnAccountOnly
        (begin 1700000000000000 sample) deleteThenCreate := by
  have hlast :
      (exec (step sampleBcrypt sampleSettings) (begin 1700000000000000 sample) deleteThenCreate).map
      (fun w ↦ (w.clock, w.issued.get? 2, (getCurrentUser 1700000005000000 deletedLogin.payload w.db).toOption.map
        fun actor ↦ (actor.user.username, accountOf w.events actor.id))) =
      some (1700000004000000, some deletedLogin, some ("mateo".toList, ⟨2, 2⟩)) := by decide
  obtain ⟨w, hw, hdata⟩ := Option.map_eq_some_iff.mp hlast
  simp only [Prod.mk.injEq] at hdata
  obtain ⟨hclock, hissued, hactor⟩ := hdata
  obtain ⟨actor, hactor, hnamed⟩ := Option.map_eq_some_iff.mp hactor
  obtain ⟨hname, haccount⟩ := Prod.mk.inj hnamed
  have hnow : w.clock ≤ 1700000005000000 := hclock.le.trans (by decide)
  have hok : getCurrentUser 1700000005000000 deletedLogin.payload w.db = .ok actor := by
    cases hc : getCurrentUser 1700000005000000 deletedLogin.payload w.db with
    | error e =>
      rw [hc] at hactor
      cases hactor
    | ok a =>
      rw [hc] at hactor
      cases hactor
      rfl
  refine ⟨⟨w, hw, hnow, hissued, actor, hok, hname, haccount⟩, fun h ↦ ?_⟩
  have hown := h.last hw
  have hsame := hown 2 deletedLogin hissued 1700000005000000 hnow actor hok
  rw [haccount] at hsame
  exact absurd hsame (by decide)

theorem own_account_only_after_delete :
    Always (step sampleBcrypt sampleSettings) OwnAccountOnly
      (begin 1700000000000000 sample) deleteThenCreate ↔
      Guarded (step sampleBcrypt sampleSettings) (fun w a ↦ ¬Reuses sampleBcrypt sampleSettings w a)
        (begin 1700000000000000 sample) deleteThenCreate :=
  own_account_only_iff (by decide) deleteThenCreate

end CronPanel.Sessions.Identity
