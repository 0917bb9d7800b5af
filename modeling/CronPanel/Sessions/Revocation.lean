import CronPanel.Sessions.Consistency

namespace CronPanel.Sessions.Revocation

open Library.Strings Library.Tables Library.Fallible Library.Run Core.Permissions Core.Security
open Data.Records Data.Repositories Services.CronJobs Api.Accounts Machine Consistency

/-- A session that was ended: its token was logged out, or all the sessions of its account
were ended later than its issue. -/
def Ended (w : World) (k : ℕ) (i : Issue) : Prop :=
  .loggedOut k ∈ w.events ∨ ∃ t, .revokedAll i.account t ∈ w.events ∧ i.time < t

def RevocationSound (w : World) : Prop :=
  ∀ k i, w.issued.get? k = some i → .deleted i.account ∉ w.events → Ended w k i →
    ∀ now, w.clock ≤ now → ¬Succeeds (getCurrentUser now i.payload w.db)

/-- A token that was issued to an active account, not before its sessions were last ended,
and that is neither logged out nor expired. -/
structure Fresh (w : World) (k : ℕ) (i : Issue) (now : Instant) : Prop where
  issued : w.issued.get? k = some i
  active : ∃ user, w.db.users.get? i.account.id = some user ∧ user.isActive
  account : i.account = accountOf w.events i.account.id
  last : ∀ t, .revokedAll i.account t ∈ w.events → t ≤ i.time
  kept : .loggedOut k ∉ w.events
  unexpired : now < ensureUtc i.payload.exp

def FreshLoginsWork (w : World) : Prop :=
  ∀ k i now, w.clock ≤ now → Fresh w k i now → Succeeds (getCurrentUser now i.payload w.db)

section

variable {w : World} {k : ℕ} {i : Issue} {now : Instant}

theorem revocationSound (h : Consistent w) : RevocationSound w := by
  intro k i hk hdeleted hended now hnow hx
  obtain ⟨actor, hactor⟩ := hx
  obtain ⟨hexp, hout, -, -, -, hle⟩ := (h.getCurrentUser_iff hk hnow).mp hactor
  rcases hended with hlogged | ⟨t, ht, hlt⟩
  · exact hout hlogged
  · obtain ⟨hcurrent, -⟩ := (h.owned k i hk).resolve_left hdeleted
    have hissue : t ≤ i.time := (hle t (hcurrent ▸ ht)).trans (ensureUtc_seconds_le i.time)
    exact absurd hlt (not_lt.mpr hissue)

theorem fresh_accepted_iff (h : Consistent w) (hnow : w.clock ≤ now) (hfresh : Fresh w k i now) :
    Succeeds (getCurrentUser now i.payload w.db) ↔
      ∀ t, .revokedAll i.account t ∈ w.events → t ≤ ensureUtc (seconds i.time) := by
  constructor
  · intro hx
    obtain ⟨actor, hactor⟩ := hx
    obtain ⟨-, -, -, -, -, hle⟩ := (h.getCurrentUser_iff hfresh.issued hnow).mp hactor
    exact fun t ht ↦ hle t (hfresh.account ▸ ht)
  · intro hle
    obtain ⟨user, hu, hactive⟩ := hfresh.active
    refine ⟨⟨i.account.id, user⟩, (h.getCurrentUser_iff hfresh.issued hnow).mpr ?_⟩
    exact ⟨hfresh.unexpired, hfresh.kept, rfl, hu, hactive,
      fun t ht ↦ hle t (hfresh.account.symm ▸ ht)⟩

end

/-- The administrator logs in, changes the password and logs in again within the second. -/
def changeThenLogin : List Action :=
  [⟨1700000000000000, none, .login "admin".toList "Cronograma2024".toList "a1".toList⟩,
    ⟨1700000005500000, none, .changePassword 1 sampleSalt ⟨"Cronograma2024".toList, "Planificador7".toList⟩⟩,
    ⟨1700000005600000, none, .login "admin".toList "Planificador7".toList "a2".toList⟩]

theorem revocation_sound {bcrypt : Bcrypt} {settings : Settings} {clock : Instant} {db : Database}
    (hpast : PastThresholds clock db) (as : List Action) :
    Always (step bcrypt settings) RevocationSound (begin clock db) as :=
  always_mono (fun _ h ↦ revocationSound h) (consistent_always hpast as)

theorem revocation_sound_after_change :
    Always (step sampleBcrypt sampleSettings) RevocationSound
      (begin 1700000000000000 sample) changeThenLogin :=
  revocation_sound (by decide) changeThenLogin

/-- In every state of every run, a fresh token works exactly when no session of its account
was ended after the whole second of its issue began. -/
theorem fresh_logins_work_iff {bcrypt : Bcrypt} {settings : Settings} {clock : Instant}
    {db : Database}
    (hpast : PastThresholds clock db) (as : List Action) :
    Always (step bcrypt settings)
      (fun w ↦ ∀ k i now, w.clock ≤ now → Fresh w k i now →
        (Succeeds (getCurrentUser now i.payload w.db) ↔
          ∀ t, .revokedAll i.account t ∈ w.events → t ≤ ensureUtc (seconds i.time)))
      (begin clock db) as :=
  always_mono (fun _ h _ _ _ ↦ fresh_accepted_iff h) (consistent_always hpast as)

def secondLogin : Issue where
  payload :=
    { sub := 1
      iat := 1700000005
      exp := 1700003605
      jti := "a2".toList
      type := accessTokenType
      username := "admin".toList
      role := "admin".toList }
  time := 1700000005600000
  account := ⟨1, 0⟩

theorem second_login_rejected :
    (∃ w, exec (step sampleBcrypt sampleSettings) (begin 1700000000000000 sample) changeThenLogin = some w ∧
      w.clock ≤ 1700000006000000 ∧ Fresh w 2 secondLogin 1700000006000000 ∧
      ¬Succeeds (getCurrentUser 1700000006000000 secondLogin.payload w.db)) ∧
      ¬Always (step sampleBcrypt sampleSettings) FreshLoginsWork
        (begin 1700000000000000 sample) changeThenLogin := by
  have hlast :
      (exec (step sampleBcrypt sampleSettings) (begin 1700000000000000 sample) changeThenLogin).map
      (fun w ↦ (w.clock, w.events, w.issued.get? 2, (w.db.users.get? 1).map User.isActive,
        (getCurrentUser 1700000006000000 secondLogin.payload w.db).isOk)) =
      some (1700000005600000, [.revokedAll ⟨1, 0⟩ 1700000005500000], some secondLogin, some true,
        false) := by decide
  obtain ⟨w, hw, hdata⟩ := Option.map_eq_some_iff.mp hlast
  simp only [Prod.mk.injEq] at hdata
  obtain ⟨hclock, hevents, hissued, hactive, hrejected⟩ := hdata
  obtain ⟨user, hu, hactive⟩ := Option.map_eq_some_iff.mp hactive
  have hnow : w.clock ≤ 1700000006000000 := hclock.le.trans (by decide)
  have hfresh : Fresh w 2 secondLogin 1700000006000000 := by
    refine ⟨hissued, ⟨user, hu, hactive⟩, ?_, ?_, ?_, by decide⟩
    · rw [hevents]
      decide
    · intro t ht
      rw [hevents, List.mem_singleton] at ht
      cases ht
      decide
    · rw [hevents]
      decide
  have hfails : ¬Succeeds (getCurrentUser 1700000006000000 secondLogin.payload w.db) := by
    intro hx
    obtain ⟨actor, hactor⟩ := hx
    rw [hactor] at hrejected
    cases hrejected
  refine ⟨⟨w, hw, hnow, hfresh, hfails⟩, fun h ↦ ?_⟩
  exact hfails (h.last hw 2 secondLogin _ hnow hfresh)

theorem fresh_logins_work_after_change :
    Always (step sampleBcrypt sampleSettings)
      (fun w ↦ ∀ k i now, w.clock ≤ now → Fresh w k i now →
        (Succeeds (getCurrentUser now i.payload w.db) ↔
          ∀ t, .revokedAll i.account t ∈ w.events → t ≤ ensureUtc (seconds i.time)))
      (begin 1700000000000000 sample) changeThenLogin :=
  fresh_logins_work_iff (by decide) changeThenLogin

end CronPanel.Sessions.Revocation
