import CronPanel.Sessions.Changes

namespace CronPanel.Sessions.Consistency

open Library.Strings Library.Tables Library.Run Core.Security Data.Records Data.Repositories
open Services.CronJobs Services.Auth Api.Accounts Machine Changes

/-- What `issue_access_token` has put in a token, and the account it was issued to. -/
structure Genuine (w : World) (i : Issue) : Prop where
  sub : i.payload.sub = i.account.id
  iat : i.payload.iat = seconds i.time
  type : i.payload.type = accessTokenType
  jti : i.payload.jti ≠ []
  past : i.time ≤ w.clock
  generation : i.account.generation ≤ (accountOf w.events i.account.id).generation

structure Issued (w : World) : Prop where
  genuine : ∀ k i, w.issued.get? k = some i → Genuine w i
  unique : ∀ k k' i i', w.issued.get? k = some i → w.issued.get? k' = some i' →
    i.payload.jti = i'.payload.jti → k = k'

def Owned (w : World) : Prop :=
  ∀ k i, w.issued.get? k = some i → .deleted i.account ∈ w.events ∨
    i.account = accountOf w.events i.account.id ∧ (w.db.users.get? i.account.id).isSome

/-- A row keeps a token out until the token has expired. -/
def Recorded (w : World) (i : Issue) : Prop :=
  (∃ j row, w.db.revokedTokens.get? j = some row ∧ row.jti = i.payload.jti ∧
    row.expiresAt = ensureUtc i.payload.exp) ∨ ensureUtc i.payload.exp ≤ w.clock

structure LoggedOut (w : World) : Prop where
  recorded : ∀ k, .loggedOut k ∈ w.events → ∃ i, w.issued.get? k = some i ∧ Recorded w i
  happened : ∀ k i, w.issued.get? k = some i → w.db.isRevoked i.payload.jti →
    .loggedOut k ∈ w.events

/-- The threshold of an account is the last of the moments its sessions were ended. -/
structure Thresholds (w : World) : Prop where
  stored : ∀ id user, w.db.users.get? id = some user →
    ∀ t, .revokedAll (accountOf w.events id) t ∈ w.events →
    ∃ threshold, user.tokensInvalidBefore = some threshold ∧ t ≤ threshold
  happened : ∀ id user, w.db.users.get? id = some user → ∀ t, user.tokensInvalidBefore = some t →
    .revokedAll (accountOf w.events id) t ∈ w.events
  past : ∀ account t, .revokedAll account t ∈ w.events →
    t ≤ w.clock ∧ account.generation ≤ (accountOf w.events account.id).generation

/-- The invariant of the runs of the panel. -/
structure Consistent (w : World) : Prop where
  issued : Issued w
  owned : Owned w
  loggedOut : LoggedOut w
  thresholds : Thresholds w

section History

variable {events : List Event} {id : ℕ}

theorem accountOf_cons {e : Event} (h : e ≠ .created id) :
    accountOf (e :: events) id = accountOf events id := by
  rw [accountOf, List.count_cons_of_ne h]
  rfl

@[simp] theorem accountOf_deleted {account : Account} :
    accountOf (.deleted account :: events) id = accountOf events id := accountOf_cons nofun

@[simp] theorem accountOf_loggedOut {k : ℕ} :
    accountOf (.loggedOut k :: events) id = accountOf events id :=
  accountOf_cons nofun

@[simp] theorem accountOf_revokedAll {account : Account} {t : Instant} :
    accountOf (.revokedAll account t :: events) id = accountOf events id := accountOf_cons nofun

theorem accountOf_created_self :
    accountOf (.created id :: events) id = ⟨id, (accountOf events id).generation + 1⟩ := by
  rw [accountOf, List.count_cons_self]
  rfl

theorem generation_le (e : Event) :
    (accountOf events id).generation ≤ (accountOf (e :: events) id).generation :=
      List.count_le_count_cons

end History

section Frames

variable {w w' : World}

theorem Genuine.later {i : Issue} (h : Genuine w i) (hclock : w.clock ≤ w'.clock)
    (hgeneration : ∀ id, (accountOf w.events id).generation ≤ (accountOf w'.events id).generation) :
    Genuine w' i :=
  { h with past := h.past.trans hclock, generation := h.generation.trans (hgeneration _) }

theorem Issued.later (h : Issued w) (hclock : w.clock ≤ w'.clock) (hissued : w'.issued = w.issued)
    (hgeneration : ∀ id, (accountOf w.events id).generation ≤ (accountOf w'.events id).generation) :
    Issued w' := by
  refine ⟨fun k i hk ↦ ?_, ?_⟩
  · exact (h.genuine k i (hissued ▸ hk)).later hclock hgeneration
  · rw [hissued]
    exact h.unique

theorem Owned.frame (h : Owned w) (hissued : w'.issued = w.issued)
    (hevents : ∀ e ∈ w.events, e ∈ w'.events)
    (haccount : ∀ id, accountOf w'.events id = accountOf w.events id)
    (husers : ∀ id, (w.db.users.get? id).isSome → (w'.db.users.get? id).isSome) : Owned w' := by
  intro k i hk
  rw [hissued] at hk
  rw [haccount]
  exact (h k i hk).imp (hevents _) fun ⟨hcurrent, hrow⟩ ↦ ⟨hcurrent, husers _ hrow⟩

theorem Recorded.frame {i : Issue} (h : Recorded w i) (hclock : w.clock ≤ w'.clock)
    (hrows : ∀ j row, w.db.revokedTokens.get? j = some row →
      w'.db.revokedTokens.get? j = some row ∨ row.expiresAt ≤ w'.clock) : Recorded w' i := by
  rcases h with ⟨j, row, hrow, hjti, hexp⟩ | hexp
  · rcases hrows j row hrow with hrow | hle
    · exact .inl ⟨j, row, hrow, hjti, hexp⟩
    · exact .inr (hexp ▸ hle)
  · exact .inr (hexp.trans hclock)

theorem LoggedOut.frame (h : LoggedOut w) (hclock : w.clock ≤ w'.clock)
    (hissued : w'.issued = w.issued)
    (hevents : ∀ k, .loggedOut k ∈ w'.events ↔ .loggedOut k ∈ w.events)
    (hrows : ∀ j row, w.db.revokedTokens.get? j = some row →
      w'.db.revokedTokens.get? j = some row ∨ row.expiresAt ≤ w'.clock)
    (hrevoked : ∀ jti, w'.db.isRevoked jti → w.db.isRevoked jti) : LoggedOut w' := by
  constructor
  · intro k hk
    obtain ⟨i, hi, hrecorded⟩ := h.recorded k ((hevents k).mp hk)
    exact ⟨i, hissued ▸ hi, hrecorded.frame hclock hrows⟩
  · intro k i hk hi
    rw [hissued] at hk
    exact (hevents k).mpr (h.happened k i hk (hrevoked _ hi))

theorem isRevoked_congr {db db' : Database} (h : db'.revokedTokens = db.revokedTokens)
    (jti : Text) :
    db'.isRevoked jti = db.isRevoked jti := by
  rw [Database.isRevoked, Database.isRevoked, h]

theorem LoggedOut.of_revokedTokens (h : LoggedOut w) (hclock : w.clock ≤ w'.clock)
    (hissued : w'.issued = w.issued)
    (hevents : ∀ k, .loggedOut k ∈ w'.events ↔ .loggedOut k ∈ w.events)
    (hrevoked : w'.db.revokedTokens = w.db.revokedTokens) : LoggedOut w' :=
  h.frame hclock hissued hevents (fun _ _ hrow ↦ .inl (hrevoked ▸ hrow)) fun jti hj ↦
    isRevoked_congr hrevoked jti ▸ hj

theorem Thresholds.frame (h : Thresholds w) (hclock : w.clock ≤ w'.clock)
    (hevents : ∀ account t, .revokedAll account t ∈ w'.events ↔ .revokedAll account t ∈ w.events)
    (haccount : ∀ id, accountOf w'.events id = accountOf w.events id)
    (husers : ∀ id user', w'.db.users.get? id = some user' →
      ∃ user, w.db.users.get? id = some user ∧
        user'.tokensInvalidBefore = user.tokensInvalidBefore) :
    Thresholds w' := by
  constructor
  · intro id user' hu t ht
    obtain ⟨user, hget, hsame⟩ := husers id user' hu
    rw [hsame]
    exact h.stored id user hget t ((hevents _ _).mp (haccount id ▸ ht))
  · intro id user' hu t ht
    obtain ⟨user, hget, hsame⟩ := husers id user' hu
    rw [haccount]
    exact (hevents _ _).mpr (h.happened id user hget t (hsame ▸ ht))
  · intro account t ht
    obtain ⟨hle, hgeneration⟩ := h.past account t ((hevents _ _).mp ht)
    exact ⟨hle.trans hclock, haccount _ ▸ hgeneration⟩

end Frames

section Changes

variable {w : World} {db : Database}

theorem Consistent.tick (h : Consistent w) {now : Instant} (hnow : w.clock ≤ now) :
    Consistent { w with clock := now } where
  issued := h.issued.later hnow rfl fun _ ↦ le_rfl
  owned := h.owned
  loggedOut := h.loggedOut.of_revokedTokens hnow rfl (fun _ ↦ Iff.rfl) rfl
  thresholds := h.thresholds.frame hnow (fun _ _ ↦ Iff.rfl)
    (fun _ ↦ rfl) fun _ user hu ↦ ⟨user, hu, rfl⟩

theorem Consistent.quiet (h : Consistent w) (husers : SameThresholds w.db db)
    (hrevoked : db.revokedTokens = w.db.revokedTokens) : Consistent { w with db } where
  issued := h.issued.later le_rfl rfl fun _ ↦ le_rfl
  owned := h.owned.frame rfl (fun _ he ↦ he) (fun _ ↦ rfl) fun id hid ↦ (husers.isSome id).trans hid
  loggedOut := h.loggedOut.of_revokedTokens le_rfl rfl (fun _ ↦ Iff.rfl) hrevoked
  thresholds := h.thresholds.frame le_rfl (fun _ _ ↦ Iff.rfl)
    (fun _ ↦ rfl) fun _ _ hu ↦ husers.get? hu

theorem purge_rows {tokens : Table ℕ RevokedToken} {now : Instant} {j : ℕ} {row : RevokedToken}
    (h : tokens.get? j = some row) :
    (tokens.filter fun token ↦ !decide (token.expiresAt < now)).get? j = some row ∨
      row.expiresAt ≤ now := by
  rw [Table.get?_filter, h]
  by_cases hlt : row.expiresAt < now
  · exact .inr hlt.le
  · exact .inl (by simp [hlt])

theorem filter_rows {tokens : Table ℕ RevokedToken} {p : RevokedToken → Bool} {j : ℕ}
    {row : RevokedToken}
    (h : (tokens.filter p).get? j = some row) : tokens.get? j = some row := by
  rw [Table.get?_filter] at h
  exact (Option.filter_eq_some_iff.mp h).1

theorem Consistent.purge (h : Consistent w) :
    Consistent { w with db := w.db.purgeExpired w.clock } where
  issued := h.issued.later le_rfl rfl fun _ ↦ le_rfl
  owned := h.owned
  loggedOut := by
    refine h.loggedOut.frame le_rfl rfl (fun _ ↦ Iff.rfl)
      (fun _ _ hrow ↦ purge_rows hrow) fun jti hj ↦ ?_
    obtain ⟨j, row, hrow, rfl⟩ := Database.isRevoked_iff.mp hj
    exact Database.isRevoked_iff.mpr ⟨j, row, filter_rows hrow, rfl⟩
  thresholds := h.thresholds.frame le_rfl (fun _ _ ↦ Iff.rfl)
    (fun _ ↦ rfl) fun _ user hu ↦ ⟨user, hu, rfl⟩

theorem Consistent.logout (h : Consistent w) {k : ℕ} {i : Issue} {row : RevokedToken}
    (hk : w.issued.get? k = some i) (hjti : row.jti = i.payload.jti)
    (hexp : row.expiresAt = ensureUtc i.payload.exp) (husers : db.users = w.db.users)
    (hrevoked : db.revokedTokens = (w.db.revokedTokens.insert row).2.filter
      fun token ↦ !decide (token.expiresAt < w.clock)) :
    Consistent { w with db, events := .loggedOut k :: w.events } where
  issued := h.issued.later le_rfl rfl fun id ↦ generation_le _
  owned := h.owned.frame rfl (fun _ ↦ List.mem_cons_of_mem _) (fun _ ↦ accountOf_loggedOut)
    fun id hid ↦ husers ▸ hid
  loggedOut := by
    have hinsert (j : ℕ) : (w.db.revokedTokens.insert row).2.get? j =
        if j = w.db.revokedTokens.nextId then some row else w.db.revokedTokens.get? j :=
          Table.get?_set ..
    have hrows : ∀ j r, (w.db.revokedTokens.insert row).2.get? j = some r →
        db.revokedTokens.get? j = some r ∨ r.expiresAt ≤ w.clock := by
      rw [hrevoked]
      exact fun _ _ ↦ purge_rows
    constructor
    · intro j hj
      rcases List.mem_cons.mp hj with hj | hj
      · cases hj
        refine ⟨i, hk, ?_⟩
        rcases hrows w.db.revokedTokens.nextId row (by rw [hinsert, if_pos rfl]) with hr | hle
        · exact .inl ⟨_, row, hr, hjti, hexp⟩
        · exact .inr (hexp ▸ hle)
      · obtain ⟨l, hl, hrecorded⟩ := h.loggedOut.recorded j hj
        refine ⟨l, hl, hrecorded.frame le_rfl fun m r hr ↦ hrows m r ?_⟩
        rw [hinsert, if_neg (Table.lt_nextId hr).ne, hr]
    · intro j l hj hl
      obtain ⟨m, r, hr, hjtir⟩ := Database.isRevoked_iff.mp hl
      rw [hrevoked] at hr
      have hr := filter_rows hr
      rw [hinsert] at hr
      split_ifs at hr
      · cases hr
        have hsame : k = j := h.issued.unique k j i l hk hj (hjti.symm.trans hjtir)
        exact hsame ▸ List.mem_cons_self
      · exact List.mem_cons_of_mem _
          (h.loggedOut.happened j l hj (Database.isRevoked_iff.mpr ⟨m, r, hr, hjtir⟩))
  thresholds := by
    refine h.thresholds.frame le_rfl (fun _ _ ↦ ?_) (fun _ ↦ accountOf_loggedOut) fun _ user hu ↦
      ⟨user, husers ▸ hu, rfl⟩
    exact List.mem_cons.trans (or_iff_right nofun)

theorem Consistent.issue {settings : Settings} (h : Consistent w) {id : ℕ} {user : User}
    {jti : Text}
    (hfresh : FreshJti w jti) (husers : SameThresholds w.db db)
    (hrevoked : db.revokedTokens = w.db.revokedTokens) (huser : w.db.users.get? id = some user) :
    Consistent { w with
      db
      issued := (w.issued.insert
        ⟨issueAccessToken settings w.clock jti id user, w.clock, accountOf w.events id⟩).2 } where
  issued := by
    obtain ⟨hne, -, hnew⟩ := hfresh
    have hother : ∀ k i, w.issued.get? k = some i → i.payload.jti ≠ jti :=
      fun k i hk ↦ hnew (k, i) (Table.mem_rows.mpr hk)
    constructor
    · refine Table.forall_set ⟨rfl, rfl, rfl, hne, le_rfl, le_rfl⟩ fun k i _ hk ↦ ?_
      exact (h.issued.genuine k i hk).later le_rfl fun _ ↦ le_rfl
    · intro k k' i i' hk hk' hjti
      dsimp only at hk hk'
      rw [Table.insert, Table.get?_set] at hk hk'
      split_ifs at hk hk' with he he'
      · exact he.trans he'.symm
      · cases hk
        exact absurd hjti.symm (hother k' i' hk')
      · cases hk'
        exact absurd hjti (hother k i hk)
      · exact h.issued.unique k k' i i' hk hk' hjti
  owned := by
    refine Table.forall_set (.inr ⟨rfl, ?_⟩) fun k i _ hk ↦ ?_
    · rw [husers.isSome, show (accountOf w.events id).id = id from rfl, huser, Option.isSome_some]
    · rw [husers.isSome]
      exact h.owned k i hk
  loggedOut := by
    have hold {k : ℕ} {i : Issue} (hk : w.issued.get? k = some i) (l : Issue) :
        (w.issued.insert l).2.get? k = some i := by
      rw [Table.insert, Table.get?_set_ne _ _ (Table.lt_nextId hk).ne, hk]
    constructor
    · intro k hk
      obtain ⟨i, hi, hrecorded⟩ := h.loggedOut.recorded k hk
      exact ⟨i, hold hi _, hrecorded.frame le_rfl fun _ _ hrow ↦ .inl (hrevoked ▸ hrow)⟩
    · refine Table.forall_set (fun hr ↦ ?_) fun k i _ hk hr ↦ ?_
      · exact absurd (isRevoked_congr hrevoked jti ▸ hr) hfresh.2.1
      · exact h.loggedOut.happened k i hk (isRevoked_congr hrevoked _ ▸ hr)
  thresholds := h.thresholds.frame le_rfl (fun _ _ ↦ Iff.rfl)
    (fun _ ↦ rfl) fun _ _ hu ↦ husers.get? hu

theorem Consistent.revokeAll (h : Consistent w) {id : ℕ} {new : User}
    (husers : db.users = w.db.users.set id new)
    (hnew : new.tokensInvalidBefore = some w.clock)
    (hrevoked : db.revokedTokens = w.db.revokedTokens) :
    Consistent { w with db, events := .revokedAll (accountOf w.events id) w.clock ::
      w.events } where
  issued := h.issued.later le_rfl rfl fun _ ↦ generation_le _
  owned := by
    refine h.owned.frame rfl (fun _ ↦ List.mem_cons_of_mem _)
      (fun _ ↦ accountOf_revokedAll) fun j hj ↦ ?_
    rw [husers, Table.get?_set]
    split_ifs
    · rfl
    · exact hj
  loggedOut := by
    refine h.loggedOut.of_revokedTokens le_rfl rfl (fun _ ↦ ?_) hrevoked
    exact List.mem_cons.trans (or_iff_right nofun)
  thresholds := by
    have haccount (j : ℕ) : accountOf (.revokedAll (accountOf w.events id) w.clock :: w.events) j =
        accountOf w.events j := accountOf_revokedAll
    constructor
    · rw [husers]
      refine fun j user hu t ht ↦ ?_
      rw [haccount] at ht
      rw [Table.get?_set] at hu
      split_ifs at hu with he
      · cases hu
        refine ⟨w.clock, hnew, ?_⟩
        rcases List.mem_cons.mp ht with ht | ht
        · cases ht
          exact le_rfl
        · exact (h.thresholds.past _ t ht).1
      · refine h.thresholds.stored j user hu t (List.mem_of_ne_of_mem ?_ ht)
        exact fun heq ↦ he (congrArg Account.id (Event.revokedAll.inj heq).1)
    · rw [husers]
      refine fun j user hu t ht ↦ ?_
      rw [haccount]
      rw [Table.get?_set] at hu
      split_ifs at hu with he
      · cases hu
        cases hnew.symm.trans ht
        exact he ▸ List.mem_cons_self
      · exact List.mem_cons_of_mem _ (h.thresholds.happened j user hu t ht)
    · intro account t ht
      rw [haccount]
      rcases List.mem_cons.mp ht with ht | ht
      · cases ht
        exact ⟨le_rfl, le_rfl⟩
      · exact h.thresholds.past account t ht

theorem Consistent.create (h : Consistent w) {user : User}
    (husers : db.users = w.db.users.set w.db.users.nextId user)
    (hnone : user.tokensInvalidBefore = none)
    (hrevoked : db.revokedTokens = w.db.revokedTokens) :
    Consistent { w with db, events := .created w.db.users.nextId :: w.events } where
  issued := h.issued.later le_rfl rfl fun _ ↦ generation_le _
  owned := by
    intro k i hk
    refine (h.owned k i hk).imp (List.mem_cons_of_mem _) fun ⟨hcurrent, hrow⟩ ↦ ?_
    have hne : i.account.id ≠ w.db.users.nextId := by
      intro he
      rw [he, Table.get?_nextId] at hrow
      cases hrow
    refine ⟨hcurrent.trans (accountOf_cons fun he ↦ hne (Event.created.inj he).symm).symm, ?_⟩
    rw [husers, Table.get?_set_ne _ _ hne]
    exact hrow
  loggedOut := by
    refine h.loggedOut.of_revokedTokens le_rfl rfl (fun _ ↦ ?_) hrevoked
    exact List.mem_cons.trans (or_iff_right nofun)
  thresholds := by
    have hrevokedAll {account : Account} {t : Instant}
        (ht : Event.revokedAll account t ∈ .created w.db.users.nextId :: w.events) :
        .revokedAll account t ∈ w.events := List.mem_of_ne_of_mem (fun he ↦ by cases he) ht
    have haccount {j : ℕ} (hj : j ≠ w.db.users.nextId) :
        accountOf (.created w.db.users.nextId :: w.events) j = accountOf w.events j :=
      accountOf_cons fun he ↦ hj (Event.created.inj he).symm
    constructor
    · rw [husers]
      refine Table.forall_set (fun t ht ↦ ?_) fun j user' hj hu t ht ↦ ?_
      · obtain ⟨-, hle⟩ := h.thresholds.past _ t (hrevokedAll ht)
        rw [accountOf_created_self] at hle
        exact absurd hle (Nat.not_succ_le_self _)
      · exact h.thresholds.stored j user' hu t (haccount hj ▸ hrevokedAll ht)
    · rw [husers]
      refine Table.forall_set (fun t ht ↦ ?_) fun j user' hj hu t ht ↦ ?_
      · cases hnone.symm.trans ht
      · exact List.mem_cons_of_mem _ (haccount hj ▸ h.thresholds.happened j user' hu t ht)
    · intro account t ht
      obtain ⟨hle, hgeneration⟩ := h.thresholds.past account t (hrevokedAll ht)
      exact ⟨hle, hgeneration.trans (generation_le _)⟩

theorem Consistent.delete (h : Consistent w) {id : ℕ} (husers : db.users = w.db.users.erase id)
    (hrevoked : db.revokedTokens = w.db.revokedTokens) :
    Consistent { w with db, events := .deleted (accountOf w.events id) :: w.events } where
  issued := h.issued.later le_rfl rfl fun _ ↦ generation_le _
  owned := by
    intro k i hk
    rcases h.owned k i hk with hdeleted | ⟨hcurrent, hrow⟩
    · exact .inl (List.mem_cons_of_mem _ hdeleted)
    · by_cases he : i.account.id = id
      · left
        rw [hcurrent, he]
        exact List.mem_cons_self
      · refine .inr ⟨hcurrent.trans accountOf_deleted.symm, ?_⟩
        rw [husers, Table.get?_erase, if_neg he]
        exact hrow
  loggedOut := by
    refine h.loggedOut.of_revokedTokens le_rfl rfl (fun _ ↦ ?_) hrevoked
    exact List.mem_cons.trans (or_iff_right nofun)
  thresholds := by
    refine h.thresholds.frame le_rfl (fun _ _ ↦ List.mem_cons.trans (or_iff_right nofun))
      (fun _ ↦ accountOf_deleted) ?_
    rw [husers]
    exact Table.forall_erase fun _ user _ hu ↦ ⟨user, hu, rfl⟩

theorem Consistent.change {settings : Settings} {w' : World} (h : Consistent w)
    (hc : Change settings w w') :
    Consistent w' := by
  cases hc with
  | quiet db husers hrevoked => exact h.quiet husers hrevoked
  | purge => exact h.purge
  | issue db id user jti hfresh husers hrevoked huser => exact h.issue hfresh husers hrevoked huser
  | logout db k i row hk hjti hexp husers hrevoked => exact h.logout hk hjti hexp husers hrevoked
  | revokeAll db id old new hold husers hnew hrevoked => exact h.revokeAll husers hnew hrevoked
  | create db user husers hactive hnone hrevoked => exact h.create husers hnone hrevoked
  | delete db id husers hrevoked => exact h.delete husers hrevoked

end Changes

section Tokens

variable {w : World} {k : ℕ} {i : Issue} {now : Instant} {actor : Actor}

theorem Consistent.notRevoked_iff (h : Consistent w) (hk : w.issued.get? k = some i)
    (hnow : w.clock ≤ now)
    (hexp : now < ensureUtc i.payload.exp) :
    (i.payload.jti ≠ [] → ¬w.db.isRevoked i.payload.jti) ↔ .loggedOut k ∉ w.events := by
  constructor
  · intro hnot hk'
    obtain ⟨i', hi', hrecorded⟩ := h.loggedOut.recorded k hk'
    obtain rfl := Option.some.inj (hk.symm.trans hi')
    rcases hrecorded with ⟨j, row, hrow, hjti, -⟩ | hle
    · exact hnot (h.issued.genuine k i hk).jti (Database.isRevoked_iff.mpr ⟨j, row, hrow, hjti⟩)
    · exact absurd hexp (not_lt.mpr (hle.trans hnow))
  · exact fun hnot _ hrevoked ↦ hnot (h.loggedOut.happened k i hk hrevoked)

theorem Consistent.threshold_iff (h : Consistent w) {id : ℕ} {user : User}
    (hu : w.db.users.get? id = some user) (s : Instant) :
    (∀ t, user.tokensInvalidBefore = some t → t ≤ s) ↔
      ∀ t, .revokedAll (accountOf w.events id) t ∈ w.events → t ≤ s := by
  constructor
  · intro hle t ht
    obtain ⟨threshold, hthreshold, hlt⟩ := h.thresholds.stored id user hu t ht
    exact hlt.trans (hle threshold hthreshold)
  · exact fun hle t ht ↦ hle t (h.thresholds.happened id user hu t ht)

/-- The tokens that are accepted, by what has happened to them and to the account that has
their id. -/
theorem Consistent.getCurrentUser_iff (h : Consistent w) (hk : w.issued.get? k = some i)
    (hnow : w.clock ≤ now) :
    getCurrentUser now i.payload w.db = .ok actor ↔
      now < ensureUtc i.payload.exp ∧ .loggedOut k ∉ w.events ∧ actor.id = i.account.id ∧
        w.db.users.get? i.account.id = some actor.user ∧ actor.user.isActive ∧
        ∀ t, .revokedAll (accountOf w.events i.account.id) t ∈ w.events →
          t ≤ ensureUtc (seconds i.time) := by
  have hg := h.issued.genuine k i hk
  rw [getCurrentUser_eq_ok, hg.sub, hg.iat]
  constructor
  · intro hx
    obtain ⟨⟨hexp, -, hnot⟩, hid, hu, hactive, hle⟩ := hx
    exact ⟨hexp, (h.notRevoked_iff hk hnow hexp).mp hnot, hid, hu, hactive,
      (h.threshold_iff hu _).mp hle⟩
  · intro hx
    obtain ⟨hexp, hnot, hid, hu, hactive, hle⟩ := hx
    exact ⟨⟨hexp, hg.type, (h.notRevoked_iff hk hnow hexp).mpr hnot⟩, hid, hu, hactive,
      (h.threshold_iff hu _).mpr hle⟩

end Tokens

section Runs

variable {bcrypt : Bcrypt} {settings : Settings} {w w' : World} {clock : Instant} {db : Database}

theorem step_change (h : Consistent w) {a : Action} (hs : step bcrypt settings w a = some w') :
    w.clock ≤ a.now ∧ Change settings { w with clock := a.now } w' := by
  unfold step at hs
  split_ifs at hs with hpossible
  cases hs
  refine ⟨hpossible.1, serve_change (fun k i hk ↦ (h.issued.genuine k i hk).jti) fun username password jti hr ↦ ?_⟩
  exact hpossible.2 username password jti hr

theorem Consistent.step (h : Consistent w) {a : Action} (hs : step bcrypt settings w a = some w') :
    Consistent w' :=
  (h.tick (step_change h hs).1).change (step_change h hs).2

theorem mem_begin {account : Account} {t : Instant} :
    .revokedAll account t ∈ (begin clock db).events ↔
      ∃ user, db.users.get? account.id = some user ∧ user.tokensInvalidBefore = some t ∧
        account.generation = 0 := by
  obtain ⟨id, generation⟩ := account
  simp only [begin, List.mem_filterMap, Option.map_eq_some_iff, Prod.exists, Table.mem_rows,
    Event.revokedAll.injEq, Account.mk.injEq]
  constructor
  · intro hx
    obtain ⟨id, user, hu, t, ht, ⟨rfl, rfl⟩, rfl⟩ := hx
    exact ⟨user, hu, ht, rfl⟩
  · intro hx
    obtain ⟨user, hu, ht, rfl⟩ := hx
    exact ⟨id, user, hu, t, ht, ⟨rfl, rfl⟩, rfl⟩

theorem consistent_begin (hpast : PastThresholds clock db) : Consistent (begin clock db) where
  issued := ⟨Table.forall_empty, fun _ _ _ _ hk ↦ (Option.some_ne_none _ hk.symm).elim⟩
  owned := Table.forall_empty
  loggedOut := by
    refine ⟨fun k hk ↦ ?_, Table.forall_empty⟩
    simp [begin, List.mem_filterMap] at hk
  thresholds := by
    have hcount (id : ℕ) : accountOf (begin clock db).events id = ⟨id, 0⟩ := by
      rw [accountOf, List.count_eq_zero.mpr]
      simp [begin, List.mem_filterMap]
    constructor
    · intro id user hu t ht
      obtain ⟨user', hu', ht', -⟩ := mem_begin.mp ht
      cases hu.symm.trans hu'
      exact ⟨t, ht', le_rfl⟩
    · intro id user hu t ht
      rw [hcount]
      exact mem_begin.mpr ⟨user, hu, ht, rfl⟩
    · intro account t ht
      obtain ⟨user, hu, hthreshold, hzero⟩ := mem_begin.mp ht
      exact ⟨hpast (account.id, user) (Table.mem_rows.mpr hu) t hthreshold, hzero ▸ Nat.zero_le _⟩

theorem consistent_always (hpast : PastThresholds clock db) (as : List Action) :
    Always (Machine.step bcrypt settings) Consistent (begin clock db) as :=
  always (fun _ _ _ hs h ↦ hs.step h) (consistent_begin hpast)

end Runs

end CronPanel.Sessions.Consistency
