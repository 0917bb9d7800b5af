import CronPanel.Core.RateLimit
import CronPanel.Library.Run
import CronPanel.Api.Accounts

namespace CronPanel.Access.LoginAttempts

open Library.Strings Library.Tables Library.Run Core.Security Core.RateLimit
open Data.Records Data.Repositories Services.Auth

structure LoginRequest where
  ipAddress : Option Text
  username : Text
  password : Text

/-- Where a request stands that `is_blocked` has let through. -/
inductive Stage
  | admitted
  | checked (found : Option (ℕ × User))

/-- The panel with the logins under way, and what has come of the credential checks so far:
under its key, the moment of each that failed and of each login that succeeded. -/
structure World where
  db : Database
  limiter : SlidingWindowRateLimiter
  requests : Table ℕ (LoginRequest × Stage)
  clock : ℕ
  failures : List (Text × ℕ)
  successes : List (Text × ℕ)

/-- The clock of the limiter moves on, or a login makes its next step; `now` is the time of
day, which the database stores. -/
inductive Action
  | tick (elapsed : ℕ)
  | isBlocked (request : LoginRequest)
  | authenticate (k : ℕ) (now : Instant)
  | settle (k : ℕ) (now : Instant)

variable (bcrypt : Bcrypt) (lower : Text → Text)

def LoginRequest.key (request : LoginRequest) : Text :=
  loginRateKey lower request.ipAddress request.username

def step (w : World) : Action → Option World
  | .tick elapsed => some { w with clock := w.clock + elapsed }
  | .isBlocked request =>
    match w.limiter.isBlocked (request.key lower) w.clock with
    | (true, limiter) =>
      some { w with limiter := (limiter.secondsUntilUnblocked (request.key lower) w.clock).2 }
    | (false, limiter) =>
      some { w with limiter, requests := (w.requests.insert (request, .admitted)).2 }
  | .authenticate k now =>
    match w.requests.get? k with
    | some (request, .admitted) =>
      let (db, found) :=
        authenticateUser bcrypt now request.ipAddress request.username request.password w.db
      some { w with
        db
        requests := w.requests.set k (request, .checked found)
        failures :=
          if found.isNone then w.failures ++ [(request.key lower, w.clock)] else w.failures }
    | _ => none
  | .settle k now =>
    match w.requests.get? k with
    | some (request, .checked none) =>
      some { w with
        limiter := w.limiter.registerFailure (request.key lower) w.clock
        requests := w.requests.erase k }
    | some (request, .checked (some (id, user))) =>
      some { w with
        db := { w.db with users := w.db.users.set id { user with lastLoginAt := some now, updatedAt := now } }
        limiter := w.limiter.resetKey (request.key lower)
        requests := w.requests.erase k
        successes := w.successes ++ [(request.key lower, w.clock)] }
    | _ => none

def begin (maxEvents windowSeconds : ℕ) (db : Database) (clock : ℕ) : World :=
  ⟨db, ⟨maxEvents, windowSeconds, fun _ ↦ []⟩, .empty, clock, [], []⟩

/-- The credential checks for a key that failed from one moment to another. -/
def failuresIn (w : World) (key : Text) (since til : ℕ) : ℕ :=
  w.failures.countP fun f ↦ f.1 = key && (since ≤ f.2 && f.2 ≤ til)

/-- In no window without a successful login do more checks for a key fail than are allowed. -/
def Bounded (w : World) : Prop :=
  ∀ key since, (∀ t, (key, t) ∈ w.successes → ¬(since ≤ t ∧ t ≤ since + w.limiter.window)) →
    failuresIn w key since (since + w.limiter.window) ≤ w.limiter.maxEvents

/-- The failures of a key that are in the window. -/
def recent (w : World) (key : Text) : ℕ :=
  (w.limiter.store key).countP fun timestamp ↦ w.clock ≤ timestamp + w.limiter.window

/-- The logins for a key that `is_blocked` has let through and that are not registered yet. -/
def underWay (w : World) (key : Text) : ℕ := w.requests.count fun r ↦ r.1.key lower = key

/-- `is_blocked` lets a login through although the failures in the window and the logins under
way may already come to as many as are allowed. -/
def Overcommitted (w : World) : Action → Prop
  | .isBlocked request => (w.limiter.isBlocked (request.key lower) w.clock).1 = false ∧
      w.limiter.maxEvents ≤ recent w (request.key lower) + underWay lower w (request.key lower)
  | _ => False

instance (w : World) : ∀ a, Decidable (Overcommitted lower w a)
  | .isBlocked request =>
    inferInstanceAs (Decidable ((w.limiter.isBlocked (request.key lower) w.clock).1 = false ∧
      w.limiter.maxEvents ≤ recent w (request.key lower) + underWay lower w (request.key lower)))
  | .tick _ | .authenticate _ _ | .settle _ _ => inferInstanceAs (Decidable False)

def hasFailed : Stage → Bool
  | .checked none => true
  | _ => false

@[simp] theorem hasFailed_admitted : hasFailed .admitted = false := rfl

@[simp] theorem hasFailed_none : hasFailed (.checked none) = true := rfl

@[simp] theorem hasFailed_some (found : ℕ × User) : hasFailed (.checked (some found)) = false := rfl

/-- The logins for a key whose check has failed and that are not registered yet. -/
def unregistered (w : World) (key : Text) : ℕ :=
  w.requests.count fun r ↦ r.1.key lower = key && hasFailed r.2

def Unbroken (w : World) (key : Text) (since : ℕ) : Prop :=
  ∀ t, (key, t) ∈ w.successes → ¬(since ≤ t ∧ t ≤ since + w.limiter.window)

/-- The invariant of the runs in which no login is let through too many. -/
structure Limited (w : World) : Prop where
  past : ∀ f ∈ w.failures, f.2 ≤ w.clock
  admitted : ∀ key, recent w key + underWay lower w key ≤ w.limiter.maxEvents
  counted : ∀ key since, w.clock ≤ since + w.limiter.window → Unbroken w key since →
    w.failures.countP (fun f ↦ f.1 = key && since ≤ f.2) ≤
      (w.limiter.store key).countP (fun timestamp ↦ since ≤ timestamp) + unregistered lower w key
  bounded : Bounded w

section Invariant

variable {bcrypt lower} {w w' : World}

theorem unregistered_le (lower : Text → Text) (w : World) (key : Text) :
    unregistered lower w key ≤ underWay lower w key := by
  apply List.countP_mono_left
  intro r _ h
  exact (Bool.and_eq_true_iff.mp h).1

theorem countP_none {key : Text} {since : ℕ} (hpast : ∀ f ∈ w.failures, f.2 ≤ w.clock)
    (h : w.clock < since) :
    w.failures.countP (fun f ↦ f.1 = key && since ≤ f.2) = 0 := by
  rw [List.countP_eq_zero]
  intro f hf
  have hle := hpast f hf
  rw [Bool.and_eq_true, decide_eq_true_eq, decide_eq_true_eq]
  omega

/-- The failures in a window that is not over yet are registered or under way. -/
theorem failuresIn_le (hadmitted : ∀ key, recent w key + underWay lower w key ≤ w.limiter.maxEvents)
    (hcounted : ∀ key since, w.clock ≤ since + w.limiter.window → Unbroken w key since →
      w.failures.countP (fun f ↦ f.1 = key && since ≤ f.2) ≤
        (w.limiter.store key).countP (fun timestamp ↦ since ≤ timestamp) + unregistered lower w key)
    {key : Text} {since : ℕ} (hopen : w.clock ≤ since + w.limiter.window)
    (hunbroken : Unbroken w key since) :
    failuresIn w key since (since + w.limiter.window) ≤ w.limiter.maxEvents := by
  have hall : failuresIn w key since (since + w.limiter.window) ≤
      w.failures.countP (fun f ↦ f.1 = key && since ≤ f.2) := by
    apply List.countP_mono_left
    intro f _ hf
    simp only [Bool.and_eq_true] at hf ⊢
    exact ⟨hf.1, hf.2.1⟩
  have hrecent :
      (w.limiter.store key).countP (fun timestamp ↦ since ≤ timestamp) ≤ recent w key := by
    apply List.countP_mono_left
    intro timestamp _ h
    simp only [decide_eq_true_eq] at h ⊢
    omega
  have hregistered := hcounted key since hopen hunbroken
  have hunder := unregistered_le lower w key
  have hmax := hadmitted key
  omega

theorem Limited.tick (h : Limited lower w) (elapsed : ℕ) :
    Limited lower { w with clock := w.clock + elapsed } where
  past f hf := (h.past f hf).trans (Nat.le_add_right _ _)
  admitted key := by
    have hrecent : recent { w with clock := w.clock + elapsed } key ≤ recent w key := by
      apply List.countP_mono_left
      intro timestamp _ ht
      simp only [decide_eq_true_eq] at ht ⊢
      omega
    exact (Nat.add_le_add_right hrecent _).trans (h.admitted key)
  counted key since hopen := h.counted key since ((Nat.le_add_right _ _).trans hopen)
  bounded := h.bounded

/-- A limiter that counts the same in every window that is not over. -/
structure SameWindows (w : World) (limiter : SlidingWindowRateLimiter) : Prop where
  maxEvents : limiter.maxEvents = w.limiter.maxEvents
  window : limiter.window = w.limiter.window
  counts : ∀ key (p : ℕ → Bool), (∀ t, p t → w.clock ≤ t + w.limiter.window) →
    (limiter.store key).countP p = (w.limiter.store key).countP p

theorem SameWindows.purge {limiter : SlidingWindowRateLimiter} (h : SameWindows w limiter)
    (key : Text) :
    SameWindows w (limiter.purge key w.clock) where
  maxEvents := h.maxEvents
  window := h.window
  counts other p hp :=
    (SlidingWindowRateLimiter.countP_purge fun t ht ↦ h.window ▸ hp t ht).trans
      (h.counts other p hp)

theorem sameWindows_purge (w : World) (key : Text) : SameWindows w (w.limiter.purge key w.clock) :=
  have hsame : SameWindows w w.limiter := ⟨rfl, rfl, fun _ _ _ ↦ rfl⟩
  hsame.purge key

theorem SameWindows.recent {limiter : SlidingWindowRateLimiter} (h : SameWindows w limiter)
    (key : Text) :
    recent { w with limiter } key = LoginAttempts.recent w key := by
  unfold LoginAttempts.recent
  dsimp only
  rw [h.window]
  apply h.counts key _
  intro t ht
  exact of_decide_eq_true ht

theorem Limited.sameWindows (h : Limited lower w) {limiter : SlidingWindowRateLimiter}
    (hs : SameWindows w limiter) :
    Limited lower { w with limiter } := by
  refine ⟨h.past, ?_, ?_, ?_⟩
  · intro key
    rw [hs.recent]
    exact hs.maxEvents ▸ h.admitted key
  · intro key since hopen hunbroken
    dsimp only [Unbroken] at hopen hunbroken
    rw [hs.window] at hopen hunbroken
    have hcounts := hs.counts key (fun timestamp ↦ since ≤ timestamp) fun t ht ↦ by
      have hle := of_decide_eq_true ht
      omega
    dsimp only
    rw [hcounts]
    exact h.counted key since hopen hunbroken
  · intro key since hunbroken
    dsimp only [failuresIn] at hunbroken ⊢
    rw [hs.window] at hunbroken ⊢
    rw [hs.maxEvents]
    exact h.bounded key since hunbroken

theorem Limited.admit (h : Limited lower w) {request : LoginRequest}
    (hroom : recent w (request.key lower) + underWay lower w (request.key lower) <
      w.limiter.maxEvents) :
    Limited lower { w with requests := (w.requests.insert (request, .admitted)).2 } where
  past := h.past
  admitted key := by
    have hadmitted := h.admitted key
    unfold underWay at hadmitted hroom ⊢
    dsimp only
    rw [Table.count_insert]
    split_ifs with hkey
    · rw [decide_eq_true_eq] at hkey
      rw [hkey] at hroom
      change recent w key + _ ≤ _
      omega
    · exact hadmitted
  counted key since hopen hunbroken := by
    have hcounted := h.counted key since hopen hunbroken
    unfold unregistered at hcounted ⊢
    dsimp only at hcounted ⊢
    rw [Table.count_insert, if_neg (by simp)]
    exact hcounted
  bounded := h.bounded

section Requests

variable {k : ℕ} {request : LoginRequest} {stage : Stage}

theorem underWay_set (hk : w.requests.get? k = some (request, stage)) (new : Stage) (key : Text) :
    (w.requests.set k (request, new)).count (fun r ↦ r.1.key lower = key) =
      underWay lower w key := by
  have hset := Table.count_set hk (fun r ↦ r.1.key lower = key) (request, new)
  unfold underWay
  dsimp only at hset
  omega

theorem underWay_erase (hk : w.requests.get? k = some (request, stage)) (key : Text) :
    underWay lower w key = (w.requests.erase k).count (fun r ↦ r.1.key lower = key) +
      if request.key lower = key then 1 else 0 := by
  have herase := Table.count_erase hk fun r ↦ r.1.key lower = key
  simpa [underWay] using herase

theorem unregistered_erase (hk : w.requests.get? k = some (request, stage)) (key : Text) :
    unregistered lower w key =
      (w.requests.erase k).count (fun r ↦ r.1.key lower = key && hasFailed r.2) +
        if request.key lower = key ∧ hasFailed stage then 1 else 0 := by
  have herase := Table.count_erase hk fun r ↦ r.1.key lower = key && hasFailed r.2
  simpa [unregistered] using herase

/-- A check that succeeds leaves every count as it is. -/
theorem Limited.pass (h : Limited lower w) (hk : w.requests.get? k = some (request, .admitted))
    (db : Database) (found : ℕ × User) :
    Limited lower { w with db, requests := w.requests.set k (request, .checked (some found)) } := by
  have hunregistered (key : Text) : (w.requests.set k (request, .checked (some found))).count
      (fun r ↦ r.1.key lower = key && hasFailed r.2) = unregistered lower w key := by
    have hset := Table.count_set hk (fun r ↦ r.1.key lower = key && hasFailed r.2)
      (request, .checked (some found))
    simpa [unregistered] using hset
  refine ⟨h.past, ?_, ?_, h.bounded⟩
  · intro key
    have hadmitted := h.admitted key
    rw [← underWay_set hk (.checked (some found))] at hadmitted
    exact hadmitted
  · intro key since hopen hunbroken
    unfold unregistered
    dsimp only
    rw [hunregistered]
    exact h.counted key since hopen hunbroken

/-- A check that fails is a failure more, and one that is not registered yet. -/
theorem Limited.fail (h : Limited lower w) (hk : w.requests.get? k = some (request, .admitted))
    (db : Database) :
    Limited lower { w with
      db
      requests := w.requests.set k (request, .checked none)
      failures := w.failures ++ [(request.key lower, w.clock)] } := by
  have hunregistered (key : Text) : (w.requests.set k (request, .checked none)).count
      (fun r ↦ r.1.key lower = key && hasFailed r.2) =
        unregistered lower w key + if request.key lower = key then 1 else 0 := by
    have hset := Table.count_set hk (fun r ↦ r.1.key lower = key && hasFailed r.2)
      (request, .checked none)
    simpa [unregistered] using hset
  have hpast : ∀ f ∈ w.failures ++ [(request.key lower, w.clock)], f.2 ≤ w.clock := by
    intro f hf
    rcases List.mem_append.mp hf with hf | hf
    · exact h.past f hf
    · rw [List.mem_singleton.mp hf]
  have hadmitted (key : Text) : recent w key + (w.requests.set k (request, .checked none)).count
      (fun r ↦ r.1.key lower = key) ≤ w.limiter.maxEvents := by
    rw [underWay_set hk]
    exact h.admitted key
  have hcounted (key : Text) (since : ℕ) (hopen : w.clock ≤ since + w.limiter.window)
      (hunbroken : Unbroken w key since) :
      (w.failures ++ [(request.key lower, w.clock)]).countP (fun f ↦ f.1 = key && since ≤ f.2) ≤
        (w.limiter.store key).countP (fun timestamp ↦ since ≤ timestamp) +
          (w.requests.set k (request, .checked none)).count
            (fun r ↦ r.1.key lower = key && hasFailed r.2) := by
    have hold := h.counted key since hopen hunbroken
    have hnew : [(request.key lower, w.clock)].countP (fun f ↦ f.1 = key && since ≤ f.2) ≤
        if request.key lower = key then 1 else 0 := by
      rw [List.countP_singleton]
      split_ifs with hin hkey hkey
      · exact le_rfl
      · rw [Bool.and_eq_true, decide_eq_true_eq] at hin
        exact absurd hin.1 hkey
      · exact Nat.zero_le 1
      · exact le_rfl
    rw [List.countP_append, hunregistered]
    omega
  refine ⟨hpast, hadmitted, hcounted, ?_⟩
  intro key since hunbroken
  by_cases hopen : w.clock ≤ since + w.limiter.window
  · exact failuresIn_le hadmitted hcounted hopen hunbroken
  · have hsame :
        failuresIn { w with failures := w.failures ++ [(request.key lower, w.clock)] } key since
          (since + w.limiter.window) = failuresIn w key since (since + w.limiter.window) := by
      unfold failuresIn
      dsimp only
      rw [List.countP_append, List.countP_singleton, if_neg (by simp [hopen])]
      rfl
    exact hsame.trans_le (h.bounded key since hunbroken)

theorem Limited.register (h : Limited lower w)
    (hk : w.requests.get? k = some (request, .checked none)) :
    Limited lower { w with
      limiter := w.limiter.registerFailure (request.key lower) w.clock
      requests := w.requests.erase k } := by
  have hstore (key : Text) (p : ℕ → Bool) :
      ((w.limiter.registerFailure (request.key lower) w.clock).store key).countP p =
        (w.limiter.store key).countP p + if request.key lower = key ∧ p w.clock then 1 else 0 := by
    rw [SlidingWindowRateLimiter.registerFailure_store]
    by_cases hkey : key = request.key lower
    · rw [if_pos hkey, List.countP_append, List.countP_singleton, hkey]
      simp only [true_and]
    · rw [if_neg hkey, if_neg fun hboth ↦ hkey hboth.1.symm, Nat.add_zero]
  refine ⟨h.past, ?_, ?_, h.bounded⟩
  · intro key
    have hadmitted := h.admitted key
    have hrecent := hstore key fun timestamp ↦ w.clock ≤ timestamp + w.limiter.window
    rw [underWay_erase hk, recent] at hadmitted
    simp only [Nat.le_add_right, decide_true, and_true] at hrecent
    have hmoved : ((w.limiter.registerFailure (request.key lower) w.clock).store key).countP
        (fun timestamp ↦ w.clock ≤ timestamp + w.limiter.window) +
          (w.requests.erase k).count (fun r ↦ r.1.key lower = key) ≤ w.limiter.maxEvents := by omega
    exact hmoved
  · intro key since hopen hunbroken
    have hcounted := h.counted key since hopen hunbroken
    have hregistered := hstore key fun timestamp ↦ since ≤ timestamp
    rw [unregistered_erase hk] at hcounted
    simp only [hasFailed_none, and_true] at hcounted
    by_cases hsince : since ≤ w.clock
    · simp only [hsince, decide_true, and_true] at hregistered
      exact hcounted.trans (by unfold unregistered; dsimp only; omega)
    · exact (countP_none h.past (not_le.mp hsince)).trans_le (Nat.zero_le _)

theorem Limited.reset (h : Limited lower w) {found : ℕ × User}
    (hk : w.requests.get? k = some (request, .checked (some found))) (db : Database) :
    Limited lower { w with
      db
      limiter := w.limiter.resetKey (request.key lower)
      requests := w.requests.erase k
      successes := w.successes ++ [(request.key lower, w.clock)] } := by
  have hunder (key : Text) :
      (w.requests.erase k).count (fun r ↦ r.1.key lower = key) ≤ underWay lower w key := by
    rw [underWay_erase hk]
    exact Nat.le_add_right _ _
  have hunregistered (key : Text) : unregistered lower w key =
      (w.requests.erase k).count (fun r ↦ r.1.key lower = key && hasFailed r.2) := by
    rw [unregistered_erase hk]
    simp only [hasFailed_some, Bool.false_eq_true, and_false, if_false, Nat.add_zero]
  have hstore (key : Text) (p : ℕ → Bool) :
      ((w.limiter.resetKey (request.key lower)).store key).countP p =
      if key = request.key lower then 0 else (w.limiter.store key).countP p := by
    rw [SlidingWindowRateLimiter.resetKey_store]
    split_ifs <;> rfl
  have hold (key : Text) (since : ℕ)
      (hunbroken : ∀ t, (key, t) ∈ w.successes ++ [(request.key lower, w.clock)] →
        ¬(since ≤ t ∧ t ≤ since + w.limiter.window)) : Unbroken w key since :=
    fun t ht ↦ hunbroken t (List.mem_append_left _ ht)
  refine ⟨h.past, ?_, ?_, ?_⟩
  · intro key
    have hrecent : ((w.limiter.resetKey (request.key lower)).store key).countP
        (fun timestamp ↦ w.clock ≤ timestamp + w.limiter.window) ≤ recent w key := by
      rw [hstore]
      split_ifs
      · exact Nat.zero_le _
      · exact le_rfl
    exact (Nat.add_le_add hrecent (hunder key)).trans (h.admitted key)
  · intro key since hopen hunbroken
    have hcounted := h.counted key since hopen (hold key since hunbroken)
    unfold unregistered
    dsimp only
    rw [hstore, ← hunregistered]
    split_ifs with hkey
    · have hlate : w.clock < since := by
        have hout := hunbroken w.clock (by simp [hkey])
        by_contra hsince
        exact hout ⟨not_lt.mp hsince, hopen⟩
      rw [countP_none h.past hlate]
      exact Nat.zero_le _
    · exact hcounted
  · intro key since hunbroken
    exact h.bounded key since (hold key since hunbroken)

end Requests

theorem Limited.step {a : Action} (h : Limited lower w) (hno : ¬Overcommitted lower w a)
    (hstep : step bcrypt lower w a = some w') : Limited lower w' := by
  cases a with
  | tick elapsed =>
    cases hstep
    exact h.tick elapsed
  | isBlocked request =>
    have hpurge := sameWindows_purge w (request.key lower)
    dsimp only [LoginAttempts.step] at hstep
    split at hstep
    · rename_i limiter hblocked
      obtain rfl := congrArg Prod.snd hblocked
      cases hstep
      have hagain :
          SameWindows w ((w.limiter.purge (request.key lower) w.clock).secondsUntilUnblocked
          (request.key lower) w.clock).2 := by
        unfold SlidingWindowRateLimiter.secondsUntilUnblocked
        dsimp only
        split <;> exact hpurge.purge _
      exact h.sameWindows hagain
    · rename_i limiter hpassed
      obtain rfl := congrArg Prod.snd hpassed
      cases hstep
      have hroom := mt (fun hmax ↦ ⟨congrArg Prod.fst hpassed, hmax⟩) hno
      rw [not_le] at hroom
      have hwindow := h.sameWindows hpurge
      apply hwindow.admit
      rw [hpurge.recent]
      exact hroom
  | authenticate k now =>
    dsimp only [LoginAttempts.step] at hstep
    split at hstep
    · rename_i request hk
      cases hfound :
          authenticateUser bcrypt now request.ipAddress request.username request.password w.db with
      | mk db found =>
        rw [hfound] at hstep
        cases found with
        | none =>
          cases hstep
          exact h.fail hk db
        | some found =>
          cases hstep
          exact h.pass hk db found
    · cases hstep
  | settle k now =>
    dsimp only [LoginAttempts.step] at hstep
    split at hstep
    · rename_i request hk
      cases hstep
      exact h.register hk
    · rename_i request id user hk
      cases hstep
      exact h.reset hk _
    · cases hstep

end Invariant

variable {bcrypt lower}

/-- Logins for a key that do not overlap are never let through too many. -/
theorem not_overcommitted_alone {w : World} {request : LoginRequest}
    (h : underWay lower w (request.key lower) = 0) :
    ¬Overcommitted lower w (.isBlocked request) := by
  intro hover
  obtain ⟨hpassed, hmax⟩ := hover
  have hfew :
      ((w.limiter.purge (request.key lower) w.clock).store (request.key lower)).length <
      w.limiter.maxEvents :=
    not_le.mp (of_decide_eq_false hpassed)
  have hrecent : recent w (request.key lower) =
      ((w.limiter.purge (request.key lower) w.clock).store (request.key lower)).countP
        fun timestamp ↦ w.clock ≤ timestamp + w.limiter.window :=
    (SlidingWindowRateLimiter.countP_purge fun _ ht ↦ of_decide_eq_true ht).symm
  have hlength :=
      List.countP_le_length (p := fun timestamp ↦ w.clock ≤ timestamp + w.limiter.window)
    (l := (w.limiter.purge (request.key lower) w.clock).store (request.key lower))
  omega

/-- The steps of a login that nothing comes between are the route. -/
theorem login_alone {w : World} {k : ℕ} {request : LoginRequest}
    (hk : w.requests.get? k = some (request, .admitted)) (settings : Settings) (now : Instant)
    (jti : Text) :
    (exec (step bcrypt lower) w [.authenticate k now, .settle k now]).map World.db =
      some (Api.Accounts.login bcrypt settings now request.ipAddress jti request.username
        request.password w.db).1 := by
  unfold Api.Accounts.login
  cases hcheck :
      authenticateUser bcrypt now request.ipAddress request.username request.password w.db with
  | mk db found =>
    cases found <;> simp only [exec, step, hk, hcheck, Option.bind_some, Table.get?_set_self,
      Option.map_some]

theorem limited_begin (maxEvents windowSeconds : ℕ) (db : Database) (clock : ℕ) :
    Limited lower (begin maxEvents windowSeconds db clock) where
  past f hf := by cases hf
  admitted _ := Nat.zero_le maxEvents
  counted _ _ _ _ := le_rfl
  bounded _ _ _ := Nat.zero_le maxEvents

/-- The bound on the failed checks holds in every run in which no login is let through while
the failures in the window and the logins under way come to as many as are allowed. -/
theorem bounded_of_not_overcommitted (maxEvents windowSeconds : ℕ) (db : Database) (clock : ℕ)
    (as : List Action)
    (h : Guarded (step bcrypt lower) (fun w a ↦ ¬Overcommitted lower w a) (begin maxEvents windowSeconds db clock) as) :
    Always (step bcrypt lower) Bounded (begin maxEvents windowSeconds db clock) as :=
  always_mono (fun _ h ↦ h.bounded)
    (guarded_always (fun _ _ _ h hno hstep ↦ h.step hno hstep) (limited_begin maxEvents windowSeconds db clock) h)

section Sample

def guess : LoginRequest := ⟨none, "admin".toList, "guess".toList⟩

/-- Two guesses at once, both of which are let through before one of them is registered. -/
def twoGuesses : List Action :=
  [.isBlocked guess, .isBlocked guess, .authenticate 1 0, .authenticate 2 0]

def sampleBcrypt : Bcrypt := ⟨fun password salt ↦ .ok (salt ++ password), fun _ _ ↦ false⟩

theorem two_guesses_exceed_bound :
    ¬Always (step sampleBcrypt id) Bounded (begin 1 300 Database.seeded 0) twoGuesses := by
  intro h
  have hlast : (exec (step sampleBcrypt id) (begin 1 300 Database.seeded 0) twoGuesses).map (fun w ↦
      (w.successes, w.limiter.maxEvents, failuresIn w "unknown:admin".toList 0 (0 + w.limiter.window))) =
        some ([], 1, 2) := by decide
  obtain ⟨w, hw, hdata⟩ := Option.map_eq_some_iff.mp hlast
  obtain ⟨hsuccesses, hdata⟩ := Prod.mk.inj hdata
  obtain ⟨hmax, hfailures⟩ := Prod.mk.inj hdata
  have hbounded := h.last hw "unknown:admin".toList 0 (by simp [hsuccesses])
  omega

/-- A guess that is registered, one that is turned away, and one after the window. -/
def guessesInTurn : List Action :=
  [.isBlocked guess, .authenticate 1 0, .settle 1 0, .isBlocked guess, .tick 300000001,
    .isBlocked guess, .authenticate 1 0]

theorem bounded_of_guesses_in_turn :
    Always (step sampleBcrypt id) Bounded (begin 1 300 Database.seeded 0) guessesInTurn :=
  bounded_of_not_overcommitted 1 300 Database.seeded 0 guessesInTurn (by decide)

end Sample

end CronPanel.Access.LoginAttempts
