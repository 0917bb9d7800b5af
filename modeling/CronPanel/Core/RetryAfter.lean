import CronPanel.Core.SlidingWindow

namespace CronPanel.Core.RetryAfter

open Library.Strings Library.Windows SlidingWindow

/-- `is_blocked` and then `seconds_until_unblocked` at one moment, as a login asks them. -/
def asked (limiter : Limiter) (key : Text) (t : ℚ) : Bool × ℤ × Limiter :=
  let (blocked, limiter) := limiter.isBlocked key t
  (blocked, limiter.secondsUntilUnblocked key t)

/-- To one who is blocked at least a second is told, and after that time the key is free, whatever
else is done with the limiter, unless a failure of the key is registered. -/
def HonestAt (limiter : Limiter) (key : Text) (t : ℚ) : Prop :=
  (asked limiter key t).1 = true → 1 ≤ (asked limiter key t).2.1 ∧
    ∀ after : List Call, (∀ call ∈ after, call.action ≠ .registerFailure key) →
      (t :: (after.map Call.now ++ [t + (asked limiter key t).2.1])).Pairwise (· ≤ ·) →
        (((asked limiter key t).2.2.run after).isBlocked key (t + (asked limiter key t).2.1)).1 =
          false

/-- The whole seconds that a failure stays in the window. -/
def secondsLeft (windowSeconds t failure : ℚ) : ℤ := ⌊failure + windowSeconds - t⌋

/-- How many failures have more whole seconds left than the oldest of them. -/
def outlasting (windowSeconds t : ℚ) (failures : List ℚ) : ℕ :=
  match failures with
  | [] => 0
  | oldest :: _ => failures.countP fun failure ↦
      secondsLeft windowSeconds t oldest < secondsLeft windowSeconds t failure

section

variable {limiter : Limiter} {history : History} {key : Text} {t : ℚ} {calls : List Call}

theorem outlasting_le (windowSeconds t : ℚ) (failures : List ℚ) :
    outlasting windowSeconds t failures ≤ failures.length := by
  unfold outlasting
  split
  · exact Nat.zero_le _
  · exact List.countP_le_length

theorem asked_blocked (h : Tracks limiter history t) (key : Text) :
    (asked limiter key t).1 = decide (limiter.maxEvents ≤
      (recent (t - limiter.windowSeconds) (history key)).length) := by
  rw [recent, ← List.countP_eq_length_filter]
  exact h.isBlocked key

/-- What is asked changes nothing of what can still count. -/
theorem asked_tracks (h : Tracks limiter history t) (key : Text) :
    Tracks (asked limiter key t).2.2 history t ∧
      (asked limiter key t).2.2.maxEvents = limiter.maxEvents ∧
      (asked limiter key t).2.2.windowSeconds = limiter.windowSeconds := by
  have hblocked : Tracks (limiter.isBlocked key t).2 history t := (h.purge key).touch key
  have hnow : t ≤ Call.now ⟨t, .secondsUntilUnblocked key⟩ := le_rfl
  exact (hblocked.serve hnow).2

theorem asked_seconds (h : Tracks limiter history t) (key : Text) :
    Answer.seconds (asked limiter key t).2.1 =
      history.answer limiter.maxEvents limiter.windowSeconds ⟨t, .secondsUntilUnblocked key⟩ := by
  have hblocked : Tracks (limiter.isBlocked key t).2 history t := (h.purge key).touch key
  have hnow : t ≤ Call.now ⟨t, .secondsUntilUnblocked key⟩ := le_rfl
  exact (hblocked.serve hnow).1

theorem asked_seconds_nil (h : Tracks limiter history t)
    (hnil : recent (t - limiter.windowSeconds) (history key) = []) :
    (asked limiter key t).2.1 = 0 := by
  have hanswer := asked_seconds h key
  simp only [History.answer, hnil] at hanswer
  exact Answer.seconds.inj hanswer

/-- The time that is told is one second more than the oldest failure has left. -/
theorem asked_seconds_cons (h : Tracks limiter history t) {oldest : ℚ} {rest : List ℚ}
    (hcons : recent (t - limiter.windowSeconds) (history key) = oldest :: rest) :
    0 ≤ secondsLeft limiter.windowSeconds t oldest ∧
      (asked limiter key t).2.1 = secondsLeft limiter.windowSeconds t oldest + 1 := by
  have hlive : t - limiter.windowSeconds ≤ oldest := by
    have hmem : oldest ∈ recent (t - limiter.windowSeconds) (history key) :=
      hcons ▸ List.mem_cons_self
    exact of_decide_eq_true (List.mem_filter.mp hmem).2
  have hremaining : 0 ≤ oldest + limiter.windowSeconds - t := by linarith
  have hleft : 0 ≤ secondsLeft limiter.windowSeconds t oldest := Int.floor_nonneg.mpr hremaining
  have hanswer := asked_seconds h key
  simp only [History.answer, hcons] at hanswer
  have hvalue := Answer.seconds.inj hanswer
  refine ⟨hleft, hvalue.trans ?_⟩
  rw [truncate, if_pos hremaining]
  exact max_eq_right (by rw [secondsLeft] at hleft; omega)

/-- Those who are still in the window at that time outlast the oldest failure. -/
theorem recent_at_told {windowSeconds oldest : ℚ} (ts : List ℚ) {s : ℤ} (hs : 0 ≤ s)
    (htold : s = secondsLeft windowSeconds t oldest + 1) :
    (recent (t + s - windowSeconds) ts).length =
      (recent (t - windowSeconds) ts).countP fun failure ↦
        secondsLeft windowSeconds t oldest < secondsLeft windowSeconds t failure := by
  have hmoment : ∀ failure : ℚ, t + s - windowSeconds ≤ failure ↔
      secondsLeft windowSeconds t oldest < secondsLeft windowSeconds t failure := by
    intro failure
    rw [← Int.add_one_le_iff, ← htold]
    exact Iff.trans (by constructor <;> intro h <;> linarith) Int.le_floor.symm
  have hcutoff : t - windowSeconds ≤ t + s - windowSeconds := by
    have hcast : (0 : ℚ) ≤ s := Int.cast_nonneg hs
    linarith
  rw [← recent_recent hcutoff ts, List.countP_eq_length_filter, recent]
  congr 1
  refine List.filter_congr fun failure _ ↦ ?_
  rw [decide_eq_decide]
  exact hmoment failure

/-- Calls that register no failure of a key leave it no more failures. -/
theorem failures_le (history : History) {after : List Call}
    (h : ∀ call ∈ after, call.action ≠ .registerFailure key) :
    after.foldl History.record history key = history key ∨
      after.foldl History.record history key = [] := by
  induction after generalizing history with
  | nil => exact .inl rfl
  | cons call after ih =>
    have hrest := ih (history.record call)
      fun later hlater ↦ h later (List.mem_cons_of_mem call hlater)
    have hrecord : history.record call key = history key ∨ history.record call key = [] := by
      have hcall := h call List.mem_cons_self
      obtain ⟨t, action⟩ := call
      cases action with
      | registerFailure other =>
        refine .inl (Function.update_of_ne ?_ _ _)
        exact fun heq ↦ hcall (heq ▸ rfl)
      | isBlocked other => exact .inl rfl
      | secondsUntilUnblocked other => exact .inl rfl
      | resetKey other =>
        change Function.update history other [] key = _ ∨ Function.update history other [] key = []
        rw [Function.update_apply]
        split_ifs
        · exact .inr rfl
        · exact .inl rfl
      | resetAll => exact .inr rfl
    rw [List.foldl_cons]
    rcases hrest with hrest | hrest
    · rw [hrest]
      exact hrecord
    · exact .inr hrest

theorem honestAt_iff (h : Tracks limiter history t) (key : Text) :
    HonestAt limiter key t ↔ (outlasting limiter.windowSeconds t
      (recent (t - limiter.windowSeconds) (history key)) : ℤ) < limiter.maxEvents := by
  obtain ⟨hasked, hmax, hwindow⟩ := asked_tracks h key
  have hblocked := asked_blocked h key
  cases hlive : recent (t - limiter.windowSeconds) (history key) with
  | nil =>
    have hseconds := asked_seconds_nil h hlive
    rw [hlive, List.length_nil] at hblocked
    constructor
    · intro honest
      by_contra hmany
      have htrue : (asked limiter key t).1 = true := by
        rw [hblocked, decide_eq_true_eq]
        exact not_lt.mp hmany
      have hone := (honest htrue).1
      omega
    · intro hpositive htrue
      rw [hblocked, decide_eq_true_eq] at htrue
      exact absurd htrue (not_le.mpr hpositive)
  | cons oldest rest =>
    obtain ⟨hleft, htold⟩ := asked_seconds_cons h hlive
    have hpositive : 0 ≤ (asked limiter key t).2.1 := by omega
    have hlater : t ≤ t + (asked limiter key t).2.1 := by
      have hcast : (0 : ℚ) ≤ (asked limiter key t).2.1 := Int.cast_nonneg hpositive
      linarith
    have hcount := recent_at_told (history key) hpositive htold
    rw [hlive] at hcount hblocked
    have houtlasting : outlasting limiter.windowSeconds t (oldest :: rest) =
        (recent (t + (asked limiter key t).2.1 - limiter.windowSeconds) (history key)).length :=
      hcount.symm
    constructor
    · intro honest
      by_contra hmany
      have hle := outlasting_le limiter.windowSeconds t (oldest :: rest)
      have htrue : (asked limiter key t).1 = true := by
        rw [hblocked, decide_eq_true_eq]
        omega
      have hfree := (honest htrue).2 [] (by simp) (by simpa using hlater)
      have hstill := (hasked.advance hlater).isBlocked key
      rw [hmax, hwindow, List.countP_eq_length_filter] at hstill
      rw [houtlasting] at hmany
      rw [Limiter.run, List.foldl_nil, hstill, decide_eq_false_iff_not] at hfree
      exact hmany (not_le.mp hfree)
    · intro hfew _
      refine ⟨by omega, ?_⟩
      intro after hafter hclock
      obtain ⟨hrun, hrunmax, hrunwindow⟩ := hasked.run hclock
      rw [hrun.isBlocked key, hrunmax, hrunwindow, hmax, hwindow, decide_eq_false_iff_not, not_le,
        List.countP_eq_length_filter]
      rcases failures_le history hafter with hsame | hnone
      · rw [hsame]
        rw [houtlasting] at hfew
        exact hfew
      · rw [hnone]
        exact lt_of_le_of_lt (Nat.cast_nonneg _) hfew

end

/-- The time that is told to one who is blocked is enough exactly when, of the failures of the
key in the window, fewer than are needed to block it have more whole seconds left than the
oldest. -/
theorem retry_after_honest_iff (maxEvents : ℤ) (windowSeconds : ℚ) {calls : List Call} {t : ℚ}
    (hclock : (calls.map Call.now ++ [t]).Pairwise (· ≤ ·)) (key : Text) :
    HonestAt ((Limiter.fresh maxEvents windowSeconds).run calls) key t ↔
      (outlasting windowSeconds t (recent (t - windowSeconds) (failures calls key)) : ℤ) <
        maxEvents := by
  obtain ⟨now, hnow⟩ := exists_start hclock
  obtain ⟨hrun, hmax, hwindow⟩ := (fresh_tracks maxEvents windowSeconds now).run hnow
  have hiff := honestAt_iff hrun key
  rw [hmax, hwindow] at hiff
  exact hiff

section Sample

/-- Two logins that fail half a minute apart, where one failure is allowed. -/
def twoFailures : List Call := [⟨0, .registerFailure ['a']⟩, ⟨30, .registerFailure ['a']⟩]

theorem two_failures_not_honest :
    ¬∀ (maxEvents : ℤ) (windowSeconds : ℚ) (calls : List Call) (t : ℚ) (key : Text),
      (calls.map Call.now ++ [t]).Pairwise (· ≤ ·) →
        HonestAt ((Limiter.fresh maxEvents windowSeconds).run calls) key t := by
  intro hall
  have hclock : (twoFailures.map Call.now ++ [30]).Pairwise (· ≤ ·) := by
    simp [twoFailures]
  have hfree := (hall 1 60 twoFailures 30 ['a'] hclock (by decide +kernel)).2 [] (by simp)
    (by decide +kernel)
  revert hfree
  decide +kernel

theorem retry_after_honest_iff_two :
    HonestAt ((Limiter.fresh 1 60).run twoFailures) ['a'] 30 ↔
      (outlasting 60 30 (recent (30 - 60) (failures twoFailures ['a'])) : ℤ) < 1 := by
  have hclock : (twoFailures.map Call.now ++ [30]).Pairwise (· ≤ ·) := by
    simp [twoFailures]
  exact retry_after_honest_iff 1 60 hclock ['a']

end Sample

end CronPanel.Core.RetryAfter
