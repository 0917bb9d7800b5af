import Mathlib.Logic.Function.Basic
import CronPanel.Library.Strings

namespace CronPanel.Core.RateLimit

open Library.Strings

/-- The limiter; its clock counts microseconds, and a key that is not in the store has no
failures. -/
structure SlidingWindowRateLimiter where
  maxEvents : ℕ
  windowSeconds : ℕ
  store : Text → List ℕ

namespace SlidingWindowRateLimiter

variable (limiter : SlidingWindowRateLimiter) (key : Text) (now : ℕ)

/-- The window in the unit of the clock. -/
def window : ℕ := 1000000 * limiter.windowSeconds

def purge : SlidingWindowRateLimiter :=
  { limiter with
    store := Function.update limiter.store key
      ((limiter.store key).dropWhile fun timestamp ↦ timestamp + limiter.window < now) }

def registerFailure : SlidingWindowRateLimiter :=
  { limiter with store := Function.update limiter.store key (limiter.store key ++ [now]) }

def isBlocked : Bool × SlidingWindowRateLimiter :=
  let limiter := limiter.purge key now
  (limiter.maxEvents ≤ (limiter.store key).length, limiter)

def secondsUntilUnblocked : ℕ × SlidingWindowRateLimiter :=
  let limiter := limiter.purge key now
  match limiter.store key with
  | [] => (0, limiter)
  | oldest :: _ => ((oldest + limiter.window - now) / 1000000 + 1, limiter)

def resetKey : SlidingWindowRateLimiter :=
  { limiter with store := Function.update limiter.store key [] }

end SlidingWindowRateLimiter

/-- `login_rate_key`, with the lower case of the Unicode tables given. -/
def loginRateKey (lower : Text → Text) (ip : Option Text) (username : Text) : Text :=
  ((ip.filter fun ip ↦ !ip.isEmpty).getD "unknown".toList) ++ ':' :: lower (strip username)

namespace SlidingWindowRateLimiter

variable {limiter : SlidingWindowRateLimiter} {key other : Text} {now : ℕ}

theorem purge_store : (limiter.purge key now).store other =
    if other = key then
      (limiter.store key).dropWhile fun timestamp ↦ timestamp + limiter.window < now
    else limiter.store other := Function.update_apply _ _ _ _

theorem registerFailure_store : (limiter.registerFailure key now).store other =
    if other = key then limiter.store key ++ [now] else limiter.store other :=
      Function.update_apply _ _ _ _

theorem resetKey_store :
    (limiter.resetKey key).store other = if other = key then [] else limiter.store other :=
  Function.update_apply _ _ _ _

/-- A purge loses no failure that is still in the window. -/
theorem countP_purge {p : ℕ → Bool}
    (h : ∀ timestamp, p timestamp → now ≤ timestamp + limiter.window) :
    ((limiter.purge key now).store other).countP p = (limiter.store other).countP p := by
  rw [purge_store]
  split_ifs with hkey
  · subst hkey
    generalize limiter.store other = timestamps
    induction timestamps with
    | nil => rfl
    | cons timestamp timestamps ih =>
      rw [List.dropWhile_cons]
      split_ifs with hold
      · have hout : ¬p timestamp := fun hp ↦ absurd (h timestamp hp)
          (not_le.mpr (of_decide_eq_true hold))
        rw [ih, List.countP_cons_of_neg hout]
      · rfl
  · rfl

end SlidingWindowRateLimiter

end CronPanel.Core.RateLimit
