import Mathlib.Algebra.Order.Ring.Rat
import Mathlib.Data.Rat.Floor
import CronPanel.Core.RateLimit
import CronPanel.Library.Windows

namespace CronPanel.Core.SlidingWindow

open Library.Strings Library.Windows

/-- The limiter with the entries of its dictionary and an exact clock. -/
structure Limiter where
  maxEvents : ℤ
  windowSeconds : ℚ
  store : Text → Option (List ℚ)

/-- `int(value)`, which rounds towards zero. -/
def truncate (value : ℚ) : ℤ := if 0 ≤ value then ⌊value⌋ else ⌈value⌉

inductive Answer
  | nothing
  | blocked (value : Bool)
  | seconds (value : ℤ)
  deriving DecidableEq

inductive Action
  | registerFailure (key : Text)
  | isBlocked (key : Text)
  | secondsUntilUnblocked (key : Text)
  | resetKey (key : Text)
  | resetAll

/-- A call and the moment at which the clock stands then. -/
structure Call where
  now : ℚ
  action : Action

def Call.IsQuery (call : Call) : Prop :=
  match call.action with
  | .isBlocked _ | .secondsUntilUnblocked _ => True
  | _ => False

namespace Limiter

def fresh (maxEvents : ℤ) (windowSeconds : ℚ) : Limiter := ⟨maxEvents, windowSeconds, fun _ ↦ none⟩

variable (limiter : Limiter) (key : Text) (now : ℚ)

/-- The deque that `_store[key]` gives. -/
def deque : List ℚ := (limiter.store key).getD []

def write (entry : Option (List ℚ)) : Limiter :=
  { limiter with store := Function.update limiter.store key entry }

/-- `_store[key]` of a `defaultdict` leaves an entry behind. -/
def touch : Limiter := limiter.write key (some (limiter.deque key))

def purge : Limiter :=
  let timestamps := (limiter.deque key).dropWhile (· < now - limiter.windowSeconds)
  limiter.write key (if timestamps = [] then none else some timestamps)

def registerFailure : Limiter := limiter.write key (some (limiter.deque key ++ [now]))

def isBlocked : Bool × Limiter :=
  let limiter := limiter.purge key now
  (decide (limiter.maxEvents ≤ (limiter.deque key).length), limiter.touch key)

def secondsUntilUnblocked : ℤ × Limiter :=
  let limiter := limiter.purge key now
  match limiter.deque key with
  | [] => (0, limiter.touch key)
  | oldest :: _ =>
    (max 0 (truncate (oldest + limiter.windowSeconds - now) + 1), limiter.touch key)

def resetKey : Limiter := limiter.write key none

def resetAll : Limiter := { limiter with store := fun _ ↦ none }

def serve (call : Call) : Answer × Limiter :=
  match call.action with
  | .registerFailure key => (.nothing, limiter.registerFailure key call.now)
  | .isBlocked key =>
    let (value, limiter) := limiter.isBlocked key call.now
    (.blocked value, limiter)
  | .secondsUntilUnblocked key =>
    let (value, limiter) := limiter.secondsUntilUnblocked key call.now
    (.seconds value, limiter)
  | .resetKey key => (.nothing, limiter.resetKey key)
  | .resetAll => (.nothing, limiter.resetAll)

def run (calls : List Call) : Limiter :=
  calls.foldl (fun limiter call ↦ (limiter.serve call).2) limiter

def answers : Limiter → List Call → List Answer
  | _, [] => []
  | limiter, call :: calls => (limiter.serve call).1 :: (limiter.serve call).2.answers calls

end Limiter

/-- The failures of each key since its last reset, none of which is ever dropped. -/
abbrev History := Text → List ℚ

namespace History

def record (history : History) (call : Call) : History :=
  match call.action with
  | .registerFailure key => Function.update history key (history key ++ [call.now])
  | .resetKey key => Function.update history key []
  | .resetAll => fun _ ↦ []
  | .isBlocked _ | .secondsUntilUnblocked _ => history

/-- The answers of a window that slides over the history. -/
def answer (maxEvents : ℤ) (windowSeconds : ℚ) (history : History) (call : Call) : Answer :=
  match call.action with
  | .isBlocked key =>
    .blocked (decide (maxEvents ≤ (history key).countP (call.now - windowSeconds ≤ ·)))
  | .secondsUntilUnblocked key =>
    match recent (call.now - windowSeconds) (history key) with
    | [] => .seconds 0
    | oldest :: _ => .seconds (max 0 (truncate (oldest + windowSeconds - call.now) + 1))
  | .registerFailure _ | .resetKey _ | .resetAll => .nothing

def answers (maxEvents : ℤ) (windowSeconds : ℚ) : History → List Call → List Answer
  | _, [] => []
  | history, call :: calls =>
    history.answer maxEvents windowSeconds call ::
      answers maxEvents windowSeconds (history.record call) calls

end History

/-- The failures of a key that are registered after its last reset, or that of all. -/
def failures (calls : List Call) : History := calls.foldl History.record fun _ ↦ []

/-- The deques are sorted and have every failure that can still count. -/
structure Tracks (limiter : Limiter) (history : History) (now : ℚ) : Prop where
  sorted : ∀ key, (limiter.deque key).Pairwise (· ≤ ·)
  bounded : ∀ key, ∀ t ∈ limiter.deque key, t ≤ now
  counted : ∀ key cutoff, now - limiter.windowSeconds ≤ cutoff →
    recent cutoff (limiter.deque key) = recent cutoff (history key)

section

variable {limiter : Limiter} {history : History} {now t : ℚ} {key other : Text}

theorem store_write (entry : Option (List ℚ)) (other : Text) :
    (limiter.write key entry).store other = if other = key then entry else limiter.store other :=
  Function.update_apply _ _ _ _

theorem deque_write (entry : Option (List ℚ)) :
    (limiter.write key entry).deque other =
      if other = key then entry.getD [] else limiter.deque other := by
  change (Function.update limiter.store key entry other).getD [] = _
  rw [Function.update_apply]
  split_ifs <;> rfl

theorem deque_touch : (limiter.touch key).deque other = limiter.deque other := by
  rw [Limiter.touch, deque_write]
  split_ifs with h
  · rw [h]
    rfl
  · rfl

theorem deque_purge (h : ∀ key, (limiter.deque key).Pairwise (· ≤ ·)) :
    (limiter.purge key now).deque other =
      if other = key then recent (now - limiter.windowSeconds) (limiter.deque key)
      else limiter.deque other := by
  rw [Limiter.purge, deque_write, dropWhile_lt _ (h key)]
  split_ifs with hkey hnil
  · exact hnil.symm
  · rfl
  · rfl

/-- What a query of the time leaves behind is what a query of the block leaves. -/
theorem secondsUntilUnblocked_store (limiter : Limiter) (key : Text) (now : ℚ) :
    (limiter.secondsUntilUnblocked key now).2 = (limiter.purge key now).touch key := by
  unfold Limiter.secondsUntilUnblocked
  dsimp only
  split
  · rfl
  · rfl

theorem Tracks.advance (h : Tracks limiter history now) (ht : now ≤ t) :
    Tracks limiter history t where
  sorted := h.sorted
  bounded key u hu := (h.bounded key u hu).trans ht
  counted key cutoff hcutoff := h.counted key cutoff ((sub_le_sub_right ht _).trans hcutoff)

/-- One deque is replaced, along with the failures of its key. -/
theorem Tracks.write (h : Tracks limiter history now) {entry : Option (List ℚ)} {ts : List ℚ}
    (hsorted : (entry.getD []).Pairwise (· ≤ ·)) (hbounded : ∀ t ∈ entry.getD [], t ≤ now)
    (hcounted : ∀ cutoff, now - limiter.windowSeconds ≤ cutoff →
      recent cutoff (entry.getD []) = recent cutoff ts) :
    Tracks (limiter.write key entry) (Function.update history key ts) now where
  sorted other := by
    rw [deque_write]
    split_ifs
    · exact hsorted
    · exact h.sorted other
  bounded other := by
    rw [deque_write]
    split_ifs
    · exact hbounded
    · exact h.bounded other
  counted other cutoff hcutoff := by
    rw [deque_write, Function.update_apply]
    split_ifs
    · exact hcounted cutoff hcutoff
    · exact h.counted other cutoff hcutoff

/-- The entry of a key may be left as it is or lose what can count no more. -/
theorem Tracks.rewrite (h : Tracks limiter history now) {entry : Option (List ℚ)}
    (hentry : entry.getD [] = limiter.deque key ∨
      entry.getD [] = recent (now - limiter.windowSeconds) (limiter.deque key)) :
    Tracks (limiter.write key entry) history now := by
  rw [← Function.update_eq_self key history]
  rcases hentry with hentry | hentry
  · refine h.write ?_ ?_ ?_
    · rw [hentry]
      exact h.sorted key
    · rw [hentry]
      exact h.bounded key
    · rw [hentry]
      exact h.counted key
  · refine h.write ?_ ?_ ?_
    · rw [hentry]
      exact (h.sorted key).filter _
    · rw [hentry]
      exact fun t ht ↦ h.bounded key t (List.mem_of_mem_filter ht)
    · intro cutoff hcutoff
      rw [hentry, recent_recent hcutoff]
      exact h.counted key cutoff hcutoff

theorem Tracks.purge (h : Tracks limiter history now) (key : Text) :
    Tracks (limiter.purge key now) history now := by
  refine h.rewrite (.inr ?_)
  rw [dropWhile_lt _ (h.sorted key)]
  split_ifs with hnil
  · exact hnil.symm
  · rfl

theorem Tracks.touch (h : Tracks limiter history now) (key : Text) :
    Tracks (limiter.touch key) history now := h.rewrite (.inl rfl)

/-- What a purged deque holds are the failures in the window. -/
theorem Tracks.deque_purge (h : Tracks limiter history now) (key : Text) :
    (limiter.purge key now).deque key = recent (now - limiter.windowSeconds) (history key) := by
  rw [SlidingWindow.deque_purge h.sorted, if_pos rfl]
  exact h.counted key _ le_rfl

theorem Tracks.isBlocked (h : Tracks limiter history now) (key : Text) :
    (limiter.isBlocked key now).1 = decide (limiter.maxEvents ≤
      (history key).countP (now - limiter.windowSeconds ≤ ·)) := by
  simp only [Limiter.isBlocked]
  rw [h.deque_purge key, List.countP_eq_length_filter]
  rfl

/-- A call answers as the history does, and the deques go on tracking it. -/
theorem Tracks.serve (h : Tracks limiter history now) {call : Call} (hnow : now ≤ call.now) :
    (limiter.serve call).1 = history.answer limiter.maxEvents limiter.windowSeconds call ∧
      Tracks (limiter.serve call).2 (history.record call) call.now ∧
      (limiter.serve call).2.maxEvents = limiter.maxEvents ∧
      (limiter.serve call).2.windowSeconds = limiter.windowSeconds := by
  obtain ⟨t, action⟩ := call
  have ht := h.advance hnow
  cases action with
  | registerFailure key =>
    refine ⟨rfl, ht.write ?_ ?_ ?_, rfl, rfl⟩
    · exact pairwise_concat (ht.sorted key) (ht.bounded key)
    · intro u hu
      rcases List.mem_append.mp hu with hu | hu
      · exact ht.bounded key u hu
      · exact (List.mem_singleton.mp hu).le
    · intro cutoff hcutoff
      rw [Option.getD_some, recent_append, recent_append, ht.counted key cutoff hcutoff]
  | isBlocked key =>
    exact ⟨congrArg Answer.blocked (ht.isBlocked key), (ht.purge key).touch key, rfl, rfl⟩
  | secondsUntilUnblocked key =>
    have hdeque := ht.deque_purge key
    simp only [Limiter.serve, Limiter.secondsUntilUnblocked, History.answer, hdeque]
    cases recent (t - limiter.windowSeconds) (history key) with
    | nil => exact ⟨rfl, (ht.purge key).touch key, rfl, rfl⟩
    | cons oldest rest => exact ⟨rfl, (ht.purge key).touch key, rfl, rfl⟩
  | resetKey key => exact ⟨rfl, ht.write List.Pairwise.nil (by simp) fun _ _ ↦ rfl, rfl, rfl⟩
  | resetAll =>
    refine ⟨rfl, ⟨fun _ ↦ List.Pairwise.nil, ?_, fun _ _ _ ↦ rfl⟩, rfl, rfl⟩
    intro _ u hu
    cases hu

theorem fresh_tracks (maxEvents : ℤ) (windowSeconds now : ℚ) :
    Tracks (.fresh maxEvents windowSeconds) (fun _ ↦ []) now := by
  refine ⟨fun _ ↦ List.Pairwise.nil, ?_, fun _ _ _ ↦ rfl⟩
  intro _ u hu
  cases hu

theorem Tracks.run {calls : List Call} (h : Tracks limiter history now)
    (hclock : (now :: (calls.map Call.now ++ [t])).Pairwise (· ≤ ·)) :
    Tracks (limiter.run calls) (calls.foldl History.record history) t ∧
      (limiter.run calls).maxEvents = limiter.maxEvents ∧
      (limiter.run calls).windowSeconds = limiter.windowSeconds := by
  induction calls generalizing limiter history now with
  | nil => exact ⟨h.advance ((List.pairwise_cons.mp hclock).1 t List.mem_cons_self), rfl, rfl⟩
  | cons call calls ih =>
    obtain ⟨hfirst, hrest⟩ := List.pairwise_cons.mp hclock
    obtain ⟨-, hserve, hmax, hwindow⟩ := h.serve (hfirst call.now List.mem_cons_self)
    obtain ⟨hrun, hmax', hwindow'⟩ := ih hserve hrest
    exact ⟨hrun, hmax'.trans hmax, hwindow'.trans hwindow⟩

/-- Along a run the limiter answers as a window that slides over the whole history. -/
theorem Tracks.answers {calls : List Call} (h : Tracks limiter history now)
    (hclock : (now :: calls.map Call.now).Pairwise (· ≤ ·)) :
    limiter.answers calls =
      history.answers limiter.maxEvents limiter.windowSeconds calls := by
  induction calls generalizing limiter history now with
  | nil => rfl
  | cons call calls ih =>
    obtain ⟨hfirst, hrest⟩ := List.pairwise_cons.mp hclock
    obtain ⟨hanswer, hserve, hmax, hwindow⟩ := h.serve (hfirst call.now List.mem_cons_self)
    rw [Limiter.answers, History.answers, hanswer, ih hserve hrest, hmax, hwindow]

theorem exists_start {ts : List ℚ} (h : ts.Pairwise (· ≤ ·)) :
    ∃ now, (now :: ts).Pairwise (· ≤ ·) := by
  cases ts with
  | nil => exact ⟨0, List.pairwise_singleton _ _⟩
  | cons t ts =>
    refine ⟨t, List.pairwise_cons.mpr ⟨?_, h⟩⟩
    intro u hu
    rcases List.mem_cons.mp hu with rfl | hu
    · exact le_rfl
    · exact (List.pairwise_cons.mp h).1 u hu

theorem record_query {query : Call} (hquery : query.IsQuery) (history : History) :
    history.record query = history := by
  obtain ⟨t, action⟩ := query
  cases action with
  | isBlocked key => rfl
  | secondsUntilUnblocked key => rfl
  | registerFailure key => exact hquery.elim
  | resetKey key => exact hquery.elim
  | resetAll => exact hquery.elim

/-- Later answers are those of the history so far. -/
theorem answers_after {before after : List Call} (maxEvents : ℤ) (windowSeconds : ℚ)
    (hclock : ((before ++ after).map Call.now).Pairwise (· ≤ ·)) :
    ((Limiter.fresh maxEvents windowSeconds).run before).answers after =
      (failures before).answers maxEvents windowSeconds after := by
  cases after with
  | nil => rfl
  | cons call after =>
    obtain ⟨now, hnow⟩ := exists_start hclock
    rw [List.map_append, List.map_cons] at hnow
    have hbefore : (now :: (before.map Call.now ++ [call.now])).Pairwise (· ≤ ·) := by
      refine hnow.sublist (List.Sublist.cons_cons _ ?_)
      exact List.Sublist.append_left (List.Sublist.cons_cons _ (List.nil_sublist _)) _
    obtain ⟨hrun, hmax, hwindow⟩ := (fresh_tracks maxEvents windowSeconds now).run hbefore
    have hafter : (call.now :: (call :: after).map Call.now).Pairwise (· ≤ ·) := by
      have hsorted := (List.pairwise_append.mp (List.pairwise_cons.mp hnow).2).2.1
      refine List.pairwise_cons.mpr ⟨?_, hsorted⟩
      intro u hu
      rcases List.mem_cons.mp hu with rfl | hu
      · exact le_rfl
      · exact (List.pairwise_cons.mp hsorted).1 u hu
    rw [hrun.answers hafter, hmax, hwindow]
    rfl

end

/-- A moment of the clock that counts microseconds. -/
def seconds (t : ℕ) : ℚ := t / 1000000

/-- The limiter of the panel, which counts microseconds, has the deques of this one. -/
structure Represents (limiter : Limiter) (counted : RateLimit.SlidingWindowRateLimiter) : Prop where
  maxEvents : limiter.maxEvents = counted.maxEvents
  windowSeconds : limiter.windowSeconds = counted.windowSeconds
  deque : ∀ key, limiter.deque key = (counted.store key).map seconds

section

variable {limiter : Limiter} {counted : RateLimit.SlidingWindowRateLimiter} {key : Text} {now : ℕ}

theorem seconds_lt_iff (h : Represents limiter counted) {t : ℕ} :
    seconds t < seconds now - limiter.windowSeconds ↔ t + counted.window < now := by
  rw [h.windowSeconds, seconds, seconds, RateLimit.SlidingWindowRateLimiter.window,
    lt_sub_iff_add_lt, div_add' _ _ _ (by norm_num), div_lt_div_iff_of_pos_right (by norm_num)]
  norm_cast
  rw [Nat.mul_comm counted.windowSeconds]

theorem Represents.write (h : Represents limiter counted) {entry : Option (List ℚ)} {ts : List ℕ}
    (hentry : entry.getD [] = ts.map seconds) :
    Represents (limiter.write key entry)
      { counted with store := Function.update counted.store key ts } where
  maxEvents := h.maxEvents
  windowSeconds := h.windowSeconds
  deque other := by
    change _ = (Function.update counted.store key ts other).map seconds
    rw [deque_write, Function.update_apply]
    split_ifs
    · exact hentry
    · exact h.deque other

theorem Represents.touch (h : Represents limiter counted) :
    Represents (limiter.touch key) counted where
  maxEvents := h.maxEvents
  windowSeconds := h.windowSeconds
  deque other := by
    rw [deque_touch]
    exact h.deque other

theorem Represents.registerFailure (h : Represents limiter counted) :
    Represents (limiter.registerFailure key (seconds now)) (counted.registerFailure key now) := by
  refine h.write ?_
  rw [Option.getD_some, h.deque key, List.map_append]
  rfl

theorem Represents.resetKey (h : Represents limiter counted) :
    Represents (limiter.resetKey key) (counted.resetKey key) := h.write rfl

theorem Represents.purge (h : Represents limiter counted) :
    Represents (limiter.purge key (seconds now)) (counted.purge key now) := by
  have hdrop : (limiter.deque key).dropWhile (· < seconds now - limiter.windowSeconds) =
      ((counted.store key).dropWhile (· + counted.window < now)).map seconds := by
    rw [h.deque key, List.dropWhile_map]
    congr 2
    funext t
    exact decide_eq_decide.mpr (seconds_lt_iff h)
  refine h.write ?_
  rw [hdrop]
  split_ifs with hnil
  · exact hnil.symm
  · rfl

theorem Represents.isBlocked (h : Represents limiter counted) :
    (limiter.isBlocked key (seconds now)).1 = (counted.isBlocked key now).1 ∧
      Represents (limiter.isBlocked key (seconds now)).2 (counted.isBlocked key now).2 := by
  have hpurge : Represents (limiter.purge key (seconds now)) (counted.purge key now) := h.purge
  refine ⟨?_, hpurge.touch⟩
  simp only [Limiter.isBlocked, RateLimit.SlidingWindowRateLimiter.isBlocked]
  rw [hpurge.deque key, List.length_map, hpurge.maxEvents, decide_eq_decide]
  exact Nat.cast_le

/-- The oldest failure that a purge leaves is in the window. -/
theorem le_of_purge {oldest : ℕ} {rest : List ℕ}
    (h : (counted.purge key now).store key = oldest :: rest) : now ≤ oldest + counted.window := by
  rw [RateLimit.SlidingWindowRateLimiter.purge_store, if_pos rfl] at h
  have hne : (counted.store key).dropWhile (fun t ↦ decide (t + counted.window < now)) ≠ [] := by
    rw [h]
    exact List.cons_ne_nil _ _
  have hhead := List.head_dropWhile_not (fun t ↦ decide (t + counted.window < now)) hne
  simp only [h, List.head_cons, decide_eq_false_iff_not, not_lt] at hhead
  exact hhead

theorem Represents.secondsUntilUnblocked (h : Represents limiter counted) :
    (limiter.secondsUntilUnblocked key (seconds now)).1 =
      (counted.secondsUntilUnblocked key now).1 ∧
      Represents (limiter.secondsUntilUnblocked key (seconds now)).2
        (counted.secondsUntilUnblocked key now).2 := by
  have hpurge : Represents (limiter.purge key (seconds now)) (counted.purge key now) := h.purge
  have hdeque := hpurge.deque key
  simp only [Limiter.secondsUntilUnblocked, RateLimit.SlidingWindowRateLimiter.secondsUntilUnblocked]
  cases hstore : (counted.purge key now).store key with
  | nil =>
    rw [hdeque, hstore]
    exact ⟨rfl, hpurge.touch⟩
  | cons oldest rest =>
    rw [hdeque, hstore, List.map_cons]
    refine ⟨?_, hpurge.touch⟩
    dsimp only
    have hle := le_of_purge hstore
    have hremaining :
        seconds oldest + (limiter.purge key (seconds now)).windowSeconds - seconds now =
        ((oldest + counted.window - now : ℕ) : ℚ) / (1000000 : ℕ) := by
      rw [hpurge.windowSeconds, Nat.cast_sub hle, RateLimit.SlidingWindowRateLimiter.window,
        seconds, seconds]
      push_cast
      change _ + (counted.windowSeconds : ℚ) - _ = _
      ring
    rw [hremaining, truncate, if_pos (by positivity), Rat.floor_natCast_div_natCast]
    have hnonneg :
        (0 : ℤ) ≤ ((oldest + counted.window - now : ℕ) : ℤ) / 1000000 + 1 := by positivity
    rw [Nat.cast_ofNat, max_eq_right hnonneg]
    rfl

end

/-- A key is blocked exactly when enough failures since its last reset are in the window, and a
query changes no later answer. -/
theorem exact_sliding_window (maxEvents : ℤ) (windowSeconds : ℚ) {calls : List Call} {t : ℚ}
    (hclock : (calls.map Call.now ++ [t]).Pairwise (· ≤ ·)) :
    (∀ key, (((Limiter.fresh maxEvents windowSeconds).run calls).isBlocked key t).1 ↔
      maxEvents ≤ (failures calls key).countP (t - windowSeconds ≤ ·)) ∧
    ∀ before query after, calls = before ++ query :: after → query.IsQuery →
      ((Limiter.fresh maxEvents windowSeconds).run (before ++ [query])).answers after =
        ((Limiter.fresh maxEvents windowSeconds).run before).answers after := by
  constructor
  · intro key
    obtain ⟨now, hnow⟩ := exists_start hclock
    obtain ⟨hrun, hmax, hwindow⟩ := (fresh_tracks maxEvents windowSeconds now).run hnow
    rw [hrun.isBlocked key, hmax, hwindow, decide_eq_true_eq]
    rfl
  · rintro before query after rfl hquery
    have hcalls := (List.pairwise_append.mp hclock).1
    have hshort : ((before ++ after).map Call.now).Pairwise (· ≤ ·) :=
      hcalls.sublist (List.Sublist.map _
        (List.Sublist.append_left (List.sublist_cons_self query after) before))
    have hlong : (((before ++ [query]) ++ after).map Call.now).Pairwise (· ≤ ·) := by
      rw [List.append_assoc]
      exact hcalls
    have hsame : failures (before ++ [query]) = failures before := by
      rw [failures, List.foldl_append]
      exact record_query hquery _
    rw [answers_after maxEvents windowSeconds hlong, answers_after maxEvents windowSeconds hshort,
      hsame]

section Sample

/-- Two failures half a second apart, with a query and a reset of another key. -/
def sampleCalls : List Call :=
  [⟨0, .registerFailure ['a']⟩, ⟨1 / 2, .registerFailure ['a']⟩, ⟨1, .isBlocked ['a']⟩,
    ⟨1, .resetKey ['b']⟩, ⟨2, .registerFailure ['a']⟩]

theorem exact_sliding_window_sample :
    (∀ key, (((Limiter.fresh 2 (3 / 2)).run sampleCalls).isBlocked key (5 / 2)).1 ↔
      (2 : ℤ) ≤ (failures sampleCalls key).countP (5 / 2 - 3 / 2 ≤ ·)) ∧
    ∀ before query after, sampleCalls = before ++ query :: after → query.IsQuery →
      ((Limiter.fresh 2 (3 / 2)).run (before ++ [query])).answers after =
        ((Limiter.fresh 2 (3 / 2)).run before).answers after := by
  have hclock : (sampleCalls.map Call.now ++ [5 / 2]).Pairwise (· ≤ ·) := by
    simp [sampleCalls]
    norm_num
  exact exact_sliding_window 2 (3 / 2) hclock

end Sample

end CronPanel.Core.SlidingWindow
