import Mathlib.Data.Finset.Card
import CronPanel.Core.SlidingWindow

namespace CronPanel.Core.StoreEntries

open Library.Strings Library.Windows SlidingWindow

/-- The key of a call that reads how a key stands. -/
def queriedKey (call : Call) : Option Text :=
  match call.action with
  | .isBlocked key | .secondsUntilUnblocked key => some key
  | _ => none

/-- The key for which a call records a failure. -/
def recordedKey (call : Call) : Option Text :=
  match call.action with
  | .registerFailure key => some key
  | _ => none

/-- No entry of the store is empty. -/
def Occupied (limiter : Limiter) : Prop := ∀ key, limiter.store key ≠ some []

/-- The key has a failure that can still count. -/
def HasLive (windowSeconds now : ℚ) (failures : List ℚ) : Prop :=
  ∃ t ∈ failures, now - windowSeconds ≤ t

/-- What a call reads has a live failure. -/
def ReadsLive (windowSeconds : ℚ) (history : History) (call : Call) : Prop :=
  ∀ key ∈ queriedKey call, HasLive windowSeconds call.now (history key)

/-- The store after some calls has no empty entry and none for a key that the last call found
without live failures, and no more entries than failures were recorded. -/
structure NoDeadEntries (maxEvents : ℤ) (windowSeconds : ℚ) (calls : List Call) : Prop where
  occupied : Occupied ((Limiter.fresh maxEvents windowSeconds).run calls)
  quiet : ∀ before call, calls = before ++ [call] → ∀ key ∈ queriedKey call,
    ¬HasLive windowSeconds call.now (failures before key) →
      ((Limiter.fresh maxEvents windowSeconds).run calls).store key = none
  bounded : ∀ keys : Finset Text,
    (∀ key ∈ keys, ((Limiter.fresh maxEvents windowSeconds).run calls).store key ≠ none) →
      keys.card ≤ (calls.filterMap recordedKey).length

section

variable {limiter : Limiter} {history : History} {now t : ℚ} {key : Text} {call : Call}
  {calls : List Call}

theorem hasLive_iff {windowSeconds : ℚ} {ts : List ℚ} :
    HasLive windowSeconds now ts ↔ recent (now - windowSeconds) ts ≠ [] := by
  rw [recent, ne_eq, List.filter_eq_nil_iff]
  simp [HasLive]

theorem Occupied.write (h : Occupied limiter) {entry : Option (List ℚ)} (hentry : entry ≠ some []) :
    Occupied (limiter.write key entry) := by
  intro other
  rw [store_write]
  split_ifs
  · exact hentry
  · exact h other

theorem Occupied.purge (h : Occupied limiter) (key : Text) (now : ℚ) :
    Occupied (limiter.purge key now) := by
  refine h.write ?_
  split_ifs with hnil
  · exact (Option.some_ne_none []).symm
  · exact fun heq ↦ hnil (Option.some.inj heq)

/-- Indexing the store leaves no empty entry exactly when the deque it gives has failures. -/
theorem occupied_touch_iff (h : Occupied limiter) (key : Text) :
    Occupied (limiter.touch key) ↔ limiter.deque key ≠ [] := by
  constructor
  · intro htouch hnil
    refine htouch key ?_
    rw [Limiter.touch, store_write, if_pos rfl, hnil]
  · exact fun hne ↦ h.write fun heq ↦ hne (Option.some.inj heq)

/-- A query leaves no empty entry exactly when its key has a live failure. -/
theorem occupied_query_iff (h : Tracks limiter history now) (hoccupied : Occupied limiter)
    (key : Text) : Occupied ((limiter.purge key now).touch key) ↔
      HasLive limiter.windowSeconds now (history key) := by
  rw [occupied_touch_iff (hoccupied.purge key now), h.deque_purge key, hasLive_iff]

theorem occupied_serve_iff (h : Tracks limiter history now) (hoccupied : Occupied limiter)
    (hnow : now ≤ call.now) :
    Occupied (limiter.serve call).2 ↔ ReadsLive limiter.windowSeconds history call := by
  obtain ⟨t, action⟩ := call
  have ht := h.advance hnow
  have hreads : ∀ key, HasLive limiter.windowSeconds t (history key) ↔
      ∀ other ∈ some key, HasLive limiter.windowSeconds t (history other) := by
    intro key
    simp
  have hnone : ∀ other ∈ (none : Option Text),
      HasLive limiter.windowSeconds t (history other) := by simp
  cases action with
  | registerFailure key =>
    refine iff_of_true (hoccupied.write fun heq ↦ ?_) hnone
    exact List.append_ne_nil_of_right_ne_nil _ (List.cons_ne_nil t []) (Option.some.inj heq)
  | isBlocked key => exact (occupied_query_iff ht hoccupied key).trans (hreads key)
  | secondsUntilUnblocked key =>
    change Occupied (limiter.secondsUntilUnblocked key t).2 ↔ _
    rw [secondsUntilUnblocked_store]
    exact (occupied_query_iff ht hoccupied key).trans (hreads key)
  | resetKey key => exact iff_of_true (hoccupied.write (Option.some_ne_none []).symm) hnone
  | resetAll => exact iff_of_true (fun _ ↦ (Option.some_ne_none []).symm) hnone

/-- Along a run no empty entry appears exactly when every query finds a live failure. -/
theorem occupied_run_iff (h : Tracks limiter history now) (hoccupied : Occupied limiter)
    (hclock : (now :: calls.map Call.now).Pairwise (· ≤ ·)) :
    (∀ before, before <+: calls → Occupied (limiter.run before)) ↔
      ∀ before call, before ++ [call] <+: calls →
        ReadsLive limiter.windowSeconds (before.foldl History.record history) call := by
  induction calls generalizing limiter history now with
  | nil =>
    refine iff_of_true ?_ (by simp)
    intro before hbefore
    obtain rfl := List.prefix_nil.mp hbefore
    exact hoccupied
  | cons call calls ih =>
    obtain ⟨hfirst, hrest⟩ := List.pairwise_cons.mp hclock
    have hnow := hfirst call.now List.mem_cons_self
    obtain ⟨-, hserve, -, hwindow⟩ := h.serve hnow
    have hstep := occupied_serve_iff h hoccupied hnow
    constructor
    · intro hall before next hbefore
      have hnext : Occupied (limiter.serve call).2 :=
        hall [call] (List.prefix_cons_inj call |>.mpr List.nil_prefix)
      cases before with
      | nil =>
        obtain rfl : next = call := by simpa using hbefore
        exact hstep.mp hnext
      | cons first before =>
        obtain ⟨rfl, hrun⟩ := List.cons_prefix_cons.mp hbefore
        have hshort := (ih hserve hnext hrest).mp
          (fun before hbefore ↦ hall (first :: before) (List.cons_prefix_cons.mpr ⟨rfl, hbefore⟩))
        rw [hwindow] at hshort
        exact hshort before next hrun
    · intro hall before hbefore
      cases before with
      | nil => exact hoccupied
      | cons first before =>
        obtain ⟨rfl, hrun⟩ := List.cons_prefix_cons.mp hbefore
        have hnext := hstep.mpr (hall [] first (by simp))
        refine (ih hserve hnext hrest).mpr ?_ before hrun
        intro before next hbefore
        rw [hwindow]
        exact hall (first :: before) next (List.cons_prefix_cons.mpr ⟨rfl, hbefore⟩)

/-- The deques are what the history of their key ends with. -/
def Kept (limiter : Limiter) (history : History) : Prop :=
  ∀ key, limiter.deque key <:+ history key

theorem Kept.write (h : Kept limiter history) {entry : Option (List ℚ)}
    (hentry : entry.getD [] <:+ history key) : Kept (limiter.write key entry) history := by
  intro other
  rw [deque_write]
  split_ifs with hkey
  · exact hkey ▸ hentry
  · exact h other

theorem Kept.query (h : Kept limiter history) (key : Text) (now : ℚ) :
    Kept ((limiter.purge key now).touch key) history := by
  intro other
  rw [deque_touch]
  refine h.write ?_ other
  have hdrop := (List.dropWhile_suffix (· < now - limiter.windowSeconds)).trans (h key)
  split_ifs with hnil
  · exact List.nil_suffix
  · exact hdrop

theorem Kept.serve (h : Kept limiter history) (call : Call) :
    Kept (limiter.serve call).2 (history.record call) := by
  obtain ⟨t, action⟩ := call
  cases action with
  | registerFailure key =>
    intro other
    change (limiter.write key _).deque other <:+ Function.update history key _ other
    rw [deque_write, Function.update_apply]
    split_ifs
    · exact List.suffix_append_inj_of_length_eq rfl |>.mpr ⟨h key, rfl⟩
    · exact h other
  | isBlocked key => exact h.query key t
  | secondsUntilUnblocked key =>
    change Kept (limiter.secondsUntilUnblocked key t).2 history
    rw [secondsUntilUnblocked_store]
    exact h.query key t
  | resetKey key =>
    intro other
    change (limiter.write key none).deque other <:+ Function.update history key [] other
    rw [deque_write, Function.update_apply]
    split_ifs
    · exact List.nil_suffix
    · exact h other
  | resetAll => exact fun _ ↦ List.nil_suffix

theorem Kept.run (h : Kept limiter history) (calls : List Call) :
    Kept (limiter.run calls) (calls.foldl History.record history) := by
  induction calls generalizing limiter history with
  | nil => exact h
  | cons call calls ih => exact ih (h.serve call)

theorem mem_recorded_of_failures {calls : List Call}
    (h : calls.foldl History.record history key ≠ []) :
    history key ≠ [] ∨ key ∈ calls.filterMap recordedKey := by
  induction calls generalizing history with
  | nil => exact .inl h
  | cons call calls ih =>
    rcases ih h with hrecord | hlater
    · obtain ⟨t, action⟩ := call
      cases action with
      | registerFailure other =>
        change Function.update history other _ key ≠ [] at hrecord
        rw [Function.update_apply] at hrecord
        split_ifs at hrecord with hkey
        · obtain rfl := hkey
          exact .inr List.mem_cons_self
        · exact .inl hrecord
      | isBlocked other => exact .inl hrecord
      | secondsUntilUnblocked other => exact .inl hrecord
      | resetKey other =>
        change Function.update history other [] key ≠ [] at hrecord
        rw [Function.update_apply] at hrecord
        split_ifs at hrecord
        · exact absurd rfl hrecord
        · exact .inl hrecord
      | resetAll => exact absurd rfl hrecord
    · rw [List.filterMap_cons]
      refine .inr ?_
      split
      · exact hlater
      · exact List.mem_cons_of_mem _ hlater

/-- Where no entry is empty, each has a failure that was recorded for its key. -/
theorem card_entries_le (hkept : Kept limiter (failures calls)) (hoccupied : Occupied limiter)
    {keys : Finset Text} (hkeys : ∀ key ∈ keys, limiter.store key ≠ none) :
    keys.card ≤ (calls.filterMap recordedKey).length := by
  have hsubset : keys ⊆ (calls.filterMap recordedKey).toFinset := by
    intro key hkey
    rw [List.mem_toFinset]
    have hfailures : failures calls key ≠ [] := by
      intro hnil
      have hdeque : limiter.deque key = [] := List.suffix_nil.mp (hnil ▸ hkept key)
      obtain ⟨ts, hts⟩ := Option.ne_none_iff_exists'.mp (hkeys key hkey)
      rw [Limiter.deque, hts, Option.getD_some] at hdeque
      exact hoccupied key (hdeque ▸ hts)
    exact (mem_recorded_of_failures hfailures).resolve_left (absurd rfl)
  exact (Finset.card_le_card hsubset).trans (List.toFinset_card_le _)

end

/-- Along a run the store never holds an entry without failures exactly when each query is about
a key with a live failure. -/
theorem no_dead_entries_iff (maxEvents : ℤ) (windowSeconds : ℚ) {calls : List Call}
    (hclock : (calls.map Call.now).Pairwise (· ≤ ·)) :
    (∀ before, before <+: calls → NoDeadEntries maxEvents windowSeconds before) ↔
      ∀ before call, before ++ [call] <+: calls →
        ReadsLive windowSeconds (failures before) call := by
  obtain ⟨now, hnow⟩ := exists_start hclock
  have hfresh : Occupied (.fresh maxEvents windowSeconds) := fun _ ↦ (Option.some_ne_none []).symm
  have hrun := occupied_run_iff (fresh_tracks maxEvents windowSeconds now) hfresh hnow
  constructor
  · exact fun hall ↦ hrun.mp fun before hbefore ↦ (hall before hbefore).occupied
  · intro hall before hbefore
    have hoccupied := hrun.mpr hall before hbefore
    have hkept : Kept ((Limiter.fresh maxEvents windowSeconds).run before) (failures before) :=
      Kept.run (fun _ ↦ List.suffix_rfl) before
    refine ⟨hoccupied, ?_, fun keys hkeys ↦ card_entries_le hkept hoccupied hkeys⟩
    rintro earlier call rfl key hkey hdead
    exact absurd (hall earlier call hbefore key hkey) hdead

section Sample

/-- One who was never seen before asks once. -/
def strangerCalls : List Call := [⟨0, .isBlocked ['a']⟩]

theorem stranger_leaves_entry :
    ¬∀ (maxEvents : ℤ) (windowSeconds : ℚ) (calls : List Call),
      (calls.map Call.now).Pairwise (· ≤ ·) →
        ∀ before, before <+: calls → NoDeadEntries maxEvents windowSeconds before := by
  intro hall
  have hclock : (strangerCalls.map Call.now).Pairwise (· ≤ ·) := List.pairwise_singleton _ _
  have hoccupied := (hall 5 300 strangerCalls hclock strangerCalls List.prefix_rfl).occupied
  exact hoccupied ['a'] (by decide)

/-- A failure, and a question about it within the window. -/
def watchedCalls : List Call := [⟨0, .registerFailure ['a']⟩, ⟨1, .isBlocked ['a']⟩]

theorem no_dead_entries_iff_watched :
    (∀ before, before <+: watchedCalls → NoDeadEntries 5 300 before) ↔
      ∀ before call, before ++ [call] <+: watchedCalls →
        ReadsLive 300 (failures before) call := by
  have hclock : (watchedCalls.map Call.now).Pairwise (· ≤ ·) := by
    simp [watchedCalls]
  exact no_dead_entries_iff 5 300 hclock

end Sample

end CronPanel.Core.StoreEntries
