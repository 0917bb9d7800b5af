import Mathlib.Data.Option.Basic
import CronPanel.Library.Fallible

namespace CronPanel.Library.Transactions

open Fallible

/-- What a call does with its session on a store, one step after another. -/
inductive Procedure (σ ε α : Type) : Type
  | done (result : Except ε α)
  | reading (next : σ → Procedure σ ε α)
  | writing (change : σ → σ) (next : Procedure σ ε α)
  | committing (next : Procedure σ ε α)

/-- A session sees its own changes; the store has those that are committed. -/
structure Session (σ : Type) where
  stored : σ
  working : σ

/-- The session of a new request. -/
def Session.opened {σ : Type} (s : σ) : Session σ := ⟨s, s⟩

namespace Procedure

variable {σ ε ε' α β : Type}

def bind : Procedure σ ε α → (α → Procedure σ ε β) → Procedure σ ε β
  | done (.ok a), f => f a
  | done (.error e), _ => done (.error e)
  | reading next, f => reading fun s ↦ (next s).bind f
  | writing change next, f => writing change (next.bind f)
  | committing next, f => committing (next.bind f)

instance : Monad (Procedure σ ε) where
  pure a := done (.ok a)
  bind := bind

/-- The caller looks at the result of a procedure, an error included. -/
def attempt : Procedure σ ε α → Procedure σ ε' (Except ε α)
  | done result => done (.ok result)
  | reading next => reading fun s ↦ (next s).attempt
  | writing change next => writing change next.attempt
  | committing next => committing next.attempt

/-- What the session sees. -/
def current : Procedure σ ε σ := reading fun s ↦ done (.ok s)

/-- A change that is flushed and not committed. -/
def write (change : σ → σ) : Procedure σ ε Unit := writing change (done (.ok ()))

def commit : Procedure σ ε Unit := committing (done (.ok ()))

/-- The result of a check, or its error. -/
def check (result : Except ε α) : Procedure σ ε α := done result

def mapError (f : ε → ε') (p : Procedure σ ε α) : Procedure σ ε' α := do
  let result ← p.attempt
  check (result.mapError f)

/-- The session after a procedure, and the result. -/
def run : Procedure σ ε α → Session σ → Session σ × Except ε α
  | done result, s => (s, result)
  | reading next, s => (next s.working).run s
  | writing change next, s => next.run ⟨s.stored, change s.working⟩
  | committing next, s => next.run ⟨s.working, s.working⟩

/-- The store as it is found when the procedure stops for good before one of its steps. -/
def interrupted : ℕ → Procedure σ ε α → Session σ → σ
  | 0, _, s | _, done _, s => s.stored
  | n + 1, reading next, s => interrupted n (next s.working) s
  | n + 1, writing change next, s => interrupted n next ⟨s.stored, change s.working⟩
  | n + 1, committing next, s => interrupted n next ⟨s.working, s.working⟩

/-- A state in which the store can be found, wherever the procedure stops. -/
def Durable (p : Procedure σ ε α) (s : Session σ) (t : σ) : Prop := ∃ n, interrupted n p s = t

section Durable

variable {p : Procedure σ ε α} {s : Session σ} {t : σ}

theorem interrupted_zero (p : Procedure σ ε α) (s : Session σ) : interrupted 0 p s = s.stored := by
  cases p <;> rfl

theorem durable_stored (p : Procedure σ ε α) (s : Session σ) : p.Durable s s.stored :=
  ⟨0, interrupted_zero p s⟩

theorem durable_done {result : Except ε α} :
    (done result : Procedure σ ε α).Durable s t ↔ t = s.stored := by
  constructor
  · intro h
    obtain ⟨n, rfl⟩ := h
    cases n <;> rfl
  · intro h
    rw [h]
    exact durable_stored _ s

theorem durable_reading {next : σ → Procedure σ ε α} :
    (reading next).Durable s t ↔ (next s.working).Durable s t := by
  constructor
  · intro h
    obtain ⟨n, rfl⟩ := h
    cases n with
    | zero => exact durable_stored _ s
    | succ n => exact ⟨n, rfl⟩
  · intro h
    obtain ⟨n, hn⟩ := h
    exact ⟨n + 1, hn⟩

theorem durable_writing {change : σ → σ} {next : Procedure σ ε α} :
    (writing change next).Durable s t ↔ next.Durable ⟨s.stored, change s.working⟩ t := by
  constructor
  · intro h
    obtain ⟨n, rfl⟩ := h
    cases n with
    | zero => exact durable_stored next ⟨s.stored, change s.working⟩
    | succ n => exact ⟨n, rfl⟩
  · intro h
    obtain ⟨n, hn⟩ := h
    exact ⟨n + 1, hn⟩

theorem durable_committing {next : Procedure σ ε α} : (committing next).Durable s t ↔
    t = s.stored ∨ next.Durable ⟨s.working, s.working⟩ t := by
  constructor
  · intro h
    obtain ⟨n, rfl⟩ := h
    cases n with
    | zero => exact .inl rfl
    | succ n => exact .inr ⟨n, rfl⟩
  · intro h
    rcases h with rfl | ⟨n, hn⟩
    · exact durable_stored _ s
    · exact ⟨n + 1, hn⟩

/-- The store after a procedure is one of the states it can be found in. -/
theorem durable_run (p : Procedure σ ε α) (s : Session σ) : p.Durable s (p.run s).1.stored := by
  induction p generalizing s with
  | done result => exact durable_stored _ s
  | reading next ih => exact durable_reading.mpr (ih s.working s)
  | writing change next ih => exact durable_writing.mpr (ih _)
  | committing next ih => exact durable_committing.mpr (.inr (ih _))

end Durable

section Bind

variable {p : Procedure σ ε α} {f : α → Procedure σ ε β} {s : Session σ} {t : σ}

theorem run_bind (p : Procedure σ ε α) (f : α → Procedure σ ε β) (s : Session σ) :
    (p >>= f).run s = match p.run s with
      | (s', .ok a) => (f a).run s'
      | (s', .error e) => (s', .error e) := by
  change (p.bind f).run s = _
  induction p generalizing s with
  | done result => cases result <;> rfl
  | reading next ih => exact ih s.working s
  | writing change next ih => exact ih _
  | committing next ih => exact ih _

theorem run_bind_ok {s' : Session σ} {a : α} (h : p.run s = (s', .ok a)) :
    (p >>= f).run s = (f a).run s' := by
  rw [run_bind, h]

theorem run_bind_error {s' : Session σ} {e : ε} (h : p.run s = (s', .error e)) :
    (p >>= f).run s = (s', .error e) := by
  rw [run_bind, h]

theorem durable_bind : (p >>= f).Durable s t ↔
    p.Durable s t ∨ ∃ a, (p.run s).2 = .ok a ∧ (f a).Durable (p.run s).1 t := by
  change (p.bind f).Durable s t ↔ _
  induction p generalizing s with
  | done result =>
    cases result with
    | error e =>
      have hrun (a : α) : ((done (.error e) : Procedure σ ε α).run s).2 ≠ .ok a := by simp [run]
      simp only [hrun, false_and, exists_false, or_false]
      exact durable_done.trans durable_done.symm
    | ok a =>
      constructor
      · intro h
        exact .inr ⟨a, rfl, h⟩
      · intro h
        rcases h with hdone | ⟨b, hb, h⟩
        · rw [durable_done.mp hdone]
          exact durable_stored _ s
        · cases hb
          exact h
  | reading next ih =>
    exact (durable_reading.trans (ih s.working)).trans (or_congr durable_reading.symm Iff.rfl)
  | writing change next ih =>
    exact (durable_writing.trans ih).trans (or_congr durable_writing.symm Iff.rfl)
  | committing next ih =>
    refine (durable_committing.trans (or_congr Iff.rfl ih)).trans ?_
    exact or_assoc.symm.trans (or_congr durable_committing.symm Iff.rfl)

theorem run_current (q : σ → Procedure σ ε α) (s : σ) :
    (current >>= q).run (.opened s) = (q s).run (.opened s) := rfl

theorem durable_current {q : σ → Procedure σ ε α} {s : σ} :
    (current >>= q).Durable (.opened s) t ↔ (q s).Durable (.opened s) t := durable_reading

theorem run_bind_pure (p : Procedure σ ε α) (g : α → β) (s : Session σ) :
    (p >>= fun a ↦ pure (g a)).run s = ((p.run s).1, (p.run s).2.map g) := by
  rw [run_bind]
  cases p.run s with | mk s' result =>
  cases result <;> rfl

theorem durable_bind_pure {g : α → β} :
    (p >>= fun a ↦ pure (g a)).Durable s t ↔ p.Durable s t := by
  rw [durable_bind]
  constructor
  · intro h
    rcases h with h | ⟨a, -, h⟩
    · exact h
    · rw [durable_done.mp h]
      exact durable_run p s
  · exact .inl

theorem run_attempt (p : Procedure σ ε α) (s : Session σ) :
    (p.attempt : Procedure σ ε' (Except ε α)).run s = ((p.run s).1, .ok (p.run s).2) := by
  induction p generalizing s with
  | done result => rfl
  | reading next ih => exact ih s.working s
  | writing change next ih => exact ih _
  | committing next ih => exact ih _

theorem durable_attempt :
    (p.attempt : Procedure σ ε' (Except ε α)).Durable s t ↔ p.Durable s t := by
  induction p generalizing s with
  | done result => exact durable_done.trans durable_done.symm
  | reading next ih => exact (durable_reading.trans (ih s.working)).trans durable_reading.symm
  | writing change next ih => exact (durable_writing.trans ih).trans durable_writing.symm
  | committing next ih =>
    exact (durable_committing.trans (or_congr Iff.rfl ih)).trans durable_committing.symm

theorem run_mapError (g : ε → ε') (p : Procedure σ ε α) (s : Session σ) :
    (p.mapError g).run s = ((p.run s).1, (p.run s).2.mapError g) := by
  unfold mapError
  rw [run_bind, run_attempt]
  rfl

theorem durable_mapError {g : ε → ε'} : (p.mapError g).Durable s t ↔ p.Durable s t := by
  unfold mapError
  rw [durable_bind, durable_attempt, run_attempt]
  constructor
  · intro h
    rcases h with h | ⟨a, -, h⟩
    · exact h
    · rw [durable_done.mp h]
      exact durable_run p s
  · exact .inl

end Bind

/-- A procedure that commits nothing. -/
def Quiet : Procedure σ ε α → Prop
  | done _ => True
  | reading next => ∀ s, (next s).Quiet
  | writing _ next => next.Quiet
  | committing _ => False

/-- The store is found as it was, or as a procedure that ends well leaves it. -/
def Atomic (p : Procedure σ ε α) : Prop :=
  ∀ s t, p.Durable s t → t = s.stored ∨ ∃ a, p.run s = (⟨t, (p.run s).1.working⟩, .ok a)

section Quiet

variable {p : Procedure σ ε α} {f : α → Procedure σ ε β} {s : Session σ} {t : σ}

theorem Quiet.bind (hp : p.Quiet) (hf : ∀ a, (f a).Quiet) : (p >>= f).Quiet := by
  change (p.bind f).Quiet
  induction p with
  | done result =>
    cases result with
    | error e => trivial
    | ok a => exact hf a
  | reading next ih => exact fun s ↦ ih s (hp s)
  | writing change next ih => exact ih hp
  | committing next ih => cases hp

theorem quiet_if {c : Prop} [Decidable c] {q : Procedure σ ε α} (hp : c → p.Quiet)
    (hq : ¬c → q.Quiet) : (if c then p else q).Quiet := by
  split_ifs with h
  · exact hp h
  · exact hq h

theorem Quiet.durable (hp : p.Quiet) (h : p.Durable s t) : t = s.stored := by
  induction p generalizing s with
  | done result => exact durable_done.mp h
  | reading next ih => exact ih s.working (hp s.working) (durable_reading.mp h)
  | writing change next ih =>
    exact ih (s := ⟨s.stored, change s.working⟩) hp (durable_writing.mp h)
  | committing next ih => cases hp

theorem Quiet.stored (hp : p.Quiet) (s : Session σ) : (p.run s).1.stored = s.stored :=
  hp.durable (durable_run p s)

theorem Quiet.atomic (hp : p.Quiet) : p.Atomic := fun _ _ h ↦ .inl (hp.durable h)

theorem commit_atomic : (commit : Procedure σ ε Unit).Atomic := by
  intro s t h
  rcases durable_committing.mp h with h | h
  · exact .inl h
  · rw [durable_done.mp h]
    exact .inr ⟨(), rfl⟩

theorem Quiet.bind_atomic (hp : p.Quiet) (hf : ∀ a, (f a).Atomic) : (p >>= f).Atomic := by
  intro s t h
  rcases durable_bind.mp h with h | ⟨a, ha, h⟩
  · exact .inl (hp.durable h)
  · have hrun : p.run s = ((p.run s).1, .ok a) := Prod.ext rfl ha
    rw [run_bind_ok hrun]
    rcases hf a _ t h with h | h
    · exact .inl (h.trans (hp.stored s))
    · exact .inr h

theorem atomic_if {c : Prop} [Decidable c] {q : Procedure σ ε α} (hp : c → p.Atomic)
    (hq : ¬c → q.Atomic) : (if c then p else q).Atomic := by
  split_ifs with h
  · exact hp h
  · exact hq h

/-- What follows the commit only gives the result. -/
theorem Atomic.bind_pure (hp : p.Atomic) (g : α → β) : (p >>= fun a ↦ pure (g a)).Atomic := by
  intro s t h
  rcases hp s t (durable_bind_pure.mp h) with h | ⟨a, hrun⟩
  · exact .inl h
  · refine .inr ⟨g a, ?_⟩
    rw [run_bind_pure, hrun]
    rfl

theorem Atomic.mapError {g : ε → ε'} (hp : p.Atomic) : (p.mapError g).Atomic := by
  intro s t h
  rcases hp s t (durable_mapError.mp h) with h | ⟨a, hrun⟩
  · exact .inl h
  · refine .inr ⟨a, ?_⟩
    rw [run_mapError, hrun]
    rfl

/-- An atomic procedure that raises an error leaves the store as it was. -/
theorem Atomic.error (hp : p.Atomic) {e : ε} (h : (p.run s).2 = .error e) :
    (p.run s).1.stored = s.stored := by
  rcases hp s _ (durable_run p s) with hstored | ⟨a, hrun⟩
  · exact hstored
  · rw [hrun] at h
    cases h

theorem current_quiet : (current : Procedure σ ε σ).Quiet := fun _ ↦ trivial

theorem check_quiet (result : Except ε α) : (check result : Procedure σ ε α).Quiet := trivial

theorem write_quiet (change : σ → σ) : (write change : Procedure σ ε Unit).Quiet := trivial

theorem pure_quiet (a : α) : (pure a : Procedure σ ε α).Quiet := trivial

end Quiet

section Yields

variable {ρ : Type} {close : σ → Session σ} {out : ρ → α × σ} {s : Session σ}

/-- The run of a procedure comes to a result, which holds the state that the session is closed
with; an error may leave any state in the session. -/
def Yields (close : σ → Session σ) (out : ρ → α × σ) (p : Procedure σ ε α) (s : Session σ)
    (result : Except ε ρ) : Prop :=
  (p.run s).2 = (fun r ↦ (out r).1) <$> result ∧
    ∀ r, result = .ok r → (p.run s).1 = close (out r).2

theorem Yields.of_run {p : Procedure σ ε α} {r : ρ}
    (h : p.run s = (close (out r).2, .ok (out r).1)) : Yields close out p s (.ok r) := by
  refine ⟨by rw [h]; rfl, ?_⟩
  intro r' hr
  cases hr
  rw [h]

theorem yields_error (e : ε) : Yields close out (check (.error e) : Procedure σ ε α) s (.error e) :=
  ⟨rfl, fun _ h ↦ by cases h⟩

theorem yields_current {q : σ → Procedure σ ε α} {result : Except ε ρ}
    (h : Yields close out (q s.working) s result) : Yields close out (current >>= q) s result := h

theorem yields_check {x : Except ε β} {q : β → Procedure σ ε α} {g : β → Except ε ρ}
    (h : ∀ b, x = .ok b → Yields close out (q b) s (g b)) :
    Yields close out (check x >>= q) s (x >>= g) := by
  cases x with
  | error e => exact yields_error e
  | ok b => exact h b rfl

theorem yields_if {c : Prop} [Decidable c] {p q : Procedure σ ε α} {r r' : Except ε ρ}
    (hp : c → Yields close out p s r) (hq : ¬c → Yields close out q s r') :
    Yields close out (if c then p else q) s (if c then r else r') := by
  split_ifs with h
  · exact hp h
  · exact hq h

/-- A procedure that leaves the store alone is followed by another. -/
theorem yields_bind {ρ' : Type} {out' : ρ' → β × σ} {p : Procedure σ ε β} {q : β → Procedure σ ε α}
    {x : Except ε ρ'} {g : ρ' → Except ε ρ} (hp : Yields (Session.mk s.stored) out' p s x)
    (h : ∀ r, x = .ok r → Yields close out (q (out' r).1) ⟨s.stored, (out' r).2⟩ (g r)) :
    Yields close out (p >>= q) s (x >>= g) := by
  obtain ⟨hresult, hsession⟩ := hp
  cases x with
  | error e =>
    have hrun : p.run s = ((p.run s).1, .error e) := Prod.ext rfl hresult
    unfold Yields
    rw [run_bind_error hrun]
    exact ⟨rfl, fun _ hr ↦ by cases hr⟩
  | ok r =>
    have hrun : p.run s = (⟨s.stored, (out' r).2⟩, .ok (out' r).1) :=
      Prod.ext (hsession r rfl) hresult
    unfold Yields
    rw [run_bind_ok hrun]
    exact h r rfl

end Yields

/-- A procedure commits what a function makes of the store, once and at its end, and nothing when
the function fails. -/
structure Commits {ρ : Type} (out : ρ → α × σ) (p : Procedure σ ε α) (f : σ → Except ε ρ) :
    Prop where
  atomic : p.Atomic
  yields : ∀ s, Yields .opened out p (.opened s) (f s)

section Commits

variable {ρ : Type} {out : ρ → α × σ} {p : Procedure σ ε α} {f : σ → Except ε ρ} {s t : σ}

theorem Commits.of_run (hp : p.Atomic)
    (h : ∀ s, p.run (.opened s) = match f s with
      | .ok r => (.opened (out r).2, .ok (out r).1)
      | .error e => (.opened s, .error e)) : Commits out p f where
  atomic := hp
  yields := by
    intro s
    have hs := h s
    cases hf : f s with
    | error e =>
      rw [hf] at hs
      exact ⟨congrArg Prod.snd hs, fun _ hr ↦ by cases hr⟩
    | ok r =>
      rw [hf] at hs
      exact .of_run hs

theorem Commits.stored (h : Commits out p f) {r : ρ} (hr : f s = .ok r) :
    (p.run (.opened s)).1.stored = (out r).2 := by
  rw [(h.yields s).2 r hr]
  rfl

theorem Commits.unchanged (h : Commits out p f) {e : ε} (hf : f s = .error e) :
    (p.run (.opened s)).1.stored = s := by
  refine h.atomic.error (e := e) (s := .opened s) ?_
  rw [(h.yields s).1, hf]
  rfl

theorem Commits.result (h : Commits out p f) (s : σ) :
    (p.run (.opened s)).2 = (fun r ↦ (out r).1) <$> f s := (h.yields s).1

theorem Commits.durable (h : Commits out p f) (ht : p.Durable (.opened s) t) :
    t = s ∨ ∃ r, f s = .ok r ∧ t = (out r).2 := by
  rcases h.atomic _ t ht with hstored | ⟨a, hrun⟩
  · exact .inl hstored
  · cases hf : f s with
    | ok r =>
      refine .inr ⟨r, rfl, ?_⟩
      rw [← h.stored hf, hrun]
    | error e =>
      have hresult := (h.yields s).1
      rw [hrun, hf] at hresult
      cases hresult

theorem Commits.congr {ρ' : Type} {out' : ρ' → α × σ} {g : σ → Except ε ρ'} (h : Commits out p f)
    (hg : ∀ s, out' <$> g s = out <$> f s) : Commits out' p g where
  atomic := h.atomic
  yields := by
    intro s
    obtain ⟨hresult, hsession⟩ := h.yields s
    have hs := hg s
    cases hf : f s with
    | error e =>
      rw [hf] at hs hresult
      cases hgs : g s with
      | error e' =>
        rw [hgs] at hs
        cases hs
        exact ⟨hresult, fun _ hr ↦ by cases hr⟩
      | ok r =>
        rw [hgs] at hs
        cases hs
    | ok r =>
      rw [hf] at hs hresult
      cases hgs : g s with
      | error e' =>
        rw [hgs] at hs
        cases hs
      | ok r' =>
        rw [hgs] at hs
        have hout : out' r' = out r := Except.ok.inj hs
        exact .of_run (Prod.ext (by rw [hout]; exact hsession r hf) (by rw [hout]; exact hresult))

theorem Commits.mapError {g : ε → ε'} (h : Commits out p f) :
    Commits out (p.mapError g) fun s ↦ (f s).mapError g where
  atomic := h.atomic.mapError
  yields := by
    intro s
    obtain ⟨hresult, hsession⟩ := h.yields s
    unfold Yields
    rw [run_mapError]
    dsimp only
    rw [hresult]
    refine ⟨by cases f s <;> rfl, ?_⟩
    intro r hr
    exact hsession r (mapError_eq_ok.mp hr)

theorem Commits.bind_pure (h : Commits out p f) (g : α → β) :
    Commits (fun r ↦ (g (out r).1, (out r).2)) (p >>= fun a ↦ pure (g a)) f where
  atomic := h.atomic.bind_pure g
  yields := by
    intro s
    obtain ⟨hresult, hsession⟩ := h.yields s
    unfold Yields
    rw [run_bind_pure]
    dsimp only
    rw [hresult]
    exact ⟨by cases f s <;> rfl, hsession⟩

/-- A transaction is followed by others, which start from what it has stored. -/
theorem Commits.run_then (h : Commits out p f) {r : ρ} (hr : f s = .ok r)
    (q : α → Procedure σ ε β) :
    (p >>= q).run (.opened s) = (q (out r).1).run (.opened (out r).2) := by
  obtain ⟨hresult, hsession⟩ := h.yields s
  rw [hr] at hresult
  exact run_bind_ok (Prod.ext (hsession r hr) hresult)

theorem Commits.durable_then (h : Commits out p f) {q : α → Procedure σ ε β} :
    (p >>= q).Durable (.opened s) t →
      t = s ∨ ∃ r, f s = .ok r ∧ (q (out r).1).Durable (.opened (out r).2) t := by
  intro ht
  rcases durable_bind.mp ht with hp | ⟨a, ha, hq⟩
  · rcases h.durable hp with rfl | ⟨r, hr, rfl⟩
    · exact .inl rfl
    · exact .inr ⟨r, hr, durable_stored _ _⟩
  · obtain ⟨hresult, hsession⟩ := h.yields s
    rw [ha] at hresult
    cases hf : f s with
    | error e =>
      rw [hf] at hresult
      cases hresult
    | ok r =>
      rw [hf] at hresult
      rw [hsession r hf, Except.ok.inj hresult] at hq
      exact .inr ⟨r, rfl, hq⟩

/-- A check comes first, here one of what the session sees. -/
theorem commits_current {x : σ → Except ε β} {q : β → Procedure σ ε α} {g : β → σ → Except ε ρ}
    (h : ∀ b, Commits out (q b) (g b)) :
    Commits out
      (do
        let s ← current
        let b ← check (x s)
        q b)
      fun s ↦ x s >>= fun b ↦ g b s where
  atomic := current_quiet.bind_atomic fun _ ↦ (check_quiet _).bind_atomic fun b ↦ (h b).atomic
  yields := fun s ↦ yields_current (yields_check fun b _ ↦ (h b).yields s)

theorem commits_check {x : Except ε β} {q : β → Procedure σ ε α} {g : β → σ → Except ε ρ}
    (h : ∀ b, Commits out (q b) (g b)) :
    Commits out (check x >>= q) fun s ↦ x >>= fun b ↦ g b s where
  atomic := (check_quiet _).bind_atomic fun b ↦ (h b).atomic
  yields := fun s ↦ yields_check fun b _ ↦ (h b).yields s

end Commits

end Procedure

end CronPanel.Library.Transactions
