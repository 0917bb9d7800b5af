import CronPanel.Library.Run
import CronPanel.Library.Tables

namespace CronPanel.Library.Sessions

open Tables Run

/-- How a server handles a request on a store: the request is accepted, reads the store in one
stage after another, and commits once, at its end. -/
structure Handler (σ ρ τ : Type) where
  accept : σ → ρ → Option τ
  ready : τ → Bool
  read : σ → τ → Option τ
  commit : σ → τ → Option σ

/-- The store, the sessions of the requests in progress, and the requests that have committed. -/
structure World (σ ρ τ : Type) where
  store : σ
  sessions : Table ℕ (ρ × τ)
  committed : List ρ

/-- A request is sent, and makes its reads and its commit one by one; it can be cut off. -/
inductive Action (ρ : Type)
  | send (request : ρ)
  | read (k : ℕ)
  | commit (k : ℕ)
  | abort (k : ℕ)

variable {σ ρ τ : Type}

def begin (s : σ) : World σ ρ τ := ⟨s, .empty, []⟩

namespace Handler

variable (h : Handler σ ρ τ)

/-- A read or a commit that fails ends the session, and nothing of it is stored. -/
def step (w : World σ ρ τ) : Action ρ → Option (World σ ρ τ)
  | .send request =>
    some ((h.accept w.store request).elim w fun stage ↦
      { w with sessions := (w.sessions.insert (request, stage)).2 })
  | .read k =>
    match w.sessions.get? k with
    | some (request, stage) =>
      if h.ready stage then none
      else
        some { w with sessions := (h.read w.store stage).elim (w.sessions.erase k) fun next ↦
          w.sessions.set k (request, next) }
    | none => none
  | .commit k =>
    match w.sessions.get? k with
    | some (request, stage) =>
      if h.ready stage then
        some ((h.commit w.store stage).elim { w with sessions := w.sessions.erase k } fun store ↦
          ⟨store, w.sessions.erase k, w.committed ++ [request]⟩)
      else none
    | none => none
  | .abort k => (w.sessions.get? k).map fun _ ↦ { w with sessions := w.sessions.erase k }

/-- The reads from a stage on, made at once. -/
def settle (s : σ) : ℕ → τ → Option τ
  | 0, stage => if h.ready stage then some stage else none
  | n + 1, stage => if h.ready stage then some stage else (h.read s stage).bind (settle s n)

/-- A request that has the store to itself. -/
def serve (n : ℕ) (s : σ) (request : ρ) : Option σ :=
  ((h.accept s request).bind (h.settle s n)).bind (h.commit s)

/-- The condition holds of every session that commits. -/
def Committing (C : σ → ρ → τ → Prop) (w : World σ ρ τ) : Action ρ → Prop
  | .commit k => ∀ request stage, w.sessions.get? k = some (request, stage) → h.ready stage →
      C w.store request stage
  | _ => True

/-- The reads of a session, made again, read the same. -/
def Fresh (n : ℕ) (s : σ) (request : ρ) (stage : τ) : Prop :=
  (h.accept s request).bind (h.settle s n) = some stage

/-- What is known of the sessions follows from their reads, and stays known as others commit. -/
structure Knows (I : σ → Prop) (C Q : σ → ρ → τ → Prop) : Prop where
  accept : ∀ s request stage, I s → h.accept s request = some stage → Q s request stage
  read : ∀ s request stage next, I s → Q s request stage → h.ready stage = false →
    h.read s stage = some next → Q s request next
  commit : ∀ s request stage s', I s → Q s request stage → h.ready stage → C s request stage →
    h.commit s stage = some s' → ∀ request' stage', Q s request' stage' → Q s' request' stage'

/-- The store keeps its invariant, and what is known of the sessions holds. -/
structure Good (I : σ → Prop) (Q : σ → ρ → τ → Prop) (w : World σ ρ τ) : Prop where
  store : I w.store
  sessions : ∀ k r, w.sessions.get? k = some r → Q w.store r.1 r.2

/-- The same requests on a store that keeps something beside. -/
def beside {σ' : Type} (f : σ' → σ) (g : σ' → σ → σ') : Handler σ' ρ τ where
  accept s := h.accept (f s)
  ready := h.ready
  read s := h.read (f s)
  commit s stage := (h.commit (f s) stage).map (g s)

variable {h} {I P : σ → Prop} {C Q : σ → ρ → τ → Prop} {w w' : World σ ρ τ} {s : σ}

theorem Knows.beside {σ' : Type} {f : σ' → σ} {g : σ' → σ → σ'} {I' : σ' → Prop}
    {C' : σ' → ρ → τ → Prop} (hknows : h.Knows I C Q) (hI : ∀ s, I' s → I (f s))
    (hC : ∀ s request stage, C' s request stage → C (f s) request stage)
    (hg : ∀ s t, f (g s t) = t) : (h.beside f g).Knows I' C' fun s ↦ Q (f s) where
  accept s request stage hs := hknows.accept (f s) request stage (hI s hs)
  read s request stage next hs := hknows.read (f s) request stage next (hI s hs)
  commit s request stage s' hs hQ hready hmet hcommit request' stage' hQ' := by
    obtain ⟨t, ht, rfl⟩ := Option.map_eq_some_iff.mp hcommit
    rw [hg]
    exact hknows.commit (f s) request stage t (hI s hs) hQ hready (hC _ _ _ hmet) ht _ _ hQ'

theorem good_begin (hs : I s) : Good I Q (begin s : World σ ρ τ) :=
  ⟨hs, fun k r hr ↦ by cases hr⟩

theorem Good.erase (hw : Good I Q w) (k : ℕ) :
    Good I Q { w with sessions := w.sessions.erase k } := by
  refine ⟨hw.store, ?_⟩
  exact Table.forall_erase fun j r _ hr ↦ hw.sessions j r hr

theorem Good.set (hw : Good I Q w) {k : ℕ} {r : ρ × τ} (hr : Q w.store r.1 r.2) :
    Good I Q { w with sessions := w.sessions.set k r } := by
  refine ⟨hw.store, ?_⟩
  exact Table.forall_set (P := fun _ r ↦ Q w.store r.1 r.2) hr fun j b _ hb ↦ hw.sessions j b hb

/-- What one step keeps, when a commit that meets the condition keeps the invariant. -/
theorem Good.step (hknows : h.Knows I C Q)
    (hkeep : ∀ s request stage s', I s → Q s request stage → h.ready stage → C s request stage →
      h.commit s stage = some s' → I s')
    (hw : Good I Q w) {a : Action ρ} (ha : h.Committing C w a) (hstep : h.step w a = some w') :
    Good I Q w' := by
  cases a with
  | send request =>
    obtain rfl := Option.some.inj hstep
    cases haccept : h.accept w.store request with
    | none => exact hw
    | some stage => exact hw.set (hknows.accept _ _ _ hw.store haccept)
  | read k =>
    simp only [Handler.step] at hstep
    split at hstep
    · rename_i request stage hk
      split_ifs at hstep with hready
      obtain rfl := Option.some.inj hstep
      rw [Bool.not_eq_true] at hready
      cases hread : h.read w.store stage with
      | none => exact hw.erase k
      | some next =>
        have hQ : Q w.store request stage := hw.sessions k _ hk
        exact hw.set (r := (request, next)) (hknows.read _ _ _ _ hw.store hQ hready hread)
    · cases hstep
  | commit k =>
    simp only [Handler.step] at hstep
    split at hstep
    · rename_i request stage hk
      split_ifs at hstep with hready
      obtain rfl := Option.some.inj hstep
      have hQ := hw.sessions _ _ hk
      have hC := ha _ _ hk hready
      cases hcommit : h.commit w.store stage with
      | none => exact hw.erase k
      | some store =>
        refine ⟨hkeep _ _ _ _ hw.store hQ hready hC hcommit, ?_⟩
        intro j r hr
        exact hknows.commit _ _ _ _ hw.store hQ hready hC hcommit _ _
          ((hw.erase k).sessions j r hr)
    · cases hstep
  | abort k =>
    obtain ⟨r, -, rfl⟩ := Option.map_eq_some_iff.mp hstep
    exact hw.erase k

/-- When the condition is what keeps the invariant, and a commit that does not meet it breaks the
property at once, a run keeps the property exactly when all its commits meet the condition. -/
theorem always_iff_committing (hP : ∀ s, I s → P s) (hknows : h.Knows I C Q)
    (hkeep : ∀ s request stage s', I s → Q s request stage → h.ready stage → C s request stage →
      h.commit s stage = some s' → I s')
    (hbreak : ∀ s request stage, I s → Q s request stage → h.ready stage → ¬C s request stage →
      ∃ s', h.commit s stage = some s' ∧ ¬P s')
    (hs : I s) (as : List (Action ρ)) :
    Always h.step (fun w ↦ P w.store) (begin s) as ↔
      Guarded h.step (h.Committing C) (begin s) as := by
  refine always_iff_guarded (fun _ hw ↦ hP _ hw.store)
    (fun _ _ _ hw ha hstep ↦ hw.step hknows hkeep ha hstep) ?_ as (good_begin (Q := Q) hs)
  intro w a hw ha
  cases a with
  | commit k =>
    simp only [Committing, not_forall] at ha
    obtain ⟨request, stage, hk, hready, hC⟩ := ha
    obtain ⟨s', hcommit, hnot⟩ := hbreak _ _ _ hw.store (hw.sessions _ _ hk) hready hC
    refine ⟨⟨s', w.sessions.erase k, w.committed ++ [request]⟩, ?_, hnot⟩
    simp only [step, hk, if_pos hready, hcommit, Option.elim_some]
  | send request => exact absurd trivial ha
  | read k => exact absurd trivial ha
  | abort k => exact absurd trivial ha

/-- Requests whose commits find what they have read are served as if one after another, in the
order of their commits. -/
theorem serial_of_fresh {n : ℕ} {as : List (Action ρ)}
    (hrun : Guarded h.step (h.Committing (h.Fresh n)) (begin s) as) :
    Always h.step (fun w ↦ exec (h.serve n) s w.committed = some w.store) (begin s) as := by
  refine guarded_always ?_ rfl hrun
  intro w a w' hw ha hstep
  cases a with
  | send request =>
    obtain rfl := Option.some.inj hstep
    cases h.accept w.store request <;> exact hw
  | read k =>
    simp only [Handler.step] at hstep
    split at hstep
    · split_ifs at hstep
      obtain rfl := Option.some.inj hstep
      exact hw
    · cases hstep
  | commit k =>
    simp only [Handler.step] at hstep
    split at hstep
    · rename_i request stage hk
      split_ifs at hstep with hready
      obtain rfl := Option.some.inj hstep
      have hfresh : h.Fresh n w.store request stage := ha _ _ hk hready
      cases hcommit : h.commit w.store stage with
      | none => exact hw
      | some store =>
        have hserve : h.serve n w.store request = some store := by
          rw [serve, hfresh]
          exact hcommit
        exact exec_concat.mpr ⟨w.store, hw, hserve⟩
    · cases hstep
  | abort k =>
    obtain ⟨r, -, rfl⟩ := Option.map_eq_some_iff.mp hstep
    exact hw

end Handler

end CronPanel.Library.Sessions
