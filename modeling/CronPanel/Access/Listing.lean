import CronPanel.Library.Windows
import CronPanel.Scheduler.Eligibility

namespace CronPanel.Access.Listing

open Library.Strings Library.Tables Library.Windows Core.Permissions Data.Records Data.Repositories
open Services.CronJobs Scheduler.Eligibility

/-- A text without the case of its ASCII letters. -/
def folded (t : Text) : Text := t.map Char.toLower

/-- The jobs that a listing is to show, by what its filters say. -/
structure Wanted (actor : Actor) (filters : CronJobFilter) (job : CronJob) : Prop where
  kept : job.isDeleted = false
  owner : if isFullAccessRole actor.user.role then ∀ o, filters.ownerId = some o → job.ownerId = o
    else job.ownerId = actor.id
  active : ∀ b, filters.isActive = some b → job.isActive = b
  name : ∀ n, filters.name = some n → folded n <:+: folded job.name
  schedule : ∀ s, filters.schedule = some s → s <:+: job.scheduleExpression

def limitOf (filters : CronJobFilter) : ℕ := (max 1 (min filters.limit 500)).toNat

def offsetOf (filters : CronJobFilter) : ℕ := (max 0 filters.offset).toNat

/-- The window of the wanted jobs, in decreasing order of their ids. -/
def Exact (db : Database) (actor : Actor) (filters : CronJobFilter) (listed : List (ℕ × CronJob)) :
    Prop :=
  ∃ jobs : List (ℕ × CronJob), jobs.Pairwise (fun a b ↦ b.1 < a.1) ∧
    (∀ id job, (id, job) ∈ jobs ↔ db.cronJobs.get? id = some job ∧ Wanted actor filters job) ∧
    listed = window (limitOf filters) (offsetOf filters) jobs

/-- The conditions of the query but for those on texts. -/
def inScope (actor : Actor) (filters : CronJobFilter) (job : CronJob) : Bool :=
  !job.isDeleted &&
    (if isFullAccessRole actor.user.role then filters.ownerId else some actor.id).all
      (· == job.ownerId) &&
    filters.isActive.all (· == job.isActive)

/-- The conditions of the query on texts: a pattern for the name, and the whole expression. -/
def queried (filters : CronJobFilter) (job : CronJob) : Bool :=
  filters.name.all (fun name ↦ name.isEmpty || ilike ('%' :: name ++ ['%']) job.name) &&
    filters.schedule.all fun schedule ↦ schedule.isEmpty || schedule == job.scheduleExpression

/-- The texts of the filters are found in those of the job. -/
def contained (filters : CronJobFilter) (job : CronJob) : Bool :=
  filters.name.all (fun name ↦ folded name <:+: folded job.name) &&
    filters.schedule.all fun schedule ↦ schedule <:+: job.scheduleExpression

/-- The jobs in scope, the newest first. -/
def candidates (db : Database) (actor : Actor) (filters : CronJobFilter) : List (ℕ × CronJob) :=
  (db.cronJobs.rows.filter fun r ↦ inScope actor filters r.2).reverse

section

variable {db : Database} {actor : Actor} {filters : CronJobFilter} {job : CronJob}

theorem wanted_iff : Wanted actor filters job ↔ inScope actor filters job ∧ contained filters job := by
  have hall {α : Type} {o : Option α} {p : α → Bool} : o.all p ↔ ∀ a, o = some a → p a := by
    cases o <;> simp
  simp only [inScope, contained, Bool.and_eq_true, hall, beq_iff_eq, decide_eq_true_eq,
    Bool.not_eq_true']
  constructor
  · intro h
    refine ⟨⟨⟨h.kept, ?_⟩, fun b hb ↦ (h.active b hb).symm⟩, h.name, h.schedule⟩
    have howner := h.owner
    intro o ho
    split_ifs at howner ho
    · exact (howner o ho).symm
    · rw [howner, ← Option.some.inj ho]
  · intro h
    obtain ⟨⟨⟨hkept, howner⟩, hactive⟩, hname, hschedule⟩ := h
    refine ⟨hkept, ?_, fun b hb ↦ (hactive b hb).symm, hname, hschedule⟩
    split_ifs at howner ⊢
    · exact fun o ho ↦ (howner o ho).symm
    · exact (howner actor.id rfl).symm

theorem candidates_sorted : (candidates db actor filters).Pairwise fun a b ↦ b.1 < a.1 := by
  rw [candidates, List.pairwise_reverse]
  exact db.cronJobs.sorted.filter _

theorem listCronJobs_eq : listCronJobs db actor filters =
    window (limitOf filters) (offsetOf filters)
      ((candidates db actor filters).filter fun r ↦ queried filters r.2) := by
  have haccepts : (if isFullAccessRole actor.user.role then filters
        else { filters with ownerId := some actor.id }).accepts =
      fun job ↦ queried filters job && inScope actor filters job := by
    funext job
    unfold CronJobFilter.accepts queried inScope
    split_ifs <;> ac_rfl
  unfold listCronJobs Database.listJobs candidates
  rw [haccepts, List.filter_reverse, List.filter_filter]
  split_ifs <;> rfl

theorem exact_iff {listed : List (ℕ × CronJob)} : Exact db actor filters listed ↔
    listed = window (limitOf filters) (offsetOf filters)
      ((candidates db actor filters).filter fun r ↦ contained filters r.2) := by
  have hsorted : ((candidates db actor filters).filter fun r ↦ contained filters r.2).Pairwise
      fun a b ↦ b.1 < a.1 := candidates_sorted.filter _
  have hmem (id : ℕ) (job : CronJob) :
      (id, job) ∈ (candidates db actor filters).filter (fun r ↦ contained filters r.2) ↔
        db.cronJobs.get? id = some job ∧ Wanted actor filters job := by
    rw [wanted_iff, candidates, List.mem_filter, List.mem_reverse, List.mem_filter, Table.mem_rows,
      and_assoc]
  constructor
  · intro h
    obtain ⟨jobs, hjobs, hall, rfl⟩ := h
    have hnodup {l : List (ℕ × CronJob)} (hl : l.Pairwise fun a b ↦ b.1 < a.1) : l.Nodup :=
      hl.imp fun hlt heq ↦ hlt.ne (congrArg Prod.fst heq).symm
    have hperm := (List.perm_ext_iff_of_nodup (hnodup hjobs) (hnodup hsorted)).mpr
      fun r ↦ (hall r.1 r.2).trans (hmem r.1 r.2).symm
    rw [hperm.eq_of_pairwise (fun a b _ _ hab hba ↦ absurd hab hba.asymm) hjobs hsorted]
  · intro h
    exact ⟨_, hsorted, hmem, h⟩

/-- A text without the signs that `LIKE` reads as patterns. -/
def Plain (t : Text) : Prop := '%' ∉ t ∧ '_' ∉ t

theorem like_percent (t : Text) : like ['%'] t := by
  rw [like, List.any_eq_true]
  exact ⟨[], (List.mem_tails _ _).mpr List.nil_suffix, rfl⟩

theorem like_prefix {t u : Text} (h : Plain t) : like (t ++ ['%']) u ↔ t <+: u := by
  induction t generalizing u with
  | nil => exact iff_of_true (like_percent u) List.nil_prefix
  | cons c t ih =>
    obtain ⟨hpercent, hunderscore⟩ := h
    have hc : c ≠ '%' := fun hc ↦ hpercent (hc ▸ List.mem_cons_self)
    have hc' : c ≠ '_' := fun hc ↦ hunderscore (hc ▸ List.mem_cons_self)
    have ht : Plain t := ⟨fun hm ↦ hpercent (List.mem_cons_of_mem c hm),
      fun hm ↦ hunderscore (List.mem_cons_of_mem c hm)⟩
    cases u with
    | nil => simp [like]
    | cons d u =>
      rw [List.cons_append, like, List.cons_prefix_cons, ← ih ht]
      · simp [hc']
      · exact hc

/-- Between two signs for any text, a plain text is found as it is. -/
theorem like_infix {t u : Text} (h : Plain t) : like ('%' :: t ++ ['%']) u ↔ t <:+: u := by
  rw [List.cons_append, like, List.any_eq_true]
  simp only [List.mem_tails, like_prefix h]
  constructor
  · intro hin
    obtain ⟨v, hv, ht⟩ := hin
    exact List.infix_iff_prefix_suffix.mpr ⟨v, ht, hv⟩
  · intro hin
    obtain ⟨v, ht, hv⟩ := List.infix_iff_prefix_suffix.mp hin
    exact ⟨v, hv, ht⟩

theorem eq_of_toLower_eq_sign {c d : Char} (hd : d = '%' ∨ d = '_') (h : c.toLower = d) : c = d := by
  unfold Char.toLower at h
  split_ifs at h with hupper
  · have hlow := UInt32.le_iff_toNat_le.mp hupper.1
    have hhigh := UInt32.le_iff_toNat_le.mp hupper.2
    have hval := congrArg (fun d : Char ↦ d.val.toNat) h
    simp only [UInt32.toNat_add] at hval
    rcases hd with rfl | rfl
    · simp at hlow hhigh hval
      omega
    · simp at hlow hhigh hval
      omega
  · exact h

theorem plain_folded {t : Text} (h : Plain t) : Plain (folded t) := by
  constructor
  · intro hm
    obtain ⟨c, hc, heq⟩ := List.mem_map.mp hm
    exact h.1 (eq_of_toLower_eq_sign (.inl rfl) heq ▸ hc)
  · intro hm
    obtain ⟨c, hc, heq⟩ := List.mem_map.mp hm
    exact h.2 (eq_of_toLower_eq_sign (.inr rfl) heq ▸ hc)

theorem ilike_infix {t u : Text} (h : Plain t) :
    ilike ('%' :: t ++ ['%']) u ↔ folded t <:+: folded u := by
  rw [← like_infix (plain_folded h), ilike, List.map_append, List.map_cons]
  rfl

/-- Without a filter on the expression, a plain filter on the name finds it literally. -/
theorem queried_of_plain (hname : ∀ n, filters.name = some n → Plain n)
    (hschedule : ∀ s, filters.schedule = some s → s = []) (job : CronJob) :
    queried filters job = contained filters job := by
  unfold queried contained
  congr 1
  · cases hn : filters.name with
    | none => rfl
    | some n =>
      rw [Option.all_some, Option.all_some, Bool.eq_iff_iff, Bool.or_eq_true, decide_eq_true_eq,
        ilike_infix (hname n hn)]
      refine or_iff_right_of_imp ?_
      intro hempty
      rw [List.isEmpty_iff.mp hempty]
      exact List.nil_infix
  · cases hs : filters.schedule with
    | none => rfl
    | some s =>
      obtain rfl := hschedule s hs
      simp

end

/-- Plain filters on the name alone are always followed. -/
theorem listing_exact_of_plain (db : Database) (actor : Actor) {filters : CronJobFilter}
    (hname : ∀ n, filters.name = some n → Plain n)
    (hschedule : ∀ s, filters.schedule = some s → s = []) :
    Exact db actor filters (listCronJobs db actor filters) := by
  rw [exact_iff, listCronJobs_eq]
  congr 1
  refine List.filter_congr ?_
  intro r _
  exact queried_of_plain hname hschedule r.2

section Sample

def sampleActor : Actor := ⟨1, sampleUser⟩

end Sample

end CronPanel.Access.Listing
