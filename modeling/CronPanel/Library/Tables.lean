import Mathlib.Data.List.Basic
import Mathlib.Data.List.Sort
import Mathlib.Order.Basic

namespace CronPanel.Library.Tables

/-- Rows under their primary keys, in increasing order of the keys. -/
structure Table (κ α : Type) [LinearOrder κ] where
  rows : List (κ × α)
  sorted : rows.Pairwise (fun a b ↦ a.1 < b.1)

variable {κ α : Type} [LinearOrder κ]

def lookupRow (k : κ) : List (κ × α) → Option α
  | [] => none
  | r :: rs => if r.1 = k then some r.2 else lookupRow k rs

def setRow (k : κ) (a : α) : List (κ × α) → List (κ × α)
  | [] => [(k, a)]
  | r :: rs =>
    if k < r.1 then (k, a) :: r :: rs else if k = r.1 then (k, a) :: rs else r :: setRow k a rs

def eraseRow (k : κ) (rs : List (κ × α)) : List (κ × α) := rs.filter (fun r ↦ r.1 ≠ k)

theorem fst_mem_setRow {k : κ} {a : α} {rs : List (κ × α)} {r : κ × α}
    (h : r ∈ setRow k a rs) : r = (k, a) ∨ r ∈ rs := by
  induction rs with
  | nil => simpa [setRow] using h
  | cons q rs ih =>
    simp only [setRow] at h
    split_ifs at h with hlt heq
    · simpa using h
    · rcases List.mem_cons.mp h with h | h
      · exact .inl h
      · exact .inr (List.mem_cons_of_mem _ h)
    · rcases List.mem_cons.mp h with h | h
      · exact .inr (h ▸ List.mem_cons_self)
      · exact (ih h).imp_right (List.mem_cons_of_mem _)

theorem setRow_sorted (k : κ) (a : α) {rs : List (κ × α)}
    (h : rs.Pairwise (fun a b ↦ a.1 < b.1)) :
    (setRow k a rs).Pairwise (fun a b ↦ a.1 < b.1) := by
  induction rs with
  | nil => simp [setRow]
  | cons q rs ih =>
    obtain ⟨hq, hrs⟩ := List.pairwise_cons.mp h
    simp only [setRow]
    split_ifs with hlt heq
    · refine List.pairwise_cons.mpr ⟨fun r hr ↦ ?_, h⟩
      rcases List.mem_cons.mp hr with rfl | hr
      · exact hlt
      · exact hlt.trans (hq r hr)
    · exact List.pairwise_cons.mpr ⟨fun r hr ↦ heq ▸ hq r hr, hrs⟩
    · refine List.pairwise_cons.mpr ⟨fun r hr ↦ ?_, ih hrs⟩
      rcases fst_mem_setRow hr with rfl | hr
      · exact lt_of_le_of_ne (not_lt.mp hlt) (Ne.symm heq)
      · exact hq r hr

theorem lookupRow_setRow_self (k : κ) (a : α) (rs : List (κ × α)) :
    lookupRow k (setRow k a rs) = some a := by
  induction rs with
  | nil => simp [setRow, lookupRow]
  | cons q rs ih =>
    simp only [setRow]
    split_ifs with hlt heq
    · simp [lookupRow]
    · simp [lookupRow]
    · simp only [lookupRow, if_neg (Ne.symm heq), ih]

theorem lookupRow_setRow_ne {k j : κ} (a : α) (h : j ≠ k) (rs : List (κ × α)) :
    lookupRow j (setRow k a rs) = lookupRow j rs := by
  induction rs with
  | nil => simp [setRow, lookupRow, h.symm]
  | cons q rs ih =>
    simp only [setRow]
    split_ifs with hlt heq
    · simp [lookupRow, h.symm]
    · simp only [lookupRow, if_neg h.symm, if_neg (heq ▸ h.symm : q.1 ≠ j)]
    · simp only [lookupRow, ih]

theorem lookupRow_eraseRow (k j : κ) (rs : List (κ × α)) :
    lookupRow j (eraseRow k rs) = if j = k then none else lookupRow j rs := by
  induction rs with
  | nil => simp [eraseRow, lookupRow]
  | cons q rs ih =>
    simp only [eraseRow] at ih
    by_cases hq : q.1 = k
    · rw [eraseRow, List.filter_cons_of_neg (by simpa using hq), ih]
      split_ifs with hj
      · rfl
      · simp only [lookupRow, if_neg (show q.1 ≠ j from fun e ↦ hj (e ▸ hq))]
    · rw [eraseRow, List.filter_cons_of_pos (by simpa using hq)]
      simp only [lookupRow, ih]
      split_ifs with hj hk
      · exact absurd (hj.trans hk) hq
      · rfl
      · rfl
      · rfl

theorem lookupRow_eq_some {k : κ} {a : α} {rs : List (κ × α)}
    (h : rs.Pairwise (fun a b ↦ a.1 < b.1)) : lookupRow k rs = some a ↔ (k, a) ∈ rs := by
  induction rs with
  | nil => simp [lookupRow]
  | cons q rs ih =>
    obtain ⟨hq, hrs⟩ := List.pairwise_cons.mp h
    simp only [lookupRow, List.mem_cons]
    split_ifs with hk
    · constructor
      · intro hx
        obtain ⟨⟩ := hx
        exact .inl (Prod.ext hk.symm rfl)
      · intro hx
        rcases hx with rfl | hm
        · rfl
        · exact absurd (hq _ hm) (by simp [hk])
    · rw [ih hrs]
      exact ⟨.inr, fun hm ↦ hm.resolve_left fun e ↦ hk (e ▸ rfl)⟩

namespace Table

def empty : Table κ α := ⟨[], .nil⟩

def get? (t : Table κ α) (k : κ) : Option α := lookupRow k t.rows

def set (t : Table κ α) (k : κ) (a : α) : Table κ α :=
  ⟨setRow k a t.rows, setRow_sorted k a t.sorted⟩

def erase (t : Table κ α) (k : κ) : Table κ α := ⟨eraseRow k t.rows, t.sorted.filter _⟩

def filter (t : Table κ α) (p : α → Bool) : Table κ α :=
  ⟨t.rows.filter fun r ↦ p r.2, t.sorted.filter _⟩

def map (f : α → α) (t : Table κ α) : Table κ α :=
  ⟨t.rows.map fun r ↦ (r.1, f r.2), List.pairwise_map.mpr t.sorted⟩

def keys (t : Table κ α) : List κ := t.rows.map Prod.fst

@[simp] theorem get?_empty (k : κ) : (empty : Table κ α).get? k = none := rfl

@[simp] theorem get?_set_self (t : Table κ α) (k : κ) (a : α) : (t.set k a).get? k = some a :=
  lookupRow_setRow_self k a t.rows

theorem get?_set_ne (t : Table κ α) {k j : κ} (a : α) (h : j ≠ k) : (t.set k a).get? j = t.get? j :=
  lookupRow_setRow_ne a h t.rows

theorem get?_set (t : Table κ α) (k j : κ) (a : α) :
    (t.set k a).get? j = if j = k then some a else t.get? j := by
  split_ifs with h
  · rw [h, get?_set_self]
  · exact get?_set_ne t a h

theorem get?_erase (t : Table κ α) (k j : κ) :
    (t.erase k).get? j = if j = k then none else t.get? j := lookupRow_eraseRow k j t.rows

theorem mem_rows {t : Table κ α} {k : κ} {a : α} : (k, a) ∈ t.rows ↔ t.get? k = some a :=
  (lookupRow_eq_some t.sorted).symm

theorem get?_filter (t : Table κ α) (p : α → Bool) (k : κ) :
    (t.filter p).get? k = (t.get? k).filter p := by
  ext a
  rw [← mem_rows, Option.filter_eq_some_iff, ← mem_rows]
  exact List.mem_filter

theorem mem_keys {t : Table κ α} {k : κ} : k ∈ t.keys ↔ ∃ a, t.get? k = some a := by
  simp only [keys, List.mem_map, Prod.exists, exists_and_right, exists_eq_right, mem_rows]

theorem ext_get? {t u : Table κ α} (h : ∀ k, t.get? k = u.get? k) : t = u := by
  obtain ⟨rs, hrs⟩ := t
  obtain ⟨qs, hqs⟩ := u
  have hmem : ∀ r, r ∈ rs ↔ r ∈ qs := fun r ↦ by
    have hk := h r.1
    rw [← Prod.mk.eta (p := r), ← lookupRow_eq_some hrs, ← lookupRow_eq_some hqs]
    exact Eq.congr_left hk
  have hnodup {rs : List (κ × α)} (hrs : rs.Pairwise (fun a b ↦ a.1 < b.1)) : rs.Nodup :=
    List.Pairwise.imp (fun hlt ↦ fun e ↦ lt_irrefl _ (e ▸ hlt)) hrs
  have hperm : rs.Perm qs := (List.perm_ext_iff_of_nodup (hnodup hrs) (hnodup hqs)).mpr hmem
  have heq : rs = qs := hperm.eq_of_pairwise (fun a b _ _ hab hba ↦ absurd hab hba.asymm) hrs hqs
  subst heq
  rfl

theorem set_get? {t : Table κ α} {k : κ} {a : α} (h : t.get? k = some a) : t.set k a = t :=
  ext_get? fun j ↦ by
    rw [get?_set]
    split_ifs with hj
    · rw [hj, h]
    · rfl

theorem forall_empty {P : κ → α → Prop} : ∀ j b, (empty : Table κ α).get? j = some b → P j b :=
  fun _ _ h ↦ (Option.some_ne_none _ h.symm).elim

theorem forall_set {t : Table κ α} {P : κ → α → Prop} {k : κ} {a : α} (hk : P k a)
    (h : ∀ j b, j ≠ k → t.get? j = some b → P j b) :
    ∀ j b, (t.set k a).get? j = some b → P j b := by
  intro j b hj
  rw [get?_set] at hj
  split_ifs at hj with he
  · exact he ▸ Option.some.inj hj ▸ hk
  · exact h j b he hj

theorem related_of_eq {t t' : Table κ α} {P : κ → Option α → Option α → Prop}
    (hrefl : ∀ j o, P j o o) (h : t' = t) : ∀ j, P j (t.get? j) (t'.get? j) := by
  intro j
  rw [h]
  exact hrefl j (t.get? j)

theorem related_set {t : Table κ α} {P : κ → Option α → Option α → Prop} {k : κ} {a : α}
    (hrefl : ∀ j o, P j o o) (hk : P k (t.get? k) (some a)) :
    ∀ j, P j (t.get? j) ((t.set k a).get? j) := by
  intro j
  rw [get?_set]
  split_ifs with hj
  · rw [hj]
    exact hk
  · exact hrefl j (t.get? j)

theorem forall_erase {t : Table κ α} {P : κ → α → Prop} {k : κ}
    (h : ∀ j b, j ≠ k → t.get? j = some b → P j b) :
    ∀ j b, (t.erase k).get? j = some b → P j b := by
  intro j b hj
  rw [get?_erase] at hj
  split_ifs at hj with he
  exact h j b he hj

theorem set_set (t : Table κ α) (k : κ) (a b : α) : (t.set k a).set k b = t.set k b :=
  ext_get? fun j ↦ by
    rw [get?_set, get?_set, get?_set]
    split_ifs <;> rfl

theorem erase_set (t : Table κ α) (k : κ) (a : α) : (t.set k a).erase k = t.erase k :=
  ext_get? fun j ↦ by
    rw [get?_erase, get?_erase, get?_set]
    split_ifs <;> rfl

end Table

/-- The key that a table without stored counters gives to the next row. -/
def Table.nextId (t : Table ℕ α) : ℕ := t.keys.foldl max 0 + 1

theorem foldl_max_le {l : List ℕ} {m : ℕ} : m ≤ l.foldl max m ∧ ∀ k ∈ l, k ≤ l.foldl max m := by
  induction l generalizing m with
  | nil => simp
  | cons j l ih =>
    obtain ⟨h₁, h₂⟩ := ih (m := max m j)
    refine ⟨(Nat.le_max_left m j).trans h₁, fun k hk ↦ ?_⟩
    rcases List.mem_cons.mp hk with rfl | hk
    · exact (Nat.le_max_right m _).trans h₁
    · exact h₂ k hk

theorem Table.lt_nextId {t : Table ℕ α} {k : ℕ} {a : α} (h : t.get? k = some a) : k < t.nextId :=
  Nat.lt_succ_of_le (foldl_max_le.2 k (mem_keys.mpr ⟨a, h⟩))

@[simp] theorem Table.get?_nextId (t : Table ℕ α) : t.get? t.nextId = none := by
  rw [Option.eq_none_iff_forall_ne_some]
  intro a h
  exact Nat.lt_irrefl _ (lt_nextId h)

/-- Add a row; the new table comes with the key of the row. -/
def Table.insert (t : Table ℕ α) (a : α) : ℕ × Table ℕ α := (t.nextId, t.set t.nextId a)

theorem setRow_last {k : κ} (a : α) {rs : List (κ × α)} (h : ∀ r ∈ rs, r.1 < k) :
    setRow k a rs = rs ++ [(k, a)] := by
  induction rs with
  | nil => rfl
  | cons r rs ih =>
    have hr : r.1 < k := h r List.mem_cons_self
    have hrs := ih fun q hq ↦ h q (List.mem_cons_of_mem r hq)
    rw [setRow, if_neg hr.asymm, if_neg hr.ne', hrs]
    rfl

theorem Table.rows_insert (t : Table ℕ α) (a : α) :
    (t.insert a).2.rows = t.rows ++ [(t.nextId, a)] :=
  setRow_last a fun r hr ↦ lt_nextId (mem_rows.mp (by exact hr))

theorem find?_setRow {k : κ} {a b : α} {rs : List (κ × α)} (hrs : rs.Pairwise (fun a b ↦ a.1 < b.1))
    (h : lookupRow k rs = some a) {p : α → Bool} (hp : p b = p a) :
    ((setRow k b rs).find? fun r ↦ p r.2).map Prod.fst = (rs.find? fun r ↦ p r.2).map Prod.fst := by
  induction rs with
  | nil => cases h
  | cons r rs ih =>
    obtain ⟨hr, hrs⟩ := List.pairwise_cons.mp hrs
    simp only [setRow]
    simp only [lookupRow] at h
    split_ifs at h with heq
    · obtain rfl := Option.some.inj h
      rw [if_neg (heq ▸ lt_irrefl k), if_pos heq.symm, List.find?_cons, List.find?_cons, hp]
      cases p r.2
      · rfl
      · exact congrArg some heq.symm
    · have hlt : r.1 < k := hr (k, a) ((lookupRow_eq_some hrs).mp h)
      rw [if_neg hlt.asymm, if_neg (Ne.symm heq), List.find?_cons, List.find?_cons]
      cases p r.2
      · exact ih hrs h
      · rfl

/-- A row that is written and passes a test as before leaves the key of the first to pass. -/
theorem Table.find?_set {t : Table κ α} {k : κ} {a b : α} (h : t.get? k = some a) {p : α → Bool}
    (hp : p b = p a) : ((t.set k b).rows.find? fun r ↦ p r.2).map Prod.fst =
      (t.rows.find? fun r ↦ p r.2).map Prod.fst :=
  find?_setRow t.sorted h hp

/-- The rows around the one of a key. -/
theorem Table.rows_of_get? {t : Table κ α} {k : κ} {a : α} (h : t.get? k = some a) :
    ∃ before after, t.rows = before ++ (k, a) :: after ∧ (t.erase k).rows = before ++ after ∧
      ∀ r ∈ before ++ after, r.1 ≠ k := by
  obtain ⟨before, after, hsplit⟩ := List.append_of_mem (mem_rows.mpr h)
  have hsorted := t.sorted
  rw [hsplit] at hsorted
  obtain ⟨-, hafter, hbefore⟩ := List.pairwise_append.mp hsorted
  have hne : ∀ r ∈ before ++ after, r.1 ≠ k := by
    intro r hr
    rcases List.mem_append.mp hr with hr | hr
    · exact (hbefore r hr (k, a) List.mem_cons_self).ne
    · exact ((List.pairwise_cons.mp hafter).1 r hr).ne'
  have hkeep : (before ++ after).filter (fun r ↦ decide (r.1 ≠ k)) = before ++ after :=
    List.filter_eq_self.mpr fun r hr ↦ decide_eq_true (hne r hr)
  refine ⟨before, after, hsplit, ?_, hne⟩
  rw [List.filter_append] at hkeep
  change t.rows.filter (fun r ↦ decide (r.1 ≠ k)) = before ++ after
  rw [hsplit, List.filter_append, List.filter_cons_of_neg (by simp), hkeep]

/-- Every row of one table is in the other one, as what it has become. -/
def Table.Keeps (R : α → α → Prop) (t u : Table κ α) : Prop :=
  ∀ k a, t.get? k = some a → ∃ b, u.get? k = some b ∧ R a b

section Keeps

variable {R : α → α → Prop} {t u v : Table κ α}

theorem Table.Keeps.refl (hR : ∀ a, R a a) (t : Table κ α) : t.Keeps R t :=
  fun _ a h ↦ ⟨a, h, hR a⟩

theorem Table.Keeps.trans (hR : ∀ a b c, R a b → R b c → R a c) (h : t.Keeps R u)
    (h' : u.Keeps R v) : t.Keeps R v := by
  intro k a ha
  obtain ⟨b, hb, hab⟩ := h k a ha
  obtain ⟨c, hc, hbc⟩ := h' k b hb
  exact ⟨c, hc, hR a b c hab hbc⟩

theorem Table.keeps_set (hR : ∀ a, R a a) {k : κ} {b : α} (h : ∀ a, t.get? k = some a → R a b) :
    t.Keeps R (t.set k b) := by
  intro j a ha
  rw [get?_set]
  split_ifs with hj
  · exact ⟨b, rfl, h a (hj ▸ ha)⟩
  · exact ⟨a, ha, hR a⟩

theorem Table.keeps_insert {R : α → α → Prop} (hR : ∀ a, R a a) (t : Table ℕ α) (b : α) :
    t.Keeps R (t.insert b).2 :=
  keeps_set hR fun a ha ↦ by
    rw [get?_nextId] at ha
    cases ha

end Keeps

def Table.count (p : α → Bool) (t : Table κ α) : ℕ := t.rows.countP fun r ↦ p r.2

theorem Table.count_erase {t : Table κ α} {k : κ} {a : α} (h : t.get? k = some a) (p : α → Bool) :
    t.count p = (t.erase k).count p + if p a then 1 else 0 := by
  obtain ⟨before, after, hrows, herase, -⟩ := rows_of_get? h
  rw [count, count, hrows, herase, List.countP_append, List.countP_append, List.countP_cons,
    Nat.add_assoc]

theorem Table.count_set {t : Table κ α} {k : κ} {a : α} (h : t.get? k = some a)
    (p : α → Bool) (b : α) :
    (t.set k b).count p + (if p a then 1 else 0) = t.count p + if p b then 1 else 0 := by
  have hold := count_erase h p
  have hnew := count_erase (t.get?_set_self k b) p
  rw [erase_set] at hnew
  omega

theorem Table.count_insert (t : Table ℕ α) (p : α → Bool) (a : α) :
    (t.insert a).2.count p = t.count p + if p a then 1 else 0 := by
  rw [count, rows_insert, List.countP_append, List.countP_singleton, count]

/-- A row that counts is not the only one exactly when another one counts too. -/
theorem Table.one_lt_count {t : Table κ α} {p : α → Bool} {k : κ} {a : α} (hk : t.get? k = some a)
    (ha : p a) :
    1 < t.count p ↔ ∃ j b, j ≠ k ∧ t.get? j = some b ∧ p b := by
  rw [count_erase hk, if_pos ha, Nat.lt_add_left_iff_pos, count, List.countP_pos_iff]
  simp only [Prod.exists, mem_rows, get?_erase]
  constructor
  · intro h
    obtain ⟨j, b, hj, hb⟩ := h
    split_ifs at hj with hne
    exact ⟨j, b, hne, hj, hb⟩
  · intro h
    obtain ⟨j, b, hne, hj, hb⟩ := h
    exact ⟨j, b, by rw [if_neg hne, hj], hb⟩

theorem Table.get?_foldl_erase (ks : List κ) (t : Table κ α) (j : κ) :
    (ks.foldl erase t).get? j = if j ∈ ks then none else t.get? j := by
  induction ks generalizing t with
  | nil => simp
  | cons k ks ih =>
    rw [List.foldl_cons, ih, get?_erase]
    by_cases hj : j = k <;> simp [hj]

theorem Table.get?_erase_unlisted (desired : List κ) (t : Table κ α) (j : κ) :
    ((t.keys.filter (· ∉ desired)).foldl erase t).get? j = if j ∈ desired then t.get? j
      else none := by
  rw [get?_foldl_erase]
  by_cases hd : j ∈ desired
  · simp [hd]
  · rw [if_neg hd]
    split_ifs with hj
    · rfl
    · have hk : j ∉ t.keys := fun hk ↦ hj (List.mem_filter.mpr ⟨hk, by simpa using hd⟩)
      exact Option.eq_none_iff_forall_ne_some.mpr fun a ha ↦ hk (mem_keys.mpr ⟨a, ha⟩)

theorem Table.get?_elim_set (new : Option α) (t : Table κ α) (k j : κ) :
    (new.elim t (t.set k)).get? j = if j = k then new.or (t.get? j) else t.get? j := by
  cases new with
  | none => rw [Option.elim_none, Option.none_or, ite_self]
  | some a => rw [Option.elim_some, Option.some_or, get?_set]

/-- A loop that may set the row of each of its items touches no other row. -/
theorem Table.get?_foldl_set {ρ : Type} (key : ρ → κ) (new : ρ → Option α) {rs : List ρ}
    (h : (rs.map key).Nodup)
    (t : Table κ α) :
    (∀ r ∈ rs, (rs.foldl (fun t r ↦ (new r).elim t (t.set (key r))) t).get? (key r) =
      (new r).or (t.get? (key r))) ∧
    ∀ j ∉ rs.map key, (rs.foldl (fun t r ↦ (new r).elim t (t.set (key r))) t).get? j =
      t.get? j := by
  induction rs generalizing t with
  | nil => exact ⟨by simp, fun _ _ ↦ rfl⟩
  | cons r rs ih =>
    obtain ⟨hfresh, h⟩ := List.nodup_cons.mp h
    obtain ⟨hmem, hrest⟩ := ih h ((new r).elim t (t.set (key r)))
    refine ⟨?_, ?_⟩
    · intro q hq
      rw [List.foldl_cons]
      rcases List.mem_cons.mp hq with rfl | hq
      · rw [hrest _ hfresh, get?_elim_set, if_pos rfl]
      · have hne : key q ≠ key r := fun he ↦ hfresh (he ▸ List.mem_map_of_mem hq)
        rw [hmem q hq, get?_elim_set, if_neg hne]
    · intro j hj
      rw [List.map_cons, List.mem_cons, not_or] at hj
      rw [List.foldl_cons, hrest j hj.2, get?_elim_set, if_neg hj.1]

theorem Table.get?_map (f : α → α) (t : Table κ α) (k : κ) :
    (t.map f).get? k = (t.get? k).map f := by
  have hrows : ∀ rs : List (κ × α),
      lookupRow k (rs.map fun r ↦ (r.1, f r.2)) = (lookupRow k rs).map f := by
    intro rs
    induction rs with
    | nil => rfl
    | cons r rs ih =>
      rw [List.map_cons, lookupRow, lookupRow, ih]
      split_ifs <;> rfl
  exact hrows t.rows

theorem Table.map_set (f : α → α) (t : Table κ α) (k : κ) (a : α) :
    (t.set k a).map f = (t.map f).set k (f a) :=
  ext_get? fun j ↦ by
    rw [get?_map, get?_set, get?_set, get?_map]
    split_ifs <;> rfl

/-- Tables that are the same under a function have the same keys, with rows that are the same
under it. -/
theorem Table.get?_of_map_eq {f : α → α} {t u : Table κ α} (h : t.map f = u.map f) (k : κ) :
    (t.get? k = none ∧ u.get? k = none) ∨
      ∃ a b, t.get? k = some a ∧ u.get? k = some b ∧ f a = f b := by
  have hk : (t.get? k).map f = (u.get? k).map f := by
    rw [← get?_map, h, get?_map]
  cases ht : t.get? k with
  | none =>
    rw [ht, Option.map_none, eq_comm, Option.map_eq_none_iff] at hk
    exact .inl ⟨rfl, hk⟩
  | some a =>
    rw [ht, Option.map_some, eq_comm] at hk
    obtain ⟨b, hb, hab⟩ := Option.map_eq_some_iff.mp hk
    exact .inr ⟨a, b, rfl, hb, hab.symm⟩

theorem Table.nextId_of_map_eq {f : α → α} {t u : Table ℕ α} (h : t.map f = u.map f) :
    t.nextId = u.nextId := by
  have hkeys (t : Table ℕ α) : (t.map f).keys = t.keys := by
    simp only [keys, map, List.map_map]
    rfl
  rw [nextId, ← hkeys t, h, hkeys u, nextId]

theorem Table.any_of_map_eq {f : α → α} {t u : Table κ α} (h : t.map f = u.map f) {p : κ × α → Bool}
    (hp : ∀ k a, p (k, f a) = p (k, a)) : t.rows.any p = u.rows.any p := by
  have hany (t : Table κ α) : (t.map f).rows.any p = t.rows.any p := by
    simp only [map, List.any_map, Function.comp_def, hp]
  rw [← hany t, h, hany u]

theorem Table.find?_of_map_eq {f : α → α} {t u : Table κ α} (h : t.map f = u.map f)
    {p : κ × α → Bool} (hp : ∀ k a, p (k, f a) = p (k, a)) :
    (t.rows.find? p).map Prod.fst = (u.rows.find? p).map Prod.fst := by
  have hfind (t : Table κ α) :
      ((t.map f).rows.find? p).map Prod.fst = (t.rows.find? p).map Prod.fst := by
    simp only [map, List.find?_map, Function.comp_def, hp, Option.map_map]
  rw [← hfind t, h, hfind u]

theorem Table.rows_nodup (t : Table κ α) : t.rows.Nodup := by
  refine t.sorted.imp ?_
  intro a b hlt heq
  exact hlt.ne (congrArg Prod.fst heq)

theorem Table.nodup_keys (t : Table κ α) : t.keys.Nodup :=
  (List.pairwise_map.mpr t.sorted).imp fun h ↦ h.ne

/-- The keys of the rows that pass a test, when each of them keeps a row that passes another. -/
theorem Table.sublist_keys {t u : Table κ α} {p q : α → Bool}
    (h : ∀ k a, t.get? k = some a → p a → ∃ b, u.get? k = some b ∧ q b) :
    ((t.rows.filter fun r ↦ p r.2).map Prod.fst).Sublist
      ((u.rows.filter fun r ↦ q r.2).map Prod.fst) := by
  have hsorted (t : Table κ α) (p : α → Bool) :
      ((t.rows.filter fun r ↦ p r.2).map Prod.fst).Pairwise (· < ·) :=
    List.pairwise_map.mpr (t.sorted.filter _)
  refine List.sublist_of_subperm_of_pairwise ?_ ((hsorted t p).imp le_of_lt)
    ((hsorted u q).imp le_of_lt)
  refine List.subperm_of_subset ((hsorted t p).imp ne_of_lt) ?_
  intro k hk
  obtain ⟨⟨j, a⟩, hmem, rfl⟩ := List.mem_map.mp hk
  obtain ⟨hrow, hp⟩ := List.mem_filter.mp hmem
  obtain ⟨b, hb, hq⟩ := h j a (mem_rows.mp hrow) hp
  exact List.mem_map.mpr ⟨(j, b), List.mem_filter.mpr ⟨mem_rows.mpr hb, hq⟩, rfl⟩

/-- The rows have pairwise distinct values under a function exactly when rows with one value
have one key. -/
theorem Table.nodup_map_iff {β : Type} {t : Table κ α} {f : α → β} :
    (t.rows.map fun r ↦ f r.2).Nodup ↔
      ∀ j k a b, t.get? j = some a → t.get? k = some b → f a = f b → j = k := by
  constructor
  · intro h j k a b ha hb heq
    have hinj := List.inj_on_of_nodup_map h
    exact congrArg Prod.fst (hinj (Table.mem_rows.mpr ha) (Table.mem_rows.mpr hb) heq)
  · intro h
    refine t.rows_nodup.map_on ?_
    intro r hr r' hr' heq
    obtain ⟨j, a⟩ := r
    obtain ⟨k, b⟩ := r'
    have ha := Table.mem_rows.mp hr
    have hb := Table.mem_rows.mp hr'
    obtain rfl := h j k a b ha hb heq
    rw [ha] at hb
    rw [Option.some.inj hb]

end CronPanel.Library.Tables
