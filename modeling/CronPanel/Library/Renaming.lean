import CronPanel.Library.Tables

namespace CronPanel.Library.Renaming

open Tables

variable {κ ν α β : Type} [LinearOrder κ] [LinearOrder ν]

/-- One table holds the rows of another under their names, among rows of its own. -/
structure Named (name : κ → ν) (wrap : κ → α → β) (own : ν → Option β) (t : Table κ α)
    (u : Table ν β) : Prop where
  row : ∀ k, u.get? (name k) = (t.get? k).map (wrap k)
  rest : ∀ key, (∀ k, key ≠ name k) → u.get? key = own key

namespace Named

variable {name : κ → ν} {wrap : κ → α → β} {own : ν → Option β} {t : Table κ α} {u : Table ν β}

theorem empty : Named name wrap (fun _ ↦ none) .empty .empty := ⟨fun _ ↦ rfl, fun _ _ ↦ rfl⟩

theorem set (hname : name.Injective) (h : Named name wrap own t u) (k : κ) (a : α) :
    Named name wrap own (t.set k a) (u.set (name k) (wrap k a)) := by
  constructor
  · intro j
    rw [Table.get?_set, Table.get?_set, h.row]
    by_cases hj : j = k
    · rw [hj, if_pos rfl, if_pos rfl, Option.map_some]
    · rw [if_neg (hname.ne hj), if_neg hj]
  · intro key hkey
    rw [Table.get?_set_ne _ _ (hkey k)]
    exact h.rest key hkey

theorem erase (hname : name.Injective) (h : Named name wrap own t u) (k : κ) :
    Named name wrap own (t.erase k) (u.erase (name k)) := by
  constructor
  · intro j
    rw [Table.get?_erase, Table.get?_erase, h.row]
    by_cases hj : j = k
    · rw [hj, if_pos rfl, if_pos rfl, Option.map_none]
    · rw [if_neg (hname.ne hj), if_neg hj]
  · intro key hkey
    rw [Table.get?_erase, if_neg (hkey k)]
    exact h.rest key hkey

/-- Names that are erased with the rows they name, and others that have no row. -/
theorem foldl_erase (h : Named name wrap own t u) {ks : List κ} {keys : List ν}
    (hnamed : ∀ k, name k ∈ keys ↔ k ∈ ks)
    (hown : ∀ key ∈ keys, (∀ k, key ≠ name k) → own key = none) :
    Named name wrap own (ks.foldl Table.erase t) (keys.foldl Table.erase u) := by
  constructor
  · intro k
    rw [Table.get?_foldl_erase, Table.get?_foldl_erase, h.row]
    by_cases hk : k ∈ ks
    · rw [if_pos hk, if_pos ((hnamed k).mpr hk), Option.map_none]
    · rw [if_neg hk, if_neg (mt (hnamed k).mp hk)]
  · intro key hkey
    rw [Table.get?_foldl_erase]
    split_ifs with hmem
    · exact (hown key hmem hkey).symm
    · exact h.rest key hkey

/-- A row of its own is not one of the named ones. -/
theorem set_own (h : Named name wrap own t u) {key : ν} (hkey : ∀ k, key ≠ name k) (b : β)
    {own' : ν → Option β} (hown : ∀ j, own' j = if j = key then some b else own j) :
    Named name wrap own' t (u.set key b) := by
  constructor
  · intro k
    rw [Table.get?_set_ne _ _ (hkey k).symm]
    exact h.row k
  · intro j hj
    rw [Table.get?_set, hown, h.rest j hj]

theorem get?_eq_some (hname : name.Injective) (h : Named name wrap own t u) {key : ν} {b : β} :
    u.get? key = some b ↔ ((∀ k, key ≠ name k) ∧ own key = some b) ∨
      ∃ k a, key = name k ∧ t.get? k = some a ∧ wrap k a = b := by
  by_cases hkey : ∀ k, key ≠ name k
  · rw [h.rest key hkey]
    constructor
    · exact fun hb ↦ .inl ⟨hkey, hb⟩
    · rintro (⟨-, hb⟩ | ⟨k, a, hk, -⟩)
      · exact hb
      · exact absurd hk (hkey k)
  · obtain ⟨k, rfl⟩ := not_forall_not.mp hkey
    rw [h.row, Option.map_eq_some_iff]
    constructor
    · rintro ⟨a, ha, hb⟩
      exact .inr ⟨k, a, rfl, ha, hb⟩
    · rintro (⟨hne, -⟩ | ⟨j, a, hj, ha, hb⟩)
      · exact absurd rfl (hne k)
      · obtain rfl := hname hj
        exact ⟨a, ha, hb⟩

theorem mem_keys (h : Named name wrap own t u) {k : κ} :
    name k ∈ u.keys ↔ k ∈ t.keys := by
  rw [Table.mem_keys, Table.mem_keys]
  simp only [h.row, Option.map_eq_some_iff]
  constructor
  · rintro ⟨b, a, ha, -⟩
    exact ⟨a, ha⟩
  · rintro ⟨a, ha⟩
    exact ⟨wrap k a, a, ha, rfl⟩

/-- The names that a test tells from the other keys are those of the rows. -/
theorem keys_perm (hname : name.Injective) (h : Named name wrap own t u) {p : ν → Bool}
    (hnamed : ∀ k, p (name k)) (hown : ∀ key, p key → (∀ k, key ≠ name k) → own key = none) :
    (u.keys.filter p).Perm (t.keys.map name) := by
  refine (List.perm_ext_iff_of_nodup (u.nodup_keys.filter _) (t.nodup_keys.map hname)).mpr ?_
  intro key
  rw [List.mem_filter, List.mem_map]
  constructor
  · rintro ⟨hmem, hp⟩
    by_contra hnone
    have hkey : ∀ k, key ≠ name k := by
      rintro k rfl
      exact hnone ⟨k, h.mem_keys.mp hmem, rfl⟩
    obtain ⟨b, hb⟩ := Table.mem_keys.mp hmem
    rw [h.rest key hkey, hown key hp hkey] at hb
    cases hb
  · rintro ⟨k, hk, rfl⟩
    exact ⟨h.mem_keys.mpr hk, hnamed k⟩

end Named

end CronPanel.Library.Renaming
