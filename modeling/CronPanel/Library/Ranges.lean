import Mathlib.Data.Finset.Lattice.Fold
import Mathlib.Order.Interval.Finset.Nat
import Mathlib.Order.Lattice.Nat
import Mathlib.Data.List.Sort

namespace CronPanel.Library.Ranges

def range (start stop step : ℕ) : List ℕ :=
  (List.range ((stop - start + step - 1) / step)).map (fun k ↦ start + k * step)

def sorted (s : Finset ℕ) : List ℕ := (List.range (s.sup id + 1)).filter (· ∈ s)

theorem mem_range {start stop step v : ℕ} (hs : 0 < step) :
    v ∈ range start stop step ↔ start ≤ v ∧ v < stop ∧ step ∣ v - start := by
  simp only [range, List.mem_map, List.mem_range]
  constructor
  · intro hx
    obtain ⟨k, hk, rfl⟩ := hx
    have hlt : (k + 1) * step ≤ stop - start + step - 1 := (Nat.le_div_iff_mul_le hs).mp hk
    rw [Nat.add_mul] at hlt
    refine ⟨by omega, by omega, ?_⟩
    rw [Nat.add_sub_cancel_left]
    exact Nat.dvd_mul_left step k
  · intro hx
    obtain ⟨hle, hlt, k, hk⟩ := hx
    refine ⟨k, ?_, by rw [Nat.mul_comm]; omega⟩
    refine (Nat.le_div_iff_mul_le hs).mpr ?_
    rw [Nat.succ_mul, Nat.mul_comm]
    omega

@[simp] theorem mem_sorted {s : Finset ℕ} {v : ℕ} : v ∈ sorted s ↔ v ∈ s := by
  simp only [sorted, List.mem_filter, List.mem_range, decide_eq_true_eq, and_iff_right_iff_imp]
  intro hv
  exact Nat.lt_succ_of_le (Finset.le_sup (f := id) hv)

theorem sorted_pairwise (s : Finset ℕ) : (sorted s).Pairwise (· < ·) :=
  List.pairwise_lt_range.filter _

theorem sorted_nodup (s : Finset ℕ) : (sorted s).Nodup :=
  (sorted_pairwise s).imp fun h ↦ Nat.ne_of_lt h

theorem sorted_toFinset (s : Finset ℕ) : (sorted s).toFinset = s := by
  ext v
  simp

theorem sorted_injective : Function.Injective sorted :=
  Function.LeftInverse.injective sorted_toFinset

@[simp] theorem length_sorted (s : Finset ℕ) : (sorted s).length = s.card := by
  rw [← List.toFinset_card_of_nodup (sorted_nodup s), sorted_toFinset]

theorem sorted_ne_nil {s : Finset ℕ} (h : s.Nonempty) : sorted s ≠ [] := by
  obtain ⟨v, hv⟩ := h
  exact List.ne_nil_of_mem (mem_sorted.mpr hv)

theorem mem_foldl_union {α : Type} {values : α → Finset ℕ} {as : List α} {w : Finset ℕ} {v : ℕ} :
    v ∈ as.foldl (fun w a ↦ w ∪ values a) w ↔ v ∈ w ∨ ∃ a ∈ as, v ∈ values a := by
  induction as generalizing w with
  | nil => simp
  | cons a as ih => simp [ih, or_assoc]

/-- A non-empty set of residues that is closed under the successor is everything. -/
theorem forall_residue {m : ℕ} {P : ℕ → Prop} (hne : ∃ v < m, P v)
    (hsucc : ∀ v < m, P v → P ((v + 1) % m)) : ∀ w < m, P w := by
  obtain ⟨v, hv, hP⟩ := hne
  have hm : 0 < m := Nat.lt_of_le_of_lt (Nat.zero_le v) hv
  have hstep : ∀ k, P ((v + k) % m) := by
    intro k
    induction k with
    | zero => rwa [Nat.add_zero, Nat.mod_eq_of_lt hv]
    | succ k ih =>
      have h := hsucc _ (Nat.mod_lt _ hm) ih
      rwa [Nat.mod_add_mod] at h
  intro w hw
  have h := hstep (m - v + w)
  rwa [show v + (m - v + w) = w + m by omega, Nat.add_mod_right, Nat.mod_eq_of_lt hw] at h

end CronPanel.Library.Ranges
