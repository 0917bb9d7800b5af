import Mathlib.Algebra.Group.Nat.Defs
import Mathlib.Data.List.Basic
import Mathlib.Data.List.DropRight
import Mathlib.Data.List.Infix

namespace CronPanel.Library.Strings

abbrev Text := List Char

def isSpace (c : Char) : Bool :=
  let n := c.toNat
  (9 ≤ n && n ≤ 13) || (28 ≤ n && n ≤ 32) || n == 133 || n == 160 || n == 5760 ||
    (8192 ≤ n && n ≤ 8202) || n == 8232 || n == 8233 || n == 8239 || n == 8287 || n == 12288

def strip (t : Text) : Text := (t.dropWhile isSpace).rdropWhile isSpace

/-- `str.split()`: the maximal runs of code points that are not blank. -/
def split (t : Text) : List Text := (t.splitOnP isSpace).filter (fun w ↦ !w.isEmpty)

/-- `str.partition(sep)` without the separator in the middle. -/
def partition (sep : Char) (t : Text) : Text × Text :=
  (t.takeWhile (· != sep), (t.dropWhile (· != sep)).drop 1)

/-- `str.isdigit` on texts without the non-ASCII digits. -/
def isDigits (t : Text) : Bool := !t.isEmpty && t.all Char.isDigit

def decimal (n : ℕ) : Text := Nat.toDigits 10 n

def maxStrDigits : ℕ := 4300

/-- `int(t)` for the unsigned texts; `none` is a `ValueError`. -/
def int? (t : Text) : Option ℕ :=
  if isDigits t ∧ t.length ≤ maxStrDigits then some (Nat.ofDigitChars 10 t 0) else none

/-- `str.lower()`, exact on the ASCII part of the result: besides the ASCII letters, two
code points have a lower case with an ASCII letter in it. -/
def lower (t : Text) : Text :=
  t.flatMap fun c ↦
    if c = '\u0130' then ['i', '\u0307'] else if c = '\u212a' then ['k'] else [c.toLower]

theorem isSpace_of_isDigit {c : Char} (h : c.isDigit) : isSpace c = false := by
  simp only [Char.isDigit, Bool.and_eq_true, decide_eq_true_eq, ge_iff_le,
    UInt32.le_iff_toNat_le] at h
  have h₁ : 48 ≤ c.toNat := h.1
  have h₂ : c.toNat ≤ 57 := h.2
  simp only [isSpace, Bool.or_eq_false_iff, Bool.and_eq_false_iff, decide_eq_false_iff_not,
    beq_eq_false_iff_ne]
  omega

theorem strip_of_forall {t : Text} (h : ∀ c ∈ t, isSpace c = false) : strip t = t := by
  have hd : t.dropWhile isSpace = t := by
    cases t with
    | nil => rfl
    | cons c t => exact List.dropWhile_cons_of_neg (by simp [h c])
  rw [strip, hd, List.rdropWhile_eq_self_iff]
  exact fun ht ↦ by simp [h _ (List.getLast_mem ht)]

theorem split_cons_space {c : Char} (h : isSpace c) (t : Text) : split (c :: t) = split t := by
  simp [split, List.splitOnP_cons_eq_if_modifyHead, h]

theorem split_append_space {c : Char} (h : isSpace c) (t : Text) : split (t ++ [c]) = split t := by
  simp [split, List.splitOnP_append_cons t [] h]

/-- What ignores blanks at both ends does not see the strip. -/
theorem apply_strip {α : Type*} {g : Text → α} (hcons : ∀ c t, isSpace c → g (c :: t) = g t)
    (hconcat : ∀ c t, isSpace c → g (t ++ [c]) = g t) (t : Text) : g (strip t) = g t := by
  have hdrop : ∀ t : Text, g (t.dropWhile isSpace) = g t := by
    intro t
    induction t with
    | nil => rfl
    | cons c t ih =>
      by_cases hc : isSpace c
      · rw [List.dropWhile_cons_of_pos hc, ih, hcons c t hc]
      · rw [List.dropWhile_cons_of_neg hc]
  have hrdrop : ∀ t : Text, g (t.rdropWhile isSpace) = g t := by
    intro t
    induction t using List.reverseRecOn with
    | nil => rfl
    | append_singleton t c ih =>
      by_cases hc : isSpace c
      · rw [List.rdropWhile_concat_pos _ _ _ hc, ih, hconcat c t hc]
      · rw [List.rdropWhile_concat_neg _ _ _ hc]
  rw [strip, hrdrop, hdrop]

theorem split_strip (t : Text) : split (strip t) = split t :=
  apply_strip (fun _ t hc ↦ split_cons_space hc t) (fun _ t hc ↦ split_append_space hc t) t

theorem split_intercalate {ws : List Text} {sep : Char} (hsep : isSpace sep)
    (hne : ∀ w ∈ ws, w ≠ []) (hws : ∀ w ∈ ws, ∀ c ∈ w, isSpace c = false) :
    split ([sep].intercalate ws) = ws := by
  induction ws with
  | nil => rfl
  | cons w ws ih =>
    have hw : ∀ c ∈ w, isSpace c = false := hws w (by simp)
    have hempty : (!w.isEmpty) = true := by simpa using hne w (by simp)
    cases ws with
    | nil => simp [split, List.splitOnP_eq_singleton hw, hempty]
    | cons v ws =>
      have htail := ih (fun u hu ↦ hne u (by simp [hu])) (fun u hu ↦ hws u (by simp [hu]))
      have he : [sep].intercalate (w :: v :: ws) = w ++ sep :: [sep].intercalate (v :: ws) := by
        simp [List.intercalate]
      rw [he, split, List.splitOnP_append_cons_of_forall_mem hw sep hsep,
        List.filter_cons_of_pos (by exact hempty)]
      exact congrArg (List.cons w) htail

theorem isSpace_of_mem_splitOnP {t w : Text} (hw : w ∈ t.splitOnP isSpace) {c : Char} (hc : c ∈ w) :
    isSpace c = false := by
  induction t generalizing w with
  | nil =>
    obtain rfl : w = [] := by simpa using hw
    cases hc
  | cons d t ih =>
    rw [List.splitOnP_cons_eq_if_modifyHead] at hw
    by_cases hd : isSpace d
    · rw [if_pos hd] at hw
      rcases List.mem_cons.mp hw with rfl | hw
      · cases hc
      · exact ih hw hc
    · rw [if_neg hd] at hw
      cases hsplit : t.splitOnP isSpace with
      | nil => simp [hsplit] at hw
      | cons u us =>
        rw [hsplit, List.modifyHead_cons] at hw
        rcases List.mem_cons.mp hw with rfl | hw
        · rcases List.mem_cons.mp hc with rfl | hc
          · simpa using hd
          · exact ih (by simp [hsplit]) hc
        · exact ih (by simp [hsplit, hw]) hc

theorem isSpace_of_mem_split {t w : Text} (hw : w ∈ split t) {c : Char} (hc : c ∈ w) :
    isSpace c = false :=
  isSpace_of_mem_splitOnP (List.mem_filter.mp hw).1 hc

theorem mem_intercalate_of_mem {sep c : Char} {t : Text} {ts : List Text} (ht : t ∈ ts)
    (hc : c ∈ t) :
    c ∈ [sep].intercalate ts := by
  induction ts with
  | nil => cases ht
  | cons u ts ih =>
    cases ts with
    | nil =>
      obtain rfl := List.mem_singleton.mp ht
      simpa using hc
    | cons v ts =>
      rw [List.intercalate_cons_cons, List.append_assoc, List.mem_append, List.mem_append]
      rcases List.mem_cons.mp ht with rfl | ht
      · exact .inl hc
      · exact .inr (.inr (ih ht))

theorem partition_append {sep : Char} {a b : Text} (h : sep ∉ a) :
    partition sep (a ++ sep :: b) = (a, b) := by
  have hall : ∀ c ∈ a, (c != sep) = true := fun c hc ↦ by
    simpa using (fun e : c = sep ↦ h (e ▸ hc))
  simp [partition, List.takeWhile_append_of_pos hall, List.dropWhile_append_of_pos hall]

theorem partition_of_mem {sep : Char} {t : Text} (h : sep ∈ t) :
    sep ∉ (partition sep t).1 ∧ t = (partition sep t).1 ++ sep :: (partition sep t).2 := by
  induction t with
  | nil => cases h
  | cons c t ih =>
    by_cases hc : c = sep
    · obtain rfl := hc
      simp [partition]
    · have hmem : sep ∈ t := (List.mem_cons.mp h).resolve_left (Ne.symm hc)
      have hcons : partition sep (c :: t) = (c :: (partition sep t).1, (partition sep t).2) := by
        simp [partition, hc]
      obtain ⟨hnot, heq⟩ := ih hmem
      rw [hcons]
      exact ⟨by simp [hnot, Ne.symm hc], congrArg (List.cons c) heq⟩

theorem isDigits_decimal (n : ℕ) : isDigits (decimal n) = true := by
  simp only [isDigits, decimal, Bool.and_eq_true, Bool.not_eq_true', List.isEmpty_eq_false_iff,
    List.all_eq_true]
  exact ⟨Nat.toDigits_ne_nil, fun c hc ↦ Nat.isDigit_of_mem_toDigits (by omega) (by omega) hc⟩

theorem decimal_inj {m n : ℕ} (h : decimal m = decimal n) : m = n := by
  have hread (k : ℕ) : Nat.ofDigitChars 10 (decimal k) 0 = k := Nat.ofDigitChars_ten_toDigits
  rw [← hread m, ← hread n, h]

theorem isDigit_of_mem {t : Text} (h : isDigits t) {c : Char} (hc : c ∈ t) : c.isDigit := by
  simp only [isDigits, Bool.and_eq_true, List.all_eq_true] at h
  exact h.2 c hc

theorem int?_eq_some {t : Text} {n : ℕ} :
    int? t = some n ↔ isDigits t ∧ t.length ≤ maxStrDigits ∧ Nat.ofDigitChars 10 t 0 = n := by
  simp only [int?]
  split
  · rename_i h
    simp [h]
  · rename_i h
    simp only [reduceCtorEq, false_iff]
    exact fun h' ↦ h ⟨h'.1, h'.2.1⟩

theorem int?_decimal {n : ℕ} (h : n < 10 ^ maxStrDigits) : int? (decimal n) = some n :=
  int?_eq_some.mpr ⟨isDigits_decimal n,
    (Nat.length_toDigits_le_iff (by omega) (by simp [maxStrDigits])).mpr h,
    Nat.ofDigitChars_ten_toDigits⟩

section Lengths

/-- The length of texts with one separator behind each. -/
def extent (ts : List Text) : ℕ := ts.foldr (fun t n ↦ t.length + 1 + n) 0

@[simp] theorem extent_nil : extent [] = 0 := rfl

@[simp] theorem extent_cons (t : Text) (ts : List Text) :
    extent (t :: ts) = t.length + 1 + extent ts := rfl

theorem length_intercalate (sep : Char) {ts : List Text} (hne : ts ≠ []) :
    ([sep].intercalate ts).length + 1 = extent ts := by
  induction ts with
  | nil => exact absurd rfl hne
  | cons t ts ih =>
    cases ts with
    | nil => simp
    | cons u ts =>
      have hrest := ih (List.cons_ne_nil u ts)
      rw [List.intercalate_cons_cons, List.length_append, List.length_append, extent_cons, ← hrest]
      simp only [List.length_singleton]
      omega

theorem extent_map_le {α : Type} {as : List α} {f g : α → Text}
    (h : ∀ a ∈ as, (f a).length ≤ (g a).length) : extent (as.map f) ≤ extent (as.map g) := by
  induction as with
  | nil => exact Nat.le_refl 0
  | cons a as ih =>
    have hhead := h a List.mem_cons_self
    have hrest := ih fun b hb ↦ h b (List.mem_cons_of_mem a hb)
    simp only [List.map_cons, extent_cons]
    omega

theorem extent_filter_le (p : Text → Bool) (ts : List Text) : extent (ts.filter p) ≤ extent ts := by
  induction ts with
  | nil => exact Nat.le_refl 0
  | cons t ts ih =>
    by_cases ht : p t
    · rw [List.filter_cons_of_pos ht, extent_cons, extent_cons]
      omega
    · rw [List.filter_cons_of_neg ht, extent_cons]
      omega

theorem length_strip_le (t : Text) : (strip t).length ≤ t.length :=
  (List.rdropWhile_prefix _ _).length_le.trans (List.dropWhile_sublist _).length_le

theorem extent_splitOnP (p : Char → Bool) (t : Text) : extent (t.splitOnP p) = t.length + 1 := by
  induction t with
  | nil => rfl
  | cons c t ih =>
    rw [List.splitOnP_cons_eq_if_modifyHead]
    split_ifs with hc
    · rw [extent_cons, ih, List.length_nil, List.length_cons]
      omega
    · cases hsplit : t.splitOnP p with
      | nil => exact absurd hsplit (List.splitOnP_ne_nil p t)
      | cons u us =>
        rw [hsplit] at ih
        simp only [List.modifyHead_cons, extent_cons, List.length_cons] at ih ⊢
        omega

theorem extent_split_le (t : Text) : extent (split t) ≤ t.length + 1 :=
  (extent_filter_le _ _).trans (extent_splitOnP isSpace t).le

theorem ofDigitChars_lt {t : Text} (h : ∀ c ∈ t, c.isDigit) :
    Nat.ofDigitChars 10 t 0 < 10 ^ t.length := by
  induction t using List.reverseRecOn with
  | nil => simp
  | append_singleton t c ih =>
    have hc : c.isDigit := h c (by simp)
    have hlt := ih fun d hd ↦ h d (by simp [hd])
    simp only [Char.isDigit, Bool.and_eq_true, decide_eq_true_eq, ge_iff_le,
      UInt32.le_iff_toNat_le] at hc
    have hdigit : c.toNat ≤ 57 := hc.2
    rw [Nat.ofDigitChars_append, Nat.ofDigitChars_cons, Nat.ofDigitChars_nil, List.length_append,
      List.length_singleton, Nat.pow_succ]
    have hzero : '0'.toNat = 48 := rfl
    omega

theorem length_decimal_le {t : Text} (h : isDigits t) :
    (decimal (Nat.ofDigitChars 10 t 0)).length ≤ t.length := by
  have hpos : 0 < t.length := by
    simp only [isDigits, Bool.and_eq_true, Bool.not_eq_true', List.isEmpty_eq_false_iff] at h
    exact List.length_pos_iff.mpr h.1
  exact (Nat.length_toDigits_le_iff (by decide) hpos).mpr
    (ofDigitChars_lt fun c hc ↦ isDigit_of_mem h hc)

end Lengths

/-- `str.encode("utf-8")`. -/
def utf8 (t : Text) : List UInt8 := t.flatMap String.utf8EncodeChar

theorem utf8_injective : Function.Injective utf8 := by
  intro t u h
  have hbytes : List.utf8Encode t = List.utf8Encode u := congrArg List.toByteArray h
  have hdecoded := congrArg ByteArray.utf8Decode? hbytes
  rw [List.utf8Decode?_utf8Encode, List.utf8Decode?_utf8Encode] at hdecoded
  simpa using hdecoded

theorem utf8_append (t u : Text) : utf8 (t ++ u) = utf8 t ++ utf8 u := List.flatMap_append

/-- Two ways to write a list around one element. -/
theorem append_cons_inj {α : Type} {a b : List α} {x : α} {u v : List α} :
    a ++ x :: u = b ++ x :: v ↔ (a = b ∧ u = v) ∨ (∃ t, a = b ++ x :: t ∧ v = t ++ x :: u) ∨
      ∃ t, b = a ++ x :: t ∧ u = t ++ x :: v := by
  rw [List.append_eq_append_iff]
  constructor
  · intro h
    rcases h with ⟨t, rfl, hu⟩ | ⟨t, rfl, hv⟩
    · cases t with
      | nil => exact .inl ⟨(List.append_nil a).symm, (List.cons.inj hu).2⟩
      | cons y t =>
        obtain ⟨rfl, rfl⟩ := List.cons.inj hu
        exact .inr (.inr ⟨t, rfl, rfl⟩)
    · cases t with
      | nil => exact .inl ⟨List.append_nil b, (List.cons.inj hv).2.symm⟩
      | cons y t =>
        obtain ⟨rfl, rfl⟩ := List.cons.inj hv
        exact .inr (.inl ⟨t, rfl, rfl⟩)
  · intro h
    rcases h with ⟨rfl, rfl⟩ | ⟨t, rfl, rfl⟩ | ⟨t, rfl, rfl⟩
    · exact .inl ⟨[], (List.append_nil a).symm, rfl⟩
    · exact .inr ⟨x :: t, rfl, rfl⟩
    · exact .inl ⟨x :: t, rfl, rfl⟩

/-- What lacks an element lies on one side of it. -/
theorem infix_append_cons {α : Type} {n a r : List α} {x : α} (hx : x ∉ n)
    (h : n <:+: a ++ x :: r) : n <:+: a ∨ n <:+: r := by
  obtain ⟨s, u, h⟩ := h
  rw [List.append_assoc, List.append_eq_append_iff] at h
  rcases h with ⟨t, rfl, ht⟩ | ⟨t, rfl, ht⟩
  · rcases List.append_eq_append_iff.mp ht with ⟨v, rfl, -⟩ | ⟨v, rfl, hv⟩
    · exact .inl ⟨s, v, List.append_assoc s n v⟩
    · cases v with
      | nil =>
        rw [List.append_nil]
        exact .inl (List.suffix_append s t).isInfix
      | cons y v =>
        obtain ⟨rfl, -⟩ := List.cons.inj hv
        exact absurd (List.mem_append_right t List.mem_cons_self) hx
  · cases t with
    | nil =>
      cases n with
      | nil => exact .inl List.nil_infix
      | cons y n =>
        obtain ⟨rfl, -⟩ := List.cons.inj ht
        exact absurd List.mem_cons_self hx
    | cons y t =>
      obtain ⟨rfl, rfl⟩ := List.cons.inj ht
      exact .inr ⟨t, u, List.append_assoc t n u⟩

section Zip

variable {α β γ : Type}

end Zip

end CronPanel.Library.Strings
