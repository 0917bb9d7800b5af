import CronPanel.Cron.Validator

namespace CronPanel.Cron.Elements

open Library.Strings Library.Ranges Validator

/-- The digits after a slash, as they were written: leading zeros stay. -/
structure Step where
  text : Text
  digits : isDigits text
  length_le : text.length ≤ maxStrDigits
  pos : 0 < Nat.ofDigitChars 10 text 0

def Step.value (s : Step) : ℕ := Nat.ofDigitChars 10 s.text 0

inductive Base
  | any
  | single (n : ℕ)
  | range (a b : ℕ)
  deriving DecidableEq

namespace Base

def InBounds (f : Field) : Base → Prop
  | any => True
  | single n => n ∈ f.allowed
  | range a b => a ∈ f.allowed ∧ b ∈ f.allowed ∧ a ≤ b

instance (f : Field) (b : Base) : Decidable (b.InBounds f) := by
  cases b <;> unfold InBounds <;> infer_instance

def text : Base → Text
  | any => starText
  | single n => decimal n
  | range a b => decimal a ++ '-' :: decimal b

end Base

structure Element (f : Field) where
  base : Base
  step : Option Step
  inBounds : base.InBounds f

namespace Element

variable {f : Field}

def text (e : Element f) : Text := e.step.elim e.base.text fun s ↦ e.base.text ++ '/' :: s.text

/-- The values the panel reads in an element. A step counts from the start of
a range, and from zero after a star; a step after a single value is dropped. -/
def values (e : Element f) : Finset ℕ :=
  match e.base, e.step with
  | .any, none => f.allowed
  | .any, some s => f.allowed.filter (fun v ↦ s.value ∣ v)
  | .single n, _ => {n}
  | .range a b, none => Finset.Icc a b
  | .range a b, some s => (Finset.Icc a b).filter (fun v ↦ s.value ∣ v - a)

end Element

/-- A schedule: comma lists of elements whose values do not all vanish. -/
structure Schedule where
  elements : (f : Field) → List (Element f)
  nonempty : ∀ f, ∃ e ∈ elements f, e.values.Nonempty

namespace Schedule

def fieldText (s : Schedule) (f : Field) : Text :=
  [','].intercalate ((s.elements f).map Element.text)

def fields (s : Schedule) : List Text := Field.names.map s.fieldText

def text (s : Schedule) : Text := [' '].intercalate s.fields

def values (s : Schedule) (f : Field) : Finset ℕ :=
  (s.elements f).foldl (fun values e ↦ values ∪ e.values) ∅

theorem mem_values {s : Schedule} {f : Field} {v : ℕ} :
    v ∈ s.values f ↔ ∃ e ∈ s.elements f, v ∈ e.values := by
  simp [values, mem_foldl_union]

theorem values_nonempty (s : Schedule) (f : Field) : (s.values f).Nonempty := by
  obtain ⟨e, he, v, hv⟩ := s.nonempty f
  exact ⟨v, mem_values.mpr ⟨e, he, hv⟩⟩

theorem elements_ne_nil (s : Schedule) (f : Field) : s.elements f ≠ [] := by
  obtain ⟨e, he, -⟩ := s.nonempty f
  exact List.ne_nil_of_mem he

end Schedule

theorem Element.values_subset {f : Field} (e : Element f) : e.values ⊆ f.allowed := by
  intro v hv
  obtain ⟨base, step, hb⟩ := e
  have hIcc {a b : ℕ} (h : (Base.range a b).InBounds f) (hv : v ∈ Finset.Icc a b) :
      v ∈ f.allowed := by
    obtain ⟨ha, hb, -⟩ := h
    rw [Field.mem_allowed] at ha hb ⊢
    rw [Finset.mem_Icc] at hv
    omega
  cases base with
  | any =>
    cases step with
    | none => exact hv
    | some s => exact (Finset.mem_filter.mp hv).1
  | single n =>
    obtain rfl : v = n := by cases step <;> exact Finset.mem_singleton.mp hv
    exact hb
  | range a b =>
    cases step with
    | none => exact hIcc hb hv
    | some s => exact hIcc hb (Finset.mem_filter.mp hv).1

theorem Schedule.values_subset (s : Schedule) (f : Field) : s.values f ⊆ f.allowed := by
  intro v hv
  obtain ⟨e, -, hv⟩ := mem_values.mp hv
  exact e.values_subset hv

end CronPanel.Cron.Elements
