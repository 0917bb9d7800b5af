import CronPanel.Scheduler.Triggers

namespace CronPanel.Scheduler.Apscheduler

open Library.Strings Library.Tables Library.Fallible Cron.Validator Cron.Elements Cron.Grammar Triggers

def readStep? (t : Text) : Option Step :=
  if h : isDigits t ∧ t.length ≤ maxStrDigits ∧ 0 < Nat.ofDigitChars 10 t 0 then
    some ⟨t, h.1, h.2.1, h.2.2⟩
  else none

def readBase? (t : Text) : Option Base :=
  if t = starText then some .any
  else if '-' ∈ t then do
    let a ← int? (partition '-' t).1
    let b ← int? (partition '-' t).2
    some (.range a b)
  else Base.single <$> int? t

def element? (f : Field) (base : Base) (step : Option Step) : Option (Element f) :=
  if h : base.InBounds f then some ⟨base, step, h⟩ else none

def readElement? (f : Field) (t : Text) : Option (Element f) :=
  if '/' ∈ t then do
    let base ← readBase? (partition '/' t).1
    let step ← readStep? (partition '/' t).2
    element? f base (some step)
  else do
    let base ← readBase? t
    element? f base none

def readField? (f : Field) (t : Text) : Option (List (Element f)) :=
  (t.splitOn ',').mapM (readElement? f)

def readCrontab? (t : Text) : Option ((f : Field) → List (Element f)) :=
  match split t with
  | [minute, hour, dayOfMonth, month, dayOfWeek] => do
    let minute ← readField? .minute minute
    let hour ← readField? .hour hour
    let dayOfMonth ← readField? .dayOfMonth dayOfMonth
    let month ← readField? .month month
    let dayOfWeek ← readField? .dayOfWeek dayOfWeek
    some fun
      | .minute => minute
      | .hour => hour
      | .dayOfMonth => dayOfMonth
      | .month => month
      | .dayOfWeek => dayOfWeek
  | _ => none

def fromCrontab (t : Text) : Option ((f : Field) → List (Element f)) :=
  (readCrontab? t).filter fun elements ↦
    Field.names.all fun f ↦ (elements f).all fun e ↦ decide (StepFits e)

/-- A trigger is the list of the elements of each field. -/
def apscheduler : Apscheduler where
  Trigger := (f : Field) → List (Element f)
  fromCrontab := fromCrontab
  fires elements f v := ∃ e ∈ elements f, v ∈ firingValues e

theorem readStep?_text (s : Step) : readStep? s.text = some s := by
  have h := And.intro s.digits (And.intro s.length_le s.pos)
  rw [readStep?, dif_pos h]

theorem readBase?_text {f : Field} {b : Base} (h : b.InBounds f) : readBase? b.text = some b := by
  have hint {n : ℕ} (hn : n ∈ f.allowed) : int? (decimal n) = some n := by
    have hi := int_decimal (le_sixty_of_mem hn)
    rw [int] at hi
    cases hq : int? (decimal n) with
    | none => simp [hq] at hi
    | some m => simpa [hq] using hi
  cases b with
  | any => rfl
  | single n =>
    have hne := ne_star_of_isDigits (isDigits_decimal n)
    simp [readBase?, Base.text, hne, dash_not_mem_decimal, hint h]
  | range a b =>
    have hne : decimal a ++ '-' :: decimal b ≠ starText := fun e ↦
      (text_eq_star (e := (⟨.range a b, none, h⟩ : Element f))).not.mpr (by simp) e
    simp [readBase?, Base.text, hne, partition_range, hint h.1, hint h.2.1]

theorem readElement?_text {f : Field} (e : Element f) : readElement? f e.text = some e := by
  obtain ⟨base, step, hb⟩ := e
  have helem : ∀ step, element? f base step = some ⟨base, step, hb⟩ := fun step ↦ dif_pos hb
  cases step with
  | none =>
    simp [readElement?, Element.text, slash_not_mem_base, readBase?_text hb, helem]
  | some s =>
    simp [readElement?, Element.text, partition_append (slash_not_mem_base base),
      readBase?_text hb, readStep?_text, helem]

theorem readField?_joined {f : Field} {es : List (Element f)} (hne : es ≠ []) :
    readField? f (joined es) = some es := by
  rw [readField?, splitOn_joined hne]
  clear hne
  induction es with
  | nil => rfl
  | cons e es ih => simp [List.mapM_cons, readElement?_text, ih]

theorem readCrontab?_text (s : Schedule) : readCrontab? s.text = some s.elements := by
  have hsplit : split s.text =
      [s.fieldText .minute, s.fieldText .hour, s.fieldText .dayOfMonth, s.fieldText .month,
        s.fieldText .dayOfWeek] := by
    rw [← split_strip, split_text]
    rfl
  have hread (f : Field) : readField? f (s.fieldText f) = some (s.elements f) :=
    readField?_joined (s.elements_ne_nil f)
  simp only [readCrontab?, hsplit, hread, Option.bind_eq_bind, Option.bind_some, Option.some.injEq]
  funext f
  cases f <;> rfl

theorem fromCrontab_text {s : Schedule} {t : (f : Field) → List (Element f)} :
    fromCrontab s.text = some t ↔ s.elements = t ∧ StepsFit s := by
  simp only [fromCrontab, readCrontab?_text, Option.filter_eq_some_iff, Option.some.injEq,
    List.all_eq_true, decide_eq_true_eq, StepsFit]
  constructor
  · intro hx
    obtain ⟨rfl, h⟩ := hx
    exact ⟨rfl, fun f ↦ h f f.mem_names⟩
  · intro hx
    obtain ⟨rfl, h⟩ := hx
    exact ⟨rfl, fun f _ ↦ h f⟩

theorem apscheduler_documented : apscheduler.Documented where
  accepts s := by
    rw [Option.isSome_iff_exists]
    constructor
    · intro hx
      obtain ⟨t, ht⟩ := hx
      exact (fromCrontab_text.mp ht).2
    · exact fun h ↦ ⟨s.elements, fromCrontab_text.mpr ⟨rfl, h⟩⟩
  fires_iff s t h f v _ := by
    obtain ⟨rfl, -⟩ := fromCrontab_text.mp h
    exact Iff.rfl

end CronPanel.Scheduler.Apscheduler
