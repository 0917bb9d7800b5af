import CronPanel.Library.JsonText

namespace CronPanel.Frontend.Cronjobs

open Library.Strings Library.JsonData Library.JsonText

mutual

/-- `JSON.stringify`, which puts no blanks between its signs. -/
def stringify : Json → Text
  | .null => "null".toList
  | .bool value => (if value then "true" else "false").toList
  | .number value => if value < 0 then '-' :: decimal value.natAbs else decimal value.natAbs
  | .text value => quote value
  | .list items => '[' :: ([','].intercalate (stringifyItems items) ++ [']'])
  | .object entries => '\x7b' :: ([','].intercalate (stringifyEntries entries) ++ ['\x7d'])
termination_by structural value => value

def stringifyItems : List Json → List Text
  | [] => []
  | item :: items => stringify item :: stringifyItems items
termination_by structural items => items

def stringifyEntries : List (Text × Json) → List Text
  | [] => []
  | entry :: entries => stringifyEntry entry :: stringifyEntries entries
termination_by structural entries => entries

def stringifyEntry : Text × Json → Text
  | (key, item) => quote key ++ ':' :: stringify item
termination_by structural entry => entry

end

/-- `change && key in change ? change[key] : null`; `none` is the `TypeError` of `in`. -/
def member (key : Text) : Json → Option Json
  | .object entries => some ((entries.find? fun entry ↦ entry.1 = key).elim .null Prod.snd)
  | .null | .bool false | .number 0 | .text [] | .list _ => some .null
  | .bool true | .number _ | .text _ => none

def changeLine (field : Text) (oldValue newValue : Json) : Text :=
  field ++ ": ".toList ++ stringify oldValue ++ " → ".toList ++ stringify newValue

/-- The lines of `renderHistory` for the changes of an entry, whose keys are no array indices. -/
def historyLines : Option Json → Option (List Text)
  | some (.object entries) => entries.mapM fun entry ↦ do
    let oldValue ← member "old".toList entry.2
    let newValue ← member "new".toList entry.2
    some (changeLine entry.1 oldValue newValue)
  | _ => some []

theorem stringify_head {j : Json} (h : j ≠ .null) :
    ∃ c t, stringify j = c :: t ∧ c ≠ 'n' := by
  have hdigit (n : ℕ) : ∃ c t, decimal n = c :: t ∧ c ≠ 'n' := by
    obtain ⟨-, c, t, hct, hc⟩ := starts_decimal n
    refine ⟨c, t, hct, ?_⟩
    rintro rfl
    cases hc
  cases j with
  | null => exact absurd rfl h
  | bool value =>
    cases value with
    | true => exact ⟨'t', "rue".toList, rfl, by decide⟩
    | false => exact ⟨'f', "alse".toList, rfl, by decide⟩
  | number value =>
    simp only [stringify]
    split_ifs
    · exact ⟨'-', _, rfl, by decide⟩
    · exact hdigit value.natAbs
  | text value => exact ⟨'"', _, rfl, by decide⟩
  | list items => exact ⟨'[', _, rfl, by decide⟩
  | object entries => exact ⟨'\x7b', _, rfl, by decide⟩

/-- A line with two nulls is that of no field whose value has changed. -/
theorem changeLine_null {field field' : Text} {oldValue newValue : Json} (h : ':' ∉ field)
    (h' : ':' ∉ field')
    (heq : changeLine field oldValue newValue = changeLine field' .null .null) :
    oldValue = .null ∧ newValue = .null := by
  have hnull {j : Json} {t u : Text} (hj : stringify j ++ t = 'n' :: u) : j = .null := by
    by_contra hne
    obtain ⟨c, v, hcv, hc⟩ := stringify_head hne
    rw [hcv] at hj
    exact hc (List.cons.inj hj).1
  have hsplit {f : Text} {a b : Json} (hf : ':' ∉ f) : partition ':' (changeLine f a b) =
      (f, ' ' :: (stringify a ++ " → ".toList ++ stringify b)) := by
    have hline : changeLine f a b =
        f ++ ':' :: ' ' :: (stringify a ++ " → ".toList ++ stringify b) := by
      simp [changeLine]
    rw [hline]
    exact partition_append hf
  have hvalues := congrArg (partition ':') heq
  rw [hsplit h, hsplit h'] at hvalues
  have hrest := (List.cons.inj (Prod.mk.inj hvalues).2).2
  rw [List.append_assoc] at hrest
  obtain rfl := hnull hrest
  refine ⟨rfl, ?_⟩
  rw [List.append_assoc, List.append_cancel_left_eq, List.append_cancel_left_eq] at hrest
  rw [← List.append_nil (stringify newValue)] at hrest
  exact hnull hrest

end CronPanel.Frontend.Cronjobs
