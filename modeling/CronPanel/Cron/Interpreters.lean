import CronPanel.Cron.Displayable
import CronPanel.Cron.Documented

namespace CronPanel.Cron.Interpreters

open Library.Strings Library.Ranges Library.Fallible Validator Elements Grammar Tokens Documented
open Describe Displayable

/-- What `_validate_token` lets through, `_expand_token` reads without an error: values of the
field, and some of them unless the token is a step over a star. -/
def TokensAgree (f : Field) : Prop :=
  ∀ token normalized, validateToken token f = .ok normalized →
    ∃ values, expandToken normalized f = .ok values ∧ values ⊆ f.allowed ∧
      (values = ∅ → ∃ step, isDigits step ∧ token = '*' :: '/' :: step)

/-- Where the first pass over the elements of a field succeeds, the loop body fails only because
nothing is left of them. -/
def OnlyEmptyExpansion (f : Field) : Prop :=
  ∀ token normalizedParts,
    ((token.splitOn ',').mapM fun part ↦ validateToken (strip part) f) = .ok normalizedParts →
      ∀ error, parseField f token = .error error → error = .validation
        ⟨.invalidValue, "La expresión no produce ningún valor.".toList, some f⟩

/-- The table of names that the describer reads for the field has an entry. -/
def HasName (f : Field) (value : ℕ) : Prop :=
  match f with
  | .month => Succeeds (monthName value)
  | .dayOfWeek => Succeeds (weekdayName value)
  | _ => True

/-- The values of a parsed field can be read, are of the field and have names. -/
def ValuesNamed (f : Field) : Prop :=
  ∀ expression fields, parseCronExpression expression = .ok fields →
    ∀ text, (f, text) ∈ Field.names.zip fields →
      ∃ values, expandCronField f text = .ok values ∧
        ∀ value ∈ values, value ∈ f.allowed ∧ HasName f value

variable {f : Field}

theorem text_of_vanishes {τ : Token} (h : Vanishes f τ) :
    ∃ step, isDigits step ∧ τ.text = '*' :: '/' :: step := by
  obtain ⟨base, step⟩ := τ
  obtain ⟨hbase, s, hs, -⟩ := h
  obtain rfl : base = .any := hbase
  obtain rfl : step = some s := hs
  exact ⟨s.text, s.digits, rfl⟩

theorem tokens_agree (f : Field) : TokensAgree f := by
  intro token normalized h
  obtain ⟨τ, rfl, hadmitted, rfl⟩ := admitted_of_validateToken h
  obtain ⟨e, htext, hempty⟩ := exists_element hadmitted
  refine ⟨e.values, ?_, e.values_subset, ?_⟩
  · rw [← htext, expandToken_text]
  · intro hnone
    apply text_of_vanishes
    by_contra hvanishes
    exact (hempty.mpr hvanishes).ne_empty hnone

theorem only_empty_expansion (f : Field) : OnlyEmptyExpansion f := by
  intro token normalizedParts hparts error herror
  obtain ⟨es, rfl, -⟩ := validateToken_elements hparts
  rw [parseField] at herror
  split_ifs at herror with hnil
  · rw [hnil] at hparts
    cases hparts
  · rw [hparts, ok_bind, expandTokens_text, ok_bind] at herror
    split_ifs at herror
    exact (Except.error.inj herror).symm

theorem hasName_of_mem {value : ℕ} (h : value ∈ f.allowed) : HasName f value := by
  cases f with
  | month => exact monthName_ok h
  | dayOfWeek => exact weekdayName_ok h
  | _ => trivial

theorem values_named (f : Field) : ValuesNamed f := by
  intro expression fields h text htext
  obtain ⟨s, rfl⟩ := parse_ok h
  have hzip : Field.names.zip s.fields = Field.names.map fun f ↦ (f, s.fieldText f) := rfl
  rw [hzip, List.mem_map] at htext
  obtain ⟨g, -, hg⟩ := htext
  obtain ⟨rfl, rfl⟩ := Prod.mk.inj hg
  refine ⟨_, expandCronField_text s g, ?_⟩
  intro value hvalue
  have hallowed := mem_allowed_of_mem s hvalue
  exact ⟨hallowed, hasName_of_mem hallowed⟩

/-- The two readings of a token agree in every field, so the second pass of the parser fails on
nothing but an empty expansion, and the describer finds a name for every value. -/
theorem interpreters_agree (f : Field) : TokensAgree f ∧ OnlyEmptyExpansion f ∧ ValuesNamed f :=
  ⟨tokens_agree f, only_empty_expansion f, values_named f⟩

end CronPanel.Cron.Interpreters
