import CronPanel.Cron.Documented

namespace CronPanel.Cron.Normalized

open Library.Strings Library.Fallible Validator Elements Grammar Tokens Documented

variable {f : Field}

theorem length_rewriteShape_le (f : Field) (b : Shape) :
    (rewriteShape f b).text.length ≤ b.text.length := by
  have hone (n : Numeral) : (decimal (normalizeBound f n.value)).length ≤ n.text.length := by
    have hvalue : (decimal n.value).length ≤ n.text.length := length_decimal_le n.digits
    unfold normalizeBound
    split_ifs
    · have hpos : 0 < n.text.length := List.length_pos_iff.mpr (ne_nil_of_isDigits n.digits)
      exact hpos
    · exact hvalue
  cases b with
  | any => exact Nat.le_refl _
  | single n => exact hone n
  | range a b =>
    have ha := hone a
    have hb := hone b
    simp only [rewriteShape, Shape.text, Numeral.ofNat, List.length_append, List.length_cons]
    omega

theorem length_rewrite_le (f : Field) (τ : Token) :
    (rewrite f τ).text.length ≤ τ.text.length := by
  obtain ⟨base, step⟩ := τ
  have hbase := length_rewriteShape_le f base
  cases step with
  | none => exact hbase
  | some s =>
    simp only [rewrite, Token.text, Option.elim_some, List.length_append, List.length_cons]
    omega

theorem length_listText_rewrite_le {τs : List Token} (hne : τs ≠ []) :
    (listText (τs.map (rewrite f))).length ≤ (listText τs).length := by
  have hnew : (listText (τs.map (rewrite f))).length + 1 =
      extent ((τs.map (rewrite f)).map Token.text) := length_intercalate ',' (by simpa using hne)
  have hold : (listText τs).length + 1 = extent (τs.map Token.text) :=
    length_intercalate ',' (by simpa using hne)
  have hle : extent ((τs.map (rewrite f)).map Token.text) ≤ extent (τs.map Token.text) := by
    rw [List.map_map]
    exact extent_map_le fun τ _ ↦ length_rewrite_le f τ
  omega

/-- The normalized text is never longer than what was written. -/
theorem length_normalized_le {e : Text} {fields : List Text}
    (h : parseCronExpression (some e) = .ok fields) :
    ([' '].intercalate fields).length ≤ e.length := by
  obtain ⟨x, hx, -, rfl⟩ := parse_eq_ok.mp h
  have hjoined :
      ([' '].intercalate (Field.names.map fun f ↦ listText ((x.tokens f).map (rewrite f)))).length + 1 =
        extent (Field.names.map fun f ↦ listText ((x.tokens f).map (rewrite f))) :=
    length_intercalate ' ' (List.cons_ne_nil _ _)
  have hle : extent (Field.names.map fun f ↦ listText ((x.tokens f).map (rewrite f))) ≤
      extent x.words := extent_map_le fun f _ ↦ length_listText_rewrite_le (x.nonempty f)
  have hsplit := extent_split_le e
  rw [show split e = x.words from hx] at hsplit
  omega

/-- What the parser returns is a fixed point of the parser. -/
theorem parse_normalized {e : Option Text} {fields : List Text}
    (h : parseCronExpression e = .ok fields) :
    parseCronExpression (some ([' '].intercalate fields)) = .ok fields := by
  obtain ⟨s, rfl⟩ := parse_ok h
  exact parse_text s

end CronPanel.Cron.Normalized
