import CronPanel.Library.Fallible
import CronPanel.Library.JsonText

namespace CronPanel.Library.PythonJson

open Strings JsonText Fallible

/-- A number with a fraction or an exponent, as it stands in a JSON text. -/
structure Literal where
  negative : Bool
  whole : ℕ
  fraction : Text
  /-- The sign and the digits behind the `e`. -/
  exponent : Option (Text × Text)
  deriving DecidableEq

namespace Literal

structure WellFormed (l : Literal) : Prop where
  fraction : ∀ c ∈ l.fraction, c.isDigit
  exponent : ∀ e, l.exponent = some e → (e.1 = [] ∨ e.1 = ['+'] ∨ e.1 = ['-']) ∧ isDigits e.2
  real : ¬(l.fraction = [] ∧ l.exponent = none)

def fractionText (fraction : Text) : Text := if fraction = [] then [] else '.' :: fraction

def exponentText : Option (Text × Text) → Text
  | none => []
  | some e => 'e' :: (e.1 ++ e.2)

/-- The text behind the sign. -/
def unsigned (l : Literal) : Text :=
  decimal l.whole ++ (fractionText l.fraction ++ exponentText l.exponent)

def text (l : Literal) : Text := if l.negative then '-' :: l.unsigned else l.unsigned

end Literal

/-- The finite floats: `float.__repr__` gives the shortest text that `float` reads back as the
same number; `none` is an infinity. -/
structure Floats (F : Type) where
  repr : F → Literal
  read : Literal → Option F
  repr_wellFormed : ∀ x, (repr x).WellFormed
  read_repr : ∀ x, read (repr x) = some x

/-- A number with zeros in front, as wide as it has to be. -/
def padded (width n : ℕ) : Text := List.replicate (width - (decimal n).length) '0' ++ decimal n

structure Date where
  year : ℕ
  month : ℕ
  day : ℕ
  deriving DecidableEq

def Date.isoformat (d : Date) : Text :=
  padded 4 d.year ++ '-' :: padded 2 d.month ++ '-' :: padded 2 d.day

structure Datetime where
  date : Date
  hour : ℕ
  minute : ℕ
  second : ℕ
  microsecond : ℕ
  /-- The offset from UTC in microseconds, where there is one. -/
  utcoffset : Option ℤ
  deriving DecidableEq

def fractionOfSecond (microsecond : ℕ) : Text :=
  if microsecond = 0 then [] else '.' :: padded 6 microsecond

def formatUtcoffset : Option ℤ → Text
  | none => []
  | some offset =>
    let microseconds := offset.natAbs % 1000000
    let seconds := offset.natAbs / 1000000
    (if offset < 0 then '-' else '+') :: padded 2 (seconds / 3600) ++
      ':' :: padded 2 (seconds / 60 % 60) ++
        if seconds % 60 = 0 ∧ microseconds = 0 then []
        else ':' :: padded 2 (seconds % 60) ++ fractionOfSecond microseconds

def Datetime.isoformat (d : Datetime) : Text :=
  d.date.isoformat ++ 'T' :: padded 2 d.hour ++ ':' :: padded 2 d.minute ++
    ':' :: padded 2 d.second ++ fractionOfSecond d.microsecond ++ formatUtcoffset d.utcoffset

/-- The values of which details are made; a dictionary has its entries in their order. -/
inductive Value (F : Type)
  | null
  | bool (value : Bool)
  | int (value : ℤ)
  | float (value : F)
  | text (value : Text)
  | list (items : List (Value F))
  | tuple (items : List (Value F))
  | dict (entries : List (Text × Value F))
  | date (value : Date)
  | datetime (value : Datetime)

inductive DumpsError
  | typeError
  | valueError
  deriving DecidableEq, Repr

section Dumps

variable {F : Type} (floats : Floats F)

/-- `int.__repr__`, which refuses an integer of too many digits. -/
def intRepr (value : ℤ) : Except DumpsError Text :=
  let digits := decimal value.natAbs
  if maxStrDigits < digits.length then .error .valueError
  else .ok (if value < 0 then '-' :: digits else digits)

mutual

/-- `json.dumps(value, ensure_ascii=False)`. -/
def dumps : Value F → Except DumpsError Text
  | .null => .ok "null".toList
  | .bool value => .ok (if value then "true" else "false").toList
  | .int value => intRepr value
  | .float value => .ok (floats.repr value).text
  | .text value => .ok (quote value)
  | .list items | .tuple items => do
    let texts ← dumpsItems items
    .ok ('[' :: ([',', ' '].intercalate texts ++ [']']))
  | .dict entries => do
    let texts ← dumpsEntries entries
    .ok ('\x7b' :: ([',', ' '].intercalate texts ++ ['\x7d']))
  | .date _ | .datetime _ => .error .typeError
termination_by structural value => value

def dumpsItems : List (Value F) → Except DumpsError (List Text)
  | [] => .ok []
  | item :: items => do
    let text ← dumps item
    let texts ← dumpsItems items
    .ok (text :: texts)
termination_by structural items => items

def dumpsEntries : List (Text × Value F) → Except DumpsError (List Text)
  | [] => .ok []
  | entry :: entries => do
    let text ← dumpsEntry entry
    let texts ← dumpsEntries entries
    .ok (text :: texts)
termination_by structural entries => entries

def dumpsEntry : Text × Value F → Except DumpsError Text
  | (key, item) => do
    let text ← dumps item
    .ok (quote key ++ ':' :: ' ' :: text)
termination_by structural entry => entry

end

end Dumps

section Loads

variable {F : Type} (floats : Floats F)

/-- The digits of an integer, which begins with a zero only if it is one. -/
def leadingDigits (t : Text) : Text :=
  if t.head? = some '0' then ['0'] else t.takeWhile Char.isDigit

def parseFraction : Text → Text × Text
  | [] => ([], [])
  | c :: t =>
    let digits := t.takeWhile Char.isDigit
    if c = '.' ∧ digits ≠ [] then (digits, t.drop digits.length) else ([], c :: t)

def parseExponent : Text → Option (Text × Text) × Text
  | [] => (none, [])
  | c :: t =>
    let sign := if t.head? = some '+' ∨ t.head? = some '-' then t.take 1 else []
    let digits := (t.drop sign.length).takeWhile Char.isDigit
    if (c = 'e' ∨ c = 'E') ∧ digits ≠ [] then
      (some (sign, digits), (t.drop sign.length).drop digits.length)
    else (none, c :: t)

/-- A number behind its sign. -/
def parseNumber (negative : Bool) (t : Text) : Option (Value F × Text) :=
  let digits := leadingDigits t
  let whole := Nat.ofDigitChars 10 digits 0
  let fraction := parseFraction (t.drop digits.length)
  let exponent := parseExponent fraction.2
  if digits = [] then none
  else if fraction.1 = [] ∧ exponent.1 = none then
    if maxStrDigits < digits.length then none
    else some (.int (if negative then -whole else whole), exponent.2)
  else (floats.read ⟨negative, whole, fraction.1, exponent.1⟩).map fun x ↦ (.float x, exponent.2)

def parseValue : ℕ → Text → Option (Value F × Text)
  | 0, _ => none
  | n + 1, t =>
    match t with
    | '"' :: t => (parseString (t.length + 1) t).map fun r ↦ (.text r.1, r.2)
    | '[' :: t => (parseArray (parseValue n) t).map fun r ↦ (.list r.1, r.2)
    | '\x7b' :: t => (parseObject (parseValue n) t).map fun r ↦ (.dict r.1, r.2)
    | 'n' :: 'u' :: 'l' :: 'l' :: t => some (.null, t)
    | 't' :: 'r' :: 'u' :: 'e' :: t => some (.bool true, t)
    | 'f' :: 'a' :: 'l' :: 's' :: 'e' :: t => some (.bool false, t)
    | '-' :: t => parseNumber floats true t
    | t => parseNumber floats false t

/-- `json.loads`; `none` is a `ValueError`, or a number that is not finite. -/
def loads (t : Text) : Option (Value F) := do
  let (value, rest) ← parseValue floats (t.length + 1) (skipSpace t)
  if skipSpace rest = [] then some value else none

end Loads

section Numbers

variable {F : Type} {floats : Floats F}

/-- What may follow the integer part or the fraction of a number that goes no further. -/
def EndsDigits (rest : Text) : Prop :=
  rest.takeWhile Char.isDigit = [] ∧ rest.head? ≠ some '.'

theorem endsDigits_follows {rest : Text} (h : Follows rest) : EndsDigits rest := by
  obtain ⟨hdigit, hnumber⟩ := h.isDigit
  refine ⟨hdigit, fun hdot ↦ ?_⟩
  rw [hdot] at hnumber
  cases hnumber

theorem endsDigits_exponent {e : Option (Text × Text)} {rest : Text} (h : Follows rest) :
    EndsDigits (Literal.exponentText e ++ rest) := by
  cases e with
  | none => exact endsDigits_follows h
  | some e => exact ⟨rfl, by simp [Literal.exponentText]⟩

theorem parseFraction_text {fraction rest : Text} (h : ∀ c ∈ fraction, c.isDigit)
    (hrest : EndsDigits rest) :
    parseFraction (Literal.fractionText fraction ++ rest) = (fraction, rest) := by
  obtain ⟨hstop, hdot⟩ := hrest
  unfold Literal.fractionText
  split_ifs with hnil
  · subst hnil
    cases rest with
    | nil => rfl
    | cons c rest =>
      rw [List.nil_append, parseFraction]
      exact if_neg fun hc ↦ hdot (congrArg some hc.1)
  · have hdigits : (fraction ++ rest).takeWhile Char.isDigit = fraction := by
      rw [List.takeWhile_append_of_pos h, hstop, List.append_nil]
    rw [List.cons_append, parseFraction, hdigits, if_pos ⟨rfl, hnil⟩, List.drop_left]

theorem parseExponent_follows {rest : Text} (h : Follows rest) :
    parseExponent rest = (none, rest) := by
  obtain ⟨-, hnumber⟩ := h.isDigit
  cases rest with
  | nil => rfl
  | cons c rest =>
    have hc : ¬(c = 'e' ∨ c = 'E') := by
      rintro (rfl | rfl)
      · cases hnumber
      · cases hnumber
    rw [parseExponent]
    exact if_neg fun he ↦ hc he.1

theorem parseExponent_text {e : Option (Text × Text)} {rest : Text}
    (h : ∀ x, e = some x → (x.1 = [] ∨ x.1 = ['+'] ∨ x.1 = ['-']) ∧ isDigits x.2)
    (hrest : Follows rest) :
    parseExponent (Literal.exponentText e ++ rest) = (e, rest) := by
  cases e with
  | none => exact parseExponent_follows hrest
  | some e =>
    obtain ⟨sign, digits⟩ := e
    obtain ⟨hsign, hisDigits⟩ := h _ rfl
    obtain ⟨hstop, -⟩ := hrest.isDigit
    have hdigit : ∀ c ∈ digits, c.isDigit := fun c hc ↦ isDigit_of_mem hisDigits hc
    have htake : (digits ++ rest).takeWhile Char.isDigit = digits := by
      rw [List.takeWhile_append_of_pos hdigit, hstop, List.append_nil]
    have hread : (if ((sign ++ digits) ++ rest).head? = some '+' ∨
        ((sign ++ digits) ++ rest).head? = some '-' then ((sign ++ digits) ++ rest).take 1
          else []) = sign := by
      dsimp only at hsign
      rcases hsign with rfl | rfl | rfl
      · cases digits with
        | nil => cases hisDigits
        | cons c digits =>
          have hc := hdigit c List.mem_cons_self
          refine if_neg ?_
          rintro (hplus | hminus)
          · obtain rfl := Option.some.inj hplus
            cases hc
          · obtain rfl := Option.some.inj hminus
            cases hc
      · rfl
      · rfl
    have hne : digits ≠ [] := by
      rintro rfl
      cases hisDigits
    have hdrop : ((sign ++ digits) ++ rest).drop sign.length = digits ++ rest := by
      rw [List.append_assoc, List.drop_left]
    rw [Literal.exponentText, List.cons_append, parseExponent]
    dsimp only
    rw [hread, hdrop, htake, if_pos ⟨.inl rfl, hne⟩, List.drop_left]

theorem leadingDigits_decimal (n : ℕ) {rest : Text} (h : rest.takeWhile Char.isDigit = []) :
    leadingDigits (decimal n ++ rest) = decimal n := digits_decimal n h

theorem parseNumber_int (negative : Bool) {n : ℕ} (hn : (decimal n).length ≤ maxStrDigits)
    {rest : Text} (h : Follows rest) :
    parseNumber floats negative (decimal n ++ rest) =
      some (.int (if negative then -n else n), rest) := by
  have hends := endsDigits_follows h
  have hne : decimal n ≠ [] := Nat.toDigits_ne_nil
  have hvalue : Nat.ofDigitChars 10 (decimal n) 0 = n := Nat.ofDigitChars_ten_toDigits
  have hfraction : parseFraction rest = ([], rest) :=
    @parseFraction_text [] rest (List.forall_mem_nil _) hends
  unfold parseNumber
  dsimp only
  rw [leadingDigits_decimal n hends.1, List.drop_left, hfraction, parseExponent_follows h,
    if_neg hne, if_pos ⟨rfl, rfl⟩, if_neg (Nat.not_lt.mpr hn), hvalue]

theorem parseNumber_float {l : Literal} (hl : l.WellFormed) {x : F} (hx : floats.read l = some x)
    {rest : Text} (h : Follows rest) :
    parseNumber floats l.negative (l.unsigned ++ rest) = some (.float x, rest) := by
  have hexponent : EndsDigits (Literal.exponentText l.exponent ++ rest) := endsDigits_exponent h
  have hne : decimal l.whole ≠ [] := Nat.toDigits_ne_nil
  have hvalue : Nat.ofDigitChars 10 (decimal l.whole) 0 = l.whole := Nat.ofDigitChars_ten_toDigits
  have hdigits : (Literal.fractionText l.fraction ++
      (Literal.exponentText l.exponent ++ rest)).takeWhile Char.isDigit = [] := by
    unfold Literal.fractionText
    split_ifs
    · exact hexponent.1
    · rfl
  have htext : l.unsigned ++ rest = decimal l.whole ++
      (Literal.fractionText l.fraction ++ (Literal.exponentText l.exponent ++ rest)) := by
    rw [Literal.unsigned, List.append_assoc, List.append_assoc]
  unfold parseNumber
  dsimp only
  rw [htext, leadingDigits_decimal l.whole hdigits, List.drop_left,
    parseFraction_text hl.fraction hexponent, parseExponent_text hl.exponent h, if_neg hne,
    if_neg hl.real, hvalue, hx]
  rfl

end Numbers

section Values

variable {F : Type}

/-- No dictionary has two entries with one key. -/
inductive Distinct : Value F → Prop
  | null : Distinct .null
  | bool (value : Bool) : Distinct (.bool value)
  | int (value : ℤ) : Distinct (.int value)
  | float (value : F) : Distinct (.float value)
  | text (value : Text) : Distinct (.text value)
  | list {items : List (Value F)} (h : ∀ item ∈ items, Distinct item) : Distinct (.list items)
  | tuple {items : List (Value F)} (h : ∀ item ∈ items, Distinct item) : Distinct (.tuple items)
  | dict {entries : List (Text × Value F)} (hkeys : (entries.map Prod.fst).Nodup)
    (h : ∀ entry ∈ entries, Distinct entry.2) : Distinct (.dict entries)
  | date (value : Date) : Distinct (.date value)
  | datetime (value : Datetime) : Distinct (.datetime value)

/-- What `json.loads` gives: no tuple and no date. -/
inductive Plain : Value F → Prop
  | null : Plain .null
  | bool (value : Bool) : Plain (.bool value)
  | int (value : ℤ) : Plain (.int value)
  | float (value : F) : Plain (.float value)
  | text (value : Text) : Plain (.text value)
  | list {items : List (Value F)} (h : ∀ item ∈ items, Plain item) : Plain (.list items)
  | dict {entries : List (Text × Value F)} (hkeys : (entries.map Prod.fst).Nodup)
    (h : ∀ entry ∈ entries, Plain entry.2) : Plain (.dict entries)

mutual

/-- The integers in a value. -/
def ints : Value F → List ℤ
  | .int value => [value]
  | .list items | .tuple items => intsItems items
  | .dict entries => intsEntries entries
  | _ => []
termination_by structural value => value

def intsItems : List (Value F) → List ℤ
  | [] => []
  | item :: items => ints item ++ intsItems items
termination_by structural items => items

def intsEntries : List (Text × Value F) → List ℤ
  | [] => []
  | entry :: entries => intsEntry entry ++ intsEntries entries
termination_by structural entries => entries

def intsEntry : Text × Value F → List ℤ
  | (_, item) => ints item
termination_by structural entry => entry

end

/-- The integer has few enough digits to be written. -/
def Short (n : ℤ) : Prop := (decimal n.natAbs).length ≤ maxStrDigits

theorem mem_intsItems {n : ℤ} {items : List (Value F)} :
    n ∈ intsItems items ↔ ∃ item ∈ items, n ∈ ints item := by
  induction items with
  | nil => simp [intsItems]
  | cons item items ih => simp [intsItems, ih]

theorem mem_intsEntries {n : ℤ} {entries : List (Text × Value F)} :
    n ∈ intsEntries entries ↔ ∃ entry ∈ entries, n ∈ ints entry.2 := by
  induction entries with
  | nil => simp [intsEntries]
  | cons entry entries ih =>
    obtain ⟨key, item⟩ := entry
    simp [intsEntries, intsEntry, ih]

variable {floats : Floats F}

/-- The text of a value that can be written. -/
def written (floats : Floats F) (value : Value F) : Text :=
  (dumps floats value).toOption.getD []

theorem written_eq {value : Value F} (h : Succeeds (dumps floats value)) :
    dumps floats value = .ok (written floats value) := by
  obtain ⟨t, ht⟩ := h
  rw [written, ht]
  rfl

theorem dumpsItems_eq_mapM (items : List (Value F)) :
    dumpsItems floats items = items.mapM (dumps floats) := by
  induction items with
  | nil => rfl
  | cons item items ih =>
    rw [dumpsItems, ih, List.mapM_cons]
    rfl

theorem dumpsEntries_eq_mapM (entries : List (Text × Value F)) :
    dumpsEntries floats entries = entries.mapM (dumpsEntry floats) := by
  induction entries with
  | nil => rfl
  | cons entry entries ih =>
    rw [dumpsEntries, ih, List.mapM_cons]
    rfl

theorem dumpsEntry_succeeds_iff {entry : Text × Value F} :
    Succeeds (dumpsEntry floats entry) ↔ Succeeds (dumps floats entry.2) := by
  obtain ⟨key, item⟩ := entry
  exact succeeds_bind_ok

theorem intRepr_succeeds_iff {n : ℤ} : Succeeds (intRepr n) ↔ Short n := by
  unfold intRepr Short
  by_cases hlong : maxStrDigits < (decimal n.natAbs).length
  · rw [if_pos hlong]
    exact iff_of_false (not_succeeds_error _) (Nat.not_le.mpr hlong)
  · rw [if_neg hlong]
    exact iff_of_true ⟨_, rfl⟩ (Nat.not_lt.mp hlong)

/-- What has no dates is written, unless one of its integers is too long. -/
theorem dumps_succeeds_iff (floats : Floats F) {value : Value F} (h : Plain value) :
    Succeeds (dumps floats value) ↔ ∀ n ∈ ints value, Short n := by
  induction h with
  | int value => simp [dumps, ints, intRepr_succeeds_iff]
  | @list items _ ih =>
    rw [dumps, succeeds_bind_ok, dumpsItems_eq_mapM, succeeds_mapM_iff]
    simp only [ints, mem_intsItems]
    constructor
    · rintro hall n ⟨item, hitem, hn⟩
      exact (ih item hitem).mp (hall item hitem) n hn
    · intro hall item hitem
      exact (ih item hitem).mpr fun n hn ↦ hall n ⟨item, hitem, hn⟩
  | @dict entries _ _ ih =>
    rw [dumps, succeeds_bind_ok, dumpsEntries_eq_mapM, succeeds_mapM_iff]
    simp only [ints, mem_intsEntries, dumpsEntry_succeeds_iff]
    constructor
    · rintro hall n ⟨entry, hentry, hn⟩
      exact (ih entry hentry).mp (hall entry hentry) n hn
    · intro hall entry hentry
      exact (ih entry hentry).mpr fun n hn ↦ hall n ⟨entry, hentry, hn⟩
  | null => exact iff_of_true ⟨_, rfl⟩ (List.forall_mem_nil _)
  | bool value => exact iff_of_true ⟨_, rfl⟩ (List.forall_mem_nil _)
  | float value => exact iff_of_true ⟨_, rfl⟩ (List.forall_mem_nil _)
  | text value => exact iff_of_true ⟨_, rfl⟩ (List.forall_mem_nil _)

theorem dumpsEntry_eq {entry : Text × Value F} (h : Succeeds (dumps floats entry.2)) :
    dumpsEntry floats entry = .ok (printMember (written floats) entry) := by
  obtain ⟨key, item⟩ := entry
  rw [dumpsEntry, written_eq h]
  rfl

theorem written_of_eq {value : Value F} {t : Text} (h : dumps floats value = .ok t) :
    written floats value = t := by
  rw [written, h]
  rfl

theorem written_list {items : List (Value F)} (h : ∀ item ∈ items, Succeeds (dumps floats item)) :
    written floats (.list items) =
      '[' :: ([',', ' '].intercalate (items.map (written floats)) ++ [']']) := by
  apply written_of_eq
  rw [dumps, dumpsItems_eq_mapM, mapM_ok fun item hitem ↦ written_eq (h item hitem)]
  rfl

theorem written_dict {entries : List (Text × Value F)}
    (h : ∀ e ∈ entries, Succeeds (dumps floats e.2)) :
    written floats (.dict entries) = '\x7b' ::
      ([',', ' '].intercalate (entries.map (printMember (written floats))) ++ ['\x7d']) := by
  apply written_of_eq
  rw [dumps, dumpsEntries_eq_mapM, mapM_ok fun e he ↦ dumpsEntry_eq (h e he)]
  rfl

theorem written_int {n : ℤ} (h : Short n) : written floats (.int n) =
    if n < 0 then '-' :: decimal n.natAbs else decimal n.natAbs := by
  apply written_of_eq
  exact if_neg (Nat.not_lt.mpr h)

theorem starts_written {value : Value F} (h : Plain value) (hs : Succeeds (dumps floats value)) :
    Starts (written floats value) := by
  cases h with
  | null => exact ⟨'n', _, rfl, rfl, by decide, by decide⟩
  | bool value =>
    cases value with
    | true => exact ⟨'t', _, rfl, rfl, by decide, by decide⟩
    | false => exact ⟨'f', _, rfl, rfl, by decide, by decide⟩
  | int value =>
    rw [written_int (intRepr_succeeds_iff.mp hs)]
    split_ifs
    · exact ⟨'-', _, rfl, rfl, by decide, by decide⟩
    · exact (starts_decimal _).1
  | float value =>
    change Starts (floats.repr value).text
    unfold Literal.text
    split_ifs
    · exact ⟨'-', _, rfl, rfl, by decide, by decide⟩
    · exact (starts_decimal _).1.append _
  | text value => exact ⟨'"', _, rfl, rfl, by decide, by decide⟩
  | list h =>
    rw [dumps, succeeds_bind_ok, dumpsItems_eq_mapM, succeeds_mapM_iff] at hs
    rw [written_list hs]
    exact ⟨'[', _, rfl, rfl, by decide, by decide⟩
  | dict hkeys h =>
    rw [dumps, succeeds_bind_ok, dumpsEntries_eq_mapM, succeeds_mapM_iff] at hs
    rw [written_dict fun e he ↦ dumpsEntry_succeeds_iff.mp (hs e he)]
    exact ⟨'\x7b', _, rfl, rfl, by decide, by decide⟩

theorem parseValue_digit {c : Char} (h : c.isDigit) (n : ℕ) (t : Text) :
    parseValue floats (n + 1) (c :: t) = parseNumber floats false (c :: t) := by
  rw [parseValue.eq_def]
  dsimp only
  split
  all_goals try
    rename_i heq
    obtain ⟨rfl, -⟩ := List.cons.inj heq
    cases h
  rfl

/-- A number without a sign is read as such. -/
theorem parseValue_decimal (m n : ℕ) (t : Text) :
    parseValue floats (n + 1) (decimal m ++ t) = parseNumber floats false (decimal m ++ t) := by
  obtain ⟨-, c, u, hd, hc⟩ := starts_decimal m
  rw [hd]
  exact parseValue_digit hc n (u ++ t)

theorem parseValue_int {value : ℤ} {rest : Text} (hshort : Short value) (hrest : Follows rest)
    (n : ℕ) : parseValue floats (n + 1) (written floats (.int value) ++ rest) =
      some (.int value, rest) := by
  rw [written_int hshort]
  split_ifs with hneg
  · have hsign : parseValue floats (n + 1) ('-' :: decimal value.natAbs ++ rest) =
        parseNumber floats true (decimal value.natAbs ++ rest) := rfl
    have habs : -(value.natAbs : ℤ) = value := by omega
    rw [hsign, parseNumber_int true hshort hrest, if_pos rfl, habs]
  · have hpos : (value.natAbs : ℤ) = value := by omega
    rw [parseValue_decimal, parseNumber_int false hshort hrest, if_neg Bool.false_ne_true, hpos]

theorem parseValue_float (value : F) {rest : Text} (hrest : Follows rest) (n : ℕ) :
    parseValue floats (n + 1) (written floats (.float value) ++ rest) =
      some (.float value, rest) := by
  have hread := parseNumber_float (floats.repr_wellFormed value) (floats.read_repr value) hrest
  change parseValue floats (n + 1) ((floats.repr value).text ++ rest) = _
  unfold Literal.text
  cases hneg : (floats.repr value).negative with
  | true =>
    rw [hneg] at hread
    exact hread
  | false =>
    rw [hneg] at hread
    rw [if_neg Bool.false_ne_true]
    rw [Literal.unsigned, List.append_assoc] at hread ⊢
    rw [parseValue_decimal, hread]

/-- What has been written is read back as it was. -/
theorem parseValue_written {value : Value F} (h : Plain value) :
    ∀ {n : ℕ} {rest : Text}, Succeeds (dumps floats value) → Follows rest →
      (written floats value).length ≤ n →
        parseValue floats n (written floats value ++ rest) = some (value, rest) := by
  have hfuel {v : Value F} {n : ℕ} (hv : Plain v) (hs : Succeeds (dumps floats v))
      (hn : (written floats v).length ≤ n) : ∃ m, n = m + 1 := by
    obtain ⟨c, u, hc, -⟩ := starts_written hv hs
    rw [hc, List.length_cons] at hn
    exact ⟨n - 1, by omega⟩
  induction h with
  | null =>
    intro n rest hs hrest hn
    obtain ⟨n, rfl⟩ := hfuel .null hs hn
    rfl
  | bool value =>
    intro n rest hs hrest hn
    obtain ⟨n, rfl⟩ := hfuel (.bool value) hs hn
    cases value with
    | true => rfl
    | false => rfl
  | int value =>
    intro n rest hs hrest hn
    obtain ⟨n, rfl⟩ := hfuel (.int value) hs hn
    exact parseValue_int (intRepr_succeeds_iff.mp hs) hrest n
  | float value =>
    intro n rest hs hrest hn
    obtain ⟨n, rfl⟩ := hfuel (.float value) hs hn
    exact parseValue_float value hrest n
  | text value =>
    intro n rest hs hrest hn
    obtain ⟨n, rfl⟩ := hfuel (.text value) hs hn
    have htext : written floats (.text value) ++ rest =
        '"' :: (value.flatMap escape ++ '"' :: rest) := by
      simp [written, dumps, quote, Except.toOption]
    have hread := parseString_rest value rest
    rw [htext, parseValue, hread]
    rfl
  | @list items hplain ih =>
    intro n rest hs hrest hn
    obtain ⟨n, rfl⟩ := hfuel (.list hplain) hs hn
    rw [dumps, succeeds_bind_ok, dumpsItems_eq_mapM, succeeds_mapM_iff] at hs
    rw [written_list hs] at hn ⊢
    have hread := parseArray_print (parseValue floats n)
      (fun v hv ↦ starts_written (hplain v hv) (hs v hv))
      (fun v hv u hu ↦ ih v hv (hs v hv) hu (by
        have hle := length_le_intercalate (List.mem_map_of_mem (f := written floats) hv)
        rw [List.length_cons, List.length_append] at hn
        omega)) rest
    rw [List.cons_append, List.append_assoc, List.singleton_append, parseValue, hread]
    rfl
  | @dict entries hkeys hplain ih =>
    intro n rest hs hrest hn
    obtain ⟨n, rfl⟩ := hfuel (.dict hkeys hplain) hs hn
    rw [dumps, succeeds_bind_ok, dumpsEntries_eq_mapM, succeeds_mapM_iff] at hs
    simp only [dumpsEntry_succeeds_iff] at hs
    rw [written_dict hs] at hn ⊢
    have hread := parseObject_print (parseValue floats n) hkeys
      (fun e he ↦ starts_written (hplain e he) (hs e he))
      (fun e he u hu ↦ ih e he (hs e he) hu (by
        have hle := length_le_intercalate
          (List.mem_map_of_mem (f := printMember (written floats)) he)
        have hitem := length_printMember (written floats) e
        rw [List.length_cons, List.length_append] at hn
        omega)) rest
    rw [List.cons_append, List.append_assoc, List.singleton_append, parseValue, hread]
    rfl

theorem loads_of_dumps {value : Value F} (h : Plain value) {t : Text}
    (ht : dumps floats value = .ok t) : loads floats t = some value := by
  have hs : Succeeds (dumps floats value) := ⟨t, ht⟩
  have hend : Follows [] := by
    intro c hc
    cases hc
  have hread := parseValue_written h hs hend (Nat.le_succ (written floats value).length)
  have hskip := (starts_written h hs).skipSpace
  rw [List.append_nil] at hread
  rw [← written_of_eq ht, loads, hskip, hread]
  rfl

end Values

end CronPanel.Library.PythonJson
