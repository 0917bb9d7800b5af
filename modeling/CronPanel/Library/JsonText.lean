import CronPanel.Library.JsonData

namespace CronPanel.Library.JsonText

open Strings JsonData

/-- A character of a string as `json.dumps` writes it with `ensure_ascii=False`. -/
def escape (c : Char) : Text :=
  if c = '"' then ['\\', '"']
  else if c = '\\' then ['\\', '\\']
  else if c = '\n' then ['\\', 'n']
  else if c = '\r' then ['\\', 'r']
  else if c = '\t' then ['\\', 't']
  else if c = '\x0c' then ['\\', 'f']
  else if c = '\x08' then ['\\', 'b']
  else if c.toNat < 32 then
    ['\\', 'u', '0', '0', Nat.digitChar (c.toNat / 16), Nat.digitChar (c.toNat % 16)]
  else [c]

def quote (t : Text) : Text := '"' :: (t.flatMap escape ++ ['"'])

mutual

def dumps : Json → Text
  | .null => "null".toList
  | .bool value => (if value then "true" else "false").toList
  | .number value => if value < 0 then '-' :: decimal value.natAbs else decimal value.natAbs
  | .text value => quote value
  | .list items => '[' :: ([',', ' '].intercalate (dumpsItems items) ++ [']'])
  | .object entries => '\x7b' :: ([',', ' '].intercalate (dumpsEntries entries) ++ ['\x7d'])
termination_by structural value => value

def dumpsItems : List Json → List Text
  | [] => []
  | item :: items => dumps item :: dumpsItems items
termination_by structural items => items

def dumpsEntries : List (Text × Json) → List Text
  | [] => []
  | entry :: entries => dumpsEntry entry :: dumpsEntries entries
termination_by structural entries => entries

def dumpsEntry : Text × Json → Text
  | (key, item) => quote key ++ ':' :: ' ' :: dumps item
termination_by structural entry => entry

end

def isJsonSpace (c : Char) : Bool := c = ' ' || c = '\t' || c = '\n' || c = '\r'

def skipSpace (t : Text) : Text := t.dropWhile isJsonSpace

def hexValue (c : Char) : Option ℕ :=
  if c.isDigit then some (c.toNat - 48)
  else if 97 ≤ c.toNat ∧ c.toNat ≤ 102 then some (c.toNat - 87)
  else if 65 ≤ c.toNat ∧ c.toNat ≤ 70 then some (c.toNat - 55)
  else none

def hexCode : Text → Option (ℕ × Text)
  | a :: b :: c :: d :: t => do
    let a ← hexValue a
    let b ← hexValue b
    let c ← hexValue c
    let d ← hexValue d
    some (((a * 16 + b) * 16 + c) * 16 + d, t)
  | _ => none

/-- The second half of a surrogate pair; a half alone is no character. -/
def parseLowSurrogate (high : ℕ) : Text → Option (Char × Text)
  | '\\' :: 'u' :: t => do
    let (low, t) ← hexCode t
    if 56320 ≤ low ∧ low ≤ 57343 then
      some (Char.ofNat (65536 + (high - 55296) * 1024 + (low - 56320)), t)
    else none
  | _ => none

/-- An escape sequence behind its backslash. -/
def parseEscape : Text → Option (Char × Text)
  | 'u' :: t => do
    let (n, t) ← hexCode t
    if 55296 ≤ n ∧ n ≤ 56319 then parseLowSurrogate n t
    else if 56320 ≤ n ∧ n ≤ 57343 then none
    else some (Char.ofNat n, t)
  | '"' :: t => some ('"', t)
  | '\\' :: t => some ('\\', t)
  | '/' :: t => some ('/', t)
  | 'n' :: t => some ('\n', t)
  | 'r' :: t => some ('\r', t)
  | 't' :: t => some ('\t', t)
  | 'f' :: t => some ('\x0c', t)
  | 'b' :: t => some ('\x08', t)
  | _ => none

/-- A string behind its first quote. -/
def parseString : ℕ → Text → Option (Text × Text)
  | 0, _ => none
  | _ + 1, [] => none
  | n + 1, c :: t =>
    if c = '"' then some ([], t)
    else if c = '\\' then do
      let (d, t) ← parseEscape t
      let (s, t) ← parseString n t
      some (d :: s, t)
    else if c.toNat < 32 then none
    else do
      let (s, t) ← parseString n t
      some (c :: s, t)

/-- An integer without its sign; the numbers with a fraction or an exponent are left out. -/
def parseNatural (t : Text) : Option (ℕ × Text) :=
  let digits := if t.head? = some '0' then ['0'] else t.takeWhile Char.isDigit
  let rest := t.drop digits.length
  if digits = [] ∨ rest.head?.any (fun c ↦ c = '.' || c = 'e' || c = 'E') then none
  else some (Nat.ofDigitChars 10 digits 0, rest)

/-- The items of a list or an object, up to the bracket that closes it. -/
def parseItems {α : Type} (item : Text → Option (α × Text)) (close : Char) :
    ℕ → Text → Option (List α × Text)
  | 0, _ => none
  | n + 1, t => do
    let (a, t) ← item t
    match skipSpace t with
    | [] => none
    | c :: t =>
      if c = close then some ([a], t)
      else if c = ',' then do
        let (as, t) ← parseItems item close n (skipSpace t)
        some (a :: as, t)
      else none

def parseEntry (value : Text → Option (Json × Text)) : Text → Option ((Text × Json) × Text)
  | '"' :: t => do
    let (key, t) ← parseString (t.length + 1) t
    match skipSpace t with
    | ':' :: t => do
      let (item, t) ← value (skipSpace t)
      some ((key, item), t)
    | _ => none
  | _ => none

def setEntry (key : Text) (item : Json) : List (Text × Json) → List (Text × Json)
  | [] => [(key, item)]
  | entry :: entries =>
    if entry.1 = key then (key, item) :: entries else entry :: setEntry key item entries

/-- `dict(pairs)`. -/
def dictOf (entries : List (Text × Json)) : List (Text × Json) :=
  entries.foldl (fun entries entry ↦ setEntry entry.1 entry.2 entries) []

def parseValue : ℕ → Text → Option (Json × Text)
  | 0, _ => none
  | n + 1, t =>
    match t with
    | '"' :: t => (parseString (t.length + 1) t).map fun r ↦ (.text r.1, r.2)
    | '[' :: t =>
      match skipSpace t with
      | ']' :: t => some (.list [], t)
      | t => (parseItems (parseValue n) ']' (t.length + 1) t).map fun r ↦ (.list r.1, r.2)
    | '\x7b' :: t =>
      match skipSpace t with
      | '\x7d' :: t => some (.object [], t)
      | t => (parseItems (parseEntry (parseValue n)) '\x7d' (t.length + 1) t).map fun r ↦
        (.object (dictOf r.1), r.2)
    | 'n' :: 'u' :: 'l' :: 'l' :: t => some (.null, t)
    | 't' :: 'r' :: 'u' :: 'e' :: t => some (.bool true, t)
    | 'f' :: 'a' :: 'l' :: 's' :: 'e' :: t => some (.bool false, t)
    | '-' :: t => (parseNatural t).map fun r ↦ (.number (-r.1), r.2)
    | t => (parseNatural t).map fun r ↦ (.number r.1, r.2)

/-- `json.loads`; `none` is a `ValueError`. -/
def loads (t : Text) : Option Json := do
  let (value, rest) ← parseValue (t.length + 1) (skipSpace t)
  if skipSpace rest = [] then some value else none

theorem hexValue_digitChar : ∀ d < 16, hexValue (Nat.digitChar d) = some d := by decide

theorem parseString_escape (c : Char) (n : ℕ) (t : Text) :
    parseString (n + 1) (escape c ++ t) = (parseString n t).map fun r ↦ (c :: r.1, r.2) := by
  have hbind (d : Char) : (do
      let (s, u) ← parseString n t
      some (d :: s, u)) = (parseString n t).map fun r ↦ (d :: r.1, r.2) := by
    cases parseString n t <;> rfl
  unfold escape
  split_ifs with hquote hback hn hr ht hf hb hcontrol
  all_goals try subst c
  all_goals try exact hbind _
  · have hhigh := hexValue_digitChar (c.toNat / 16) (by omega)
    have hlow := hexValue_digitChar (c.toNat % 16) (by omega)
    have hzero : hexValue '0' = some 0 := rfl
    have hcode : hexCode ('0' :: '0' :: Nat.digitChar (c.toNat / 16) ::
        Nat.digitChar (c.toNat % 16) :: t) = some (c.toNat, t) := by
      simp only [hexCode, hzero, hhigh, hlow, Option.bind_eq_bind, Option.bind_some]
      congr 2
      omega
    have hescape : parseEscape ('u' :: '0' :: '0' :: Nat.digitChar (c.toNat / 16) ::
        Nat.digitChar (c.toNat % 16) :: t) = some (c, t) := by
      simp only [parseEscape, hcode, Option.bind_eq_bind, Option.bind_some]
      rw [if_neg (by omega), if_neg (by omega), Char.ofNat_toNat]
    rw [← hbind]
    simp only [List.cons_append, List.nil_append, parseString, hescape]
    rfl
  · rw [← hbind]
    simp only [List.cons_append, List.nil_append, parseString, if_neg hquote, if_neg hback,
      if_neg hcontrol]

theorem parseString_quoted (t rest : Text) {n : ℕ} (h : t.length < n) :
    parseString n (t.flatMap escape ++ '"' :: rest) = some (t, rest) := by
  induction t generalizing n with
  | nil =>
    obtain ⟨n, rfl⟩ := Nat.exists_eq_succ_of_ne_zero (Nat.ne_zero_of_lt h)
    rfl
  | cons c t ih =>
    obtain ⟨n, rfl⟩ := Nat.exists_eq_succ_of_ne_zero (Nat.ne_zero_of_lt h)
    have hrest := ih (Nat.lt_of_succ_lt_succ h)
    rw [List.flatMap_cons, List.append_assoc, Nat.succ_eq_add_one, parseString_escape, hrest]
    rfl

theorem length_flatMap_escape (t : Text) : t.length ≤ (t.flatMap escape).length := by
  induction t with
  | nil => exact Nat.le_refl 0
  | cons c t ih =>
    have hc : 1 ≤ (escape c).length := by
      unfold escape
      split_ifs <;> simp
    rw [List.flatMap_cons, List.length_append, List.length_cons]
    omega

/-- A text is read up to the quote that ends it, with fuel for all that is left. -/
theorem parseString_rest (t rest : Text) :
    parseString ((t.flatMap escape ++ '"' :: rest).length + 1) (t.flatMap escape ++ '"' :: rest) =
      some (t, rest) := by
  have hlength := length_flatMap_escape t
  refine parseString_quoted t rest ?_
  rw [List.length_append]
  omega

/-- What may follow a value inside a text: a comma, or the bracket that closes what it is in. -/
def Follows (rest : Text) : Prop := ∀ c, rest.head? = some c → c = ',' ∨ c = ']' ∨ c = '\x7d'

theorem Follows.isDigit {rest : Text} (h : Follows rest) :
    rest.takeWhile Char.isDigit = [] ∧
      rest.head?.any (fun c ↦ c = '.' || c = 'e' || c = 'E') = false := by
  cases rest with
  | nil => exact ⟨rfl, rfl⟩
  | cons c rest =>
    rcases h c rfl with rfl | rfl | rfl
    · exact ⟨rfl, rfl⟩
    · exact ⟨rfl, rfl⟩
    · exact ⟨rfl, rfl⟩

theorem head_decimal (n : ℕ) : (decimal n).head? = some '0' → n = 0 := by
  induction n using Nat.strongRecOn with
  | ind n ih =>
    intro h
    by_cases hn : n < 10
    · rw [decimal, Nat.toDigits_of_lt_base hn] at h
      exact Nat.digitChar_eq_zero.mp (Option.some.inj h)
    · have hle : 10 ≤ n := Nat.le_of_not_lt hn
      rw [decimal, Nat.toDigits_of_base_le (by omega) hle, List.head?_append] at h
      have hhead : (Nat.toDigits 10 (n / 10)).head? = some '0' := by
        cases hd : Nat.toDigits 10 (n / 10) with
        | nil => exact absurd hd Nat.toDigits_ne_nil
        | cons c cs =>
          rw [hd] at h
          exact h
      have hzero := ih (n / 10) (by omega) hhead
      omega

/-- The digits of an integer end where what follows has none. -/
theorem digits_decimal (n : ℕ) {rest : Text} (h : rest.takeWhile Char.isDigit = []) :
    (if (decimal n ++ rest).head? = some '0' then ['0']
      else (decimal n ++ rest).takeWhile Char.isDigit) = decimal n := by
  have hdigits : ∀ c ∈ decimal n, c.isDigit := fun c hc ↦ isDigit_of_mem (isDigits_decimal n) hc
  split_ifs with hzero
  · have hhead : (decimal n).head? = some '0' := by
      cases hd : decimal n with
      | nil => exact absurd hd Nat.toDigits_ne_nil
      | cons c cs =>
        rw [hd] at hzero
        exact hzero
    rw [head_decimal n hhead]
    rfl
  · rw [List.takeWhile_append_of_pos hdigits, h, List.append_nil]

theorem parseNatural_decimal (n : ℕ) {rest : Text} (h : Follows rest) :
    parseNatural (decimal n ++ rest) = some (n, rest) := by
  obtain ⟨hstop, hnumber⟩ := h.isDigit
  have hne : decimal n ≠ [] := Nat.toDigits_ne_nil
  have hvalue : Nat.ofDigitChars 10 (decimal n) 0 = n := Nat.ofDigitChars_ten_toDigits
  unfold parseNatural
  dsimp only
  rw [digits_decimal n hstop, List.drop_left, hnumber, if_neg (by simp [hne]), hvalue]

theorem skipSpace_cons {c : Char} (h : isJsonSpace c = false) (t : Text) :
    skipSpace (c :: t) = c :: t := List.dropWhile_cons_of_neg (by simp [h])

theorem Follows.skipSpace {rest : Text} (h : Follows rest) : skipSpace rest = rest := by
  cases rest with
  | nil => rfl
  | cons c rest =>
    rcases h c rfl with rfl | rfl | rfl
    · rfl
    · rfl
    · rfl

/-- What a value is written as starts with no blank, and not with the bracket of an empty list. -/
def Starts (t : Text) : Prop :=
  ∃ c u, t = c :: u ∧ isJsonSpace c = false ∧ c ≠ ']' ∧ c ≠ '\x7d'

theorem Starts.append {t : Text} (h : Starts t) (u : Text) : Starts (t ++ u) := by
  obtain ⟨c, v, rfl, hc⟩ := h
  exact ⟨c, v ++ u, rfl, hc⟩

theorem Starts.skipSpace {t : Text} (h : Starts t) : skipSpace t = t := by
  obtain ⟨c, v, rfl, hc, -⟩ := h
  exact skipSpace_cons hc v

theorem starts_intercalate {t : Text} (h : Starts t) (ts : List Text) :
    Starts ([',', ' '].intercalate (t :: ts)) := by
  cases ts with
  | nil =>
    rw [List.intercalate_singleton]
    exact h
  | cons u ts =>
    rw [List.intercalate_cons_cons, List.append_assoc]
    exact h.append _

theorem parseItems_intercalate {α : Type} {item : Text → Option (α × Text)} {print : α → Text}
    {close : Char} (hclose : close = ']' ∨ close = '\x7d') (rest : Text) {as : List α}
    (hne : as ≠ []) (hstarts : ∀ a ∈ as, Starts (print a))
    (h : ∀ a ∈ as, ∀ u, Follows u → item (print a ++ u) = some (a, u)) {n : ℕ}
    (hn : as.length ≤ n) :
    parseItems item close n ([',', ' '].intercalate (as.map print) ++ close :: rest) =
      some (as, rest) := by
  have hfollows : Follows (close :: rest) := by
    intro c hc
    obtain rfl := Option.some.inj hc
    exact .inr hclose
  have hcomma : ',' ≠ close := by
    rcases hclose with rfl | rfl
    · decide
    · decide
  induction as generalizing n with
  | nil => exact absurd rfl hne
  | cons a as ih =>
    obtain ⟨n, rfl⟩ : ∃ m, n = m + 1 := ⟨n - 1, by rw [List.length_cons] at hn; omega⟩
    cases as with
    | nil =>
      have ha := h a List.mem_cons_self _ hfollows
      rw [List.map_singleton, List.intercalate_singleton, parseItems, ha]
      simp only [Option.bind_eq_bind, Option.bind_some, hfollows.skipSpace, if_true]
    | cons b bs =>
      let others := [',', ' '].intercalate ((b :: bs).map print) ++ close :: rest
      have hothers : skipSpace others = others := by
        have hb := hstarts b (List.mem_cons_of_mem a List.mem_cons_self)
        exact ((starts_intercalate hb _).append _).skipSpace
      have hrest : parseItems item close n others = some (b :: bs, rest) :=
        ih (List.cons_ne_nil b bs) (fun c hc ↦ hstarts c (List.mem_cons_of_mem a hc))
          (fun c hc ↦ h c (List.mem_cons_of_mem a hc)) (Nat.le_of_succ_le_succ hn)
      have hsplit : [',', ' '].intercalate ((a :: b :: bs).map print) ++ close :: rest =
          print a ++ ',' :: ' ' :: others := by
        rw [List.map_cons, List.map_cons, List.intercalate_cons_cons, List.append_assoc,
          List.append_assoc]
        rfl
      have hseparator : Follows (',' :: ' ' :: others) := by
        intro c hc
        exact .inl (Option.some.inj hc).symm
      have hblank : skipSpace (' ' :: others) = skipSpace others := rfl
      rw [hsplit, parseItems, h a List.mem_cons_self _ hseparator]
      simp only [Option.bind_eq_bind, Option.bind_some, hseparator.skipSpace, if_neg hcomma,
        if_true, hblank, hothers, hrest]

theorem length_le_intercalate {t : Text} {ts : List Text} (h : t ∈ ts) :
    t.length ≤ ([',', ' '].intercalate ts).length := by
  induction ts with
  | nil => cases h
  | cons u ts ih =>
    cases ts with
    | nil =>
      obtain rfl := List.mem_singleton.mp h
      rw [List.intercalate_singleton]
    | cons v ts =>
      rw [List.intercalate_cons_cons, List.length_append, List.length_append]
      rcases List.mem_cons.mp h with rfl | h
      · omega
      · have hrest := ih h
        omega

theorem length_items_le {α : Type} {print : α → Text} {as : List α}
    (h : ∀ a ∈ as, Starts (print a)) :
    as.length ≤ ([',', ' '].intercalate (as.map print)).length := by
  induction as with
  | nil => exact Nat.le_refl 0
  | cons a as ih =>
    have hrest := ih fun b hb ↦ h b (List.mem_cons_of_mem a hb)
    obtain ⟨c, u, ha, -⟩ := h a List.mem_cons_self
    cases as with
    | nil => simp [ha]
    | cons b bs =>
      rw [List.map_cons, List.map_cons, List.intercalate_cons_cons, ha]
      simp only [List.length_append, List.length_cons] at hrest ⊢
      rw [List.map_cons] at hrest
      omega

section Members

variable {α : Type}

/-- A list behind its bracket. -/
def parseArray (value : Text → Option (α × Text)) (t : Text) : Option (List α × Text) :=
  match skipSpace t with
  | ']' :: t => some ([], t)
  | t => parseItems value ']' (t.length + 1) t

/-- A key with what it stands for. -/
def parseMember (value : Text → Option (α × Text)) : Text → Option ((Text × α) × Text)
  | '"' :: t => do
    let (key, t) ← parseString (t.length + 1) t
    match skipSpace t with
    | ':' :: t => do
      let (item, t) ← value (skipSpace t)
      some ((key, item), t)
    | _ => none
  | _ => none

def setMember (key : Text) (item : α) : List (Text × α) → List (Text × α)
  | [] => [(key, item)]
  | member :: members =>
    if member.1 = key then (key, item) :: members else member :: setMember key item members

/-- The dictionary of some pairs, where a later one replaces an earlier one of its key. -/
def ofMembers (members : List (Text × α)) : List (Text × α) :=
  members.foldl (fun members member ↦ setMember member.1 member.2 members) []

/-- A dictionary behind its brace. -/
def parseObject (value : Text → Option (α × Text)) (t : Text) : Option (List (Text × α) × Text) :=
  match skipSpace t with
  | '\x7d' :: t => some ([], t)
  | t => (parseItems (parseMember value) '\x7d' (t.length + 1) t).map fun r ↦ (ofMembers r.1, r.2)

def printMember (print : α → Text) (member : Text × α) : Text :=
  quote member.1 ++ ':' :: ' ' :: print member.2

variable {value : Text → Option (α × Text)} {print : α → Text}

theorem starts_printMember (member : Text × α) : Starts (printMember print member) :=
  ⟨'"', _, rfl, rfl, by decide, by decide⟩

theorem parseArray_print (value : Text → Option (α × Text)) {as : List α}
    (hstarts : ∀ a ∈ as, Starts (print a))
    (h : ∀ a ∈ as, ∀ u, Follows u → value (print a ++ u) = some (a, u)) (rest : Text) :
    parseArray value ([',', ' '].intercalate (as.map print) ++ ']' :: rest) = some (as, rest) := by
  cases as with
  | nil => rfl
  | cons a as =>
    have hlength := length_items_le hstarts
    have hbegin := (starts_intercalate (hstarts a List.mem_cons_self) (as.map print)).append
      (']' :: rest)
    have hread := parseItems_intercalate (.inl rfl) rest (List.cons_ne_nil a as) hstarts h
      (n := ([',', ' '].intercalate ((a :: as).map print) ++ ']' :: rest).length + 1)
      (by rw [List.length_append]; omega)
    rw [List.map_cons] at hread ⊢
    rw [parseArray, hbegin.skipSpace]
    split
    · rename_i heq
      obtain ⟨c, u, hc, -, hne, -⟩ := hbegin
      rw [hc] at heq
      exact absurd (List.cons.inj heq).1 hne
    · exact hread

theorem setMember_fresh {key : Text} {members : List (Text × α)} (h : key ∉ members.map Prod.fst)
    (item : α) : setMember key item members = members ++ [(key, item)] := by
  induction members with
  | nil => rfl
  | cons member members ih =>
    rw [List.map_cons, List.mem_cons, not_or] at h
    rw [setMember, if_neg (Ne.symm h.1), ih h.2]
    rfl

theorem foldl_setMember {rest : List (Text × α)} : ∀ done : List (Text × α),
    ((done ++ rest).map Prod.fst).Nodup →
      rest.foldl (fun members member ↦ setMember member.1 member.2 members) done =
        done ++ rest := by
  induction rest with
  | nil =>
    intro done _
    exact (List.append_nil done).symm
  | cons member rest ih =>
    intro done hnodup
    have hfresh : member.1 ∉ done.map Prod.fst := by
      rw [List.map_append, List.map_cons] at hnodup
      intro hmem
      exact (List.nodup_append.mp hnodup).2.2 _ hmem _ List.mem_cons_self rfl
    have hsplit : done ++ member :: rest = (done ++ [member]) ++ rest := by
      rw [List.append_assoc]
      rfl
    rw [hsplit] at hnodup ⊢
    rw [List.foldl_cons, setMember_fresh hfresh]
    exact ih _ hnodup

theorem ofMembers_distinct {members : List (Text × α)} (h : (members.map Prod.fst).Nodup) :
    ofMembers members = members := foldl_setMember [] h

theorem parseMember_print {member : Text × α} (hstarts : Starts (print member.2)) {rest : Text}
    (h : value (print member.2 ++ rest) = some (member.2, rest)) :
    parseMember value (printMember print member ++ rest) = some (member, rest) := by
  obtain ⟨key, item⟩ := member
  have htext : printMember print (key, item) ++ rest =
      '"' :: (key.flatMap escape ++ '"' :: ':' :: ' ' :: (print item ++ rest)) := by
    simp [printMember, quote]
  have hkey := parseString_rest key (':' :: ' ' :: (print item ++ rest))
  have hitem : skipSpace (' ' :: (print item ++ rest)) = print item ++ rest :=
    (hstarts.append rest).skipSpace
  have hcolon : skipSpace (':' :: ' ' :: (print item ++ rest)) =
      ':' :: ' ' :: (print item ++ rest) := rfl
  rw [htext, parseMember, hkey]
  simp only [Option.bind_eq_bind, Option.bind_some, hcolon, hitem, h]

theorem parseObject_print (value : Text → Option (α × Text)) {members : List (Text × α)}
    (hkeys : (members.map Prod.fst).Nodup) (hstarts : ∀ m ∈ members, Starts (print m.2))
    (h : ∀ m ∈ members, ∀ u, Follows u → value (print m.2 ++ u) = some (m.2, u)) (rest : Text) :
    parseObject value
      ([',', ' '].intercalate (members.map (printMember print)) ++ '\x7d' :: rest) =
        some (members, rest) := by
  cases members with
  | nil => rfl
  | cons member members =>
    have hbegins : ∀ m ∈ member :: members, Starts (printMember print m) :=
      fun m _ ↦ starts_printMember m
    have hlength := length_items_le hbegins
    have hbegin := (starts_intercalate (hbegins member List.mem_cons_self)
      (members.map (printMember print))).append ('\x7d' :: rest)
    have hread := parseItems_intercalate (.inr rfl) rest (List.cons_ne_nil member members) hbegins
      (fun m hm u hu ↦ parseMember_print (hstarts m hm) (h m hm u hu))
      (n := ([',', ' '].intercalate ((member :: members).map (printMember print)) ++
        '\x7d' :: rest).length + 1)
      (by rw [List.length_append]; omega)
    rw [List.map_cons] at hread ⊢
    rw [parseObject, hbegin.skipSpace]
    split
    · rename_i heq
      obtain ⟨c, u, hc, -, -, hne⟩ := hbegin
      rw [hc] at heq
      exact absurd (List.cons.inj heq).1 hne
    · rw [hread, Option.map_some, ofMembers_distinct hkeys]

theorem length_printMember (print : α → Text) (member : Text × α) :
    (print member.2).length ≤ (printMember print member).length := by
  simp only [printMember, List.length_append, List.length_cons]
  omega

end Members

section Entries

theorem setEntry_eq (key : Text) (item : Json) (entries : List (Text × Json)) :
    setEntry key item entries = setMember key item entries := by
  induction entries with
  | nil => rfl
  | cons entry entries ih => rw [setEntry, setMember, ih]

theorem dictOf_eq (entries : List (Text × Json)) : dictOf entries = ofMembers entries := by
  unfold dictOf ofMembers
  simp only [setEntry_eq]

theorem parseEntry_eq (value : Text → Option (Json × Text)) :
    parseEntry value = parseMember value := rfl

theorem dumpsEntry_eq (entry : Text × Json) : dumpsEntry entry = printMember dumps entry := by
  obtain ⟨key, item⟩ := entry
  rfl

theorem parseValue_bracket (n : ℕ) (t : Text) :
    parseValue (n + 1) ('[' :: t) =
      (parseArray (parseValue n) t).map fun r ↦ (.list r.1, r.2) := by
  rw [parseValue, parseArray]
  split
  · rfl
  · rfl

theorem parseValue_brace (n : ℕ) (t : Text) :
    parseValue (n + 1) ('\x7b' :: t) =
      (parseObject (parseValue n) t).map fun r ↦ (.object r.1, r.2) := by
  rw [parseValue, parseObject]
  split
  · rfl
  · rw [Option.map_map, parseEntry_eq]
    simp only [dictOf_eq]
    rfl

end Entries

/-- No object has two entries with one key. -/
inductive Distinct : Json → Prop
  | null : Distinct .null
  | bool (value : Bool) : Distinct (.bool value)
  | number (value : ℤ) : Distinct (.number value)
  | text (value : Text) : Distinct (.text value)
  | list {items : List Json} (h : ∀ item ∈ items, Distinct item) : Distinct (.list items)
  | object {entries : List (Text × Json)} (hkeys : (entries.map Prod.fst).Nodup)
    (h : ∀ entry ∈ entries, Distinct entry.2) : Distinct (.object entries)

theorem dumpsItems_eq_map (items : List Json) : dumpsItems items = items.map dumps := by
  induction items with
  | nil => rfl
  | cons item items ih =>
    rw [dumpsItems, ih]
    rfl

theorem dumpsEntries_eq_map (entries : List (Text × Json)) :
    dumpsEntries entries = entries.map (printMember dumps) := by
  induction entries with
  | nil => rfl
  | cons entry entries ih =>
    rw [dumpsEntries, ih, dumpsEntry_eq]
    rfl

theorem starts_decimal (n : ℕ) : Starts (decimal n) ∧
    ∃ c u, decimal n = c :: u ∧ c.isDigit := by
  cases hd : decimal n with
  | nil => exact absurd hd Nat.toDigits_ne_nil
  | cons c u =>
    have hc : c.isDigit := isDigit_of_mem (isDigits_decimal n) (hd ▸ List.mem_cons_self)
    refine ⟨⟨c, u, rfl, ?_, ?_, ?_⟩, c, u, rfl, hc⟩
    · cases hs : isJsonSpace c with
      | false => rfl
      | true =>
        simp only [isJsonSpace, Bool.or_eq_true, decide_eq_true_eq] at hs
        rcases hs with ((rfl | rfl) | rfl) | rfl <;> cases hc
    · intro h
      subst h
      cases hc
    · intro h
      subst h
      cases hc

theorem starts_dumps (j : Json) : Starts (dumps j) := by
  cases j with
  | null => exact ⟨'n', _, rfl, rfl, by decide, by decide⟩
  | bool value =>
    cases value with
    | true => exact ⟨'t', _, rfl, rfl, by decide, by decide⟩
    | false => exact ⟨'f', _, rfl, rfl, by decide, by decide⟩
  | number value =>
    unfold dumps
    split_ifs
    · exact ⟨'-', _, rfl, rfl, by decide, by decide⟩
    · exact (starts_decimal _).1
  | text value => exact ⟨'"', _, rfl, rfl, by decide, by decide⟩
  | list items => exact ⟨'[', _, rfl, rfl, by decide, by decide⟩
  | object entries => exact ⟨'\x7b', _, rfl, rfl, by decide, by decide⟩

theorem parseValue_digit {c : Char} (h : c.isDigit) (n : ℕ) (t : Text) :
    parseValue (n + 1) (c :: t) = (parseNatural (c :: t)).map fun r ↦ (.number r.1, r.2) := by
  rw [parseValue.eq_def]
  dsimp only
  split
  all_goals try
    rename_i heq
    obtain ⟨rfl, -⟩ := List.cons.inj heq
    cases h
  rfl

theorem parseValue_number (value : ℤ) {n : ℕ} (hn : 1 ≤ n) {rest : Text} (hrest : Follows rest) :
    parseValue n (dumps (.number value) ++ rest) = some (.number value, rest) := by
  obtain ⟨n, rfl⟩ : ∃ m, n = m + 1 := ⟨n - 1, by omega⟩
  have hread := parseNatural_decimal value.natAbs hrest
  unfold dumps
  split_ifs with hneg
  · have hsign : parseValue (n + 1) ('-' :: decimal value.natAbs ++ rest) =
        (parseNatural (decimal value.natAbs ++ rest)).map fun r ↦ (.number (-r.1), r.2) := rfl
    have habs : -(value.natAbs : ℤ) = value := by omega
    rw [hsign, hread, Option.map_some, habs]
  · obtain ⟨-, c, u, hd, hc⟩ := starts_decimal value.natAbs
    have hpos : (value.natAbs : ℤ) = value := by omega
    rw [hd] at hread ⊢
    rw [List.cons_append] at hread ⊢
    rw [parseValue_digit hc, hread, Option.map_some, hpos]

/-- What `json.dumps` has written is read back as it was. -/
theorem parseValue_dumps {j : Json} (h : Distinct j) :
    ∀ {n : ℕ} {rest : Text}, Follows rest → (dumps j).length ≤ n →
      parseValue n (dumps j ++ rest) = some (j, rest) := by
  induction h with
  | null =>
    intro n rest hrest hn
    obtain ⟨n, rfl⟩ : ∃ m, n = m + 1 := ⟨n - 1, by simp [dumps] at hn; omega⟩
    rfl
  | bool value =>
    intro n rest hrest hn
    cases value with
    | true =>
      obtain ⟨n, rfl⟩ : ∃ m, n = m + 1 := ⟨n - 1, by simp [dumps] at hn; omega⟩
      rfl
    | false =>
      obtain ⟨n, rfl⟩ : ∃ m, n = m + 1 := ⟨n - 1, by simp [dumps] at hn; omega⟩
      rfl
  | number value =>
    intro n rest hrest hn
    obtain ⟨c, u, hd, -⟩ := starts_dumps (.number value)
    refine parseValue_number value ?_ hrest
    rw [hd, List.length_cons] at hn
    omega
  | text value =>
    intro n rest hrest hn
    obtain ⟨n, rfl⟩ : ∃ m, n = m + 1 := ⟨n - 1, by simp [dumps, quote] at hn; omega⟩
    have htext : dumps (.text value) ++ rest = '"' :: (value.flatMap escape ++ '"' :: rest) := by
      simp [dumps, quote]
    have hread := parseString_rest value rest
    rw [htext, parseValue, hread]
    rfl
  | @list items _ ih =>
    intro n rest hrest hn
    rw [dumps, dumpsItems_eq_map, List.length_cons, List.length_append] at hn
    obtain ⟨n, rfl⟩ : ∃ m, n = m + 1 := ⟨n - 1, by omega⟩
    have hread := parseArray_print (parseValue n) (fun j _ ↦ starts_dumps j)
      (fun j hj u hu ↦ ih j hj hu (by
        have hle := length_le_intercalate (List.mem_map_of_mem (f := dumps) hj)
        omega)) rest
    rw [dumps, dumpsItems_eq_map, List.cons_append, List.append_assoc, List.singleton_append,
      parseValue_bracket, hread]
    rfl
  | @object entries hkeys _ ih =>
    intro n rest hrest hn
    rw [dumps, dumpsEntries_eq_map, List.length_cons, List.length_append] at hn
    obtain ⟨n, rfl⟩ : ∃ m, n = m + 1 := ⟨n - 1, by omega⟩
    have hread := parseObject_print (parseValue n) hkeys (fun e _ ↦ starts_dumps e.2)
      (fun e he u hu ↦ ih e he hu (by
        have hle := length_le_intercalate (List.mem_map_of_mem (f := printMember dumps) he)
        have hitem := length_printMember dumps e
        omega)) rest
    rw [dumps, dumpsEntries_eq_map, List.cons_append, List.append_assoc, List.singleton_append,
      parseValue_brace, hread]
    rfl

theorem loads_dumps {j : Json} (h : Distinct j) : loads (dumps j) = some j := by
  have hend : Follows [] := by
    intro c hc
    cases hc
  have hread := parseValue_dumps h hend (Nat.le_succ (dumps j).length)
  rw [List.append_nil] at hread
  rw [loads, (starts_dumps j).skipSpace, hread]
  rfl

end CronPanel.Library.JsonText
