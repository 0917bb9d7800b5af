import CronPanel.Cron.Grammar

namespace CronPanel.Cron.Tokens

open Library.Strings Library.Ranges Validator Grammar

/-- A number as it was written: leading zeros stay. -/
structure Numeral where
  text : Text
  digits : isDigits text
  deriving DecidableEq

namespace Numeral

def value (n : Numeral) : ℕ := Nat.ofDigitChars 10 n.text 0

def Short (n : Numeral) : Prop := n.text.length ≤ maxStrDigits

instance (n : Numeral) : Decidable n.Short := inferInstanceAs (Decidable (_ ≤ _))

def ofNat (n : ℕ) : Numeral := ⟨decimal n, isDigits_decimal n⟩

def read? (t : Text) : Option Numeral := if h : isDigits t then some ⟨t, h⟩ else none

@[simp] theorem value_ofNat (n : ℕ) : (ofNat n).value = n := Nat.ofDigitChars_ten_toDigits

theorem read?_eq_some {t : Text} {n : Numeral} : read? t = some n ↔ t = n.text := by
  obtain ⟨text, hd⟩ := n
  unfold read?
  split
  · simp
  · rename_i hnot
    apply iff_of_false (by simp)
    intro heq
    exact hnot (heq ▸ hd)

theorem not_mem_text (n : Numeral) {c : Char} (hc : c.isDigit = false) : c ∉ n.text :=
  not_mem_of_isDigits n.digits hc

end Numeral

inductive Shape
  | any
  | single (n : Numeral)
  | range (a b : Numeral)
  deriving DecidableEq

namespace Shape

def text : Shape → Text
  | any => starText
  | single n => n.text
  | range a b => a.text ++ '-' :: b.text

def read? (t : Text) : Option Shape :=
  if t = starText then some any
  else if '-' ∈ t then do
    let a ← Numeral.read? (partition '-' t).1
    let b ← Numeral.read? (partition '-' t).2
    some (range a b)
  else single <$> Numeral.read? t

theorem slash_not_mem (s : Shape) : '/' ∉ s.text := by
  cases s with
  | any => simp [text, starText]
  | single n => exact n.not_mem_text rfl
  | range a b => simp [text, Numeral.not_mem_text]

theorem text_ne_star_range (a b : Numeral) : (range a b).text ≠ starText := by
  intro heq
  have hm : '-' ∈ starText := heq ▸ (by simp [text] : '-' ∈ (range a b).text)
  simp [starText] at hm

theorem read?_eq_some {t : Text} {s : Shape} : read? t = some s ↔ t = s.text := by
  unfold read?
  split_ifs with hstar hdash
  · obtain rfl := hstar
    cases s with
    | any => simp [text]
    | single n => simpa [text] using (ne_star_of_isDigits n.digits).symm
    | range a b => simpa using (text_ne_star_range a b).symm
  · obtain ⟨hfst, heq⟩ := partition_of_mem hdash
    simp only [Option.bind_eq_bind, Option.bind_eq_some_iff, Numeral.read?_eq_some,
      Option.some.injEq]
    constructor
    · intro hin
      obtain ⟨a, ha, b, hb, rfl⟩ := hin
      rw [heq, ha, hb]
      rfl
    · intro ht
      cases s with
      | any => exact absurd ht hstar
      | single n => exact absurd (ht ▸ hdash) (n.not_mem_text rfl)
      | range a b =>
        have hpart :
            partition '-' t = (a.text, b.text) := ht ▸ partition_append (a.not_mem_text rfl)
        exact ⟨a, by rw [hpart], b, by rw [hpart], rfl⟩
  · simp only [Option.map_eq_map, Option.map_eq_some_iff, Numeral.read?_eq_some]
    constructor
    · intro hin
      obtain ⟨n, hn, rfl⟩ := hin
      exact hn
    · intro ht
      cases s with
      | any => exact absurd ht hstar
      | single n => exact ⟨n, ht, rfl⟩
      | range a b => exact absurd (ht ▸ by simp [text]) hdash

end Shape

structure Token where
  base : Shape
  step : Option Numeral
  deriving DecidableEq

namespace Token

def text (τ : Token) : Text := τ.step.elim τ.base.text fun s ↦ τ.base.text ++ '/' :: s.text

def read? (t : Text) : Option Token :=
  if '/' ∈ t then do
    let base ← Shape.read? (partition '/' t).1
    let step ← Numeral.read? (partition '/' t).2
    some ⟨base, some step⟩
  else (⟨·, none⟩) <$> Shape.read? t

theorem read?_eq_some {t : Text} {τ : Token} : read? t = some τ ↔ t = τ.text := by
  obtain ⟨base, step⟩ := τ
  unfold read?
  split_ifs with hslash
  · obtain ⟨hfst, heq⟩ := partition_of_mem hslash
    simp only [Option.bind_eq_bind, Option.bind_eq_some_iff, Shape.read?_eq_some,
      Numeral.read?_eq_some, Option.some.injEq, mk.injEq]
    constructor
    · intro hin
      obtain ⟨b, hb, s, hs, rfl, rfl⟩ := hin
      rw [heq, hb, hs]
      rfl
    · intro ht
      cases step with
      | none =>
        rw [ht] at hslash
        exact absurd hslash base.slash_not_mem
      | some s =>
        have hpart :
            partition '/' t = (base.text, s.text) := ht ▸ partition_append base.slash_not_mem
        exact ⟨base, by rw [hpart], s, by rw [hpart], rfl, rfl⟩
  · simp only [Option.map_eq_map, Option.map_eq_some_iff, Shape.read?_eq_some, mk.injEq]
    constructor
    · intro hin
      obtain ⟨b, hb, rfl, rfl⟩ := hin
      exact hb
    · intro ht
      cases step with
      | none => exact ⟨base, ht, rfl, rfl⟩
      | some s => exact absurd (ht ▸ by simp [text]) hslash

theorem text_injective : Function.Injective text := by
  intro τ υ heq
  have hread : read? υ.text = some τ := read?_eq_some.mpr heq.symm
  rw [read?_eq_some.mpr rfl] at hread
  exact (Option.some.inj hread).symm

theorem comma_not_mem_text (τ : Token) : ',' ∉ τ.text := by
  obtain ⟨base, step⟩ := τ
  have hbase : ',' ∉ base.text := by
    cases base with
    | any => simp [Shape.text, starText]
    | single n => exact n.not_mem_text rfl
    | range a b => simp [Shape.text, Numeral.not_mem_text]
  cases step with
  | none => exact hbase
  | some s => simp [text, hbase, s.not_mem_text]

end Token

def listText (τs : List Token) : Text := [','].intercalate (τs.map Token.text)

theorem splitOn_listText {τs : List Token} (hne : τs ≠ []) :
    (listText τs).splitOn ',' = τs.map Token.text := by
  refine List.splitOn_intercalate ',' ?_ (by simpa using hne)
  simp only [List.mem_map]
  intro t hx
  obtain ⟨τ, -, rfl⟩ := hx
  exact τ.comma_not_mem_text

theorem listText_injective {τs υs : List Token} (hτ : τs ≠ []) (hυ : υs ≠ [])
    (heq : listText τs = listText υs) : τs = υs := by
  have hsplit := splitOn_listText hτ
  rw [heq, splitOn_listText hυ] at hsplit
  exact (List.map_injective_iff.mpr Token.text_injective hsplit).symm

/-- Five comma lists of tokens, before any number in them is looked at. -/
structure Expression where
  tokens : Field → List Token
  nonempty : ∀ f, tokens f ≠ []

namespace Expression

def words (x : Expression) : List Text := Field.names.map fun f ↦ listText (x.tokens f)

def Reads (e : Text) (x : Expression) : Prop := split e = x.words

instance (e : Text) (x : Expression) : Decidable (Reads e x) := inferInstanceAs (Decidable (_ = _))

theorem words_injective : Function.Injective words := by
  intro x y heq
  have hall : ∀ f, x.tokens f = y.tokens f := by
    intro f
    exact listText_injective (x.nonempty f) (y.nonempty f) (List.map_inj_left.mp heq f f.mem_names)
  obtain ⟨xs, hx⟩ := x
  obtain ⟨ys, hy⟩ := y
  obtain rfl : xs = ys := funext hall
  rfl

theorem Reads.unique {e : Text} {x y : Expression} (hx : Reads e x) (hy : Reads e y) : x = y :=
  words_injective (hx.symm.trans hy)

end Expression

end CronPanel.Cron.Tokens
