import CronPanel.Library.Strings

namespace CronPanel.Library.Utf8

open Strings

/-- What stands for bytes that are no character. -/
def replacement : Char := '\ufffd'

/-- A character of which some bytes are read: how many are still to come, which the next one may
be, and what they say so far. -/
structure Pending where
  needed : ℕ
  low : ℕ
  high : ℕ
  point : ℕ
  continues : 128 ≤ low

/-- A byte where no character is begun. -/
def firstByte (b : ℕ) : Text × Option Pending :=
  if b < 128 then ([Char.ofNat b], none)
  else if 194 ≤ b ∧ b ≤ 223 then ([], some ⟨1, 128, 191, b - 192, by decide⟩)
  else if b = 224 then ([], some ⟨2, 160, 191, 0, by decide⟩)
  else if b = 237 then ([], some ⟨2, 128, 159, 13, by decide⟩)
  else if 225 ≤ b ∧ b ≤ 239 then ([], some ⟨2, 128, 191, b - 224, by decide⟩)
  else if b = 240 then ([], some ⟨3, 144, 191, 0, by decide⟩)
  else if b = 244 then ([], some ⟨3, 128, 143, 4, by decide⟩)
  else if 241 ≤ b ∧ b ≤ 243 then ([], some ⟨3, 128, 191, b - 240, by decide⟩)
  else ([replacement], none)

/-- A byte behind others: one that does not continue their character leaves it unfinished. -/
def nextByte (pending : Pending) (b : ℕ) : Text × Option Pending :=
  if pending.low ≤ b ∧ b ≤ pending.high then
    let point := pending.point * 64 + (b - 128)
    if pending.needed ≤ 1 then ([Char.ofNat point], none)
    else ([], some ⟨pending.needed - 1, 128, 191, point, by decide⟩)
  else (replacement :: (firstByte b).1, (firstByte b).2)

def readByte : Option Pending → ℕ → Text × Option Pending
  | none, b => firstByte b
  | some pending, b => nextByte pending b

def decodeFrom : Option Pending → List UInt8 → Text
  | none, [] => []
  | some _, [] => [replacement]
  | pending, b :: bs =>
    (readByte pending b.toNat).1 ++ decodeFrom (readByte pending b.toNat).2 bs

/-- `bytes.decode("utf-8", errors="replace")`: each longest beginning of a character that is not
continued, and each byte that begins none, is replaced. -/
def decode (bytes : List UInt8) : Text := decodeFrom none bytes

theorem decodeFrom_cons (pending : Option Pending) (b : UInt8) (bs : List UInt8) :
    decodeFrom pending (b :: bs) =
      (readByte pending b.toNat).1 ++ decodeFrom (readByte pending b.toNat).2 bs := by
  cases pending <;> rfl

/-- A byte below 128 ends what comes before it. -/
theorem decodeFrom_append_ascii (pending : Option Pending) (bs : List UInt8) {b : UInt8}
    (hb : b.toNat < 128) (rest : List UInt8) :
    decodeFrom pending (bs ++ b :: rest) =
      decodeFrom pending bs ++ Char.ofNat b.toNat :: decode rest := by
  induction bs generalizing pending with
  | nil =>
    have hfirst : firstByte b.toNat = ([Char.ofNat b.toNat], none) := if_pos hb
    rw [List.nil_append, decodeFrom_cons]
    cases pending with
    | none =>
      rw [readByte, hfirst]
      rfl
    | some pending =>
      have hlow := pending.continues
      have hnot : ¬(pending.low ≤ b.toNat ∧ b.toNat ≤ pending.high) := by omega
      rw [readByte, nextByte, if_neg hnot, hfirst]
      rfl
  | cons c bs ih =>
    rw [List.cons_append, decodeFrom_cons, decodeFrom_cons, ih, List.append_assoc]

theorem toNat_ofNat {n : ℕ} (h : n < 256) : (UInt8.ofNat n).toNat = n := by
  rw [UInt8.toNat_ofNat']
  exact Nat.mod_eq_of_lt h

theorem decodeFrom_first {a : ℕ} {pending : Pending} (ha : a < 256)
    (h : firstByte a = ([], some pending)) (rest : List UInt8) :
    decodeFrom none (UInt8.ofNat a :: rest) = decodeFrom (some pending) rest := by
  rw [decodeFrom_cons, toNat_ofNat ha, readByte, h]
  rfl

/-- A byte that continues a character, and is not its last. -/
theorem decodeFrom_next {pending : Pending} {b : ℕ} (hb : pending.low ≤ b ∧ b ≤ pending.high)
    (hhigh : b < 256) (hneeded : 1 < pending.needed) (rest : List UInt8) :
    decodeFrom (some pending) (UInt8.ofNat b :: rest) =
      decodeFrom (some ⟨pending.needed - 1, 128, 191, pending.point * 64 + (b - 128),
        by decide⟩) rest := by
  rw [decodeFrom_cons, toNat_ofNat hhigh, readByte, nextByte, if_pos hb,
    if_neg (Nat.not_le.mpr hneeded)]
  rfl

theorem decodeFrom_last {pending : Pending} {b : ℕ} (hb : pending.low ≤ b ∧ b ≤ pending.high)
    (hhigh : b < 256) (hneeded : pending.needed = 1) (rest : List UInt8) :
    decodeFrom (some pending) (UInt8.ofNat b :: rest) =
      Char.ofNat (pending.point * 64 + (b - 128)) :: decodeFrom none rest := by
  rw [decodeFrom_cons, toNat_ofNat hhigh, readByte, nextByte, if_pos hb, if_pos hneeded.le]
  rfl

theorem firstByte_three {a : ℕ} (h : 224 ≤ a ∧ a ≤ 239) :
    ∃ pending, firstByte a = ([], some pending) ∧ pending.needed = 2 ∧
      pending.point = a - 224 ∧ pending.low = (if a = 224 then 160 else 128) ∧
      pending.high = if a = 237 then 159 else 191 := by
  unfold firstByte
  rw [if_neg (by omega), if_neg (by omega)]
  by_cases hlow : a = 224
  · subst hlow
    exact ⟨_, rfl, rfl, rfl, rfl, rfl⟩
  · by_cases hhigh : a = 237
    · subst hhigh
      exact ⟨_, rfl, rfl, rfl, rfl, rfl⟩
    · rw [if_neg hlow, if_neg hhigh, if_pos (by omega), if_neg hlow, if_neg hhigh]
      exact ⟨_, rfl, rfl, rfl, rfl, rfl⟩

theorem firstByte_four {a : ℕ} (h : 240 ≤ a ∧ a ≤ 244) :
    ∃ pending, firstByte a = ([], some pending) ∧ pending.needed = 3 ∧
      pending.point = a - 240 ∧ pending.low = (if a = 240 then 144 else 128) ∧
      pending.high = if a = 244 then 143 else 191 := by
  unfold firstByte
  rw [if_neg (by omega), if_neg (by omega), if_neg (by omega), if_neg (by omega),
    if_neg (by omega)]
  by_cases hlow : a = 240
  · subst hlow
    exact ⟨_, rfl, rfl, rfl, rfl, rfl⟩
  · by_cases hhigh : a = 244
    · subst hhigh
      exact ⟨_, rfl, rfl, rfl, rfl, rfl⟩
    · rw [if_neg hlow, if_neg hhigh, if_pos (by omega), if_neg hlow, if_neg hhigh]
      exact ⟨_, rfl, rfl, rfl, rfl, rfl⟩

theorem decodeFrom_char (c : Char) (rest : List UInt8) :
    decodeFrom none (String.utf8EncodeChar c ++ rest) = c :: decodeFrom none rest := by
  obtain ⟨v, hv⟩ : ∃ v, v = c.val.toNat := ⟨_, rfl⟩
  have hc : Char.ofNat v = c := by
    rw [hv]
    exact Char.ofNat_toNat c
  have hvalid : v < 55296 ∨ 57343 < v ∧ v < 1114112 := hv ▸ c.valid
  unfold String.utf8EncodeChar
  dsimp only
  rw [← hv]
  split_ifs with h₁ h₂ h₃
  · have hfirst : firstByte v = ([Char.ofNat v], none) := if_pos (by omega)
    rw [List.singleton_append, decodeFrom_cons, toNat_ofNat (by omega), readByte, hfirst, hc]
    rfl
  · have hfirst : firstByte (v / 64 % 32 + 192) = ([], some ⟨1, 128, 191, v / 64, by decide⟩) := by
      have hpoint : v / 64 % 32 + 192 - 192 = v / 64 := by omega
      rw [firstByte, if_neg (by omega), if_pos (by omega)]
      simp only [hpoint]
    have hpoint : v / 64 * 64 + (v % 64 + 128 - 128) = v := by omega
    rw [List.cons_append, List.singleton_append, decodeFrom_first (by omega) hfirst,
      decodeFrom_last (by dsimp only; omega) (by omega) rfl]
    dsimp only
    rw [hpoint, hc]
  · obtain ⟨pending, hfirst, hneeded, hpoint, hlow, hhigh⟩ :=
      firstByte_three (a := v / 4096 % 16 + 224) (by omega)
    have hsecond : pending.low ≤ v / 64 % 64 + 128 ∧ v / 64 % 64 + 128 ≤ pending.high := by
      rw [hlow, hhigh]
      split_ifs <;> omega
    have hwhole : (pending.point * 64 + (v / 64 % 64 + 128 - 128)) * 64 +
        (v % 64 + 128 - 128) = v := by omega
    rw [List.cons_append, List.cons_append, List.singleton_append,
      decodeFrom_first (by omega) hfirst, decodeFrom_next hsecond (by omega) (by omega),
      decodeFrom_last (by dsimp only; omega) (by omega) (by dsimp only; omega)]
    dsimp only
    rw [hwhole, hc]
  · obtain ⟨pending, hfirst, hneeded, hpoint, hlow, hhigh⟩ :=
      firstByte_four (a := v / 262144 % 8 + 240) (by omega)
    have hsecond : pending.low ≤ v / 4096 % 64 + 128 ∧ v / 4096 % 64 + 128 ≤ pending.high := by
      rw [hlow, hhigh]
      split_ifs <;> omega
    have hwhole : ((pending.point * 64 + (v / 4096 % 64 + 128 - 128)) * 64 +
        (v / 64 % 64 + 128 - 128)) * 64 + (v % 64 + 128 - 128) = v := by omega
    rw [List.cons_append, List.cons_append, List.cons_append, List.singleton_append,
      decodeFrom_first (by omega) hfirst, decodeFrom_next hsecond (by omega) (by omega),
      decodeFrom_next (by dsimp only; omega) (by omega) (by dsimp only; omega),
      decodeFrom_last (by dsimp only; omega) (by omega) (by dsimp only; omega)]
    dsimp only
    rw [hwhole, hc]

/-- A text is read back from its bytes. -/
theorem decode_utf8 (t : Text) : decode (utf8 t) = t := by
  induction t with
  | nil => rfl
  | cons c t ih =>
    rw [decode, utf8, List.flatMap_cons, decodeFrom_char]
    exact congrArg (List.cons c) ih

/-- A text that begins with an ASCII character is read the same behind any bytes. -/
theorem decode_append_utf8 (bs : List UInt8) {c : Char} (hc : c.toNat < 128) (t : Text) :
    decode (bs ++ utf8 (c :: t)) = decode bs ++ c :: t := by
  have hbyte : utf8 (c :: t) = UInt8.ofNat c.toNat :: utf8 t := by
    have hone : c.val.toNat ≤ 127 := Nat.le_of_lt_succ hc
    rw [utf8, List.flatMap_cons, String.utf8EncodeChar, if_pos hone]
    rfl
  have hvalue : (UInt8.ofNat c.toNat).toNat = c.toNat := toNat_ofNat (by omega)
  rw [hbyte, decode, decodeFrom_append_ascii none bs (by omega), hvalue, Char.ofNat_toNat,
    decode_utf8]
  rfl

end CronPanel.Library.Utf8
