import CronPanel.Library.PythonJson
import CronPanel.Services.Audit

namespace CronPanel.Services.Details

open Library.Strings Library.Fallible Library.JsonData Library.PythonJson Audit

section Source

variable {F : Type}

def redacted : Value F := .text "[REDACTED]".toList

mutual

/-- `_sanitize_value`. -/
def sanitizeValue : Value F → Value F
  | .dict entries => .dict (sanitizeEntries entries)
  | .list items | .tuple items => .list (sanitizeItems items)
  | .datetime value => .text value.isoformat
  | .date value => .text value.isoformat
  | value => value
termination_by structural value => value

def sanitizeEntries : List (Text × Value F) → List (Text × Value F)
  | [] => []
  | entry :: entries => sanitizeEntry entry :: sanitizeEntries entries
termination_by structural entries => entries

def sanitizeEntry : Text × Value F → Text × Value F
  | (key, item) => (key, if isSensitive key then redacted else sanitizeValue item)
termination_by structural entry => entry

def sanitizeItems : List (Value F) → List (Value F)
  | [] => []
  | item :: items => sanitizeValue item :: sanitizeItems items
termination_by structural items => items

end

def serializationErrorText : Text := "\x7b\"serialization_error\": true\x7d".toList

/-- `sanitize_details`, where nothing is stored of empty details. -/
def sanitizeDetails (floats : Floats F) (details : List (Text × Value F)) : Option Text :=
  if details.isEmpty then none
  else
    match dumps floats (sanitizeValue (.dict details)) with
    | .ok text => some text
    | .error _ => some serializationErrorText

end Source

variable {F : Type}

/-- Two values that differ below sensitive keys only. -/
inductive Alike : Value F → Value F → Prop
  | same (value : Value F) : Alike value value
  | list {items others : List (Value F)} (hlength : items.length = others.length)
    (h : ∀ p ∈ items.zip others, Alike p.1 p.2) : Alike (.list items) (.list others)
  | tuple {items others : List (Value F)} (hlength : items.length = others.length)
    (h : ∀ p ∈ items.zip others, Alike p.1 p.2) : Alike (.tuple items) (.tuple others)
  | dict {entries others : List (Text × Value F)}
    (hkeys : entries.map Prod.fst = others.map Prod.fst)
    (h : ∀ p ∈ entries.zip others, isSensitive p.1.1 = false → Alike p.1.2 p.2.2) :
    Alike (.dict entries) (.dict others)

/-- Details that are not empty; no dictionary in them has two entries with one key. -/
structure AuditDetails (F : Type) where
  entries : List (Text × Value F)
  nonempty : entries ≠ []
  distinct : Distinct (.dict entries)

def AuditDetails.value (details : AuditDetails F) : Value F := .dict details.entries

section Sanitize

theorem sanitizeItems_eq_map (items : List (Value F)) :
    sanitizeItems items = items.map sanitizeValue := by
  induction items with
  | nil => rfl
  | cons item items ih =>
    rw [sanitizeItems, ih]
    rfl

theorem sanitizeEntries_eq_map (entries : List (Text × Value F)) :
    sanitizeEntries entries = entries.map sanitizeEntry := by
  induction entries with
  | nil => rfl
  | cons entry entries ih =>
    rw [sanitizeEntries, ih]
    rfl

theorem sanitizeEntry_sensitive {entry : Text × Value F} (h : isSensitive entry.1) :
    sanitizeEntry entry = (entry.1, redacted) := by
  obtain ⟨key, item⟩ := entry
  exact congrArg (Prod.mk key) (if_pos h)

theorem sanitizeEntry_open {entry : Text × Value F} (h : isSensitive entry.1 = false) :
    sanitizeEntry entry = (entry.1, sanitizeValue entry.2) := by
  obtain ⟨key, item⟩ := entry
  exact congrArg (Prod.mk key) (if_neg (Bool.not_eq_true _ ▸ h))

theorem map_fst_sanitizeEntries (entries : List (Text × Value F)) :
    (entries.map sanitizeEntry).map Prod.fst = entries.map Prod.fst := by
  rw [List.map_map]
  exact List.map_congr_left fun ⟨key, item⟩ _ ↦ rfl

theorem plain_sanitizeValue {value : Value F} (h : Distinct value) :
    Plain (sanitizeValue value) := by
  induction h with
  | @list items _ ih =>
    rw [sanitizeValue, sanitizeItems_eq_map]
    exact .list (List.forall_mem_map.mpr ih)
  | @tuple items _ ih =>
    rw [sanitizeValue, sanitizeItems_eq_map]
    exact .list (List.forall_mem_map.mpr ih)
  | @dict entries hkeys _ ih =>
    rw [sanitizeValue, sanitizeEntries_eq_map]
    refine .dict ((map_fst_sanitizeEntries entries).symm ▸ hkeys) (List.forall_mem_map.mpr ?_)
    intro entry hentry
    cases hs : isSensitive entry.1 with
    | true =>
      rw [sanitizeEntry_sensitive hs]
      exact .text _
    | false =>
      rw [sanitizeEntry_open hs]
      exact ih entry hentry
  | null => exact .null
  | bool value => exact .bool value
  | int value => exact .int value
  | float value => exact .float value
  | text value => exact .text value
  | date value => exact .text _
  | datetime value => exact .text _

end Sanitize

section Stored

variable {floats : Floats F} {entries : List (Text × Value F)}

theorem sanitizeDetails_of_ok (hne : entries ≠ []) {t : Text}
    (h : dumps floats (sanitizeValue (.dict entries)) = .ok t) :
    sanitizeDetails floats entries = some t := by
  rw [sanitizeDetails, if_neg (mt List.isEmpty_iff.mp hne), h]

end Stored

section Trail

mutual

/-- The details that the services give, as values. -/
def ofJson : Json → Value F
  | .null => .null
  | .bool value => .bool value
  | .number value => .int value
  | .text value => .text value
  | .list items => .list (ofJsonItems items)
  | .object entries => .dict (ofJsonEntries entries)
termination_by structural value => value

def ofJsonItems : List Json → List (Value F)
  | [] => []
  | item :: items => ofJson item :: ofJsonItems items
termination_by structural items => items

def ofJsonEntries : List (Text × Json) → List (Text × Value F)
  | [] => []
  | entry :: entries => ofJsonEntry entry :: ofJsonEntries entries
termination_by structural entries => entries

def ofJsonEntry : Text × Json → Text × Value F
  | (key, item) => (key, ofJson item)
termination_by structural entry => entry

end

theorem ofJsonEntries_fst (entries : List (Text × Json)) :
    (ofJsonEntries (F := F) entries).map Prod.fst = entries.map Prod.fst := by
  induction entries with
  | nil => rfl
  | cons entry entries ih =>
    obtain ⟨key, item⟩ := entry
    rw [ofJsonEntries, List.map_cons, List.map_cons, ih]
    rfl

theorem mem_ofJsonItems {item : Value F} {items : List Json} (h : item ∈ ofJsonItems items) :
    ∃ j ∈ items, item = ofJson j := by
  induction items with
  | nil => cases h
  | cons j items ih =>
    rw [ofJsonItems, List.mem_cons] at h
    rcases h with rfl | h
    · exact ⟨j, List.mem_cons_self, rfl⟩
    · obtain ⟨k, hk, rfl⟩ := ih h
      exact ⟨k, List.mem_cons_of_mem j hk, rfl⟩

theorem mem_ofJsonEntries {entry : Text × Value F} {entries : List (Text × Json)}
    (h : entry ∈ ofJsonEntries entries) : ∃ e ∈ entries, entry = (e.1, ofJson e.2) := by
  induction entries with
  | nil => cases h
  | cons e entries ih =>
    rw [ofJsonEntries, List.mem_cons] at h
    rcases h with rfl | h
    · obtain ⟨key, item⟩ := e
      exact ⟨_, List.mem_cons_self, rfl⟩
    · obtain ⟨e', he', rfl⟩ := ih h
      exact ⟨e', List.mem_cons_of_mem e he', rfl⟩

theorem distinct_ofJson {j : Json} (h : Library.JsonText.Distinct j) :
    Distinct (ofJson (F := F) j) := by
  induction h with
  | list _ ih =>
    refine .list fun item hitem ↦ ?_
    obtain ⟨j, hj, rfl⟩ := mem_ofJsonItems hitem
    exact ih j hj
  | @object entries hkeys _ ih =>
    refine .dict ((ofJsonEntries_fst entries).symm ▸ hkeys) fun entry hentry ↦ ?_
    obtain ⟨e, he, rfl⟩ := mem_ofJsonEntries hentry
    exact ih e he
  | null => exact .null
  | bool value => exact .bool value
  | number value => exact .int value
  | text value => exact .text value

theorem sanitizeItems_ofJson {items : List Json}
    (h : ∀ j ∈ items, sanitizeValue (ofJson (F := F) j) = ofJson (Audit.sanitizeValue j)) :
    sanitizeItems (ofJsonItems (F := F) items) = ofJsonItems (Audit.sanitizeItems items) := by
  induction items with
  | nil => rfl
  | cons j items ih =>
    obtain ⟨hj, hrest⟩ := List.forall_mem_cons.mp h
    rw [ofJsonItems, sanitizeItems, Audit.sanitizeItems, ofJsonItems, hj, ih hrest]

theorem sanitizeEntries_ofJson {entries : List (Text × Json)}
    (h : ∀ e ∈ entries, sanitizeValue (ofJson (F := F) e.2) = ofJson (Audit.sanitizeValue e.2)) :
    sanitizeEntries (ofJsonEntries (F := F) entries) =
      ofJsonEntries (Audit.sanitizeEntries entries) := by
  induction entries with
  | nil => rfl
  | cons e entries ih =>
    obtain ⟨key, item⟩ := e
    obtain ⟨he, hrest⟩ := List.forall_mem_cons.mp h
    rw [ofJsonEntries, sanitizeEntries, Audit.sanitizeEntries, ofJsonEntries, ih hrest, ofJsonEntry,
      sanitizeEntry, Audit.sanitizeEntry, ofJsonEntry]
    cases isSensitive key with
    | true => rfl
    | false =>
      dsimp only at he
      rw [if_neg Bool.false_ne_true, if_neg Bool.false_ne_true, he]

/-- Sanitizing as the trail has it is sanitizing the values. -/
theorem sanitizeValue_ofJson {j : Json} (h : Library.JsonText.Distinct j) :
    sanitizeValue (ofJson (F := F) j) = ofJson (Audit.sanitizeValue j) := by
  induction h with
  | list _ ih =>
    rw [ofJson, sanitizeValue, sanitizeItems_ofJson ih]
    rfl
  | object _ _ ih =>
    rw [ofJson, sanitizeValue, sanitizeEntries_ofJson ih]
    rfl
  | null => rfl
  | bool value => rfl
  | number value => rfl
  | text value => rfl

/-- The details of a row of the trail are what is read of the text that is stored there. -/
theorem loads_sanitizeDetails {floats : Floats F} {entries : List (Text × Json)}
    (hne : entries ≠ []) (hdistinct : Library.JsonText.Distinct (.object entries))
    (hshort : ∀ n ∈ ints (ofJson (F := F) (Audit.sanitizeValue (.object entries))), Short n) :
    (sanitizeDetails floats (ofJsonEntries entries)).bind (loads floats) =
      (Audit.sanitizeDetails entries).map ofJson := by
  have hvalue : sanitizeValue (.dict (ofJsonEntries (F := F) entries)) =
      ofJson (Audit.sanitizeValue (.object entries)) := sanitizeValue_ofJson hdistinct
  have hdict : Distinct (.dict (ofJsonEntries (F := F) entries)) := distinct_ofJson hdistinct
  have hnonempty : ofJsonEntries (F := F) entries ≠ [] := by
    intro h
    have hkeys := ofJsonEntries_fst (F := F) entries
    rw [h, List.map_nil] at hkeys
    exact hne (List.map_eq_nil_iff.mp hkeys.symm)
  obtain ⟨t, ht⟩ := (dumps_succeeds_iff floats (plain_sanitizeValue hdict)).mpr
    (hvalue ▸ hshort)
  rw [sanitizeDetails_of_ok hnonempty ht, Audit.sanitizeDetails,
    if_neg (mt List.isEmpty_iff.mp hne), Option.map_some, Option.bind_some, ← hvalue]
  exact loads_of_dumps (plain_sanitizeValue hdict) ht

end Trail

section Sample

end Sample

end CronPanel.Services.Details
