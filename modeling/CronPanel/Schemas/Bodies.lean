import CronPanel.Cron.Grammar

namespace CronPanel.Schemas.Bodies

open Library.Strings Library.Fallible Cron.Validator Cron.Elements Cron.Grammar

inductive FieldError
  | tooShort (field : Text)
  | tooLong (field : Text)
  | value (field message : Text)
  | raised (field : Text) (error : PyError)
  deriving DecidableEq

/-- `Field(min_length=.., max_length=..)`. -/
def checkLength (field : Text) (least most : ℕ) (value : Text) : Except FieldError Text :=
  if value.length < least then .error (.tooShort field)
  else if most < value.length then .error (.tooLong field)
  else .ok value

def mustNotBeBlank (field message value : Text) : Except FieldError Text :=
  if strip value = [] then .error (.value field message) else .ok (strip value)

def normalizeExpression (field value : Text) : Except FieldError Text :=
  match validateCronExpression (some value) with
  | .error e => .error (.raised field e)
  | .ok result =>
    match result.valid, result.normalizedExpression with
    | true, some normalized => .ok normalized
    | true, none => .error (.value field "Expresión cron inválida.".toList)
    | false, _ => .error (.value field (result.errorMessage.getD "Expresión cron inválida.".toList))

def optional (check : Text → Except FieldError Text) : Option Text → Except FieldError (Option Text)
  | none => .ok none
  | some value => some <$> check value

def errorOf {α : Type} : Except FieldError α → List FieldError
  | .error e => [e]
  | .ok _ => []

namespace CronJob

def name (value : Text) : Except FieldError Text :=
  checkLength "name".toList 3 200 value >>=
    mustNotBeBlank "name".toList "El nombre no puede estar vacío.".toList

def description (value : Text) : Except FieldError Text := checkLength "description".toList 0 2000 value

def command (value : Text) : Except FieldError Text :=
  checkLength "command".toList 1 2000 value >>=
    mustNotBeBlank "command".toList "El comando no puede estar vacío.".toList

def scheduleExpression (value : Text) : Except FieldError Text :=
  checkLength "schedule_expression".toList 1 100 value >>= normalizeExpression "schedule_expression".toList

end CronJob

structure CronJobCreate where
  name : Text
  description : Option Text := none
  command : Text
  scheduleExpression : Text
  scriptId : Option ℕ := none
  deriving DecidableEq

def CronJobCreate.validate (body : CronJobCreate) : Except (List FieldError) CronJobCreate :=
  let name := CronJob.name body.name
  let description := optional CronJob.description body.description
  let command := CronJob.command body.command
  let scheduleExpression := CronJob.scheduleExpression body.scheduleExpression
  match name, description, command, scheduleExpression with
  | .ok name, .ok description, .ok command, .ok scheduleExpression =>
    .ok { body with name, description, command, scheduleExpression }
  | _, _, _, _ =>
    .error (errorOf name ++ errorOf description ++ errorOf command ++ errorOf scheduleExpression)

structure CronJobUpdate where
  name : Option Text := none
  description : Option Text := none
  command : Option Text := none
  scheduleExpression : Option Text := none
  scriptId : Option ℕ := none
  deriving DecidableEq

def CronJobUpdate.validate (body : CronJobUpdate) : Except (List FieldError) CronJobUpdate :=
  let name := optional CronJob.name body.name
  let description := optional CronJob.description body.description
  let command := optional CronJob.command body.command
  let scheduleExpression := optional CronJob.scheduleExpression body.scheduleExpression
  match name, description, command, scheduleExpression with
  | .ok name, .ok description, .ok command, .ok scheduleExpression =>
    .ok { body with name, description, command, scheduleExpression }
  | _, _, _, _ =>
    .error (errorOf name ++ errorOf description ++ errorOf command ++ errorOf scheduleExpression)

theorem normalizeExpression_ok {field value t : Text}
    (h : normalizeExpression field value = .ok t) :
    ∃ s : Schedule, parseCronExpression (some value) = .ok s.fields ∧ t = s.text := by
  unfold normalizeExpression at h
  split at h
  · cases h
  · rename_i result hr
    unfold validateCronExpression at hr
    split at hr
    · rename_i fields hp
      obtain ⟨s, rfl⟩ := parse_ok hp
      cases hr
      cases h
      exact ⟨s, hp, rfl⟩
    · cases hr
      cases h
    · cases hr

theorem CronJob.scheduleExpression_ok {value t : Text}
    (h : CronJob.scheduleExpression value = .ok t) :
    ∃ s : Schedule, parseCronExpression (some value) = .ok s.fields ∧ t = s.text := by
  obtain ⟨checked, hc, h⟩ := bind_eq_ok.mp h
  unfold checkLength at hc
  split_ifs at hc
  cases hc
  exact normalizeExpression_ok h

theorem optional_ok {check : Text → Except FieldError Text} {value t : Option Text}
    (h : optional check value = .ok t) :
    value = none ∧ t = none ∨ ∃ v w, value = some v ∧ t = some w ∧ check v = .ok w := by
  cases value with
  | none =>
    cases h
    exact .inl ⟨rfl, rfl⟩
  | some v =>
    obtain ⟨w, hw, rfl⟩ := map_eq_ok.mp h
    exact .inr ⟨v, w, rfl, rfl, hw⟩

/-- An accepted body carries the text of a schedule, and its other fields as they are checked. -/
theorem CronJobCreate.validate_ok {body checked : CronJobCreate} (h : body.validate = .ok checked) :
    checked.scriptId = body.scriptId ∧
      ∃ s : Schedule, parseCronExpression (some body.scheduleExpression) = .ok s.fields ∧
        checked.scheduleExpression = s.text := by
  unfold CronJobCreate.validate at h
  dsimp only at h
  split at h
  · rename_i hs
    cases h
    exact ⟨rfl, CronJob.scheduleExpression_ok hs⟩
  · cases h

theorem CronJobUpdate.validate_ok {body checked : CronJobUpdate} (h : body.validate = .ok checked) :
    checked.scriptId = body.scriptId ∧
      (body.scheduleExpression = none ∧ checked.scheduleExpression = none ∨
        ∃ x, ∃ s : Schedule, body.scheduleExpression = some x ∧
          parseCronExpression (some x) = .ok s.fields ∧
            checked.scheduleExpression = some s.text) := by
  unfold CronJobUpdate.validate at h
  dsimp only at h
  split at h
  · rename_i hs
    cases h
    refine ⟨rfl, (optional_ok hs).imp_right ?_⟩
    intro hin
    obtain ⟨x, t, hx, rfl, ht⟩ := hin
    obtain ⟨s, hp, rfl⟩ := CronJob.scheduleExpression_ok ht
    exact ⟨x, s, hx, hp, rfl⟩
  · cases h

theorem checkLength_ok {field value t : Text} {least most : ℕ}
    (h : checkLength field least most value = .ok t) :
    t = value ∧ least ≤ value.length ∧ value.length ≤ most := by
  unfold checkLength at h
  split_ifs at h with hshort hlong
  cases h
  exact ⟨rfl, Nat.not_lt.mp hshort, Nat.not_lt.mp hlong⟩

theorem mustNotBeBlank_ok {field message value t : Text}
    (h : mustNotBeBlank field message value = .ok t) : t = strip value := by
  unfold mustNotBeBlank at h
  split_ifs at h
  cases h
  rfl

theorem CronJob.name_ok {value t : Text} (h : CronJob.name value = .ok t) :
    t = strip value ∧ 3 ≤ value.length ∧ value.length ≤ 200 := by
  obtain ⟨v, hv, hblank⟩ := bind_eq_ok.mp h
  obtain ⟨rfl, hleast, hmost⟩ := checkLength_ok hv
  exact ⟨mustNotBeBlank_ok hblank, hleast, hmost⟩

/-- An accepted body has the fields that their checks return. -/
theorem CronJobCreate.validate_fields {body checked : CronJobCreate}
    (h : body.validate = .ok checked) :
    CronJob.name body.name = .ok checked.name ∧
      CronJob.scheduleExpression body.scheduleExpression = .ok checked.scheduleExpression := by
  unfold CronJobCreate.validate at h
  dsimp only at h
  split at h
  · rename_i hname _ _ hschedule
    cases h
    exact ⟨hname, hschedule⟩
  · cases h

theorem CronJobUpdate.validate_fields {body checked : CronJobUpdate}
    (h : body.validate = .ok checked) :
    optional CronJob.name body.name = .ok checked.name ∧
      optional CronJob.description body.description = .ok checked.description ∧
      optional CronJob.command body.command = .ok checked.command ∧
      optional CronJob.scheduleExpression body.scheduleExpression = .ok checked.scheduleExpression ∧
      checked.scriptId = body.scriptId := by
  unfold CronJobUpdate.validate at h
  dsimp only at h
  split at h
  · rename_i hname hdescription hcommand hschedule
    cases h
    exact ⟨hname, hdescription, hcommand, hschedule, rfl⟩
  · cases h

theorem checkText_ok_iff {field message value t : Text} {least most : ℕ} :
    (checkLength field least most value >>= mustNotBeBlank field message) = .ok t ↔
      least ≤ value.length ∧ value.length ≤ most ∧ strip value ≠ [] ∧ t = strip value := by
  constructor
  · intro h
    obtain ⟨v, hv, hblank⟩ := bind_eq_ok.mp h
    obtain ⟨rfl, hleast, hmost⟩ := checkLength_ok hv
    refine ⟨hleast, hmost, ?_, mustNotBeBlank_ok hblank⟩
    intro hnil
    rw [mustNotBeBlank, if_pos hnil] at hblank
    cases hblank
  · rintro ⟨hleast, hmost, hne, rfl⟩
    rw [checkLength, if_neg (Nat.not_lt.mpr hleast), if_neg (Nat.not_lt.mpr hmost), ok_bind,
      mustNotBeBlank, if_neg hne]

/-- The text of a schedule passes as it is. -/
theorem CronJob.scheduleExpression_text {s : Schedule} (h : s.text.length ≤ 100) :
    CronJob.scheduleExpression s.text = .ok s.text := by
  have hne : s.text ≠ [] := by
    intro hnil
    have hparse := split_text s
    rw [hnil] at hparse
    cases hparse
  have hleast : 1 ≤ s.text.length := List.length_pos_iff.mpr hne
  rw [CronJob.scheduleExpression, checkLength, if_neg (Nat.not_lt.mpr hleast),
    if_neg (Nat.not_lt.mpr h), ok_bind, normalizeExpression, validateCronExpression, parse_text]
  rfl

/-- What the fields of a body become under their checks. -/
theorem CronJobCreate.validate_iff {body checked : CronJobCreate} :
    body.validate = .ok checked ↔
      CronJob.name body.name = .ok checked.name ∧
      optional CronJob.description body.description = .ok checked.description ∧
      CronJob.command body.command = .ok checked.command ∧
      CronJob.scheduleExpression body.scheduleExpression = .ok checked.scheduleExpression ∧
      checked.scriptId = body.scriptId := by
  constructor
  · intro h
    unfold CronJobCreate.validate at h
    dsimp only at h
    split at h
    · rename_i hname hdescription hcommand hschedule
      cases h
      exact ⟨hname, hdescription, hcommand, hschedule, rfl⟩
    · cases h
  · rintro ⟨hname, hdescription, hcommand, hschedule, hscript⟩
    unfold CronJobCreate.validate
    dsimp only
    rw [hname, hdescription, hcommand, hschedule]
    dsimp only
    rw [← hscript]

theorem CronJobUpdate.validate_iff {body checked : CronJobUpdate} :
    body.validate = .ok checked ↔
      optional CronJob.name body.name = .ok checked.name ∧
      optional CronJob.description body.description = .ok checked.description ∧
      optional CronJob.command body.command = .ok checked.command ∧
      optional CronJob.scheduleExpression body.scheduleExpression = .ok checked.scheduleExpression ∧
      checked.scriptId = body.scriptId := by
  refine ⟨CronJobUpdate.validate_fields, ?_⟩
  rintro ⟨hname, hdescription, hcommand, hschedule, hscript⟩
  unfold CronJobUpdate.validate
  dsimp only
  rw [hname, hdescription, hcommand, hschedule]
  dsimp only
  rw [← hscript]

namespace Script

def name (value : Text) : Except FieldError Text :=
  checkLength "name".toList 3 200 value >>=
    mustNotBeBlank "name".toList "El valor no puede estar vacío.".toList

def description (value : Text) : Except FieldError Text := checkLength "description".toList 0 2000 value

def path (value : Text) : Except FieldError Text :=
  checkLength "path".toList 1 2000 value >>=
    mustNotBeBlank "path".toList "El valor no puede estar vacío.".toList

end Script

structure ScriptCreate where
  name : Text
  description : Option Text := none
  path : Text
  deriving DecidableEq

def ScriptCreate.validate (body : ScriptCreate) : Except (List FieldError) ScriptCreate :=
  let name := Script.name body.name
  let description := optional Script.description body.description
  let path := Script.path body.path
  match name, description, path with
  | .ok name, .ok description, .ok path => .ok { body with name, description, path }
  | _, _, _ => .error (errorOf name ++ errorOf description ++ errorOf path)

structure ScriptUpdate where
  name : Option Text := none
  description : Option Text := none
  path : Option Text := none
  isEnabled : Option Bool := none
  deriving DecidableEq

def ScriptUpdate.validate (body : ScriptUpdate) : Except (List FieldError) ScriptUpdate :=
  let name := optional Script.name body.name
  let description := optional Script.description body.description
  let path := optional Script.path body.path
  match name, description, path with
  | .ok name, .ok description, .ok path => .ok { body with name, description, path }
  | _, _, _ => .error (errorOf name ++ errorOf description ++ errorOf path)

end CronPanel.Schemas.Bodies
