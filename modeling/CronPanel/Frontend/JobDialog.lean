import CronPanel.Access.Updates
import CronPanel.Frontend.Controls
import CronPanel.Library.Trimming

namespace CronPanel.Frontend.JobDialog

open Library.Strings Library.Tables Library.Fallible Library.Trimming Core.Permissions
open Data.Records Data.Repositories Cron.Validator Cron.Elements Cron.Grammar Schemas.Bodies
open Services.CronJobs Services.Columns Api.Errors Api.CronJobs Api.Pages Access.Updates Controls

/-- The white space and the line ends that `trim` of JavaScript removes. -/
def isBlank (c : Char) : Bool :=
  let n := c.toNat
  (9 ≤ n && n ≤ 13) || n == 32 || n == 160 || n == 5760 || (8192 ≤ n && n ≤ 8202) ||
    n == 8232 || n == 8233 || n == 8239 || n == 8287 || n == 12288 || n == 65279

/-- The value of an `<input type="text">` after a text has been assigned to it. -/
def inputValue (t : Text) : Text := t.filter fun c ↦ c ≠ '\n' && c ≠ '\r'

/-- The value of a `<textarea>` after a text has been assigned to it. -/
def textareaValue : Text → Text
  | '\r' :: '\n' :: t => '\n' :: textareaValue t
  | c :: t => (if c = '\r' then '\n' else c) :: textareaValue t
  | [] => []

/-- `String(id)` of an identifier or of `null`. -/
def idText : Option ℕ → Text
  | none => "null".toList
  | some id => decimal id

structure Choice where
  value : Text
  selected : Bool

/-- The options of `populateScriptSelect`. -/
def populateScriptSelect (scripts : List ScriptResponse) (selectedId : Option ℕ) : List Choice :=
  let enabled := scripts.filter ScriptResponse.isEnabled
  ⟨[], false⟩ ::
    enabled.map (fun script ↦ ⟨decimal script.id, decimal script.id = idText selectedId⟩) ++
    if selectedId.isSome && !enabled.any (fun script ↦ decimal script.id = idText selectedId) then
      [⟨idText selectedId, true⟩]
    else []

/-- The value of a `<select>`, whose last selected option counts, or else its first one. -/
def selectValue (choices : List Choice) : Text :=
  (((choices.filter Choice.selected).getLast?).or choices.head?).elim [] Choice.value

/-- The dialog, with the values that its elements hold. -/
structure JobForm where
  editingJobId : Option ℕ
  name : Text
  command : Text
  schedule : Text
  description : Text
  script : Text
  deriving DecidableEq

/-- `openJobModal`, with the scripts that `loadScripts` has found. -/
def openJobModal (scripts : List ScriptResponse) : Option CronJobResponse → JobForm
  | none => ⟨none, [], [], [], [], selectValue (populateScriptSelect scripts none)⟩
  | some job =>
    { editingJobId := some job.id
      name := inputValue job.name
      command := textareaValue job.command
      schedule := inputValue job.scheduleExpression
      description := textareaValue (job.description.getD [])
      script := selectValue (populateScriptSelect scripts job.scriptId) }

/-- What `collectJobForm` sends. -/
structure JobPayload where
  name : Text
  command : Text
  scheduleExpression : Text
  description : Option Text
  scriptId : Option ℕ

/-- `collectJobForm`; the values of the script options are identifiers. -/
def collectJobForm (form : JobForm) : JobPayload :=
  let description := trim isBlank form.description
  { name := trim isBlank form.name
    command := trim isBlank form.command
    scheduleExpression := trim isBlank form.schedule
    description := if description = [] then none else some description
    scriptId := if form.script = [] then none else some (Nat.ofDigitChars 10 form.script 0) }

def JobPayload.toCreate (payload : JobPayload) : CronJobCreate where
  name := payload.name
  description := payload.description
  command := payload.command
  scheduleExpression := payload.scheduleExpression
  scriptId := payload.scriptId

def JobPayload.toUpdate (payload : JobPayload) : CronJobUpdate where
  name := some payload.name
  description := payload.description
  command := some payload.command
  scheduleExpression := some payload.scheduleExpression
  scriptId := payload.scriptId

/-- The request of the submit handler of `wireJobForm`. -/
def submit (sender : Sender) (form : JobForm) (db : Database) : Except HttpError Database :=
  match form.editingJobId.filter (· ≠ 0) with
  | some id => Api.CronJobs.updateCronJob sender id (collectJobForm form).toUpdate db
  | none => Prod.snd <$> Api.CronJobs.createCronJob sender (collectJobForm form).toCreate db

theorem isSpace_of_isBlank {c : Char} (h : isBlank c) : isSpace c ∨ c = '\ufeff' := by
  by_cases hmark : c.toNat = 65279
  · exact .inr (Char.toNat_inj.mp hmark)
  · refine .inl ?_
    simp only [isBlank, isSpace, Bool.or_eq_true, Bool.and_eq_true, decide_eq_true_eq,
      beq_iff_eq] at h ⊢
    omega

theorem inputValue_sublist (t : Text) : List.Sublist (inputValue t) t := List.filter_sublist

theorem inputValue_eq_self_iff {t : Text} : inputValue t = t ↔ '\n' ∉ t ∧ '\r' ∉ t := by
  rw [inputValue, List.filter_eq_self]
  constructor
  · intro h
    exact ⟨fun hc ↦ by simpa using h _ hc, fun hc ↦ by simpa using h _ hc⟩
  · rintro ⟨hfeed, hreturn⟩ c hc
    simp only [Bool.and_eq_true, decide_eq_true_eq]
    exact ⟨fun h ↦ hfeed (h ▸ hc), fun h ↦ hreturn (h ▸ hc)⟩

theorem length_textareaValue_le (t : Text) : (textareaValue t).length ≤ t.length := by
  fun_induction textareaValue t with
  | case1 t ih =>
    simp only [List.length_cons]
    omega
  | case2 c t _ ih =>
    simp only [List.length_cons]
    omega
  | case3 => exact Nat.le_refl 0

theorem return_not_mem_textareaValue (t : Text) : '\r' ∉ textareaValue t := by
  fun_induction textareaValue t with
  | case1 t ih => simpa using ih
  | case2 c t _ ih =>
    rw [List.mem_cons, not_or]
    refine ⟨?_, ih⟩
    split_ifs with hc
    · decide
    · exact fun h ↦ hc h.symm
  | case3 => exact List.not_mem_nil

theorem textareaValue_eq_self_iff {t : Text} : textareaValue t = t ↔ '\r' ∉ t := by
  constructor
  · intro h
    rw [← h]
    exact return_not_mem_textareaValue t
  · intro h
    fun_induction textareaValue t with
    | case1 t ih => exact absurd List.mem_cons_self h
    | case2 c t _ ih =>
      rw [List.mem_cons, not_or] at h
      rw [ih h.2, if_neg fun hc ↦ h.1 hc.symm]
    | case3 => rfl

theorem blank_textareaValue_iff {t : Text} :
    (∀ c ∈ textareaValue t, isBlank c) ↔ ∀ c ∈ t, isBlank c := by
  fun_induction textareaValue t with
  | case1 t ih =>
    rw [List.forall_mem_cons, ih, List.forall_mem_cons, List.forall_mem_cons]
    exact ⟨fun h ↦ ⟨rfl, h⟩, fun h ↦ h.2⟩
  | case2 c t _ ih =>
    rw [List.forall_mem_cons, ih, List.forall_mem_cons]
    split_ifs with hc
    · subst hc
      exact Iff.rfl
    · exact Iff.rfl
  | case3 => exact Iff.rfl

theorem idText_none_ne (id : ℕ) : decimal id ≠ idText none := by
  intro h
  have hdigits := isDigits_decimal id
  rw [h] at hdigits
  exact Bool.false_ne_true hdigits

theorem selected_populate {scripts : List ScriptResponse} {selectedId : Option ℕ} {choice : Choice}
    (hmem : choice ∈ populateScriptSelect scripts selectedId) (hselected : choice.selected) :
    ∃ id, selectedId = some id ∧ choice.value = decimal id := by
  have hfound {id : ℕ} (h : decimal id = idText selectedId) :
      ∃ id', selectedId = some id' ∧ decimal id = decimal id' := by
    cases selectedId with
    | none => exact absurd h (idText_none_ne id)
    | some id' => exact ⟨id', rfl, h⟩
  simp only [populateScriptSelect, List.cons_append, List.mem_cons, List.mem_append,
    List.mem_map] at hmem
  rcases hmem with rfl | ⟨script, -, rfl⟩ | hlegacy
  · cases hselected
  · exact hfound (of_decide_eq_true hselected)
  · split_ifs at hlegacy with hmissing
    · obtain rfl := List.mem_singleton.mp hlegacy
      rw [Bool.and_eq_true] at hmissing
      obtain ⟨id, rfl⟩ := Option.isSome_iff_exists.mp hmissing.1
      exact ⟨id, rfl, rfl⟩
    · cases hlegacy

theorem exists_selected (scripts : List ScriptResponse) (id : ℕ) :
    ∃ choice ∈ populateScriptSelect scripts (some id), choice.selected := by
  simp only [populateScriptSelect, List.cons_append, List.mem_cons, List.mem_append,
    List.mem_map, Option.isSome_some, Bool.true_and]
  cases hfound : (scripts.filter ScriptResponse.isEnabled).any
      fun script ↦ decimal script.id = idText (some id) with
  | true =>
    obtain ⟨script, hmem, hid⟩ := List.any_eq_true.mp hfound
    exact ⟨_, .inr (.inl ⟨script, hmem, rfl⟩), hid⟩
  | false => exact ⟨⟨idText (some id), true⟩, .inr (.inr List.mem_cons_self), rfl⟩

/-- The dialog shows the script of its job, whichever scripts have been loaded. -/
theorem selectValue_populate (scripts : List ScriptResponse) (selectedId : Option ℕ) :
    selectValue (populateScriptSelect scripts selectedId) = selectedId.elim [] decimal := by
  unfold selectValue
  cases hlast : ((populateScriptSelect scripts selectedId).filter Choice.selected).getLast? with
  | none =>
    cases selectedId with
    | none => rfl
    | some id =>
      obtain ⟨choice, hmem, hselected⟩ := exists_selected scripts id
      rw [List.getLast?_eq_none_iff] at hlast
      exact absurd (hlast ▸ List.mem_filter.mpr ⟨hmem, hselected⟩) List.not_mem_nil
  | some choice =>
    obtain ⟨hmem, hselected⟩ := List.mem_filter.mp (List.mem_of_getLast? hlast)
    obtain ⟨id, rfl, hvalue⟩ := selected_populate hmem hselected
    exact hvalue

end CronPanel.Frontend.JobDialog
