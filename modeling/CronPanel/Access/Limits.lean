import CronPanel.Access.Columns

namespace CronPanel.Access.Limits

open Library.Strings Library.Tables Library.Fallible Data.Records Data.Repositories
open Data.Repositories.Database Cron.Validator Cron.Elements Cron.Grammar Cron.Tokens
open Cron.Documented Cron.Normalized Schemas.Bodies Services.CronJobs Services.Columns
open Api.Errors Scheduler.Eligibility Columns

/-- `NAME_MIN_LENGTH` and `NAME_MAX_LENGTH`. -/
def NameFits (name : Text) : Prop := 3 ≤ name.length ∧ name.length ≤ 200

/-- The lengths of `schedule_expression` and of the five columns that are derived from it. -/
structure ScheduleFits (job : CronJob) : Prop where
  expression : job.scheduleExpression.length ≤ 100
  columns : ∀ t ∈ derivedColumns job, t.length ≤ 20

def Shape.width : Shape → ℕ
  | .any => 1
  | .single n => (decimal n.value).length
  | .range a b => (decimal a.value).length + 1 + (decimal b.value).length

/-- The characters of a token whose numbers have no leading zeros, but for those of its step. -/
def Token.width (τ : Token) : ℕ :=
  Shape.width τ.base + τ.step.elim 0 fun s ↦ 1 + s.text.length

/-- The characters of a list, one of them for what follows each token. -/
def listWidth (τs : List Token) : ℕ := τs.foldr (fun τ n ↦ Token.width τ + 1 + n) 0

/-- Each list of an expression takes at most the 20 characters of its column. -/
def Narrow (e : Text) : Prop := ∀ x : Expression, x.Reads e → ∀ f, listWidth (x.tokens f) ≤ 21

section

variable {f : Field}

theorem length_decimal_normalizeBound (f : Field) (n : ℕ) :
    (decimal (normalizeBound f n)).length = (decimal n).length := by
  unfold normalizeBound
  split_ifs with h
  · rw [h.2]
    rfl
  · rfl

theorem length_rewrite (f : Field) (τ : Token) : (rewrite f τ).text.length = Token.width τ := by
  obtain ⟨base, step⟩ := τ
  have hbase : (rewriteShape f base).text.length = Shape.width base := by
    cases base with
    | any => rfl
    | single n => exact length_decimal_normalizeBound f n.value
    | range a b =>
      have ha := length_decimal_normalizeBound f a.value
      have hb := length_decimal_normalizeBound f b.value
      simp only [rewriteShape, Shape.text, Numeral.ofNat, Shape.width, List.length_append,
        List.length_cons]
      omega
  cases step with
  | none => exact hbase
  | some s =>
    simp only [rewrite, Token.text, Token.width, Option.elim_some, List.length_append,
      List.length_cons]
    omega

theorem length_listText_rewrite {τs : List Token} (hne : τs ≠ []) :
    (listText (τs.map (rewrite f))).length + 1 = listWidth τs := by
  have hwidth : ∀ τs : List Token,
      extent ((τs.map (rewrite f)).map Token.text) = listWidth τs := by
    intro τs
    induction τs with
    | nil => rfl
    | cons τ τs ih =>
      rw [List.map_cons, List.map_cons, extent_cons, ih, length_rewrite]
      rfl
  rw [← hwidth τs]
  exact length_intercalate ',' (by simpa using hne)

theorem derivedColumns_withSchedule (job : CronJob) (s : Schedule) :
    derivedColumns (withSchedule job s) = s.fields := rfl

/-- The columns of a schedule fit exactly when the lists it was read from do. -/
theorem scheduleFits_iff (job : CronJob) {e : Text} {s : Schedule}
    (he : CronJob.scheduleExpression e = .ok s.text) (hexpression : job.scheduleExpression = s.text)
    (hcolumns : derivedColumns job = s.fields) : ScheduleFits job ↔ Narrow e := by
  obtain ⟨v, hv, hnormal⟩ := bind_eq_ok.mp he
  obtain ⟨rfl, -, hmost⟩ := checkLength_ok hv
  obtain ⟨s', hparse, htext⟩ := normalizeExpression_ok hnormal
  have hfields : s.fields = s'.fields := by
    have hs := parse_text s
    rw [htext, parse_text s'] at hs
    exact (Except.ok.inj hs).symm
  rw [← hfields] at hparse
  obtain ⟨x, hx, -, hlists⟩ := parse_eq_ok.mp hparse
  have hshort : job.scheduleExpression.length ≤ 100 := by
    rw [hexpression]
    exact (length_normalized_le hparse).trans hmost
  have hone (f : Field) := length_listText_rewrite (f := f) (x.nonempty f)
  constructor
  · intro h y hy f
    obtain rfl := Expression.words_injective (hx.symm.trans hy)
    have hmem : listText ((x.tokens f).map (rewrite f)) ∈ derivedColumns job := by
      rw [hcolumns, hlists]
      exact List.mem_map_of_mem f.mem_names
    have hle := h.columns _ hmem
    have hlength := hone f
    omega
  · intro h
    refine ⟨hshort, ?_⟩
    rw [hcolumns, hlists]
    simp only [List.mem_map]
    intro t ht
    obtain ⟨f, -, rfl⟩ := ht
    have hle := h x hx f
    have hlength := hone f
    omega

theorem nameFits_iff {value name : Text} (h : CronJob.name value = .ok name) :
    NameFits name ↔ 3 ≤ (strip value).length := by
  obtain ⟨rfl, -, hmost⟩ := CronJob.name_ok h
  have hle := length_strip_le value
  unfold NameFits
  omega

variable {db db' : Database} {sender : Sender} {id : ℕ} {job row : CronJob}

theorem created_fits_iff {body : CronJobCreate}
    (h : Api.CronJobs.createCronJob sender body db = .ok (id, db')) :
    (∃ row, db'.cronJobs.get? id = some row ∧ NameFits row.name ∧ ScheduleFits row) ↔
      3 ≤ (strip body.name).length ∧ Narrow body.scheduleExpression := by
  obtain ⟨row, s, hname, hschedule, hset⟩ := createCronJob_stores h
  have hget : db'.cronJobs.get? id = some (withSchedule row s) := by
    rw [hset, Table.get?_set_self]
  rw [← nameFits_iff hname,
    ← scheduleFits_iff (withSchedule row s) hschedule rfl (derivedColumns_withSchedule row s)]
  constructor
  · intro hfits
    obtain ⟨stored, hstored, hfits⟩ := hfits
    obtain rfl := Option.some.inj (hget.symm.trans hstored)
    exact hfits
  · intro hfits
    exact ⟨_, hget, hfits⟩

/-- The name of a body that is written fits exactly when it is long enough once stripped. -/
theorem updated_name_iff {value checked : Option Text} {stored : Text}
    (h : optional CronJob.name value = .ok checked) :
    (checked.getD stored ≠ stored → NameFits (checked.getD stored)) ↔
      ∀ n, value = some n → CronJob.name n ≠ .ok stored → 3 ≤ (strip n).length := by
  rcases optional_ok h with ⟨rfl, rfl⟩ | ⟨v, w, rfl, rfl, hw⟩
  · simp
  · rw [Option.getD_some, nameFits_iff hw]
    constructor
    · intro hfits n hn hne
      obtain rfl := Option.some.inj hn
      rw [hw] at hne
      exact hfits fun heq ↦ hne (congrArg Except.ok heq)
    · intro hfits hne
      refine hfits v rfl ?_
      rw [hw]
      exact fun heq ↦ hne (Except.ok.inj heq)

theorem updated_schedule_iff {body checked : CronJobUpdate} {edited : CronJob}
    (h : optional CronJob.scheduleExpression body.scheduleExpression =
      .ok checked.scheduleExpression)
    (hedited : Edited checked job edited) :
    (edited.scheduleExpression ≠ job.scheduleExpression → ScheduleFits edited) ↔
      ∀ e, body.scheduleExpression = some e →
        CronJob.scheduleExpression e ≠ .ok job.scheduleExpression → Narrow e := by
  rcases hedited with ⟨hsame, rfl⟩ | ⟨s, hs, hne, rfl⟩
  · refine iff_of_true (fun hne ↦ absurd rfl hne) ?_
    intro e he hne
    rw [he] at h
    obtain ⟨t, ht, hchecked⟩ := map_eq_ok.mp h
    obtain rfl := hsame t hchecked.symm
    exact absurd ht hne
  · rcases optional_ok h with ⟨-, hnone⟩ | ⟨v, w, hv, hw, hcheck⟩
    · rw [hs] at hnone
      cases hnone
    · obtain rfl := Option.some.inj (hs.symm.trans hw)
      rw [hv, scheduleFits_iff (withSchedule (withBody checked job) s) hcheck rfl
        (derivedColumns_withSchedule _ s)]
      constructor
      · intro hfits e he _
        obtain rfl := Option.some.inj he
        exact hfits hne
      · intro hfits _
        refine hfits v rfl ?_
        rw [hcheck]
        exact fun heq ↦ hne (Except.ok.inj heq)

theorem updated_fits_iff {body : CronJobUpdate}
    (h : Api.CronJobs.updateCronJob sender id body db = .ok db') (hlive : db.liveJob id = some job) :
    (∃ row, db'.cronJobs.get? id = some row ∧ (row.name ≠ job.name → NameFits row.name) ∧
        (row.scheduleExpression ≠ job.scheduleExpression → ScheduleFits row)) ↔
      (∀ n, body.name = some n → CronJob.name n ≠ .ok job.name → 3 ≤ (strip n).length) ∧
      ∀ e, body.scheduleExpression = some e →
        CronJob.scheduleExpression e ≠ .ok job.scheduleExpression → Narrow e := by
  obtain ⟨checked, job', edited, t, hvalid, hlive', hedited, hset⟩ := updateCronJob_stores h
  obtain rfl := Option.some.inj (hlive.symm.trans hlive')
  obtain ⟨hname, -, -, hschedule, -⟩ := CronJobUpdate.validate_fields hvalid
  have hget : db'.cronJobs.get? id = some { edited with updatedAt := t } := by
    rw [hset, Table.get?_set_self]
  have hedited_name : edited.name = checked.name.getD job.name := by
    rcases hedited with ⟨-, rfl⟩ | ⟨s, -, -, rfl⟩ <;> rfl
  have hfits : ScheduleFits { edited with updatedAt := t } ↔ ScheduleFits edited :=
    ⟨fun h ↦ ⟨h.expression, h.columns⟩, fun h ↦ ⟨h.expression, h.columns⟩⟩
  rw [← updated_name_iff hname, ← updated_schedule_iff hschedule hedited, ← hedited_name, ← hfits]
  constructor
  · intro hrow
    obtain ⟨row, hrow, hall⟩ := hrow
    obtain rfl := Option.some.inj (hget.symm.trans hrow)
    exact hall
  · intro hall
    exact ⟨_, hget, hall⟩

end

/-- What a request for a job writes fits its columns exactly when its name is long enough
once stripped and each list of its schedule is narrow. -/
theorem written_values_fit_iff (db : Database) (sender : Sender) :
    (∀ body id db', Api.CronJobs.createCronJob sender body db = .ok (id, db') →
      ((∃ row, db'.cronJobs.get? id = some row ∧ NameFits row.name ∧ ScheduleFits row) ↔
        3 ≤ (strip body.name).length ∧ Narrow body.scheduleExpression)) ∧
    ∀ body id db' job, Api.CronJobs.updateCronJob sender id body db = .ok db' →
      db.liveJob id = some job →
      ((∃ row, db'.cronJobs.get? id = some row ∧ (row.name ≠ job.name → NameFits row.name) ∧
          (row.scheduleExpression ≠ job.scheduleExpression → ScheduleFits row)) ↔
        (∀ n, body.name = some n → CronJob.name n ≠ .ok job.name → 3 ≤ (strip n).length) ∧
        ∀ e, body.scheduleExpression = some e →
          CronJob.scheduleExpression e ≠ .ok job.scheduleExpression → Narrow e) :=
  ⟨fun _ _ _ h ↦ created_fits_iff h, fun _ _ _ _ h hlive ↦ updated_fits_iff h hlive⟩

section Sample

/-- A name of one letter after two blanks. -/
def shortName : CronJobCreate :=
  { name := "  a".toList, command := "backup".toList, scheduleExpression := "0 9 * * *".toList }

def longMinutes : CronJobUpdate :=
  { scheduleExpression := some "0,5,10,15,20,25,30,35 9 * * *".toList }

theorem create_shortName :
    ∃ id db' row, Api.CronJobs.createCronJob ⟨1, 5, none⟩ shortName sample = .ok (id, db') ∧
      db'.cronJobs.get? id = some row ∧ row.name = ['a'] := by
  have hrun : ((Api.CronJobs.createCronJob ⟨1, 5, none⟩ shortName sample).toOption.bind fun r ↦
      (r.2.cronJobs.get? r.1).map Data.Records.CronJob.name) = some ['a'] := by decide +kernel
  obtain ⟨⟨id, db'⟩, hcreate, hrow⟩ := Option.bind_eq_some_iff.mp hrun
  obtain ⟨row, hget, hname⟩ := Option.map_eq_some_iff.mp hrow
  exact ⟨id, db', row, toOption_eq_some.mp hcreate, hget, hname⟩

theorem update_longMinutes :
    ∃ db' row, Api.CronJobs.updateCronJob ⟨1, 5, none⟩ 1 longMinutes sample = .ok db' ∧
      db'.cronJobs.get? 1 = some row ∧ row.minute = "0,5,10,15,20,25,30,35".toList ∧
      row.scheduleExpression = "0,5,10,15,20,25,30,35 9 * * *".toList := by
  have hrun : ((Api.CronJobs.updateCronJob ⟨1, 5, none⟩ 1 longMinutes sample).toOption.bind fun db ↦
      (db.cronJobs.get? 1).map fun job ↦ (job.minute, job.scheduleExpression)) =
      some ("0,5,10,15,20,25,30,35".toList, "0,5,10,15,20,25,30,35 9 * * *".toList) := by
    decide +kernel
  obtain ⟨db', hupdate, hrow⟩ := Option.bind_eq_some_iff.mp hrun
  obtain ⟨row, hget, hpair⟩ := Option.map_eq_some_iff.mp hrow
  obtain ⟨hminute, hexpression⟩ := Prod.mk.inj hpair
  exact ⟨db', row, toOption_eq_some.mp hupdate, hget, hminute, hexpression⟩

/-- A name can be stored that is too short, and a column that is too long. -/
theorem written_values_too_short_or_long :
    (∃ id db' row, Api.CronJobs.createCronJob ⟨1, 5, none⟩ shortName sample = .ok (id, db') ∧
      db'.cronJobs.get? id = some row ∧ ¬NameFits row.name) ∧
    ∃ db' row, Api.CronJobs.updateCronJob ⟨1, 5, none⟩ 1 longMinutes sample = .ok db' ∧
      db'.cronJobs.get? 1 = some row ∧
      row.scheduleExpression ≠ sampleJob.scheduleExpression ∧ ¬ScheduleFits row := by
  obtain ⟨id, db', row, hcreate, hget, hname⟩ := create_shortName
  obtain ⟨db₁, row₁, hupdate, hget₁, hminute, hexpression⟩ := update_longMinutes
  refine ⟨⟨id, db', row, hcreate, hget, ?_⟩, db₁, row₁, hupdate, hget₁, ?_, ?_⟩
  · rw [hname]
    exact fun hfits ↦ absurd hfits.1 (by decide)
  · rw [hexpression]
    decide
  · intro hfits
    have hle := hfits.columns row₁.minute List.mem_cons_self
    rw [hminute] at hle
    revert hle
    decide

theorem written_values_fit_iff_sample :
    (∃ id db', Api.CronJobs.createCronJob ⟨1, 5, none⟩ shortName sample = .ok (id, db') ∧
      ((∃ row, db'.cronJobs.get? id = some row ∧ NameFits row.name ∧ ScheduleFits row) ↔
        3 ≤ (strip shortName.name).length ∧ Narrow shortName.scheduleExpression)) ∧
    ∃ db', Api.CronJobs.updateCronJob ⟨1, 5, none⟩ 1 longMinutes sample = .ok db' ∧
      ((∃ row, db'.cronJobs.get? 1 = some row ∧
          (row.name ≠ sampleJob.name → NameFits row.name) ∧
          (row.scheduleExpression ≠ sampleJob.scheduleExpression → ScheduleFits row)) ↔
        (∀ n, longMinutes.name = some n → CronJob.name n ≠ .ok sampleJob.name →
          3 ≤ (strip n).length) ∧
        ∀ e, longMinutes.scheduleExpression = some e →
          CronJob.scheduleExpression e ≠ .ok sampleJob.scheduleExpression → Narrow e) := by
  obtain ⟨id, db', row, hcreate, -, -⟩ := create_shortName
  obtain ⟨db₁, row₁, hupdate, -, -, -⟩ := update_longMinutes
  have hlive : sample.liveJob 1 = some sampleJob := rfl
  obtain ⟨hcreated, hupdated⟩ := written_values_fit_iff sample ⟨1, 5, none⟩
  exact ⟨⟨id, db', hcreate, hcreated shortName id db' hcreate⟩, db₁, hupdate,
    hupdated longMinutes 1 db₁ sampleJob hupdate hlive⟩

end Sample

end CronPanel.Access.Limits
