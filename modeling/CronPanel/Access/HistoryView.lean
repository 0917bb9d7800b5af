import CronPanel.Access.Ledger
import CronPanel.Access.Updates
import CronPanel.Frontend.Cronjobs

namespace CronPanel.Access.HistoryView

open Library.Strings Library.JsonData Library.JsonText Library.Fallible Library.Diffs
open Cron.Elements Data.Records Schemas.Bodies Services.CronJobs Services.Columns Services.History
open Api.CronJobs Frontend.Cronjobs Scheduler.Eligibility
open Ledger (parse_serializeChanges)
open Updates (editable Edited.eq_of_editable)

/-- The field of a response that the browser parses from its text. -/
def transport (value : Option Json) : Option Json := value.bind fun json ↦ loads (dumps json)

/-- The lines that the history shows of an entry. -/
def shownLines (changes : Option Text) : Option (List Text) :=
  historyLines (transport (parseChanges changes))

/-- Each column that differs has its line, with the values before and after. -/
def ShowsChanges (job edited : CronJob) (shown : Option (List Text)) : Prop :=
  ∃ lines, shown = some lines ∧ ∀ column, columns job column ≠ columns edited column →
    changeLine column.text (columns job column) (columns edited column) ∈ lines

section

variable {job edited : CronJob} {body : CronJobUpdate} {changes : List Change}

theorem colon_not_mem_text (column : Column) : ':' ∉ column.text := by
  cases column <;> decide

/-- The view looks for other keys than those that are written, and finds none. -/
theorem shownLines_serializeChanges (h : Recordable changes) (hne : changes ≠ []) :
    shownLines (serializeChanges changes) =
      some (changes.map fun change ↦ changeLine change.field .null .null) := by
  have htransport : transport (some (changesJson changes)) = some (changesJson changes) :=
    loads_dumps h.distinct
  unfold shownLines
  rw [parse_serializeChanges h, if_neg hne, htransport]
  simp only [historyLines, changesJson, List.mapM_map]
  exact List.mapM_pure

theorem editable_eq {a b : CronJob} (h : columns a = columns b) : editable a = editable b := by
  have hname := text_injective (congrFun h .name)
  have hcommand := text_injective (congrFun h .command)
  have hexpression := text_injective (congrFun h .scheduleExpression)
  have hdescription := ofOption_injective text_injective (fun _ he ↦ Json.noConfusion he)
    (congrFun h .description)
  have hscript := ofOption_injective natural_injective (fun _ he ↦ Json.noConfusion he)
    (congrFun h .scriptId)
  rw [editable, editable, hname, hdescription, hcommand, hexpression, hscript]

theorem exists_changed (hbody : ∀ t, body.scheduleExpression = some t → ∃ s : Schedule, t = s.text)
    (h : editCronJob body job = .ok (edited, changes)) (hne : changes ≠ []) :
    ∃ column, columns job column ≠ columns edited column := by
  by_contra hsame
  have hcolumns : columns job = columns edited := by
    funext column
    by_contra hdiffers
    exact hsame ⟨column, hdiffers⟩
  have hedited := editCronJob_edited hbody h
  have hrow := Edited.eq_of_editable hedited (editable_eq hcolumns.symm)
  rw [hrow] at h
  exact hne (editCronJob_same hbody h)

/-- The fields of the changes are columns. -/
theorem column_of_change (hbody : ∀ t, body.scheduleExpression = some t → ∃ s : Schedule, t = s.text)
    (h : editCronJob body job = .ok (edited, changes)) {change : Change} (hmem : change ∈ changes) :
    ∃ column : Column, change.field = column.text := by
  obtain ⟨ds, rfl, -⟩ := editCronJob_leads hbody h
  obtain ⟨d, -, rfl⟩ := List.mem_map.mp hmem
  exact ⟨d.field, rfl⟩

end

/-- Whatever an update records, the history shows its fields with two nulls, and no line of
a field that has changed. -/
theorem history_shows_nulls {body checked : CronJobUpdate} {job edited : CronJob}
    {changes : List Change} (hvalid : body.validate = .ok checked)
    (h : editCronJob checked job = .ok (edited, changes)) (hne : changes ≠ []) :
    shownLines (serializeChanges changes) =
        some (changes.map fun change ↦ changeLine change.field .null .null) ∧
      ¬ShowsChanges job edited (shownLines (serializeChanges changes)) := by
  have htexts := Updates.validate_texts hvalid
  have hshown := shownLines_serializeChanges (editCronJob_recordable h) hne
  refine ⟨hshown, ?_⟩
  intro hshows
  obtain ⟨lines, hlines, hall⟩ := hshows
  rw [hshown] at hlines
  obtain rfl := Option.some.inj hlines
  obtain ⟨column, hchanged⟩ := exists_changed htexts h hne
  obtain ⟨change, hmem, hline⟩ := List.mem_map.mp (hall column hchanged)
  obtain ⟨column', hfield⟩ := column_of_change htexts h hmem
  rw [hfield] at hline
  obtain ⟨hold, hnew⟩ :=
    changeLine_null (colon_not_mem_text column) (colon_not_mem_text column') hline.symm
  exact hchanged (hold.trans hnew.symm)

section Sample

def weeklyName : CronJobUpdate := { name := some "weekly".toList }

def weeklyChanges : List Change :=
  [⟨"name".toList, .text "nightly".toList, .text "weekly".toList⟩]

def weeklyJob : CronJob := { sampleJob with name := "weekly".toList }

/-- The history shows a renamed job without its names. -/
theorem rename_shown_as_null :
    editCronJob weeklyName sampleJob = .ok (weeklyJob, weeklyChanges) ∧
      changeLine "name".toList (columns sampleJob .name) (columns weeklyJob .name) =
        "name: \"nightly\" → \"weekly\"".toList ∧
      shownLines (serializeChanges weeklyChanges) = some ["name: null → null".toList] ∧
      ¬ShowsChanges sampleJob weeklyJob (shownLines (serializeChanges weeklyChanges)) := by
  have hedit : editCronJob weeklyName sampleJob = .ok (weeklyJob, weeklyChanges) := rfl
  have hshown : shownLines (serializeChanges weeklyChanges) = some ["name: null → null".toList] :=
    shownLines_serializeChanges (editCronJob_recordable hedit) (List.cons_ne_nil _ _)
  refine ⟨hedit, rfl, hshown, ?_⟩
  rw [hshown]
  intro h
  obtain ⟨lines, hlines, hall⟩ := h
  obtain rfl := Option.some.inj hlines
  have hline := hall .name (fun he ↦ absurd (text_injective he) (by decide))
  revert hline
  decide

theorem history_shows_nulls_weekly :
    shownLines (serializeChanges weeklyChanges) =
        some (weeklyChanges.map fun change ↦ changeLine change.field .null .null) ∧
      ¬ShowsChanges sampleJob weeklyJob (shownLines (serializeChanges weeklyChanges)) := by
  have hvalid : weeklyName.validate = .ok weeklyName := rfl
  have hedit : editCronJob weeklyName sampleJob = .ok (weeklyJob, weeklyChanges) := rfl
  exact history_shows_nulls hvalid hedit (List.cons_ne_nil _ _)

end Sample

end CronPanel.Access.HistoryView
