import CronPanel.Api.Executions
import CronPanel.Execution.Allowlist

namespace CronPanel.Access.Validation

open Library.Strings Library.Tables Library.Fallible Library.Files Data.Records Data.Repositories
open Schemas.Bodies Execution.Policy Execution.Allowlist Services.CronJobs Services.Scripts
open Services.Executions Api.Errors Api.Executions

/-- The operations on scripts and the execution of jobs answer a path with an error. -/
structure Refused (host : Host) (raw : Text) (answer : HttpError) : Prop where
  create : ∀ call body db, body.path = raw →
    (createScript call host body db).mapError ofScriptError = .error answer
  update : ∀ call id body db script, db.liveScript id = some script →
    Succeeds (setName db id body.name script.name) → body.path = some raw → raw ≠ script.path →
    (updateScript call host id body db).mapError ofScriptError = .error answer
  execute : ∀ db job id script, job.scriptId = some id → db.scripts.get? id = some script →
    script.isDeleted = false → script.isEnabled → script.path = raw →
    (resolveScript host db job).mapError ofExecutionError = .error answer

/-- A path is that of a regular file strictly below the allow-list root, or is refused by an error
of the policy, which the operations answer with the status 400. -/
def Answered (machine : Machine) (raw : Text) : Prop :=
  (∃ path files root, machine.canonicalizeScriptPath raw = .ok (path, files) ∧
    machine.scriptsDir = .ok root ∧ files.isFile path ∧ root <+: path ∧ path ≠ root) ∨
  ∃ e code message, machine.canonicalizeScriptPath raw = .error (.path e) ∧
    e.code = some code ∧ e.message = some message ∧
    ∀ root files, ensureAllowlistDir machine = .ok (root, files) →
      Refused (machine.host root files) raw (.detail 400 code message)

/-- A path is not absolute, or the allow-list root can be made and the names of the path then lead
to a place or to a name that is missing. -/
def Clear (machine : Machine) (raw : Text) : Prop :=
  (strip raw).head? ≠ some '/' ∨
    ∃ root, machine.scriptsDir = .ok root ∧ machine.files.Makeable [] root ∧
      ∀ files, FileTree.makeDirs [] root machine.files = .ok files →
        ∃ found, files.Leads files.linkMax [] (components (strip raw)) found

section

variable {machine : Machine} {host : Host} {raw : Text} {root : Path} {files : FileTree}

theorem refused_of_error {e : PathError} (h : canonicalizeScriptPath host raw = .error e) :
    Refused host raw (ofPathError e) := by
  have hcanonical : canonicalize host raw = .error (.path e) := by
    rw [canonicalize, h]
  refine ⟨?_, ?_, ?_⟩
  · intro call body db hpath
    subst hpath
    rw [createScript, hcanonical]
    rfl
  · intro call id body db script hlive hname hpath hne
    obtain ⟨named, hname⟩ := hname
    have hget : getScript db id = .ok script := by
      rw [getScript, hlive]
      rfl
    have hset : setPath host body.path script.path = .error (.path e) := by
      rw [hpath, setPath, if_neg hne, hcanonical]
      rfl
    rw [updateScript, hget, ok_bind, editScript, hname, ok_bind, hset]
    rfl
  · intro db job id script hid hscript hkept henabled hpath
    subst hpath
    rw [resolveScript_available host hid hscript hkept henabled, h]
    rfl

theorem answered_of_error {e : PathError} {code message : Text}
    (h : machine.canonicalizeScriptPath raw = .error (.path e))
    (hhost : ∀ root files, ensureAllowlistDir machine = .ok (root, files) →
      canonicalizeScriptPath (machine.host root files) raw = .error e)
    (hcode : e.code = some code) (hmessage : e.message = some message) : Answered machine raw := by
  refine .inr ⟨e, code, message, h, hcode, hmessage, ?_⟩
  intro root files hroot
  have hrefused := refused_of_error (hhost root files hroot)
  rwa [ofPathError, hcode, hmessage] at hrefused

theorem host_resolve (machine : Machine) (root : Path) (files : FileTree) (hraw : '\x00' ∉ raw) :
    (machine.host root files).resolve (strip raw) =
      (files.resolve true (strip raw)).mapError ofLookup := by
  have hnul : (strip raw).contains '\x00' = false := by
    rw [Bool.eq_false_iff, ne_eq, List.contains_iff_mem]
    exact fun h ↦ hraw (mem_strip h)
  rw [Machine.host]
  dsimp only
  rw [hnul, if_neg Bool.false_ne_true]

/-- A path whose names lead somewhere, or to a missing name, is accepted or refused by name. -/
theorem canonicalizeScriptPath_of_leads (machine : Machine) (root : Path) {found : Option Path}
    (hraw : '\x00' ∉ raw)
    (habsolute : (strip raw).head? = some '/')
    (h : files.Leads files.linkMax [] (components (strip raw)) found) :
    (∃ path, canonicalizeScriptPath (machine.host root files) raw = .ok path ∧
      files.isFile path ∧ root <+: path) ∨
    canonicalizeScriptPath (machine.host root files) raw = .error .fileMissing ∨
    canonicalizeScriptPath (machine.host root files) raw = .error .outsideAllowlist := by
  have hresolve : (machine.host root files).resolve (strip raw) =
      (FileTree.answer found).mapError ofLookup := by
    rw [host_resolve machine root files hraw, FileTree.resolve_iff.mpr h]
  unfold canonicalizeScriptPath
  rw [if_neg (not_not.mpr habsolute), hresolve]
  cases found with
  | none => exact .inr (.inl rfl)
  | some path =>
    simp only [FileTree.answer, Option.elim_some, Except.mapError]
    by_cases hroot : (machine.host root files).scriptsDir <+: path
    · rw [if_neg (not_not.mpr hroot)]
      by_cases hfile : (machine.host root files).isFile path
      · rw [if_pos hfile]
        exact .inl ⟨path, rfl, hfile, hroot⟩
      · rw [if_neg hfile]
        exact .inr (.inl rfl)
    · rw [if_pos hroot]
      exact .inr (.inr rfl)

/-- A path whose names come to anything else is let through as another exception. -/
theorem canonicalizeScriptPath_of_not_leads (machine : Machine) (root : Path) (hraw : '\x00' ∉ raw)
    (habsolute : (strip raw).head? = some '/')
    (h : ¬∃ found, files.Leads files.linkMax [] (components (strip raw)) found) :
    ∃ e, canonicalizeScriptPath (machine.host root files) raw = .error (.raised e) := by
  have hresolve := host_resolve machine root files hraw
  unfold canonicalizeScriptPath
  rw [if_neg (not_not.mpr habsolute), hresolve]
  cases hlast : files.resolve true (strip raw) with
  | ok last => exact absurd ⟨some last, FileTree.resolve_iff.mp hlast⟩ h
  | error e =>
    cases e with
    | fileNotFound => exact absurd ⟨none, FileTree.resolve_iff.mp hlast⟩ h
    | _ => exact ⟨_, rfl⟩

theorem canonicalizeScriptPath_eq (habsolute : (strip raw).head? = some '/')
    (h : ensureAllowlistDir machine = .ok (root, files)) :
    machine.canonicalizeScriptPath raw =
      ((canonicalizeScriptPath (machine.host root files) raw).mapError ValidationError.path).bind
        fun path ↦ .ok (path, files) := by
  rw [Machine.canonicalizeScriptPath, if_neg (not_not.mpr habsolute), h]
  rfl

theorem answered_of_not_absolute (h : (strip raw).head? ≠ some '/') : Answered machine raw := by
  have hhost (host : Host) : canonicalizeScriptPath host raw = .error .notAbsolute := if_pos h
  have hmachine : machine.canonicalizeScriptPath raw = .error (.path .notAbsolute) := if_pos h
  exact answered_of_error hmachine (fun _ _ _ ↦ hhost _) rfl rfl

theorem answered_of_leads {found : Option Path} (hraw : '\x00' ∉ raw)
    (habsolute : (strip raw).head? = some '/')
    (hensure : ensureAllowlistDir machine = .ok (root, files))
    (h : files.Leads files.linkMax [] (components (strip raw)) found) : Answered machine raw := by
  have heq := canonicalizeScriptPath_eq habsolute hensure
  have hhost {e : PathError}
      (he : canonicalizeScriptPath (machine.host root files) raw = .error e) (root' : Path)
      (files' : FileTree) (hensure' : ensureAllowlistDir machine = .ok (root', files')) :
      canonicalizeScriptPath (machine.host root' files') raw = .error e := by
    rw [hensure] at hensure'
    cases hensure'
    exact he
  obtain ⟨hroot, hmake⟩ := ensureAllowlistDir_ok hensure
  rcases canonicalizeScriptPath_of_leads machine root hraw habsolute h with
    ⟨path, hpath, hfile, hbelow⟩ | hmissing | houtside
  · refine .inl ⟨path, files, root, ?_, hroot, hfile, hbelow, ?_⟩
    · rw [heq, hpath]
      rfl
    · intro hsame
      obtain ⟨searchable, writable, hdirectory⟩ := (ensureAllowlistDir_root hensure).2.2
      rw [FileTree.isFile, hsame, hdirectory] at hfile
      cases hfile
  · refine answered_of_error ?_ (hhost hmissing) rfl rfl
    rw [heq, hmissing]
    rfl
  · refine answered_of_error ?_ (hhost houtside) rfl rfl
    rw [heq, houtside]
    rfl

theorem not_answered {e : ValidationError} (h : machine.canonicalizeScriptPath raw = .error e)
    (he : ∀ error, e = .path error → error.code = none) : ¬Answered machine raw := by
  intro hanswered
  rcases hanswered with ⟨path, files, root, hok, -⟩ | ⟨error, code, message, herror, hcode, -⟩
  · cases h.symm.trans hok
  · have hnone := he error (Except.error.inj (h.symm.trans herror))
    rw [hnone] at hcode
    cases hcode

/-- Validation answers a path exactly when the path is clear. -/
theorem answered_iff (machine : Machine) (raw : Text) (hraw : '\x00' ∉ raw) :
    Answered machine raw ↔ Clear machine raw := by
  by_cases habsolute : (strip raw).head? = some '/'
  · by_cases hensure : Succeeds (ensureAllowlistDir machine)
    · obtain ⟨⟨root, files⟩, hensure⟩ := hensure
      obtain ⟨hroot, hmake⟩ := ensureAllowlistDir_ok hensure
      have hmakeable := (FileTree.makeDirs_iff machine.files.root).mp ⟨files, hmake⟩
      constructor
      · intro hanswered
        refine .inr ⟨root, hroot, hmakeable, ?_⟩
        intro files' hmake'
        rw [hmake] at hmake'
        cases hmake'
        by_contra hlost
        obtain ⟨e, he⟩ := canonicalizeScriptPath_of_not_leads machine root hraw habsolute hlost
        refine not_answered (e := .path (.raised e)) ?_ ?_ hanswered
        · rw [canonicalizeScriptPath_eq habsolute hensure, he]
          rfl
        · intro error herror
          cases herror
          rfl
      · intro hclear
        rcases hclear with hrelative | ⟨root', hroot', -, hleads⟩
        · exact absurd habsolute hrelative
        · rw [hroot] at hroot'
          cases hroot'
          obtain ⟨found, hleads⟩ := hleads files hmake
          exact answered_of_leads hraw habsolute hensure hleads
    · refine iff_of_false ?_ ?_
      · cases hfailed : ensureAllowlistDir machine with
        | ok r => exact absurd ⟨r, hfailed⟩ hensure
        | error e =>
          have hother := ensureAllowlistDir_error hfailed
          refine not_answered (e := e) ?_ fun error he ↦ absurd he (hother error)
          rw [Machine.canonicalizeScriptPath, if_neg (not_not.mpr habsolute), hfailed]
          rfl
      · intro hclear
        rcases hclear with hrelative | ⟨root, hroot, hmakeable, -⟩
        · exact hrelative habsolute
        · exact hensure (ensureAllowlistDir_iff.mpr ⟨root, hroot, hmakeable⟩)
  · exact iff_of_true (answered_of_not_absolute habsolute) (.inl habsolute)

end

section Sample

/-- One script stands in the directory of scripts. -/
def sampleNode (path : Names) : Option Node :=
  if path = [] ∨ path = ["scripts".toList] then some (.directory true true)
  else if path = ["scripts".toList, "backup.py".toList] then some (.file false)
  else none

def sampleFiles : FileTree where
  node := sampleNode
  nameMax := 255
  linkMax := 40
  root := ⟨true, true, rfl⟩
  parent := by
    intro path name h
    have hcases : path ++ [name] = [] ++ ["scripts".toList] ∨
        path ++ [name] = ["scripts".toList] ++ ["backup.py".toList] := by
      by_contra hother
      rw [not_or] at hother
      have hneither : ¬(path ++ [name] = [] ∨ path ++ [name] = ["scripts".toList]) :=
        not_or.mpr ⟨by simp, hother.1⟩
      exact h ((if_neg hneither).trans (if_neg hother.2))
    rcases hcases with heq | heq
    · obtain ⟨rfl, -⟩ := List.append_inj' heq rfl
      exact ⟨true, true, rfl⟩
    · obtain ⟨rfl, -⟩ := List.append_inj' heq rfl
      exact ⟨true, true, rfl⟩

def sampleMachine : Machine := ⟨sampleFiles, "/scripts".toList, "/usr/bin/python3".toList⟩

/-- A path on which a file is used as a directory is not answered. -/
theorem file_as_directory_escapes :
    ¬∀ (machine : Machine) (raw : Text), '\x00' ∉ raw → Answered machine raw := by
  intro h
  have hescapes : sampleMachine.canonicalizeScriptPath "/scripts/backup.py/main.py".toList =
      .error (.path (.raised .notADirectory)) := rfl
  refine not_answered hescapes ?_ (h sampleMachine "/scripts/backup.py/main.py".toList (by decide))
  intro error herror
  cases herror
  rfl

/-- The path of the script is clear and answered. -/
theorem script_answered : Answered sampleMachine "/scripts/backup.py".toList := by
  have hdirectory : sampleFiles.Searched [] "scripts".toList (some (.directory true true)) :=
    ⟨⟨true, rfl⟩, by decide, rfl⟩
  refine (answered_iff sampleMachine "/scripts/backup.py".toList (by decide)).mpr (.inr ?_)
  refine ⟨["scripts".toList], rfl, .enter hdirectory .there, ?_⟩
  intro files hfiles
  obtain rfl : sampleFiles = files := Except.ok.inj hfiles
  exact ⟨some ["scripts".toList, "backup.py".toList], FileTree.resolve_iff.mp rfl⟩

end Sample

end CronPanel.Access.Validation
