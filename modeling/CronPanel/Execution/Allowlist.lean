import CronPanel.Library.Files
import CronPanel.Execution.Policy

namespace CronPanel.Execution.Allowlist

open Library.Strings Library.Fallible Library.Files Policy

/-- The machine of the panel, with the setting `EXECUTION_SCRIPTS_DIR` as an absolute path. -/
structure Machine where
  files : FileTree
  executionScriptsDir : Text
  sysExecutable : Text

/-- What `canonicalize_script_path` raises: an error of the policy, or what it lets through from
the allow-list root. -/
inductive ValidationError
  | path (error : PathError)
  | executionScriptsDir (error : LookupError)
  | mkdir (error : MkdirError)
  deriving DecidableEq, Repr

def ofLookup : LookupError → ResolveError
  | .fileNotFound => .fileNotFound
  | .notADirectory => .notADirectory
  | .permissionDenied => .permissionDenied
  | .nameTooLong => .nameTooLong
  | .symlinkLoop => .symlinkLoop

/-- The host with an allow-list root and files. -/
def Machine.host (machine : Machine) (root : Path) (files : FileTree) : Host where
  win32 := false
  sysExecutable := machine.sysExecutable
  scriptsDir := root
  resolve raw :=
    if raw.contains '\x00' then .error .embeddedNull
    else (files.resolve true raw).mapError ofLookup
  isFile := files.isFile
  executable := files.isExecutable

/-- The property `execution_scripts_dir`. -/
def Machine.scriptsDir (machine : Machine) : Except LookupError Path :=
  machine.files.resolve false machine.executionScriptsDir

/-- The allow-list root, and the files once it is there. -/
def ensureAllowlistDir (machine : Machine) : Except ValidationError (Path × FileTree) := do
  let root ← machine.scriptsDir.mapError .executionScriptsDir
  let files ← (FileTree.makeDirs [] root machine.files).mapError .mkdir
  .ok (root, files)

/-- `canonicalize_script_path`, with what it does to the files of the machine. -/
def Machine.canonicalizeScriptPath (machine : Machine) (rawPath : Text) :
    Except ValidationError (Path × FileTree) :=
  if (strip rawPath).head? ≠ some '/' then .error (.path .notAbsolute)
  else do
    let (root, files) ← ensureAllowlistDir machine
    let path ← (Policy.canonicalizeScriptPath (machine.host root files) rawPath).mapError .path
    .ok (path, files)

section

variable {machine : Machine} {raw : Text} {root : Path} {files : FileTree}

theorem ensureAllowlistDir_ok (h : ensureAllowlistDir machine = .ok (root, files)) :
    machine.scriptsDir = .ok root ∧ FileTree.makeDirs [] root machine.files = .ok files := by
  obtain ⟨root', hroot, h⟩ := bind_eq_ok.mp h
  obtain ⟨files', hfiles, h⟩ := bind_eq_ok.mp h
  cases h
  exact ⟨mapError_eq_ok.mp hroot, mapError_eq_ok.mp hfiles⟩

/-- The root is there, and has no link on it, once it is ensured. -/
theorem ensureAllowlistDir_root (h : ensureAllowlistDir machine = .ok (root, files)) :
    machine.files.Linkless root ∧ machine.files.Extends files ∧ files.IsDirectory root := by
  obtain ⟨hroot, hmake⟩ := ensureAllowlistDir_ok h
  exact ⟨FileTree.resolve_linkless hroot, FileTree.makeDirs_ok hmake machine.files.root⟩

theorem ensureAllowlistDir_iff :
    Succeeds (ensureAllowlistDir machine) ↔
      ∃ root, machine.scriptsDir = .ok root ∧ machine.files.Makeable [] root := by
  constructor
  · intro h
    obtain ⟨⟨root, files⟩, h⟩ := h
    obtain ⟨hroot, hmake⟩ := ensureAllowlistDir_ok h
    exact ⟨root, hroot, (FileTree.makeDirs_iff machine.files.root).mp ⟨files, hmake⟩⟩
  · intro h
    obtain ⟨root, hroot, hmakeable⟩ := h
    obtain ⟨files, hmake⟩ := (FileTree.makeDirs_iff machine.files.root).mpr hmakeable
    refine ⟨(root, files), ?_⟩
    simp only [ensureAllowlistDir, hroot, Except.mapError, ok_bind, hmake]

theorem ensureAllowlistDir_error {e : ValidationError} (h : ensureAllowlistDir machine = .error e) :
    ∀ error, e ≠ .path error := by
  intro error he
  subst he
  unfold ensureAllowlistDir at h
  cases hroot : machine.scriptsDir with
  | error e =>
    rw [hroot] at h
    cases h
  | ok root =>
    simp only [hroot, Except.mapError, ok_bind] at h
    cases hmake : FileTree.makeDirs [] root machine.files with
    | error e =>
      rw [hmake] at h
      cases h
    | ok files =>
      rw [hmake] at h
      cases h

theorem mem_strip {c : Char} (h : c ∈ strip raw) : c ∈ raw := by
  have hrest : c ∈ raw.dropWhile isSpace := (List.rdropWhile_prefix isSpace _).subset h
  exact (List.dropWhile_suffix isSpace).subset hrest

end

end CronPanel.Execution.Allowlist
