import CronPanel.Library.Fallible
import CronPanel.Execution.Policy

namespace CronPanel.Execution.Executor

open Library.Strings Library.Fallible Policy

structure ExecutionResult where
  exitCode : Option ℤ
  stdout : Text
  stderr : Text
  durationMs : ℕ
  timedOut : Bool
  error : Option Text
  deriving DecidableEq

/-- How `subprocess.run` ends, with the output already decoded. -/
inductive ProcessOutcome
  | completed (returncode : ℤ) (stdout stderr : Text)
  | timeoutExpired (stdout stderr : Text)
  | osError (reason description : Text)
  | raised
  deriving DecidableEq

/-- What `execute_script` raises: an error of the policy, or one of the process call
that its `except` clauses do not name. -/
inductive ExecuteError
  | path (error : PathError)
  | unexpected
  deriving DecidableEq, Repr

def resolveArgv (host : Host) (scriptPath : Path) : Except PathError (List Text) := do
  let strategy ← validateSupportedScriptType host scriptPath
  match strategy with
  | .python => .ok [host.sysExecutable, scriptPath.text]
  | .binary | .script => .ok [scriptPath.text]

/-- `_minimal_env` with the environment of the application. -/
def minimalEnv (host : Host) (environ : Text → Option Text) : List (Text × Text) :=
  let paths := (environ "PATH".toList).getD []
  if host.win32 then
    [("SystemRoot".toList, (environ "SystemRoot".toList).getD "C:\\Windows".toList), ("PATH".toList, paths),
      ("SYSTEMDRIVE".toList, (environ "SYSTEMDRIVE".toList).getD "C:".toList)]
  else
    [("PATH".toList, "/usr/bin:/bin:/usr/local/bin".toList), ("LANG".toList, "C.UTF-8".toList),
      ("LC_ALL".toList, "C.UTF-8".toList)]

/-- What a call of `subprocess.run` is given. -/
structure Launch where
  argv : List Text
  cwd : Text
  env : List (Text × Text)
  deriving DecidableEq

/-- The call of `subprocess.run` that `execute_script` makes. -/
def launch (host : Host) (environ : Text → Option Text) (scriptPath : Path) :
    Except PathError Launch := do
  let argv ← resolveArgv host scriptPath
  .ok ⟨argv, Path.text scriptPath.dropLast, minimalEnv host environ⟩

def truncationMarker : Text := "…\n[output truncated]".toList

def capOutput (text : Text) (maxChars : ℕ) : Text :=
  if text.length ≤ maxChars then text
  else if maxChars ≤ truncationMarker.length + 1 then text.take maxChars
  else text.take (maxChars - truncationMarker.length - 1) ++ truncationMarker

/-- `execute_script` around the process that its argument list starts. -/
def executeScript (host : Host) (scriptPath : Path) (outputMaxChars durationMs : ℕ)
    (run : List Text → ProcessOutcome) : Except ExecuteError ExecutionResult :=
  match resolveArgv host scriptPath with
  | .error e => .error (.path e)
  | .ok argv =>
    match run argv with
    | .completed returncode stdout stderr =>
      .ok
        { exitCode := some returncode
          stdout := capOutput stdout outputMaxChars
          stderr := capOutput stderr outputMaxChars
          durationMs
          timedOut := false
          error := none }
    | .timeoutExpired stdout stderr =>
      .ok
        { exitCode := none
          stdout := capOutput stdout outputMaxChars
          stderr := capOutput (stderr ++ "\n[killed by executor: timeout]".toList) outputMaxChars
          durationMs
          timedOut := true
          error := some "timeout_expired".toList }
    | .osError reason description =>
      .ok
        { exitCode := none
          stdout := []
          stderr := capOutput description outputMaxChars
          durationMs
          timedOut := false
          error := some ("cannot_run:".toList ++ reason) }
    | .raised => .error .unexpected

theorem resolveArgv_ok {host : Host} {path : Path} {argv : List Text}
    (h : resolveArgv host path = .ok argv) :
    argv = [host.sysExecutable, path.text] ∨ argv = [path.text] := by
  obtain ⟨strategy, -, h⟩ := bind_eq_ok.mp h
  cases strategy with
  | python =>
    cases h
    exact .inl rfl
  | binary =>
    cases h
    exact .inr rfl
  | script =>
    cases h
    exact .inr rfl

/-- The process that is started is the only one whose outcome counts. -/
theorem executeScript_congr {host : Host} {path : Path} {maxChars durationMs : ℕ}
    {run run' : List Text → ProcessOutcome}
    (h : ∀ argv, resolveArgv host path = .ok argv → run argv = run' argv) :
    executeScript host path maxChars durationMs run =
      executeScript host path maxChars durationMs run' := by
  unfold executeScript
  cases hargv : resolveArgv host path with
  | error e => rfl
  | ok argv =>
    dsimp only
    rw [h argv hargv]

theorem resolveArgv_error_iff {host : Host} {path : Path} :
    (∃ e, resolveArgv host path = .error e) ↔
      ∃ e, validateSupportedScriptType host path = .error e := by
  unfold resolveArgv
  cases validateSupportedScriptType host path with
  | error e => exact iff_of_true ⟨e, rfl⟩ ⟨e, rfl⟩
  | ok strategy =>
    cases strategy <;> exact iff_of_false (fun ⟨e, h⟩ ↦ by cases h) (fun ⟨e, h⟩ ↦ by cases h)

theorem executeScript_refused_iff (host : Host) (path : Path) (maxChars durationMs : ℕ)
    (run : List Text → ProcessOutcome) (e : PathError) :
    executeScript host path maxChars durationMs run = .error (.path e) ↔
      validateSupportedScriptType host path = .error e := by
  unfold executeScript resolveArgv
  cases validateSupportedScriptType host path with
  | error refused =>
    change Except.error (ExecuteError.path refused) = _ ↔ _
    simp
  | ok strategy =>
    refine iff_of_false ?_ (by simp)
    intro h
    cases strategy
    all_goals
      dsimp only [ok_bind] at h
      split at h <;> cases h

/-- `execute_script` raises before its `try` block, on the type of the script, or on an
exception of the process call that its `except` clauses do not name. -/
theorem executeScript_error_iff {host : Host} {path : Path} {maxChars durationMs : ℕ}
    {run : List Text → ProcessOutcome} :
    (∃ e, executeScript host path maxChars durationMs run = .error e) ↔
      (∃ e, validateSupportedScriptType host path = .error e) ∨
        ∃ argv, resolveArgv host path = .ok argv ∧ run argv = .raised := by
  rw [← resolveArgv_error_iff]
  unfold executeScript
  cases resolveArgv host path with
  | error e => exact iff_of_true ⟨_, rfl⟩ (.inl ⟨e, rfl⟩)
  | ok argv =>
    dsimp only
    cases hrun : run argv with
    | raised => exact iff_of_true ⟨_, rfl⟩ (.inr ⟨argv, rfl, hrun⟩)
    | _ =>
      refine iff_of_false (fun ⟨e, h⟩ ↦ by cases h) ?_
      intro hx
      rcases hx with ⟨e, h⟩ | ⟨argv', h, hraised⟩
      · cases h
      · cases h
        rw [hrun] at hraised
        cases hraised

end CronPanel.Execution.Executor
