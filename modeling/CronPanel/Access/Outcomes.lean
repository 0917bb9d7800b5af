import CronPanel.Execution.Captured
import CronPanel.Scheduler.Eligibility
import CronPanel.Services.Executions

namespace CronPanel.Access.Outcomes

open Library.Strings Library.Tables Library.Fallible Library.Utf8 Data.Records Data.Repositories
open Execution.Policy Execution.Executor Execution.Captured Services.Audit Services.Executions
open Scheduler.Eligibility

/-- What a column of at most so many characters holds of a text: all of it, nothing if it is
empty, or a beginning with the marker. -/
structure Stored (maxChars : ℕ) (text : Text) (column : Option Text) : Prop where
  bounded : ∀ t, column = some t → t.length ≤ maxChars
  whole : text.length ≤ maxChars → column = orNone text
  cut : maxChars < text.length → ∃ kept, kept <+: text ∧
    kept.length + truncationMarker.length + 1 = maxChars ∧
      column = some (kept ++ truncationMarker)

/-- What a run has recorded of an outcome is complete. -/
structure Complete (maxChars : ℕ) (outcome : RawOutcome) (result : ExecutionResult)
    (row : Execution) : Prop where
  stdout : Stored maxChars outcome.stdout row.stdout
  stderr : Stored maxChars outcome.stderr row.stderr
  timedOut : result.timedOut ↔ row.error = some "timeout_expired".toList
  exitCode : row.exitCode = none ↔ row.error.isSome
  success : row.status = .success ↔ ∃ out err, outcome = .completed 0 out err
  killed : row.status = .timedOut ↔ ∃ out err, outcome = .timeoutExpired out err
  failed : row.status = .failed ↔
    (¬∃ out err, outcome = .completed 0 out err) ∧ ¬∃ out err, outcome = .timeoutExpired out err
  notice : (∃ out err, outcome = .timeoutExpired out err) →
    ∃ t, row.stderr = some t ∧ killNotice <:+: t

/-- The notice has its place behind what a killed process has written to the standard error, or
that already has the notice where it is not cut. -/
def RoomForNotice (maxChars : ℕ) : RawOutcome → Prop
  | .timeoutExpired _ stderr =>
    let text := decode (stderr.getD [])
    text.length + killNotice.length + 1 ≤ maxChars ∨
      killNotice <:+: text.take (maxChars - truncationMarker.length - 1)
  | _ => True

section

variable {maxChars : ℕ}

theorem orNone_eq_some {text t : Text} (h : orNone text = some t) : t = text := by
  unfold orNone at h
  split_ifs at h
  exact (Option.some.inj h).symm

theorem orNone_of_ne {text : Text} (h : text ≠ []) : orNone text = some text := if_neg h

theorem stored_capOutput (hroom : truncationMarker.length + 1 < maxChars) (text : Text) :
    Stored maxChars text (orNone (capOutput text maxChars)) where
  bounded t ht := orNone_eq_some ht ▸ length_capOutput_le text maxChars
  whole hfits := congrArg orNone (if_pos hfits)
  cut hlong := by
    refine ⟨text.take (maxChars - truncationMarker.length - 1), List.take_prefix _ text, ?_, ?_⟩
    · rw [List.length_take]
      omega
    · rw [capOutput_of_lt hlong hroom]
      exact orNone_of_ne (List.append_ne_nil_of_right_ne_nil _ (by decide))

/-- The notice is in the column exactly when it is in the text that is stored there. -/
theorem notice_orNone_iff (text : Text) :
    (∃ t, orNone text = some t ∧ killNotice <:+: t) ↔ killNotice <:+: text := by
  constructor
  · rintro ⟨t, ht, hnotice⟩
    exact orNone_eq_some ht ▸ hnotice
  · intro hnotice
    refine ⟨text, orNone_of_ne ?_, hnotice⟩
    rintro rfl
    exact absurd hnotice.length_le (by decide)

/-- What `execute_script` answers about each outcome. -/
def outcomeResult (maxChars durationMs : ℕ) (outcome : RawOutcome) : ExecutionResult where
  exitCode := match outcome with
    | .completed returncode _ _ => some returncode
    | _ => none
  stdout := capOutput outcome.stdout maxChars
  stderr := capOutput outcome.stderr maxChars
  durationMs
  timedOut := match outcome with
    | .timeoutExpired _ _ => true
    | _ => false
  error := match outcome with
    | .completed _ _ _ => none
    | .timeoutExpired _ _ => some "timeout_expired".toList
    | .osError reason _ => some ("cannot_run:".toList ++ reason)

theorem executeCaptured_ok {host : Host} {path : Path} {argv : List Text}
    (hargv : resolveArgv host path = .ok argv) (maxChars durationMs : ℕ)
    (process : List Text → RawOutcome) :
    executeCaptured host path maxChars durationMs process =
      .ok (outcomeResult maxChars durationMs (process argv)) := by
  rw [executeCaptured, hargv]
  dsimp only
  cases process argv with
  | completed returncode stdout stderr => rfl
  | timeoutExpired stdout stderr =>
    simp only [capBytes_eq, Option.getD_some, decode_append_notice]
    rfl
  | osError reason description =>
    simp only [capBytes_eq, Option.getD_some, decode_utf8]
    rfl

theorem finalStatus_completed (maxChars durationMs : ℕ) (returncode : ℤ)
    (stdout stderr : List UInt8) :
    (finalStatus (outcomeResult maxChars durationMs (.completed returncode stdout stderr))).1 =
      if returncode = 0 then .success else .failed := by
  by_cases hzero : returncode = 0
  · subst hzero
    rfl
  · rw [if_neg hzero, finalStatus, if_neg (by exact Bool.false_ne_true), if_neg]
    intro h
    exact hzero (Option.some.inj h.1)

/-- The status tells how the process ended. -/
theorem finalStatus_iff (maxChars durationMs : ℕ) (outcome : RawOutcome) :
    let status := (finalStatus (outcomeResult maxChars durationMs outcome)).1
    (status = .success ↔ ∃ out err, outcome = .completed 0 out err) ∧
      (status = .timedOut ↔ ∃ out err, outcome = .timeoutExpired out err) ∧
      (status = .failed ↔ (¬∃ out err, outcome = .completed 0 out err) ∧
        ¬∃ out err, outcome = .timeoutExpired out err) := by
  cases outcome with
  | completed returncode stdout stderr =>
    simp only [finalStatus_completed]
    by_cases hzero : returncode = 0
    · subst hzero
      simp
    · simp [hzero]
  | timeoutExpired stdout stderr => simp [finalStatus, outcomeResult]
  | osError reason description => simp [finalStatus, outcomeResult]

theorem error_iff (maxChars durationMs : ℕ) (outcome : RawOutcome) :
    let result := outcomeResult maxChars durationMs outcome
    (result.timedOut ↔ result.error = some "timeout_expired".toList) ∧
      (result.exitCode = none ↔ result.error.isSome) := by
  cases outcome with
  | completed returncode stdout stderr => simp [outcomeResult]
  | timeoutExpired stdout stderr => simp [outcomeResult]
  | osError reason description => simp [outcomeResult]

/-- All of the outcome is recorded but the notice, which is when it has room. -/
theorem complete_iff (hroom : truncationMarker.length + 1 < maxChars) (now : Instant)
    (durationMs : ℕ) (outcome : RawOutcome) (row : Execution) :
    Complete maxChars outcome (outcomeResult maxChars durationMs outcome)
        (finishedExecution now (outcomeResult maxChars durationMs outcome) row) ↔
      RoomForNotice maxChars outcome := by
  have hstdout := stored_capOutput hroom outcome.stdout
  have hstderr := stored_capOutput hroom outcome.stderr
  constructor
  · intro h
    cases outcome with
    | timeoutExpired stdout stderr =>
      have hnotice := (notice_orNone_iff _).mp (h.notice ⟨stdout, stderr, rfl⟩)
      exact (notice_capOutput_iff hroom).mp hnotice
    | completed returncode stdout stderr => trivial
    | osError reason description => trivial
  · intro h
    obtain ⟨hsuccess, hkilled, hfailed⟩ := finalStatus_iff maxChars durationMs outcome
    obtain ⟨htimedOut, hexitCode⟩ := error_iff maxChars durationMs outcome
    refine ⟨hstdout, hstderr, htimedOut, hexitCode, hsuccess, hkilled, hfailed, ?_⟩
    rintro ⟨stdout, stderr, rfl⟩
    exact (notice_orNone_iff _).mpr ((notice_capOutput_iff hroom).mpr h)

end

section

variable {env : Environment} {call : RunCall} {db started later : Database} {running : Running}
  {row : Execution} {job : CronJob} {script : Script} {argv : List Text}
  {process : List Text → RawOutcome}

/-- A run that has begun ends with its row as the outcome has it. -/
theorem finishRun_captured (hprocess : env.process = fun argv ↦ (process argv).decoded)
    (hargv : resolveArgv env.host running.path = .ok argv)
    (hrow : later.executions.get? running.executionId = some row)
    (hjob : later.cronJobs.get? running.call.jobId = some job)
    (hscript : later.scripts.get? running.scriptId = some script) :
    ∃ final, finishRun env running later = .ok final ∧
      final.executions.get? running.executionId = some (finishedExecution env.now
        (outcomeResult env.outputMaxChars env.durationMs (process argv)) row) := by
  have hresult : executeScript env.host running.path env.outputMaxChars env.durationMs
      env.process = .ok (outcomeResult env.outputMaxChars env.durationMs (process argv)) := by
    rw [hprocess, ← executeCaptured_eq]
    exact executeCaptured_ok hargv _ _ process
  rw [finishRun, hresult, hrow, hjob, hscript]
  exact ⟨_, rfl, Table.get?_set_self _ _ _⟩

theorem run_of_finishRun {final : Database} (hstart : startRun env call db = .ok (running, started))
    (hfinish : finishRun env running started = .ok final) :
    run env call db = (final, .ok running.executionId) := by
  rw [run, hstart]
  dsimp only
  rw [hfinish]

/-- Whatever other sessions commit while the process of a run is at work, what the run records of
it is complete exactly when the notice has room. -/
theorem outcome_complete_iff
    (hcap : 1024 ≤ env.outputMaxChars ∧ env.outputMaxChars ≤ 1000000)
    (hprocess : env.process = fun argv ↦ (process argv).decoded)
    (hstart : startRun env call db = .ok (running, started))
    (hargv : resolveArgv env.host running.path = .ok argv)
    (hrow : later.executions.get? running.executionId = some row)
    (hjob : later.cronJobs.get? call.jobId = some job)
    (hscript : later.scripts.get? running.scriptId = some script) :
    ∃ result final recorded,
      executeCaptured env.host running.path env.outputMaxChars env.durationMs process =
        .ok result ∧
      finishRun env running later = .ok final ∧
      (later = started → run env call db = (final, .ok running.executionId)) ∧
      final.executions.get? running.executionId = some recorded ∧
      (Complete env.outputMaxChars (process argv) result recorded ↔
        RoomForNotice env.outputMaxChars (process argv)) := by
  obtain ⟨-, hcall, -⟩ := startRun_ok hstart
  have hroom : truncationMarker.length + 1 < env.outputMaxChars :=
    Nat.lt_of_lt_of_le (by decide) hcap.1
  obtain ⟨final, hfinish, hrecorded⟩ :=
    finishRun_captured hprocess hargv hrow (hcall ▸ hjob) hscript
  refine ⟨_, final, _, executeCaptured_ok hargv _ _ process, hfinish, ?_, hrecorded,
    complete_iff hroom _ _ _ _⟩
  rintro rfl
  exact run_of_finishRun hstart hfinish

end

section Sample

/-- The script of the sample, in the directory of the scripts. -/
def sampleEnvironment (outcome : RawOutcome) : Environment where
  now := 0
  host :=
    { win32 := false
      sysExecutable := "/usr/bin/python3".toList
      scriptsDir := ["srv".toList, "scripts".toList]
      resolve _ := .ok ["srv".toList, "scripts".toList, "backup.py".toList]
      isFile _ := true
      executable _ := true }
  outputMaxChars := 1024
  durationMs := 0
  process _ := outcome.decoded

def sampleRunning : Running where
  call := scheduledCall 1 sampleJob
  scriptId := 1
  executionId := 1
  path := ["srv".toList, "scripts".toList, "backup.py".toList]

def sampleStarted : Database :=
  recordEvent 0 (startedEvent (scheduledCall 1 sampleJob) ⟨1, sampleScript, sampleRunning.path⟩ 1)
    { sample with
      executions := sample.executions.set 1 (startedExecution 0 (scheduledCall 1 sampleJob) 1) }

def greeting : RawOutcome := .completed 0 (utf8 "hi".toList) []

/-- As many characters as a column may have. -/
def noisyTimeout : RawOutcome := .timeoutExpired none (some (utf8 (List.replicate 1024 'a')))

theorem sample_started (outcome : RawOutcome) :
    startRun (sampleEnvironment outcome) (scheduledCall 1 sampleJob) sample =
      .ok (sampleRunning, sampleStarted) := rfl

theorem outcome_complete_iff_greeting :
    ∃ result final recorded,
      executeCaptured (sampleEnvironment greeting).host sampleRunning.path 1024 0
        (fun _ ↦ greeting) = .ok result ∧
      finishRun (sampleEnvironment greeting) sampleRunning sampleStarted = .ok final ∧
      (sampleStarted = sampleStarted →
        run (sampleEnvironment greeting) (scheduledCall 1 sampleJob) sample = (final, .ok 1)) ∧
      final.executions.get? 1 = some recorded ∧
      (Complete 1024 greeting result recorded ↔ RoomForNotice 1024 greeting) :=
  @outcome_complete_iff (sampleEnvironment greeting) (scheduledCall 1 sampleJob) sample
    sampleStarted sampleStarted sampleRunning _ _ _ _ (fun _ ↦ greeting) ⟨le_rfl, by decide⟩ rfl
    (sample_started greeting) rfl rfl rfl rfl

/-- A killed process that has filled the standard error leaves no room for the notice. -/
theorem noisy_timeout_without_notice :
    ∃ result final recorded,
      executeCaptured (sampleEnvironment noisyTimeout).host sampleRunning.path 1024 0
        (fun _ ↦ noisyTimeout) = .ok result ∧
      run (sampleEnvironment noisyTimeout) (scheduledCall 1 sampleJob) sample = (final, .ok 1) ∧
      final.executions.get? 1 = some recorded ∧
      ¬Complete 1024 noisyTimeout result recorded := by
  have hroom : truncationMarker.length + 1 < 1024 := by decide
  obtain ⟨final, hfinish, hrecorded⟩ :=
    @finishRun_captured (sampleEnvironment noisyTimeout) sampleStarted sampleRunning _ _ _ _
      (fun _ ↦ noisyTimeout) rfl rfl rfl rfl rfl
  refine ⟨_, final, _, executeCaptured_ok rfl _ _ _, run_of_finishRun (sample_started _) hfinish,
    hrecorded, fun hcomplete ↦ ?_⟩
  have htext : decode (utf8 (List.replicate 1024 'a')) = List.replicate 1024 'a' := decode_utf8 _
  rcases (complete_iff hroom _ _ _ _).mp hcomplete with hfits | hnotice
  · rw [Option.getD_some, htext, List.length_replicate] at hfits
    omega
  · rw [Option.getD_some, htext] at hnotice
    have hmem : '[' ∈ List.replicate 1024 'a' :=
      List.take_subset _ _ (hnotice.subset (by decide))
    exact absurd (List.eq_of_mem_replicate hmem) (by decide)

end Sample

end CronPanel.Access.Outcomes
