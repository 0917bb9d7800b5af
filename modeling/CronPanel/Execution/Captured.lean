import CronPanel.Execution.Executor
import CronPanel.Library.Utf8

namespace CronPanel.Execution.Captured

open Library.Strings Library.Utf8 Policy Executor

/-- How `subprocess.run` ends where `execute_script` answers, with the bytes it has captured. -/
inductive RawOutcome
  | completed (returncode : ℤ) (stdout stderr : List UInt8)
  | timeoutExpired (stdout stderr : Option (List UInt8))
  | osError (reason description : Text)
  deriving DecidableEq

/-- `_cap_output` on the bytes that it is given. -/
def capBytes (data : Option (List UInt8)) (maxChars : ℕ) : Text :=
  let text := decode (data.getD [])
  if text.length ≤ maxChars then text
  else if truncationMarker.length + 1 ≥ maxChars then text.take maxChars
  else text.take (maxChars - truncationMarker.length - 1) ++ truncationMarker

/-- `execute_script` where it decodes and caps what was captured. -/
def executeCaptured (host : Host) (scriptPath : Path) (outputMaxChars durationMs : ℕ)
    (run : List Text → RawOutcome) : Except ExecuteError ExecutionResult :=
  match resolveArgv host scriptPath with
  | .error e => .error (.path e)
  | .ok argv =>
    match run argv with
    | .completed returncode stdout stderr =>
      .ok
        { exitCode := some returncode
          stdout := capBytes (some stdout) outputMaxChars
          stderr := capBytes (some stderr) outputMaxChars
          durationMs
          timedOut := false
          error := none }
    | .timeoutExpired stdout stderr =>
      let rawErr := stderr.getD [] ++ utf8 "\n[killed by executor: timeout]".toList
      .ok
        { exitCode := none
          stdout := capBytes stdout outputMaxChars
          stderr := capBytes (some rawErr) outputMaxChars
          durationMs
          timedOut := true
          error := some "timeout_expired".toList }
    | .osError reason description =>
      .ok
        { exitCode := none
          stdout := []
          stderr := capBytes (some (utf8 description)) outputMaxChars
          durationMs
          timedOut := false
          error := some ("cannot_run:".toList ++ reason) }

/-- What a run leaves to record, read as text. -/
def RawOutcome.decoded : RawOutcome → ProcessOutcome
  | .completed returncode stdout stderr => .completed returncode (decode stdout) (decode stderr)
  | .timeoutExpired stdout stderr =>
    .timeoutExpired (decode (stdout.getD [])) (decode (stderr.getD []))
  | .osError reason description => .osError reason description

def killNotice : Text := "[killed by executor: timeout]".toList

/-- The text of the standard output, before it is cut to size. -/
def RawOutcome.stdout : RawOutcome → Text
  | .completed _ stdout _ => decode stdout
  | .timeoutExpired stdout _ => decode (stdout.getD [])
  | .osError _ _ => []

/-- The text of the standard error, with what the executor adds to it. -/
def RawOutcome.stderr : RawOutcome → Text
  | .completed _ _ stderr => decode stderr
  | .timeoutExpired _ stderr => decode (stderr.getD []) ++ '\n' :: killNotice
  | .osError _ description => description

theorem capBytes_eq (data : Option (List UInt8)) (maxChars : ℕ) :
    capBytes data maxChars = capOutput (decode (data.getD [])) maxChars := rfl

/-- The notice is pure ASCII, so it is appended to the text as it is to the bytes. -/
theorem decode_append_notice (bs : List UInt8) :
    decode (bs ++ utf8 "\n[killed by executor: timeout]".toList) =
      decode bs ++ "\n[killed by executor: timeout]".toList :=
  decode_append_utf8 bs (show '\n'.toNat < 128 by decide) _

/-- Bytes are captured, decoded and capped as the texts they stand for. -/
theorem executeCaptured_eq (host : Host) (path : Path) (maxChars durationMs : ℕ)
    (run : List Text → RawOutcome) :
    executeCaptured host path maxChars durationMs run =
      executeScript host path maxChars durationMs fun argv ↦ (run argv).decoded := by
  unfold executeCaptured executeScript
  cases resolveArgv host path with
  | error e => rfl
  | ok argv =>
    dsimp only
    cases run argv with
    | completed returncode stdout stderr => rfl
    | timeoutExpired stdout stderr =>
      simp only [RawOutcome.decoded, capBytes_eq, Option.getD_some, decode_append_notice]
    | osError reason description =>
      simp only [RawOutcome.decoded, capBytes_eq, Option.getD_some, decode_utf8]

section

variable {maxChars : ℕ} {text : Text}

theorem capOutput_of_lt (hlong : maxChars < text.length)
    (hroom : truncationMarker.length + 1 < maxChars) :
    capOutput text maxChars =
      text.take (maxChars - truncationMarker.length - 1) ++ truncationMarker := by
  rw [capOutput, if_neg (Nat.not_le.mpr hlong), if_neg (Nat.not_le.mpr hroom)]

theorem length_capOutput_le (text : Text) (maxChars : ℕ) :
    (capOutput text maxChars).length ≤ maxChars := by
  unfold capOutput
  split_ifs with hfits hsmall
  · exact hfits
  · exact List.length_take_le _ _
  · rw [List.length_append, List.length_take]
    omega

/-- The notice behind a text is kept when all fits, or when the text begins with one of its
own. -/
theorem notice_capOutput_iff (hroom : truncationMarker.length + 1 < maxChars) :
    killNotice <:+: capOutput (text ++ '\n' :: killNotice) maxChars ↔
      text.length + killNotice.length + 1 ≤ maxChars ∨
        killNotice <:+: text.take (maxChars - truncationMarker.length - 1) := by
  have hlength : (text ++ '\n' :: killNotice).length = text.length + killNotice.length + 1 := by
    rw [List.length_append, List.length_cons, Nat.add_assoc]
  rcases Nat.lt_or_ge maxChars (text ++ '\n' :: killNotice).length with hlong | hfits
  · rw [capOutput_of_lt hlong hroom, or_iff_right (by omega)]
    constructor
    · intro h
      -- The marker's first character is not in the notice, and what follows it is too short.
      have hkept : killNotice <:+:
          (text ++ '\n' :: killNotice).take (maxChars - truncationMarker.length - 1) := by
        refine (infix_append_cons (x := '…') (by decide) h).resolve_right fun hrest ↦ ?_
        exact absurd hrest.length_le (by decide)
      rcases Nat.le_total (maxChars - truncationMarker.length - 1) text.length with hin | hout
      · rwa [List.take_append_of_le_length hin] at hkept
      · rw [List.take_append, List.take_of_length_le hout] at hkept
        rw [List.take_of_length_le hout]
        cases hrest : maxChars - truncationMarker.length - 1 - text.length with
        | zero =>
          rw [hrest, List.take_zero, List.append_nil] at hkept
          exact hkept
        | succ n =>
          rw [hrest, List.take_succ_cons] at hkept
          refine (infix_append_cons (by decide) hkept).resolve_right fun hnotice ↦ ?_
          have hshort := hnotice.length_le
          rw [List.length_take] at hshort
          omega
    · intro h
      have hbegins : text.take (maxChars - truncationMarker.length - 1) <+:
          (text ++ '\n' :: killNotice).take (maxChars - truncationMarker.length - 1) :=
        (List.prefix_append text _).take _
      exact h.trans (hbegins.trans (List.prefix_append _ _)).isInfix
  · rw [capOutput, if_pos hfits]
    refine iff_of_true ?_ (.inl (hlength ▸ hfits))
    exact ((List.suffix_cons '\n' killNotice).trans (List.suffix_append text _)).isInfix

end

end CronPanel.Execution.Captured
