import CronPanel.Library.Strings

namespace CronPanel.Execution.Policy

open Library.Strings

/-- An absolute, resolved path: the names that lead to it from the root. -/
abbrev Path := List Text

def Path.text (path : Path) : Text := '/' :: ['/'].intercalate path

/-- What `Path.resolve(strict=True)` can raise. -/
inductive ResolveError
  | fileNotFound | notADirectory | permissionDenied | nameTooLong | symlinkLoop | embeddedNull
  deriving DecidableEq, Repr

/-- The machine the scripts run on, with its files as they are at one moment. -/
structure Host where
  win32 : Bool
  sysExecutable : Text
  scriptsDir : Path
  resolve : Text → Except ResolveError Path
  isFile : Path → Bool
  executable : Path → Bool

/-- `ScriptPathError` and its subclasses, and what the module lets through. -/
inductive PathError
  | notAbsolute
  | outsideAllowlist
  | fileMissing
  | unsupportedType
  | raised (error : ResolveError)
  deriving DecidableEq, Repr

def PathError.code : PathError → Option Text
  | notAbsolute => some "SCRIPT_PATH_NOT_ABSOLUTE".toList
  | outsideAllowlist => some "SCRIPT_PATH_OUTSIDE_ALLOWLIST".toList
  | fileMissing => some "SCRIPT_FILE_MISSING".toList
  | unsupportedType => some "SCRIPT_TYPE_UNSUPPORTED".toList
  | raised _ => none

def PathError.message : PathError → Option Text
  | notAbsolute => some "La ruta del script debe ser absoluta.".toList
  | outsideAllowlist => some "La ruta del script está fuera del directorio permitido.".toList
  | fileMissing => some "El archivo del script no existe.".toList
  | unsupportedType => some "Tipo de script no soportado por el ejecutor.".toList
  | raised _ => none

variable (host : Host)

def canonicalizeScriptPath (rawPath : Text) : Except PathError Path :=
  let raw := strip rawPath
  if raw.head? ≠ some '/' then .error .notAbsolute
  else
    match host.resolve raw with
    | .error .fileNotFound => .error .fileMissing
    | .error e => .error (.raised e)
    | .ok canonical =>
      if ¬host.scriptsDir <+: canonical then .error .outsideAllowlist
      else if host.isFile canonical then .ok canonical
      else .error .fileMissing

def suffix (path : Path) : Text :=
  let name := path.getLast?.getD []
  let extension := name.reverse.takeWhile (· ≠ '.')
  if extension = [] ∨ name.length ≤ extension.length + 1 then [] else '.' :: extension.reverse

inductive Launcher
  | python | binary | script
  deriving DecidableEq, Repr

def validateSupportedScriptType (path : Path) : Except PathError Launcher :=
  if lower (suffix path) = ".py".toList then .ok .python
  else if host.win32 then
    if lower (suffix path) = ".exe".toList then .ok .binary else .error .unsupportedType
  else if host.executable path then .ok .script
  else .error .unsupportedType

end CronPanel.Execution.Policy
