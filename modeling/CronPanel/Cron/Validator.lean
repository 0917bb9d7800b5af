import CronPanel.Library.Strings
import CronPanel.Library.Ranges
import CronPanel.Library.Fallible

namespace CronPanel.Cron.Validator

open Library.Strings Library.Ranges

inductive Field
  | minute | hour | dayOfMonth | month | dayOfWeek
  deriving DecidableEq, Repr

namespace Field

def names : List Field := [minute, hour, dayOfMonth, month, dayOfWeek]

def title : Field → Text
  | minute => "minuto".toList
  | hour => "hora".toList
  | dayOfMonth => "día del mes".toList
  | month => "mes".toList
  | dayOfWeek => "día de la semana".toList

/-- `_FIELD_BOUNDS`, where the weekday 7 is an alias of 0. -/
def bounds : Field → ℕ × ℕ
  | minute => (0, 59)
  | hour => (0, 23)
  | dayOfMonth => (1, 31)
  | month => (1, 12)
  | dayOfWeek => (0, 7)

def first (f : Field) : ℕ := f.bounds.1

def last : Field → ℕ
  | dayOfWeek => 6
  | f => f.bounds.2

def allowed (f : Field) : Finset ℕ := Finset.Icc f.first f.last

theorem mem_names (f : Field) : f ∈ names := by cases f <;> simp [names]

theorem mem_allowed {f : Field} {v : ℕ} : v ∈ f.allowed ↔ f.first ≤ v ∧ v ≤ f.last := Finset.mem_Icc

theorem last_lt (f : Field) : f.last < 60 := by cases f <;> decide

end Field

inductive ErrorCode
  | emptyExpression | wrongFieldCount | invalidCharacter | emptyField
  | invalidValue | invalidRange | valueOutOfRange | invalidStep
  deriving DecidableEq, Repr

structure CronValidationError where
  code : ErrorCode
  message : Text
  field : Option Field
  deriving DecidableEq, Repr

/-- What the module's functions can raise: their own error class, or one of the
errors of the built-in operations they use. -/
inductive PyError
  | validation (error : CronValidationError)
  | valueError
  | keyError
  | indexError
  deriving DecidableEq, Repr

def raise {α : Type} (code : ErrorCode) (message : Text) (field : Field) : Except PyError α :=
  .error (.validation ⟨code, message, some field⟩)

def int (text : Text) : Except PyError ℕ := (int? text).elim (.error .valueError) .ok

def starText : Text := ['*']

def normalizeBound (f : Field) (value : ℕ) : ℕ := if f = .dayOfWeek ∧ value = 7 then 0 else value

def readStep (rawStep : Text) (f : Field) : Except PyError ℕ :=
  if isDigits rawStep then do
    let step ← int rawStep
    if step ≤ 0 then raise .invalidStep "El paso debe ser un número entero positivo.".toList f
    else .ok step
  else raise .invalidStep "El paso debe ser un número entero positivo.".toList f

def splitStep (token : Text) (f : Field) : Except PyError (Text × Option (Text × ℕ)) :=
  if '/' ∈ token then do
    let (base, rawStep) := partition '/' token
    let step ← readStep rawStep f
    .ok (base, some (rawStep, step))
  else .ok (token, none)

/-- `_single` of `_expand_token`; `_normalize_single` is its decimal text. -/
def single (text : Text) (f : Field) : Except PyError ℕ :=
  if isDigits text then do
    let value ← int text
    if value < f.bounds.1 ∨ f.bounds.2 < value then
      raise .valueOutOfRange ("El valor ".toList ++ decimal value ++ " está fuera del rango ".toList ++
        decimal f.bounds.1 ++ "-".toList ++ decimal f.bounds.2 ++ " para ".toList ++ f.title ++ ".".toList) f
    else .ok (normalizeBound f value)
  else raise .invalidValue ("Valor inválido '".toList ++ text ++ "'.".toList) f

def normalizeSingle (text : Text) (f : Field) : Except PyError Text := decimal <$> single text f

def invertedRange {α : Type} (start stop : Text) (f : Field) : Except PyError α :=
  raise .invalidRange ("El rango ".toList ++ start ++ "-".toList ++ stop ++
    " está invertido en ".toList ++ f.title ++ ".".toList) f

def expandToken (token : Text) (f : Field) : Except PyError (Finset ℕ) :=
  if token = starText then .ok f.allowed
  else do
    let (base, step) ← splitStep token f
    if base = starText then
      match step with
      | none => .ok f.allowed
      | some (_, step) =>
        .ok ((range 0 (f.last + 1) step).filter (fun index ↦ index ∈ f.allowed)).toFinset
    else if '-' ∈ base then
      let (rawStart, rawEnd) := partition '-' base
      if rawStart = [] ∨ rawEnd = [] then
        raise .invalidRange "Rango incompleto (se espera N-M).".toList f
      else do
        let start ← single rawStart f
        let stop ← single rawEnd f
        if stop < start then invertedRange (decimal start) (decimal stop) f
        else
          match step with
          | none => .ok (Finset.Icc start stop)
          | some (_, step) =>
            .ok ((Finset.Icc start stop).filter (fun index ↦ (index - start) % step = 0))
    else do
      let value ← single base f
      .ok {value}

def tokenPattern (token : Text) : Bool :=
  !token.isEmpty && token.all fun c ↦ c.isDigit || c == ',' || c == '-' || c == '*' || c == '/'

def withStep (text : Text) (step : Option (Text × ℕ)) : Text :=
  step.elim text fun s ↦ text ++ '/' :: s.1

def validateToken (token : Text) (f : Field) : Except PyError Text :=
  if tokenPattern token then
    if token = starText then .ok starText
    else do
      let (base, step) ← splitStep token f
      if base = starText then .ok (withStep starText step)
      else if '-' ∈ base then
        let (rawStart, rawEnd) := partition '-' base
        if rawStart = [] ∨ rawEnd = [] then
          raise .invalidRange "Rango incompleto (se espera N-M).".toList f
        else do
          let startText ← normalizeSingle rawStart f
          let endText ← normalizeSingle rawEnd f
          let start ← int startText
          let stop ← int endText
          if stop < start then invertedRange rawStart rawEnd f
          else .ok (withStep (startText ++ '-' :: endText) step)
      else do
        let normalized ← normalizeSingle base f
        .ok (withStep normalized step)
  else raise .invalidCharacter ("Caracteres no permitidos en ".toList ++ f.title ++ ": '".toList ++
    token ++ "'.".toList) f

def expandTokens (parts : List Text) (f : Field) : Except PyError (Finset ℕ) :=
  parts.foldlM (fun values part ↦ (values ∪ ·) <$> expandToken part f) ∅

/-- The loop body of `parse_cron_expression`. -/
def parseField (f : Field) (token : Text) : Except PyError Text :=
  if token = [] then raise .emptyField "Campo vacío.".toList f
  else do
    let normalizedParts ← (token.splitOn ',').mapM fun part ↦ validateToken (strip part) f
    let combined ← expandTokens normalizedParts f
    if combined = ∅ then raise .invalidValue "La expresión no produce ningún valor.".toList f
    else .ok ([','].intercalate normalizedParts)

/-- `parse_cron_expression`; the five fields come in the order of `Field.names`. -/
def parseCronExpression (expression : Option Text) : Except PyError (List Text) :=
  match expression with
  | none => .error (.validation ⟨.emptyExpression, "La expresión cron está vacía.".toList, none⟩)
  | some expression =>
    if strip expression = [] then
      .error (.validation ⟨.emptyExpression, "La expresión cron está vacía.".toList, none⟩)
    else
      let tokens := split (strip expression)
      if tokens.length ≠ 5 then
        .error (.validation ⟨.wrongFieldCount,
          "Una expresión cron debe tener 5 campos; se recibieron ".toList ++
            decimal tokens.length ++ ".".toList, none⟩)
      else (Field.names.zip tokens).mapM fun p ↦ parseField p.1 p.2

def normalizeCronExpression (expression : Option Text) : Except PyError Text :=
  [' '].intercalate <$> parseCronExpression expression

structure CronValidation where
  valid : Bool
  normalizedExpression : Option Text
  fields : Option (List Text)
  errorCode : Option ErrorCode
  errorMessage : Option Text
  errorField : Option Field
  deriving DecidableEq, Repr

/-- `validate_cron_expression`: only the module's own error class is caught. -/
def validateCronExpression (expression : Option Text) : Except PyError CronValidation :=
  match parseCronExpression expression with
  | .ok fields => .ok ⟨true, some ([' '].intercalate fields), some fields, none, none, none⟩
  | .error (.validation e) => .ok ⟨false, none, none, some e.code, some e.message, e.field⟩
  | .error e => .error e

def expandCronField (f : Field) (token : Text) : Except PyError (List ℕ) :=
  sorted <$> expandTokens ((token.splitOn ',').map strip) f

end CronPanel.Cron.Validator
