import Mathlib.Data.List.Sort
import CronPanel.Cron.Grammar

namespace CronPanel.Cron.Describe

open Library.Strings Library.Ranges Library.Fallible Validator Elements Grammar

def monthName : ℕ → Except PyError Text
  | 1 => .ok "enero".toList
  | 2 => .ok "febrero".toList
  | 3 => .ok "marzo".toList
  | 4 => .ok "abril".toList
  | 5 => .ok "mayo".toList
  | 6 => .ok "junio".toList
  | 7 => .ok "julio".toList
  | 8 => .ok "agosto".toList
  | 9 => .ok "septiembre".toList
  | 10 => .ok "octubre".toList
  | 11 => .ok "noviembre".toList
  | 12 => .ok "diciembre".toList
  | _ => .error .keyError

def weekdayName : ℕ → Except PyError Text
  | 0 => .ok "domingo".toList
  | 1 => .ok "lunes".toList
  | 2 => .ok "martes".toList
  | 3 => .ok "miércoles".toList
  | 4 => .ok "jueves".toList
  | 5 => .ok "viernes".toList
  | 6 => .ok "sábado".toList
  | _ => .error .keyError

def commas (texts : List Text) : Text := ", ".toList.intercalate texts

def lastOf {α : Type} (xs : List α) : Except PyError α := xs.getLast?.elim (.error .indexError) .ok

def twoDigits (n : ℕ) : Text := if n < 10 then '0' :: decimal n else decimal n

/-- `str.capitalize` on the descriptions, which begin with an ASCII letter. -/
def capitalize : Text → Text
  | [] => []
  | c :: t => c.toUpper :: t.map Char.toLower

def enumerate (texts : List Text) : Except PyError Text := do
  let final ← lastOf texts
  .ok (commas texts.dropLast ++ " y ".toList ++ final)

def pluralWeekday (name : Text) : Text :=
  if ["lunes".toList, "martes".toList, "miércoles".toList, "jueves".toList, "viernes".toList].contains name then
    name
  else name ++ "s".toList

def weekdayPhrase (final : List ℕ) : Except PyError Text := do
  let ordered ← final.mapM weekdayName
  if final = [0, 1, 2, 3, 4, 5, 6] then .ok "todos los días".toList
  else if final = [1, 2, 3, 4, 5] then .ok "lunes a viernes".toList
  else if final = [6, 0] ∨ final = [0, 6] then .ok "los fines de semana".toList
  else
    match final, ordered with
    | [_], [name] => .ok ("los ".toList ++ pluralWeekday name)
    | [a, b], [first, second] =>
      if b = a + 1 then .ok (first ++ " a ".toList ++ second)
      else .ok ("los ".toList ++ first ++ " y ".toList ++ second)
    | _, _ => do
      let names ← enumerate ordered
      .ok ("los ".toList ++ names)

/-- The parts that the last branch of `_describe_days` adds, one for each field
that is restricted. -/
def domPart (dom : Text) : Except PyError (List Text) :=
  if dom = starText then .ok []
  else do
    let doms ← expandCronField .dayOfMonth dom
    match doms with
    | [day] => .ok ["el día ".toList ++ decimal day]
    | doms => .ok ["los días ".toList ++ commas (doms.map decimal)]

def monthPart (month : Text) : Except PyError (List Text) :=
  if month = starText then .ok []
  else do
    let months ← expandCronField .month month
    let names ← months.mapM monthName
    .ok [commas names]

def dowPart (dow : Text) : Except PyError (List Text) :=
  if dow = starText then .ok []
  else do
    let days ← expandCronField .dayOfWeek dow
    let phrase ← weekdayPhrase days
    .ok (if phrase = [] then [] else [phrase])

def dayParts (dom month dow : Text) : Except PyError (List Text) :=
  if dow = starText ∧ dom = starText ∧ month ≠ starText then do
    let months ← expandCronField .month month
    let names ← months.mapM monthName
    match names with
    | [name] => .ok ["todos los días de ".toList ++ name]
    | names => .ok ["todos los días de los meses ".toList ++ commas names]
  else if dom = starText ∧ month = starText then do
    let days ← expandCronField .dayOfWeek dow
    let phrase ← weekdayPhrase days
    .ok [if phrase = [] then "días seleccionados de la semana".toList else phrase]
  else if dom ≠ starText ∧ dow = starText ∧ month = starText then do
    let doms ← expandCronField .dayOfMonth dom
    match doms with
    | [day] => .ok ["el día ".toList ++ decimal day ++ " de cada mes".toList]
    | doms => .ok ["los días ".toList ++ commas (doms.map decimal) ++ " de cada mes".toList]
  else do
    let days ← domPart dom
    let months ← monthPart month
    let weekdays ← dowPart dow
    .ok (days ++ months ++ weekdays)

def describeDays (dom month dow : Text) : Except PyError Text :=
  if dom = starText ∧ month = starText ∧ dow = starText then .ok "Todos los días".toList
  else do
    let parts ← dayParts dom month dow
    .ok (capitalize (" ".toList.intercalate (parts.filter (fun part ↦ !part.isEmpty))))

def minutesPhrase (token : Text) (minutes : List ℕ) : Except PyError Text :=
  if token = starText then .ok "cada minuto".toList
  else if "*/".toList.isPrefixOf token then do
    let step ← int (token.drop 2)
    .ok ("cada ".toList ++ decimal step ++ " minutos".toList)
  else
    match minutes with
    | [minute] => .ok ("el minuto ".toList ++ decimal minute)
    | minutes => .ok ("los minutos ".toList ++ commas (minutes.map decimal))

def timesPhrase (hours minutes : List ℕ) : Except PyError Text :=
  let times := (hours.flatMap fun h ↦ minutes.map fun m ↦ h * 100 + m).insertionSort (· ≤ ·)
  match times.map fun value ↦ twoDigits (value / 100) ++ ":".toList ++ twoDigits (value % 100) with
  | [time] => .ok ("a las ".toList ++ time)
  | [first, second] => .ok ("a las ".toList ++ first ++ " y ".toList ++ second)
  | rendered => do
    let texts ← enumerate rendered
    .ok ("a las ".toList ++ texts)

def timePhrase (minute hour : Text) (minuteValues hourValues : List ℕ) : Except PyError Text :=
  if hour = starText ∧ minute = starText then .ok "cada minuto".toList
  else if minute = starText then
    match hourValues with
    | [h] => .ok ("cada minuto entre las ".toList ++ twoDigits h ++ ":00 y las ".toList ++
        twoDigits h ++ ":59".toList)
    | _ => .ok "cada minuto".toList
  else if hourValues.length ≤ 4 ∧ minuteValues.length ≤ 4 ∧ hour ≠ starText ∧ minute ≠ starText then
    timesPhrase hourValues minuteValues
  else if hour = starText then minutesPhrase minute minuteValues
  else do
    let hourText : Text :=
      match hourValues with
      | [h] => "la ".toList ++ twoDigits h ++ ":00".toList
      | hours => "las horas ".toList ++ commas (hours.map twoDigits)
    let minutes ← minutesPhrase minute minuteValues
    .ok (minutes ++ " de ".toList ++ hourText)

/-- `describe_cron_expression` after the parse. -/
def describeFields (minute hour dom month dow : Text) : Except PyError Text :=
  if month = starText ∧ dom = starText ∧ dow = starText ∧ minute = starText ∧ hour = starText then
    .ok "Cada minuto".toList
  else do
    let hourValues ← expandCronField .hour hour
    let minuteValues ← expandCronField .minute minute
    let timePart ← timePhrase minute hour minuteValues hourValues
    let dayPart ← describeDays dom month dow
    .ok (strip (dayPart ++ " ".toList ++ timePart))

def describeCronExpression (expression : Option Text) : Except PyError Text := do
  let fields ← parseCronExpression expression
  match fields with
  | [minute, hour, dom, month, dow] => describeFields minute hour dom month dow
  | _ => .error .valueError

end CronPanel.Cron.Describe
