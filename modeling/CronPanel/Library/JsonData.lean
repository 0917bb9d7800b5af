import CronPanel.Library.Strings

namespace CronPanel.Library.JsonData

open Strings

inductive Json
  | null
  | bool (value : Bool)
  | number (value : ℤ)
  | text (value : Text)
  | list (items : List Json)
  | object (entries : List (Text × Json))

def ofOption {α : Type} (encode : α → Json) : Option α → Json
  | none => .null
  | some a => encode a

def natural (n : ℕ) : Json := .number n

end CronPanel.Library.JsonData
