import ReportSql.Record

/-!
TOML values, and records in TOML. Floats, dates and times are kept as their text.
-/

namespace ReportSql.Toml

mutual

inductive Value where
  | text (value : String)
  | integer (value : Int)
  | float (text : String)
  | boolean (value : Bool)
  | dateTime (text : String)
  | array (items : List Value)
  | table (entries : List Entry)

structure Entry where
  key : String
  value : Value

end

def Entry.pair (e : Entry) : String × Value := (e.key, e.value)

namespace Value

def string? : Value → Option String
  | .text s => some s
  | _ => none

def bool? : Value → Option Bool
  | .boolean b => some b
  | _ => none

/-- A natural number below a bound. -/
def natBelow? (bound : Nat) : Value → Option Nat
  | .integer n => if 0 ≤ n && n < bound then some n.toNat else none
  | _ => none

def list? {α : Type} (read : Value → Option α) : Value → Option (List α)
  | .array items => items.mapM read
  | _ => none

/-- A name; a table with the name as its only key and nothing below says the same. -/
def name? : Value → Option String
  | .text name => some name
  | .table [⟨name, .table []⟩] => some name
  | .table [⟨name, .array []⟩] => some name
  | _ => none

/-- Reads a record with some fields: a table, or an array of its first fields in order. A date
stands for a record without fields. -/
def record? (names : List String) : Value → Option (Record Value)
  | .table entries => some ⟨entries.map Entry.pair⟩
  | .array items => some ⟨names.zip items⟩
  | .dateTime _ => some ⟨[]⟩
  | _ => none

end Value

end ReportSql.Toml
