/-!
JSON values. A number keeps its text, so that no digit is lost; an object keeps its members in
order, one key may come several times.
-/

namespace ReportSql.Json

mutual

inductive Value where
  | null
  | boolean (value : Bool)
  | number (text : String)
  | text (value : String)
  /-- A text that an escape gives half a character. -/
  | brokenText
  | array (items : List Value)
  | object (members : List Member)

/-- A key and its value. There is no key where an escape gives half a character. -/
structure Member where
  key : Option String
  value : Value

end

namespace Value

def ofNat (n : Nat) : Value := .number (toString n)

def ofOption : Option Value → Value
  | some v => v
  | none => .null

def texts (items : List String) : Value := .array (items.map .text)

/-- An object with a member for each pair. -/
def record (members : List (String × Value)) : Value :=
  .object (members.map fun (key, value) => ⟨some key, value⟩)

/-- The value of the last member with a key. -/
def get? (v : Value) (key : String) : Option Value :=
  match v with
  | .object members => (members.reverse.find? fun m => m.key == some key).map Member.value
  | _ => none

/-- The natural number that a number without sign, fraction and exponent denotes. -/
def nat? : Value → Option Nat
  | .number digits => if digits.all Char.isDigit then digits.toNat? else none
  | _ => none

def string? : Value → Option String
  | .text s => some s
  | _ => none

def bool? : Value → Option Bool
  | .boolean b => some b
  | _ => none

def items? : Value → Option (List Value)
  | .array items => some items
  | _ => none

end Value

end ReportSql.Json
