import ReportSql.Json.Value
import ReportSql.Record

/-!
Records in JSON. A record is an object, or an array of its first fields in order; a field may be
given once, and members that are no field are passed over.
-/

namespace ReportSql.Json

/-- The members that are fields, unless a key cannot be read. -/
def fieldsOfMembers (names : List String) : List Member → Option (List (String × Value))
  | [] => some []
  | ⟨none, _⟩ :: _ => none
  | ⟨some key, value⟩ :: rest =>
    (fieldsOfMembers names rest).map fun fields =>
      if names.contains key then (key, value) :: fields else fields

/-- Reads a record with some fields. -/
def Value.record? (names : List String) (v : Value) : Option (Record Value) :=
  match v with
  | .object members => do
    let fields ← fieldsOfMembers names members
    if Record.isFunctional fields then some ⟨fields⟩ else none
  | .array items => if items.length ≤ names.length then some ⟨names.zip items⟩ else none
  | _ => none

/-- Null, or what is read. -/
def nullable {α : Type} (read : Value → Option α) : Value → Option (Option α)
  | .null => some none
  | v => (read v).map some

/-- A field that may be missing or null. -/
def nullableField {α : Type} (r : Record Value) (name : String) (read : Value → Option α) :
    Option (Option α) :=
  r.defaulted name (nullable read) none

/-- The items of an array, each of them read. -/
def Value.list? {α : Type} (read : Value → Option α) (v : Value) : Option (List α) :=
  v.items? >>= List.mapM read

end ReportSql.Json
