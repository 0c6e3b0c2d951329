/-!
Records of named fields, as they come from a document. Each field is read on its own; what is read
fails where a field that has to be given is missing, or where the value of a field does not fit.
-/

namespace ReportSql

/-- The fields of a record that are given, each with its value. -/
structure Record (ν : Type) where
  fields : List (String × ν)

namespace Record

variable {ν α : Type}

def required (r : Record ν) (name : String) (read : ν → Option α) : Option α :=
  r.fields.lookup name >>= read

/-- A field that stands for its default when it is missing. -/
def defaulted (r : Record ν) (name : String) (read : ν → Option α) (default : α) : Option α :=
  match r.fields.lookup name with
  | none => some default
  | some v => read v

/-- A field that may be missing. -/
def optional (r : Record ν) (name : String) (read : ν → Option α) : Option (Option α) :=
  r.defaulted name (fun v => (read v).map some) none

/-- Whether no field is given twice. -/
def isFunctional : List (String × ν) → Bool
  | [] => true
  | (name, _) :: rest => rest.all (fun f => f.1 != name) && isFunctional rest

end Record

end ReportSql
