import ReportSql.Sql.Grammar
import ReportSql.Tree.OfSyntax

/-!
Reading SQL text into trees. Placeholders are masked first, so that they come back as parameters.
-/

namespace ReportSql.Tree

inductive ReadError where
  /-- The text is no SQL. -/
  | malformed
  | notAnExpression (text : String)
  | notAQuery (text : String)
  | unsupported (construct : String)
  deriving DecidableEq, Repr

def ReadError.message : ReadError → String
  | .malformed => "SQL syntax error"
  | .notAnExpression text => "expected a single expression: " ++ text
  | .notAQuery text => "expected a single query: " ++ text
  | .unsupported construct => "unsupported SQL construct: " ++ construct

/-- The statements of a text that may hold placeholders. -/
def statements? (text : String) : Option (List Sql.Statement) :=
  Sql.statements? (Sql.Placeholder.mask text)

def lift {α : Type} (c : Converted α) : Except ReadError α :=
  c.mapError fun e => .unsupported e.construct

/-- Reads a text that is one query. -/
def Query.read (text : String) : Except ReadError Query :=
  match statements? text with
  | none => .error .malformed
  | some [.query q] => lift (Query.ofSyntax q)
  | some _ => .error (.notAQuery text)

/-- The only item of a select list over no source. -/
def loneItem? (q : Sql.Query) : Option Sql.Expr :=
  match q.body with
  | .select s =>
    match s.items, s.sources with
    | [.expr e none], [] => some e
    | _, _ => none
  | _ => none

/-- Reads a text that is one expression. -/
def Expr.read (text : String) : Except ReadError Expr :=
  match statements? ("SELECT " ++ text) with
  | some [.query q] =>
    match loneItem? q with
    | some e => lift (Expr.ofSyntax e)
    | none => .error (.notAnExpression text)
  | _ => .error (.notAnExpression text)

end ReportSql.Tree
