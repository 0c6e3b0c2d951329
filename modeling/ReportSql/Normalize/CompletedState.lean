import ReportSql.Catalog.Schema
import ReportSql.Normalize.TableScope
import ReportSql.Tree.Rewrite

/-!
Statements that read transactions have to keep to finished ones. Each query that names the table
of transactions must say so in a condition that all its rows meet: in its WHERE clause, in the
condition of an inner join, or in the condition that joins the table itself.
-/

namespace ReportSql.Normalize

open Catalog (CompletedState)
open ReportSql.Tree (Expr Join Query Source)

/-- Whether an expression is a given text, in upper or lower case. -/
def isText (value : String) : Expr → Bool
  | .literal (.text s) => Text.sameIgnoringAsciiCase s value
  | _ => false

/-- Whether a condition says that a transaction is finished, in parentheses or not. -/
def isStateCheck (scope : TableScope) (state : CompletedState) : Expr → Bool
  | .paren inner => isStateCheck scope state inner
  | .binary left .eq right =>
    (scope.isColumn state.column left && isText state.value right)
      || (scope.isColumn state.column right && isText state.value left)
  | _ => false

def Join.brings (table : String) (j : Join) : Bool :=
  match j.source with
  | .named t => Text.sameIgnoringAsciiCase t.table table
  | _ => false

/-- The conditions of a query that hold of each of its rows of a table. -/
def bindingConditions (q : Query) (table : String) : List Expr :=
  q.condition.toList ++ q.sources.flatMap fun f =>
    (f.joins.filter fun j => j.kind = .inner || Join.brings table j).filterMap (·.condition)

/-- Whether a query keeps to finished transactions. -/
def keepsCompleted (state : CompletedState) (q : Query) (scope : TableScope) : Bool :=
  ((bindingConditions q state.table).flatMap Expr.conjuncts).any (isStateCheck scope state)

/-- Whether each query that names the table keeps to finished transactions, if any reads it. Where
it is read by raw SQL only, that cannot be told. -/
def allKeepCompleted (state : CompletedState) (q : Query) : Bool :=
  if q.reads state.table then
    let blocks := q.queries.filterMap fun b => (TableScope.of? b state.table).map (b, ·)
    !blocks.isEmpty && blocks.all fun (b, scope) => keepsCompleted state b scope
  else true

end ReportSql.Normalize
