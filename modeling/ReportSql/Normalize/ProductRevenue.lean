import ReportSql.Catalog.Basic
import ReportSql.Normalize.Rules
import ReportSql.Normalize.TableScope
import ReportSql.Tree.Equality
import ReportSql.Tree.Rewrite

/-!
The revenue of a product by its name. A statement that compares the name of a product counts line
items in place of whole transactions, compares names in upper or lower case, and shows zero where
there is nothing to count.
-/

namespace ReportSql.Normalize

open Catalog (LookupFault)
open ReportSql.Tree (Expr Query SelectItem)

structure ProductRevenue where
  dimensionTable : String
  nameColumn : String
  /-- The table and the column that the replaced metric adds up, if it is a sum of a column. -/
  grossColumn : Option (String × String)
  gross : Expr
  lineTable : String
  line : Expr
  lineCancel : Option String

namespace ProductRevenue

def sumColumn? (m : Catalog.Metric) : Option (String × String) :=
  match m.sumArgument? with
  | some (.column (some table) column) => some (table, column)
  | _ => none

def build (catalog : Catalog) (rule : ProductRevenueRule) : Except LookupFault ProductRevenue := do
  let gross ← catalog.metric rule.grossMetric
  let line ← catalog.metric rule.lineMetric
  let lineTable ← catalog.schema.table line.baseTable
  return {
    dimensionTable := rule.dimensionTable
    nameColumn := rule.nameColumn
    grossColumn := sumColumn? gross
    gross := gross.expression
    lineTable := lineTable.name
    line := line.expression
    lineCancel := lineTable.cancelColumn }

/-! ### Comparisons of the name -/

/-- The two sides of a comparison for equality with the name of a product, the name first. -/
def nameEquality? (p : ProductRevenue) (scope : TableScope) : Expr → Option (Expr × Expr)
  | .binary left .eq right =>
    if scope.isColumn p.nameColumn left then some (left, right)
    else if scope.isColumn p.nameColumn right then some (right, left)
    else none
  | _ => none

def comparesName (p : ProductRevenue) (q : Query) : Bool :=
  match TableScope.of? q p.dimensionTable with
  | some scope => q.exprs.any fun e => e.any fun node => (p.nameEquality? scope node).isSome
  | none => false

/-- Whether any query of a statement compares the name of a product. -/
def applies (p : ProductRevenue) (q : Query) : Bool := q.queries.any p.comparesName

/-! ### Metrics -/

/-- Whether a node is the metric that is replaced, in a query that has the table of that metric in
a scope or not. -/
def isGross (p : ProductRevenue) (scope : Option TableScope) (node : Expr) : Bool :=
  match p.grossColumn with
  | none => node == p.gross
  | some (table, column) =>
    match node with
    | .call name [argument] false =>
      Text.sameIgnoringAsciiCase name "sum" && match scope with
        | some scope => scope.isColumn column argument
        | none => argument == Expr.colOf table column
    | _ => false

/-- The metric that replaces it, for line items under some name. -/
def lineExpr (p : ProductRevenue) (binding : String) : Expr :=
  (p.line.replace fun
    | .column (some table) column =>
      if Text.sameIgnoringAsciiCase table p.lineTable then some (.column (some binding) column)
      else none
    | _ => none).1

/-! ### Queries -/

def replaceGross (p : ProductRevenue) (scope : TableScope) (q : Query) : Query :=
  let grossScope := p.grossColumn.bind fun (table, _) => TableScope.of? q table
  (q.replaceExprs fun node =>
    if p.isGross grossScope node then some (p.lineExpr scope.binding) else none).1

/-- Leaves out canceled line items unless a condition is about that already. -/
def ensureNotCanceled (p : ProductRevenue) (scope : TableScope) (q : Query) : Query :=
  match p.lineCancel with
  | none => q
  | some cancel =>
    if q.condition.any (scope.mentions cancel) then q
    else q.editConjuncts (· ++ [(Expr.colOf scope.binding cancel).isNotTrue])

def countLines (p : ProductRevenue) (q : Query) : Query :=
  match TableScope.of? q p.lineTable with
  | some scope => p.ensureNotCanceled scope (p.replaceGross scope q)
  | none => q

def matchNames (p : ProductRevenue) (q : Query) : Query :=
  match TableScope.of? q p.dimensionTable with
  | some scope =>
    (q.replaceExprs fun node =>
      (p.nameEquality? scope node).map fun (name, value) => .binary name .ilike value).1
  | none => q

/-- An aggregate that is zero where there is nothing to count. -/
def defaultToZero (i : SelectItem) : SelectItem :=
  if i.expr.isAggregate then { i with expr := .callOf "COALESCE" [i.expr, .int 0] } else i

def rewriteQuery (p : ProductRevenue) (q : Query) : Query :=
  let q := p.matchNames (p.countLines q)
  { q with items := q.items.map defaultToZero }

def apply (p : ProductRevenue) (q : Query) : Query × Bool :=
  if p.applies q then (q.forEach p.rewriteQuery, true) else (q, false)

end ProductRevenue

end ReportSql.Normalize
