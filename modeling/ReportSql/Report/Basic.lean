import ReportSql.Report.Standard
import ReportSql.Report.Trend
import ReportSql.Sql.Placeholder
import ReportSql.Tree.Render

/-!
Reports: the SQL of a plan, and the parameters to bind when it is run. The values of a plan are
bound by name and never stand in the text.
-/

namespace ReportSql

/-- The text of a report and the values of its parameters. -/
structure Report where
  sql : String
  params : List (String × ParamValue)
  deriving DecidableEq, Repr

namespace Report

open ReportSql.Tree (Query)

/-- The trend of a plan, if it asks for one and the metric counts line items. -/
def trend? (plan : Plan) (base : Catalog.Table) : Option ReportSql.Trend :=
  if base.anchor.isSome then plan.completeWeeksTrend else none

/-- The query of a plan, and the values it is given besides the tenant. -/
def query (plan : Plan) (catalog : Catalog) (options : Options) :
    Except Fault (Query × List (String × ParamValue)) := do
  plan.check.mapError .plan
  let _ ← lookup (catalog.schema.table plan.baseTable)
  let metric ← lookup (catalog.metric plan.metric)
  let base ← lookup (catalog.schema.table metric.baseTable)
  match trend? plan base with
  | some trend => return (← Trend.query plan trend metric catalog.schema options, [])
  | none =>
    let q ← Standard.query plan metric catalog.schema options.tenantParam
    return (q, Standard.bindings plan)

/-- The values of the parameters that a text mentions. -/
def paramsOf (sql : String) (bindings : List (String × ParamValue)) :
    List (String × ParamValue) :=
  (Sql.Placeholder.names sql).filterMap fun name => (bindings.lookup name).map (name, ·)

/-- Makes the report of a plan. A date has its name even where the tenant is bound by the same. -/
def compile (plan : Plan) (catalog : Catalog) (options : Options) : Except Fault Report := do
  let (q, bindings) ← query plan catalog options
  let sql := q.sql
  return ⟨sql, paramsOf sql (bindings ++ [(options.tenantParam, .text plan.tenant)])⟩

end Report

end ReportSql
