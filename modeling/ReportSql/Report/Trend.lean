import ReportSql.Report.Fault

/-!
The report of a trend: the revenue of line items by one dimension, in recent weeks against the
weeks before, ranked by the change. The database finds the start of the current week, so that the
same plan always gives the same text.
-/

namespace ReportSql.Report

/-- The defaults of a report. -/
structure Options where
  /-- The parameter that holds the tenant. -/
  tenantParam : String
  recentWeeks : Nat
  priorWeeks : Nat
  /-- The number of rows of a trend. -/
  limit : UInt64
  deriving DecidableEq, Repr

end ReportSql.Report

namespace ReportSql.Report.Trend

open Catalog (Metric Schema Table)
open ReportSql.Tree (Expr Query Cte Source)

/-! ### The queries by name -/

def boundsName : String := "bounds"

def windowName : String := "s"

def totalsName : String := "agg"

def rankedName : String := "ranked"

def weekStartName : String := "week_start_current"

/-- The dimension of a plan that names none. -/
def defaultDimension : Dimension := ⟨"products", "name", some "product"⟩

/-- The keys of the first declared join of two tables, each with its own table. -/
def keyPair? (schema : Schema) (a b : String) : Option (String × String) :=
  schema.edges.findSome? fun e =>
    if e.leftTable == a && e.rightTable == b then some (e.leftKey, e.rightKey)
    else if e.rightTable == a && e.leftTable == b then some (e.rightKey, e.leftKey)
    else none

def weekStart : Expr := .colOf boundsName weekStartName

def weeksBefore (weeks : Nat) : Expr :=
  .paren (weekStart.sub (.interval (toString (weeks * 7) ++ " days")))

/-- The number of weeks asked for; zero asks for the default. -/
def weekCount (asked : Option Nat) (default : Nat) : Nat := (asked.filter (· != 0)).getD default

/-- All that the queries of a trend are made from. -/
structure Parts where
  line : Table
  anchor : Table
  /-- What the metric adds up. -/
  revenue : Expr
  dateColumn : String
  lineKey : String
  anchorKey : String
  recentWeeks : Nat
  priorWeeks : Nat
  dimension : Dimension
  /-- The column of the line items that the rows are grouped by. -/
  groupKey : String
  /-- The key of the table of the dimension, unless the line items have the dimension. -/
  dimensionKey : Option String
  scoping : Expr
  completed : Option Expr
  lineFilters : List Expr

/-! ### Collecting the parts -/

def require {α : Type} (fault : Fault) : Option α → Except Fault α
  | some a => .ok a
  | none => .error fault

/-- The column that rows are grouped by, and the key that the dimension is joined by. -/
def grouping (schema : Schema) (line : String) (d : Dimension) :
    Except Fault (String × Option String) :=
  if d.table == line then .ok (d.column, none)
  else match keyPair? schema line d.table with
    | some (foreign, primary) => .ok (foreign, some primary)
    | none => .error (.unsupportedTrend (.notJoined d.table line))

def completed? (schema : Schema) (anchor : String) : Option Expr :=
  match schema.completed with
  | some state => if state.table == anchor then some (state.predicate anchor) else none
  | none => none

def parts (plan : Plan) (trend : ReportSql.Trend) (metric : Metric) (schema : Schema)
    (options : Options) : Except Fault Parts := do
  let line ← lookup (schema.table metric.baseTable)
  let anchorName ← require (.unsupportedTrend (.noAnchor line.name)) line.anchor
  let anchor ← lookup (schema.table anchorName)
  let revenue ← require (.unsupportedTrend (.notASum metric.key)) metric.sumArgument?
  let dateColumn ← require (.missingDateColumn anchor.name) anchor.dateColumn
  let (lineKey, anchorKey) ←
    require (.join (.noPath line.name anchor.name)) (keyPair? schema line.name anchor.name)
  let dimension := plan.dimensions.head?.getD defaultDimension
  let _ ← lookup (schema.table dimension.table)
  let scoping ←
    require (.missingScopeColumn anchor.name) (anchor.scoping? (.param options.tenantParam))
  let (groupKey, dimensionKey) ← grouping schema line.name dimension
  return {
    line, anchor, revenue, dateColumn, lineKey, anchorKey
    recentWeeks := weekCount trend.recentWeeks options.recentWeeks
    priorWeeks := weekCount trend.priorWeeks options.priorWeeks
    dimension, groupKey, dimensionKey, scoping
    completed := completed? schema anchor.name
    lineFilters := line.cancellation?.toList ++ metric.extraFilters }

/-! ### The queries -/

/-- The start of the current week. -/
def bounds : Query :=
  .ofItems [(Expr.cast (.truncate "week" (.callOf "NOW" [])) "timestamp").as weekStartName]

namespace Parts

/-- The transactions of all the weeks. -/
def window (p : Parts) : Query :=
  let date := Expr.colOf p.anchor.name p.dateColumn
  let q := Query.ofItems [(Expr.colOf p.anchor.name p.anchorKey).item, date.item]
  let q := (q.addSource (.ofName p.anchor.name)).join ⟨.cross, .ofName boundsName, none⟩
  q.filterAll (p.scoping :: p.completed.toList ++ [
    date.ge (weeksBefore (p.recentWeeks + p.priorWeeks)),
    date.lt weekStart])

/-- The revenue of the rows with some condition. -/
def revenueWhere (p : Parts) (condition : Expr) : Expr :=
  (Expr.ifElse condition p.revenue (.int 0)).sum

/-- The revenue of the recent and of the prior weeks. -/
def totals (p : Parts) : Query :=
  let date := Expr.colOf windowName p.dateColumn
  let group := Expr.colOf p.line.name p.groupKey
  let recentStart := weeksBefore p.recentWeeks
  let q := Query.ofItems [
    group.as p.groupKey,
    (p.revenueWhere (date.ge recentStart)).as "recent_rev",
    (p.revenueWhere (date.lt recentStart)).as "prior_rev"]
  let match? := (Expr.colOf p.line.name p.lineKey).eq (.colOf windowName p.anchorKey)
  let q := (q.addSource (.ofName windowName)).join ⟨.inner, .ofName p.line.name, some match?⟩
  let q := q.join ⟨.cross, .ofName boundsName, none⟩
  (q.filterAll p.lineFilters).withGroups [group]

def ranked (p : Parts) : Query :=
  let recent := Expr.col "recent_rev"
  let prior := Expr.col "prior_rev"
  let delta := recent.sub prior
  let change := Expr.ifElse (prior.eq (.int 0)) .null ((Expr.paren delta).div prior)
  (Query.ofItems [
    (Expr.col p.groupKey).item, recent.item, prior.item,
    delta.as "delta", change.as "pct_change"]).addSource (.ofName totalsName)

/-- The dimension as it is shown. -/
def label (p : Parts) : Expr :=
  if p.dimensionKey.isSome then .colOf p.dimension.table p.dimension.column
  else .colOf rankedName p.groupKey

def query (p : Parts) (order : Tree.OrderItem) (limit : UInt64) : Query :=
  let q := ([
    Cte.ofQuery boundsName bounds,
    .ofQuery windowName p.window,
    .ofQuery totalsName p.totals,
    .ofQuery rankedName p.ranked].foldl Query.withCte Query.empty).select [
      p.label.as p.dimension.outputName,
      (Expr.col "recent_rev").item,
      (Expr.col "prior_rev").item,
      (Expr.col "delta").item,
      (Expr.col "pct_change").item]
  let q := q.addSource (.ofName rankedName)
  let q := match p.dimensionKey with
    | some key => q.join {
        kind := .left
        source := .ofName p.dimension.table
        condition := some ((Expr.colOf p.dimension.table key).eq (.colOf rankedName p.groupKey)) }
    | none => q
  (q.withOrder [order]).withLimit limit

end Parts

/-- Unknown changes come last. -/
def orderItem : Ranking → Tree.OrderItem
  | .delta => (Expr.col "delta").descending
  | .percentChange => { (Expr.col "pct_change").descending with nulls := some .last }

def query (plan : Plan) (trend : ReportSql.Trend) (metric : Metric) (schema : Schema)
    (options : Options) : Except Fault Query := do
  let p ← parts plan trend metric schema options
  return p.query (orderItem (trend.rankBy.getD .delta)) (plan.effectiveLimit.getD options.limit)

end ReportSql.Report.Trend
