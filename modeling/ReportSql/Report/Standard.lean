import ReportSql.Join.Order
import ReportSql.Report.Fault

/-!
The report of a plan on the usual path: the metric broken down by period and dimensions, over the
rows of one tenant that are finished, not canceled and in the period of the plan.
-/

namespace ReportSql

/-- The value that a parameter is bound to. -/
inductive ParamValue where
  | text (value : String)
  | date (value : Date)
  deriving DecidableEq, Repr

def ParamValue.render : ParamValue → String
  | .text s => s
  | .date d => d.text

end ReportSql

namespace ReportSql.Report.Standard

open Catalog (Metric Schema)
open ReportSql.Tree (Expr Query SelectItem)

def periodName : String := "period"

def valueName : String := "value"

/-! ### Conditions on dates -/

def dateParam (name : String) : Expr := .cast (.param name) "date"

/-- The end of the day that a parameter names. -/
def dayAfter (name : String) : Expr := .paren ((dateParam name).add (.interval "1 day"))

/-- The conditions that a date lies in a range; the last day counts in full. -/
def rangeFilters (date : Expr) (range : Option DateRange) : List Expr :=
  match range with
  | none => []
  | some r =>
    (if r.start.isSome then [date.ge (dateParam "start_date")] else [])
      ++ (if r.stop.isSome then [date.lt (dayAfter "end_date")] else [])

/-- The unit of the periods that a comparison takes as a whole; none where it takes single days. -/
def comparedUnit? : Option Grain → Option String
  | some .week => some Grain.week.unit
  | some .month => some Grain.month.unit
  | some .day | none => none

def between (date : Expr) (start stop : String) : Expr :=
  .paren ((date.ge (dateParam start)).and (date.lt (dayAfter stop)))

/-- Keeps the rows of each compared month up to its own last day. -/
def eitherSpan (date : Expr) : Expr :=
  .paren ((between date "cmp_start_1" "cmp_end_1").or (between date "cmp_start_2" "cmp_end_2"))

/-- Whether compared periods end on days of their own; only months do. -/
def hasOwnEnds (plan : Plan) : Bool := plan.grain = some .month && plan.comparisonEnds.isSome

/-- The condition that a date lies in one of two compared periods. -/
def comparisonFilter (date : Expr) (grain : Option Grain) (ownEnds : Bool) : Expr :=
  match comparedUnit? grain with
  | none => (Expr.callOf "DATE" [date]).isOneOf [dateParam "cmp_date_1", dateParam "cmp_date_2"]
  | some unit =>
    let whole := (Expr.truncate unit date).isOneOf
      [dateParam "cmp_start_1", dateParam "cmp_start_2"]
    if ownEnds then whole.and (eitherSpan date) else whole

def comparisonFilters (plan : Plan) (date : Expr) : List Expr :=
  if plan.comparisonDates.isSome then
    [comparisonFilter date plan.grain (hasOwnEnds plan)]
  else []

/-- Compares two periods; months that end on days of their own have two of these. -/
def checkCompared (plan : Plan) : Except Plan.ComparisonFault Unit :=
  match plan.comparisonDates with
  | none => .ok ()
  | some dates =>
    let ends := plan.comparisonEnds.getD []
    if dates.length != 2 then .error (.dateCount dates.length)
    else if hasOwnEnds plan && ends.length != 2 then .error (.notTwoEnds ends.length)
    else .ok ()

/-! ### Parameters -/

def rangeBindings (range : Option DateRange) : List (String × ParamValue) :=
  match range with
  | none => []
  | some r =>
    (r.start.map fun d => ("start_date", ParamValue.date d)).toList
      ++ (r.stop.map fun d => ("end_date", ParamValue.date d)).toList

def bindPair (first second : String) : List Date → List (String × ParamValue)
  | [a, b] => [(first, .date a), (second, .date b)]
  | _ => []

def comparisonBindings (plan : Plan) : List (String × ParamValue) :=
  match plan.comparisonDates with
  | none => []
  | some dates =>
    match comparedUnit? plan.grain with
    | none => bindPair "cmp_date_1" "cmp_date_2" dates
    | some _ =>
      bindPair "cmp_start_1" "cmp_start_2" dates
        ++ if hasOwnEnds plan then
          bindPair "cmp_end_1" "cmp_end_2" (plan.comparisonEnds.getD [])
        else []

/-- The dates that a report is given by name. -/
def bindings (plan : Plan) : List (String × ParamValue) :=
  rangeBindings plan.dateRange ++ comparisonBindings plan

/-! ### The query -/

/-- What rows are grouped by, each with its name in the output. -/
def keys (plan : Plan) (date : Expr) : List (Expr × String) :=
  (plan.grain.map fun g => (Expr.truncate g.unit date, periodName)).toList
    ++ plan.dimensions.map fun d => (Expr.colOf d.table d.column, d.outputName)

/-- Periods ascend; without them the greatest values come first where rows are limited. -/
def orderItems (plan : Plan) : List Tree.OrderItem :=
  if plan.grain.isSome then [(Expr.col periodName).ascending]
  else if plan.effectiveLimit.isSome then [(Expr.col valueName).descending]
  else []

def completedFilters (schema : Schema) (joined : List String) : List Expr :=
  match schema.completed with
  | some state => if joined.contains state.table then [state.predicate state.table] else []
  | none => []

def query (plan : Plan) (metric : Metric) (schema : Schema) (tenantParam : String) :
    Except Fault Query := do
  let base ← lookup (schema.table metric.baseTable)
  let (dateTable, dateColumn) ← match ← lookup (schema.dateSource metric.baseTable) with
    | some source => pure source
    | none => .error (.missingDateColumn metric.baseTable)
  let date := Expr.colOf dateTable.name dateColumn
  let scope ← lookup (schema.scopeTable metric.baseTable)
  for d in plan.dimensions do
    let _ ← lookup (schema.table d.table)
  let required := metric.baseTable :: dateTable.name :: scope.name
    :: plan.dimensions.map Dimension.table
  let joins ← (Join.resolve schema metric.baseTable required).mapError .join
  let scoping ← match scope.scoping? (.param tenantParam) with
    | some e => pure e
    | none => .error (.missingScopeColumn scope.name)
  (checkCompared plan).mapError fun fault => .plan (.comparison fault)
  let filters := scoping :: completedFilters schema (metric.baseTable :: joins.map Join.Step.table)
    ++ base.cancellation?.toList ++ metric.extraFilters
    ++ rangeFilters date plan.dateRange ++ comparisonFilters plan date
  let keys := keys plan date
  let q : Query := { Query.empty with
    items := keys.map (fun (e, name) => e.as name) ++ [metric.expression.as valueName]
    sources := [⟨.ofName metric.baseTable, joins.map Join.Step.join⟩]
    groupBy := keys.map Prod.fst
    orderBy := orderItems plan }
  let q := q.filterAll filters
  return match plan.effectiveLimit with
    | some n => q.withLimit n
    | none => q

end ReportSql.Report.Standard
