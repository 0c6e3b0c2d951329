import ReportSql.Catalog.Schema
import ReportSql.Tree.Walk

/-!
Catalogs: a schema and the metrics that are defined over it. A metric is an aggregation over a
base table, without subqueries; a catalog can only be built without faults.
-/

namespace ReportSql.Catalog

open ReportSql.Tree (Expr)

structure Metric where
  key : String
  baseTable : String
  expression : Expr
  /-- Conditions on the rows that the metric counts. -/
  extraFilters : List Expr
  description : Option String

/-- What a metric that is a plain SUM adds up over the rows. -/
def Metric.sumArgument? (m : Metric) : Option Expr :=
  match m.expression with
  | .call name [argument] false =>
    if Text.sameIgnoringAsciiCase name "sum" then some argument else none
  | _ => none

/-! ### Faults -/

inductive ExpressionFault where
  | notAnAggregation
  | subquery
  | aggregatingFilter
  /-- The text of an expression cannot be read. -/
  | unreadable (reason : String)
  deriving DecidableEq, Repr

def ExpressionFault.reason : ExpressionFault → String
  | .notAnAggregation => "expression must be an aggregation"
  | .subquery => "subqueries are not allowed"
  | .aggregatingFilter => "extra filters must not aggregate"
  | .unreadable reason => reason

inductive Fault where
  | schema (fault : SchemaFault)
  | duplicateMetric (key : String)
  | unknownBaseTable (metric table : String)
  | expression (metric : String) (fault : ExpressionFault)
  deriving DecidableEq, Repr

def Fault.message : Fault → String
  | .schema fault => fault.message
  | .duplicateMetric key => "duplicate metric: " ++ key
  | .unknownBaseTable metric table =>
    "metric " ++ metric ++ " references unknown table " ++ table
  | .expression metric fault =>
    "invalid expression for metric " ++ metric ++ ": " ++ fault.reason

def hasSubquery (e : Expr) : Bool := e.any fun node => node.query?.isSome

def metricFault? (schema : Schema) (m : Metric) : Option Fault :=
  if (schema.table? m.baseTable).isNone then some (.unknownBaseTable m.key m.baseTable)
  else if !m.expression.containsAggregate then some (.expression m.key .notAnAggregation)
  else if hasSubquery m.expression || m.extraFilters.any hasSubquery then
    some (.expression m.key .subquery)
  else if m.extraFilters.any Expr.containsAggregate then
    some (.expression m.key .aggregatingFilter)
  else none

/-- The first fault of some metrics after those with the given keys. -/
def metricsFault? (schema : Schema) (seen : List String) : List Metric → Option Fault
  | [] => none
  | m :: rest =>
    if seen.contains m.key then some (.duplicateMetric m.key)
    else metricFault? schema m <|> metricsFault? schema (m.key :: seen) rest

end ReportSql.Catalog

namespace ReportSql

open Catalog (Schema Metric Fault)

structure Catalog where
  schema : Schema
  metrics : List Metric
  faultless : Catalog.metricsFault? schema [] metrics = none

namespace Catalog

/-- Builds a catalog unless one of its metrics has a fault. -/
def build (schema : Schema) (metrics : List Metric) : Except Fault Catalog :=
  match h : metricsFault? schema [] metrics with
  | some fault => .error fault
  | none => .ok ⟨schema, metrics, h⟩

def metric (c : Catalog) (key : String) : Except LookupFault Metric :=
  match c.metrics.find? fun m => m.key == key with
  | some m => .ok m
  | none => .error (.unknownMetric key)

end Catalog

end ReportSql
