import ReportSql.Catalog.Basic
import ReportSql.Toml.Reader
import ReportSql.Tree.Read

/-!
Catalogs in TOML. The expressions of metrics are written as SQL and read into trees.
-/

namespace ReportSql.Catalog

open Toml (Value)

/-! ### Entries -/

def Role.ofName? : String → Option Role
  | "fact" => some .fact
  | "dimension" => some .dimension
  | _ => none

def EdgeKind.ofName? : String → Option EdgeKind
  | "inner" => some .inner
  | "left" => some .left
  | _ => none

def Hierarchy.ofToml? (v : Value) : Option Hierarchy := do
  let r ← v.record? ["id", "parent", "label"]
  return {
    id := ← r.required "id" Value.string?
    parent := ← r.required "parent" Value.string?
    label := ← r.required "label" Value.string? }

def Table.ofToml? (v : Value) : Option Table := do
  let r ← v.record? ["name", "role", "primary_key", "scope_column", "date_column",
    "cancel_column", "anchor", "hierarchy"]
  return {
    name := ← r.required "name" Value.string?
    role := ← r.required "role" fun v => v.name? >>= Role.ofName?
    primaryKey := ← r.defaulted "primary_key" Value.string? "uuid"
    scopeColumn := ← r.optional "scope_column" Value.string?
    dateColumn := ← r.optional "date_column" Value.string?
    cancelColumn := ← r.optional "cancel_column" Value.string?
    anchor := ← r.optional "anchor" Value.string?
    hierarchy := ← r.optional "hierarchy" Hierarchy.ofToml? }

def Edge.ofToml? (v : Value) : Option Edge := do
  let r ← v.record? ["left_table", "left_key", "right_table", "right_key", "kind"]
  return {
    leftTable := ← r.required "left_table" Value.string?
    leftKey := ← r.required "left_key" Value.string?
    rightTable := ← r.required "right_table" Value.string?
    rightKey := ← r.required "right_key" Value.string?
    kind := ← r.defaulted "kind" (fun v => v.name? >>= EdgeKind.ofName?) .inner }

def CompletedState.ofToml? (v : Value) : Option CompletedState := do
  let r ← v.record? ["table", "column", "value"]
  return {
    table := ← r.required "table" Value.string?
    column := ← r.required "column" Value.string?
    value := ← r.required "value" Value.string? }

/-- A metric whose expressions are still text. -/
structure MetricEntry where
  key : String
  baseTable : String
  expression : String
  extraFilters : List String
  description : Option String

def MetricEntry.ofToml? (v : Value) : Option MetricEntry := do
  let r ← v.record? ["key", "base_table", "expression", "extra_filters", "description"]
  return {
    key := ← r.required "key" Value.string?
    baseTable := ← r.required "base_table" Value.string?
    expression := ← r.required "expression" Value.string?
    extraFilters := ← r.defaulted "extra_filters" (Value.list? Value.string?) []
    description := ← r.optional "description" Value.string? }

/-- Reads the expressions of a metric. -/
def MetricEntry.metric (m : MetricEntry) : Except Fault Metric := do
  let read (text : String) : Except Fault Tree.Expr :=
    (Tree.Expr.read text).mapError fun e => .expression m.key (.unreadable e.message)
  let expression ← read m.expression
  let extraFilters ← m.extraFilters.mapM read
  return {
    key := m.key
    baseTable := m.baseTable
    expression
    extraFilters
    description := m.description }

/-! ### Catalogs -/

/-- The content of a catalog before it is checked. -/
structure Entries where
  completed : Option CompletedState
  tables : List Table
  edges : List Edge
  metrics : List MetricEntry

def Entries.ofToml? (v : Value) : Option Entries := do
  let r ← v.record? ["completed_state", "tables", "joins", "metrics"]
  return {
    completed := ← r.optional "completed_state" CompletedState.ofToml?
    tables := ← r.defaulted "tables" (Value.list? Table.ofToml?) []
    edges := ← r.defaulted "joins" (Value.list? Edge.ofToml?) []
    metrics := ← r.defaulted "metrics" (Value.list? MetricEntry.ofToml?) [] }

def Entries.catalog (e : Entries) : Except Fault Catalog := do
  let schema ← (Schema.build e.tables e.edges e.completed).mapError .schema
  let metrics ← e.metrics.mapM MetricEntry.metric
  Catalog.build schema metrics

inductive ReadError where
  /-- The text describes no catalog. -/
  | malformed
  | fault (fault : Fault)
  deriving DecidableEq, Repr

/-- Reads the TOML text of a catalog. -/
def read (text : String) : Except ReadError Catalog :=
  match Value.read? text >>= Entries.ofToml? with
  | none => .error .malformed
  | some entries => entries.catalog.mapError .fault

end ReportSql.Catalog
