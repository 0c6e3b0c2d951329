import ReportSql.Proofs.DimensionNames
import ReportSql.Proofs.Outcomes
import ReportSql.Proofs.SoundCatalogs

/-!
What reports are made from. A report on the usual path has its tables, its joins and the condition
on its tenant; a trend has its line items, their anchor and the conditions on both.
-/
namespace ReportSql.Report

open Catalog (Metric Schema Table table_found)
open ReportSql.Tree (Expr Query)

variable {plan : Plan} {metric : Metric} {schema : Schema} {tenantParam : String} {q : Query}

namespace Standard

/-- What a report on the usual path is made from. -/
structure Made (plan : Plan) (metric : Metric) (schema : Schema) (tenantParam : String) where
  base : Table
  dateTable : Table
  dateColumn : String
  scope : Table
  joins : List Join.Step
  scoping : Expr
  baseFound : schema.table metric.baseTable = .ok base
  dated : schema.dateSource metric.baseTable = .ok (some (dateTable, dateColumn))
  scopeFound : schema.scopeTable metric.baseTable = .ok scope
  joined : Join.resolve schema metric.baseTable (metric.baseTable :: dateTable.name :: scope.name
    :: plan.dimensions.map Dimension.table) = .ok joins
  owned : scope.scoping? (.param tenantParam) = some scoping

namespace Made

variable (m : Made plan metric schema tenantParam)

/-- The date of a row. -/
def date : Expr := .colOf m.dateTable.name m.dateColumn

/-- The conditions on the rows, those on their dates apart. -/
def rowFilters : List Expr :=
  m.scoping :: completedFilters schema (metric.baseTable :: m.joins.map Join.Step.table)
    ++ m.base.cancellation?.toList ++ metric.extraFilters

def filters : List Expr :=
  m.rowFilters ++ rangeFilters m.date plan.dateRange ++ comparisonFilters plan m.date

def query : Query := assembled plan metric.baseTable m.joins m.date m.filters metric.expression

end Made

/-- A report that is made compares two periods, if any. -/
theorem query_made (h : query plan metric schema tenantParam = .ok q) :
    ∃ m : Made plan metric schema tenantParam, q = m.query ∧ checkCompared plan = .ok () := by
  obtain ⟨base, found, h⟩ := bind_eq_ok.mp h
  obtain ⟨source?, dated, h⟩ := bind_eq_ok.mp h
  cases source? with
  | none => cases h
  | some source =>
      obtain ⟨_, ⟨⟩, h⟩ := bind_eq_ok.mp h
      obtain ⟨dateTable, dateColumn⟩ := source
      obtain ⟨scope, scopeFound, h⟩ := bind_eq_ok.mp h
      obtain ⟨_, -, h⟩ := bind_eq_ok.mp h
      obtain ⟨joins, joined, h⟩ := bind_eq_ok.mp h
      cases owned : scope.scoping? (.param tenantParam) with
      | none =>
          rw [owned] at h
          cases h
      | some scoping =>
          rw [owned] at h
          obtain ⟨_, ⟨⟩, h⟩ := bind_eq_ok.mp h
          obtain ⟨⟨⟩, compared, h⟩ := bind_eq_ok.mp h
          refine ⟨⟨base, dateTable, dateColumn, scope, joins, scoping, ok_of_mapError found,
            ok_of_mapError dated, ok_of_mapError scopeFound, ok_of_mapError joined, owned⟩, ?_,
            ok_of_mapError compared⟩
          rw [Made.query, assembled_eq]
          exact (Except.ok.inj h).symm

theorem query_ok (h : query plan metric schema tenantParam = .ok q) :
    ∃ m : Made plan metric schema tenantParam, q = m.query :=
  (query_made h).imp fun _ => And.left

end Standard

namespace Trend

variable {trend : ReportSql.Trend} {options : Options} {p : Parts}

/-- What the parts of a trend are. -/
structure Collected (metric : Metric) (schema : Schema) (options : Options) (p : Parts) :
    Prop where
  line : schema.table metric.baseTable = .ok p.line
  anchored : p.line.anchor = some p.anchor.name
  anchor : schema.table p.anchor.name = .ok p.anchor
  revenue : metric.sumArgument? = some p.revenue
  dateColumn : p.anchor.dateColumn = some p.dateColumn
  matched : keyPair? schema p.line.name p.anchor.name = some (p.lineKey, p.anchorKey)
  scoping : p.anchor.scoping? (.param options.tenantParam) = some p.scoping
  completed : p.completed = completed? schema p.anchor.name
  lineFilters : p.lineFilters = p.line.cancellation?.toList ++ metric.extraFilters

theorem parts_ok (h : parts plan trend metric schema options = .ok p) :
    Collected metric schema options p := by
  obtain ⟨line, found, h⟩ := bind_eq_ok.mp h
  obtain ⟨anchorName, anchored, h⟩ := bind_eq_ok.mp h
  obtain ⟨anchor, anchorFound, h⟩ := bind_eq_ok.mp h
  obtain ⟨revenue, summed, h⟩ := bind_eq_ok.mp h
  obtain ⟨dateColumn, dated, h⟩ := bind_eq_ok.mp h
  obtain ⟨⟨lineKey, anchorKey⟩, matched, h⟩ := bind_eq_ok.mp h
  obtain ⟨_, -, h⟩ := bind_eq_ok.mp h
  obtain ⟨scoping, owned, h⟩ := bind_eq_ok.mp h
  obtain ⟨⟨groupKey, dimensionKey⟩, -, h⟩ := bind_eq_ok.mp h
  obtain rfl := Except.ok.inj h
  have own : schema.table anchorName = .ok anchor := ok_of_mapError anchorFound
  obtain rfl := (table_found own).2
  exact ⟨ok_of_mapError found, eq_some_of_require anchored, own, eq_some_of_require summed,
    eq_some_of_require dated, eq_some_of_require matched, eq_some_of_require owned, rfl, rfl⟩

end Trend

/-! ### Reports -/

variable {catalog : Catalog} {options : Options} {bindings : List (String × ParamValue)}

/-- A report is a trend of the plan, which is given no dates, or made on the usual path. -/
theorem query_paths (h : query plan catalog options = .ok (q, bindings)) :
    plan.check = .ok () ∧ ∃ metric base, catalog.metric plan.metric = .ok metric ∧
      catalog.schema.table metric.baseTable = .ok base ∧
      ((∃ trend p, trend? plan base = some trend ∧
          Trend.parts plan trend metric catalog.schema options = .ok p ∧
          q = p.query (Trend.orderItem (trend.rankBy.getD .delta))
            (plan.effectiveLimit.getD options.limit) ∧ bindings = []) ∨
        trend? plan base = none ∧
          ∃ m : Standard.Made plan metric catalog.schema options.tenantParam,
            q = m.query ∧ bindings = Standard.bindings plan) := by
  obtain ⟨_, checked, h⟩ := bind_eq_ok.mp h
  obtain ⟨_, -, h⟩ := bind_eq_ok.mp h
  obtain ⟨metric, found, h⟩ := bind_eq_ok.mp h
  obtain ⟨base, own, h⟩ := bind_eq_ok.mp h
  refine ⟨ok_of_mapError checked, metric, base, ok_of_mapError found, ok_of_mapError own, ?_⟩
  cases trending : trend? plan base with
  | some trend =>
      rw [trending] at h
      obtain ⟨_, made, h⟩ := bind_eq_ok.mp h
      obtain ⟨p, parts, made⟩ := bind_eq_ok.mp made
      cases h
      cases made
      exact .inl ⟨trend, p, rfl, parts, rfl, rfl⟩
  | none =>
      rw [trending] at h
      obtain ⟨_, made, h⟩ := bind_eq_ok.mp h
      cases h
      obtain ⟨m, rfl⟩ := Standard.query_ok made
      exact .inr ⟨rfl, m, rfl, rfl⟩

theorem query_cases (h : query plan catalog options = .ok (q, bindings)) :
    plan.check = .ok () ∧ ∃ metric, lookup (catalog.metric plan.metric) = .ok metric ∧
      ((∃ p ranking limit, Trend.Collected metric catalog.schema options p ∧
          q = p.query (Trend.orderItem ranking) limit ∧ bindings = []) ∨
        ∃ m : Standard.Made plan metric catalog.schema options.tenantParam,
          q = m.query ∧ bindings = Standard.bindings plan) := by
  obtain ⟨checked, metric, _, found, -, path⟩ := query_paths h
  refine ⟨checked, metric, by rw [lookup, found]; rfl, ?_⟩
  rcases path with ⟨_, p, -, parts, made, none⟩ | ⟨-, made⟩
  · exact .inl ⟨p, _, _, Trend.parts_ok parts, made, none⟩
  · exact .inr made

/-- A trend is only made where the plan asks for it. -/
theorem asked_of_trend {base : Table} {trend : ReportSql.Trend}
    (h : trend? plan base = some trend) : plan.completeWeeksTrend = some trend := by
  unfold trend? at h
  split at h
  · exact h
  · cases h

/-- Whether a plan takes the usual path: it asks for no trend, or its metric counts no line
items. -/
def UsualPath (catalog : Catalog) (plan : Plan) : Prop :=
  ∀ metric base, catalog.metric plan.metric = .ok metric →
    catalog.schema.table metric.baseTable = .ok base → trend? plan base = none

theorem usualPath_of_no_trend (h : plan.completeWeeksTrend = none) : UsualPath catalog plan := by
  intro metric base _ _
  simp [trend?, h]

theorem query_usual (usual : UsualPath catalog plan)
    (h : query plan catalog options = .ok (q, bindings)) :
    ∃ metric, catalog.metric plan.metric = .ok metric ∧
      ∃ m : Standard.Made plan metric catalog.schema options.tenantParam,
        q = m.query ∧ bindings = Standard.bindings plan := by
  obtain ⟨-, metric, base, found, own, ⟨_, _, trending, -⟩ | ⟨-, made⟩⟩ := query_paths h
  · rw [usual metric base found own] at trending
    cases trending
  · exact ⟨metric, found, made⟩

/-- Where a plan has a trend, its report is that of the parts of the trend. -/
theorem query_trend {base : Table} {trend : ReportSql.Trend}
    (found : catalog.metric plan.metric = .ok metric)
    (own : catalog.schema.table metric.baseTable = .ok base)
    (asked : trend? plan base = some trend)
    (h : query plan catalog options = .ok (q, bindings)) :
    ∃ p order limit, Trend.parts plan trend metric catalog.schema options = .ok p ∧
      q = p.query order limit := by
  obtain ⟨-, _, _, found', own', path⟩ := query_paths h
  obtain rfl := Except.ok.inj (found.symm.trans found')
  obtain rfl := Except.ok.inj (own.symm.trans own')
  rcases path with ⟨_, p, asked', parts, made, -⟩ | ⟨none, -⟩
  · obtain rfl := Option.some.inj (asked.symm.trans asked')
    exact ⟨p, _, _, parts, made⟩
  · rw [asked] at none
    cases none

end ReportSql.Report
