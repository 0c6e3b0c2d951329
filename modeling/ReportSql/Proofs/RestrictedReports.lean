import ReportSql.Proofs.ReadReports

/-!
What the texts of reports restrict rows by. A text that is read with the conditions of its report
keeps the one on the tenant, the one on finished transactions and the one on canceled rows, each by
itself. A filter that is an OR without parentheses takes them apart: they are left in one of its
branches.
-/
namespace ReportSql.Report

open Catalog (Metric Schema metricLevels)
open Normalize (conditions)
open ReportSql.Tree (Expr Query Reading opener)
open Sql.Placeholder (isName)

variable {plan : Plan} {metric : Metric} {schema : Schema} {options : Options} {catalog : Catalog}
  {report : Report} {e : Expr} {tenant : String}

/-! ### Conditions that are read as they were -/

theorem scoping_kept {t : Catalog.Table} (h : t.scoping? (.param tenant) = some e) : e.IsKept := by
  obtain ⟨column, -, rfl⟩ := Option.map_eq_some_iff.mp h
  have name : Text.upper "LOWER" = "LOWER" := by decide
  refine ⟨rfl, ?_⟩
  simp only [Expr.eq, Expr.lower, Expr.callOf, Expr.colOf, Expr.reread, Tree.exprsReread, name]

theorem completed_kept {state : Catalog.CompletedState} (name : String)
    (unmarked : Sql.Placeholder.sentinelName? state.value = none) :
    (state.predicate name).IsKept := by
  refine ⟨rfl, ?_⟩
  simp only [Catalog.CompletedState.predicate, Expr.eq, Expr.colOf, Expr.reread, Expr.text,
    Tree.Literal.reread, Tree.ofValue, unmarked]

theorem cancellation_kept {t : Catalog.Table} : ∀ f ∈ t.cancellation?, f.IsKept := by
  intro f hf
  obtain ⟨column, -, rfl⟩ := Option.map_eq_some_iff.mp hf
  exact ⟨rfl, rfl⟩

/-! ### The conditions of a report -/

/-- What the text of a report restricts rows by: one SELECT reads the table that tells the tenant,
under the condition on the tenant and, if finished transactions are marked in this table, the one
on their mark; and one reads the base table under the condition on its flag for canceled rows. -/
structure Restricts (schema : Schema) (metric : Metric) (tenant : String)
    (readings : List Reading) : Prop where
  owned : ∃ scope scoping, schema.scopeTable metric.baseTable = .ok scope ∧
    scope.scoping? (.param tenant) = some scoping ∧
    ∃ r ∈ readings, .ofName scope.name ∈ r.tables ∧ scoping ∈ r.conditions ∧
      ∀ state ∈ schema.completed, state.table = scope.name →
        Sql.Placeholder.sentinelName? state.value = none →
          state.predicate scope.name ∈ r.conditions
  uncanceled : ∃ base, schema.table metric.baseTable = .ok base ∧
    ∃ r ∈ readings, .ofName base.name ∈ r.tables ∧ ∀ f ∈ base.cancellation?, f ∈ r.conditions

theorem Standard.Made.namedTables (m : Standard.Made plan metric schema tenant) :
    m.query.namedTables =
      (metric.baseTable :: m.joins.map Join.Step.table).map Tree.TableRef.ofName := by
  simp [Standard.Made.query, Standard.assembled, Query.namedTables, Query.allSources,
    Tree.FromItem.allSources, Tree.Source.ofName, Join.Step.join, List.filterMap_map,
    Function.comp_def]

theorem Standard.Made.restricts (m : Standard.Made plan metric schema tenant) :
    Restricts schema metric tenant (m.query.readings.map Reading.reread) := by
  have only : m.query.reading.reread ∈ m.query.readings.map Reading.reread :=
    List.mem_singleton_self _
  have kept : ∀ f ∈ m.filters, f.IsKept → f ∈ m.query.reading.reread.conditions :=
    fun f hf own => Tree.mem_reading_reread rfl hf own
  have reads : ∀ t ∈ metric.baseTable :: m.joins.map Join.Step.table,
      .ofName t ∈ m.query.namedTables := fun t ht => m.namedTables ▸ List.mem_map_of_mem ht
  have joined : m.scope.name ∈ metric.baseTable :: m.joins.map Join.Step.table :=
    Join.required_joined m.joined (by simp)
  constructor
  · refine ⟨m.scope, m.scoping, m.scopeFound, m.owned, _, only, reads _ joined,
      kept _ (by simp [filters, rowFilters]) (scoping_kept m.owned), ?_⟩
    intro state known same unmarked
    have completed : state.predicate m.scope.name ∈
        completedFilters schema (metric.baseTable :: m.joins.map Join.Step.table) := by
      have known : schema.completed = some state := known
      have there := List.contains_iff_mem.mpr joined
      simp only [completedFilters, known, same, there, if_true, List.mem_singleton]
    exact kept _ (by simp [filters, rowFilters, completed]) (completed_kept _ unmarked)
  · refine ⟨m.base, m.baseFound, _, only, ?_, fun f hf => ?_⟩
    · rw [(Catalog.table_found m.baseFound).2]
      exact reads _ List.mem_cons_self
    · exact kept f (by simp [filters, rowFilters, Option.mem_toList.mpr hf])
        (cancellation_kept f hf)

namespace Trend

variable {p : Trend.Parts} {order : Tree.OrderItem} {limit : UInt64}

theorem readings_query : (p.query order limit).readings =
    [bounds, p.window, p.totals, p.ranked, p.query order limit].map Query.reading := by
  rw [Query.readings, query_eq]
  rfl

/-- The conditions on the transactions of a trend are read in the SELECT that reads them. -/
theorem window_kept : ∀ f ∈ p.scoping :: p.completed.toList, f.IsKept →
    f ∈ p.window.reading.reread.conditions := fun _ hf =>
  Tree.mem_reading_reread (by rw [window_eq]) (List.mem_append_left _ hf)

theorem completed_of_marked {state : Catalog.CompletedState} (c : Collected metric schema options p)
    (known : schema.completed = some state) (same : state.table = p.anchor.name) :
    p.completed = some (state.predicate p.anchor.name) := by
  rw [c.completed, completed?, known]
  simp only [same, beq_self_eq_true, if_true]

theorem restricts (c : Collected metric schema options p) :
    Restricts schema metric options.tenantParam
      ((p.query order limit).readings.map Reading.reread) := by
  have listed : ∀ r ∈ [bounds, p.window, p.totals, p.ranked, p.query order limit],
      r.reading.reread ∈ (p.query order limit).readings.map Reading.reread :=
    fun r hr => List.mem_map_of_mem (readings_query ▸ List.mem_map_of_mem hr)
  constructor
  · refine ⟨p.anchor, p.scoping, scope_of_collected c, c.scoping, _, listed p.window (by simp), ?_,
      window_kept _ List.mem_cons_self (scoping_kept c.scoping), ?_⟩
    · rw [window_eq]
      exact List.mem_cons_self
    · intro state known same unmarked
      have completed := completed_of_marked c known same
      exact window_kept _ (by simp [completed]) (completed_kept _ unmarked)
  · refine ⟨p.line, c.line, _, listed p.totals (by simp), ?_, fun f hf => ?_⟩
    · rw [totals_eq]
      exact List.mem_cons_of_mem _ List.mem_cons_self
    · have own : f ∈ p.lineFilters := by
        rw [c.lineFilters]
        exact List.mem_append_left _ (Option.mem_toList.mpr hf)
      exact Tree.mem_reading_reread (by rw [totals_eq]) own (cancellation_kept f hf)

end Trend

theorem query_restricts {q : Query} {bindings : List (String × ParamValue)}
    (h : query plan catalog options = .ok (q, bindings)) :
    ∃ metric, catalog.metric plan.metric = .ok metric ∧
      Restricts catalog.schema metric options.tenantParam (q.readings.map Reading.reread) := by
  obtain ⟨-, metric, found, path⟩ := query_cases h
  refine ⟨metric, ok_of_mapError found, ?_⟩
  rcases path with ⟨p, ranking, limit, c, rfl, -⟩ | ⟨m, rfl, -⟩
  · exact Trend.restricts c
  · exact m.restricts

/-- The text of a report is read with the conditions that the report was made from. Among these
are, each by itself, the condition on the tenant, the one on finished transactions beside it and the
one on canceled rows of the base table. -/
theorem compile_restricts (reads : catalog.CanBeRead) (named : isName options.tenantParam = true)
    (columns : plan.completeWeeksTrend.isSome = true →
      ∀ d ∈ plan.dimensions, Tree.startsFreely d.column = true)
    (counted : ∀ n ∈ plan.effectiveLimit, IsCounted n) (limited : IsCounted options.limit)
    (h : compile plan catalog options = .ok report) :
    ∃ q bindings metric r, query plan catalog options = .ok (q, bindings) ∧
      catalog.metric plan.metric = .ok metric ∧ Query.read report.sql = .ok r ∧
      r.readings = q.readings.map Reading.reread ∧
      Restricts catalog.schema metric options.tenantParam r.readings := by
  obtain ⟨⟨q, bindings⟩, made, h⟩ := bind_eq_ok.mp h
  obtain rfl := Except.ok.inj h
  obtain ⟨r, read, readings⟩ :=
    Tree.readings_read (query_readsBack reads named columns counted limited made)
  obtain ⟨metric, found, restricts⟩ := query_restricts made
  exact ⟨q, bindings, metric, r, made, found, read, readings, readings ▸ restricts⟩

theorem expenses_restricted : ∃ report metric r,
    compile (expensesBy "name") Catalog.restaurant (bindingTenant "restaurant") = .ok report ∧
      Catalog.restaurant.metric "expense_total" = .ok metric ∧ Query.read report.sql = .ok r ∧
      Restricts Catalog.Restaurant.schema metric "restaurant" r.readings := by
  have runs : (compile (expensesBy "name") Catalog.restaurant
      (bindingTenant "restaurant")).isOk = true := by decide +kernel
  cases made : compile (expensesBy "name") Catalog.restaurant (bindingTenant "restaurant") with
  | error _ =>
      rw [made] at runs
      cases runs
  | ok report =>
      have counted : ∀ n ∈ (expensesBy "name").effectiveLimit, IsCounted n := by
        rintro _ ⟨⟩
      obtain ⟨_, _, metric, r, -, found, read, -, restricts⟩ := compile_restricts
        Catalog.restaurant_canBeRead (by decide) (fun asked => absurd asked (by decide)) counted
        (by decide) made
      exact ⟨report, metric, r, rfl, found, read, restricts⟩

/-! ### Filters that are an OR -/

/-- A filter that is an OR without parentheses splits the conditions of a report: its text is read
with an OR of all of them, so that the rows of the second branch are not limited to the tenant. -/
theorem Standard.Made.or_splits (m : Standard.Made plan metric schema tenant)
    {a b : Expr} {before after : List Expr} (free : schema.IsFree) (named : isName tenant = true)
    (counted : ∀ n ∈ plan.effectiveLimit, IsCounted n) (value : metric.expression.Fits metricLevels)
    (first : opener metric.expression.tokens ≠ some "TOP")
    (split : metric.extraFilters = before ++ a.or b :: after)
    (others : ∀ f ∈ before ++ after, f.FitsTerms metricLevels)
    (branches : ∀ f ∈ [a, b], f.isTerm = true ∧ f.depth < metricLevels) :
    ∃ r, ∃ x y : Expr, Query.read m.query.sql = .ok r ∧ r.condition = some (x.or y) ∧
      m.scoping ∈ x.conjuncts ∧ m.scoping ∉ conditions r := by
  obtain ⟨column, -, scoping⟩ := Option.map_eq_some_iff.mp m.owned
  have single : m.scoping.terms = [m.scoping] := by
    rw [← scoping]
    rfl
  let earlier := completedFilters schema (metric.baseTable :: m.joins.map Join.Step.table)
    ++ m.base.cancellation?.toList ++ before
  let later := after ++ (rangeFilters m.date plan.dateRange ++ comparisonFilters plan m.date)
  have all : m.filters = m.scoping :: earlier ++ a.or b :: later := by
    simp [filters, rowFilters, split, earlier, later]
  have terms : m.filters.flatMap Expr.terms =
      m.scoping :: earlier.flatMap Expr.terms ++ a.or b :: later.flatMap Expr.terms := by
    rw [all, List.flatMap_append, List.flatMap_cons, List.flatMap_cons, single]
    rfl
  obtain ⟨own, uncanceled⟩ := List.forall_mem_append.mp (m.ownFilters_fit free named)
  obtain ⟨scope, completed⟩ := List.forall_mem_cons.mp own
  obtain ⟨fitBefore, fitAfter⟩ := List.forall_mem_append.mp others
  have fit : ∀ f ∈ m.scoping :: earlier.flatMap Expr.terms ++ a :: b :: later.flatMap Expr.terms,
      f.isTerm = true ∧ f.depth < metricLevels := by
    have fitEarlier : ∀ f ∈ earlier, f.FitsTerms metricLevels := List.forall_mem_append.mpr
      ⟨List.forall_mem_append.mpr ⟨completed, uncanceled⟩, fitBefore⟩
    have fitLater : ∀ f ∈ later, f.FitsTerms metricLevels :=
      List.forall_mem_append.mpr ⟨fitAfter, m.dateFilters_fit free⟩
    rw [List.forall_mem_append, List.forall_mem_cons, List.forall_mem_cons, List.forall_mem_cons]
    exact ⟨⟨scope m.scoping (single ▸ List.mem_singleton_self _),
      Tree.flatMap_terms_fit fitEarlier⟩, branches a List.mem_cons_self,
      branches b (List.mem_cons_of_mem a List.mem_cons_self), Tree.flatMap_terms_fit fitLater⟩
  have none : ∀ f ∈ ([] : List Expr), f.FitsTerms metricLevels := List.forall_mem_nil _
  have fits := assembled_fits (m.base_free free) (m.date_operand free) (m.dimensions_free free)
    (m.steps_free free) none value first counted
  obtain ⟨r, x, y, read, condition, left, -⟩ :=
    Tree.or_read assembled_isPlain fits (by decide) rfl terms fit
  have whole : conditions r = [x.or y] := by
    rw [conditions, condition]
    rfl
  refine ⟨r, x, y, read, condition, ?_, ?_⟩
  · have kept := scoping_kept m.owned
    rw [left, List.cons_append, List.flatMap_cons, kept.single]
    exact List.mem_map.mpr ⟨m.scoping, List.mem_cons_self, kept.same⟩
  · rw [whole, List.mem_singleton, ← scoping]
    rintro ⟨⟩

/-- Sales with a filter that is an OR: each of them, since one equals one. -/
def anySale : Metric :=
  { Catalog.Restaurant.plainSum "gross_sales" "sales" (.colOf "sales" "total") "Sales." with
    extraFilters := [((Expr.colOf "sales" "name").eq (.text "x")).or ((Expr.int 1).eq (.int 1))] }

theorem anySale_splits :
    ∃ m : Standard.Made (Plan.simple "gross_sales" "sales" "Cafe") anySale
        Catalog.Restaurant.schema "restaurant",
      ∃ r, Query.read m.query.sql = .ok r ∧ m.scoping ∉ conditions r := by
  have runs : (Standard.query (Plan.simple "gross_sales" "sales" "Cafe") anySale
      Catalog.Restaurant.schema "restaurant").isOk = true := by decide +kernel
  have split : anySale.extraFilters = [] ++ ((Expr.colOf "sales" "name").eq (.text "x")).or
      ((Expr.int 1).eq (.int 1)) :: [] := rfl
  have term : ∀ {x y : Expr}, x.IsOperand 0 → y.IsOperand 0 →
      (x.eq y).isTerm = true ∧ (x.eq y).depth < metricLevels := fun hx hy =>
    ⟨Tree.binary_isTerm hx hy (by decide), (Tree.binary_fits hx hy).2.trans_lt (by decide)⟩
  have one : (Expr.int 1).IsOperand 0 := Tree.literal_operand rfl
  have name : (Expr.colOf "sales" "name").IsOperand 0 := Tree.colOf_operand (by decide +kernel) _
  have total : (Expr.colOf "sales" "total").IsOperand 1 :=
    Tree.colOf_operand (by decide +kernel) _
  have value := Catalog.plainSum_canBeRead "gross_sales" "sales" "Sales." total.fits
  cases made : Standard.query (Plan.simple "gross_sales" "sales" "Cafe") anySale
      Catalog.Restaurant.schema "restaurant" with
  | error _ =>
      rw [made] at runs
      cases runs
  | ok q =>
      obtain ⟨m, -⟩ := Standard.query_ok made
      obtain ⟨r, _, _, read, -, -, lost⟩ := m.or_splits Catalog.restaurant_canBeRead.tables
        (by decide) nofun value.value value.first split nofun
        (List.forall_mem_cons.mpr ⟨term name (Tree.literal_operand rfl),
          List.forall_mem_singleton.mpr (term one one)⟩)
      exact ⟨m, r, read, lost⟩

end ReportSql.Report
