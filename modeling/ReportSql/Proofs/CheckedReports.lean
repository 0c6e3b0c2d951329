import ReportSql.Proofs.AllowedReports
import ReportSql.Proofs.NormalizedChecks
import ReportSql.Proofs.RestrictedReports

/-!
Reports at the gateway that makes them. Where the policy of a gateway allows what the reports of its
catalog read and call, and what the catalog gives can be read back, the gateway lets the texts of
its reports through. A trend asks for finished transactions only where it reads the anchor: one that
reads them once more for its dimension is refused.
-/
namespace ReportSql.Output

open Text (sameIgnoringAsciiCase)

/-- Names without capitals that agree but for case are the same. -/
theorem eq_of_bareName {a b : String} (ha : isBareName a = true) (hb : isBareName b = true)
    (h : sameIgnoringAsciiCase a b = true) : a = b := by
  have lower : ∀ {name : String}, isBareName name = true → Text.asciiLower name = name :=
    fun bare => (Text.lower_of_ascii (bareName_ascii bare)).symm.trans (lower_bareName bare)
  rw [← lower ha, ← lower hb, Text.asciiLower, Text.asciiLower]
  exact congrArg String.ofList (beq_iff_eq.mp h)

end ReportSql.Output

namespace ReportSql.Normalize

open Catalog (CompletedState)
open Text (sameIgnoringAsciiCase)
open ReportSql.Tree (Expr Query Reading)

variable {state : CompletedState} {q b : Query} {e : Expr} {r : Reading} {n : String}

/-- Whether a reading of the table of transactions has the condition on finished ones. -/
def KeepsTo (state : CompletedState) (r : Reading) : Prop :=
  ∀ t ∈ r.tables, sameIgnoringAsciiCase t.table state.table = true →
    state.predicate t.binding ∈ r.conditions

theorem keeps_of_reading (h : KeepsTo state b.reading) : Keeps state b := by
  intro scope hs
  obtain ⟨t, ht, rfl⟩ := Option.map_eq_some_iff.mp hs
  have listed : t ∈ b.namedTables := List.mem_of_find?_eq_some ht
  have same : sameIgnoringAsciiCase t.table state.table = true := by
    simpa using List.find?_some ht
  have binding := binding_mem_qualifiersFor listed same
  refine keepsCompleted_accepts.mpr
    ⟨_, binds_conditions.mpr (.inl (h t listed same)), ?_⟩
  have again : ∀ s : String, sameIgnoringAsciiCase s s = true := fun _ => beq_self_eq_true _
  simp only [CompletedState.predicate, Expr.eq, Expr.colOf, Expr.text, isStateCheck,
    TableScope.isColumn, Expr.isColumnOf, isText, again, Bool.and_true, Bool.true_and,
    Bool.or_eq_true, List.any_eq_true]
  exact .inl ⟨_, binding, again _⟩

/-- Where each SELECT that reads transactions asks for finished ones, what a flat query is read as
passes the check for them. -/
theorem allKeepCompleted_read (flat : q.IsFlat) (readable : q.isReadable = true)
    (keeps : ∀ r ∈ q.reread.readings, KeepsTo state r) :
    allKeepCompleted state q.reread = true := by
  refine allKeepCompleted_iff.mpr ⟨fun b hb => keeps_of_reading (keeps _ ?_), ?_⟩
  · exact (Tree.mem_readings flat.reread).mpr ⟨b, hb, rfl⟩
  · rintro ⟨b, hb, raw⟩
    exact absurd raw (Tree.not_readsRaw_flat flat readable b hb)

theorem applyPasses_cons {p : Pass} {passes : List Pass} {context : Context} {changed : Bool}
    (own : p.apply context q = .ok (b, changed))
    (rest : ∃ result, applyPasses context passes b = .ok result) :
    ∃ result, applyPasses context (p :: passes) q = .ok result := by
  obtain ⟨result, rest⟩ := rest
  simp only [applyPasses, own, rest, bind, Except.bind, pure, Except.pure, Except.ok.injEq,
    exists_eq']

/-- The passes of a gateway let a statement through that mentions the tenant and keeps to finished
transactions. -/
theorem applyPasses_ok {param : String} {completed : Option CompletedState} {week : RelativeWeek}
    {bans : List BannedColumn} {revenue : ProductRevenue} (context : Context)
    (references : q.references param = true)
    (keeps : ∀ state ∈ completed, allKeepCompleted state q = true) :
    ∃ result, applyPasses context [.scope param, .completedState completed, .relativeWeek week,
      .bannedColumn bans, .productRevenue revenue] q = .ok result := by
  have finished : Pass.apply context q (.completedState completed) = .ok (q, false) := by
    cases completed with
    | none => rfl
    | some state => exact if_pos (keeps state rfl)
  refine applyPasses_cons (if_pos references) (applyPasses_cons finished ?_)
  exact applyPasses_cons rfl (applyPasses_cons rfl (applyPasses_cons rfl ⟨_, rfl⟩))

/-- A statement that mentions the tenant is refused where it does not keep to finished
transactions. -/
theorem applyPasses_missing {param : String} {rest : List Pass} {context : Context}
    (references : q.references param = true) (lost : allKeepCompleted state q = false) :
    applyPasses context (.scope param :: .completedState (some state) :: rest) q =
      .error (.missingFilter state.table (stateText state)) := by
  have scope : Pass.apply context q (.scope param) = .ok (q, false) := if_pos references
  have finished : Pass.apply context q (.completedState (some state)) =
      .error (.missingFilter state.table (stateText state)) :=
    if_neg (Bool.eq_false_iff.mp lost)
  simp only [applyPasses, scope, finished, bind, Except.bind]

theorem references_of_condition (flat : q.IsFlat) (hr : r ∈ q.readings) (he : e ∈ r.conditions)
    (own : e.has (.mentions n)) : q.references n = true := by
  obtain ⟨b, hb, rfl⟩ := (Tree.mem_readings flat).mp hr
  exact Tree.references_iff.mpr ⟨b, hb, has_conditions.mpr (.inr ⟨e, he, own⟩)⟩

end ReportSql.Normalize

namespace ReportSql.Report

open Catalog (CompletedState Metric Schema declared_of_table table_found)
open Normalize (KeepsTo)
open Output (isBareName)
open ReportSql.Tree (Expr Query Reading)
open Sql.Placeholder (sentinelName?)

variable {plan : Plan} {metric : Metric} {schema : Schema} {options : Options} {catalog : Catalog}
  {state : CompletedState} {e : Expr} {tenant table : String}

theorem scoping_mentions {t : Catalog.Table} (h : t.scoping? (.param tenant) = some e) :
    e.has (.mentions tenant) := by
  obtain ⟨column, -, rfl⟩ := Option.map_eq_some_iff.mp h
  simp [Expr.has, Expr.any, Expr.eq, Expr.lower, Expr.callOf, Expr.colOf, Expr.nodes, Tree.nodesOf,
    Tree.LeafTest.holds, Tree.LeafTest.mentions]

/-! ### Finished transactions -/

section

variable (bare : ∀ t ∈ schema.tables, isBareName t.name = true)
  (known : schema.completed = some state)
include bare

theorem declared_bare (h : Join.Declared schema table) : isBareName table = true := by
  obtain ⟨t, ht, rfl⟩ := List.mem_map.mp h
  exact bare t ht

include known

theorem state_bare : isBareName state.table = true :=
  declared_bare bare (Catalog.completed_declared known)

/-- A query that does not read the table of transactions need not ask for finished ones. -/
theorem keeps_unread {q : Query} {names : List String}
    (tables : q.namedTables = names.map Tree.TableRef.ofName)
    (own : ∀ name ∈ names, isBareName name = true) (apart : state.table ∉ names) :
    KeepsTo state q.reading.reread := by
  intro t ht same
  have listed : t ∈ q.namedTables := ht
  rw [tables] at listed
  obtain ⟨name, inside, rfl⟩ := List.mem_map.mp listed
  obtain rfl := Output.eq_of_bareName (own name inside) (state_bare bare known) same
  exact absurd inside apart

/-- A report on the usual path asks for finished transactions where it reads them. -/
theorem Standard.Made.keeps (m : Standard.Made plan metric schema tenant)
    (unmarked : sentinelName? state.value = none) :
    ∀ r ∈ m.query.readings.map Reading.reread, KeepsTo state r := by
  refine List.forall_mem_singleton.mpr fun t ht same => ?_
  have joined : ∀ name ∈ metric.baseTable :: m.joins.map Join.Step.table,
      Join.Declared schema name := by
    refine List.forall_mem_cons.mpr ⟨?_, List.forall_mem_map.mpr fun s hs =>
      (Join.step_declared m.joined s hs).1⟩
    exact (table_found m.baseFound).2 ▸ declared_of_table m.baseFound
  have listed : t ∈ m.query.namedTables := ht
  rw [m.namedTables] at listed
  obtain ⟨name, inside, rfl⟩ := List.mem_map.mp listed
  obtain rfl : name = state.table :=
    Output.eq_of_bareName (declared_bare bare (joined name inside)) (state_bare bare known) same
  have completed : state.predicate state.table ∈
      completedFilters schema (metric.baseTable :: m.joins.map Join.Step.table) := by
    simp only [completedFilters, known, List.contains_iff_mem.mpr inside, if_true,
      List.mem_singleton]
  have kept : state.predicate state.table ∈ m.filters := by simp [filters, rowFilters, completed]
  exact Tree.mem_reading_reread rfl kept (completed_kept _ unmarked)

namespace Trend

variable {p : Parts} {order : Tree.OrderItem} {limit : UInt64}

/-- A trend asks for finished transactions where it reads them, if these are neither the line items
nor the rows of the dimension. -/
theorem query_keeps (c : Collected metric schema options p)
    (dimension : Join.Declared schema p.dimension.table)
    (apart : state.table ∉ [p.line.name, p.dimension.table, boundsName, windowName, totalsName,
      rankedName]) (unmarked : sentinelName? state.value = none) :
    ∀ r ∈ (p.query order limit).readings.map Reading.reread, KeepsTo state r := by
  have line := declared_bare bare (declared_of_table c.line)
  have anchor := declared_bare bare (declared_of_table c.anchor)
  have dimension := declared_bare bare dimension
  simp only [List.mem_cons, List.not_mem_nil, or_false, not_or] at apart
  obtain ⟨noLine, noDimension, noBounds, noWindow, noTotals, noRanked⟩ := apart
  have window : KeepsTo state p.window.reading.reread := by
    intro t ht same
    have listed : t ∈ [p.anchor.name, boundsName].map Tree.TableRef.ofName := by
      rw [window_eq] at ht
      exact ht
    obtain ⟨name, inside, rfl⟩ := List.mem_map.mp listed
    have own : ∀ name ∈ [p.anchor.name, boundsName], isBareName name = true :=
      List.forall_mem_cons.mpr ⟨anchor, by decide⟩
    obtain rfl := Output.eq_of_bareName (own name inside) (state_bare bare known) same
    have read : state.table = p.anchor.name :=
      (List.mem_cons.mp inside).resolve_right fun other =>
        noBounds (List.mem_singleton.mp other)
    have kept : state.predicate p.anchor.name ∈ p.scoping :: p.completed.toList := by
      simp [completed_of_marked c known read]
    exact read ▸ window_kept _ kept (completed_kept _ unmarked)
  rw [readings_query]
  simp only [List.map_cons, List.map_nil, List.forall_mem_cons]
  refine ⟨?_, window, ?_, ?_, ?_, List.forall_mem_nil _⟩
  · have tables : bounds.namedTables = [].map Tree.TableRef.ofName := rfl
    exact keeps_unread bare known tables (List.forall_mem_nil _) List.not_mem_nil
  · have tables : p.totals.namedTables =
        [windowName, p.line.name, boundsName].map Tree.TableRef.ofName := by
      rw [totals_eq]
      rfl
    refine keeps_unread bare known tables ?_ (by simp [noWindow, noLine, noBounds])
    exact List.forall_mem_cons.mpr ⟨by decide, List.forall_mem_cons.mpr ⟨line, by decide⟩⟩
  · have tables : p.ranked.namedTables = [totalsName].map Tree.TableRef.ofName := rfl
    exact keeps_unread bare known tables (by decide) (by simp [noTotals])
  · have joined : (p.query order limit).namedTables =
        (rankedName :: p.dimensionKey.toList.map fun _ => p.dimension.table).map
          Tree.TableRef.ofName := by
      rw [query_eq]
      unfold dimensionJoin
      cases p.dimensionKey <;> rfl
    refine keeps_unread bare known joined ?_ ?_
    · exact List.forall_mem_cons.mpr ⟨by decide, List.forall_mem_map.mpr fun _ _ => dimension⟩
    · simp only [List.mem_cons, List.mem_map, not_or]
      refine ⟨noRanked, ?_⟩
      rintro ⟨_, _, same⟩
      exact noDimension same.symm

end Trend

end

namespace Trend

variable {p : Parts} {order : Tree.OrderItem} {limit : UInt64}

/-- A trend that joins the table of transactions by its dimension does not ask for finished ones
there. -/
theorem query_forgets {key : String} (joined : p.dimensionKey = some key)
    (same : p.dimension.table = state.table) :
    Normalize.allKeepCompleted state (p.query order limit).regrouped.reread = false := by
  let b := (p.query order limit).regrouped.reread
  let on := (Expr.colOf p.dimension.table key).eq (.colOf rankedName p.groupKey)
  have condition : b.condition = none := by
    simp only [b, query_eq]
    rfl
  have sources : b.sources =
      [⟨.ofName rankedName, [⟨.left, .ofName p.dimension.table, some on⟩]⟩] := by
    simp only [b, query_eq, dimensionJoin, joined]
    rfl
  have names : Normalize.Names state.table b := by
    refine ⟨.ofName p.dimension.table, ?_, same ▸ beq_self_eq_true _⟩
    rw [Query.namedTables, Query.allSources, sources]
    exact List.mem_cons_of_mem _ List.mem_cons_self
  rw [← Bool.not_eq_true, Normalize.allKeepCompleted_iff]
  rintro ⟨keeps, -⟩
  obtain ⟨scope, hs⟩ := Normalize.of?_of_names names
  obtain ⟨c, binds, check⟩ :=
    Normalize.keepsCompleted_accepts.mp (keeps b b.self_mem_queries scope hs)
  have only : c ∈ on.conjuncts := by
    have brings : Normalize.Join.brings state.table
        ⟨.left, .ofName p.dimension.table, some on⟩ = true := same ▸ beq_self_eq_true _
    simpa [Normalize.Binds, Normalize.bindingConditions, condition, sources, brings] using binds
  obtain rfl := List.mem_singleton.mp only
  -- neither side of the condition is a text
  have never : (scope.isColumn state.column (.colOf p.dimension.table key) && false ||
      scope.isColumn state.column (.colOf rankedName p.groupKey) && false) = true := check
  simp only [Bool.and_false, Bool.or_false, Bool.false_eq_true] at never

end Trend

/-- Whether a plan asks for a report that can be read back: its limit is written without a sign, and
a trend is grouped by a column that starts no construct. -/
structure CanBeRead (plan : Plan) : Prop where
  counted : ∀ n ∈ plan.effectiveLimit, IsCounted n
  columns : plan.completeWeeksTrend.isSome = true →
    ∀ d ∈ plan.dimensions, Tree.startsFreely d.column = true

/-- Whether the trend of a plan, if it has one, reads transactions only where it asks for finished
ones: they are neither the line items nor the rows of the dimension. -/
def TrendApart (plan : Plan) (catalog : Catalog) : Prop :=
  ∀ metric base trend state, catalog.metric plan.metric = .ok metric →
    catalog.schema.table metric.baseTable = .ok base → trend? plan base = some trend →
      catalog.schema.completed = some state →
        state.table ∉ [base.name, (plan.dimensions.head?.getD Trend.defaultDimension).table,
          Trend.boundsName, Trend.windowName, Trend.totalsName, Trend.rankedName]

/-- A report asks for finished transactions in each SELECT that reads them. -/
theorem query_keeps {q : Query} {bindings : List (String × ParamValue)}
    (bare : ∀ t ∈ catalog.schema.tables, isBareName t.name = true)
    (known : catalog.schema.completed = some state)
    (unmarked : sentinelName? state.value = none) (apart : TrendApart plan catalog)
    (h : query plan catalog options = .ok (q, bindings)) :
    ∀ r ∈ q.readings.map Reading.reread, KeepsTo state r := by
  obtain ⟨-, metric, base, found, line, ⟨trend, p, trending, parts, rfl, -⟩ | ⟨-, m, rfl, -⟩⟩ :=
    query_paths h
  · have c := Trend.parts_ok parts
    obtain ⟨own, dimension, -⟩ := Trend.parts_grouped parts
    have apart := apart metric base trend state found line trending known
    obtain rfl : base = p.line := Except.ok.inj (line.symm.trans c.line)
    rw [← own] at apart
    exact Trend.query_keeps bare known c dimension apart unmarked
  · exact m.keeps bare known unmarked

end ReportSql.Report

namespace ReportSql.Gateway

open Normalize (allKeepCompleted)
open Report (IsCounted TrendApart)
open ReportSql.Tree (Expr)
open Sql.Placeholder (isName sentinelName?)

variable {catalog : Catalog} {settings : Settings} {g : Gateway} {plan : Plan} {report : Report}

theorem ofCatalog_eq (h : ofCatalog catalog settings = .ok g) : g.catalog = catalog ∧
    g.options = settings.options ∧ g.policy = settings.safety.policy catalog.schema := by
  obtain ⟨passes, -, made⟩ := bind_eq_ok.mp h
  obtain rfl := Except.ok.inj made
  exact ⟨rfl, rfl, rfl⟩

theorem check_eq {context : Normalize.Context} {text : String} {accepted : Gate.Accepted}
    {q : Tree.Query} (gate : Gate.check g.policy text = .ok accepted)
    (converts : Tree.Query.ofSyntax accepted.query = .ok q) :
    g.check context text = ((Normalize.applyPasses context g.passes q).mapError .normalize).map
      fun x => ⟨accepted, ⟨Sql.Placeholder.unmask x.1.sql, x.2⟩⟩ := by
  simp only [check, gate, Normalize.normalize, converts, Except.mapError, bind, Except.bind]
  cases Normalize.applyPasses context g.passes q <;> rfl

/-- Whether a gateway can be given the text of its own reports: what its catalog gives can be read
back, its policy allows what the reports read and call, and tables go by names without capitals. -/
structure CanCheck (g : Gateway) : Prop where
  reads : g.catalog.CanBeRead
  allows : Report.Allows g.policy g.catalog
  bare : ∀ t ∈ g.catalog.schema.tables, Output.isBareName t.name = true
  unmarked : ∀ state ∈ g.catalog.schema.completed, sentinelName? state.value = none
  named : isName g.options.tenantParam = true
  limited : IsCounted g.options.limit

/-- The text of a report is accepted, and is read as a statement that mentions the tenant. -/
theorem compiled_accepted (can : g.CanCheck) (readable : Report.CanBeRead plan)
    (h : g.compile plan = .ok report) :
    ∃ q bindings accepted, Report.query plan g.catalog g.options = .ok (q, bindings) ∧
      q.ReadsBack ∧ q.regrouped.IsFlat ∧ Gate.check g.policy report.sql = .ok accepted ∧
      Tree.Query.ofSyntax accepted.query = .ok q.regrouped.reread ∧
      q.regrouped.reread.references g.options.tenantParam = true := by
  obtain ⟨⟨q, bindings⟩, made, h⟩ := bind_eq_ok.mp (ok_of_mapError h)
  obtain rfl := Except.ok.inj h
  have back := Report.query_readsBack can.reads can.named readable.columns readable.counted
    can.limited made
  have blocks := Gate.allows_regrouped (Report.query_allowed can.allows made)
  have flat := Gate.isFlat_of_allows blocks
  have accepted := Gate.check_sql back.readable back.depth flat.own.single
    (Gate.allowsTree_of_blocks blocks)
  rw [Tree.sql_regrouped back.plain] at accepted
  refine ⟨q, bindings, _, made, back, flat, accepted,
    (Tree.convertsSteps.queries back.readable).whole, ?_⟩
  obtain ⟨_, -, restricts⟩ := Report.query_restricts made
  obtain ⟨_, _, -, owned, r, hr, -, own, -⟩ := restricts.owned
  have listed : r ∈ q.regrouped.reread.readings :=
    Tree.readings_regrouped_reread back.plain ▸ hr
  exact Normalize.references_of_condition flat.reread listed own (Report.scoping_mentions owned)

/-- A gateway lets through the text of each of its reports, for any question on any day. -/
theorem check_compiled (built : ofCatalog catalog settings = .ok g) (can : g.CanCheck)
    (readable : Report.CanBeRead plan) (apart : TrendApart plan g.catalog)
    (h : g.compile plan = .ok report) (context : Normalize.Context) :
    ∃ checked, g.check context report.sql = .ok checked := by
  obtain ⟨q, bindings, accepted, made, back, flat, gate, converts, references⟩ :=
    compiled_accepted can readable h
  obtain ⟨sameCatalog, sameOptions, -⟩ := ofCatalog_eq built
  have keeps : ∀ state ∈ catalog.schema.completed,
      allKeepCompleted state q.regrouped.reread = true := by
    rw [← sameCatalog]
    intro state known
    refine Normalize.allKeepCompleted_read flat back.readable ?_
    rw [Tree.readings_regrouped_reread back.plain]
    exact Report.query_keeps can.bare known (can.unmarked state known) apart made
  obtain ⟨week, revenue, -, -, passes⟩ := Normalize.ofCatalog_passes built
  rw [sameOptions] at references
  obtain ⟨result, passed⟩ : ∃ result,
      Normalize.applyPasses context g.passes q.regrouped.reread = .ok result := by
    rw [passes]
    exact Normalize.applyPasses_ok context references keeps
  rw [check_eq gate converts, passed]
  exact ⟨_, rfl⟩

/-- A trend that joins the table of transactions by its dimension is refused by the gateway that
makes it, since it does not ask for finished ones there. -/
theorem check_refuses {metric : Catalog.Metric} {base : Catalog.Table} {trend : Trend}
    {state : Catalog.CompletedState} (built : ofCatalog catalog settings = .ok g)
    (can : g.CanCheck) (readable : Report.CanBeRead plan)
    (found : g.catalog.metric plan.metric = .ok metric)
    (line : g.catalog.schema.table metric.baseTable = .ok base)
    (asked : Report.trend? plan base = some trend)
    (known : g.catalog.schema.completed = some state)
    (joined : (plan.dimensions.head?.getD Report.Trend.defaultDimension).table = state.table)
    (other : base.name ≠ state.table) (h : g.compile plan = .ok report)
    (context : Normalize.Context) : g.check context report.sql =
      .error (.normalize (.missingFilter state.table (Normalize.stateText state))) := by
  obtain ⟨q, bindings, accepted, made, back, flat, gate, converts, references⟩ :=
    compiled_accepted can readable h
  obtain ⟨sameCatalog, sameOptions, -⟩ := ofCatalog_eq built
  have lost : allKeepCompleted state q.regrouped.reread = false := by
    obtain ⟨p, order, limit, parts, rfl⟩ := Report.query_trend found line asked made
    obtain ⟨own, -, grouped⟩ := Report.Trend.parts_grouped parts
    have same : p.dimension.table = state.table := (congrArg Dimension.table own).trans joined
    have base : base = p.line := Except.ok.inj (line.symm.trans (Report.Trend.parts_ok parts).line)
    have apart : p.dimension.table ≠ p.line.name := fun equal =>
      other ((congrArg Catalog.Table.name base).trans (equal.symm.trans same))
    obtain ⟨key, keyed⟩ := Report.Trend.grouping_joined grouped apart
    exact Report.Trend.query_forgets keyed same
  obtain ⟨week, revenue, -, -, passes⟩ := Normalize.ofCatalog_passes built
  have tenant : g.options.tenantParam = settings.tenantParam :=
    congrArg Report.Options.tenantParam sameOptions
  rw [tenant] at references
  rw [sameCatalog] at known
  rw [check_eq gate converts, passes, known, Normalize.applyPasses_missing references lost]
  rfl

/-! ### The built-in catalog -/

theorem restaurant_allows :
    Report.Allows (Settings.default.safety.policy Catalog.Restaurant.schema) .restaurant := by
  have sum : (Settings.default.safety.policy Catalog.Restaurant.schema).forbidsFunction
      (Text.upper "SUM") = false := by decide +kernel
  refine ⟨by decide +kernel, by decide +kernel, fun m hm e he => ?_⟩
  refine Gate.Policy.AllowsExpr.calls ?_
  simp only [Catalog.restaurant, Catalog.Restaurant.metrics, List.mem_cons, List.not_mem_nil,
    or_false] at hm
  rcases hm with rfl | rfl | rfl | rfl | rfl <;>
  · obtain rfl := List.mem_singleton.mp he
    simp [Catalog.Restaurant.plainSum, Expr.sum, Expr.callOf, Expr.mul, Expr.colOf, sum]

theorem restaurant_canCheck (built : ofCatalog .restaurant .default = .ok g) : g.CanCheck := by
  obtain ⟨catalog, options, policy⟩ := ofCatalog_eq built
  constructor
  · exact catalog ▸ Catalog.restaurant_canBeRead
  · exact catalog ▸ policy ▸ restaurant_allows
  · rw [catalog]
    decide +kernel
  · rw [catalog]
    rintro _ ⟨⟩
    decide +kernel
  · rw [options]
    decide +kernel
  · rw [options]
    decide +kernel

/-- The gateway of the built-in catalog lets its reports through, but for trends that join sales by
their dimension. -/
theorem check_restaurant (built : ofCatalog .restaurant .default = .ok g)
    (readable : Report.CanBeRead plan) (dimension : plan.completeWeeksTrend.isSome = true →
      (plan.dimensions.head?.getD Report.Trend.defaultDimension).table ≠ "sales")
    (h : g.compile plan = .ok report) (context : Normalize.Context) :
    ∃ checked, g.check context report.sql = .ok checked := by
  refine check_compiled built (restaurant_canCheck built) readable ?_ h context
  rw [(ofCatalog_eq built).1]
  intro metric base trend state _ found trending known
  obtain rfl := Option.some.inj known
  have lines : ∀ t ∈ Catalog.Restaurant.schema.tables, t.anchor.isSome → t.name = "items" := by
    decide
  have anchored : base.anchor.isSome = true := by
    unfold Report.trend? at trending
    split at trending
    · assumption
    · cases trending
  have asked : plan.completeWeeksTrend.isSome = true := by
    rw [Report.asked_of_trend trending]
    rfl
  have line := lines base (Catalog.table_found found).1 anchored
  simp only [List.mem_cons, List.not_mem_nil, or_false, not_or]
  exact ⟨by rw [line]; decide, Ne.symm (dimension asked), by decide⟩

/-- The trends of item revenue by a column of the sales are refused there. -/
theorem restaurant_refuses {trend : Trend} (built : ofCatalog .restaurant .default = .ok g)
    (readable : Report.CanBeRead plan) (metric : plan.metric = "item_revenue")
    (asked : plan.completeWeeksTrend = some trend)
    (dimension : (plan.dimensions.head?.getD Report.Trend.defaultDimension).table = "sales")
    (h : g.compile plan = .ok report) (context : Normalize.Context) : g.check context report.sql =
      .error (.normalize (.missingFilter "sales" "sales.sale_state = 'CLOSED'")) := by
  obtain ⟨catalog, -, -⟩ := ofCatalog_eq built
  have found : g.catalog.metric plan.metric = .ok Catalog.Restaurant.metrics[1] := by
    rw [catalog, metric]
    rfl
  have line : g.catalog.schema.table "items" = .ok Catalog.Restaurant.tables[1] := by
    rw [catalog]
    rfl
  have known : g.catalog.schema.completed = some Catalog.Restaurant.completed := by
    rw [catalog]
    rfl
  exact check_refuses built (restaurant_canCheck built) readable found line asked known dimension
    (by decide) h context

end ReportSql.Gateway
