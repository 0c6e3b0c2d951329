import ReportSql.Proofs.Readings
import ReportSql.Proofs.TrendConditions

/-!
Reading the texts of reports. Where tables go by names that start no construct, and what a metric
gives can be read back, its filters term by term, the text of a report is read as one query with the
tables and the conditions that the report was made from.
-/
namespace ReportSql.Catalog

open ReportSql.Tree (Expr opener startsFreely)

variable {s : Schema} {name : String}

/-- How many levels what a metric gives may take. -/
def metricLevels : Nat := 40

/-- Whether the tables of a schema go by names that start no construct. -/
def Schema.IsFree (s : Schema) : Prop := ∀ t ∈ s.tables, startsFreely t.name = true

/-- Whether what a metric gives can be read back: its value, what it adds up, and the filters, term
by term. -/
structure Metric.CanBeRead (m : Metric) : Prop where
  value : m.expression.Fits metricLevels
  first : opener m.expression.tokens ≠ some "TOP"
  argument : ∀ e ∈ m.sumArgument?, e.Fits metricLevels
  filters : ∀ f ∈ m.extraFilters, f.FitsTerms metricLevels

/-- Whether what a catalog gives can be read back. -/
structure CanBeRead (catalog : Catalog) : Prop where
  tables : catalog.schema.IsFree
  keys : ∀ e ∈ catalog.schema.edges,
    startsFreely e.leftKey = true ∧ startsFreely e.rightKey = true
  metrics : ∀ m ∈ catalog.metrics, m.CanBeRead

theorem declared_free (free : s.IsFree) (h : Join.Declared s name) : startsFreely name = true := by
  obtain ⟨t, ht, rfl⟩ := List.mem_map.mp h
  exact free t ht

theorem plainSum_canBeRead (key base description : String) {argument : Expr}
    (h : argument.Fits 1) :
    (Restaurant.plainSum key base argument description).CanBeRead := by
  have sum : (Expr.callOf "SUM" [argument]).IsOperand 2 :=
    Tree.callOf_operand (List.forall_mem_singleton.mpr h) (by decide) (by decide)
  refine ⟨sum.fits.mono (by decide), (by decide : some "SUM" ≠ some "TOP"), ?_, nofun⟩
  have own : (Restaurant.plainSum key base argument description).sumArgument? = some argument := rfl
  rw [own]
  rintro _ ⟨⟩
  exact h.mono (by decide)

theorem restaurant_canBeRead : restaurant.CanBeRead := by
  have column : ∀ {table : String}, startsFreely table = true → ∀ column : String,
      (Expr.colOf table column).Fits 1 := fun free column => (Tree.colOf_operand free column).fits
  refine ⟨by unfold Schema.IsFree; decide +kernel, by decide +kernel, fun m hm => ?_⟩
  simp only [restaurant, Restaurant.metrics, List.mem_cons, List.not_mem_nil, or_false] at hm
  rcases hm with rfl | rfl | rfl | rfl | rfl
  · exact plainSum_canBeRead _ _ _ (column (by decide +kernel) "total")
  · exact plainSum_canBeRead _ _ _
      (Tree.binary_fits (n := 0) (Tree.colOf_operand (by decide +kernel) "price")
        (Tree.colOf_operand (by decide +kernel) "quantity"))
  · exact plainSum_canBeRead _ _ _ (column (by decide +kernel) "num_customers")
  · exact plainSum_canBeRead _ _ _ (column (by decide +kernel) "amount")
  · exact plainSum_canBeRead _ _ _ (column (by decide +kernel) "amount")

end ReportSql.Catalog

namespace ReportSql.Report

open Catalog (Metric Schema metricLevels declared_free)
open ReportSql.Tree (Expr Query Reading RowRange opener startsFreely)
open Sql.Placeholder (isName)

variable {plan : Plan} {metric : Metric} {schema : Schema} {options : Options} {e date value : Expr}
  {fs : List Expr} {joins : List Join.Step} {tenant name base : String}

/-! ### Conditions of the catalog -/

theorem scoping_fits {t : Catalog.Table} (free : startsFreely t.name = true)
    (named : isName tenant = true) (h : t.scoping? (.param tenant) = some e) :
    e.FitsTerms metricLevels := by
  obtain ⟨column, -, rfl⟩ := Option.map_eq_some_iff.mp h
  have lower : ∀ {x : Expr}, x.Fits 0 → x.lower.IsOperand 1 := fun fits =>
    Tree.callOf_operand (List.forall_mem_singleton.mpr fits) (by decide) (by decide)
  exact Tree.binary_fitsTerms (lower (Tree.colOf_operand free column).fits)
    (lower (Tree.param_operand named).fits) (by decide) (by decide)

theorem completed_fits (state : Catalog.CompletedState) (free : startsFreely name = true) :
    (state.predicate name).FitsTerms metricLevels :=
  Tree.binary_fitsTerms (n := 0) (Tree.colOf_operand free state.column) (Tree.literal_operand rfl)
    (by decide) (by decide)

theorem cancellation_fits {t : Catalog.Table} (free : startsFreely t.name = true) :
    ∀ f ∈ t.cancellation?, f.FitsTerms metricLevels := by
  intro f hf
  obtain ⟨column, -, rfl⟩ := Option.map_eq_some_iff.mp hf
  exact Tree.isNotTrue_fitsTerms (n := 0) (Tree.colOf_operand free column) (by decide)

/-- Whether a count of rows is written without a sign. -/
def IsCounted (limit : UInt64) : Prop := 0 ≤ Output.rowCount limit

instance {limit : UInt64} : Decidable (IsCounted limit) :=
  inferInstanceAs (Decidable (0 ≤ Output.rowCount limit))

theorem limit_readable {limit : UInt64} (h : IsCounted limit) :
    RowRange.isReadable ⟨some limit, none⟩ = true := by
  simpa [RowRange.isReadable, IsCounted] using h

namespace Standard

/-! ### Conditions on dates -/

theorem dateParam_operand (named : isName name = true) : (dateParam name).IsOperand 1 :=
  Tree.cast_operand (Tree.param_operand named).fits (by decide) (by decide)

theorem dayAfter_operand (named : isName name = true) : (dayAfter name).IsOperand 3 :=
  Tree.paren_operand (Tree.binary_fits (dateParam_operand named) (Tree.interval_operand _))

theorem rangeFilters_fit (hd : date.IsOperand 0) (range : Option DateRange) :
    ∀ f ∈ rangeFilters date range, f.FitsTerms metricLevels := by
  have start : (date.ge (dateParam "start_date")).FitsTerms metricLevels :=
    Tree.binary_fitsTerms (hd.mono (by decide)) (dateParam_operand (by decide)) (by decide)
      (by decide)
  have stop : (date.lt (dayAfter "end_date")).FitsTerms metricLevels :=
    Tree.binary_fitsTerms (hd.mono (by decide)) (dayAfter_operand (by decide)) (by decide)
      (by decide)
  cases range with
  | none => exact nofun
  | some r =>
      intro f hf
      simp only [rangeFilters, List.mem_append, List.mem_ite_nil_right, List.mem_singleton] at hf
      rcases hf with ⟨-, rfl⟩ | ⟨-, rfl⟩
      · exact start
      · exact stop

theorem between_operand (hd : date.IsOperand 0) {start stop : String} (hs : isName start = true)
    (he : isName stop = true) : (between date start stop).IsOperand 6 :=
  have low := dateParam_operand hs
  have high := dayAfter_operand he
  Tree.paren_and_operand (n := 5)
    (Tree.binary_isTerm (hd.mono (by decide)) low (by decide))
    (Tree.binary_isTerm (hd.mono (by decide)) high (by decide))
    ((Tree.binary_fits (hd.mono (by decide)) low).2.trans (by decide))
    ((Tree.binary_fits (hd.mono (by decide)) high).2.trans_lt (by decide))

theorem eitherSpan_operand (hd : date.IsOperand 0) : (eitherSpan date).IsOperand 8 :=
  Tree.paren_operand (Tree.binary_fits (between_operand hd (by decide) (by decide))
    (between_operand hd (by decide) (by decide)))

theorem truncate_operand (unit : String) (hd : date.IsOperand 0) :
    (Expr.truncate unit date).IsOperand 1 := by
  refine Tree.callOf_operand (List.forall_mem_cons.mpr ⟨(Tree.literal_operand rfl).fits, ?_⟩)
    (by decide) (by decide)
  exact List.forall_mem_singleton.mpr hd.fits

theorem comparisonFilters_fit (hd : date.IsOperand 0) :
    ∀ f ∈ comparisonFilters plan date, f.FitsTerms metricLevels := by
  have params : ∀ {x : Expr} {first second : String}, x.IsOperand 1 → isName first = true →
      isName second = true →
      (x.isOneOf [dateParam first, dateParam second]).FitsTerms metricLevels := fun hx hf hs =>
    Tree.isOneOf_fitsTerms hx (List.forall_mem_cons.mpr ⟨(dateParam_operand hf).fits,
      List.forall_mem_singleton.mpr (dateParam_operand hs).fits⟩) (List.cons_ne_nil _ _) (by decide)
  have day : (Expr.callOf "DATE" [date]).IsOperand 1 :=
    Tree.callOf_operand (List.forall_mem_singleton.mpr hd.fits) (by decide) (by decide)
  have span := eitherSpan_operand hd
  unfold comparisonFilters
  split
  · rw [List.forall_mem_singleton, comparisonFilter]
    split
    · exact params day (by decide) (by decide)
    · next unit _ =>
      have whole : ((Expr.truncate unit date).isOneOf
          [dateParam "cmp_start_1", dateParam "cmp_start_2"]).FitsTerms metricLevels :=
        params (truncate_operand unit hd) (by decide) (by decide)
      split
      · refine Tree.and_fitsTerms whole (Tree.fitsTerms_of_term rfl ?_ ?_)
        · exact Tree.isTerm_of_level span.fits.1 (Tree.loose_of_operand span)
        · exact span.fits.2.trans_lt (by decide)
      · exact whole
  · exact nofun

/-! ### The query of a plan -/

theorem keys_free (hd : date.IsOperand 0)
    (tables : ∀ d ∈ plan.dimensions, startsFreely d.table = true) :
    ∀ k ∈ keys plan date, k.1.IsOperand 1 ∧
      ∀ w ∈ ["TOP", "GROUPING", "CUBE", "ROLLUP"], opener k.1.tokens ≠ some w := by
  refine List.forall_mem_append.mpr ⟨fun k hk => ?_, List.forall_mem_map.mpr fun d hd => ?_⟩
  · obtain ⟨grain, -, rfl⟩ := Option.map_eq_some_iff.mp (Option.mem_toList.mp hk)
    refine ⟨truncate_operand grain.unit hd, ?_⟩
    have starts : opener (Expr.truncate grain.unit date).tokens = some "DATE_TRUNC" := rfl
    rw [starts]
    decide
  · have free := tables d hd
    refine ⟨Tree.colOf_operand free d.column, fun w hw => ?_⟩
    rw [Expr.colOf, Tree.opener_column]
    exact Tree.keyword_of_startsFreely free w (List.mem_append_left ["UNNEST"] hw)

theorem orderItems_fit : ∀ o ∈ orderItems plan, o.expr.IsOperand 0 := by
  intro o ho
  unfold orderItems at ho
  split at ho
  · obtain rfl := List.mem_singleton.mp ho
    exact Tree.col_operand (by decide +kernel)
  · split at ho
    · obtain rfl := List.mem_singleton.mp ho
      exact Tree.col_operand (by decide +kernel)
    · cases ho

/-- Conditions and a value that can be read back make a query that can be read back. -/
theorem assembled_fits (free : startsFreely base = true) (hd : date.IsOperand 0)
    (tables : ∀ d ∈ plan.dimensions, startsFreely d.table = true)
    (steps : ∀ s ∈ joins, startsFreely s.table = true ∧ s.condition.Fits metricLevels)
    (filters : ∀ f ∈ fs, f.FitsTerms metricLevels) (fits : value.Fits metricLevels)
    (first : opener value.tokens ≠ some "TOP") (counted : ∀ n ∈ plan.effectiveLimit, IsCounted n) :
    (assembled plan base joins date fs value).regrouped.Fits metricLevels where
  single := rfl
  ungrouped := rfl
  ctes := nofun
  nonempty := List.append_ne_nil_of_right_ne_nil _ (List.cons_ne_nil _ _)
  items := by
    refine List.forall_mem_append.mpr
      ⟨List.forall_mem_map.mpr fun k hk => ?_, List.forall_mem_singleton.mpr ⟨fits, first⟩⟩
    obtain ⟨operand, plain⟩ := keys_free hd tables k hk
    exact ⟨operand.fits.mono (by decide), plain "TOP" (by decide)⟩
  sources := by
    refine List.forall_mem_singleton.mpr
      ⟨⟨base, rfl, free⟩, List.forall_mem_map.mpr fun s hs => ?_⟩
    obtain ⟨named, condition⟩ := steps s hs
    refine ⟨⟨s.table, rfl, named⟩, ?_, .inl ?_⟩
    · rintro _ ⟨⟩
      exact condition
    · unfold Join.Step.join
      cases s.kind <;> exact nofun
  condition := Tree.regroup_fits filters
  keys := by
    refine List.forall_mem_map.mpr fun k hk => ?_
    obtain ⟨operand, plain⟩ := keys_free hd tables k hk
    exact ⟨operand.fits.mono (by decide), fun w hw => plain w (List.mem_cons_of_mem _ hw)⟩
  order o ho := (orderItems_fit o ho).fits.mono (by decide)
  rows := by
    have own : ∀ limit : Option UInt64, (∀ n ∈ limit, IsCounted n) →
        (limit.map fun n => RowRange.mk (some n) none).all RowRange.isReadable = true := by
      rintro (_ | n) known
      · rfl
      · exact limit_readable (known n rfl)
    exact own plan.effectiveLimit counted

namespace Made

variable (m : Made plan metric schema tenant)

theorem base_free (m : Made plan metric schema tenant) (free : schema.IsFree) :
    startsFreely metric.baseTable = true := by
  obtain ⟨declared, named⟩ := Catalog.table_found m.baseFound
  exact named ▸ free m.base declared

theorem steps_free (free : schema.IsFree) :
    ∀ s ∈ m.joins, startsFreely s.table = true ∧ s.condition.Fits metricLevels := by
  intro s hs
  obtain ⟨declared, e, he, condition⟩ := Join.step_declared m.joined s hs
  obtain ⟨left, right⟩ := Join.edge_declared schema he
  refine ⟨declared_free free declared, ?_⟩
  rw [condition]
  exact Tree.binary_fits (Tree.colOf_operand (declared_free free left) e.leftKey)
    (Tree.colOf_operand (declared_free free right) e.rightKey)

theorem joined_free (free : schema.IsFree) :
    ∀ t ∈ metric.baseTable :: m.joins.map Join.Step.table, startsFreely t = true :=
  List.forall_mem_cons.mpr
    ⟨m.base_free free, List.forall_mem_map.mpr fun s hs => (m.steps_free free s hs).1⟩

theorem dimensions_free (m : Made plan metric schema tenant) (free : schema.IsFree) :
    ∀ d ∈ plan.dimensions, startsFreely d.table = true := fun _ hd =>
  m.joined_free free _ (Join.required_joined m.joined
    (List.mem_append_right [metric.baseTable, m.dateTable.name, m.scope.name]
      (List.mem_map_of_mem hd)))

theorem date_operand (free : schema.IsFree) : m.date.IsOperand 0 :=
  Tree.colOf_operand (declared_free free (Catalog.declared_of_dateSource m.dated)) m.dateColumn

theorem ownFilters_fit (m : Made plan metric schema tenant) (free : schema.IsFree)
    (named : isName tenant = true) : ∀ f ∈ m.scoping ::
      completedFilters schema (metric.baseTable :: m.joins.map Join.Step.table)
        ++ m.base.cancellation?.toList, f.FitsTerms metricLevels := by
  have scope := declared_free free (Catalog.declared_of_scopeTable m.scopeFound)
  have base := free m.base (Catalog.table_found m.baseFound).1
  refine List.forall_mem_append.mpr
    ⟨List.forall_mem_cons.mpr ⟨scoping_fits scope named m.owned, ?_⟩,
      fun f hf => cancellation_fits base f (Option.mem_toList.mp hf)⟩
  unfold completedFilters
  split
  · next state _ =>
    split
    · next joined =>
      have there := m.joined_free free state.table (List.contains_iff_mem.mp joined)
      exact List.forall_mem_singleton.mpr (completed_fits state there)
    · exact nofun
  · exact nofun

theorem dateFilters_fit (m : Made plan metric schema tenant) (free : schema.IsFree) :
    ∀ f ∈ rangeFilters m.date plan.dateRange ++ comparisonFilters plan m.date,
      f.FitsTerms metricLevels :=
  List.forall_mem_append.mpr ⟨rangeFilters_fit (m.date_operand free) plan.dateRange,
    comparisonFilters_fit (m.date_operand free)⟩

theorem filters_fit (m : Made plan metric schema tenant) (free : schema.IsFree)
    (named : isName tenant = true) (reads : metric.CanBeRead) :
    ∀ f ∈ m.filters, f.FitsTerms metricLevels := by
  rw [filters, rowFilters, List.append_assoc]
  exact List.forall_mem_append.mpr ⟨List.forall_mem_append.mpr
    ⟨m.ownFilters_fit free named, reads.filters⟩, m.dateFilters_fit free⟩

theorem query_plain : m.query.AllPlain := ⟨assembled_isPlain, nofun⟩

/-- The text of a report on the usual path can be read back. -/
theorem query_readsBack (free : schema.IsFree) (named : isName tenant = true)
    (reads : metric.CanBeRead) (counted : ∀ n ∈ plan.effectiveLimit, IsCounted n) :
    m.query.ReadsBack := by
  have fits := assembled_fits (m.base_free free) (m.date_operand free) (m.dimensions_free free)
    (m.steps_free free) (m.filters_fit free named reads) reads.value reads.first counted
  obtain ⟨readable, depth⟩ := Tree.query_fits fits
  exact ⟨m.query_plain, readable, depth.trans (by decide)⟩

end Made

end Standard

namespace Trend

variable {p : Parts} {order : Tree.OrderItem} {limit : UInt64} {n : Nat}

/-! ### The queries of a trend -/

/-- Whether what a trend is made from can be read back. -/
structure Parts.CanBeRead (p : Parts) : Prop where
  line : startsFreely p.line.name = true
  anchor : startsFreely p.anchor.name = true
  dimension : startsFreely p.dimension.table = true
  group : startsFreely p.groupKey = true
  scoping : p.scoping.FitsTerms metricLevels
  completed : ∀ f ∈ p.completed, f.FitsTerms metricLevels
  revenue : p.revenue.Fits metricLevels
  lineFilters : ∀ f ∈ p.lineFilters, f.FitsTerms metricLevels

theorem weeksBefore_operand (weeks : Nat) : (weeksBefore weeks).IsOperand 2 :=
  Tree.paren_operand (Tree.binary_fits (Tree.colOf_operand (by decide +kernel) _)
    (Tree.interval_operand _))

theorem boundsJoin_fits : Tree.Join.Fits n ⟨.cross, .ofName boundsName, none⟩ :=
  ⟨⟨boundsName, rfl, by decide +kernel⟩, nofun, .inr rfl⟩

theorem column_first {table : String} (free : startsFreely table = true) (column : String) :
    (Expr.colOf table column).Fits n ∧ opener (Expr.colOf table column).tokens ≠ some "TOP" := by
  refine ⟨(Tree.colOf_operand free column).fits, ?_⟩
  rw [Expr.colOf, Tree.opener_column]
  exact Tree.keyword_of_startsFreely free "TOP" (by decide)

theorem col_first {column : String} (free : startsFreely column = true) :
    (Expr.col column).Fits n ∧ opener (Expr.col column).tokens ≠ some "TOP" := by
  refine ⟨(Tree.col_operand free).fits, ?_⟩
  rw [Expr.col, Tree.opener_column]
  exact Tree.keyword_of_startsFreely free "TOP" (by decide)

theorem bounds_fits : bounds.regroupWhere.Fits metricLevels := by
  have now : (Expr.callOf "NOW" []).IsOperand 1 := Tree.callOf_operand nofun (by decide) (by decide)
  have week : (Expr.truncate "week" (.callOf "NOW" [])).IsOperand 2 :=
    Tree.callOf_operand (List.forall_mem_cons.mpr ⟨(Tree.literal_operand rfl).fits,
      List.forall_mem_singleton.mpr now.fits⟩) (by decide) (by decide)
  have start : (Expr.cast (.truncate "week" (.callOf "NOW" [])) "timestamp").IsOperand 3 :=
    Tree.cast_operand week.fits (by decide) (by decide)
  exact {
    single := rfl
    ungrouped := rfl
    ctes := nofun
    nonempty := List.cons_ne_nil _ _
    items := List.forall_mem_singleton.mpr ⟨start.fits.mono (by decide), by decide +kernel⟩
    sources := nofun
    condition := nofun
    keys := nofun
    order := nofun
    rows := rfl }

theorem window_fits (h : p.CanBeRead) : p.window.regroupWhere.Fits metricLevels := by
  have date : (Expr.colOf p.anchor.name p.dateColumn).IsOperand 2 :=
    Tree.colOf_operand h.anchor p.dateColumn
  have start : ((Expr.colOf p.anchor.name p.dateColumn).ge
      (weeksBefore (p.recentWeeks + p.priorWeeks))).FitsTerms metricLevels :=
    Tree.binary_fitsTerms date (weeksBefore_operand _) (by decide) (by decide)
  have stop : ((Expr.colOf p.anchor.name p.dateColumn).lt weekStart).FitsTerms metricLevels :=
    Tree.binary_fitsTerms date (Tree.colOf_operand (by decide +kernel) _) (by decide) (by decide)
  rw [window_eq]
  exact {
    single := rfl
    ungrouped := rfl
    ctes := nofun
    nonempty := List.cons_ne_nil _ _
    items := List.forall_mem_cons.mpr ⟨column_first h.anchor _,
      List.forall_mem_singleton.mpr (column_first h.anchor _)⟩
    sources := List.forall_mem_singleton.mpr ⟨⟨_, rfl, h.anchor⟩,
      List.forall_mem_singleton.mpr boundsJoin_fits⟩
    condition := by
      refine Tree.regroup_fits ?_
      simp only [List.cons_append, List.forall_mem_cons, List.forall_mem_append, Option.mem_toList]
      exact ⟨h.scoping, h.completed, start, stop, nofun⟩
    keys := nofun
    order := nofun
    rows := rfl }

theorem revenueWhere_fits {condition : Expr} (h : p.CanBeRead) (hc : condition.Fits metricLevels) :
    (p.revenueWhere condition).Fits (metricLevels + 2) := by
  have zero : (Expr.int 0).IsOperand metricLevels := Tree.literal_operand rfl
  have counted := Tree.ifElse_fits hc h.revenue zero.fits
  exact (Tree.callOf_operand (List.forall_mem_singleton.mpr counted) (by decide) (by decide)).fits

theorem totals_fits (h : p.CanBeRead) : p.totals.regroupWhere.Fits (metricLevels + 2) := by
  have date : (Expr.colOf windowName p.dateColumn).IsOperand 2 :=
    Tree.colOf_operand (by decide +kernel) p.dateColumn
  have revenue : ∀ op : Tree.BinaryOp, (p.revenueWhere (.binary (.colOf windowName p.dateColumn) op
      (weeksBefore p.recentWeeks))).Fits (metricLevels + 2) := fun op =>
    revenueWhere_fits h ((Tree.binary_fits date (weeksBefore_operand _)).mono (by decide))
  have starts : ∀ condition : Expr, opener (p.revenueWhere condition).tokens ≠ some "TOP" :=
    fun _ => (by decide : some "SUM" ≠ some "TOP")
  obtain ⟨group, first⟩ := column_first (n := metricLevels + 2) h.line p.groupKey
  rw [totals_eq]
  exact {
    single := rfl
    ungrouped := rfl
    ctes := nofun
    nonempty := List.cons_ne_nil _ _
    items := List.forall_mem_cons.mpr ⟨⟨group, first⟩, List.forall_mem_cons.mpr
      ⟨⟨revenue .gtEq, starts _⟩, List.forall_mem_singleton.mpr ⟨revenue .lt, starts _⟩⟩⟩
    sources := by
      refine List.forall_mem_singleton.mpr ⟨⟨windowName, rfl, by decide +kernel⟩,
        List.forall_mem_cons.mpr ⟨⟨⟨_, rfl, h.line⟩, ?_, .inl nofun⟩,
          List.forall_mem_singleton.mpr boundsJoin_fits⟩⟩
      rintro _ ⟨⟩
      exact (Tree.binary_fits (n := 0) (Tree.colOf_operand h.line p.lineKey)
        (Tree.colOf_operand (by decide +kernel) p.anchorKey)).mono (by decide)
    condition e he := by
      obtain ⟨readable, depth⟩ := Tree.regroup_fits h.lineFilters e he
      exact ⟨readable, depth.trans (by decide)⟩
    keys := by
      refine List.forall_mem_singleton.mpr ⟨group, fun w hw => ?_⟩
      rw [Expr.colOf, Tree.opener_column]
      refine Tree.keyword_of_startsFreely h.line w ?_
      exact List.mem_append_left ["UNNEST"] (List.mem_cons_of_mem "TOP" hw)
    order := nofun
    rows := rfl }

theorem ranked_fits (h : p.CanBeRead) : p.ranked.regroupWhere.Fits metricLevels := by
  have recent : (Expr.col "recent_rev").IsOperand 0 := Tree.col_operand (by decide +kernel)
  have prior : (Expr.col "prior_rev").IsOperand 0 := Tree.col_operand (by decide +kernel)
  have delta : ((Expr.col "recent_rev").sub (.col "prior_rev")).Fits 1 :=
    Tree.binary_fits recent prior
  have share : ((Expr.paren ((Expr.col "recent_rev").sub (.col "prior_rev"))).div
      (.col "prior_rev")).Fits 3 :=
    Tree.binary_fits (Tree.paren_operand delta) (prior.mono (by decide))
  have unknown : ((Expr.col "prior_rev").eq (.int 0)).Fits 1 :=
    Tree.binary_fits prior (Tree.literal_operand rfl)
  have null : Expr.null.IsOperand 3 := Tree.literal_operand rfl
  have change := Tree.ifElse_fits (unknown.mono (by decide)) null.fits share
  exact {
    single := rfl
    ungrouped := rfl
    ctes := nofun
    nonempty := List.cons_ne_nil _ _
    items := List.forall_mem_cons.mpr ⟨col_first h.group, List.forall_mem_cons.mpr
      ⟨col_first (by decide +kernel), List.forall_mem_cons.mpr ⟨col_first (by decide +kernel),
        List.forall_mem_cons.mpr ⟨⟨delta.mono (by decide), by decide +kernel⟩,
          List.forall_mem_singleton.mpr ⟨change.mono (by decide), by decide +kernel⟩⟩⟩⟩⟩
    sources := List.forall_mem_singleton.mpr ⟨⟨totalsName, rfl, by decide +kernel⟩, nofun⟩
    condition := nofun
    keys := nofun
    order := nofun
    rows := rfl }

theorem label_fits (h : p.CanBeRead) : p.label.Fits n ∧ opener p.label.tokens ≠ some "TOP" := by
  unfold Parts.label
  split
  · exact column_first h.dimension _
  · exact column_first (by decide +kernel) _

theorem query_plain (p : Parts) (order : Tree.OrderItem) (limit : UInt64) :
    (p.query order limit).AllPlain := by
  rw [query_eq]
  constructor
  · refine ⟨rfl, rfl, rfl, ?_⟩
    simp [Tree.Cte.ofQuery]
  · simp only [List.forall_mem_cons, Tree.Cte.ofQuery]
    rw [window_eq, totals_eq]
    have single : ∀ c ∈ ([] : List Tree.Cte), c.isRecursive = false := List.forall_mem_nil _
    exact ⟨⟨rfl, rfl, rfl, single⟩, ⟨rfl, rfl, rfl, single⟩, ⟨rfl, rfl, rfl, single⟩,
      ⟨rfl, rfl, rfl, single⟩, List.forall_mem_nil _⟩

theorem query_fits (h : p.CanBeRead) (ordered : order.expr.Fits metricLevels)
    (counted : IsCounted limit) : (p.query order limit).regrouped.Fits (metricLevels + 3) := by
  have roomy : ∀ {q : Query}, q.Fits metricLevels →
      q.isReadable = true ∧ q.depth ≤ metricLevels + 3 := fun fits =>
    (Tree.query_fits fits).imp_right fun depth => depth.trans (by decide)
  have bounds := roomy bounds_fits
  have window := roomy (window_fits h)
  have totals := Tree.query_fits (totals_fits h)
  have ranked := roomy (ranked_fits h)
  have column : ∀ {name : String}, startsFreely name = true →
      (Expr.col name).Fits (metricLevels + 3) ∧ opener (Expr.col name).tokens ≠ some "TOP" :=
    col_first
  rw [query_eq]
  exact {
    single := rfl
    ungrouped := rfl
    ctes := by
      simp only [Query.regrouped, List.forall_mem_map, List.forall_mem_cons, Tree.Cte.ofQuery]
      exact ⟨⟨trivial, bounds.1, bounds.2, by decide +kernel⟩,
        ⟨trivial, window.1, window.2, by decide +kernel⟩,
        ⟨trivial, totals.1, totals.2, by decide +kernel⟩,
        ⟨trivial, ranked.1, ranked.2, by decide +kernel⟩, List.forall_mem_nil _⟩
    nonempty := List.cons_ne_nil _ _
    items := List.forall_mem_cons.mpr ⟨label_fits h, List.forall_mem_cons.mpr
      ⟨column (by decide +kernel), List.forall_mem_cons.mpr ⟨column (by decide +kernel),
        List.forall_mem_cons.mpr ⟨column (by decide +kernel),
          List.forall_mem_singleton.mpr (column (by decide +kernel))⟩⟩⟩⟩
    sources := by
      refine List.forall_mem_singleton.mpr ⟨⟨rankedName, rfl, by decide +kernel⟩, fun j hj => ?_⟩
      obtain ⟨key, -, rfl⟩ := Option.map_eq_some_iff.mp (Option.mem_toList.mp hj)
      refine ⟨⟨_, rfl, h.dimension⟩, ?_, .inl (by decide : Tree.JoinKind.left ≠ .cross)⟩
      rintro _ ⟨⟩
      exact (Tree.binary_fits (n := 0) (Tree.colOf_operand h.dimension key)
        (Tree.colOf_operand (by decide +kernel) p.groupKey)).mono (by decide)
    condition _ absent := absurd absent (Option.not_mem_none _)
    keys := List.forall_mem_nil _
    order := List.forall_mem_singleton.mpr (ordered.mono (by decide))
    rows := limit_readable counted }

/-- The text of a trend can be read back. -/
theorem query_readsBack (h : p.CanBeRead) (ordered : order.expr.Fits metricLevels)
    (counted : IsCounted limit) : (p.query order limit).ReadsBack := by
  obtain ⟨readable, depth⟩ := Tree.query_fits (query_fits h ordered counted)
  exact ⟨query_plain p order limit, readable, depth.trans (by decide)⟩

/-! ### What a trend is made from -/

theorem orderItem_fits (ranking : Ranking) : (orderItem ranking).expr.Fits metricLevels := by
  cases ranking with
  | delta => exact (Tree.col_operand (by decide +kernel)).fits
  | percentChange => exact (Tree.col_operand (by decide +kernel)).fits

theorem keyPair?_declared {a b key other : String} (h : keyPair? schema a b = some (key, other)) :
    ∃ e ∈ schema.edges, key = e.leftKey ∨ key = e.rightKey := by
  obtain ⟨e, he, own⟩ := List.exists_of_findSome?_eq_some h
  refine ⟨e, he, ?_⟩
  split at own
  · exact .inl (Prod.mk.inj (Option.some.inj own)).1.symm
  · split at own
    · exact .inr (Prod.mk.inj (Option.some.inj own)).1.symm
    · cases own

/-- Rows are grouped by the column of the dimension or by a key of a declared join. -/
theorem grouping_key {line key : String} {d : Dimension} {other : Option String}
    (h : grouping schema line d = .ok (key, other)) :
    key = d.column ∨ ∃ e ∈ schema.edges, key = e.leftKey ∨ key = e.rightKey := by
  unfold grouping at h
  split at h
  · exact .inl (Prod.mk.inj (Except.ok.inj h)).1.symm
  · split at h
    · next pair =>
      obtain rfl := (Prod.mk.inj (Except.ok.inj h)).1
      exact .inr (keyPair?_declared pair)
    · cases h

theorem grouping_joined {line key : String} {d : Dimension} {other : Option String}
    (h : grouping schema line d = .ok (key, other)) (apart : d.table ≠ line) :
    ∃ own, other = some own := by
  rw [grouping, if_neg (by simpa using apart)] at h
  split at h
  · exact ⟨_, (Prod.mk.inj (Except.ok.inj h)).2.symm⟩
  · cases h

/-- The dimension of a trend is that of the plan, and is found as rows are grouped by it. -/
theorem parts_grouped {trend : ReportSql.Trend}
    (h : parts plan trend metric schema options = .ok p) :
    p.dimension = plan.dimensions.head?.getD defaultDimension ∧
      Join.Declared schema p.dimension.table ∧
      grouping schema p.line.name p.dimension = .ok (p.groupKey, p.dimensionKey) := by
  obtain ⟨line, found, h⟩ := bind_eq_ok.mp h
  obtain ⟨anchorName, anchored, h⟩ := bind_eq_ok.mp h
  obtain ⟨anchor, anchorFound, h⟩ := bind_eq_ok.mp h
  obtain ⟨revenue, summed, h⟩ := bind_eq_ok.mp h
  obtain ⟨dateColumn, dated, h⟩ := bind_eq_ok.mp h
  obtain ⟨⟨lineKey, anchorKey⟩, matched, h⟩ := bind_eq_ok.mp h
  obtain ⟨table, known, h⟩ := bind_eq_ok.mp h
  obtain ⟨scoping, owned, h⟩ := bind_eq_ok.mp h
  obtain ⟨⟨groupKey, dimensionKey⟩, grouped, h⟩ := bind_eq_ok.mp h
  obtain rfl := Except.ok.inj h
  have own := ok_of_mapError known
  exact ⟨rfl, (Catalog.table_found own).2 ▸ Catalog.declared_of_table own, grouped⟩

theorem parts_canBeRead {trend : ReportSql.Trend}
    (h : parts plan trend metric schema options = .ok p) (free : schema.IsFree)
    (keys : ∀ e ∈ schema.edges, startsFreely e.leftKey = true ∧ startsFreely e.rightKey = true)
    (columns : ∀ d ∈ plan.dimensions, startsFreely d.column = true)
    (named : isName options.tenantParam = true) (reads : metric.CanBeRead) : p.CanBeRead := by
  have c := parts_ok h
  obtain ⟨same, dimension, grouped⟩ := parts_grouped h
  have line := free p.line (Catalog.table_found c.line).1
  have anchor := free p.anchor (Catalog.table_found c.anchor).1
  have column : startsFreely p.dimension.column = true := by
    rw [same]
    cases first : plan.dimensions.head? with
    | none => decide +kernel
    | some d => exact columns d (List.mem_of_mem_head? first)
  refine ⟨line, anchor, declared_free free dimension, ?_, scoping_fits anchor named c.scoping, ?_,
    reads.argument _ c.revenue, ?_⟩
  · rcases grouping_key grouped with own | ⟨e, he, left | right⟩
    · exact own ▸ column
    · exact left ▸ (keys e he).1
    · exact right ▸ (keys e he).2
  · rw [c.completed]
    unfold completed?
    split
    · next state _ =>
      split
      · rintro _ ⟨⟩
        exact completed_fits state anchor
      · exact nofun
    · exact nofun
  · rw [c.lineFilters]
    refine List.forall_mem_append.mpr ⟨?_, reads.filters⟩
    exact fun f hf => cancellation_fits line f (Option.mem_toList.mp hf)

end Trend

/-! ### Reports -/

variable {catalog : Catalog} {q : Query} {bindings : List (String × ParamValue)}

/-- The text of a report can be read back, with the tables and the conditions that the report was
made from. -/
theorem query_readsBack (reads : catalog.CanBeRead) (named : isName options.tenantParam = true)
    (columns : plan.completeWeeksTrend.isSome = true →
      ∀ d ∈ plan.dimensions, startsFreely d.column = true)
    (counted : ∀ n ∈ plan.effectiveLimit, IsCounted n) (limited : IsCounted options.limit)
    (h : query plan catalog options = .ok (q, bindings)) : q.ReadsBack := by
  obtain ⟨-, metric, _, found, -, ⟨trend, p, trending, parts, rfl, -⟩ | ⟨-, m, rfl, -⟩⟩ :=
    query_paths h
  · have own := reads.metrics metric (Catalog.metric_found found).1
    have asked : plan.completeWeeksTrend.isSome = true := by
      rw [asked_of_trend trending]
      rfl
    have room : IsCounted (plan.effectiveLimit.getD options.limit) := by
      cases own : plan.effectiveLimit with
      | none => exact limited
      | some n => exact counted n own
    exact Trend.query_readsBack (Trend.parts_canBeRead parts reads.tables reads.keys (columns asked)
      named own) (Trend.orderItem_fits _) room
  · exact m.query_readsBack reads.tables named
      (reads.metrics metric (Catalog.metric_found found).1) counted

end ReportSql.Report
