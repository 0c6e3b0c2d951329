import ReportSql.Catalog.Restaurant
import ReportSql.Proofs.JoinTrees
import ReportSql.Proofs.LikeReports
import ReportSql.Proofs.Outcomes
import ReportSql.Proofs.SoundCatalogs

/-!
The columns and labels of dimensions in a report. They go into its text as names and nothing else:
two plans that differ in them alone fail alike, or give texts that are cut into the same lexemes but
for names and are given the same parameters.
-/
namespace ReportSql.Join

open Catalog (Edge Schema)
open ReportSql.Tree (AtBreak Stands)

/-! ### Conditions of joins -/

/-- Whether the conditions of some joins are those of declared ones. -/
def AreDeclared (steps : List Step) : Prop := ∀ s ∈ steps, ∃ e : Edge, s.condition = e.condition

theorem declared_resolve {schema : Schema} {base : String} {required : List String}
    {steps : List Step} (h : resolve schema base required = .ok steps) : AreDeclared steps := by
  intro s hs
  obtain ⟨-, e, -, condition⟩ := step_declared h s hs
  exact ⟨e, condition⟩

theorem stands_declared {steps : List Step} (h : AreDeclared steps) :
    ∀ s ∈ steps, Stands AtBreak s.condition.tokens := by
  intro s hs
  obtain ⟨e, same⟩ := h s hs
  rw [same]
  exact (Stands.column (some e.leftTable)).before_blank.binary (Stands.column (some e.rightTable))

end ReportSql.Join

namespace ReportSql.Catalog

/-- The expressions of a metric that reports show: its value, what it adds up, its conditions. -/
def Metric.printed (m : Metric) : List Tree.Expr :=
  m.expression :: m.sumArgument?.toList ++ m.extraFilters

/-- Whether all that reports show of a metric is whole. -/
def PrintsWhole (catalog : Catalog) (key : String) : Prop :=
  ∀ m ∈ catalog.metrics, m.key = key → ∀ e ∈ m.printed, Output.Whole e.sql

end ReportSql.Catalog

namespace ReportSql.Report

open Catalog (Metric Schema)
open Output (NameTwin Twin Whole sqlText)
open ReportSql.Tree (AtBlank AtBreak Expr Query Stands)
open Sql.Placeholder (isName names)

variable {plan : Plan} {ds : List Dimension} {metric : Metric} {schema : Schema} {tenant : String}
  {date value : Expr} {fs : List Expr} {joins : List Join.Step}

/-! ### Runs side by side -/

/-- Two runs that fail alike or give results that are related. -/
inductive Lockstep {ε α β : Type} (R : α → β → Prop) : Except ε α → Except ε β → Prop
  | error (fault : ε) : Lockstep R (.error fault) (.error fault)
  | ok {a : α} {b : β} (related : R a b) : Lockstep R (.ok a) (.ok b)

namespace Lockstep

variable {ε α β γ δ : Type} {R : α → β → Prop} {S : γ → δ → Prop}

theorem bind {x : Except ε α} {y : Except ε β} {f : α → Except ε γ} {g : β → Except ε δ}
    (h : Lockstep R x y) (more : ∀ a b, R a b → Lockstep S (f a) (g b)) :
    Lockstep S (x >>= f) (y >>= g) := by
  cases h with
  | error fault => exact .error fault
  | ok related => exact more _ _ related

/-- Both runs may start with one step. -/
theorem shared {x y : Except ε α} {f : α → Except ε γ} {g : α → Except ε δ} (same : y = x)
    (more : ∀ a, x = .ok a → Lockstep S (f a) (g a)) : Lockstep S (x >>= f) (y >>= g) := by
  subst same
  cases y with
  | error fault => exact .error fault
  | ok a => exact more a rfl

end Lockstep

/-! ### Texts with other names -/

/-- Whether two texts have the same placeholders and are cut into the same lexemes but for names. -/
def SameButNames (s t : String) : Prop :=
  names t = names s ∧
    ∃ ls ms, Sql.lex s = some ls ∧ Sql.lex t = some ms ∧ List.Forall₂ NameTwin ls ms

/-- Two queries are so if they have the texts of trees that stand and differ in names. -/
theorem sameButNames_of_twins {q r p s : Query} (first : q.sql = p.sql) (second : r.sql = s.sql)
    (stands : Stands AtBlank p.tokens) (twins : List.Forall₂ Twin p.tokens s.tokens) :
    SameButNames q.sql r.sql := by
  rw [first, second]
  exact Output.sqlText_twins stands.separate twins

/-! ### Reports on the usual path -/

theorem twins_of_tables (tables : ds.map Dimension.table = plan.dimensions.map Dimension.table) :
    List.Forall₂ (DimensionsAlike (List.Forall₂ Twin)) plan.dimensions ds := by
  have same : List.Forall₂ Eq (plan.dimensions.map Dimension.table) (ds.map Dimension.table) := by
    rw [tables]
    exact List.forall₂_same.mpr fun _ _ => rfl
  have pairs := List.forall₂_map_right_iff.mp (List.forall₂_map_left_iff.mp same)
  exact pairs.imp fun _ _ => dimensionsAlike_twins

theorem sameButNames_assembled (base : String)
    (tables : ds.map Dimension.table = plan.dimensions.map Dimension.table)
    (hd : Stands AtBreak date.tokens) (hj : ∀ s ∈ joins, Stands AtBreak s.condition.tokens)
    (hf : ∀ f ∈ fs, Whole f.sql) (hv : Whole value.sql) :
    SameButNames (Standard.assembled plan base joins date fs value).sql
      (Standard.assembled { plan with dimensions := ds } base joins date fs value).sql := by
  -- the expressions of the catalog need not be names and plain tokens; as SQL they are one token each
  have texts : ∀ p : Plan, (Standard.assembled p base joins date fs value).sql =
      (Standard.assembled p base joins date (fs.map Expr.sealed) value.sealed).sql := fun p =>
    Standard.assembled_like Tree.likeness_text
      (List.forall₂_same.mpr fun d _ => dimensionsAlike_refl Tree.likeness_text d)
      (Tree.text_sealed_all fs) (Tree.text_sealed value)
  refine sameButNames_of_twins (texts plan) (texts { plan with dimensions := ds })
    (Standard.stands_assembled hd hj (Tree.stands_sealed_all hf) (Tree.stands_sealed hv)) ?_
  exact Standard.assembled_like Tree.likeness_twins (twins_of_tables tables)
    (List.forall₂_same.mpr fun f _ => Tree.likeness_twins.refl _) (Tree.likeness_twins.refl _)

theorem standard_filters_whole (plan : Plan) (schema : Schema) (table : Catalog.Table)
    {scope : Catalog.Table} (hn : isName tenant = true)
    (hs : scope.scoping? (.param tenant) = some value) (hd : Stands AtBreak date.tokens)
    (hw : ∀ f ∈ metric.extraFilters, Whole f.sql) (joined : List String) :
    ∀ f ∈ value :: Standard.completedFilters schema joined ++ table.cancellation?.toList
      ++ metric.extraFilters ++ Standard.rangeFilters date plan.dateRange
      ++ Standard.comparisonFilters plan date, Whole f.sql := by
  simp only [List.cons_append, List.mem_cons, List.mem_append, Option.mem_toList]
  rintro f (rfl | (((completed | canceled) | own) | range) | comparison)
  · exact Tree.whole_of_stands (stands_scoping hn hs)
  · exact Tree.whole_of_stands (Standard.stands_completedFilters schema joined f completed)
  · exact Tree.whole_of_stands (stands_cancellation f canceled)
  · exact hw f own
  · exact Tree.whole_of_stands (Standard.stands_rangeFilters hd plan.dateRange f range)
  · exact Tree.whole_of_stands (Standard.stands_comparisonFilters hd f comparison)

/-- One step of the loop that looks up the tables of dimensions. -/
def lookUp (schema : Schema) (table : String) (_ : PUnit) : Except Fault (ForInStep PUnit) := do
  let _ ← lookup (schema.table table)
  return .yield PUnit.unit

theorem lookups_of_tables (tables : ds.map Dimension.table = plan.dimensions.map Dimension.table) :
    forIn ds PUnit.unit (fun d => lookUp schema d.table) =
      forIn plan.dimensions PUnit.unit fun d => lookUp schema d.table := by
  have each : ∀ es : List Dimension, forIn es PUnit.unit (fun d => lookUp schema d.table) =
      forIn (es.map Dimension.table) PUnit.unit (lookUp schema) := fun _ => List.forIn_map.symm
  rw [each, each, tables]

theorem standard_lockstep
    (tables : ds.map Dimension.table = plan.dimensions.map Dimension.table) :
    Lockstep
      (fun q r => isName tenant = true → (∀ e ∈ metric.printed, Whole e.sql) →
        SameButNames q.sql r.sql)
      (Standard.query plan metric schema tenant)
      (Standard.query { plan with dimensions := ds } metric schema tenant) := by
  unfold Standard.query
  refine .shared rfl fun table _ => .shared rfl fun source? _ => ?_
  cases source? with
  | none => exact .error _
  | some source =>
    obtain ⟨dateTable, dateColumn⟩ := source
    refine .shared (x := .ok (dateTable, dateColumn)) rfl fun dated same => ?_
    cases same
    -- the tables of the dimensions are all that is looked up and joined
    refine .shared rfl fun scope _ => .shared (lookups_of_tables tables) fun _ _ => ?_
    refine .shared (congrArg (fun ts => (Join.resolve schema metric.baseTable
      (metric.baseTable :: dateTable.name :: scope.name :: ts)).mapError Fault.join) tables)
      fun joins resolved => ?_
    cases own : scope.scoping? (.param tenant) with
    | none => exact .error _
    | some value =>
      refine .shared (x := .ok value) rfl fun scoping same => ?_
      cases same
      refine .shared rfl fun _ _ => .ok fun hn hw => ?_
      have date := stands_colOf dateTable.name dateColumn
      have conditions := Join.stands_declared (Join.declared_resolve (ok_of_mapError resolved))
      have filters := standard_filters_whole plan schema table hn own date
        (fun f hf => hw f (List.mem_append_right _ hf))
        (metric.baseTable :: joins.map Join.Step.table)
      have same := sameButNames_assembled metric.baseTable tables date conditions filters
        (hw metric.expression List.mem_cons_self)
      rw [Standard.assembled_eq, Standard.assembled_eq] at same
      exact same

/-! ### Trends -/

namespace Trend

variable {p q : Parts} {order : Tree.OrderItem} {limit : UInt64}

/-- Whether the expressions that the catalog gives to a trend are whole. -/
structure Parts.AreWhole (p : Parts) : Prop where
  scoping : Stands AtBlank p.scoping.tokens
  completed : ∀ f ∈ p.completed, Stands AtBlank f.tokens
  revenue : Whole p.revenue.sql
  lineFilters : ∀ f ∈ p.lineFilters, Whole f.sql

/-- Whether the parts of two trends are the same but for the names of the dimension. -/
def Parts.SameTables (p q : Parts) : Prop :=
  p.dimension.table = q.dimension.table ∧
    q = p.changed q.dimension q.groupKey p.revenue p.lineFilters

/-- A trend with the revenue and the conditions as the SQL that they are written in. -/
def Parts.sealed (p : Parts) : Parts :=
  p.changed p.dimension p.groupKey p.revenue.sealed (p.lineFilters.map Expr.sealed)

theorem text_sealed (p : Parts) (order : Tree.OrderItem) (limit : UInt64) :
    (p.query order limit).sql = (p.sealed.query order limit).sql :=
  query_like Tree.likeness_text (dimensionsAlike_refl Tree.likeness_text p.dimension) rfl
    (Tree.text_sealed p.revenue) (Tree.text_sealed_all p.lineFilters)

theorem stand_sealed (h : p.AreWhole) : p.sealed.Stand :=
  ⟨h.scoping, h.completed, Tree.stands_sealed h.revenue, Tree.stands_sealed_all h.lineFilters⟩

theorem sameButNames_query (h : p.SameTables q) (whole : p.AreWhole)
    (ho : Stands AtBreak order.tokens) :
    SameButNames (p.query order limit).sql (q.query order limit).sql := by
  obtain ⟨table, same⟩ := h
  refine sameButNames_of_twins (text_sealed p order limit) (text_sealed q order limit)
    (stands_query (stand_sealed whole) ho) ?_
  rw [same]
  exact query_like Tree.likeness_twins (dimensionsAlike_twins table)
    (.cons (.names _ _) .nil) (Tree.likeness_twins.refl _)
    (List.forall₂_same.mpr fun _ _ => Tree.likeness_twins.refl _)

theorem grouping_lockstep (schema : Schema) (line : String) {d e : Dimension}
    (table : d.table = e.table) :
    Lockstep (fun x y => x.2 = y.2) (grouping schema line d) (grouping schema line e) := by
  unfold grouping
  rw [table]
  split
  · exact .ok rfl
  · split
    · exact .ok rfl
    · exact .error _

theorem default_table (tables : ds.map Dimension.table = plan.dimensions.map Dimension.table) :
    (ds.head?.getD defaultDimension).table =
      (plan.dimensions.head?.getD defaultDimension).table := by
  have heads := congrArg List.head? tables
  rw [List.head?_map, List.head?_map] at heads
  rw [← Option.getD_map Dimension.table, ← Option.getD_map Dimension.table, heads]

theorem eq_some_of_require {α : Type} {fault : Fault} {a? : Option α} {a : α}
    (h : require fault a? = .ok a) : a? = some a := by
  cases a? with
  | none => cases h
  | some b => exact congrArg some (Except.ok.inj h)

theorem stands_completed? (schema : Schema) (anchor : String) :
    ∀ f ∈ completed? schema anchor, Stands AtBlank f.tokens := by
  intro f hf
  unfold completed? at hf
  split at hf
  · next state _ =>
    split at hf
    · obtain rfl := Option.some.inj hf
      exact stands_completed state anchor
    · cases hf
  · cases hf

theorem lineFilters_whole (line : Catalog.Table) (hw : ∀ e ∈ metric.printed, Whole e.sql) :
    ∀ f ∈ line.cancellation?.toList ++ metric.extraFilters, Whole f.sql := by
  simp only [List.mem_append, Option.mem_toList]
  rintro f (canceled | own)
  · exact Tree.whole_of_stands (stands_cancellation f canceled)
  · exact hw f (List.mem_append_right _ own)

theorem parts_lockstep (tables : ds.map Dimension.table = plan.dimensions.map Dimension.table)
    (trend : ReportSql.Trend) (options : Options) :
    Lockstep
      (fun p q => p.SameTables q ∧ (isName options.tenantParam = true →
        (∀ e ∈ metric.printed, Whole e.sql) → p.AreWhole))
      (parts plan trend metric schema options)
      (parts { plan with dimensions := ds } trend metric schema options) := by
  have table := default_table tables
  unfold parts
  refine .shared rfl fun line _ => .shared rfl fun anchorName _ => .shared rfl fun anchor _ => ?_
  refine .shared rfl fun revenue summed => .shared rfl fun dateColumn _ => ?_
  refine .shared rfl fun keys _ => ?_
  obtain ⟨lineKey, anchorKey⟩ := keys
  refine .shared (congrArg (fun table => lookup (schema.table table)) table) fun _ _ => ?_
  refine .shared rfl fun scoping own => ?_
  -- the key of the groups is a name of the dimension if the line items have it themselves
  refine .bind (grouping_lockstep schema line.name table.symm) fun x y same => ?_
  obtain ⟨groupKey, dimensionKey⟩ := x
  obtain ⟨otherKey, key⟩ := y
  obtain rfl : dimensionKey = key := same
  refine .ok ⟨⟨table.symm, rfl⟩, fun hn hw => ⟨?_, ?_, ?_, ?_⟩⟩
  · exact stands_scoping hn (eq_some_of_require own)
  · exact stands_completed? schema anchor.name
  · have summand := eq_some_of_require summed
    exact hw revenue (by simp [Metric.printed, summand])
  · exact lineFilters_whole line hw

theorem stands_orderItem (ranking : Ranking) : Stands AtBreak (orderItem ranking).tokens := by
  cases ranking <;> exact Stands.orderItem (Stands.column none)

theorem query_lockstep (tables : ds.map Dimension.table = plan.dimensions.map Dimension.table)
    (trend : ReportSql.Trend) (options : Options) :
    Lockstep
      (fun q r => isName options.tenantParam = true → (∀ e ∈ metric.printed, Whole e.sql) →
        SameButNames q.sql r.sql)
      (query plan trend metric schema options)
      (query { plan with dimensions := ds } trend metric schema options) := by
  refine .bind (parts_lockstep tables trend options) fun p q parts => ?_
  refine .ok fun hn hw => sameButNames_query parts.1 (parts.2 hn hw) (stands_orderItem _)

end Trend

/-! ### Reports -/

variable {catalog : Catalog} {options : Options}

theorem query_lockstep (tables : ds.map Dimension.table = plan.dimensions.map Dimension.table) :
    Lockstep
      (fun x y => x.2 = y.2 ∧ (isName options.tenantParam = true → catalog.PrintsWhole plan.metric →
        SameButNames x.1.sql y.1.sql))
      (query plan catalog options) (query { plan with dimensions := ds } catalog options) := by
  unfold query
  refine .shared rfl fun _ _ => .shared rfl fun _ _ => .shared rfl fun metric found => ?_
  refine .shared rfl fun base _ => ?_
  obtain ⟨known, key⟩ := Catalog.metric_found (ok_of_mapError found)
  rw [show trend? { plan with dimensions := ds } base = trend? plan base from rfl]
  cases trend? plan base with
  | some trend =>
      refine .bind (Trend.query_lockstep tables trend options) fun q r same => .ok ⟨rfl, ?_⟩
      exact fun hn hw => same hn (hw metric known key)
  | none =>
      refine .bind (standard_lockstep tables) fun q r same => .ok ⟨rfl, ?_⟩
      exact fun hn hw => same hn (hw metric known key)

theorem compile_lockstep (catalog : Catalog) (options : Options)
    (tables : ds.map Dimension.table = plan.dimensions.map Dimension.table) :
    Lockstep
      (fun a b => isName options.tenantParam = true → catalog.PrintsWhole plan.metric →
        b.params = a.params ∧ SameButNames a.sql b.sql)
      (compile plan catalog options) (compile { plan with dimensions := ds } catalog options) := by
  refine .bind (query_lockstep tables) fun x y ⟨bindings, same⟩ => .ok fun hn hw => ?_
  obtain ⟨params, lexemes⟩ := same hn hw
  refine ⟨?_, params, lexemes⟩
  show paramsOf _ _ = paramsOf _ _
  rw [paramsOf, params, bindings]
  rfl

/-! ### The parameters of a report -/

/-- The parameters that a report has, by the tokens of its query. -/
def paramNames (plan : Plan) (catalog : Catalog) (options : Options) : Option (List String) :=
  (query plan catalog options).toOption.map fun (q, bindings) =>
    let text := q.tokens.flatMap fun t => t.render.toList
    let bound := bindings ++ [(options.tenantParam, .text plan.tenant)]
    (Text.sortedSet (Text.foundValues (Sql.Placeholder.split text))).filter fun name =>
      (bound.lookup name).isSome

theorem names_paramsOf (sql : String) (bindings : List (String × ParamValue)) :
    (paramsOf sql bindings).map Prod.fst =
      (names sql).filter fun name => (bindings.lookup name).isSome := by
  unfold paramsOf
  induction names sql with
  | nil => rfl
  | cons name others ih =>
      cases bound : bindings.lookup name <;> simp [bound, ih]

theorem compile_of_paramNames {params : List String}
    (h : paramNames plan catalog options = some params) :
    ∃ report, compile plan catalog options = .ok report ∧
      report.params.map Prod.fst = params := by
  unfold paramNames at h
  cases run : query plan catalog options with
  | error _ =>
      rw [run] at h
      cases h
  | ok made =>
      obtain ⟨q, bindings⟩ := made
      refine ⟨_, by rw [compile, run]; rfl, ?_⟩
      rw [run] at h
      rw [names_paramsOf, names, Query.sql, Output.sqlText_renders]
      exact Option.some.inj h

/-! ### The catalog for restaurants -/

theorem plainSum_printed (key base : String) (value : Expr) (description : String) :
    (Catalog.Restaurant.plainSum key base value description).printed = [value.sum, value] := by
  have named : Text.sameIgnoringAsciiCase "SUM" "sum" = true := by decide
  simp [Catalog.Metric.printed, Catalog.Metric.sumArgument?, Catalog.Restaurant.plainSum,
    Expr.sum, Expr.callOf, named]

theorem plainSum_whole {key base description : String} (hv : Stands AtBreak value.tokens) :
    ∀ f ∈ (Catalog.Restaurant.plainSum key base value description).printed, Whole f.sql := by
  have sum : Stands AtBlank value.sum.tokens := stands_callOn (by decide) hv
  rw [plainSum_printed]
  exact List.forall_mem_cons.mpr ⟨Tree.whole_of_stands sum,
    List.forall_mem_singleton.mpr (Tree.whole_of_stands hv.before_blank)⟩

theorem restaurant_printsWhole (key : String) : Catalog.restaurant.PrintsWhole key := by
  have column : ∀ table name, Stands AtBreak (Expr.colOf table name).tokens := stands_colOf
  intro m hm _
  simp only [Catalog.restaurant, Catalog.Restaurant.metrics, List.mem_cons, List.not_mem_nil,
    or_false] at hm
  rcases hm with rfl | rfl | rfl | rfl | rfl
  · exact plainSum_whole (column "sales" "total")
  · exact plainSum_whole
      ((column "items" "price").before_blank.binary (column "items" "quantity"))
  · exact plainSum_whole (column "sales" "num_customers")
  · exact plainSum_whole (column "expenses" "amount")
  · exact plainSum_whole (column "payments" "amount")

/-- Expenses since the start of 2024 by a column of theirs. -/
def expensesBy (column : String) : Plan :=
  { Plan.simple "expense_total" "expenses" "Cafe" with
    dateRange := some ⟨some (.ofCivil ⟨2024, 1, 1⟩), none⟩
    dimensions := [⟨"expenses", column, none⟩] }

/-- The usual options with the tenant bound by some name. -/
def bindingTenant (tenantParam : String) : Options where
  tenantParam
  recentWeeks := 2
  priorWeeks := 2
  limit := 5

/-! ### Dimensions are names -/

end ReportSql.Report
