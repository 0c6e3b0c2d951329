import ReportSql.Proofs.AdmittedTrees
import ReportSql.Proofs.FlatQueries
import ReportSql.Proofs.ReadReports

/-!
What reports read and call. Besides the tables and the metrics of the catalog they read only the
queries that they define, and call only a few functions. A policy that allows all of these allows
each report.
-/
namespace ReportSql.Gate

open ReportSql.Tree (Branch Cte Expr FromItem Join Literal Place Query Source TableRef
  filterCondition regroup)

variable {p : Policy} {e f a b : Expr} {es fs : List Expr} {q : Query} {names : List String}

/-! ### Expressions -/

/-- Whether an expression has no queries inside and calls only what a policy allows. -/
structure Policy.AllowsExpr (p : Policy) (e : Expr) : Prop where
  flat : e.children = []
  calls : ∀ name arguments distinct, .call name arguments distinct ∈ e.nodes →
    p.forbidsFunction (Text.upper name) = false

/-- An expression is allowed with its parts, as long as it is no query and no forbidden call. -/
theorem allowsExpr_iff : p.AllowsExpr e ↔ e.query? = none ∧
    (∀ name arguments distinct, e = .call name arguments distinct →
      p.forbidsFunction (Text.upper name) = false) ∧ ∀ x ∈ e.parts, p.AllowsExpr x := by
  constructor
  · rintro ⟨flat, calls⟩
    rw [Expr.children_eq, List.append_eq_nil_iff, List.flatMap_eq_nil_iff] at flat
    refine ⟨Option.toList_eq_nil_iff.mp flat.1, ?_, fun x hx => ⟨flat.2 x hx, ?_⟩⟩
    · rintro name arguments distinct rfl
      exact calls name arguments distinct (Expr.self_mem_nodes _)
    · exact fun name arguments distinct inside =>
        calls name arguments distinct (Expr.mem_nodes_part hx inside)
  · rintro ⟨flat, own, parts⟩
    constructor
    · rw [Expr.children_eq, flat, Option.toList_none, List.nil_append, List.flatMap_eq_nil_iff]
      exact fun x hx => (parts x hx).flat
    · intro name arguments distinct inside
      rw [Expr.nodes_eq, List.mem_cons, List.mem_flatMap] at inside
      rcases inside with same | ⟨x, hx, inside⟩
      · exact own name arguments distinct same.symm
      · exact (parts x hx).calls name arguments distinct inside

@[simp] theorem allows_column {table : Option String} {name : String} :
    p.AllowsExpr (.column table name) := by
  simp [allowsExpr_iff (e := .column table name), Expr.query?, Expr.parts]

@[simp] theorem allows_literal {value : Literal} : p.AllowsExpr (.literal value) := by
  simp [allowsExpr_iff (e := .literal value), Expr.query?, Expr.parts]

@[simp] theorem allows_param {name : String} : p.AllowsExpr (.param name) := by
  simp [allowsExpr_iff (e := .param name), Expr.query?, Expr.parts]

@[simp] theorem allows_interval {text : String} : p.AllowsExpr (.interval text) := by
  simp [allowsExpr_iff (e := .interval text), Expr.query?, Expr.parts]

@[simp] theorem allows_binary {op : Tree.BinaryOp} :
    p.AllowsExpr (.binary a op b) ↔ p.AllowsExpr a ∧ p.AllowsExpr b := by
  simp [allowsExpr_iff (e := .binary a op b), Expr.query?, Expr.parts]

@[simp] theorem allows_cast {type : String} : p.AllowsExpr (.cast e type) ↔ p.AllowsExpr e := by
  simp [allowsExpr_iff (e := .cast e type), Expr.query?, Expr.parts]

@[simp] theorem allows_paren : p.AllowsExpr (.paren e) ↔ p.AllowsExpr e := by
  simp [allowsExpr_iff (e := .paren e), Expr.query?, Expr.parts]

@[simp] theorem allows_isTruth {value negated : Bool} :
    p.AllowsExpr (.isTruth e value negated) ↔ p.AllowsExpr e := by
  simp [allowsExpr_iff (e := .isTruth e value negated), Expr.query?, Expr.parts]

@[simp] theorem allows_inList {negated : Bool} :
    p.AllowsExpr (.inList e es negated) ↔ p.AllowsExpr e ∧ ∀ x ∈ es, p.AllowsExpr x := by
  simp [allowsExpr_iff (e := .inList e es negated), Expr.query?, Expr.parts]

@[simp] theorem allows_call {name : String} {distinct : Bool} :
    p.AllowsExpr (.call name es distinct) ↔
      p.forbidsFunction (Text.upper name) = false ∧ ∀ x ∈ es, p.AllowsExpr x := by
  simp [allowsExpr_iff (e := .call name es distinct), Expr.query?, Expr.parts]

@[simp] theorem allows_ifElse {condition : Expr} : p.AllowsExpr (.ifElse condition a b) ↔
    p.AllowsExpr condition ∧ p.AllowsExpr a ∧ p.AllowsExpr b := by
  rw [allowsExpr_iff]
  simp [Expr.ifElse, Expr.query?, Expr.parts, Branch.sides]

/-! ### Conditions -/

theorem allows_terms (h : p.AllowsExpr e) : ∀ c ∈ e.terms, p.AllowsExpr c :=
  Tree.forall_terms (fun _ _ => allows_binary.mp) h

theorem allows_filterCondition (h : ∀ f ∈ fs, p.AllowsExpr f) :
    ∀ e ∈ filterCondition fs, p.AllowsExpr e := by
  cases fs with
  | nil => exact fun e none => absurd none (Option.not_mem_none e)
  | cons f fs =>
      rw [Tree.filterCondition_cons]
      rintro _ ⟨⟩
      obtain ⟨own, others⟩ := List.forall_mem_cons.mp h
      clear h
      induction fs generalizing f with
      | nil => exact own
      | cons g fs ih =>
          obtain ⟨next, others⟩ := List.forall_mem_cons.mp others
          exact ih (f.and g) (allows_binary.mpr ⟨own, next⟩) others

theorem allows_regroup {condition : Option Expr} (h : ∀ e ∈ condition, p.AllowsExpr e) :
    ∀ e ∈ regroup condition, p.AllowsExpr e := by
  cases condition with
  | none => exact h
  | some e => exact allows_filterCondition (allows_terms (h e rfl))

/-! ### Queries -/

/-- Whether a policy allows a table of some name where some names are defined. -/
def Policy.AllowsName (p : Policy) (names : List String) (table : String) : Prop :=
  Text.lower table ∈ names ∨ p.allowsTable (Text.lower table) = true

/-- Whether a query is a SELECT over tables by name, and a policy allows these and what its clauses
call. -/
structure Policy.AllowsBlock (p : Policy) (names : List String) (q : Query) : Prop where
  single : q.setOperation = none
  ungrouped : q.having = none
  items : ∀ i ∈ q.items, p.AllowsExpr i.expr
  sources : ∀ f ∈ q.sources, (∃ t, f.source = .ofName t ∧ p.AllowsName names t) ∧
    ∀ j ∈ f.joins, (∃ t, j.source = .ofName t ∧ p.AllowsName names t) ∧
      ∀ e ∈ j.condition, p.AllowsExpr e
  condition : ∀ e ∈ q.condition, p.AllowsExpr e
  keys : ∀ e ∈ q.groupBy, p.AllowsExpr e
  order : ∀ o ∈ q.orderBy, p.AllowsExpr o.expr

theorem block_sources (h : p.AllowsBlock names q) :
    ∀ s ∈ q.allSources, ∃ t, s = .ofName t ∧ p.AllowsName names t := by
  refine List.forall_mem_flatMap.mpr fun f hf => ?_
  obtain ⟨own, joins⟩ := h.sources f hf
  exact List.forall_mem_cons.mpr ⟨own, List.forall_mem_map.mpr fun j hj => (joins j hj).1⟩

theorem block_exprs (h : p.AllowsBlock names q) : ∀ e ∈ q.exprs, p.AllowsExpr e := by
  have joins : ∀ e ∈ q.sources.flatMap (fun f => f.joins.filterMap Join.condition),
      p.AllowsExpr e := by
    refine List.forall_mem_flatMap.mpr fun f hf e he => ?_
    obtain ⟨j, hj, own⟩ := List.mem_filterMap.mp he
    exact ((h.sources f hf).2 j hj).2 e own
  simp only [Query.exprs, List.forall_mem_append, List.forall_mem_map, Option.mem_toList,
    h.ungrouped]
  exact ⟨⟨⟨⟨⟨h.items, joins⟩, h.condition⟩, h.keys⟩,
    fun e none => absurd none (Option.not_mem_none e)⟩, h.order⟩

theorem isBlock_of_allows (h : p.AllowsBlock names q) : q.IsBlock where
  single := h.single
  sources s hs := by
    obtain ⟨t, rfl, -⟩ := block_sources h s hs
    rfl
  exprs e he := (block_exprs h e he).flat

theorem allows_regroupWhere (h : p.AllowsBlock names q) : p.AllowsBlock names q.regroupWhere :=
  { h with condition := allows_regroup h.condition }

/-- Whether a policy allows a query and the queries that it defines. -/
structure Policy.AllowsBlocks (p : Policy) (q : Query) : Prop where
  own : p.AllowsBlock (q.ctes.map fun c => Text.lower c.name) q
  ctes : ∀ c ∈ q.ctes, c.query.ctes = [] ∧
    p.AllowsBlock (q.ctes.map fun c => Text.lower c.name) c.query

theorem allows_regrouped (h : p.AllowsBlocks q) : p.AllowsBlocks q.regrouped := by
  have names : (q.regrouped.ctes.map fun c => Text.lower c.name) =
      q.ctes.map fun c => Text.lower c.name := by
    simp only [Query.regrouped, List.map_map, Function.comp_def]
  constructor
  · rw [names]
    exact { allows_regroupWhere h.own with }
  · rw [names]
    exact List.forall_mem_map.mpr fun c hc =>
      ⟨(h.ctes c hc).1, allows_regroupWhere (h.ctes c hc).2⟩

theorem isFlat_of_allows (h : p.AllowsBlocks q) : q.IsFlat :=
  ⟨isBlock_of_allows h.own, fun c hc => ⟨(h.ctes c hc).1, isBlock_of_allows (h.ctes c hc).2⟩⟩

/-- A policy that allows the queries of a tree, one by one, allows the tree. -/
theorem allowsTree_of_blocks (h : p.AllowsBlocks q) : p.AllowsTree q := by
  have blocks : ∀ b ∈ q.queries, p.AllowsBlock (q.ctes.map fun c => Text.lower c.name) b := by
    rw [Tree.queries_flat (isFlat_of_allows h), List.forall_mem_cons]
    exact ⟨h.own, List.forall_mem_map.mpr fun c hc => (h.ctes c hc).2⟩
  constructor
  · rintro t ⟨b, hb, hs⟩
    obtain ⟨table, same, allowed⟩ := block_sources (blocks b hb) _ hs
    obtain rfl := Source.named.inj same
    simpa [Policy.allowsRelation, TableRef.path, TableRef.ofName, Tree.nameIdent,
      Policy.AllowsName] using allowed
  · rintro name arguments distinct ⟨b, hb, x, hx, inside⟩
    exact (block_exprs (blocks b hb) x hx).calls name arguments distinct inside

end ReportSql.Gate

namespace ReportSql.Report

open Catalog (Metric Schema declared_of_dateSource declared_of_scopeTable table_found)
open Gate (Policy allows_filterCondition)
open ReportSql.Tree (Expr Query)

/-- The functions that reports call besides those of their metrics. -/
def ownFunctions : List String := ["LOWER", "DATE", "DATE_TRUNC", "NOW", "SUM"]

/-- Whether a policy allows what the reports of a catalog read and call: its tables, the functions
that reports call on their own, and those that its metrics call. -/
structure Allows (policy : Policy) (catalog : Catalog) : Prop where
  tables : ∀ t ∈ catalog.schema.tables, policy.allowsTable (Text.lower t.name) = true
  functions : ∀ name ∈ ownFunctions, policy.forbidsFunction (Text.upper name) = false
  metrics : ∀ m ∈ catalog.metrics, ∀ e ∈ m.expression :: m.extraFilters,
    ∀ name arguments distinct, .call name arguments distinct ∈ e.nodes →
      policy.forbidsFunction (Text.upper name) = false

variable {policy : Policy} {catalog : Catalog} {plan : Plan} {metric : Metric} {schema : Schema}
  {options : Options} {e date value : Expr} {fs : List Expr} {joins : List Join.Step}
  {tenant base : String} {names : List String}

theorem metric_allowed (allows : Allows policy catalog) (h : metric ∈ catalog.metrics) :
    ∀ e ∈ metric.expression :: metric.extraFilters, policy.AllowsExpr e := by
  obtain ⟨-, value, filters⟩ :=
    Catalog.metric_plain (Catalog.metric_faultless catalog.faultless metric h)
  refine fun e he => ⟨?_, allows.metrics metric h e he⟩
  rcases List.mem_cons.mp he with rfl | filter
  · exact value
  · exact (filters e filter).1

theorem expression_of_argument (h : metric.sumArgument? = some e) :
    ∃ name, metric.expression = .call name [e] false := by
  unfold Metric.sumArgument? at h
  split at h
  · next name argument own =>
    rw [Option.ite_none_right_eq_some] at h
    exact ⟨name, Option.some.inj h.2 ▸ own⟩
  · cases h

theorem declared_allowed (allows : Allows policy catalog) (h : Join.Declared catalog.schema base) :
    policy.AllowsName names base := by
  obtain ⟨t, ht, rfl⟩ := List.mem_map.mp h
  exact .inr (allows.tables t ht)

section

variable (functions : ∀ name ∈ ownFunctions, policy.forbidsFunction (Text.upper name) = false)
include functions

/-! ### Conditions of reports -/

theorem scoping_allowed {t : Catalog.Table} (h : t.scoping? (.param tenant) = some e) :
    policy.AllowsExpr e := by
  obtain ⟨column, -, rfl⟩ := Option.map_eq_some_iff.mp h
  simp [Expr.eq, Expr.lower, Expr.callOf, Expr.colOf, functions "LOWER" (by decide)]

omit functions in
theorem predicate_allowed (state : Catalog.CompletedState) (name : String) :
    policy.AllowsExpr (state.predicate name) := by
  simp [Catalog.CompletedState.predicate, Expr.eq, Expr.colOf, Expr.text]

omit functions in
theorem cancellation_allowed {t : Catalog.Table} : ∀ f ∈ t.cancellation?, policy.AllowsExpr f := by
  intro f hf
  obtain ⟨column, -, rfl⟩ := Option.map_eq_some_iff.mp hf
  simp [Expr.isNotTrue, Expr.colOf]

namespace Standard

theorem truncate_allowed (unit : String) (hd : policy.AllowsExpr date) :
    policy.AllowsExpr (Expr.truncate unit date) := by
  simp [Expr.truncate, Expr.callOf, Expr.text, functions "DATE_TRUNC" (by decide), hd]

omit functions in
theorem rangeFilters_allowed (hd : policy.AllowsExpr date) (range : Option DateRange) :
    ∀ f ∈ rangeFilters date range, policy.AllowsExpr f := by
  cases range with
  | none => exact List.forall_mem_nil _
  | some r =>
      intro f hf
      simp only [rangeFilters, List.mem_append, List.mem_ite_nil_right, List.mem_singleton] at hf
      rcases hf with ⟨-, rfl⟩ | ⟨-, rfl⟩
      · simp [Expr.ge, dateParam, hd]
      · simp [Expr.lt, dayAfter, dateParam, Expr.add, hd]

theorem comparisonFilters_allowed (hd : policy.AllowsExpr date) :
    ∀ f ∈ comparisonFilters plan date, policy.AllowsExpr f := by
  have day : policy.AllowsExpr (Expr.callOf "DATE" [date]) := by
    simp [Expr.callOf, functions "DATE" (by decide), hd]
  have span : policy.AllowsExpr (eitherSpan date) := by
    simp [eitherSpan, between, Expr.or, Expr.and, Expr.ge, Expr.lt, dayAfter, dateParam, Expr.add,
      hd]
  unfold comparisonFilters
  split
  · rw [List.forall_mem_singleton, comparisonFilter]
    split
    · simp [Expr.isOneOf, dateParam, day]
    · next unit _ =>
      have whole := truncate_allowed functions unit hd
      split
      · simp [Expr.isOneOf, Expr.and, dateParam, whole, span]
      · simp [Expr.isOneOf, dateParam, whole]
  · exact List.forall_mem_nil _

theorem keys_allowed (hd : policy.AllowsExpr date) :
    ∀ k ∈ keys plan date, policy.AllowsExpr k.1 := by
  refine List.forall_mem_append.mpr ⟨fun k hk => ?_, List.forall_mem_map.mpr fun d _ => ?_⟩
  · obtain ⟨grain, -, rfl⟩ := Option.map_eq_some_iff.mp (Option.mem_toList.mp hk)
    exact truncate_allowed functions grain.unit hd
  · simp [Expr.colOf]

omit functions in
theorem orderItems_allowed : ∀ o ∈ orderItems plan, policy.AllowsExpr o.expr := by
  intro o ho
  unfold orderItems at ho
  split at ho
  · obtain rfl := List.mem_singleton.mp ho
    simp [Expr.ascending, Expr.col]
  · split at ho
    · obtain rfl := List.mem_singleton.mp ho
      simp [Expr.descending, Expr.col]
    · cases ho

theorem assembled_allowed (hd : policy.AllowsExpr date) (own : policy.AllowsName names base)
    (steps : ∀ s ∈ joins, policy.AllowsName names s.table ∧ policy.AllowsExpr s.condition)
    (filters : ∀ f ∈ fs, policy.AllowsExpr f) (total : policy.AllowsExpr value) :
    policy.AllowsBlock names (assembled plan base joins date fs value) where
  single := rfl
  ungrouped := rfl
  items := List.forall_mem_append.mpr
    ⟨List.forall_mem_map.mpr (keys_allowed functions hd), List.forall_mem_singleton.mpr total⟩
  sources := by
    refine List.forall_mem_singleton.mpr
      ⟨⟨base, rfl, own⟩, List.forall_mem_map.mpr fun s hs => ?_⟩
    obtain ⟨table, condition⟩ := steps s hs
    refine ⟨⟨s.table, rfl, table⟩, ?_⟩
    rintro _ ⟨⟩
    exact condition
  condition := allows_filterCondition filters
  keys := List.forall_mem_map.mpr (keys_allowed functions hd)
  order := orderItems_allowed

end Standard

end

namespace Standard

/-- A policy that allows a catalog allows its reports on the usual path. -/
theorem Made.allowed (m : Made plan metric catalog.schema tenant) (allows : Allows policy catalog)
    (known : metric ∈ catalog.metrics) : policy.AllowsBlocks m.query := by
  have functions := allows.functions
  obtain ⟨value, own⟩ := List.forall_mem_cons.mp (metric_allowed allows known)
  have date : policy.AllowsExpr m.date := by simp [Made.date, Expr.colOf]
  have table : policy.AllowsName [] metric.baseTable :=
    (table_found m.baseFound).2 ▸ declared_allowed allows (Catalog.declared_of_table m.baseFound)
  have steps : ∀ s ∈ m.joins, policy.AllowsName [] s.table ∧ policy.AllowsExpr s.condition := by
    intro s hs
    obtain ⟨declared, e, -, condition⟩ := Join.step_declared m.joined s hs
    refine ⟨declared_allowed allows declared, ?_⟩
    simp [condition, Catalog.Edge.condition, Expr.eq, Expr.colOf]
  have completed : ∀ f ∈ completedFilters catalog.schema
      (metric.baseTable :: m.joins.map Join.Step.table), policy.AllowsExpr f := by
    unfold completedFilters
    split
    · split
      · exact List.forall_mem_singleton.mpr (predicate_allowed _ _)
      · exact List.forall_mem_nil _
    · exact List.forall_mem_nil _
  have filters : ∀ f ∈ m.filters, policy.AllowsExpr f := by
    simp only [Made.filters, Made.rowFilters, List.cons_append, List.forall_mem_cons,
      List.forall_mem_append, Option.mem_toList]
    exact ⟨scoping_allowed functions m.owned, ⟨⟨⟨completed, cancellation_allowed⟩, own⟩,
      rangeFilters_allowed date _⟩, comparisonFilters_allowed functions date⟩
  exact ⟨assembled_allowed functions date table steps filters value, List.forall_mem_nil _⟩

end Standard

namespace Trend

variable {p : Parts} {order : Tree.OrderItem} {limit : UInt64}

/-- The names of the queries that a trend defines. -/
def definedNames : List String :=
  [boundsName, windowName, totalsName, rankedName].map Text.lower

theorem defined_allowed {name : String}
    (h : name ∈ [boundsName, windowName, totalsName, rankedName]) :
    policy.AllowsName definedNames name :=
  .inl (List.mem_map_of_mem h)

/-- Whether a policy allows what a trend is made from. -/
structure Parts.Allowed (policy : Policy) (p : Parts) : Prop where
  line : policy.AllowsName definedNames p.line.name
  anchor : policy.AllowsName definedNames p.anchor.name
  dimension : policy.AllowsName definedNames p.dimension.table
  scoping : policy.AllowsExpr p.scoping
  completed : ∀ f ∈ p.completed, policy.AllowsExpr f
  revenue : policy.AllowsExpr p.revenue
  lineFilters : ∀ f ∈ p.lineFilters, policy.AllowsExpr f

theorem weeksBefore_allowed (weeks : Nat) : policy.AllowsExpr (weeksBefore weeks) := by
  simp [weeksBefore, weekStart, Expr.sub, Expr.colOf]

theorem boundsJoin_allowed : (∃ t, Tree.Source.ofName boundsName = .ofName t ∧
    policy.AllowsName definedNames t) ∧ ∀ e ∈ (none : Option Expr), policy.AllowsExpr e :=
  ⟨⟨boundsName, rfl, defined_allowed (by simp)⟩, fun e none => absurd none (Option.not_mem_none e)⟩

theorem window_allowed (h : p.Allowed policy) : policy.AllowsBlock definedNames p.window := by
  rw [window_eq]
  exact {
    single := rfl
    ungrouped := rfl
    items := by simp [Expr.item, Expr.colOf]
    sources := List.forall_mem_singleton.mpr
      ⟨⟨_, rfl, h.anchor⟩, List.forall_mem_singleton.mpr boundsJoin_allowed⟩
    condition := by
      refine allows_filterCondition ?_
      simp only [List.cons_append, List.forall_mem_cons, List.forall_mem_append, Option.mem_toList]
      refine ⟨h.scoping, h.completed, ?_⟩
      simp [Expr.ge, Expr.lt, weeksBefore_allowed, weekStart, Expr.colOf]
    keys := List.forall_mem_nil _
    order := List.forall_mem_nil _ }

theorem ranked_allowed : policy.AllowsBlock definedNames p.ranked where
  single := rfl
  ungrouped := rfl
  items := by
    simp [Parts.ranked, Query.ofItems, Query.addSource, Expr.item, Expr.as, Expr.col, Expr.sub,
      Expr.div, Expr.eq, Expr.int, Expr.null]
  sources := List.forall_mem_singleton.mpr
    ⟨⟨totalsName, rfl, defined_allowed (by simp)⟩, List.forall_mem_nil _⟩
  condition e none := absurd none (Option.not_mem_none e)
  keys := List.forall_mem_nil _
  order := List.forall_mem_nil _

section

variable (functions : ∀ name ∈ ownFunctions, policy.forbidsFunction (Text.upper name) = false)
include functions

theorem bounds_allowed : policy.AllowsBlock definedNames bounds where
  single := rfl
  ungrouped := rfl
  items := by
    have now : policy.AllowsExpr (Expr.callOf "NOW" []) := by
      simp [Expr.callOf, functions "NOW" (by decide)]
    refine List.forall_mem_singleton.mpr (Gate.allows_cast.mpr ?_)
    exact Standard.truncate_allowed functions "week" now
  sources := List.forall_mem_nil _
  condition e none := absurd none (Option.not_mem_none e)
  keys := List.forall_mem_nil _
  order := List.forall_mem_nil _

theorem totals_allowed (h : p.Allowed policy) : policy.AllowsBlock definedNames p.totals := by
  have revenue : ∀ op : Tree.BinaryOp,
      policy.AllowsExpr (p.revenueWhere (.binary (.colOf windowName p.dateColumn) op
        (weeksBefore p.recentWeeks))) := fun op => by
    simp [Parts.revenueWhere, Expr.sum, Expr.callOf, functions "SUM" (by decide), Expr.colOf,
      weeksBefore_allowed, h.revenue, Expr.int]
  have group : policy.AllowsExpr (Expr.colOf p.line.name p.groupKey) := by simp [Expr.colOf]
  rw [totals_eq]
  exact {
    single := rfl
    ungrouped := rfl
    items := List.forall_mem_cons.mpr ⟨group, List.forall_mem_cons.mpr ⟨revenue .gtEq,
      List.forall_mem_singleton.mpr (revenue .lt)⟩⟩
    sources := by
      refine List.forall_mem_singleton.mpr ⟨⟨windowName, rfl, defined_allowed (by simp)⟩,
        List.forall_mem_cons.mpr ⟨⟨⟨_, rfl, h.line⟩, ?_⟩,
          List.forall_mem_singleton.mpr boundsJoin_allowed⟩⟩
      rintro _ ⟨⟩
      simp [Expr.eq, Expr.colOf]
    condition := allows_filterCondition h.lineFilters
    keys := List.forall_mem_singleton.mpr group
    order := List.forall_mem_nil _ }

theorem query_allowed (h : p.Allowed policy) (ordered : policy.AllowsExpr order.expr) :
    policy.AllowsBlocks (p.query order limit) := by
  rw [query_eq]
  constructor
  · exact {
      single := rfl
      ungrouped := rfl
      items := by
        have label : policy.AllowsExpr p.label := by
          unfold Parts.label
          split <;> simp [Expr.colOf]
        refine List.forall_mem_cons.mpr ⟨label, ?_⟩
        simp [Expr.item, Expr.col]
      sources := by
        refine List.forall_mem_singleton.mpr
          ⟨⟨rankedName, rfl, defined_allowed (by simp)⟩, fun j hj => ?_⟩
        obtain ⟨key, -, rfl⟩ := Option.map_eq_some_iff.mp (Option.mem_toList.mp hj)
        refine ⟨⟨_, rfl, h.dimension⟩, ?_⟩
        rintro _ ⟨⟩
        simp [Expr.eq, Expr.colOf]
      condition := fun e none => absurd none (Option.not_mem_none e)
      keys := List.forall_mem_nil _
      order := List.forall_mem_singleton.mpr ordered }
  · simp only [List.forall_mem_cons, Tree.Cte.ofQuery]
    have window := window_allowed h
    have totals := totals_allowed functions h
    have empty : p.window.ctes = [] ∧ p.totals.ctes = [] := by
      rw [window_eq, totals_eq]
      exact ⟨rfl, rfl⟩
    exact ⟨⟨rfl, bounds_allowed functions⟩, ⟨empty.1, window⟩, ⟨empty.2, totals⟩,
      ⟨rfl, ranked_allowed⟩, List.forall_mem_nil _⟩

end

theorem orderItem_allowed (ranking : Ranking) : policy.AllowsExpr (orderItem ranking).expr := by
  cases ranking <;> simp [orderItem, Expr.descending, Expr.col]

theorem parts_allowed {trend : ReportSql.Trend}
    (h : parts plan trend metric catalog.schema options = .ok p)
    (allows : Allows policy catalog) (known : metric ∈ catalog.metrics) : p.Allowed policy := by
  have c := parts_ok h
  obtain ⟨value, own⟩ := List.forall_mem_cons.mp (metric_allowed allows known)
  refine ⟨declared_allowed allows (Catalog.declared_of_table c.line),
    declared_allowed allows (Catalog.declared_of_table c.anchor),
    declared_allowed allows (parts_grouped h).2.1, scoping_allowed allows.functions c.scoping,
    ?_, ?_, ?_⟩
  · rw [c.completed]
    unfold completed?
    split
    · split
      · rintro _ ⟨⟩
        exact predicate_allowed _ _
      · exact fun e none => absurd none (Option.not_mem_none e)
    · exact fun e none => absurd none (Option.not_mem_none e)
  · obtain ⟨name, sum⟩ := expression_of_argument c.revenue
    rw [sum] at value
    exact (Gate.allows_call.mp value).2 p.revenue (List.mem_singleton_self _)
  · rw [c.lineFilters]
    exact List.forall_mem_append.mpr
      ⟨fun f hf => cancellation_allowed f (Option.mem_toList.mp hf), own⟩

end Trend

/-- A policy that allows what the reports of a catalog read and call allows each of them. -/
theorem query_allowed {q : Query} {bindings : List (String × ParamValue)}
    (allows : Allows policy catalog) (h : query plan catalog options = .ok (q, bindings)) :
    policy.AllowsBlocks q := by
  obtain ⟨-, metric, _, found, -, ⟨trend, p, -, parts, rfl, -⟩ | ⟨-, m, rfl, -⟩⟩ := query_paths h
  · have known := (Catalog.metric_found found).1
    exact Trend.query_allowed allows.functions (Trend.parts_allowed parts allows known)
      (Trend.orderItem_allowed _)
  · exact m.allowed allows (Catalog.metric_found found).1

end ReportSql.Report
