import ReportSql.Proofs.ExprParts
import ReportSql.Proofs.JoinTrees
import ReportSql.Proofs.MadeReports

/-!
The columns of reports on the usual path. What a report reads besides the expressions of its metric
is qualified by tables that it joins, and each join refers to tables that are there, so that no
column is without its table.
-/
namespace ReportSql.Tree.Expr

variable {tables more : List String} {a b e : Expr} {es : List Expr} {table name : String}

/-- Whether a node is a column of one of some tables, or reads nothing itself. A star reads any
column, and so may raw text or a query. -/
def IsRead (tables : List String) : Expr → Prop
  | .column qualifier _ => ∃ table ∈ tables, qualifier = some table
  | .star _ | .raw _ | .subquery _ | .exists _ _ | .inQuery _ _ _ => False
  | _ => True

/-- Whether an expression reads columns of some tables and nothing else. -/
def ReadsOnly (tables : List String) (e : Expr) : Prop := ∀ node ∈ e.nodes, node.IsRead tables

section

-- the equations of both, made before the proofs that would wait for them
attribute [local simp] nodes IsRead

end

namespace ReadsOnly

@[simp] theorem column : (Expr.colOf table name).ReadsOnly tables ↔ table ∈ tables := by
  simp [ReadsOnly, nodes, colOf, IsRead]

@[simp] theorem literal {value : Literal} : (Expr.literal value).ReadsOnly tables := by
  simp [ReadsOnly, nodes, IsRead]

@[simp] theorem param : (Expr.param name).ReadsOnly tables := by
  simp [ReadsOnly, nodes, IsRead]

@[simp] theorem interval : (Expr.interval name).ReadsOnly tables := by
  simp [ReadsOnly, nodes, IsRead]

@[simp] theorem binary {op : BinaryOp} :
    (Expr.binary a op b).ReadsOnly tables ↔ a.ReadsOnly tables ∧ b.ReadsOnly tables := by
  simp [ReadsOnly, nodes, IsRead, or_imp, forall_and]

@[simp] theorem call {distinct : Bool} :
    (Expr.call name es distinct).ReadsOnly tables ↔ ∀ e ∈ es, e.ReadsOnly tables := by
  simp only [ReadsOnly, nodes, nodesOf_eq, List.forall_mem_cons, List.forall_mem_flatMap, IsRead,
    true_and]

@[simp] theorem inList {negated : Bool} : (Expr.inList e es negated).ReadsOnly tables ↔
    e.ReadsOnly tables ∧ ∀ value ∈ es, value.ReadsOnly tables := by
  simp only [ReadsOnly, nodes, nodesOf_eq, List.forall_mem_cons, List.forall_mem_append,
    List.forall_mem_flatMap, IsRead, true_and]

@[simp] theorem isTruth {value negated : Bool} :
    (Expr.isTruth e value negated).ReadsOnly tables ↔ e.ReadsOnly tables := by
  simp [ReadsOnly, nodes, IsRead]

@[simp] theorem cast {type : String} :
    (Expr.cast e type).ReadsOnly tables ↔ e.ReadsOnly tables := by
  simp [ReadsOnly, nodes, IsRead]

@[simp] theorem paren : (Expr.paren e).ReadsOnly tables ↔ e.ReadsOnly tables := by
  simp [ReadsOnly, nodes, IsRead]

end ReadsOnly

end ReportSql.Tree.Expr

namespace ReportSql.Join

open Catalog (Edge)
open ReportSql.Tree (Expr)

variable {base : String} {edges : List Edge} {steps : List Step} {tables : List String}

theorem readsOnly_condition {e : Edge} :
    e.condition.ReadsOnly tables ↔ e.leftTable ∈ tables ∧ e.rightTable ∈ tables := by
  simp [Edge.condition, Expr.eq]

/-- Whether steps bring tables in one by one, none of them twice, and each by a condition on its own
table and those before it. -/
structure InOrder (base : String) (steps : List Step) : Prop where
  once : (base :: steps.map Step.table).Nodup
  conditions : ∀ before step after, steps = before ++ step :: after →
    step.condition.ReadsOnly (base :: (before ++ [step]).map Step.table)

/-- Joins that are made in their order refer to tables that are there. -/
theorem Grows.inOrder (h : Grows base edges steps) : InOrder base steps := by
  refine ⟨h.tables_nodup, ?_⟩
  induction h with
  | base => simp
  | @join edges steps e old new grown joins there fresh ih =>
      intro before step after split
      rcases List.eq_nil_or_concat after with rfl | ⟨after, last, rfl⟩
      · -- the last of the joins is between a table that was there and the one it brings in
        obtain ⟨rfl, own⟩ := List.append_inj' split rfl
        obtain rfl := List.singleton_inj.mp own
        rw [List.map_append, ← List.cons_append]
        have there := List.mem_append_left [new] there
        have last : new ∈ (base :: steps.map Step.table) ++ [new] := by simp
        rcases joins with ⟨rfl, rfl⟩ | ⟨rfl, rfl⟩
        · exact readsOnly_condition.mpr ⟨there, last⟩
        · exact readsOnly_condition.mpr ⟨last, there⟩
      · have same : steps ++ [⟨new, e.kind, e.condition⟩] = (before ++ step :: after) ++ [last] := by
          simpa using split
        exact ih before step after (List.append_inj' same rfl).1

end ReportSql.Join

namespace ReportSql.Report

open Catalog (Metric Schema Table)
open ReportSql.Tree (Expr Query filterCondition)

variable {plan : Plan} {metric : Metric} {schema : Schema} {tables : List String} {date e : Expr}
  {t : Table}

theorem reads_scoping {tenant : String} (h : t.scoping? (.param tenant) = some e)
    (ht : t.name ∈ tables) : e.ReadsOnly tables := by
  obtain ⟨column, -, rfl⟩ := Option.map_eq_some_iff.mp h
  simpa [Expr.eq, Expr.lower, Expr.callOf] using ht

theorem reads_cancellation (h : t.cancellation? = some e) (ht : t.name ∈ tables) :
    e.ReadsOnly tables := by
  obtain ⟨column, -, rfl⟩ := Option.map_eq_some_iff.mp h
  simpa [Expr.isNotTrue] using ht

namespace Standard

@[simp] theorem reads_dateParam {name : String} : (dateParam name).ReadsOnly tables := by
  simp [dateParam]

@[simp] theorem reads_dayAfter {name : String} : (dayAfter name).ReadsOnly tables := by
  simp [dayAfter, Expr.add]

@[simp] theorem reads_truncate {unit : String} :
    (Expr.truncate unit date).ReadsOnly tables ↔ date.ReadsOnly tables := by
  simp [Expr.truncate, Expr.callOf, Expr.text]

theorem reads_completedFilters : ∀ f ∈ completedFilters schema tables, f.ReadsOnly tables := by
  unfold completedFilters
  split
  · split
    · next state joined => simpa [Catalog.CompletedState.predicate, Expr.eq, Expr.text] using joined
    · simp
  · simp

theorem reads_rangeFilters (h : date.ReadsOnly tables) (range : Option DateRange) :
    ∀ f ∈ rangeFilters date range, f.ReadsOnly tables := by
  unfold rangeFilters
  split
  · simp
  · intro f hf
    rcases List.mem_append.mp hf with start | stop
    · split at start <;> simp_all [Expr.ge]
    · split at stop <;> simp_all [Expr.lt]

theorem reads_comparisonFilters (h : date.ReadsOnly tables) :
    ∀ f ∈ comparisonFilters plan date, f.ReadsOnly tables := by
  unfold comparisonFilters
  split
  · unfold comparisonFilter
    split
    · simp [Expr.isOneOf, Expr.callOf, h]
    · split <;>
        simp [Expr.isOneOf, Expr.and, Expr.or, Expr.ge, Expr.lt, eitherSpan, between, h]
  · simp

theorem reads_keys (h : date.ReadsOnly tables)
    (dimensions : ∀ d ∈ plan.dimensions, d.table ∈ tables) :
    ∀ k ∈ keys plan date, k.1.ReadsOnly tables := by
  intro k hk
  rcases List.mem_append.mp hk with period | dimension
  · obtain ⟨grain, -, rfl⟩ := Option.map_eq_some_iff.mp (Option.mem_toList.mp period)
    exact reads_truncate.mpr h
  · obtain ⟨d, hd, rfl⟩ := List.mem_map.mp dimension
    exact Expr.ReadsOnly.column.mpr (dimensions d hd)

/-- Whether the select list, the conditions and the groups of a query have columns of some tables
only, the expressions of a metric apart. -/
structure ReadsBeside (metric : Metric) (tables : List String) (q : Query) : Prop where
  items : ∃ keys, q.items = keys ++ [metric.expression.as valueName] ∧
    ∀ k ∈ keys, k.expr.ReadsOnly tables
  conditions : ∃ own dated, q.condition = filterCondition (own ++ metric.extraFilters ++ dated) ∧
    ∀ f ∈ own ++ dated, f.ReadsOnly tables
  groups : ∀ e ∈ q.groupBy, e.ReadsOnly tables

namespace Made

variable {tenantParam : String} (m : Made plan metric schema tenantParam)

/-- The tables of the FROM clause. -/
def joinedTables : List String := metric.baseTable :: m.joins.map Join.Step.table

theorem joins_inOrder : Join.InOrder metric.baseTable m.joins := by
  obtain ⟨edges, tree⟩ := Join.tree_of_resolve m.joined
  exact tree.grows.inOrder

theorem dateTable_mem : m.dateTable.name ∈ m.joinedTables := Join.required_joined m.joined (by simp)

theorem scope_mem : m.scope.name ∈ m.joinedTables := Join.required_joined m.joined (by simp)

theorem dimension_mem : ∀ d ∈ plan.dimensions, d.table ∈ m.joinedTables := fun d hd =>
  Join.required_joined m.joined (by simpa using .inr (.inr (.inr ⟨d, hd, rfl⟩)))

theorem reads_date : m.date.ReadsOnly m.joinedTables := Expr.ReadsOnly.column.mpr m.dateTable_mem

theorem readsBeside : ReadsBeside metric m.joinedTables m.query := by
  have keys := reads_keys m.reads_date m.dimension_mem
  refine ⟨⟨_, rfl, ?_⟩, ⟨m.scoping :: completedFilters schema m.joinedTables ++ m.base.cancellation?.toList,
    rangeFilters m.date plan.dateRange ++ comparisonFilters plan m.date, ?_, ?_⟩, ?_⟩
  · exact List.forall_mem_map.mpr keys
  · simp [query, assembled, filters, rowFilters, joinedTables]
  · have base : m.base.name ∈ m.joinedTables := by
      rw [(Catalog.table_found m.baseFound).2]
      exact List.mem_cons_self
    simp only [List.cons_append, List.forall_mem_cons, List.forall_mem_append, Option.mem_toList]
    exact ⟨reads_scoping m.owned m.scope_mem, ⟨reads_completedFilters,
      fun f hf => reads_cancellation hf base⟩, reads_rangeFilters m.reads_date plan.dateRange,
      reads_comparisonFilters m.reads_date⟩
  · exact List.forall_mem_map.mpr keys

end Made

end Standard

/-! ### Reports -/

/-- A report on the usual path joins the tables that date and scope its metric and those of its
dimensions, each once and each by a condition on it and tables before it, and has columns of these
tables only, the expressions of its metric apart. -/
theorem report_reads_joined_tables {catalog : Catalog} {options : Options} {report : Report}
    (usual : UsualPath catalog plan) (h : compile plan catalog options = .ok report) :
    ∃ q bindings metric dateTable dateColumn scope joins,
      query plan catalog options = .ok (q, bindings) ∧ report.sql = q.sql ∧
      catalog.metric plan.metric = .ok metric ∧
      catalog.schema.dateSource metric.baseTable = .ok (some (dateTable, dateColumn)) ∧
      catalog.schema.scopeTable metric.baseTable = .ok scope ∧
      q.sources = [⟨.ofName metric.baseTable, joins.map Join.Step.join⟩] ∧
      Join.InOrder metric.baseTable joins ∧
      (∀ table ∈ dateTable.name :: scope.name :: plan.dimensions.map Dimension.table,
        table ∈ metric.baseTable :: joins.map Join.Step.table) ∧
      Standard.ReadsBeside metric (metric.baseTable :: joins.map Join.Step.table) q := by
  obtain ⟨⟨q, bindings⟩, made, h⟩ := bind_eq_ok.mp h
  obtain rfl := Except.ok.inj h
  obtain ⟨metric, found, m, rfl, -⟩ := query_usual usual made
  refine ⟨_, bindings, metric, m.dateTable, m.dateColumn, m.scope, m.joins, made, rfl, found, m.dated,
    m.scopeFound, rfl, m.joins_inOrder, ?_, m.readsBeside⟩
  simp only [List.forall_mem_cons, List.forall_mem_map]
  exact ⟨m.dateTable_mem, m.scope_mem, m.dimension_mem⟩

def revenueByCategory : Plan :=
  { Plan.simple "item_revenue" "items" "Cafe" with
    grain := some .month
    dimensions := [⟨"product_categories", "name", none⟩] }

theorem revenueByCategory_reads_joined_tables : ∃ report,
    compile revenueByCategory Catalog.restaurant (bindingTenant "restaurant") = .ok report ∧
      ∃ (q : Query) (joins : List Join.Step), report.sql = q.sql ∧
        q.sources = [⟨.ofName "items", joins.map Join.Step.join⟩] ∧
        ∀ table ∈ ["sales", "product_categories"],
          table ∈ "items" :: joins.map Join.Step.table := by
  have compiles : (compile revenueByCategory Catalog.restaurant
      (bindingTenant "restaurant")).isOk = true := by decide +kernel
  cases made : compile revenueByCategory Catalog.restaurant (bindingTenant "restaurant") with
  | error _ =>
      rw [made] at compiles
      cases compiles
  | ok report =>
      obtain ⟨q, -, metric, dateTable, dateColumn, scope, joins, -, text, found, -, scopeFound, sources,
        -, joined, -⟩ := report_reads_joined_tables (usualPath_of_no_trend rfl) made
      obtain rfl := Except.ok.inj found
      obtain rfl := Except.ok.inj scopeFound
      exact ⟨report, rfl, q, joins, text, sources, (List.forall_mem_cons.mp joined).2⟩

end ReportSql.Report
