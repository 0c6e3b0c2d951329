import ReportSql.Catalog.Restaurant
import ReportSql.Proofs.MadeReports

/-!
What a report on the usual path is grouped and ordered by. It is grouped by the expressions of its
select list before the metric, and ordered by the name of the period or of the metric. That name
stands for one column unless a dimension is given it as an alias.
-/
namespace ReportSql.Report.Standard

open Catalog (Metric Schema)
open Tree (Expr OrderItem Query SelectItem)

/-- The name that a plan is ordered by, where it is. -/
def orderName (plan : Plan) : String := if plan.grain.isSome then periodName else valueName

/-- The number of columns of a query that go by a name. -/
def columnsNamed (name : String) (q : Query) : Nat := q.items.countP fun i => i.label == some name

section

variable {plan : Plan} {metric : Metric} {schema : Schema} {tenantParam : String}

/-- The columns before the metric. -/
def Made.keyItems (m : Made plan metric schema tenantParam) : List SelectItem :=
  (keys plan m.date).map fun (e, name) => e.as name

theorem orderItems_name : ∀ o ∈ orderItems plan, o.expr = .col (orderName plan) := by
  intro o ho
  rw [orderName]
  rw [orderItems] at ho
  by_cases grain : plan.grain.isSome
  · rw [if_pos grain] at ho ⊢
    rw [List.mem_singleton.mp ho]
    rfl
  · rw [if_neg grain] at ho ⊢
    by_cases limit : plan.effectiveLimit.isSome
    · rw [if_pos limit] at ho
      rw [List.mem_singleton.mp ho]
      rfl
    · rw [if_neg limit] at ho
      cases ho

/-- One column goes by the name besides the dimensions that do. -/
theorem Made.columnsNamed_orderName (m : Made plan metric schema tenantParam) :
    columnsNamed (orderName plan) m.query =
      plan.dimensions.countP (fun d => d.outputName == orderName plan) + 1 := by
  have items : m.query.items =
      (keys plan m.date).map (fun (e, name) => e.as name) ++ [metric.expression.as valueName] := rfl
  have labels (name : String) : columnsNamed name m.query =
      (keys plan m.date).countP (fun k => k.2 == name) + if valueName = name then 1 else 0 := by
    rw [columnsNamed, items, List.countP_append, List.countP_map]
    congr 1
    simp [Expr.as]
  rw [labels, keys, List.countP_append, List.countP_map]
  rw [orderName]
  cases plan.grain with
  | none => simp [Function.comp_def]
  | some grain => simp [Function.comp_def, periodName, valueName, Nat.add_comm]

/-- A dimension without an alias is not called like the period or the metric. -/
theorem outputName_default {d : Dimension} (h : d.label.getD "" = "") (plan : Plan) :
    d.outputName ≠ orderName plan := by
  have underscore : d.outputName = d.table ++ "_" ++ d.column := by
    rw [Dimension.outputName]
    cases label : d.label with
    | none => rfl
    | some label => simp_all
  have inside : '_' ∈ d.outputName.toList := by simp [underscore]
  intro same
  rw [same, orderName] at inside
  cases grain : plan.grain.isSome with
  | true =>
      rw [grain] at inside
      exact absurd inside (by decide)
  | false =>
      rw [grain] at inside
      exact absurd inside (by decide)

end

/-- A report on the usual path is grouped by what it shows before the metric. Where it is ordered,
it is by the name of the period if there are periods, and of the metric otherwise; one column of the
report goes by that name, and with it the dimensions that are given it as an alias. -/
theorem report_groups_and_orders {plan : Plan} {catalog : Catalog} {options : Options} {q : Query}
    {bindings : List (String × ParamValue)} (usual : UsualPath catalog plan)
    (h : Report.query plan catalog options = .ok (q, bindings)) :
    ∃ metric before, catalog.metric plan.metric = .ok metric ∧
      q.items = before ++ [metric.expression.as valueName] ∧
      q.groupBy = before.map SelectItem.expr ∧
      (∀ o ∈ q.orderBy, o.expr = .col (orderName plan)) ∧
      (∃ i ∈ q.items, i.label = some (orderName plan) ∧
        if plan.grain.isSome then before.head? = some i else i = metric.expression.as valueName) ∧
      (columnsNamed (orderName plan) q = 1 ↔
        ∀ d ∈ plan.dimensions, d.outputName ≠ orderName plan) := by
  obtain ⟨metric, found, m, rfl, -⟩ := query_usual usual h
  refine ⟨metric, m.keyItems, found, rfl, ?_, orderItems_name, ?_, ?_⟩
  · have groups : m.query.groupBy = (keys plan m.date).map Prod.fst := rfl
    rw [groups, Made.keyItems, List.map_map]
    rfl
  · have items : m.query.items = m.keyItems ++ [metric.expression.as valueName] := rfl
    rw [items]
    cases grain : plan.grain with
    | none =>
        refine ⟨metric.expression.as valueName, by simp, ?_, ?_⟩
        · simp [orderName, grain, Expr.as]
        · simp
    | some unit =>
        refine ⟨(Expr.truncate unit.unit m.date).as periodName, ?_, ?_, ?_⟩
        · simp [Made.keyItems, keys, grain]
        · simp [orderName, grain, Expr.as]
        · simp [Made.keyItems, keys, grain]
  · rw [m.columnsNamed_orderName]
    simp [List.countP_eq_zero]

/-- Sales by channel, where the channel is called like the metric. -/
def salesByValue : Plan :=
  { Plan.simple "gross_sales" "sales" "Cafe" with
    dimensions := [⟨"sales", "channel", some "value"⟩]
    limit := some 5 }

/-- Two columns go by the name that the report is ordered by. -/
theorem salesByValue_ambiguous : ∃ q bindings,
    Report.query salesByValue Catalog.restaurant (bindingTenant "restaurant") = .ok (q, bindings) ∧
      q.orderBy = [(Expr.col "value").descending] ∧ columnsNamed "value" q = 2 := by
  have runs : (Report.query salesByValue Catalog.restaurant
      (bindingTenant "restaurant")).isOk = true := by
    decide +kernel
  obtain ⟨⟨q, bindings⟩, made⟩ := exists_of_isOk runs
  obtain ⟨metric, -, m, rfl, -⟩ := query_usual (usualPath_of_no_trend rfl) made
  exact ⟨_, bindings, made, rfl, m.columnsNamed_orderName⟩

end ReportSql.Report.Standard
