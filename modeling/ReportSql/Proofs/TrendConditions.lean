import ReportSql.Proofs.JoinTrees
import ReportSql.Proofs.MadeReports

/-!
The conditions of trends. A trend puts the conditions of the usual path into two of its queries,
those on transactions into one and those on line items into the other. They are the same
conditions on the same dates if the line items have no date of their own and finished
transactions are marked in the anchor; a mark or a date of the line items is not looked at.
-/
namespace ReportSql.Report.Trend

open Catalog (CompletedState Metric Schema Table table_found)
open ReportSql.Tree (Expr filterCondition)

variable {plan : Plan} {metric : Metric} {schema : Schema} {options : Options} {p : Parts}
  {state : CompletedState} {column : String}

/-! ### What both paths look up -/

theorem scope_of_collected (c : Collected metric schema options p) :
    schema.scopeTable metric.baseTable = .ok p.anchor := by
  simp [Schema.scopeTable, c.line, c.anchored, c.anchor, bind, Except.bind]

theorem dateSource_of_collected (c : Collected metric schema options p) :
    schema.dateSource metric.baseTable = .ok (some (match p.line.dateColumn with
      | some column => (p.line, column)
      | none => (p.anchor, p.dateColumn))) := by
  cases own : p.line.dateColumn <;>
    simp [Schema.dateSource, c.line, c.anchored, c.anchor, c.dateColumn, own, bind, Except.bind,
      pure, Except.pure]

variable (m : Standard.Made plan metric schema options.tenantParam)

theorem base_eq (c : Collected metric schema options p) : m.base = p.line :=
  Except.ok.inj (m.baseFound.symm.trans c.line)

theorem scope_eq (c : Collected metric schema options p) : m.scope = p.anchor :=
  Except.ok.inj (m.scopeFound.symm.trans (scope_of_collected c))

theorem scoping_eq (c : Collected metric schema options p) : m.scoping = p.scoping := by
  have owned := m.owned
  rw [scope_eq m c, c.scoping] at owned
  exact (Option.some.inj owned).symm

/-- The usual path dates a row by the line item if that has a date. -/
theorem date_of_line (c : Collected metric schema options p)
    (own : p.line.dateColumn = some column) : m.date = .colOf p.line.name column := by
  have dated := m.dated.symm.trans (dateSource_of_collected c)
  simp only [own, Except.ok.injEq, Option.some.injEq, Prod.mk.injEq] at dated
  rw [Standard.Made.date, dated.1, dated.2]

theorem date_of_anchor (c : Collected metric schema options p) (own : p.line.dateColumn = none) :
    m.date = .colOf p.anchor.name p.dateColumn := by
  have dated := m.dated.symm.trans (dateSource_of_collected c)
  simp only [own, Except.ok.injEq, Option.some.injEq, Prod.mk.injEq] at dated
  rw [Standard.Made.date, dated.1, dated.2]

theorem anchor_joined (c : Collected metric schema options p) :
    p.anchor.name ∈ metric.baseTable :: m.joins.map Join.Step.table := by
  refine Join.required_joined m.joined ?_
  rw [scope_eq m c]
  simp

/-! ### Finished transactions -/

theorem completed_of_anchor (c : Collected metric schema options p)
    (anchored : ∀ state ∈ schema.completed, state.table = p.anchor.name) :
    Standard.completedFilters schema (metric.baseTable :: m.joins.map Join.Step.table) =
      p.completed.toList := by
  rw [c.completed]
  unfold Standard.completedFilters completed?
  cases known : schema.completed with
  | none => rfl
  | some state =>
      have same := anchored state known
      have joined := List.contains_iff_mem.mpr (anchor_joined m c)
      simp only [same, joined, if_true, beq_self_eq_true, Option.toList_some]

/-- A trend leaves out the mark of its line items, which the usual path looks at. -/
theorem state_of_line (c : Collected metric schema options p) (known : schema.completed = some state)
    (own : state.table = p.line.name) (other : p.line.name ≠ p.anchor.name) :
    p.completed = none ∧ state.predicate p.line.name ∈ m.rowFilters := by
  have base : p.line.name = metric.baseTable := (table_found c.line).2
  constructor
  · rw [c.completed, completed?, known]
    simp [own, other]
  · have joined : (metric.baseTable :: m.joins.map Join.Step.table).contains state.table = true := by
      simp [own, base]
    have completed : Standard.completedFilters schema
        (metric.baseTable :: m.joins.map Join.Step.table) = [state.predicate p.line.name] := by
      rw [Standard.completedFilters, known, ← own]
      exact if_pos joined
    simp [Standard.Made.rowFilters, completed]

/-! ### The conditions of both paths -/

/-- Where line items have no date of their own and finished transactions are marked in the anchor,
the two queries of a trend that read rows have together the conditions of the usual path, and limit
the weeks by the date of the usual path. -/
theorem restricts_alike (c : Collected metric schema options p)
    (m : Standard.Made plan metric schema options.tenantParam)
    (undated : p.line.dateColumn = none)
    (anchored : ∀ state ∈ schema.completed, state.table = p.anchor.name) :
    m.rowFilters = (p.scoping :: p.completed.toList) ++ p.lineFilters ∧
      p.window.condition = filterCondition (p.scoping :: p.completed.toList ++ [
        m.date.ge (weeksBefore (p.recentWeeks + p.priorWeeks)), m.date.lt weekStart]) ∧
      p.totals.condition = filterCondition p.lineFilters := by
  refine ⟨?_, ?_, ?_⟩
  · rw [Standard.Made.rowFilters, completed_of_anchor m c anchored, scoping_eq m c, base_eq m c,
      c.lineFilters, List.append_assoc]
  · rw [window_eq, date_of_anchor m c undated]
  · rw [totals_eq]

/-- In the catalog for restaurants every trend has the conditions of the usual path. -/
theorem restaurant_restricts_alike
    (c : Collected metric Catalog.Restaurant.schema options p)
    (m : Standard.Made plan metric Catalog.Restaurant.schema options.tenantParam) :
    m.rowFilters = (p.scoping :: p.completed.toList) ++ p.lineFilters ∧
      m.date = .colOf p.anchor.name p.dateColumn := by
  have lines : ∀ t ∈ Catalog.Restaurant.schema.tables, t.anchor.isSome →
      t.anchor = some Catalog.Restaurant.completed.table ∧ t.dateColumn = none := by decide
  obtain ⟨anchor, undated⟩ := lines p.line (table_found c.line).1 (by simp [c.anchored])
  have anchored : ∀ state ∈ Catalog.Restaurant.schema.completed, state.table = p.anchor.name := by
    rintro _ ⟨⟩
    exact Option.some.inj (anchor.symm.trans c.anchored)
  exact ⟨(restricts_alike c m undated anchored).1, date_of_anchor m c undated⟩

/-! ### Line items with marks and dates of their own -/

/-- Sales and their items, which are marked and dated by themselves. -/
def markedItems : Schema where
  tables := [
    { name := "sales", role := .fact, primaryKey := "uuid", scopeColumn := some "restaurant"
      dateColumn := some "created_at", cancelColumn := none, anchor := none, hierarchy := none },
    { name := "items", role := .fact, primaryKey := "uuid", scopeColumn := none
      dateColumn := some "added_at", cancelColumn := none, anchor := some "sales"
      hierarchy := none }]
  edges := [⟨"items", "sale_id", "sales", "uuid", .inner⟩]
  completed := some ⟨"items", "state", "DONE"⟩
  faultless := by decide

def itemTotal : Metric where
  key := "item_total"
  baseTable := "items"
  expression := (Expr.colOf "items" "price").sum
  extraFilters := []
  description := none

def itemsBySku : Plan :=
  { Plan.simple "item_total" "items" "Cafe" with dimensions := [⟨"items", "sku", none⟩] }

/-- A trend of these items looks at no mark, and at the date of their sale. -/
theorem markedItems_not_alike :
    ∃ p, parts itemsBySku ⟨true, none, none, none⟩ itemTotal markedItems
        (bindingTenant "restaurant") = .ok p ∧
      ∃ m : Standard.Made itemsBySku itemTotal markedItems "restaurant",
        p.completed = none ∧ (Expr.colOf "items" "state").eq (.text "DONE") ∈ m.rowFilters ∧
          m.date ≠ .colOf p.anchor.name p.dateColumn := by
  have collects : (parts itemsBySku ⟨true, none, none, none⟩ itemTotal markedItems
      (bindingTenant "restaurant")).isOk = true := by decide +kernel
  have compiles : (Standard.query itemsBySku itemTotal markedItems "restaurant").isOk = true := by
    decide +kernel
  cases made : parts itemsBySku ⟨true, none, none, none⟩ itemTotal markedItems
      (bindingTenant "restaurant") with
  | error _ =>
      rw [made] at collects
      cases collects
  | ok p =>
      have c := parts_ok made
      cases run : Standard.query itemsBySku itemTotal markedItems "restaurant" with
      | error _ =>
          rw [run] at compiles
          cases compiles
      | ok q =>
          obtain ⟨m, -⟩ := Standard.query_ok run
          have line : p.line = markedItems.tables[1] := Except.ok.inj c.line.symm
          have anchor : p.anchor.name = "sales" := by
            have anchored := c.anchored
            rw [line] at anchored
            exact (Option.some.inj anchored).symm
          have name : p.line.name = "items" := congrArg Table.name line
          have lost := state_of_line m c rfl name.symm (by rw [name, anchor]; decide)
          rw [name] at lost
          have date : m.date = .colOf p.line.name "added_at" :=
            date_of_line m c (congrArg Table.dateColumn line)
          refine ⟨p, rfl, m, lost.1, lost.2, ?_⟩
          rw [date, name, anchor]
          simp [Expr.colOf]

end ReportSql.Report.Trend
