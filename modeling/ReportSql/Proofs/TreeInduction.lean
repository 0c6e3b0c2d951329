import ReportSql.Proofs.ExprParts
import ReportSql.Proofs.NestedQueries

/-!
Induction over trees, into the queries inside expressions and the expressions of queries.
-/
namespace ReportSql.Tree

variable {e x : Expr} {q r : Query}

/-- The queries directly inside a query that do not stand in an expression. -/
def Query.operands (q : Query) : List Query :=
  q.ctes.map Cte.query ++ q.allSources.filterMap Source.query?
    ++ q.setOperation.toList.flatMap SetOperation.sides

/-! ### Parts of a query -/

variable {i : SelectItem} {f : FromItem} {j : Join} {o : OrderItem} {c : Cte} {s : Source}
  {operation : SetOperation}

theorem item_mem_exprs (h : i ∈ q.items) : i.expr ∈ q.exprs := by
  simp only [Query.exprs, List.mem_append, List.mem_map]
  exact .inl (.inl (.inl (.inl (.inl ⟨i, h, rfl⟩))))

theorem joinCondition_mem_exprs (hf : f ∈ q.sources) (hj : j ∈ f.joins) (he : e ∈ j.condition) :
    e ∈ q.exprs := by
  simp only [Query.exprs, List.mem_append, List.mem_flatMap, List.mem_filterMap]
  exact .inl (.inl (.inl (.inl (.inr ⟨f, hf, j, hj, he⟩))))

theorem condition_mem_exprs (h : e ∈ q.condition) : e ∈ q.exprs := by
  simp only [Query.exprs, List.mem_append, Option.mem_toList]
  exact .inl (.inl (.inl (.inr h)))

theorem key_mem_exprs (h : e ∈ q.groupBy) : e ∈ q.exprs := by
  simp only [Query.exprs, List.mem_append]
  exact .inl (.inl (.inr h))

theorem having_mem_exprs (h : e ∈ q.having) : e ∈ q.exprs := by
  simp only [Query.exprs, List.mem_append, Option.mem_toList]
  exact .inl (.inr h)

theorem order_mem_exprs (h : o ∈ q.orderBy) : o.expr ∈ q.exprs := by
  simp only [Query.exprs, List.mem_append, List.mem_map]
  exact .inr ⟨o, h, rfl⟩

theorem cte_mem_operands (h : c ∈ q.ctes) : c.query ∈ q.operands := by
  simp only [Query.operands, List.mem_append, List.mem_map]
  exact .inl (.inl ⟨c, h, rfl⟩)

theorem source_mem_operands (hf : f ∈ q.sources) (hs : s ∈ f.allSources) (hr : r ∈ s.query?) :
    r ∈ q.operands := by
  simp only [Query.operands, Query.allSources, List.mem_append, List.mem_filterMap,
    List.mem_flatMap]
  exact .inl (.inr ⟨s, ⟨f, hf, hs⟩, hr⟩)

theorem side_mem_operands (ho : operation ∈ q.setOperation) (hr : r ∈ operation.sides) :
    r ∈ q.operands := by
  simp only [Query.operands, List.mem_append, List.mem_flatMap, Option.mem_toList]
  exact .inr ⟨operation, ho, hr⟩

/-! ### Sizes -/

theorem sizeOf_query? : ∀ {e : Expr}, q ∈ e.query? → sizeOf q < sizeOf e
  | .subquery _, h | .exists _ _, h | .inQuery _ _ _, h => by
      obtain rfl := Option.some.inj h
      simp only [Expr.subquery.sizeOf_spec, Expr.exists.sizeOf_spec, Expr.inQuery.sizeOf_spec]
      omega

theorem sizeOf_cte (c : Cte) : sizeOf c.query < sizeOf c := by
  obtain ⟨name, columns, query, recursive⟩ := c
  simp only [Cte.mk.sizeOf_spec]
  omega

theorem sizeOf_item (i : SelectItem) : sizeOf i.expr < sizeOf i := by
  obtain ⟨expr, label⟩ := i
  simp only [SelectItem.mk.sizeOf_spec]
  omega

theorem sizeOf_order (o : OrderItem) : sizeOf o.expr < sizeOf o := by
  obtain ⟨expr, direction, nulls⟩ := o
  simp only [OrderItem.mk.sizeOf_spec]
  omega

theorem sizeOf_join (j : Join) : sizeOf j.source < sizeOf j := by
  obtain ⟨kind, source, condition⟩ := j
  simp only [Join.mk.sizeOf_spec]
  omega

theorem sizeOf_toList {α : Type} [SizeOf α] {o : Option α} {a : α} (h : a ∈ o.toList) :
    sizeOf a < sizeOf o := by
  obtain rfl := Option.mem_toList.mp h
  simp

theorem sizeOf_joinCondition {j : Join} (h : e ∈ j.condition) : sizeOf e < sizeOf j := by
  obtain ⟨kind, source, condition⟩ := j
  have := sizeOf_toList (Option.mem_toList.mpr h)
  simp only [Join.mk.sizeOf_spec] at this ⊢
  omega

theorem sizeOf_source {s : Source} (h : q ∈ s.query?) : sizeOf q < sizeOf s := by
  cases s with
  | derived query label =>
      obtain rfl := Option.some.inj h
      simp only [Source.derived.sizeOf_spec]
      omega
  | _ => cases h

theorem sizeOf_fromItem {f : FromItem} {s : Source} (h : s ∈ f.allSources) :
    sizeOf s < sizeOf f := by
  obtain ⟨source, joins⟩ := f
  simp only [FromItem.allSources, List.mem_cons, List.mem_map] at h
  simp only [FromItem.mk.sizeOf_spec]
  rcases h with rfl | ⟨j, hj, rfl⟩
  · omega
  · have := List.sizeOf_lt_of_mem hj
    have := sizeOf_join j
    omega

theorem sizeOf_fromCondition {f : FromItem} (h : e ∈ f.joins.filterMap Join.condition) :
    sizeOf e < sizeOf f := by
  obtain ⟨source, joins⟩ := f
  obtain ⟨j, hj, he⟩ := List.mem_filterMap.mp h
  have inside := List.sizeOf_lt_of_mem hj
  have := sizeOf_joinCondition he
  simp only [FromItem.mk.sizeOf_spec] at inside ⊢
  omega

theorem sizeOf_exprs (h : e ∈ q.exprs) : sizeOf e < sizeOf q := by
  obtain ⟨ctes, items, distinct, sources, condition, groupBy, having, orderBy, rows, operation⟩ := q
  simp only [Query.exprs, List.mem_append, List.mem_map, List.mem_flatMap] at h
  simp only [Query.mk.sizeOf_spec]
  rcases h with ((((⟨i, hi, rfl⟩ | ⟨f, hf, he⟩) | he) | he) | he) | ⟨o, ho, rfl⟩
  · have := List.sizeOf_lt_of_mem hi
    have := sizeOf_item i
    omega
  · have := List.sizeOf_lt_of_mem hf
    have := sizeOf_fromCondition he
    omega
  · have := sizeOf_toList he
    omega
  · have := List.sizeOf_lt_of_mem he
    omega
  · have := sizeOf_toList he
    omega
  · have := List.sizeOf_lt_of_mem ho
    have := sizeOf_order o
    omega

theorem sizeOf_operands (h : r ∈ q.operands) : sizeOf r < sizeOf q := by
  obtain ⟨ctes, items, distinct, sources, condition, groupBy, having, orderBy, rows, operation⟩ := q
  simp only [Query.operands, Query.allSources, List.mem_append, List.mem_map, List.mem_filterMap,
    List.mem_flatMap] at h
  simp only [Query.mk.sizeOf_spec]
  rcases h with (⟨c, hc, rfl⟩ | ⟨s, ⟨f, hf, hs⟩, hr⟩) | ⟨⟨left, op, all, right⟩, ho, hr⟩
  · have := List.sizeOf_lt_of_mem hc
    have := sizeOf_cte c
    omega
  · have := List.sizeOf_lt_of_mem hf
    have := sizeOf_fromItem hs
    have := sizeOf_source hr
    omega
  · have outer := sizeOf_toList ho
    simp only [SetOperation.mk.sizeOf_spec] at outer
    simp only [SetOperation.sides, List.mem_cons, List.not_mem_nil, or_false] at hr
    rcases hr with rfl | rfl <;> omega

/-! ### Induction -/

/-- What an induction over trees has to show: a property of expressions and one of queries are
handed on from the parts of an expression and of a query. -/
structure TreeSteps (P : Expr → Prop) (Q : Query → Prop) : Prop where
  expr : ∀ e : Expr, (∀ x ∈ e.parts, P x) → (∀ q ∈ e.query?, Q q) → P e
  query : ∀ q : Query, (∀ e ∈ q.exprs, P e) → (∀ r ∈ q.operands, Q r) → Q q

variable {P : Expr → Prop} {Q : Query → Prop}

mutual

/-- Induction over the expressions of trees. -/
theorem TreeSteps.exprs (steps : TreeSteps P Q) (e : Expr) : P e :=
  steps.expr e
    (fun x hx =>
      have := sizeOf_part hx
      steps.exprs x)
    fun q hq =>
      have := sizeOf_query? hq
      steps.queries q
termination_by sizeOf e

/-- Induction over the queries of trees. -/
theorem TreeSteps.queries (steps : TreeSteps P Q) (q : Query) : Q q :=
  steps.query q
    (fun e he =>
      have := sizeOf_exprs he
      steps.exprs e)
    fun r hr =>
      have := sizeOf_operands hr
      steps.queries r
termination_by sizeOf q

end

end ReportSql.Tree
