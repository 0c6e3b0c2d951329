import ReportSql.Proofs.ChangedConditions
import ReportSql.Proofs.NormalizedChecks
import ReportSql.Proofs.SqlValues

/-!
Canceled line items in the revenue of a product. A query that names the table of line items leaves
out the canceled ones of its first occurrence there, unless its WHERE clause mentions their flag
already. What the clause says of the flag is not looked at, so that it may keep them.
-/
namespace ReportSql.Values

open Tree
open Normalize (conditions conditions_eq)

variable {s : Scope} {e : Expr} {q : Query} {v : Value}

/-- A condition is true where all that it joins by AND is. -/
theorem isTrue_conjuncts : s.IsTrue e ↔ ∀ c ∈ e.conjuncts, s.IsTrue c := by
  have joined {a b : Expr} (ha : s.IsTrue a ↔ ∀ c ∈ a.conjuncts, s.IsTrue c)
      (hb : s.IsTrue b ↔ ∀ c ∈ b.conjuncts, s.IsTrue c) :
      s.IsTrue (a.and b) ↔ ∀ c ∈ a.conjuncts ++ b.conjuncts, s.IsTrue c := by
    rw [Scope.isTrue_and, List.forall_mem_append, ha, hb]
  induction e using Expr.conjuncts.induct with
  | case1 a b iha ihb => exact joined iha ihb
  | case2 a b iha ihb => exact joined iha ihb
  | case3 e h₁ h₂ => simp [conjuncts_leaf h₁ h₂]

theorem holds_conditions : s.Holds q.condition ↔ ∀ c ∈ conditions q, s.IsTrue c := by
  rw [conditions_eq]
  cases q.condition with
  | none => simp [Scope.Holds]
  | some e =>
      have own : s.Holds (some e) ↔ s.IsTrue e := by simp [Scope.Holds]
      rw [own, isTrue_conjuncts, Option.toList_some, List.flatMap_singleton]

/-- What is not true is false or unknown. -/
theorem isTrue_isNotTrue (own : s.value e = some v) (h : s.IsTrue e.isNotTrue) :
    v ≠ .boolean true := by
  have unfolded : s.value e.isNotTrue = ((s.value e).bind Value.truth?).map fun t =>
      .boolean ((t == some true) != true) := rfl
  intro flagged
  rw [Scope.IsTrue, unfolded, own, flagged] at h
  cases h

end ReportSql.Values

namespace ReportSql.Normalize

open Tree

namespace ProductRevenue

variable {p : ProductRevenue} {cancel : String} {scope : TableScope} {q m : Query}

/-! ### A query -/

/-- The condition that a line item of a table that goes by some name is not canceled. -/
def notCanceled (binding cancel : String) : Expr := (Expr.colOf binding cancel).isNotTrue

/-- A metric that is replaced brings in no mention of the flag. -/
theorem not_mentions_replaceGross
    (line : scope.mentions cancel (p.lineExpr scope.binding) = false)
    (own : q.condition.any (scope.mentions cancel) = false) :
    (p.replaceGross scope q).condition.any (scope.mentions cancel) = false := by
  have replaced : (p.replaceGross scope q).condition = q.condition.map (Expr.swap fun node =>
      if p.isGross (p.grossColumn.bind fun column => TableScope.of? q column.1) node then
        some (p.lineExpr scope.binding)
      else none) := by
    rw [replaceGross, Query.replaceExprs_fst]
    rfl
  rw [replaced]
  cases condition : q.condition with
  | none => rfl
  | some e =>
      rw [condition, Option.any_some] at own
      rw [Option.map_some, Option.any_some]
      apply not_mentions_swap
      · intro x r h
        simp only [Option.ite_none_right_eq_some, Option.some.injEq] at h
        rw [← h.2, line]
      · intro n hn _
        exact not_isColumn_of_not_mentions own hn

/-- Names are compared in another way without any other condition being touched. -/
theorem matchNames_conditions {binding : String}
    (h : notCanceled binding cancel ∈ conditions q) :
    notCanceled binding cancel ∈ conditions (p.matchNames q) := by
  rw [matchNames]
  cases TableScope.of? q p.dimensionTable with
  | none => exact h
  | some scope =>
      simp only [Query.replaceExprs_fst]
      rw [conditions_eq] at h ⊢
      obtain ⟨e, he, hc⟩ := List.mem_flatMap.mp h
      obtain he : q.condition = some e := Option.mem_toList.mp he
      simp only [Query.mapParts, he, Option.map_some, Option.toList_some, List.flatMap_singleton]
      apply conjunct_swap hc
      -- only comparisons for equality are replaced, and none has this condition as a conjunct
      · intro g hg
        cases g with
        | binary a op b =>
            cases op with
            | eq => cases List.mem_singleton.mp hg
            | _ => rfl
        | _ => rfl
      · apply swap_eq_self
        intro n hn
        simp only [notCanceled, Expr.isNotTrue, Expr.colOf, Expr.nodes, List.mem_cons,
          List.not_mem_nil, or_false] at hn
        cases hn with
        | inl hn => rw [hn]; rfl
        | inr hn => rw [hn]; rfl

theorem rewriteQuery_conditions (flag : p.lineCancel = some cancel)
    (hs : TableScope.of? q p.lineTable = some scope)
    (line : scope.mentions cancel (p.lineExpr scope.binding) = false)
    (own : q.condition.any (scope.mentions cancel) = false) :
    notCanceled scope.binding cancel ∈ conditions (p.rewriteQuery q) := by
  have counted : p.countLines q = (p.replaceGross scope q).editConjuncts
      (· ++ [notCanceled scope.binding cancel]) := by
    simp only [countLines, hs, ensureNotCanceled, flag, not_mentions_replaceGross line own,
      notCanceled, Bool.false_eq_true, if_false]
  have items : conditions (p.rewriteQuery q) = conditions (p.matchNames (p.countLines q)) := rfl
  rw [items, counted]
  apply matchNames_conditions
  rw [conditions_editConjuncts]
  · simp only [List.map_append, List.mem_append]
    exact .inr List.mem_cons_self
  · intro c hc
    cases List.mem_append.mp hc with
    | inl old => exact conjuncts_conditions old
    | inr new =>
        rw [List.mem_singleton.mp new]
        rfl

theorem rewriteQuery_children (regular : p.Regular) (q : Query) :
    (p.rewriteQuery q).children = q.children := by
  let unwatched : Watch := ⟨.never, "", fun _ _ => False, True⟩
  have counted : Step unwatched q (p.countLines q) := by
    rw [countLines]
    cases TableScope.of? q p.lineTable with
    | none => exact step_refl q
    | some scope =>
        have replaced := gross_step (v := unwatched) regular (fun has => (not_has_never has).elim)
          (fun _ => trivial) (fun _ _ safe => safe.elim) scope q
        exact replaced.trans (cancel_step p scope _)
  have matched : Step unwatched _ (p.matchNames (p.countLines q)) :=
    names_step (v := unwatched) (fun _ _ safe => safe.elim) _
  exact ((counted.trans matched).trans (zero_step _)).children

/-! ### A statement -/

/-- Whether the rows of a query that pass its new WHERE clause have no flag of a canceled line item,
where that was not mentioned before, and whatever happens to the queries inside. -/
def LeavesOut (p : ProductRevenue) (cancel : String) (q m : Query) : Prop :=
  ∀ scope, TableScope.of? q p.lineTable = some scope →
    q.condition.any (scope.mentions cancel) = false →
    scope.mentions cancel (p.lineExpr scope.binding) = false →
    ∀ (f : Query → Query) (s : Values.Scope), s.Holds (m.mapChildren f).condition →
      s.column (some scope.binding) cancel ≠ .boolean true

theorem rewriteQuery_leavesOut (flag : p.lineCancel = some cancel) (q : Query) :
    p.LeavesOut cancel q (p.rewriteQuery q) := by
  intro scope hs own line f s holds
  rw [Values.holds_conditions, conditions_mapChildren] at holds
  have inside := rewriteQuery_conditions flag hs line own
  have row := holds _ (List.mem_map_of_mem inside)
  exact Values.isTrue_isNotTrue Values.value_colOf row

/-- In a statement that compares the name of a product, each query that names the table of line
items leaves out the canceled ones of its first occurrence, unless it mentioned the flag. -/
theorem revenue_leaves_out_canceled {catalog : Catalog} {rule : ProductRevenueRule}
    (built : build catalog rule = .ok p) (flag : p.lineCancel = some cancel)
    (applies : p.applies q = true) : q.ChangedBy (p.LeavesOut cancel) (p.apply q).1 := by
  have rewritten : (p.apply q).1 = q.each p.rewriteQuery := by
    rw [apply, if_pos applies, Query.forEach_eq]
  rw [rewritten]
  apply each_changedBy (rewriteQuery_leavesOut flag)
  intro q c hc
  rwa [← rewriteQuery_children (regular_of_build built)]

end ProductRevenue

/-- Canceled items of some product, asked for as such. -/
def canceledTeas : Query :=
  let items := (Query.empty.select [(Expr.col "price").sum.item]).addSource
    (.named ⟨none, "items", some "i"⟩)
  let joined := items.join ⟨.inner, .named ⟨none, "products", some "p"⟩,
    some ((Expr.colOf "i" "product_id").eq (Expr.colOf "p" "uuid"))⟩
  joined.filterAll
    [(Expr.colOf "p" "name").eq (.text "Tea"), .isTruth (.colOf "i" "canceled") true false]

/-- A WHERE clause that mentions the flag is kept, so that canceled items are counted. -/
theorem canceledTeas_counted : ∃ p,
    ProductRevenue.build .restaurant ProductRevenueRule.default = .ok p ∧
    p.lineCancel = some "canceled" ∧ p.applies canceledTeas = true ∧
    ∃ s : Values.Scope, s.column (some "i") "canceled" = .boolean true ∧
      s.Holds (p.apply canceledTeas).1.condition := by
  let row : Values.Scope := ⟨fun _ _ => .boolean true, fun _ => .null, fun _ _ => 0,
    fun _ => some (.boolean true)⟩
  have run : (ProductRevenue.build .restaurant .default).toOption.any (fun p =>
      p.lineCancel = some "canceled" && p.applies canceledTeas
        && decide (row.Holds (p.apply canceledTeas).1.condition)) = true := by
    decide +kernel
  cases built : ProductRevenue.build .restaurant ProductRevenueRule.default with
  | error e => simp [built, Except.toOption] at run
  | ok p =>
      simp only [built, Except.toOption, Option.any_some, Bool.and_eq_true, decide_eq_true_eq]
        at run
      exact ⟨p, rfl, run.1.1, run.1.2, row, rfl, run.2⟩

end ReportSql.Normalize
