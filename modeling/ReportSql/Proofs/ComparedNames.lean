import ReportSql.Proofs.CanceledLines

/-!
Names of products and aggregates in the revenue of a product. A comparison of the name is replaced
together with all that stands in it, so that one in the value of another is left as it was, and the
statement is changed once more when it is asked again. An aggregate gets its default of zero where
it is a whole item of the select list, and not where it is a part of one.
-/
namespace ReportSql.Tree

variable {f : Query → Query}

/-! ### Nodes and queries -/

theorem any_congr_of_mem {α : Type} {xs : List α} {P Q : α → Bool} (h : ∀ x ∈ xs, P x = Q x) :
    xs.any P = xs.any Q := by
  rw [Bool.eq_iff_iff, List.any_eq_true, List.any_eq_true]
  apply exists_congr
  intro x
  apply and_congr_right
  intro hx
  rw [h x hx]

/-- What joins and groups conditions aside, the nodes of a condition are those of its conjuncts. -/
theorem any_conjuncts {P : Expr → Bool} (joined : ∀ a b, P (.binary a .and b) = false)
    (grouped : ∀ a, P (.paren a) = false) (e : Expr) :
    e.any P = e.conjuncts.any (Expr.any P) := by
  have both (a b : Expr) (ha : a.any P = a.conjuncts.any (Expr.any P))
      (hb : b.any P = b.conjuncts.any (Expr.any P)) :
      (Expr.binary a .and b).any P = (a.conjuncts ++ b.conjuncts).any (Expr.any P) := by
    rw [Expr.any_eq, joined, List.any_append, ← ha, ← hb]
    simp [Expr.parts]
  induction e using Expr.conjuncts.induct with
  | case1 a b iha ihb => exact both a b iha ihb
  | case2 a b iha ihb =>
      rw [Expr.any_eq, grouped, Expr.conjuncts, ← both a b iha ihb]
      simp [Expr.parts]
  | case3 e h₁ h₂ => simp [conjuncts_leaf h₁ h₂]

/-- The nodes of conditions that are joined, what joins and groups them aside. -/
theorem any_conjunction {P : Expr → Bool} (joined : ∀ a b, P (.binary a .and b) = false)
    (grouped : ∀ a, P (.paren a) = false) (cs : List Expr) :
    (conjunction cs).toList.any (Expr.any P) = cs.any (Expr.any P) := by
  have split (es : List Expr) :
      es.any (Expr.any P) = (es.flatMap Expr.conjuncts).any (Expr.any P) := by
    rw [List.any_flatMap]
    exact congrArg es.any (funext (any_conjuncts joined grouped))
  have conjunct (c : Expr) : c.asConjunct.conjuncts.any (Expr.any P) = c.any P := by
    have group (e : Expr) : (Expr.paren e).any P = e.any P := by
      rw [Expr.any_eq, grouped]
      simp [Expr.parts]
    rw [← any_conjuncts joined grouped]
    cases c with
    | binary a op b =>
        cases op with
        | or => exact group _
        | _ => rfl
    | _ => rfl
  rw [split, conjunction_conjuncts, List.any_flatMap]
  exact congrArg cs.any (funext conjunct)

theorem any_swap_of_same {P : Expr → Bool} {f : Expr → Option Expr}
    (heads : ∀ e g, P (e.mapParts g) = P e)
    (same : ∀ x r, f x = some r → r.any P = x.any P) (e : Expr) :
    (e.swap f).any P = e.any P := by
  induction e using Expr.induct with
  | step e ih =>
      cases own : f e with
      | some r => rw [swap_of_some own, same e r own]
      | none =>
          rw [swap_of_none own, Expr.any_eq, e.any_eq, heads, parts_mapParts, List.any_map]
          exact congrArg (P e || ·) (any_congr_of_mem ih)

/-- A replacement that brings in no node of some kind leaves at most those that were there, where
the nodes that stay are of the kind they were of. -/
theorem any_of_any_swap {P Q : Expr → Bool} {f : Expr → Option Expr}
    (brought : ∀ x r, f x = some r → r.any P = false)
    (stays : ∀ x, f x = none → P (x.mapParts (Expr.swap f)) = true → Q x = true) {e : Expr}
    (h : (e.swap f).any P = true) : e.any Q = true := by
  induction e using Expr.induct with
  | step e ih =>
      cases own : f e with
      | some r =>
          rw [swap_of_some own, brought e r own] at h
          cases h
      | none =>
          rw [swap_of_none own, Expr.any_eq, parts_mapParts, List.any_map, Bool.or_eq_true] at h
          rw [e.any_eq, Bool.or_eq_true]
          apply h.imp (stays e own)
          intro inside
          obtain ⟨x, hx, found⟩ := List.any_eq_true.mp inside
          exact List.any_eq_true.mpr ⟨x, hx, ih x hx found⟩

/-- Each query of a changed statement stands for one of the statement as it was, in its place. -/
theorem Query.ChangedBy.forall₂ {own : Query → Query → Prop} {q r : Query} (h : q.ChangedBy own r)
    (same : ∀ q m, own q m → m.children = q.children) :
    List.Forall₂ (fun a b => ∃ m f, own a m ∧ b = m.mapChildren f) q.queries r.queries := by
  induction h with
  | @step q m f related nested ih =>
      rw [Query.queries_eq, (m.mapChildren f).queries_eq, children_mapChildren, List.flatMap_map,
        ← same q m related]
      exact .cons ⟨m, f, related, rfl⟩ (forall₂_flatMap ih)

end ReportSql.Tree

namespace ReportSql.Normalize

open Tree

variable {f : Query → Query} {g : Expr → Expr} {scope : TableScope} {name : String}

/-- Another condition without nodes of some kind, where nothing that joins conditions is one. -/
theorem any_addCondition {P : Expr → Bool} {c : Expr} (joined : ∀ a b, P (.binary a .and b) = false)
    (grouped : ∀ a, P (.paren a) = false) (new : c.any P = false) (q : Query) :
    (q.editConjuncts (· ++ [c])).exprs.any (Expr.any P) = q.exprs.any (Expr.any P) := by
  have split : (conditions q).any (Expr.any P) = q.condition.toList.any (Expr.any P) := by
    rw [conditions_eq, List.any_flatMap]
    exact congrArg q.condition.toList.any (funext fun e => (any_conjuncts joined grouped e).symm)
  have condition : (q.editConjuncts (· ++ [c])).condition.toList.any (Expr.any P) =
      q.condition.toList.any (Expr.any P) := by
    have joint := any_conjunction joined grouped (conditions q ++ [c])
    rwa [List.any_append, split, List.any_cons, new, List.any_nil, Bool.or_false,
      Bool.or_false] at joint
  simp only [Query.exprs, List.any_append, condition]
  rfl

namespace ProductRevenue

variable {p : ProductRevenue} {q : Query} {e : Expr}

/-! ### Comparisons in an expression -/

/-- Whether a node compares the name of a product. -/
def isComparison (p : ProductRevenue) (scope : TableScope) (e : Expr) : Bool :=
  (p.nameEquality? scope e).isSome

/-- Whether a node compares the name of a product with a value that compares it again. -/
def nests (p : ProductRevenue) (scope : TableScope) (e : Expr) : Bool :=
  (p.nameEquality? scope e).any fun sides => sides.2.any (p.isComparison scope)

/-- The comparison that takes the place of one for equality. -/
def matching (p : ProductRevenue) (scope : TableScope) (e : Expr) : Option Expr :=
  (p.nameEquality? scope e).map fun sides => .binary sides.1 .ilike sides.2

theorem isComparison_eq (h : p.isComparison scope e = true) : ∃ a b, e = .binary a .eq b := by
  obtain ⟨⟨name, value⟩, equality⟩ := Option.isSome_iff_exists.mp h
  obtain ⟨-, rfl | rfl⟩ := nameEquality?_cases equality
  · exact ⟨_, _, rfl⟩
  · exact ⟨_, _, rfl⟩

theorem nests_isComparison (h : p.nests scope e = true) : p.isComparison scope e = true := by
  rw [nests, Option.any_eq_true] at h
  obtain ⟨sides, equality, -⟩ := h
  exact Option.isSome_of_eq_some equality

theorem any_nests (h : e.any (p.nests scope) = true) : e.any (p.isComparison scope) = true := by
  obtain ⟨n, hn, nested⟩ := List.any_eq_true.mp h
  exact List.any_eq_true.mpr ⟨n, hn, nests_isComparison nested⟩

theorem nameEquality?_mapParts
    (same : ∀ x ∈ e.parts, scope.isColumn p.nameColumn (g x) = scope.isColumn p.nameColumn x) :
    p.nameEquality? scope (e.mapParts g) = (p.nameEquality? scope e).map (Prod.map g g) := by
  cases e with
  | binary a op b =>
      have left := same a (by simp [Expr.parts])
      have right := same b (by simp [Expr.parts])
      cases op with
      | eq =>
          simp only [Expr.mapParts, nameEquality?, left, right]
          split
          · rfl
          · split <;> rfl
      | _ => rfl
  | _ => rfl

theorem isColumn_swap_matching (e : Expr) :
    scope.isColumn p.nameColumn (e.swap (p.matching scope)) =
      scope.isColumn p.nameColumn e := by
  cases own : p.nameEquality? scope e with
  | none =>
      have kept : p.matching scope e = none := by rw [matching, own, Option.map_none]
      rw [swap_of_none kept, isColumn_mapParts]
  | some sides =>
      have replaced : p.matching scope e = some (.binary sides.1 .ilike sides.2) := by
        rw [matching, own, Option.map_some]
      rw [swap_of_some replaced]
      obtain ⟨-, rfl | rfl⟩ := nameEquality?_cases own <;> rfl

/-- Of the comparisons of an expression those are left that stand in the value of another. -/
theorem any_swap_matching (e : Expr) :
    (e.swap (p.matching scope)).any (p.isComparison scope) = e.any (p.nests scope) := by
  induction e using Expr.induct with
  | step e ih =>
      cases own : p.nameEquality? scope e with
      | none =>
          have kept : p.matching scope e = none := by rw [matching, own, Option.map_none]
          have comparison : p.isComparison scope (e.mapParts (Expr.swap (p.matching scope))) =
              false := by
            rw [isComparison, nameEquality?_mapParts fun x _ => isColumn_swap_matching x, own]
            rfl
          have alone : p.nests scope e = false := by
            rw [nests, own]
            rfl
          rw [swap_of_none kept, Expr.any_eq, e.any_eq, comparison, alone, parts_mapParts,
            List.any_map, Bool.false_or, Bool.false_or]
          exact any_congr_of_mem ih
      | some sides =>
          obtain ⟨column, value⟩ := sides
          have replaced : p.matching scope e = some (.binary column .ilike value) := by
            rw [matching, own, Option.map_some]
          obtain ⟨named, shape⟩ := nameEquality?_cases own
          obtain ⟨table, label, rfl, -⟩ := isColumn_column named
          have changed : (Expr.binary (.column table label) .ilike value).any
              (p.isComparison scope) = value.any (p.isComparison scope) := by
            rw [Expr.any_eq]
            simp [isComparison, nameEquality?, Expr.parts, Expr.any, Expr.nodes]
          have column : (Expr.column table label).any (p.nests scope) = false := rfl
          have inside : e.parts.any (Expr.any (p.nests scope)) = value.any (p.nests scope) := by
            obtain rfl | rfl := shape <;> simp [Expr.parts, column]
          have outer : p.nests scope e = value.any (p.isComparison scope) := by
            rw [nests, own]
            rfl
          rw [swap_of_some replaced, changed, e.any_eq, inside, outer, Bool.eq_iff_iff,
            Bool.or_eq_true]
          exact ⟨.inl, fun h => h.elim id any_nests⟩

/-! ### Comparisons in a statement -/

/-- Whether a query compares the name of a product with a value that compares it again. -/
def nestsComparisons (p : ProductRevenue) (q : Query) : Bool :=
  match TableScope.of? q p.dimensionTable with
  | some scope => q.exprs.any fun e => e.any (p.nests scope)
  | none => false

theorem comparesName_some (h : TableScope.of? q p.dimensionTable = some scope) :
    p.comparesName q = q.exprs.any (Expr.any (p.isComparison scope)) := by
  rw [comparesName, h]
  rfl

theorem comparesName_none (h : TableScope.of? q p.dimensionTable = none) :
    p.comparesName q = false := by
  rw [comparesName, h]

theorem isComparison_mapQuery (e : Expr) :
    p.isComparison scope (e.mapQuery f) = p.isComparison scope e := by
  have own : p.nameEquality? scope (e.mapOwnQuery f) = p.nameEquality? scope e := by
    cases e <;> rfl
  rw [isComparison, isComparison, mapQuery_eq,
    nameEquality?_mapParts fun x _ => isColumn_mapQuery x, own, Option.isSome_map]

theorem comparesName_mapChildren (f : Query → Query) (q : Query) :
    p.comparesName (q.mapChildren f) = p.comparesName q := by
  have exprs : (q.mapChildren f).exprs = q.exprs.map (Expr.mapQuery f) := exprs_mapParts q
  have scopes := of?_outline (outline_mapChildren f q)
  cases h : TableScope.of? q p.dimensionTable with
  | none => rw [comparesName_none h, comparesName_none (by rw [scopes, h])]
  | some scope =>
      rw [comparesName_some h, comparesName_some (by rw [scopes, h]), exprs, List.any_map]
      exact congrArg q.exprs.any (funext (any_mapQuery isComparison_mapQuery))

theorem any_defaultToZero (i : SelectItem) :
    (defaultToZero i).expr.any (p.isComparison scope) = i.expr.any (p.isComparison scope) := by
  rw [defaultToZero]
  split
  · rw [Expr.any_eq]
    simp [Expr.callOf, Expr.parts, Expr.int, isComparison, nameEquality?, Expr.any, Expr.nodes]
  · rfl

theorem comparesName_defaultToZero (q : Query) :
    p.comparesName { q with items := q.items.map defaultToZero } = p.comparesName q := by
  have scopes : TableScope.of? { q with items := q.items.map defaultToZero } =
      TableScope.of? q := of?_outline rfl
  cases h : TableScope.of? q p.dimensionTable with
  | none => rw [comparesName_none h, comparesName_none (by rw [scopes, h])]
  | some scope =>
      rw [comparesName_some h, comparesName_some (by rw [scopes, h])]
      simp only [Query.exprs, List.any_append, List.any_map, Function.comp_def, any_defaultToZero]

theorem comparesName_matchNames (q : Query) :
    p.comparesName (p.matchNames q) = p.nestsComparisons q := by
  rw [nestsComparisons]
  cases h : TableScope.of? q p.dimensionTable with
  | none =>
      have same : p.matchNames q = q := by rw [matchNames, h]
      rw [same, comparesName_none h]
  | some scope =>
      have matched : p.matchNames q = q.mapParts (Expr.swap (p.matching scope)) id := by
        simp only [matchNames, h, Query.replaceExprs_fst]
        rfl
      have scopes := of?_outline (outline_mapParts (h := Expr.swap (p.matching scope)) (s := id)
        (fun _ => rfl) q)
      rw [matched, comparesName_some (by rw [scopes, h]), exprs_mapParts, List.any_map]
      exact congrArg q.exprs.any (funext any_swap_matching)

theorem comparesName_rewriteQuery (f : Query → Query) (q : Query) :
    p.comparesName ((p.rewriteQuery q).mapChildren f) = p.nestsComparisons (p.countLines q) := by
  rw [comparesName_mapChildren, rewriteQuery, comparesName_defaultToZero, comparesName_matchNames]

/-- The queries of a changed statement, each beside the one that it was made of. -/
theorem apply_queries (regular : p.Regular) (applies : p.applies q = true) :
    List.Forall₂ (fun a b => ∃ f, b = (p.rewriteQuery a).mapChildren f) q.queries
      (p.apply q).1.queries := by
  have rewritten : (p.apply q).1 = q.each p.rewriteQuery := by
    rw [apply, if_pos applies, Query.forEach_eq]
  have changed : q.ChangedBy (fun a m => m = p.rewriteQuery a) (p.apply q).1 := by
    rw [rewritten]
    refine @each_changedBy (fun a m => m = p.rewriteQuery a) _ (fun _ => rfl) (fun b c hc => ?_) q
    rwa [← rewriteQuery_children regular]
  apply (changed.forall₂ _).imp
  · rintro a b ⟨_, f, rfl, rfl⟩
    exact ⟨f, rfl⟩
  · rintro a _ rfl
    exact rewriteQuery_children regular a

/-- A statement is changed once more just where a query, with its line items counted, compares the
name of a product within a value that it compares the name with. -/
theorem revenue_applies_again {catalog : Catalog} {rule : ProductRevenueRule}
    (built : build catalog rule = .ok p) (applies : p.applies q = true) :
    p.applies (p.apply q).1 = q.queries.any fun b => p.nestsComparisons (p.countLines b) := by
  have queries := apply_queries (regular_of_build built) applies
  have same : q.queries.map (fun b => p.nestsComparisons (p.countLines b)) =
      (p.apply q).1.queries.map p.comparesName := by
    rw [← List.forall₂_eq_eq_eq, List.forall₂_map_left_iff, List.forall₂_map_right_iff]
    apply queries.imp
    rintro a _ ⟨f, rfl⟩
    exact (comparesName_rewriteQuery f a).symm
  have counted := congrArg (List.any · id) same
  simp only [List.any_map, Function.id_comp] at counted
  exact counted.symm

/-! ### Line items in place of whole transactions -/

/-- Whether a node compares for equality. -/
def isEquality : Expr → Bool
  | .binary _ .eq _ => true
  | _ => false

/-- What is to be known of the metric for line items: it adds up something and compares nothing. -/
structure ComparesNothing (p : ProductRevenue) : Prop where
  aggregates : p.line.containsAggregate = true
  equalities : p.line.any isEquality = false

theorem lineExpr_equalities (line : p.ComparesNothing) (binding : String) :
    (p.lineExpr binding).any isEquality = false := by
  rw [lineExpr_eq, ← line.equalities]
  apply any_swap_of_same
  · intro e g
    cases e with
    | binary _ op _ => cases op <;> rfl
    | _ => rfl
  · intro x r h
    obtain ⟨⟨_, _, rfl⟩, ⟨_, _, rfl⟩⟩ := lineExpr_columns h
    rfl

theorem lineExpr_comparisons (line : p.ComparesNothing) (binding : String) :
    (p.lineExpr binding).any (p.isComparison scope) = false := by
  by_contra found
  obtain ⟨n, hn, comparison⟩ := List.any_eq_true.mp (Bool.eq_true_of_not_eq_false found)
  obtain ⟨a, b, rfl⟩ := isComparison_eq comparison
  have equality : (p.lineExpr binding).any isEquality = true := List.any_eq_true.mpr ⟨_, hn, rfl⟩
  rw [lineExpr_equalities line] at equality
  cases equality

theorem not_isColumn_of_containsAggregate (h : e.containsAggregate = true) :
    scope.isColumn name e = false := by
  by_contra column
  obtain ⟨_, _, rfl, -⟩ := isColumn_column (Bool.eq_true_of_not_eq_false column)
  cases h

theorem not_isColumn_lineExpr (line : p.ComparesNothing) (binding : String) :
    scope.isColumn name (p.lineExpr binding) = false := by
  have aggregates := line.aggregates
  rw [lineExpr_eq]
  cases own : p.line with
  | column table column =>
      rw [own] at aggregates
      cases aggregates
  | _ =>
      rw [swap_of_none rfl, isColumn_mapParts]
      rfl

section

variable {gross : Option TableScope} {binding : String}

/-- What takes the place of a node where line items are counted. -/
def counting (p : ProductRevenue) (gross : Option TableScope) (binding : String) (node : Expr) :
    Option Expr :=
  if p.isGross gross node then some (p.lineExpr binding) else none

theorem counting_some {x r : Expr} (h : p.counting gross binding x = some r) :
    p.isGross gross x = true ∧ r = p.lineExpr binding := by
  simp only [counting, Option.ite_none_right_eq_some, Option.some.injEq] at h
  exact ⟨h.1, h.2.symm⟩

theorem isColumn_swap_counting (regular : p.Regular) (line : p.ComparesNothing) (e : Expr) :
    scope.isColumn name (e.swap (p.counting gross binding)) = scope.isColumn name e := by
  cases own : p.counting gross binding e with
  | none => rw [swap_of_none own, isColumn_mapParts]
  | some r =>
      obtain ⟨replaced, rfl⟩ := counting_some own
      rw [swap_of_some own, not_isColumn_lineExpr line]
      rcases isGross_cases replaced with rfl | ⟨-, _, _, _, rfl⟩
      · exact (not_isColumn_of_containsAggregate regular.aggregates).symm
      · rfl

theorem any_isComparison_counting (regular : p.Regular) (line : p.ComparesNothing)
    (h : (e.swap (p.counting gross binding)).any (p.isComparison scope) = true) :
    e.any (p.isComparison scope) = true := by
  refine any_of_any_swap (fun x r own => ?_) (fun x _ found => ?_) h
  · obtain ⟨-, rfl⟩ := counting_some own
    exact lineExpr_comparisons line binding
  · rwa [isComparison, nameEquality?_mapParts fun x _ => isColumn_swap_counting regular line x,
      Option.isSome_map] at found

theorem any_nests_counting (regular : p.Regular) (line : p.ComparesNothing)
    (h : (e.swap (p.counting gross binding)).any (p.nests scope) = true) :
    e.any (p.nests scope) = true := by
  refine any_of_any_swap (fun x r own => ?_) (fun x _ found => ?_) h
  · obtain ⟨-, rfl⟩ := counting_some own
    by_contra nested
    have comparison := any_nests (Bool.eq_true_of_not_eq_false nested)
    rw [lineExpr_comparisons line] at comparison
    cases comparison
  · rw [nests, nameEquality?_mapParts fun x _ => isColumn_swap_counting regular line x,
      Option.any_map, Option.any_eq_true] at found
    obtain ⟨sides, equality, value⟩ := found
    exact (Option.any_eq_true _ _).mpr
      ⟨sides, equality, any_isComparison_counting regular line value⟩

end

theorem nestsComparisons_some (h : TableScope.of? q p.dimensionTable = some scope) :
    p.nestsComparisons q = q.exprs.any (Expr.any (p.nests scope)) := by
  rw [nestsComparisons, h]

/-- Another condition that compares nothing leaves the comparisons of a query as they are. -/
theorem nestsComparisons_ensureNotCanceled (lines : TableScope) (q : Query) :
    p.nestsComparisons (p.ensureNotCanceled lines q) = p.nestsComparisons q := by
  rw [ensureNotCanceled]
  cases p.lineCancel with
  | none => rfl
  | some cancel =>
      dsimp only
      split
      · rfl
      · have scopes : TableScope.of? (q.editConjuncts
            (· ++ [(Expr.colOf lines.binding cancel).isNotTrue])) = TableScope.of? q :=
          of?_outline rfl
        rw [nestsComparisons, nestsComparisons, scopes]
        cases TableScope.of? q p.dimensionTable with
        | none => rfl
        | some scope => exact any_addCondition (fun _ _ => rfl) (fun _ => rfl) rfl q

theorem nestsComparisons_countLines (regular : p.Regular) (line : p.ComparesNothing)
    (h : p.nestsComparisons (p.countLines q) = true) : p.nestsComparisons q = true := by
  rw [countLines] at h
  cases lines : TableScope.of? q p.lineTable with
  | none => rwa [lines] at h
  | some scope =>
      simp only [lines, nestsComparisons_ensureNotCanceled] at h
      obtain ⟨gross, counted⟩ : ∃ gross, p.replaceGross scope q =
          q.mapParts (Expr.swap (p.counting gross scope.binding)) id :=
        ⟨_, by rw [replaceGross, Query.replaceExprs_fst]; rfl⟩
      have scopes := of?_outline (outline_mapParts
        (h := Expr.swap (p.counting gross scope.binding)) (s := id) (fun _ => rfl) q)
      rw [counted, nestsComparisons, scopes] at h
      cases names : TableScope.of? q p.dimensionTable with
      | none =>
          rw [names] at h
          cases h
      | some names' =>
          simp only [names, exprs_mapParts, List.any_map, List.any_eq_true] at h
          obtain ⟨e, he, nested⟩ := h
          rw [nestsComparisons_some names, List.any_eq_true]
          exact ⟨e, he, any_nests_counting regular line nested⟩

/-- A statement in which no query compares the name of a product within a value that it compares
the name with is changed at most once, where the metric for line items compares nothing. -/
theorem revenue_settles {catalog : Catalog} {rule : ProductRevenueRule}
    (built : build catalog rule = .ok p) (line : p.line.any isEquality = false)
    (single : ∀ b ∈ q.queries, p.nestsComparisons b = false) :
    p.apply (p.apply q).1 = ((p.apply q).1, false) := by
  have settled : p.applies (p.apply q).1 = false := by
    cases applies : p.applies q with
    | false => rw [apply, applies, if_neg Bool.false_ne_true, applies]
    | true =>
        rw [revenue_applies_again built applies, List.any_eq_false]
        intro b hb nested
        obtain ⟨-, metric, -, found, -, own⟩ := metrics_of_build built
        have plain : p.ComparesNothing := ⟨by rw [own, (metric_expression found).1], line⟩
        have before := nestsComparisons_countLines (regular_of_build built) plain nested
        rw [single b hb] at before
        cases before
  rw [apply, settled, if_neg Bool.false_ne_true]

/-! ### Aggregates without a default -/

/-- Whether a call falls back on zero. -/
def isZeroDefault : Expr → Bool
  | .call name arguments _ =>
    Text.sameIgnoringAsciiCase name "coalesce" && arguments.getLast? == some (.int 0)
  | _ => false

/-- Whether an aggregate stands in an expression outside of everything that falls back on zero. -/
inductive ShowsAggregate : Expr → Prop where
  | own {e : Expr} : e.isAggregate = true → ShowsAggregate e
  | inside {e x : Expr} : isZeroDefault e = false → x ∈ e.parts → ShowsAggregate x →
      ShowsAggregate e

theorem showsAggregate_iff : ShowsAggregate e ↔
    e.isAggregate = true ∨ isZeroDefault e = false ∧ ∃ x ∈ e.parts, ShowsAggregate x := by
  constructor
  · rintro (own | ⟨open_, hx, shown⟩)
    · exact .inl own
    · exact .inr ⟨open_, _, hx, shown⟩
  · rintro (own | ⟨open_, x, hx, shown⟩)
    · exact .own own
    · exact .inside open_ hx shown

theorem isZeroDefault_mapParts (zero : ∀ x, g x = .int 0 ↔ x = .int 0) (e : Expr) :
    isZeroDefault (e.mapParts g) = isZeroDefault e := by
  cases e with
  | call name arguments distinct =>
      have last : (arguments.map g).getLast? = some (.int 0) ↔
          arguments.getLast? = some (.int 0) := by
        rw [List.getLast?_map, Option.map_eq_some_iff]
        constructor
        · rintro ⟨x, found, same⟩
          rw [found, (zero x).mp same]
        · intro found
          exact ⟨_, found, (zero _).mpr rfl⟩
      simp only [Expr.mapParts, isZeroDefault]
      congr 1
      rw [Bool.eq_iff_iff, beq_iff_eq, beq_iff_eq, last]
  | _ => rfl

theorem showsAggregate_mapParts (zero : ∀ x, g x = .int 0 ↔ x = .int 0)
    (parts : ∀ x ∈ e.parts, ShowsAggregate (g x) ↔ ShowsAggregate x) :
    ShowsAggregate (e.mapParts g) ↔ ShowsAggregate e := by
  have aggregate : (e.mapParts g).isAggregate = e.isAggregate := by
    cases e <;> rfl
  rw [showsAggregate_iff, showsAggregate_iff (e := e), aggregate, isZeroDefault_mapParts zero,
    parts_mapParts]
  simp only [List.mem_map, exists_exists_and_eq_and]
  apply or_congr_right
  apply and_congr_right
  intro _
  apply exists_congr
  intro x
  exact and_congr_right (parts x)

theorem mapQuery_eq_zero (x : Expr) : x.mapQuery f = .int 0 ↔ x = .int 0 := by
  constructor
  · intro same
    rw [mapQuery_eq] at same
    cases x <;> first | exact same | cases same
  · rintro rfl
    rfl

theorem showsAggregate_mapQuery (e : Expr) :
    ShowsAggregate (e.mapQuery f) ↔ ShowsAggregate e := by
  induction e using Expr.induct with
  | step e ih =>
      have own : ShowsAggregate (e.mapOwnQuery f) ↔ ShowsAggregate e := by
        have aggregate : (e.mapOwnQuery f).isAggregate = e.isAggregate := by
          cases e <;> rfl
        have default : isZeroDefault (e.mapOwnQuery f) = isZeroDefault e := by
          cases e <;> rfl
        rw [showsAggregate_iff, showsAggregate_iff (e := e), aggregate, default,
          parts_mapOwnQuery]
      rw [mapQuery_eq, showsAggregate_mapParts mapQuery_eq_zero, own]
      intro x hx
      rw [parts_mapOwnQuery] at hx
      exact ih x hx

theorem showsAggregate_binary {a b : Expr} {op : BinaryOp} :
    ShowsAggregate (.binary a op b) ↔ ShowsAggregate a ∨ ShowsAggregate b := by
  rw [showsAggregate_iff]
  simp [Expr.isAggregate, isZeroDefault, Expr.parts]

theorem swap_matching_eq_zero (x : Expr) : x.swap (p.matching scope) = .int 0 ↔ x = .int 0 := by
  constructor
  · intro same
    cases own : p.matching scope x with
    | none =>
        rw [swap_of_none own] at same
        cases x <;> first | exact same | cases same
    | some r =>
        obtain ⟨sides, -, rfl⟩ := Option.map_eq_some_iff.mp own
        rw [swap_of_some own] at same
        cases same
  · rintro rfl
    rfl

theorem showsAggregate_swap_matching (e : Expr) :
    ShowsAggregate (e.swap (p.matching scope)) ↔ ShowsAggregate e := by
  induction e using Expr.induct with
  | step e ih =>
      cases own : p.matching scope e with
      | none =>
          rw [swap_of_none own]
          exact showsAggregate_mapParts swap_matching_eq_zero ih
      | some r =>
          obtain ⟨⟨column, value⟩, equality, rfl⟩ := Option.map_eq_some_iff.mp own
          rw [swap_of_some own]
          obtain ⟨-, rfl | rfl⟩ := nameEquality?_cases equality
          · rw [showsAggregate_binary, showsAggregate_binary]
          · rw [showsAggregate_binary, showsAggregate_binary, or_comm]

/-- An item shows an aggregate after the default just where it did before and is none itself. -/
theorem showsAggregate_defaultToZero (i : SelectItem) : ShowsAggregate (defaultToZero i).expr ↔
    i.expr.isAggregate = false ∧ ShowsAggregate i.expr := by
  rw [defaultToZero]
  split
  · next own =>
      have default : isZeroDefault (.callOf "COALESCE" [i.expr, .int 0]) = true := by
        simp [isZeroDefault, Expr.callOf]
        decide
      have plain : (Expr.callOf "COALESCE" [i.expr, .int 0]).isAggregate = false := by
        simp only [Expr.isAggregate, Expr.callOf]
        decide
      rw [showsAggregate_iff]
      simp [default, plain, own]
  · next other => simp [other]

theorem isAggregate_swap_matching (e : Expr) :
    (e.swap (p.matching scope)).isAggregate = e.isAggregate := by
  cases own : p.matching scope e with
  | none =>
      rw [swap_of_none own]
      cases e <;> rfl
  | some r =>
      obtain ⟨sides, equality, rfl⟩ := Option.map_eq_some_iff.mp own
      rw [swap_of_some own]
      obtain ⟨-, rfl | rfl⟩ := nameEquality?_cases equality <;> rfl

theorem items_matchNames (q : Query) :
    List.Forall₂ (fun i j : SelectItem => j.expr.isAggregate = i.expr.isAggregate ∧
      (ShowsAggregate j.expr ↔ ShowsAggregate i.expr)) q.items (p.matchNames q).items := by
  rw [matchNames]
  cases TableScope.of? q p.dimensionTable with
  | none => exact List.forall₂_same.mpr fun _ _ => ⟨rfl, Iff.rfl⟩
  | some scope =>
      simp only [Query.replaceExprs_fst]
      apply List.forall₂_map_right_iff.mpr
      apply List.forall₂_same.mpr
      intro i _
      exact ⟨isAggregate_swap_matching i.expr, showsAggregate_swap_matching i.expr⟩

/-- What the select list of a changed query shows of the one whose line items were counted. -/
theorem items_rewriteQuery (f : Query → Query) (q : Query) :
    List.Forall₂ (fun i j : SelectItem => ShowsAggregate j.expr ↔
        i.expr.isAggregate = false ∧ ShowsAggregate i.expr)
      (p.countLines q).items ((p.rewriteQuery q).mapChildren f).items := by
  have all : ((p.rewriteQuery q).mapChildren f).items =
      (p.matchNames (p.countLines q)).items.map fun i =>
        { defaultToZero i with expr := (defaultToZero i).expr.mapQuery f } := by
    simp [Query.mapChildren, Query.mapParts, rewriteQuery]
  rw [all, List.forall₂_map_right_iff]
  apply (items_matchNames (p.countLines q)).imp
  intro i j matched
  rw [showsAggregate_mapQuery, showsAggregate_defaultToZero, matched.1, matched.2]

/-- In a changed statement an item of a select list shows an aggregate without a default just where
the one with line items counted did so and is not the aggregate itself. -/
theorem revenue_defaults {catalog : Catalog} {rule : ProductRevenueRule}
    (built : build catalog rule = .ok p) (applies : p.applies q = true) :
    List.Forall₂ (fun a b => List.Forall₂ (fun i j : SelectItem => ShowsAggregate j.expr ↔
        i.expr.isAggregate = false ∧ ShowsAggregate i.expr) (p.countLines a).items b.items)
      q.queries (p.apply q).1.queries := by
  apply (apply_queries (regular_of_build built) applies).imp
  rintro a _ ⟨f, rfl⟩
  exact items_rewriteQuery f a

end ProductRevenue

/-- Line items of products, for some item and some condition. -/
def soldProducts (item condition : Expr) : Query :=
  let items := (Query.empty.select [item.item]).addSource (.named ⟨none, "items", some "i"⟩)
  let joined := items.join ⟨.inner, .named ⟨none, "products", some "p"⟩,
    some ((Expr.colOf "i" "product_id").eq (Expr.colOf "p" "uuid"))⟩
  joined.filter condition

/-- The name of a product compared with a value that depends on the name. -/
def renamedTeas : Query :=
  soldProducts (Expr.colOf "i" "price").sum ((Expr.colOf "p" "name").eq
    (.ifElse ((Expr.colOf "p" "name").eq (.text "Tea")) (.text "Chai") (.text "Mate")))

/-- The comparison inside is found when the pass is applied again. -/
theorem renamedTeas_applies_again : ∃ p,
    ProductRevenue.build .restaurant ProductRevenueRule.default = .ok p ∧
    p.applies renamedTeas = true ∧ p.applies (p.apply renamedTeas).1 = true := by
  have run : (ProductRevenue.build .restaurant .default).toOption.any (fun p =>
      p.applies renamedTeas && p.applies (p.apply renamedTeas).1) = true := by
    decide +kernel
  obtain ⟨p, built, run⟩ := exists_of_toOption run
  exact ⟨p, built, (Bool.and_eq_true_iff.mp run).1, (Bool.and_eq_true_iff.mp run).2⟩

/-- The average price of a product, as a quotient. -/
def averagePrice : Expr :=
  (Expr.colOf "i" "price").sum.div (.callOf "COUNT" [.colOf "i" "uuid"])

/-- The aggregates of a quotient get no default. -/
theorem averagePrice_shows_aggregate : ∃ p,
    ProductRevenue.build .restaurant ProductRevenueRule.default = .ok p ∧
    ∃ q, p.applies q = true ∧
      ∃ i ∈ (p.apply q).1.items, ProductRevenue.ShowsAggregate i.expr := by
  let q := soldProducts averagePrice ((Expr.colOf "p" "name").eq (.text "Tea"))
  have run : (ProductRevenue.build .restaurant .default).toOption.any (fun p =>
      p.applies q && (p.apply q).1.items.map SelectItem.expr == [averagePrice]) = true := by
    decide +kernel
  obtain ⟨p, built, run⟩ := exists_of_toOption run
  obtain ⟨applies, items⟩ := Bool.and_eq_true_iff.mp run
  have shown : averagePrice ∈ (p.apply q).1.items.map SelectItem.expr := by
    rw [beq_iff_eq.mp items]
    exact List.mem_cons_self
  obtain ⟨i, hi, same⟩ := List.mem_map.mp shown
  refine ⟨p, built, q, applies, i, hi, ?_⟩
  rw [same, averagePrice]
  apply ProductRevenue.showsAggregate_binary.mpr
  exact .inl (.own rfl)

end ReportSql.Normalize
