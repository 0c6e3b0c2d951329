import ReportSql.Proofs.ChangedQueries
import ReportSql.Proofs.ConvertedParts
import ReportSql.Proofs.TreeInduction

/-!
Where the constructs of a statement are found in its tree. A construct becomes a part of the tree,
or it stands in one that the tree keeps as raw SQL, or in a clause that the tree has no room for.
-/
namespace ReportSql.Tree

open Sql (Node)

/-! ### Parts of a tree -/

/-- A part of a tree. -/
inductive Place where
  | expr (expr : Expr)
  | query (query : Query)
  | source (source : Source)

namespace Place

/-- The parts directly inside a part. -/
def parts : Place → List Place
  | expr e => e.parts.map .expr ++ e.query?.toList.map .query
  | query q => q.exprs.map .expr ++ q.allSources.map .source
      ++ (q.ctes.map Cte.query ++ q.setOperation.toList.flatMap SetOperation.sides).map .query
  | source s => s.query?.toList.map .query

/-- Whether a part is inside another one, at any depth. -/
def Within (whole part : Place) : Prop := Relation.ReflTransGen (fun p r => r ∈ p.parts) whole part

/-- Whether a part is among those that the queries of a query are searched for. -/
def IsIn (q : Query) : Place → Prop
  | expr e => ∃ b ∈ q.queries, ∃ x ∈ b.exprs, e ∈ x.nodes
  | query b => b ∈ q.queries
  | source s => ∃ b ∈ q.queries, s ∈ b.allSources

end Place

/-! ### What becomes of a construct -/

/-- Whether a query has all parts of another one. -/
def Query.Covers (q r : Query) : Prop := (Place.query r).parts ⊆ (Place.query q).parts

/-- Whether a construct is converted to a part of a tree; a query may have got more clauses. -/
inductive Becomes : Node → Place → Prop where
  | expr {x : Sql.Expr} {e : Expr} : Expr.ofSyntax x = .ok e → Becomes (.expr x) (.expr e)
  | table {t : Sql.Table} {s : Source} : tableOfSyntax t = .ok s → Becomes (.table t) (.source s)
  | query {s : Sql.Query} {r q : Query} : Query.ofSyntax s = .ok r → q.Covers r →
      Becomes (.query s) (.query q)
  | body {b : Sql.Body} {r q : Query} : bodyOfSyntax b = .ok r → q.Covers r →
      Becomes (.body b) (.query q)
  | select {s : Sql.Select} {r q : Query} : selectOfSyntax s = .ok r → q.Covers r →
      Becomes (.select s) (.query q)

/-- The raw SQL that a construct is kept as where the tree has nothing for it. -/
def rawPlace? : Node → Option Place
  | .expr x => some (.expr (.raw x.render))
  | .table t => some (.source (.raw t.render))
  | _ => none

/-- The parts of a construct that its tree has no room for. -/
def unread : Node → List Node
  | .select s => s.distinctKeys.map .expr ++ s.views.filterMap Sql.Piece.node?
      ++ s.sorting.filterMap Sql.Piece.node?
      ++ s.sources.flatMap fun f => f.joins.flatMap fun j => j.matching.filterMap Sql.Piece.node?
  | .table (.named _ _ arguments _ _ hints) =>
    arguments.flatMap Sql.Argument.nodes ++ hints.map .expr
  | _ => []

/-- What becomes of a part of a construct that has become a part of a tree. The literal of a row
count or of an interval is kept by its value. -/
def Accounted (n : Node) (p : Place) (m : Node) : Prop :=
  rawPlace? n = some p ∨ m ∈ unread n ∨ (∃ v, m = .expr (.value v)) ∨
    ∃ r, (r = p ∨ r ∈ p.parts) ∧ Becomes m r

variable {x : Sql.Expr} {e f : Expr} {m n : Node} {p : Place} {q r : Query}

theorem covers_refl (q : Query) : q.Covers q := List.Subset.refl _

theorem Query.Covers.trans {s : Query} (h : q.Covers r) (h' : r.Covers s) : q.Covers s :=
  List.Subset.trans h' h

/-! ### Expressions -/

theorem accounted_expr (hf : f ∈ e.parts) (h : Expr.ofSyntax x = .ok f) :
    Accounted n (.expr e) (.expr x) := by
  refine .inr (.inr (.inr ⟨.expr f, .inr ?_, .expr h⟩))
  exact List.mem_append_left _ (List.mem_map_of_mem hf)

theorem accounted_query {s : Sql.Query} (hq : e.query? = some q) (h : Query.ofSyntax s = .ok q) :
    Accounted n (.expr e) (.query s) := by
  refine .inr (.inr (.inr ⟨.query q, .inr ?_, .query h (covers_refl q)⟩))
  exact List.mem_append_right _ (List.mem_map_of_mem (Option.mem_toList.mpr hq))

theorem accounted_exprs {xs : List Sql.Expr} {es : List Expr} (he : es ⊆ e.parts)
    (h : exprsOfSyntax xs = .ok es) (hm : m ∈ xs.map Node.expr) : Accounted n (.expr e) m := by
  obtain ⟨x, hx, rfl⟩ := List.mem_map.mp hm
  obtain ⟨f, hf, own⟩ := exists_right (exprs_converted h) hx
  exact accounted_expr (he hf) own

theorem accounted_option {x : Option Sql.Expr} {f : Option Expr} (he : ∀ y ∈ f, y ∈ e.parts)
    (h : optionOfSyntax x = .ok f) (hm : m ∈ x.toList.map Node.expr) :
    Accounted n (.expr e) m := by
  cases option_converted h with
  | none => cases hm
  | some own =>
      obtain rfl := List.mem_singleton.mp hm
      exact accounted_expr (he _ rfl) own

theorem accounted_arguments {xs : List Sql.Argument} {es : List Expr} (he : es ⊆ e.parts)
    (h : argumentsOfSyntax xs = .ok (es, true)) (hm : m ∈ xs.flatMap Sql.Argument.nodes) :
    Accounted n (.expr e) m := by
  obtain ⟨x, hx, hm⟩ := List.mem_flatMap.mp hm
  obtain ⟨f, hf, rfl | ⟨y, rfl, own⟩⟩ := exists_right (arguments_converted h) hx
  · cases hm
  · obtain rfl := List.mem_singleton.mp hm
    exact accounted_expr (he hf) own

theorem expr_accounted (h : Expr.ofSyntax x = .ok e) (hm : m ∈ x.parts) :
    Accounted (.expr x) (.expr e) m := by
  have raw {y : Sql.Expr} (h : (pure (.raw y.render) : Converted Expr) = .ok e) :
      Accounted (.expr y) (.expr e) m := by
    cases h
    exact .inl rfl
  cases x with
  | name _ | wildcard _ | value _ | typed _ _ => cases hm
  | trim _ _ _ | phrase _ =>
      simp only [Expr.ofSyntax] at h
      exact raw h
  | binary left op right =>
      simp only [Expr.ofSyntax] at h
      split at h
      · simp only [bind_eq_ok] at h
        obtain ⟨a, first, b, second, h⟩ := h
        cases h
        simp only [Sql.Expr.parts, List.mem_cons, List.not_mem_nil, or_false] at hm
        rcases hm with rfl | rfl
        · exact accounted_expr (by simp [Expr.parts]) first
        · exact accounted_expr (by simp [Expr.parts]) second
      · exact raw h
  | unary op operand =>
      cases op with
      | other _ =>
          simp only [Expr.ofSyntax] at h
          exact raw h
      | not | minus =>
          simp only [Expr.ofSyntax, bind_eq_ok] at h
          obtain ⟨a, own, h⟩ := h
          cases h
          obtain rfl := List.mem_singleton.mp hm
          exact accounted_expr List.mem_cons_self own
  | nested inner | isNull inner _ | isTruth inner _ _ =>
      simp only [Expr.ofSyntax, bind_eq_ok] at h
      obtain ⟨a, own, h⟩ := h
      cases h
      obtain rfl := List.mem_singleton.mp hm
      exact accounted_expr List.mem_cons_self own
  | inList operand items negated =>
      simp only [Expr.ofSyntax, bind_eq_ok] at h
      obtain ⟨a, own, es, others, h⟩ := h
      cases h
      cases List.mem_cons.mp hm with
      | inl same =>
          subst same
          exact accounted_expr List.mem_cons_self own
      | inr later => exact accounted_exprs (List.subset_cons_self _ _) others later
  | inQuery operand query negated =>
      simp only [Expr.ofSyntax, bind_eq_ok] at h
      obtain ⟨a, own, q, inner, h⟩ := h
      cases h
      simp only [Sql.Expr.parts, List.mem_cons, List.not_mem_nil, or_false] at hm
      rcases hm with rfl | rfl
      · exact accounted_expr List.mem_cons_self own
      · exact accounted_query rfl inner
  | between operand low high negated =>
      simp only [Expr.ofSyntax, bind_eq_ok] at h
      obtain ⟨a, own, b, lower, c, upper, h⟩ := h
      cases h
      simp only [Sql.Expr.parts, List.mem_cons, List.not_mem_nil, or_false] at hm
      rcases hm with rfl | rfl | rfl
      · exact accounted_expr (by simp [Expr.parts]) own
      · exact accounted_expr (by simp [Expr.parts]) lower
      · exact accounted_expr (by simp [Expr.parts]) upper
  | like operand pattern ignoresCase any negated escape =>
      cases escape with
      | some _ =>
          simp only [Expr.ofSyntax] at h
          exact raw h
      | none =>
          simp only [Expr.ofSyntax, bind_eq_ok] at h
          obtain ⟨a, own, b, second, h⟩ := h
          cases h
          simp only [Sql.Expr.parts, List.mem_cons, List.not_mem_nil, or_false] at hm
          rcases hm with rfl | rfl
          · exact accounted_expr (by simp [Expr.parts]) own
          · exact accounted_expr (by simp [Expr.parts]) second
  | cast form operand type format =>
      cases format with
      | some _ =>
          simp only [Expr.ofSyntax] at h
          exact raw h
      | none =>
          cases form with
          | other _ =>
              simp only [Expr.ofSyntax] at h
              exact raw h
          | function | suffix =>
              simp only [Expr.ofSyntax, bind_eq_ok] at h
              obtain ⟨a, own, h⟩ := h
              cases h
              obtain rfl := List.mem_singleton.mp hm
              exact accounted_expr List.mem_cons_self own
  | interval value unit =>
      obtain rfl := List.mem_singleton.mp hm
      cases value with
      | value v => exact .inr (.inr (.inl ⟨v, rfl⟩))
      | _ =>
          simp only [Expr.ofSyntax] at h
          exact raw h
  | call name inBraces form arguments clauses within filter nulls window =>
      simp only [Expr.ofSyntax] at h
      split at h
      · next plain =>
        simp only [bind_eq_ok] at h
        obtain ⟨⟨es, all⟩, read, h⟩ := h
        cases all with
        | false => exact raw h
        | true =>
            cases h
            simp only [isPlainCall, Bool.and_eq_true, List.isEmpty_iff,
              Option.isNone_iff_eq_none] at plain
            obtain ⟨⟨⟨⟨⟨-, rfl⟩, rfl⟩, rfl⟩, -⟩, rfl⟩ := plain
            apply accounted_arguments (List.Subset.refl _) read
            simpa [Sql.Expr.parts] using hm
      · exact raw h
  | case operand branches otherwise =>
      simp only [Expr.ofSyntax, bind_eq_ok] at h
      obtain ⟨o, first, bs, each, e, last, h⟩ := h
      cases h
      simp only [Sql.Expr.parts, List.mem_append] at hm
      rcases hm with ((hm | hm) | hm) | hm
      · exact accounted_option (fun y hy => by simp_all [Expr.parts]) first hm
      · obtain ⟨x, hx, rfl⟩ := List.mem_map.mp hm
        obtain ⟨b, hb, condition, -⟩ := exists_right (branches_converted each) hx
        apply accounted_expr _ condition
        simp only [Expr.parts, List.mem_append, List.mem_flatMap]
        exact .inl (.inr ⟨b, hb, by simp [Branch.sides]⟩)
      · obtain ⟨x, hx, rfl⟩ := List.mem_map.mp hm
        obtain ⟨b, hb, -, result⟩ := exists_right (branches_converted each) hx
        apply accounted_expr _ result
        simp only [Expr.parts, List.mem_append, List.mem_flatMap]
        exact .inl (.inr ⟨b, hb, by simp [Branch.sides]⟩)
      · exact accounted_option (fun y hy => by simp_all [Expr.parts]) last hm
  | «exists» query negated =>
      simp only [Expr.ofSyntax, bind_eq_ok] at h
      obtain ⟨q, inner, h⟩ := h
      cases h
      obtain rfl := List.mem_singleton.mp hm
      exact accounted_query rfl inner
  | subquery query =>
      simp only [Expr.ofSyntax, bind_eq_ok] at h
      obtain ⟨q, inner, h⟩ := h
      cases h
      obtain rfl := List.mem_singleton.mp hm
      exact accounted_query rfl inner

/-! ### Relations and queries -/

theorem table_accounted {t : Sql.Table} {s : Source} (h : tableOfSyntax t = .ok s)
    (hm : m ∈ t.parts) : Accounted (.table t) (.source s) m := by
  cases t with
  | named name isCall arguments ordinality label hints => exact .inr (.inl hm)
  | derived isLateral query label =>
      simp only [tableOfSyntax] at h
      split at h
      · cases h
        exact .inl rfl
      · simp only [bind_eq_ok] at h
        obtain ⟨q, inner, h⟩ := h
        cases h
        obtain rfl := List.mem_singleton.mp hm
        refine .inr (.inr (.inr ⟨.query q, .inr ?_, .query inner (covers_refl q)⟩))
        exact List.mem_singleton_self _
  | function _ _ _ | joined _ _ | phrase _ =>
      simp only [tableOfSyntax] at h
      cases h
      exact .inl rfl

theorem becomes_expr (hf : f ∈ q.exprs) (h : Expr.ofSyntax x = .ok f) :
    ∃ p ∈ (Place.query q).parts, Becomes (.expr x) p := by
  refine ⟨.expr f, ?_, .expr h⟩
  exact List.mem_append_left _ (List.mem_append_left _ (List.mem_map_of_mem hf))

theorem becomes_source {t : Sql.Table} {s : Source} (hs : s ∈ q.allSources)
    (h : tableOfSyntax t = .ok s) : ∃ p ∈ (Place.query q).parts, Becomes (.table t) p := by
  refine ⟨.source s, ?_, .table h⟩
  exact List.mem_append_left _ (List.mem_append_right _ (List.mem_map_of_mem hs))

theorem becomes_option {x : Option Sql.Expr} {o : Option Expr} (ho : ∀ e ∈ o, e ∈ q.exprs)
    (h : optionOfSyntax x = .ok o) (hm : m ∈ x.toList.map Node.expr) :
    ∃ p ∈ (Place.query q).parts, Becomes m p := by
  cases option_converted h with
  | none => cases hm
  | some own =>
      obtain rfl := List.mem_singleton.mp hm
      exact becomes_expr (ho _ rfl) own

theorem source_becomes {f : Sql.Source} {fs : FromItem} (hf : fs ∈ q.sources)
    (own : tableOfSyntax f.table = .ok fs.source) (joined : joinsOfSyntax f.joins = .ok fs.joins)
    (hm : m ∈ f.nodes) :
    (∃ j ∈ f.joins, m ∈ j.matching.filterMap Sql.Piece.node?) ∨
      ∃ p ∈ (Place.query q).parts, Becomes m p := by
  have listed {s : Source} (hs : s ∈ fs.allSources) : s ∈ q.allSources :=
    List.mem_flatMap.mpr ⟨fs, hf, hs⟩
  cases List.mem_cons.mp hm with
  | inl same =>
      subst same
      exact .inr (becomes_source (listed List.mem_cons_self) own)
  | inr hm =>
      obtain ⟨x, hx, hm⟩ := List.mem_flatMap.mp hm
      obtain ⟨j, hj, table, condition⟩ := exists_right (joins_converted joined) hx
      simp only [Sql.Join.nodes, List.cons_append, List.mem_cons, List.mem_append] at hm
      rcases hm with rfl | hm | hm
      · exact .inr (becomes_source
          (listed (List.mem_cons_of_mem _ (List.mem_map_of_mem hj))) table)
      · exact .inl ⟨x, hx, hm⟩
      · exact .inr (becomes_option
          (fun e he => joinCondition_mem_exprs hf hj he) condition hm)

theorem select_accounted {s : Sql.Select} (h : selectOfSyntax s = .ok q) (hm : m ∈ s.parts) :
    m ∈ unread (.select s) ∨ ∃ p ∈ (Place.query q).parts, Becomes m p := by
  have converted := select_converted h
  simp only [unread, List.mem_append]
  simp only [Sql.Select.parts, converted.top, converted.windows, converted.qualify,
    List.filterMap_nil, Option.toList_none, List.map_nil, List.append_nil, List.mem_append] at hm
  rcases hm with ((((((hm | hm) | hm) | hm) | hm) | hm) | hm) | hm
  · exact .inl (.inl (.inl (.inl hm)))
  · obtain ⟨x, hx, rfl⟩ := List.mem_map.mp hm
    obtain ⟨i, hi, own⟩ := List.mem_filterMap.mp hx
    obtain ⟨j, hj, item⟩ := exists_right (items_converted converted.items) hi
    exact .inr (becomes_expr (item_mem_exprs hj) (item x own))
  · obtain ⟨f, hf, hm⟩ := List.mem_flatMap.mp hm
    obtain ⟨fs, hfs, own, joined⟩ := exists_right (sources_converted converted.sources) hf
    apply (source_becomes hfs own joined hm).imp_left
    rintro ⟨j, hj, hm⟩
    exact .inr (List.mem_flatMap.mpr ⟨f, hf, List.mem_flatMap.mpr ⟨j, hj, hm⟩⟩)
  · exact .inl (.inl (.inl (.inr hm)))
  · exact .inr (becomes_option (fun e he => condition_mem_exprs he) converted.condition hm)
  · obtain ⟨x, hx, rfl⟩ := List.mem_map.mp hm
    obtain ⟨e, he, own⟩ := exists_right (exprs_converted converted.groupBy) hx
    exact .inr (becomes_expr (key_mem_exprs he) own)
  · exact .inl (.inl (.inr hm))
  · exact .inr (becomes_option (fun e he => having_mem_exprs he) converted.having hm)

theorem body_accounted {b : Sql.Body} (h : bodyOfSyntax b = .ok q) (hm : m ∈ b.parts) :
    Becomes m (.query q) ∨ ∃ p ∈ (Place.query q).parts, Becomes m p := by
  cases b with
  | select s =>
      obtain rfl := List.mem_singleton.mp hm
      exact .inl (.select h (covers_refl q))
  | query s =>
      obtain rfl := List.mem_singleton.mp hm
      exact .inl (.query h (covers_refl q))
  | setOperation left op quantifier right =>
      obtain ⟨o, operation, first, second⟩ := operation_converted h
      have side {r : Query} (hr : r ∈ o.sides) : Place.query r ∈ (Place.query q).parts := by
        simp only [Place.parts, operation, Option.toList_some, List.flatMap_singleton,
          List.mem_append]
        exact .inr (List.mem_map_of_mem (List.mem_append_right _ hr))
      simp only [Sql.Body.parts, List.mem_cons, List.not_mem_nil, or_false] at hm
      rcases hm with rfl | rfl
      · exact .inr ⟨.query o.left, side (by simp [SetOperation.sides]), .body first (covers_refl _)⟩
      · exact .inr ⟨.query o.right, side (by simp [SetOperation.sides]),
          .body second (covers_refl _)⟩
  | values _ | table _ | change _ _ => cases h

theorem query_covers {s : Sql.Query} {body : Query} (h : QueryConverted s body q) :
    q.Covers body := by
  obtain ⟨cs, -, ctes⟩ := h.ctes
  obtain ⟨os, -, orders⟩ := h.orderBy
  have order : body.orderBy ⊆ q.orderBy := by
    rcases orders with ⟨-, kept⟩ | ⟨none, -⟩
    · rw [kept]
      exact List.Subset.refl _
    · rw [none]
      exact List.nil_subset _
  have exprs : body.exprs ⊆ q.exprs := by
    intro e he
    simp only [Query.exprs, h.items, h.sources, h.condition, h.groupBy, h.having,
      List.mem_append] at he ⊢
    exact he.imp_right fun h => List.map_subset _ order h
  have listed : q.allSources = body.allSources := by
    rw [Query.allSources, h.sources, Query.allSources]
  intro p hp
  simp only [Place.parts, List.mem_append, listed, h.setOperation, ctes, List.map_append] at hp ⊢
  rcases hp with (hp | hp) | hp | hp
  · exact .inl (.inl (List.map_subset _ exprs hp))
  · exact .inl (.inr hp)
  · exact .inr (.inl (.inr hp))
  · exact .inr (.inr hp)

theorem query_accounted {s : Sql.Query} (h : Query.ofSyntax s = .ok q) (hm : m ∈ s.parts) :
    (∃ v, m = .expr (.value v)) ∨ Becomes m (.query q) ∨
      ∃ p ∈ (Place.query q).parts, Becomes m p := by
  obtain ⟨body, converted⟩ := query_converted h
  obtain ⟨cs, definitions, ctes⟩ := converted.ctes
  obtain ⟨os, ordered, orders⟩ := converted.orderBy
  simp only [Sql.Query.parts, List.mem_append, List.mem_singleton] at hm
  rcases hm with (((hm | rfl) | hm) | hm) | hm
  · obtain ⟨x, hx, rfl⟩ := List.mem_map.mp hm
    obtain ⟨c, hc, own⟩ := exists_right (ctes_converted definitions) hx
    have inside : c.query ∈ q.ctes.map Cte.query := by
      rw [ctes]
      exact List.mem_map_of_mem (List.mem_append_left _ hc)
    refine .inr (.inr ⟨.query c.query, ?_, .query own (covers_refl _)⟩)
    exact List.mem_append_right _ (List.mem_map_of_mem (List.mem_append_left _ inside))
  · exact .inr (.inl (.body converted.inner (query_covers converted)))
  · obtain ⟨x, hx, rfl⟩ := List.mem_map.mp hm
    obtain ⟨o, ho, own⟩ := exists_right (orders_converted ordered) hx
    have sorted : q.orderBy = os := by
      rcases orders with ⟨none, -⟩ | ⟨-, new⟩
      · rw [none] at hx
        cases hx
      · exact new
    exact .inr (.inr (becomes_expr (order_mem_exprs (sorted ▸ ho)) own))
  · obtain ⟨x, given, rfl⟩ := List.mem_map.mp hm
    exact .inl ((converted.counts x (.inl (Option.mem_toList.mp given))).imp fun _ => congrArg _)
  · obtain ⟨x, given, rfl⟩ := List.mem_map.mp hm
    exact .inl ((converted.counts x (.inr (Option.mem_toList.mp given))).imp fun _ => congrArg _)

/-! ### Whole statements -/

theorem Becomes.covered (h : Becomes m (.query r)) (covers : q.Covers r) :
    Becomes m (.query q) := by
  cases h with
  | query own inner => exact .query own (covers.trans inner)
  | body own inner => exact .body own (covers.trans inner)
  | select own inner => exact .select own (covers.trans inner)

/-- A part of a construct becomes a part of what the construct has become, unless that is raw SQL
or has no room for it. -/
theorem Becomes.part (h : Becomes n p) (hm : m ∈ n.parts) : Accounted n p m := by
  have listed {q r : Query} (covers : q.Covers r)
      (h : ∃ p ∈ (Place.query r).parts, Becomes m p) : Accounted n (.query q) m := by
    obtain ⟨p, hp, own⟩ := h
    exact .inr (.inr (.inr ⟨p, .inr (covers hp), own⟩))
  cases h with
  | expr own => exact expr_accounted own hm
  | table own => exact table_accounted own hm
  | query own covers =>
      rcases query_accounted own hm with count | whole | inside
      · exact .inr (.inr (.inl count))
      · exact .inr (.inr (.inr ⟨_, .inl rfl, whole.covered covers⟩))
      · exact listed covers inside
  | body own covers =>
      rcases body_accounted own hm with whole | inside
      · exact .inr (.inr (.inr ⟨_, .inl rfl, whole.covered covers⟩))
      · exact listed covers inside
  | select own covers =>
      rcases select_accounted own hm with left | inside
      · exact .inr (.inl left)
      · exact listed covers inside

/-- Whether a construct stands in one that has become a part of a tree without becoming one itself:
in raw SQL, or in a clause that the tree has no room for. -/
def IsLost (root : Node) (p : Place) (n : Node) : Prop :=
  ∃ m r, root.Within m ∧ p.Within r ∧ Becomes m r ∧ m.Within n ∧
    (rawPlace? m = some r ∨ ∃ clause ∈ unread m, clause.Within n)

/-- A construct of a statement becomes a part of its tree, or is lost in one that does, but for
literals. -/
theorem Becomes.within {root : Node} (h : Becomes root p) (inside : root.Within n) :
    (∃ r, p.Within r ∧ Becomes n r) ∨ IsLost root p n ∨ ∃ v, n = .expr (.value v) := by
  induction inside with
  | refl => exact .inl ⟨p, .refl, h⟩
  | @tail b c within part ih =>
      rcases ih with ⟨r, hr, becomes⟩ | ⟨m, r, hm, hr, becomes, inner, lost⟩ | ⟨v, rfl⟩
      · rcases becomes.part part with raw | left | literal | ⟨s, hs, own⟩
        · exact .inr (.inl ⟨b, r, within, hr, becomes, .single part, .inl raw⟩)
        · exact .inr (.inl ⟨b, r, within, hr, becomes, .single part, .inr ⟨c, left, .refl⟩⟩)
        · exact .inr (.inr literal)
        · rcases hs with rfl | hs
          · exact .inl ⟨s, hr, own⟩
          · exact .inl ⟨s, hr.tail hs, own⟩
      · refine .inr (.inl ⟨m, r, hm, hr, becomes, inner.tail part, ?_⟩)
        exact lost.imp_right fun ⟨clause, left, deep⟩ => ⟨clause, left, deep.tail part⟩
      · cases part

/-! ### Parts that are searched for -/

theorem child_mem_queries {b c : Query} (hb : b ∈ q.queries) (hc : c ∈ b.children) :
    c ∈ q.queries := by
  have deep : ∀ k (q : Query), q.queries.length ≤ k → b ∈ q.queries → c ∈ q.queries := by
    intro k
    induction k with
    | zero =>
        intro q few
        rw [q.queries_eq, List.length_cons] at few
        omega
    | succ k ih =>
        intro q few hb
        rw [q.queries_eq] at hb
        rcases List.mem_cons.mp hb with rfl | hb
        · exact mem_queries_child hc c.self_mem_queries
        · obtain ⟨d, hd, hb⟩ := List.mem_flatMap.mp hb
          have fewer := queries_child hd
          exact mem_queries_child hd (ih d (by omega) hb)
  exact deep _ q (Nat.le_refl _) hb

theorem isIn_part {r : Place} (h : p.IsIn q) (hr : r ∈ p.parts) : r.IsIn q := by
  cases p with
  | expr e =>
      obtain ⟨b, hb, x, hx, he⟩ := h
      rcases List.mem_append.mp hr with hr | hr
      · obtain ⟨f, hf, rfl⟩ := List.mem_map.mp hr
        exact ⟨b, hb, x, hx, mem_nodes_trans he (Expr.mem_nodes_part hf f.self_mem_nodes)⟩
      · obtain ⟨c, hc, rfl⟩ := List.mem_map.mp hr
        apply child_mem_queries hb
        have inside : c ∈ x.children :=
          List.mem_filterMap.mpr ⟨e, he, Option.mem_toList.mp hc⟩
        exact List.mem_append_right _ (List.mem_flatMap.mpr ⟨x, hx, inside⟩)
  | query b =>
      simp only [Place.parts, List.mem_append, List.mem_map] at hr
      rcases hr with (⟨e, he, rfl⟩ | ⟨s, hs, rfl⟩) | ⟨c, hc, rfl⟩
      · exact ⟨b, h, e, he, e.self_mem_nodes⟩
      · exact ⟨b, h, hs⟩
      · apply child_mem_queries h
        simp only [Query.children, List.mem_append, List.mem_map]
        exact .inl (.inl hc)
  | source s =>
      obtain ⟨b, hb, hs⟩ := h
      obtain ⟨c, hc, rfl⟩ := List.mem_map.mp hr
      apply child_mem_queries hb
      have inside : c ∈ b.allSources.filterMap Source.query? :=
        List.mem_filterMap.mpr ⟨s, hs, Option.mem_toList.mp hc⟩
      simp only [Query.children, List.mem_append]
      exact .inl (.inr inside)

/-- The parts of a query at any depth are among those that its queries are searched for. -/
theorem isIn_of_within (h : (Place.query q).Within p) : p.IsIn q := by
  induction h with
  | refl => exact q.self_mem_queries
  | tail _ part ih => exact isIn_part ih part

end ReportSql.Tree
