import ReportSql.Proofs.AcceptedStatements
import ReportSql.Proofs.KeptParts
import ReportSql.Proofs.RereadTrees
import ReportSql.Proofs.TrimmedTexts

/-!
Texts of trees at the gate. What the gate meets in the text of a tree is a query of the tree, a
relation in one of its FROM lists or a call in one of its expressions. Where the policy allows
these relations and calls, the text of a tree that can be read back is accepted.
-/
namespace ReportSql.Tree

open Sql (Ident Node Visit)

variable {e : Expr} {q : Query} {m n : Node} {v : Visit} {p : Place}

/-! ### The syntax of the parts of a tree -/

theorem exprsSyntax_eq (es : List Expr) : exprsSyntax es = es.map Expr.toSyntax := by
  induction es with
  | nil => rfl
  | cons e es ih => rw [exprsSyntax, ih, List.map_cons]

theorem optionSyntax_eq (o : Option Expr) : optionSyntax o = o.map Expr.toSyntax := by
  cases o <;> rfl

theorem branchesSyntax_eq (branches : List Branch) : branchesSyntax branches =
    branches.map fun b => ⟨b.condition.toSyntax, b.result.toSyntax⟩ := by
  induction branches with
  | nil => rfl
  | cons b branches ih =>
      obtain ⟨condition, result⟩ := b
      rw [branchesSyntax, ih, List.map_cons]

theorem ordersSyntax_exprs (orders : List OrderItem) :
    (ordersSyntax orders).map Sql.OrderItem.expr = orders.map fun o => o.expr.toSyntax := by
  induction orders with
  | nil => rfl
  | cons o orders ih =>
      obtain ⟨expr, direction, nulls⟩ := o
      rw [ordersSyntax, List.map_cons, ih, List.map_cons]

theorem ctesSyntax_queries (ctes : List Cte) :
    (ctesSyntax ctes).map Sql.Cte.query = ctes.map fun c => c.query.toSyntax := by
  induction ctes with
  | nil => rfl
  | cons c ctes ih =>
      obtain ⟨name, columns, query, recursive⟩ := c
      rw [ctesSyntax, List.map_cons, ih, List.map_cons]

theorem mem_argumentNodes {es : List Expr}
    (h : m ∈ (argumentsSyntax es).flatMap Sql.Argument.nodes) : ∃ e ∈ es, m = .expr e.toSyntax := by
  induction es with
  | nil => cases h
  | cons e es ih =>
      rw [argumentsSyntax, List.flatMap_cons, List.mem_append] at h
      rcases h with own | others
      · by_cases star : e.isStar = true
        · rw [if_pos star] at own
          cases own
        · rw [if_neg star] at own
          exact ⟨e, List.mem_cons_self, List.mem_singleton.mp own⟩
      · obtain ⟨f, hf, same⟩ := ih others
        exact ⟨f, List.mem_cons_of_mem e hf, same⟩

theorem mem_itemExprs {items : List SelectItem} {x : Sql.Expr}
    (h : x ∈ (itemsSyntax items).filterMap Sql.SelectItem.expr?) :
    ∃ i ∈ items, x = i.expr.toSyntax := by
  induction items with
  | nil => cases h
  | cons i items ih =>
      obtain ⟨expr, label⟩ := i
      rw [itemsSyntax] at h
      obtain ⟨y, hy, own⟩ := List.mem_filterMap.mp h
      rcases List.mem_cons.mp hy with rfl | others
      · refine ⟨_, List.mem_cons_self, ?_⟩
        by_cases star : expr.isWildcard = true
        · rw [if_pos star] at own
          cases own
        · rw [if_neg star] at own
          exact (Option.some.inj own).symm
      · obtain ⟨j, hj, same⟩ := ih (List.mem_filterMap.mpr ⟨y, others, own⟩)
        exact ⟨j, List.mem_cons_of_mem _ hj, same⟩

theorem mem_joinNodes {joins : List Join} (h : m ∈ (joinsSyntax joins).flatMap Sql.Join.nodes) :
    ∃ j ∈ joins, m = .table j.source.toSyntax ∨ ∃ e ∈ j.condition, m = .expr e.toSyntax := by
  induction joins with
  | nil => cases h
  | cons j joins ih =>
      obtain ⟨kind, source, condition⟩ := j
      rw [joinsSyntax, List.flatMap_cons, List.mem_append] at h
      rcases h with own | others
      · refine ⟨_, List.mem_cons_self, ?_⟩
        simp only [Sql.Join.nodes, List.filterMap_nil, List.cons_append, List.nil_append,
          List.mem_cons, optionSyntax_eq, Option.toList_map, List.map_map, List.mem_map,
          Option.mem_toList] at own
        rcases own with rfl | ⟨e, he, rfl⟩
        · exact .inl rfl
        · exact .inr ⟨e, he, rfl⟩
      · obtain ⟨k, hk, same⟩ := ih others
        exact ⟨k, List.mem_cons_of_mem _ hk, same⟩

theorem mem_sourceNodes {sources : List FromItem}
    (h : m ∈ (sourcesSyntax sources).flatMap Sql.Source.nodes) :
    ∃ f ∈ sources, (∃ s ∈ f.allSources, m = .table s.toSyntax) ∨
      ∃ j ∈ f.joins, ∃ e ∈ j.condition, m = .expr e.toSyntax := by
  induction sources with
  | nil => cases h
  | cons f sources ih =>
      obtain ⟨source, joins⟩ := f
      rw [sourcesSyntax, List.flatMap_cons, List.mem_append] at h
      rcases h with own | others
      · refine ⟨_, List.mem_cons_self, ?_⟩
        rcases List.mem_cons.mp own with rfl | joined
        · exact .inl ⟨source, List.mem_cons_self, rfl⟩
        · obtain ⟨j, hj, rfl | condition⟩ := mem_joinNodes joined
          · exact .inl ⟨j.source, List.mem_cons_of_mem _ (List.mem_map_of_mem hj), rfl⟩
          · exact .inr ⟨j, hj, condition⟩
      · obtain ⟨g, hg, same⟩ := ih others
        exact ⟨g, List.mem_cons_of_mem _ hg, same⟩

/-! ### What the gate meets in a tree -/

/-- Whether a construct is what a part of a tree is read as, or belongs to nothing else. -/
inductive StandsFor : Place → Node → Prop where
  | expr (e : Expr) : StandsFor (.expr e) (.expr e.toSyntax)
  /-- An operand of a cast is read in parentheses. -/
  | nested (e : Expr) : StandsFor (.expr e) (.expr (.nested e.toSyntax))
  | value (p : Place) (v : Sql.Value) : StandsFor p (.expr (.value v))
  | query (q : Query) : StandsFor (.query q) (.query q.toSyntax)
  | body (q : Query) : StandsFor (.query q) (.body q.toSyntax.body)
  /-- An operand of a set operation is read in parentheses. -/
  | operand (q : Query) : StandsFor (.query q) (.body (.query q.toSyntax))
  | select (q : Query) : StandsFor (.query q) (.select q.selectSyntax.select)
  | source (s : Source) : StandsFor (.source s) (.table s.toSyntax)

theorem stands_part {x : Expr} (hx : x ∈ e.parts) :
    ∃ r, (r = Place.expr e ∨ r ∈ (Place.expr e).parts) ∧ StandsFor r (.expr x.toSyntax) :=
  ⟨.expr x, .inr (List.mem_append_left _ (List.mem_map_of_mem hx)), .expr x⟩

theorem stands_query {r : Query} (hr : e.query? = some r) :
    ∃ p, (p = Place.expr e ∨ p ∈ (Place.expr e).parts) ∧ StandsFor p (.query r.toSyntax) :=
  ⟨.query r, .inr (List.mem_append_right _ (List.mem_map_of_mem (Option.mem_toList.mpr hr))),
    .query r⟩

theorem expr_stands (hm : m ∈ e.toSyntax.parts) :
    ∃ r, (r = Place.expr e ∨ r ∈ (Place.expr e).parts) ∧ StandsFor r m := by
  cases e with
  | column _ _ | param _ | star _ | raw _ => cases hm
  | literal value => cases value <;> cases hm
  | binary left op right =>
      have sides : m = .expr left.toSyntax ∨ m = .expr right.toSyntax := by
        cases op <;> simpa [Expr.toSyntax, BinaryOp.toSyntax, Sql.Expr.parts] using hm
      rcases sides with rfl | rfl
      · exact stands_part List.mem_cons_self
      · exact stands_part (List.mem_cons_of_mem left List.mem_cons_self)
  | unary op operand =>
      have own : m = .expr operand.toSyntax := by
        cases op <;> exact List.mem_singleton.mp hm
      exact own ▸ stands_part List.mem_cons_self
  | isNull operand _ | isTruth operand _ _ | paren operand =>
      obtain rfl := List.mem_singleton.mp hm
      exact stands_part List.mem_cons_self
  | cast operand type =>
      obtain rfl := List.mem_singleton.mp hm
      split
      · exact stands_part List.mem_cons_self
      · exact ⟨.expr operand, .inr (List.mem_cons_self), .nested operand⟩
  | interval text =>
      obtain rfl := List.mem_singleton.mp hm
      exact ⟨_, .inl rfl, .value _ _⟩
  | call name arguments distinct =>
      have own : m ∈ (argumentsSyntax arguments).flatMap Sql.Argument.nodes := by
        simpa [Expr.toSyntax, Sql.Expr.parts] using hm
      obtain ⟨x, hx, rfl⟩ := mem_argumentNodes own
      exact stands_part hx
  | case operand branches otherwise =>
      simp only [Expr.toSyntax, Sql.Expr.parts, optionSyntax_eq, branchesSyntax_eq,
        Option.toList_map, List.map_map, List.mem_append, List.mem_map, Option.mem_toList,
        Function.comp_apply] at hm
      have side : ∀ b ∈ branches, ∀ x ∈ b.sides, x ∈ (Expr.case operand branches otherwise).parts :=
        fun b hb x hx => List.mem_append_left _
          (List.mem_append_right _ (List.mem_flatMap.mpr ⟨b, hb, hx⟩))
      rcases hm with ((⟨x, hx, rfl⟩ | ⟨b, hb, rfl⟩) | ⟨b, hb, rfl⟩) | ⟨x, hx, rfl⟩
      · exact stands_part (List.mem_append_left _
          (List.mem_append_left _ (Option.mem_toList.mpr hx)))
      · exact stands_part (side b hb b.condition List.mem_cons_self)
      · exact stands_part (side b hb b.result (List.mem_cons_of_mem _ List.mem_cons_self))
      · exact stands_part (List.mem_append_right _ (Option.mem_toList.mpr hx))
  | subquery query | «exists» query _ =>
      obtain rfl := List.mem_singleton.mp hm
      exact stands_query rfl
  | inList operand values negated =>
      cases values with
      | nil => cases hm
      | cons value values =>
          have own : m ∈ (operand :: value :: values).map fun x => Node.expr x.toSyntax := by
            simpa [Expr.toSyntax, Sql.Expr.parts, exprsSyntax_eq] using hm
          obtain ⟨x, hx, rfl⟩ := List.mem_map.mp own
          exact stands_part hx
  | inQuery operand query negated =>
      simp only [Expr.toSyntax, Sql.Expr.parts, List.mem_cons, List.not_mem_nil, or_false] at hm
      rcases hm with rfl | rfl
      · exact stands_part List.mem_cons_self
      · exact stands_query rfl
  | between operand low high negated =>
      simp only [Expr.toSyntax, Sql.Expr.parts, List.mem_cons, List.not_mem_nil, or_false] at hm
      rcases hm with rfl | rfl | rfl
      · exact stands_part List.mem_cons_self
      · exact stands_part (List.mem_cons_of_mem operand List.mem_cons_self)
      · exact stands_part (List.mem_append_right [operand, low] List.mem_cons_self)

theorem stands_expr (he : e ∈ q.exprs) :
    ∃ r, (r = Place.query q ∨ r ∈ (Place.query q).parts) ∧ StandsFor r (.expr e.toSyntax) := by
  refine ⟨.expr e, .inr ?_, .expr e⟩
  exact List.mem_append_left _ (List.mem_append_left _ (List.mem_map_of_mem he))

theorem query_stands (hm : m ∈ q.toSyntax.parts) :
    ∃ r, (r = Place.query q ∨ r ∈ (Place.query q).parts) ∧ StandsFor r m := by
  have counts (rows : Option UInt64)
      (hm : m ∈ (rows.map countSyntax).toList.map Node.expr) : StandsFor (.query q) m := by
    obtain ⟨x, hx, rfl⟩ := List.mem_map.mp hm
    obtain ⟨n, -, rfl⟩ := Option.map_eq_some_iff.mp (Option.mem_toList.mp hx)
    exact .value _ _
  rw [Query.toSyntax_parts] at hm
  simp only [Sql.Query.parts, List.mem_append] at hm
  rcases hm with (((cte | body) | order) | limit) | offset
  · have own : m ∈ (q.ctes.map fun c => c.query.toSyntax).map Node.query := by
      rw [← ctesSyntax_queries, List.map_map]
      exact cte
    obtain ⟨_, hx, rfl⟩ := List.mem_map.mp own
    obtain ⟨c, hc, rfl⟩ := List.mem_map.mp hx
    refine ⟨.query c.query, .inr ?_, .query _⟩
    exact List.mem_append_right _ (List.mem_map_of_mem
      (List.mem_append_left _ (List.mem_map_of_mem hc)))
  · obtain rfl := List.mem_singleton.mp body
    exact ⟨_, .inl rfl, .body q⟩
  · have own : m ∈ (q.orderBy.map fun o => o.expr.toSyntax).map Node.expr := by
      rw [← ordersSyntax_exprs, List.map_map]
      exact order
    obtain ⟨_, hx, rfl⟩ := List.mem_map.mp own
    obtain ⟨o, ho, rfl⟩ := List.mem_map.mp hx
    exact stands_expr (order_mem_exprs ho)
  · exact ⟨_, .inl rfl, counts _ limit⟩
  · exact ⟨_, .inl rfl, counts _ offset⟩

theorem select_stands (hm : m ∈ q.selectSyntax.select.parts) :
    ∃ r, (r = Place.query q ∨ r ∈ (Place.query q).parts) ∧ StandsFor r m := by
  have optional {o : Option Expr} (listed : ∀ e ∈ o, e ∈ q.exprs)
      (hm : m ∈ (optionSyntax o).toList.map Node.expr) :
      ∃ r, (r = Place.query q ∨ r ∈ (Place.query q).parts) ∧ StandsFor r m := by
    rw [optionSyntax_eq, Option.toList_map] at hm
    obtain ⟨_, hx, rfl⟩ := List.mem_map.mp hm
    obtain ⟨e, he, rfl⟩ := List.mem_map.mp hx
    exact stands_expr (listed e (Option.mem_toList.mp he))
  simp only [Sql.Grammar.SelectParts.select, Query.selectSyntax, Sql.Select.parts, List.map_nil,
    List.filterMap_nil, List.nil_append, List.append_nil, Option.toList_none,
    List.mem_append] at hm
  rcases hm with (((item | source) | condition) | key) | having
  · obtain ⟨_, hx, rfl⟩ := List.mem_map.mp item
    obtain ⟨i, hi, rfl⟩ := mem_itemExprs hx
    exact stands_expr (item_mem_exprs hi)
  · obtain ⟨f, hf, ⟨s, hs, rfl⟩ | ⟨j, hj, e, he, rfl⟩⟩ := mem_sourceNodes source
    · have listed : s ∈ q.allSources := List.mem_flatMap.mpr ⟨f, hf, hs⟩
      refine ⟨.source s, .inr ?_, .source s⟩
      exact List.mem_append_left _ (List.mem_append_right _ (List.mem_map_of_mem listed))
    · exact stands_expr (joinCondition_mem_exprs hf hj he)
  · exact optional (fun e he => condition_mem_exprs he) condition
  · rw [exprsSyntax_eq] at key
    obtain ⟨_, hx, rfl⟩ := List.mem_map.mp key
    obtain ⟨e, he, rfl⟩ := List.mem_map.mp hx
    exact stands_expr (key_mem_exprs he)
  · exact optional (fun e he => having_mem_exprs he) having

theorem body_stands (hm : m ∈ q.toSyntax.body.parts) :
    ∃ r, (r = Place.query q ∨ r ∈ (Place.query q).parts) ∧ StandsFor r m := by
  cases operation : q.setOperation with
  | none =>
      rw [toSyntax_select operation] at hm
      obtain rfl := List.mem_singleton.mp hm
      exact ⟨_, .inl rfl, .select q⟩
  | some o =>
      obtain ⟨left, op, all, right⟩ := o
      have side {r : Query} (hr : r ∈ [left, right]) : Place.query r ∈ (Place.query q).parts := by
        refine List.mem_append_right _ (List.mem_map_of_mem (List.mem_append_right _ ?_))
        rw [operation]
        exact List.mem_flatMap.mpr ⟨_, List.mem_cons_self, hr⟩
      rw [toSyntax_operation operation] at hm
      simp only [SetOperation.toSyntax, Sql.Body.parts, List.mem_cons, List.not_mem_nil,
        or_false] at hm
      rcases hm with rfl | rfl
      · refine ⟨.query left, .inr (side List.mem_cons_self), ?_⟩
        split
        · exact .body left
        · exact .operand left
      · exact ⟨.query right, .inr (side (List.mem_cons_of_mem _ List.mem_cons_self)),
          .operand right⟩

/-- The parts of a construct that stands for a part of a tree stand for this part or for the parts
directly inside it. -/
theorem StandsFor.part (h : StandsFor p n) (hm : m ∈ n.parts) :
    ∃ r, (r = p ∨ r ∈ p.parts) ∧ StandsFor r m := by
  cases h with
  | expr e => exact expr_stands hm
  | nested e =>
      obtain rfl := List.mem_singleton.mp hm
      exact ⟨_, .inl rfl, .expr e⟩
  | value p v => cases hm
  | query q => exact query_stands hm
  | body q => exact body_stands hm
  | operand q =>
      obtain rfl := List.mem_singleton.mp hm
      exact ⟨_, .inl rfl, .query q⟩
  | select q => exact select_stands hm
  | source s =>
      cases s with
      | named _ | raw _ => cases hm
      | derived query label =>
          obtain rfl := List.mem_singleton.mp hm
          exact ⟨.query query, .inr List.mem_cons_self, .query query⟩

/-- All constructs of the syntax of a query stand for parts of the query. -/
theorem stands_of_within (h : (Node.query q.toSyntax).Within n) :
    ∃ p, (Place.query q).Within p ∧ StandsFor p n := by
  induction h with
  | refl => exact ⟨_, .refl, .query q⟩
  | tail _ part ih =>
      obtain ⟨p, within, own⟩ := ih
      obtain ⟨r, rfl | inside, stands⟩ := own.part part
      · exact ⟨_, within, stands⟩
      · exact ⟨r, within.tail inside, stands⟩

/-- The names that a relation is read by. -/
def TableRef.path (t : TableRef) : List Ident := (t.schema.toList ++ [t.table]).map nameIdent

/-- What a walk over the syntax of a tree meets at a part of the tree itself. -/
inductive Place.Meets : Place → Visit → Prop where
  | query (q : Query) : Meets (.query q) (.query q.toSyntax)
  | relation (t : TableRef) : Meets (.source (.named t)) (.relation t.path)
  | call (name : String) (arguments : List Expr) (distinct : Bool) :
    Meets (.expr (.call name arguments distinct)) (.call [⟨Text.upper name, .bare⟩])

theorem expr_meets (hv : v ∈ (Node.expr e.toSyntax).own) : (Place.expr e).Meets v := by
  cases e with
  | call name arguments distinct =>
      obtain rfl := List.mem_singleton.mp hv
      exact .call name arguments distinct
  | literal value => cases value <;> cases hv
  | binary left op right => cases op <;> cases hv
  | unary op operand => cases op <;> cases hv
  | inList operand values negated => cases values <;> cases hv
  | _ => cases hv

theorem StandsFor.meets (h : StandsFor p n) (hv : v ∈ n.own) : p.Meets v := by
  cases h with
  | expr e => exact expr_meets hv
  | query q =>
      obtain rfl := List.mem_singleton.mp hv
      exact .query q
  | source s =>
      cases s with
      | named t =>
          obtain ⟨schema, table, label⟩ := t
          obtain rfl := List.mem_singleton.mp hv
          cases schema <;> exact .relation _
      | _ => cases hv
  | body q =>
      cases operation : q.setOperation with
      | none =>
          rw [toSyntax_select operation] at hv
          cases hv
      | some o =>
          rw [toSyntax_operation operation] at hv
          obtain ⟨left, op, all, right⟩ := o
          cases hv
  | nested _ | value _ _ | operand _ | select _ => cases hv

/-- A walk over the syntax of a query meets its queries, the relations that they read and the calls
in their expressions. -/
theorem query_meets (hv : v ∈ q.toSyntax.visits) : ∃ p : Place, p.IsIn q ∧ p.Meets v := by
  obtain ⟨n, within, own⟩ := (Node.mem_visits (n := .query q.toSyntax)).mp hv
  obtain ⟨p, inside, stands⟩ := stands_of_within within
  exact ⟨p, isIn_of_within inside, stands.meets own⟩

/-- The text of a tree makes no table. -/
theorem selectsInto_toSyntax (q : Query) : Gate.selectsInto q.toSyntax.body = false := by
  have steps : TreeSteps (fun _ => True)
      fun q : Query => Gate.selectsInto q.toSyntax.body = false := by
    refine ⟨fun _ _ _ => trivial, fun q _ operands => ?_⟩
    cases operation : q.setOperation with
    | none =>
        rw [toSyntax_select operation]
        rfl
    | some o =>
        rw [toSyntax_operation operation]
        obtain ⟨left, op, all, right⟩ := o
        refine Bool.or_eq_false_iff.mpr ⟨?_, rfl⟩
        split
        · exact operands left (side_mem_operands operation List.mem_cons_self)
        · rfl
  exact steps.queries q

end ReportSql.Tree

namespace ReportSql.Gate

open Sql (Visit)
open ReportSql.Tree (Expr Place Query TableRef)

variable {p : Policy} {q : Query} {names more : List String} {visits : List Visit} {v : Visit}

/-! ### Walks that the gate lets through -/

theorem checkVisit_allows (h : Allows p names v) :
    checkVisit p names v = .ok (names ++ definedNames [v]) := by
  cases v with
  | query q =>
      obtain ⟨unlocked, noInto⟩ := h
      simp [checkVisit, unlocked, noInto, definedNames]
  | relation name =>
      have allowed : p.allowsRelation _ names = true := h
      simp [checkVisit, allowed, definedNames]
  | call name =>
      have allowed : ∀ i, name.getLast? = some i → p.forbidsFunction i.value = false := h
      cases last : name.getLast? with
      | none => simp [checkVisit, last, definedNames]
      | some i => simp [checkVisit, last, allowed i last, definedNames]
  | change keyword => cases h

theorem foldlM_of_allows (h : ∀ before v after, visits = before ++ v :: after →
    Allows p (names ++ definedNames before) v) :
    ∃ defined, visits.foldlM (checkVisit p) names = .ok defined := by
  induction visits generalizing names with
  | nil => exact ⟨names, rfl⟩
  | cons v visits ih =>
      have own := h [] v visits rfl
      rw [List.foldlM_cons, checkVisit_allows (by simpa [definedNames] using own)]
      refine ih fun before u after split => ?_
      have later := h (v :: before) u after (by rw [split, List.cons_append])
      simpa [definedNames] using later

/-- A walk is let through exactly if all that it meets is allowed, each after the names defined
before. -/
theorem checkVisits_iff : checkVisits p visits = .ok () ↔
    ∀ before v after, visits = before ++ v :: after → Allows p (definedNames before) v := by
  constructor
  · exact fun ok before v after split => checkVisits_allows ok split
  · intro h
    have none : ∀ before v after, visits = before ++ v :: after →
        Allows p ([] ++ definedNames before) v := h
    obtain ⟨defined, run⟩ := foldlM_of_allows none
    rw [checkVisits, run]
    rfl

/-- More names may be read where more names are defined. -/
theorem allowsRelation_mono {path : List String} (sub : names ⊆ more)
    (h : p.allowsRelation path names = true) : p.allowsRelation path more = true := by
  unfold Policy.allowsRelation at h ⊢
  split
  · next empty => simp [empty] at h
  · next table single =>
    simp only [single, Bool.or_eq_true, List.contains_iff_mem] at h ⊢
    exact h.imp_left fun listed => sub listed
  · next table schema rest longer => simpa [longer] using h

theorem Allows.mono (sub : names ⊆ more) (h : Allows p names v) : Allows p more v := by
  cases v with
  | relation name => exact allowsRelation_mono sub h
  | query _ | call _ | change _ => exact h

/-! ### Trees that a policy allows -/

/-- Whether a policy allows what a tree reads and calls. Its relations may be those that the query
itself defines. -/
structure Policy.AllowsTree (p : Policy) (q : Query) : Prop where
  relations : ∀ t, (Place.source (.named t)).IsIn q →
    p.allowsRelation (t.path.map fun i => Text.lower i.value)
      (q.ctes.map fun c => Text.lower c.name) = true
  calls : ∀ name arguments distinct, (Place.expr (.call name arguments distinct)).IsIn q →
    p.forbidsFunction (Text.upper name) = false

theorem cteNames_toSyntax (q : Query) :
    cteNames q.toSyntax = q.ctes.map fun c => Text.lower c.name := by
  have names (ctes : List Tree.Cte) :
      (Tree.ctesSyntax ctes).map (fun c => Text.lower c.label.name.value) =
        ctes.map fun c => Text.lower c.name := by
    induction ctes with
    | nil => rfl
    | cons c ctes ih =>
        obtain ⟨name, columns, query, recursive⟩ := c
        rw [Tree.ctesSyntax, List.map_cons, ih, List.map_cons]
        rfl
  rw [Tree.Query.toSyntax_parts]
  exact names q.ctes

/-- What a walk over the syntax of a tree meets after the query itself is allowed. -/
theorem meets_allowed (allowed : p.AllowsTree q) {place : Place} (inside : place.IsIn q)
    (meets : place.Meets v) : Allows p (q.ctes.map fun c => Text.lower c.name) v := by
  cases meets with
  | query r =>
      refine ⟨?_, Tree.selectsInto_toSyntax r⟩
      rw [Tree.Query.toSyntax_parts]
      rfl
  | relation t => exact allowed.relations t inside
  | call name arguments distinct =>
      intro i last
      obtain rfl := Option.some.inj last
      exact allowed.calls name arguments distinct inside

theorem checkVisits_tree (allowed : p.AllowsTree q) :
    checkVisits p q.toSyntax.visits = .ok () := by
  have whole : q.toSyntax.visits = .query q.toSyntax :: _ := Sql.Node.visits_eq (.query q.toSyntax)
  refine checkVisits_iff.mpr fun before v after split => ?_
  have met : v ∈ q.toSyntax.visits := by simp [split]
  obtain ⟨place, inside, meets⟩ := Tree.query_meets met
  have own := meets_allowed allowed inside meets
  cases before with
  | nil =>
      obtain ⟨rfl, -⟩ := List.cons.inj (whole.symm.trans split)
      exact own
  | cons u before =>
      obtain ⟨rfl, -⟩ := List.cons.inj (whole.symm.trans split)
      refine own.mono fun name defined => ?_
      rw [← cteNames_toSyntax] at defined
      exact List.mem_append_left _ defined

theorem isSelect_toSyntax (select : q.setOperation = none) : isSelect q.toSyntax = true := by
  have body : q.partsSyntax.body = .select q.selectSyntax.select := Tree.toSyntax_select select
  rw [Tree.Query.toSyntax_parts, Sql.Grammar.QueryParts.query, body]
  rfl

theorem trim_sql (readable : q.isReadable = true) (select : q.setOperation = none) :
    (Text.trim q.sql).isEmpty = false := by
  have legible := (Tree.neatSteps.queries readable).legible
  have scanned : Sql.lex q.sql = some (q.tokens.flatMap (Output.Token.lexemes false)) := by
    rw [Sql.lex, Tree.Query.sql, Output.toList_sqlText legible.plain]
    exact Sql.lexChars_of_lexes (Output.lexes_tokens legible)
  have starts : Output.Token.mark .select ∈ q.tokens := by
    rw [Tree.Query.tokens_parts, Tree.Query.bodyTokens, select]
    exact List.mem_append_right _ (List.mem_append_left _ List.mem_cons_self)
  exact trim_isEmpty scanned ⟨_, List.mem_flatMap.mpr ⟨_, starts, List.mem_cons_self⟩, rfl⟩

/-- The text of a SELECT that can be read back is accepted where the policy allows what the tree
reads and calls. -/
theorem check_sql (readable : q.isReadable = true) (depth : q.depth ≤ 48)
    (select : q.setOperation = none) (allowed : p.AllowsTree q) :
    check p q.sql = .ok ⟨trimText q.sql, hasLimit q.toSyntax.visits, q.toSyntax⟩ := by
  have read : Sql.statements? (Sql.Placeholder.mask q.sql) = some [.query q.toSyntax] :=
    Tree.statements?_sql readable depth
  have statement : checkStatement p (.query q.toSyntax) = .ok q.toSyntax := by
    rw [checkStatement, Sql.Statement.visits, checkVisits_tree allowed]
    exact if_pos (isSelect_toSyntax select)
  rw [check, trim_sql readable select, read]
  simp only [statement]
  rfl

end ReportSql.Gate
