import Mathlib.Logic.Relation
import ReportSql.Sql.Walk

/-!
Constructs of a statement by the constructs directly inside them. A walk over the syntax meets
exactly the constructs that are part of it at some depth.
-/
namespace ReportSql.Sql

/-- A construct that can be part of a statement. -/
inductive Node where
  | expr (expr : Expr)
  | query (query : Query)
  | body (body : Body)
  | select (select : Select)
  | table (table : Table)

/-! ### Parts -/

def Piece.node? : Piece → Option Node
  | .text _ => none
  | .expr e => some (.expr e)
  | .query q => some (.query q)
  | .table t => some (.table t)

def Argument.nodes : Argument → List Node
  | .expr e => [.expr e]
  | .star => []
  | .phrase pieces => pieces.filterMap Piece.node?

def SelectItem.expr? : SelectItem → Option Expr
  | .expr e _ => some e
  | .wildcard _ => none

def Join.nodes (j : Join) : List Node :=
  .table j.table :: j.matching.filterMap Piece.node? ++ j.condition.toList.map .expr

def Source.nodes (s : Source) : List Node := .table s.table :: s.joins.flatMap Join.nodes

def Expr.parts : Expr → List Node
  | .binary left _ right => [.expr left, .expr right]
  | .unary _ e | .nested e | .isNull e _ | .isTruth e _ _ | .cast _ e _ _ | .interval e _ =>
    [.expr e]
  | .inList operand items _ => .expr operand :: items.map .expr
  | .inQuery operand query _ => [.expr operand, .query query]
  | .between operand low high _ => [.expr operand, .expr low, .expr high]
  | .like operand pattern _ _ _ _ => [.expr operand, .expr pattern]
  | .trim _ characters operand => .expr operand :: characters.toList.map .expr
  | .call _ _ _ arguments clauses within filter _ window =>
    arguments.flatMap Argument.nodes ++ clauses.filterMap Piece.node? ++ filter.toList.map .expr
      ++ window.filterMap Piece.node? ++ within.filterMap Piece.node?
  | .case operand branches otherwise =>
    operand.toList.map .expr ++ branches.map (.expr ∘ CaseBranch.condition)
      ++ branches.map (.expr ∘ CaseBranch.result) ++ otherwise.toList.map .expr
  | .exists query _ | .subquery query => [.query query]
  | .phrase pieces => pieces.filterMap Piece.node?
  | .name _ | .wildcard _ | .value _ | .typed _ _ => []

def Query.parts (q : Query) : List Node :=
  q.ctes.map (.query ∘ Cte.query) ++ [.body q.body] ++ q.orderBy.map (.expr ∘ OrderItem.expr)
    ++ q.limit.toList.map .expr ++ q.offset.toList.map .expr

def Body.parts : Body → List Node
  | .select s => [.select s]
  | .query q => [.query q]
  | .setOperation left _ _ right => [.body left, .body right]
  | .values pieces => pieces.filterMap Piece.node?
  | .table _ | .change _ _ => []

def Select.parts (s : Select) : List Node :=
  s.distinctKeys.map .expr ++ s.top.filterMap Piece.node?
    ++ (s.items.filterMap SelectItem.expr?).map .expr ++ s.sources.flatMap Source.nodes
    ++ s.views.filterMap Piece.node? ++ s.condition.toList.map .expr ++ s.groupBy.map .expr
    ++ s.sorting.filterMap Piece.node? ++ s.having.toList.map .expr
    ++ s.windows.filterMap Piece.node? ++ s.qualify.toList.map .expr

def Table.parts : Table → List Node
  | .named _ _ arguments _ _ hints => arguments.flatMap Argument.nodes ++ hints.map .expr
  | .derived _ query _ => [.query query]
  | .function _ arguments _ => arguments.flatMap Argument.nodes
  | .joined source _ => source.nodes
  | .phrase pieces => pieces.filterMap Piece.node?

namespace Node

/-- The constructs directly inside a construct, in the order of a walk. -/
def parts : Node → List Node
  | expr e => e.parts
  | query q => q.parts
  | body b => b.parts
  | select s => s.parts
  | table t => t.parts

/-- What a walk meets in a construct. -/
def visits : Node → List Visit
  | expr e => e.visits
  | query q => q.visits
  | body b => b.visits
  | select s => s.visits
  | table t => t.visits

/-- What a walk meets at a construct itself. -/
def own : Node → List Visit
  | expr (.call name _ _ _ _ _ _ _ _) => [.call name]
  | query q => [.query q]
  | body (.change keyword _) => [.change keyword]
  | table (.named name _ _ _ _ _) => [.relation name]
  | _ => []

theorem query_mem_own {n : Node} {q : Query} : .query q ∈ n.own ↔ n = .query q := by
  unfold own
  split <;> simp_all [eq_comm]

/-- Whether a construct is the body of a query or a part of one, and no construct of its own. -/
def isInner : Node → Bool
  | body _ | select _ => true
  | _ => false

/-- Whether a construct is part of another one, at any depth. -/
def Within (whole part : Node) : Prop := Relation.ReflTransGen (fun n m => m ∈ n.parts) whole part

end Node

/-! ### The walk -/

theorem optionVisits_eq (e : Option Expr) :
    optionVisits e = (e.toList.map Node.expr).flatMap Node.visits := by
  cases e <;> simp [optionVisits, Node.visits]

theorem exprVisits_eq (es : List Expr) :
    exprVisits es = (es.map Node.expr).flatMap Node.visits := by
  induction es with
  | nil => rfl
  | cons e rest ih => simp only [exprVisits, ih, List.map_cons, List.flatMap_cons, Node.visits]

theorem conditionVisits_eq (bs : List CaseBranch) :
    conditionVisits bs = (bs.map (Node.expr ∘ CaseBranch.condition)).flatMap Node.visits := by
  induction bs with
  | nil => rfl
  | cons b rest ih =>
      obtain ⟨_, _⟩ := b
      simp only [conditionVisits, ih, List.map_cons, List.flatMap_cons, Function.comp_apply,
        Node.visits]

theorem resultVisits_eq (bs : List CaseBranch) :
    resultVisits bs = (bs.map (Node.expr ∘ CaseBranch.result)).flatMap Node.visits := by
  induction bs with
  | nil => rfl
  | cons b rest ih =>
      obtain ⟨_, _⟩ := b
      simp only [resultVisits, ih, List.map_cons, List.flatMap_cons, Function.comp_apply,
        Node.visits]

theorem piecesVisits_eq (ps : List Piece) :
    piecesVisits ps = (ps.filterMap Piece.node?).flatMap Node.visits := by
  induction ps with
  | nil => rfl
  | cons p rest ih =>
      cases p <;>
        simp [piecesVisits, ih, Piece.visits, Piece.node?, List.filterMap_cons, Node.visits]

theorem argumentVisits_eq (xs : List Argument) :
    argumentVisits xs = (xs.flatMap Argument.nodes).flatMap Node.visits := by
  induction xs with
  | nil => rfl
  | cons a rest ih =>
      cases a <;>
        simp [argumentVisits, ih, Argument.visits, Argument.nodes, Node.visits, piecesVisits_eq]

theorem cteVisits_eq (cs : List Cte) :
    cteVisits cs = (cs.map (Node.query ∘ Cte.query)).flatMap Node.visits := by
  induction cs with
  | nil => rfl
  | cons c rest ih =>
      obtain ⟨_, _, _, _⟩ := c
      simp only [cteVisits, ih, List.map_cons, List.flatMap_cons, Function.comp_apply, Node.visits]

theorem orderVisits_eq (os : List OrderItem) :
    orderVisits os = (os.map (Node.expr ∘ OrderItem.expr)).flatMap Node.visits := by
  induction os with
  | nil => rfl
  | cons o rest ih =>
      obtain ⟨_, _, _⟩ := o
      simp only [orderVisits, ih, List.map_cons, List.flatMap_cons, Function.comp_apply,
        Node.visits]

theorem itemVisits_eq (is : List SelectItem) :
    itemVisits is = ((is.filterMap SelectItem.expr?).map Node.expr).flatMap Node.visits := by
  induction is with
  | nil => rfl
  | cons i rest ih =>
      cases i <;> simp [itemVisits, ih, SelectItem.expr?, List.filterMap_cons, Node.visits]

theorem joinVisits_eq (js : List Join) :
    joinVisits js = (js.flatMap Join.nodes).flatMap Node.visits := by
  induction js with
  | nil => rfl
  | cons j rest ih =>
      obtain ⟨_, _, _, _, _, _⟩ := j
      simp [joinVisits, ih, Join.nodes, Node.visits, piecesVisits_eq, optionVisits_eq]

theorem Source.visits_eq (s : Source) : s.visits = s.nodes.flatMap Node.visits := by
  obtain ⟨table, joins⟩ := s
  simp [Source.visits, Source.nodes, Node.visits, joinVisits_eq]

theorem sourceVisits_eq (ss : List Source) :
    sourceVisits ss = (ss.flatMap Source.nodes).flatMap Node.visits := by
  induction ss with
  | nil => rfl
  | cons s rest ih => simp [sourceVisits, ih, Source.visits_eq]

/-- A walk meets a construct itself before the constructs inside it. -/
theorem Node.visits_eq (n : Node) : n.visits = n.own ++ n.parts.flatMap Node.visits := by
  cases n with
  | expr e =>
      cases e <;> simp [Node.visits, Expr.visits, Node.own, Node.parts, Expr.parts, exprVisits_eq,
        optionVisits_eq, argumentVisits_eq, piecesVisits_eq, conditionVisits_eq, resultVisits_eq]
  | query q =>
      obtain ⟨_, _, _, _, _, _, _, _, _, _⟩ := q
      simp [Node.visits, Query.visits, Node.own, Node.parts, Query.parts, cteVisits_eq,
        orderVisits_eq, optionVisits_eq]
  | body b =>
      cases b <;> simp [Node.visits, Body.visits, Node.own, Node.parts, Body.parts,
        piecesVisits_eq]
  | select s =>
      obtain ⟨_, _, _, _, _, _, _, _, _, _, _, _, _, _, _⟩ := s
      simp [Node.visits, Select.visits, Node.own, Node.parts, Select.parts, exprVisits_eq,
        optionVisits_eq, piecesVisits_eq, itemVisits_eq, sourceVisits_eq]
  | table t =>
      cases t <;> simp [Node.visits, Table.visits, Node.own, Node.parts, Table.parts,
        exprVisits_eq, argumentVisits_eq, piecesVisits_eq, Source.visits_eq]

/-! ### Bodies -/

theorem pieces_outer {ps : List Piece} {m : Node} (h : m ∈ ps.filterMap Piece.node?) :
    m.isInner = false := by
  obtain ⟨p, -, hm⟩ := List.mem_filterMap.mp h
  cases p <;> cases hm <;> rfl

theorem exprs_outer {α : Type} {f : α → Expr} {xs : List α} {m : Node}
    (h : m ∈ xs.map (Node.expr ∘ f)) : m.isInner = false := by
  obtain ⟨_, -, rfl⟩ := List.mem_map.mp h
  rfl

theorem arguments_outer {xs : List Argument} {m : Node} (h : m ∈ xs.flatMap Argument.nodes) :
    m.isInner = false := by
  obtain ⟨a, -, hm⟩ := List.mem_flatMap.mp h
  cases a with
  | expr e =>
      obtain rfl := List.mem_singleton.mp hm
      rfl
  | star => cases hm
  | phrase ps => exact pieces_outer hm

theorem source_outer {s : Source} {m : Node} (h : m ∈ s.nodes) : m.isInner = false := by
  simp only [Source.nodes, Join.nodes, List.cons_append, List.mem_cons, List.mem_flatMap,
    List.mem_append] at h
  rcases h with rfl | ⟨j, -, rfl | h | h⟩
  · rfl
  · rfl
  · exact pieces_outer h
  · exact exprs_outer (f := id) h

theorem expr_outer {e : Expr} {m : Node} (h : m ∈ e.parts) : m.isInner = false := by
  cases e with
  | name _ | wildcard _ | value _ | typed _ _ => cases h
  | phrase ps => exact pieces_outer h
  | inList operand items _ =>
      rcases List.mem_cons.mp h with rfl | h
      · rfl
      · exact exprs_outer (f := id) h
  | trim _ characters operand =>
      rcases List.mem_cons.mp h with rfl | h
      · rfl
      · exact exprs_outer (f := id) h
  | call _ _ _ arguments clauses within filter _ window =>
      simp only [Expr.parts, List.mem_append] at h
      rcases h with (((h | h) | h) | h) | h
      · exact arguments_outer h
      · exact pieces_outer h
      · exact exprs_outer (f := id) h
      · exact pieces_outer h
      · exact pieces_outer h
  | case operand branches otherwise =>
      simp only [Expr.parts, List.mem_append] at h
      rcases h with ((h | h) | h) | h
      · exact exprs_outer (f := id) h
      · exact exprs_outer h
      · exact exprs_outer h
      · exact exprs_outer (f := id) h
  | _ =>
      simp only [Expr.parts, List.mem_cons, List.not_mem_nil, or_false] at h
      rcases h with rfl | rfl | rfl <;> rfl

theorem select_outer {s : Select} {m : Node} (h : m ∈ s.parts) : m.isInner = false := by
  simp only [Select.parts, List.mem_append] at h
  rcases h with (((((((((h | h) | h) | h) | h) | h) | h) | h) | h) | h) | h
  · exact exprs_outer (f := id) h
  · exact pieces_outer h
  · exact exprs_outer (f := id) h
  · obtain ⟨source, -, hm⟩ := List.mem_flatMap.mp h
    exact source_outer hm
  · exact pieces_outer h
  · exact exprs_outer (f := id) h
  · exact exprs_outer (f := id) h
  · exact pieces_outer h
  · exact exprs_outer (f := id) h
  · exact pieces_outer h
  · exact exprs_outer (f := id) h

theorem table_outer {t : Table} {m : Node} (h : m ∈ t.parts) : m.isInner = false := by
  cases t with
  | named _ _ arguments _ _ hints =>
      rcases List.mem_append.mp h with h | h
      · exact arguments_outer h
      · exact exprs_outer (f := id) h
  | derived _ query _ =>
      obtain rfl := List.mem_singleton.mp h
      rfl
  | function _ arguments _ => exact arguments_outer h
  | joined source _ => exact source_outer h
  | phrase ps => exact pieces_outer h

/-- A query has one part that is no construct of its own. -/
theorem query_inner {q : Query} {m : Node} (h : m ∈ q.parts) (inner : m.isInner = true) :
    m = .body q.body := by
  simp only [Query.parts, List.mem_append, List.mem_singleton] at h
  rcases h with (((h | rfl) | h) | h) | h
  · obtain ⟨_, -, rfl⟩ := List.mem_map.mp h
    cases inner
  · rfl
  · cases inner.symm.trans (exprs_outer h)
  · cases inner.symm.trans (exprs_outer (f := id) h)
  · cases inner.symm.trans (exprs_outer (f := id) h)

theorem body_inner {b : Body} {m : Node} (h : m ∈ b.parts) (inner : m.isInner = true) :
    (∃ s, b = .select s ∧ m = .select s) ∨
      ∃ left op quantifier right, b = .setOperation left op quantifier right ∧
        (m = .body left ∨ m = .body right) := by
  cases b with
  | select s => exact .inl ⟨s, rfl, List.mem_singleton.mp h⟩
  | query q =>
      obtain rfl := List.mem_singleton.mp h
      cases inner
  | setOperation left op quantifier right =>
      exact .inr ⟨left, op, quantifier, right, rfl, by simpa [Body.parts] using h⟩
  | values ps => cases inner.symm.trans (pieces_outer h)
  | table _ | change _ _ => cases h

theorem Node.part_inner {n m : Node} (h : m ∈ n.parts) (inner : m.isInner = true) :
    (∃ q, n = .query q) ∨ ∃ b, n = .body b := by
  cases n with
  | query q => exact .inl ⟨q, rfl⟩
  | body b => exact .inr ⟨b, rfl⟩
  | expr _ => cases inner.symm.trans (expr_outer h)
  | select _ => cases inner.symm.trans (select_outer h)
  | table _ => cases inner.symm.trans (table_outer h)

/-! ### All that is met -/

theorem sizeOf_exprs {es : List Expr} {m : Node} (h : m ∈ es.map Node.expr) :
    sizeOf m ≤ sizeOf es := by
  obtain ⟨e, he, rfl⟩ := List.mem_map.mp h
  have := List.sizeOf_lt_of_mem he
  simp only [Node.expr.sizeOf_spec]
  omega

theorem sizeOf_option {o : Option Expr} {m : Node} (h : m ∈ o.toList.map Node.expr) :
    sizeOf m ≤ sizeOf o := by
  cases o with
  | none => cases h
  | some e =>
      obtain rfl := List.mem_singleton.mp h
      simp

theorem sizeOf_pieces {ps : List Piece} {m : Node} (h : m ∈ ps.filterMap Piece.node?) :
    sizeOf m ≤ sizeOf ps := by
  obtain ⟨p, hp, hm⟩ := List.mem_filterMap.mp h
  have own : sizeOf m = sizeOf p := by cases p <;> cases hm <;> simp
  have := List.sizeOf_lt_of_mem hp
  omega

theorem sizeOf_arguments {xs : List Argument} {m : Node} (h : m ∈ xs.flatMap Argument.nodes) :
    sizeOf m ≤ sizeOf xs := by
  obtain ⟨a, ha, hm⟩ := List.mem_flatMap.mp h
  have := List.sizeOf_lt_of_mem ha
  cases a with
  | expr e =>
      obtain rfl := List.mem_singleton.mp hm
      simp only [Node.expr.sizeOf_spec, Argument.expr.sizeOf_spec] at *
      omega
  | star => cases hm
  | phrase ps =>
      have := sizeOf_pieces hm
      simp only [Argument.phrase.sizeOf_spec] at *
      omega

theorem sizeOf_source {s : Source} {m : Node} (h : m ∈ s.nodes) : sizeOf m ≤ sizeOf s := by
  obtain ⟨table, joins⟩ := s
  simp only [Source.nodes, List.mem_cons, List.mem_flatMap] at h
  simp only [Source.mk.sizeOf_spec]
  rcases h with rfl | ⟨j, hj, hm⟩
  · simp
  · have := List.sizeOf_lt_of_mem hj
    obtain ⟨_, _, _, matching, _, condition⟩ := j
    simp only [Join.nodes, List.cons_append, List.mem_cons, List.mem_append] at hm
    simp only [Join.mk.sizeOf_spec] at this
    rcases hm with rfl | hm | hm
    · simp only [Node.table.sizeOf_spec]
      omega
    · have := sizeOf_pieces hm
      omega
    · have := sizeOf_option hm
      omega

theorem sizeOf_query {q : Query} {m : Node} (h : m ∈ q.parts) : sizeOf m ≤ sizeOf q := by
  obtain ⟨_, ctes, body, orderBy, limit, offset, _, _, _, _⟩ := q
  simp only [Query.parts, List.mem_append, List.mem_singleton] at h
  simp only [Query.mk.sizeOf_spec]
  rcases h with (((h | rfl) | h) | h) | h
  · obtain ⟨⟨_, _, _, _⟩, hc, rfl⟩ := List.mem_map.mp h
    have := List.sizeOf_lt_of_mem hc
    simp only [Function.comp_apply, Node.query.sizeOf_spec, Cte.mk.sizeOf_spec] at *
    omega
  · simp only [Node.body.sizeOf_spec]
    omega
  · obtain ⟨⟨_, _, _⟩, ho, rfl⟩ := List.mem_map.mp h
    have := List.sizeOf_lt_of_mem ho
    simp only [Function.comp_apply, Node.expr.sizeOf_spec, OrderItem.mk.sizeOf_spec] at *
    omega
  · have := sizeOf_option h
    omega
  · have := sizeOf_option h
    omega

theorem sizeOf_select {s : Select} {m : Node} (h : m ∈ s.parts) : sizeOf m ≤ sizeOf s := by
  obtain ⟨_, keys, top, items, _, sources, views, condition, _, groupBy, sorting, having, windows,
    qualify, _⟩ := s
  simp only [Select.parts, List.mem_append] at h
  simp only [Select.mk.sizeOf_spec]
  rcases h with (((((((((h | h) | h) | h) | h) | h) | h) | h) | h) | h) | h
  · have := sizeOf_exprs h
    omega
  · have := sizeOf_pieces h
    omega
  · obtain ⟨e, he, rfl⟩ := List.mem_map.mp h
    obtain ⟨i, hi, own⟩ := List.mem_filterMap.mp he
    have := List.sizeOf_lt_of_mem hi
    cases i with
    | expr e _ =>
        cases own
        simp only [Node.expr.sizeOf_spec, SelectItem.expr.sizeOf_spec] at *
        omega
    | wildcard _ => cases own
  · obtain ⟨source, hs, hm⟩ := List.mem_flatMap.mp h
    have := List.sizeOf_lt_of_mem hs
    have := sizeOf_source hm
    omega
  · have := sizeOf_pieces h
    omega
  · have := sizeOf_option h
    omega
  · have := sizeOf_exprs h
    omega
  · have := sizeOf_pieces h
    omega
  · have := sizeOf_option h
    omega
  · have := sizeOf_pieces h
    omega
  · have := sizeOf_option h
    omega

theorem sizeOf_expr {e : Expr} {m : Node} (h : m ∈ e.parts) : sizeOf m ≤ sizeOf e := by
  cases e with
  | name _ | wildcard _ | value _ | typed _ _ => cases h
  | phrase ps =>
      have := sizeOf_pieces h
      simp only [Expr.phrase.sizeOf_spec]
      omega
  | inList operand items _ =>
      simp only [Expr.parts, List.mem_cons] at h
      simp only [Expr.inList.sizeOf_spec]
      rcases h with rfl | h
      · simp only [Node.expr.sizeOf_spec]
        omega
      · have := sizeOf_exprs h
        omega
  | trim _ characters operand =>
      simp only [Expr.parts, List.mem_cons] at h
      simp only [Expr.trim.sizeOf_spec]
      rcases h with rfl | h
      · simp only [Node.expr.sizeOf_spec]
        omega
      · have := sizeOf_option h
        omega
  | call _ _ _ arguments clauses within filter _ window =>
      simp only [Expr.parts, List.mem_append] at h
      simp only [Expr.call.sizeOf_spec]
      rcases h with (((h | h) | h) | h) | h
      · have := sizeOf_arguments h
        omega
      · have := sizeOf_pieces h
        omega
      · have := sizeOf_option h
        omega
      · have := sizeOf_pieces h
        omega
      · have := sizeOf_pieces h
        omega
  | case operand branches otherwise =>
      have branch {f : CaseBranch → Expr} (hf : ∀ b, sizeOf (f b) < sizeOf b)
          (h : m ∈ branches.map (Node.expr ∘ f)) : sizeOf m ≤ sizeOf branches := by
        obtain ⟨b, hb, rfl⟩ := List.mem_map.mp h
        have := List.sizeOf_lt_of_mem hb
        have := hf b
        simp only [Function.comp_apply, Node.expr.sizeOf_spec]
        omega
      simp only [Expr.parts, List.mem_append] at h
      simp only [Expr.case.sizeOf_spec]
      rcases h with ((h | h) | h) | h
      · have := sizeOf_option h
        omega
      · have := branch (fun ⟨_, _⟩ => by simp only [CaseBranch.mk.sizeOf_spec]; omega) h
        omega
      · have := branch (fun ⟨_, _⟩ => by simp only [CaseBranch.mk.sizeOf_spec]; omega) h
        omega
      · have := sizeOf_option h
        omega
  | _ =>
      simp only [Expr.parts, List.mem_cons, List.not_mem_nil, or_false] at h
      rcases h with rfl | rfl | rfl <;> simp <;> omega

theorem sizeOf_body {b : Body} {m : Node} (h : m ∈ b.parts) : sizeOf m ≤ sizeOf b := by
  cases b with
  | values ps =>
      have := sizeOf_pieces h
      simp only [Body.values.sizeOf_spec]
      omega
  | table _ | change _ _ => cases h
  | _ =>
      simp only [Body.parts, List.mem_cons, List.not_mem_nil, or_false] at h
      rcases h with rfl | rfl <;> simp <;> omega

theorem sizeOf_table {t : Table} {m : Node} (h : m ∈ t.parts) : sizeOf m ≤ sizeOf t := by
  cases t with
  | named _ _ arguments _ _ hints =>
      simp only [Table.parts, List.mem_append] at h
      simp only [Table.named.sizeOf_spec]
      rcases h with h | h
      · have := sizeOf_arguments h
        omega
      · have := sizeOf_exprs h
        omega
  | derived _ _ _ =>
      obtain rfl := List.mem_singleton.mp h
      simp only [Node.query.sizeOf_spec, Table.derived.sizeOf_spec]
      omega
  | function _ arguments _ =>
      have := sizeOf_arguments h
      simp only [Table.function.sizeOf_spec]
      omega
  | joined source _ =>
      have := sizeOf_source h
      simp only [Table.joined.sizeOf_spec]
      omega
  | phrase ps =>
      have := sizeOf_pieces h
      simp only [Table.phrase.sizeOf_spec]
      omega

namespace Node

theorem sizeOf_part {n m : Node} (h : m ∈ n.parts) : sizeOf m < sizeOf n := by
  cases n with
  | expr e => exact Nat.lt_of_le_of_lt (sizeOf_expr h) (by simp)
  | query q => exact Nat.lt_of_le_of_lt (sizeOf_query h) (by simp)
  | body b => exact Nat.lt_of_le_of_lt (sizeOf_body h) (by simp)
  | select s => exact Nat.lt_of_le_of_lt (sizeOf_select h) (by simp)
  | table t => exact Nat.lt_of_le_of_lt (sizeOf_table h) (by simp)

/-- Induction over constructs, which reaches everything inside one. -/
theorem induct {P : Node → Prop} (step : ∀ n : Node, (∀ m ∈ n.parts, P m) → P n) (n : Node) :
    P n :=
  step n fun m hm =>
    have := sizeOf_part hm
    induct step m
termination_by sizeOf n

/-- A walk over a construct meets what is met at its parts, and nothing else. -/
theorem mem_visits {n : Node} {v : Visit} : v ∈ n.visits ↔ ∃ m, Within n m ∧ v ∈ m.own := by
  constructor
  · induction n using induct with
    | step n ih =>
        intro h
        rw [visits_eq, List.mem_append, List.mem_flatMap] at h
        rcases h with own | ⟨m, hm, hv⟩
        · exact ⟨n, .refl, own⟩
        · obtain ⟨part, within, own⟩ := ih m hm hv
          exact ⟨part, .head hm within, own⟩
  · rintro ⟨m, within, own⟩
    induction within using Relation.ReflTransGen.head_induction_on with
    | refl =>
        rw [visits_eq]
        exact List.mem_append_left _ own
    | head hm _ ih =>
        rw [visits_eq]
        exact List.mem_append_right _ (List.mem_flatMap.mpr ⟨_, hm, ih⟩)

end Node

end ReportSql.Sql
