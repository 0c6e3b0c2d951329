import Mathlib.Tactic.Abel
import Mathlib.Algebra.Order.Group.Multiset
import ReportSql.Proofs.EachQuery
import ReportSql.Proofs.ListedPlaces
import ReportSql.Proofs.TreeInduction

/-!
Every place of a tree where an expression stands. The expressions of all queries nested in a query,
each with the expressions inside it, are those that stand somewhere in the tree, once for each
place.
-/
namespace ReportSql.Tree

/-! ### The parts of a tree -/

/-- What a tree is made of. -/
inductive Part where
  | query (query : Query)
  | expr (expr : Expr)
  | branch (branch : Branch)
  | cte (cte : Cte)
  | item (item : SelectItem)
  | fromItem (item : FromItem)
  | join (join : Join)
  | source (source : Source)
  | order (item : OrderItem)
  | operation (operation : SetOperation)

/-- The parts directly inside a part, field after field. -/
def Part.parts : Part → List Part
  | .query q =>
    q.ctes.map .cte ++ q.items.map .item ++ q.sources.map .fromItem ++ q.condition.toList.map .expr
      ++ q.groupBy.map .expr ++ q.having.toList.map .expr ++ q.orderBy.map .order
      ++ q.setOperation.toList.map .operation
  | .cte c => [.query c.query]
  | .item i => [.expr i.expr]
  | .fromItem f => .source f.source :: f.joins.map .join
  | .join j => .source j.source :: j.condition.toList.map .expr
  | .source s => match s with
    | .derived inner _ => [.query inner]
    | .named _ | .raw _ => []
  | .order o => [.expr o.expr]
  | .operation o => [.query o.left, .query o.right]
  | .branch b => [.expr b.condition, .expr b.result]
  | .expr e => match e with
    | .binary left _ right => [.expr left, .expr right]
    | .unary _ operand | .isNull operand _ | .isTruth operand _ _ | .cast operand _
    | .paren operand => [.expr operand]
    | .call _ arguments _ => arguments.map .expr
    | .case operand branches otherwise =>
      operand.toList.map .expr ++ branches.map .branch ++ otherwise.toList.map .expr
    | .subquery inner | .exists inner _ => [.query inner]
    | .inList operand values _ => .expr operand :: values.map .expr
    | .inQuery operand inner _ => [.expr operand, .query inner]
    | .between operand low high _ => [.expr operand, .expr low, .expr high]
    | .column _ _ | .literal _ | .param _ | .interval _ | .star _ | .raw _ => []

/-- The part at an address. -/
def Part.at? : Part → Address → Option Part
  | p, [] => some p
  | p, i :: a => p.parts[i]?.bind fun x => x.at? a

/-- Whether an expression stands at an address in a part of a tree. -/
def Part.HasExpr (p : Part) (a : Address) (e : Expr) : Prop := p.at? a = some (.expr e)

variable {p : Part} {e : Expr} {q : Query}

theorem hasExpr_cons {i : Nat} {a : Address} :
    p.HasExpr (i :: a) e ↔ ∃ x, p.parts[i]? = some x ∧ x.HasExpr a e :=
  Option.bind_eq_some_iff

/-! ### What a walk lists -/

/-- The expressions of a query and of the queries nested in it, each with those inside it. -/
def Query.walked (q : Query) : List Expr := q.queries.flatMap fun b => b.exprs.flatMap Expr.nodes

/-- An expression with those inside it, and the expressions of the queries inside it. -/
def Expr.walked (e : Expr) : List Expr := e.nodes ++ e.children.flatMap Query.walked

def Source.walked (s : Source) : List Expr := s.query?.toList.flatMap Query.walked

def Part.walked : Part → List Expr
  | .query q => q.walked
  | .expr e => e.walked
  | .cte c => c.query.walked
  | .item i => i.expr.walked
  | .fromItem f =>
    f.source.walked ++ f.joins.flatMap fun j =>
      j.source.walked ++ j.condition.toList.flatMap Expr.walked
  | .join j => j.source.walked ++ j.condition.toList.flatMap Expr.walked
  | .source s => s.walked
  | .order o => o.expr.walked
  | .operation o => o.left.walked ++ o.right.walked
  | .branch b => b.condition.walked ++ b.result.walked

theorem Query.walked_eq (q : Query) :
    q.walked = q.exprs.flatMap Expr.nodes ++ q.children.flatMap Query.walked := by
  rw [Query.walked, q.queries_eq, List.flatMap_cons, List.flatMap_assoc]
  rfl

/-- An expression, then all that stands in what is directly inside it. -/
theorem Expr.walked_perm (e : Expr) :
    (e :: (Part.expr e).parts.flatMap Part.walked).Perm e.walked := by
  have parts : (Part.expr e).parts.flatMap Part.walked =
      e.parts.flatMap Expr.walked ++ e.query?.toList.flatMap Query.walked := by
    cases e with
    | case o bs e =>
        simp [Part.parts, Expr.parts, Expr.query?, Part.walked, List.flatMap_map, List.flatMap_assoc,
          Branch.sides]
    | _ => simp [Part.parts, Expr.parts, Expr.query?, Part.walked, List.flatMap_map]
  have split : e.walked = e :: (e.parts.flatMap Expr.nodes ++ (e.query?.toList.flatMap Query.walked
      ++ e.parts.flatMap fun x => x.children.flatMap Query.walked)) := by
    rw [Expr.walked, e.nodes_eq, e.children_eq, List.flatMap_append, List.flatMap_assoc]
    rfl
  rw [parts, split]
  refine .cons e ?_
  have inside := List.flatMap_append_perm e.parts Expr.nodes fun x => x.children.flatMap Query.walked
  refine (inside.symm.append_right _).trans ?_
  rw [List.append_assoc]
  exact List.perm_append_comm.append_left _

/-- The sources of a source with its joins, then the conditions of the joins. -/
theorem fromItem_perm (f : FromItem) :
    (Part.fromItem f).walked.Perm
      (f.allSources.flatMap Source.walked ++
        (f.joins.filterMap Join.condition).flatMap Expr.walked) := by
  have joins := List.flatMap_append_perm f.joins (fun j => j.source.walked) fun j =>
    j.condition.toList.flatMap Expr.walked
  simpa [Part.walked, FromItem.allSources, List.filterMap_eq_flatMap_toList, List.flatMap_map,
    List.flatMap_assoc] using joins.symm.append_left f.source.walked

theorem sources_perm (fs : List FromItem) :
    (fs.flatMap fun f => (Part.fromItem f).walked).Perm
      (((fs.flatMap FromItem.allSources).filterMap Source.query?).flatMap Query.walked ++
        (fs.flatMap fun f => f.joins.filterMap Join.condition).flatMap Expr.walked) := by
  have split := List.flatMap_append_perm fs (fun f => f.allSources.flatMap Source.walked) fun f =>
    (f.joins.filterMap Join.condition).flatMap Expr.walked
  have sources : (fs.flatMap FromItem.allSources).filterMap Source.query? =
      fs.flatMap fun f => f.allSources.flatMap fun s => s.query?.toList := by
    rw [List.filterMap_eq_flatMap_toList, List.flatMap_assoc]
  rw [sources, List.flatMap_assoc, List.flatMap_assoc]
  simp only [List.flatMap_assoc]
  exact (List.Perm.flatMap_left fs fun f _ => fromItem_perm f).trans split.symm

/-- What a query is made of is its expressions and the queries that stand in none. -/
theorem Query.parts_perm (q : Query) :
    ((Part.query q).parts.flatMap Part.walked).Perm
      (q.exprs.flatMap Expr.walked ++ q.operands.flatMap Query.walked) := by
  have sources := sources_perm q.sources
  have sides : q.setOperation.toList.flatMap (fun o => (Part.operation o).walked) =
      (q.setOperation.toList.flatMap SetOperation.sides).flatMap Query.walked := by
    cases q.setOperation <;> simp [Part.walked, SetOperation.sides]
  simp only [Part.parts, Query.exprs, Query.operands, Query.allSources, List.flatMap_append,
    List.flatMap_map, sides, ← Multiset.coe_eq_coe, ← Multiset.coe_add] at sources ⊢
  rw [sources]
  simp only [Part.walked]
  abel

/-- All that stands in what a query is directly made of. -/
theorem Query.walked_perm (q : Query) :
    ((Part.query q).parts.flatMap Part.walked).Perm q.walked := by
  have exprs : (q.exprs.flatMap Expr.walked).Perm (q.exprs.flatMap Expr.nodes ++
      (q.exprs.flatMap Expr.children).flatMap Query.walked) := by
    rw [List.flatMap_assoc]
    exact (List.flatMap_append_perm ..).symm
  refine q.parts_perm.trans ((exprs.append_right _).trans ?_)
  simp only [q.walked_eq, Query.children, Query.operands, List.flatMap_append,
    ← Multiset.coe_eq_coe, ← Multiset.coe_add]
  abel

/-! ### Once for each place -/

/-- Whether the walk of a part lists the expressions that stand in it, once for each place. -/
def Part.Listed (p : Part) : Prop := ListsOnce p.HasExpr p.walked

theorem listsOnce_part (other : ∀ e, p ≠ .expr e) (h : ∀ x ∈ p.parts, x.Listed) :
    ListsOnce p.HasExpr (p.parts.flatMap Part.walked) := by
  refine (listsOnce_parts h).congr fun a e => ?_
  cases a with
  | nil =>
      constructor
      · rintro ⟨_, _, _, ⟨⟩, -⟩
      · exact fun own => absurd (Option.some.inj own) (other e)
  | cons i a =>
      rw [hasExpr_cons]
      constructor
      · rintro ⟨_, _, x, ⟨rfl, rfl⟩, part, own⟩
        exact ⟨x, part, own⟩
      · rintro ⟨x, part, own⟩
        exact ⟨i, a, x, rfl, part, own⟩

theorem listed_expr (h : ∀ x ∈ (Part.expr e).parts, x.Listed) : (Part.expr e).Listed := by
  have inside := (listsOnce_parts h).cons (by rintro y ⟨_, _, _, ⟨⟩, -⟩) e
  refine ListsOnce.perm (inside.congr fun a x => ?_) e.walked_perm
  cases a with
  | nil => simp [Part.HasExpr, Part.at?, eq_comm]
  | cons i a =>
      rw [hasExpr_cons]
      constructor
      · rintro (⟨⟨⟩, -⟩ | ⟨_, _, y, ⟨rfl, rfl⟩, part, own⟩)
        exact ⟨y, part, own⟩
      · rintro ⟨y, part, own⟩
        exact .inr ⟨i, a, y, rfl, part, own⟩

theorem listed_query (h : ∀ x ∈ (Part.query q).parts, x.Listed) : (Part.query q).Listed :=
  ListsOnce.perm (listsOnce_part (by rintro _ ⟨⟩) h) q.walked_perm

/-- The walk of a part between the expressions and the queries goes through what it is made of. -/
theorem listed_between (other : ∀ e, p ≠ .expr e) (walk : p.walked = p.parts.flatMap Part.walked)
    (h : ∀ x ∈ p.parts, x.Listed) : p.Listed := by
  rw [Part.Listed, walk]
  exact listsOnce_part other h

section

variable {c : Cte} {i : SelectItem} {o : OrderItem} {b : Branch} {s : Source} {j : Join}
  {f : FromItem} {operation : SetOperation}

theorem listed_cte (h : (Part.query c.query).Listed) : (Part.cte c).Listed :=
  listed_between (by rintro _ ⟨⟩) (by simp [Part.walked, Part.parts]) (by simpa [Part.parts])

theorem listed_item (h : (Part.expr i.expr).Listed) : (Part.item i).Listed :=
  listed_between (by rintro _ ⟨⟩) (by simp [Part.walked, Part.parts]) (by simpa [Part.parts])

theorem listed_order (h : (Part.expr o.expr).Listed) : (Part.order o).Listed :=
  listed_between (by rintro _ ⟨⟩) (by simp [Part.walked, Part.parts]) (by simpa [Part.parts])

theorem listed_branch (h : ∀ x ∈ b.sides, (Part.expr x).Listed) : (Part.branch b).Listed :=
  listed_between (by rintro _ ⟨⟩) (by simp [Part.walked, Part.parts])
    (by simpa [Part.parts, Branch.sides] using h)

theorem listed_operation (h : ∀ r ∈ operation.sides, (Part.query r).Listed) :
    (Part.operation operation).Listed :=
  listed_between (by rintro _ ⟨⟩) (by simp [Part.walked, Part.parts])
    (by simpa [Part.parts, SetOperation.sides] using h)

theorem listed_source (h : ∀ r ∈ s.query?, (Part.query r).Listed) : (Part.source s).Listed := by
  cases s with
  | derived inner label =>
      exact listed_between (by rintro _ ⟨⟩)
        (by simp [Part.walked, Part.parts, Source.walked, Source.query?])
        (by simpa [Part.parts, Source.query?] using h)
  | _ => exact listed_between (by rintro _ ⟨⟩) rfl (by simp [Part.parts])

theorem listed_join (source : (Part.source j.source).Listed)
    (condition : ∀ e ∈ j.condition, (Part.expr e).Listed) : (Part.join j).Listed :=
  listed_between (by rintro _ ⟨⟩) (by simp [Part.walked, Part.parts, List.flatMap_map])
    (by simpa [Part.parts, source] using condition)

theorem listed_fromItem (source : (Part.source f.source).Listed)
    (joins : ∀ j ∈ f.joins, (Part.join j).Listed) : (Part.fromItem f).Listed :=
  listed_between (by rintro _ ⟨⟩) (by simp [Part.walked, Part.parts, List.flatMap_map])
    (by simpa [Part.parts, source] using joins)

end

theorem mem_exprParts {x : Part} (h : x ∈ (Part.expr e).parts) :
    (∃ y ∈ e.parts, x = .expr y) ∨ (∃ r ∈ e.query?, x = .query r) ∨
      ∃ b, x = .branch b ∧ ∀ y ∈ b.sides, y ∈ e.parts := by
  cases e with
  | case o bs e =>
      simp only [Part.parts, List.mem_append, List.mem_map] at h
      rcases h with (⟨y, hy, rfl⟩ | ⟨b, hb, rfl⟩) | ⟨y, hy, rfl⟩
      · exact .inl ⟨y, by simp [Expr.parts, hy], rfl⟩
      · refine .inr (.inr ⟨b, rfl, fun y hy => ?_⟩)
        exact List.mem_append_left _ (List.mem_append_right _ (List.mem_flatMap.mpr ⟨b, hb, hy⟩))
      · exact .inl ⟨y, by simp [Expr.parts, hy], rfl⟩
  | column _ _ | literal _ | param _ | interval _ | star _ | raw _ => cases h
  | _ =>
      simp only [Part.parts, Expr.parts, Expr.query?, Option.mem_some_iff] at h ⊢
      grind

/-- The walk of each tree lists what stands in it, if the walks of its parts do. -/
theorem listed_steps : TreeSteps (fun e => (Part.expr e).Listed) fun q => (Part.query q).Listed where
  expr e exprs queries := by
    refine listed_expr fun x hx => ?_
    obtain ⟨y, hy, rfl⟩ | ⟨r, hr, rfl⟩ | ⟨b, rfl, sides⟩ := mem_exprParts hx
    · exact exprs y hy
    · exact queries r hr
    · exact listed_branch fun y hy => exprs y (sides y hy)
  query q exprs operands := by
    have sources : ∀ f ∈ q.sources, ∀ s ∈ f.allSources, (Part.source s).Listed :=
      fun f hf s hs => listed_source fun r hr => operands r (source_mem_operands hf hs hr)
    refine listed_query fun x hx => ?_
    simp only [Part.parts, List.mem_append, List.mem_map, Option.mem_toList] at hx
    rcases hx with ((((((⟨c, hc, rfl⟩ | ⟨i, hi, rfl⟩) | ⟨f, hf, rfl⟩) | ⟨e, he, rfl⟩) |
      ⟨e, he, rfl⟩) | ⟨e, he, rfl⟩) | ⟨o, ho, rfl⟩) | ⟨operation, ho, rfl⟩
    · exact listed_cte (operands _ (cte_mem_operands hc))
    · exact listed_item (exprs _ (item_mem_exprs hi))
    · refine listed_fromItem (sources f hf _ List.mem_cons_self) fun j hj => listed_join ?_ ?_
      · exact sources f hf _ (List.mem_cons_of_mem _ (List.mem_map_of_mem hj))
      · exact fun e he => exprs e (joinCondition_mem_exprs hf hj he)
    · exact exprs e (condition_mem_exprs he)
    · exact exprs e (key_mem_exprs he)
    · exact exprs e (having_mem_exprs he)
    · exact listed_order (exprs _ (order_mem_exprs ho))
    · exact listed_operation fun r hr => operands r (side_mem_operands ho hr)

/-- Walking the expressions of all queries nested in a query passes every place of the tree where an
expression stands, once. -/
theorem walked_once (q : Query) : ListsOnce (Part.query q).HasExpr q.walked :=
  listed_steps.queries q

end ReportSql.Tree
