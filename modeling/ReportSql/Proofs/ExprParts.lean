import ReportSql.Tree.Walk

/-!
Expressions by the expressions directly inside them. Queries inside an expression are not entered.
-/
namespace ReportSql.Tree

/-- The conditions and results of the branches of a CASE. -/
def Branch.sides (b : Branch) : List Expr := [b.condition, b.result]

/-- The expressions directly inside an expression, in their order. -/
def Expr.parts : Expr → List Expr
  | .binary a _ b => [a, b]
  | .call _ xs _ => xs
  | .case operand branches otherwise =>
    operand.toList ++ branches.flatMap Branch.sides ++ otherwise.toList
  | .inList a xs _ => a :: xs
  | .between a low high _ => [a, low, high]
  | .unary _ a | .inQuery a _ _ | .isNull a _ | .isTruth a _ _ | .cast a _ | .paren a => [a]
  | .column _ _ | .literal _ | .param _ | .subquery _ | .exists _ _ | .interval _ | .star _
  | .raw _ => []

theorem sizeOf_part {e x : Expr} (h : x ∈ e.parts) : sizeOf x < sizeOf e := by
  cases e with
  | call _ xs _ =>
      have := List.sizeOf_lt_of_mem (show x ∈ xs from h)
      simp only [Expr.call.sizeOf_spec]
      omega
  | inList a xs _ =>
      simp only [Expr.parts, List.mem_cons] at h
      simp only [Expr.inList.sizeOf_spec]
      rcases h with rfl | h
      · omega
      · have := List.sizeOf_lt_of_mem h
        omega
  | case o bs e =>
      simp only [Expr.parts, List.mem_append, Option.mem_toList, List.mem_flatMap] at h
      simp only [Expr.case.sizeOf_spec]
      rcases h with (rfl | ⟨b, hb, hx⟩) | rfl
      · simp only [Option.some.sizeOf_spec]
        omega
      · have hs : sizeOf x < sizeOf b := by
          obtain ⟨c, r⟩ := b
          simp only [Branch.sides, List.mem_cons, List.not_mem_nil, or_false] at hx
          simp only [Branch.mk.sizeOf_spec]
          rcases hx with rfl | rfl <;> omega
        have := List.sizeOf_lt_of_mem hb
        omega
      · simp only [Option.some.sizeOf_spec]
        omega
  | binary _ _ _ | between _ _ _ _ =>
      simp only [Expr.parts, List.mem_cons, List.not_mem_nil, or_false] at h
      simp only [Expr.binary.sizeOf_spec, Expr.between.sizeOf_spec]
      rcases h with rfl | rfl | rfl <;> omega
  | unary _ _ | inQuery _ _ _ | isNull _ _ | isTruth _ _ _ | cast _ _ | paren _ =>
      obtain rfl := List.mem_singleton.mp h
      simp only [Expr.unary.sizeOf_spec, Expr.inQuery.sizeOf_spec, Expr.isNull.sizeOf_spec,
        Expr.isTruth.sizeOf_spec, Expr.cast.sizeOf_spec, Expr.paren.sizeOf_spec]
      omega
  | _ => cases h

/-- Induction over expressions, which reaches every expression inside one but no query. -/
theorem Expr.induct {P : Expr → Prop} (step : ∀ e : Expr, (∀ x ∈ e.parts, P x) → P e) (e : Expr) :
    P e :=
  step e fun x hx =>
    have := sizeOf_part hx
    Expr.induct step x
termination_by sizeOf e

theorem nodesOf_eq (es : List Expr) : nodesOf es = es.flatMap Expr.nodes := by
  induction es with
  | nil => rfl
  | cons e rest ih => simp only [nodesOf, ih, List.flatMap_cons]

theorem branchNodes_eq (bs : List Branch) :
    branchNodes bs = (bs.flatMap Branch.sides).flatMap Expr.nodes := by
  induction bs with
  | nil => rfl
  | cons b rest ih =>
      obtain ⟨c, r⟩ := b
      simp [branchNodes, ih, Branch.sides]

theorem Expr.nodes_eq (e : Expr) : e.nodes = e :: e.parts.flatMap Expr.nodes := by
  cases e with
  | case o bs e =>
      cases o <;> cases e <;> simp [Expr.nodes, Expr.parts, branchNodes_eq]
  | _ => simp [Expr.nodes, Expr.parts, nodesOf_eq]

theorem Expr.any_eq (p : Expr → Bool) (e : Expr) :
    e.any p = (p e || e.parts.any (Expr.any p)) := by
  rw [Expr.any, e.nodes_eq, List.any_cons, List.any_flatMap]
  rfl

theorem Expr.self_mem_nodes (e : Expr) : e ∈ e.nodes := by
  rw [e.nodes_eq]
  exact List.mem_cons_self

theorem Expr.mem_nodes_part {e x n : Expr} (hx : x ∈ e.parts) (hn : n ∈ x.nodes) :
    n ∈ e.nodes := by
  rw [e.nodes_eq]
  exact List.mem_cons_of_mem _ (List.mem_flatMap.mpr ⟨x, hx, hn⟩)

theorem mem_nodes_trans {e n m : Expr} (hn : n ∈ e.nodes) (hm : m ∈ n.nodes) : m ∈ e.nodes := by
  induction e using Expr.induct with
  | step e ih =>
      rw [Expr.nodes_eq] at hn ⊢
      rcases List.mem_cons.mp hn with rfl | hn
      · rwa [← Expr.nodes_eq]
      · obtain ⟨x, hx, hn⟩ := List.mem_flatMap.mp hn
        exact List.mem_cons_of_mem _ (List.mem_flatMap.mpr ⟨x, hx, ih x hx hn⟩)

/-! ### Changing the parts -/

/-- Changes the expressions directly inside an expression. -/
def Expr.mapParts (g : Expr → Expr) : Expr → Expr
  | .binary a op b => .binary (g a) op (g b)
  | .unary op a => .unary op (g a)
  | .call name xs distinct => .call name (xs.map g) distinct
  | .case operand branches otherwise =>
    .case (operand.map g) (branches.map fun b => ⟨g b.condition, g b.result⟩) (otherwise.map g)
  | .inList a xs negated => .inList (g a) (xs.map g) negated
  | .inQuery a query negated => .inQuery (g a) query negated
  | .between a low high negated => .between (g a) (g low) (g high) negated
  | .isNull a negated => .isNull (g a) negated
  | .isTruth a value negated => .isTruth (g a) value negated
  | .cast a type => .cast (g a) type
  | .paren a => .paren (g a)
  | e => e

section

variable {g : Expr → Expr}

theorem parts_mapParts (e : Expr) : (e.mapParts g).parts = e.parts.map g := by
  cases e with
  | case o bs e =>
      cases o <;> cases e <;>
        simp [Expr.mapParts, Expr.parts, Branch.sides, List.flatMap_map, List.map_flatMap]
  | _ => rfl

private theorem map_fixed {α : Type} {f : α → α} {xs : List α} (h : ∀ x ∈ xs, f x = x) :
    xs.map f = xs :=
  (List.map_congr_left h).trans (List.map_id' xs)

theorem mapParts_eq_self {e : Expr} (h : ∀ x ∈ e.parts, g x = x) : e.mapParts g = e := by
  cases e with
  | case o bs e =>
      simp only [Expr.parts, List.mem_append, Option.mem_toList, List.mem_flatMap] at h
      have operand : o.map g = o := by
        cases o with
        | none => rfl
        | some o => rw [Option.map_some, h o (.inl (.inl rfl))]
      have branches : bs.map (fun b => (⟨g b.condition, g b.result⟩ : Branch)) = bs := by
        refine map_fixed fun b hb => ?_
        obtain ⟨c, r⟩ := b
        rw [h c (.inl (.inr ⟨_, hb, by simp [Branch.sides]⟩)),
          h r (.inl (.inr ⟨_, hb, by simp [Branch.sides]⟩))]
      have otherwise : e.map g = e := by
        cases e with
        | none => rfl
        | some e => rw [Option.map_some, h e (.inr rfl)]
      simp only [Expr.mapParts, operand, branches, otherwise]
  | call _ xs _ =>
      have arguments : xs.map g = xs := map_fixed h
      rw [Expr.mapParts, arguments]
  | inList a xs _ =>
      rw [Expr.mapParts, h a List.mem_cons_self,
        map_fixed fun x hx => h x (List.mem_cons_of_mem _ hx)]
  | _ => simp_all [Expr.mapParts, Expr.parts]

end

end ReportSql.Tree
