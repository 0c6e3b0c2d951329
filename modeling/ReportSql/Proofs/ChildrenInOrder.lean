import ReportSql.Proofs.ChangedQueries

/-!
Maps of the queries directly nested in a query. They are taken in the order in which the queries
stand there, and nothing but the queries is changed: the tree without them stays as it is.
-/
namespace ReportSql.Tree

/-! ### Trees without their queries -/

/-- An expression with nothing in the place of the queries inside it. -/
def Expr.hollow (e : Expr) : Expr := e.mapQuery fun _ => .empty

def Source.hollow (s : Source) : Source := s.mapQuery fun _ => .empty

/-- A query with nothing in the place of those nested in it. -/
def Query.hollow (q : Query) : Query := q.mapChildren fun _ => .empty

def Branch.hollow (b : Branch) : Branch := ⟨b.condition.hollow, b.result.hollow⟩

def FromItem.hollowSources (f : FromItem) : FromItem :=
  ⟨f.source.hollow, f.joins.map fun j => { j with source := j.source.hollow }⟩

/-- A query with nothing in the place of those nested in it outside of expressions. -/
def Query.hollowOperands (q : Query) : Query :=
  { q with
    ctes := q.ctes.map fun c => { c with query := .empty }
    setOperation := q.setOperation.map fun o => { o with left := .empty, right := .empty }
    sources := q.sources.map FromItem.hollowSources }

theorem hollow_eq_mapQuery : Expr.hollow = Expr.mapQuery fun _ => .empty := rfl

theorem hollow_eq_operands (q : Query) : q.hollow = (q.mapParts Expr.hollow id).hollowOperands := by
  simp [Query.hollow, Query.mapChildren, Query.mapParts, Query.hollowOperands,
    FromItem.hollowSources, Source.hollow, Function.comp_def, hollow_eq_mapQuery]

theorem hollow_eq_exprs (q : Query) : q.hollow = q.hollowOperands.mapParts Expr.hollow id := by
  simp [Query.hollow, Query.mapChildren, Query.mapParts, Query.hollowOperands,
    FromItem.hollowSources, Source.hollow, Function.comp_def, hollow_eq_mapQuery]

/-! ### Queries directly inside -/

def FromItem.sourceChildren (f : FromItem) : List Query :=
  f.source.query?.toList ++ f.joins.flatMap fun j => j.source.query?.toList

def FromItem.conditionChildren (f : FromItem) : List Query :=
  f.joins.flatMap fun j => j.condition.toList.flatMap Expr.children

/-- The queries directly nested in a query outside of expressions. -/
def Query.operandChildren (q : Query) : List Query :=
  q.ctes.flatMap (fun c => [c.query]) ++ q.setOperation.toList.flatMap SetOperation.sides
    ++ q.sources.flatMap FromItem.sourceChildren

/-- The queries in the expressions of a query. -/
def Query.exprChildren (q : Query) : List Query :=
  q.items.flatMap (fun i => i.expr.children) ++ q.sources.flatMap FromItem.conditionChildren
    ++ q.condition.toList.flatMap Expr.children ++ q.groupBy.flatMap Expr.children
    ++ q.having.toList.flatMap Expr.children ++ q.orderBy.flatMap fun o => o.expr.children

theorem children_split (q : Query) : q.children = q.operandChildren ++ q.exprChildren := by
  have ctes : q.ctes.map Cte.query = q.ctes.flatMap fun c => [c.query] := List.map_eq_flatMap
  simp only [Query.children, ctes, Query.exprs, Query.allSources, FromItem.allSources,
    List.flatMap_cons, List.flatMap_append, List.flatMap_map, List.flatMap_assoc,
    List.filterMap_eq_flatMap_toList, List.append_assoc, Query.operandChildren, Query.exprChildren]
  rfl

theorem operandChildren_mapParts {h : Expr → Expr} (q : Query) :
    (q.mapParts h id).operandChildren = q.operandChildren := by
  simp only [Query.operandChildren, Query.mapParts, List.flatMap_map, FromItem.sourceChildren, id]
  rfl

theorem exprChildren_hollow (q : Query) : q.hollowOperands.exprChildren = q.exprChildren := by
  simp only [Query.exprChildren, Query.hollowOperands, List.flatMap_map, FromItem.conditionChildren,
    FromItem.hollowSources]
  rfl

/-! ### Queries one after the other -/

/-- Steps on some queries in their order, and what takes the place of each of them. How this is
related to the query that a step is taken on, and when, is told by a relation. -/
inductive Sweep {σ : Type} (g : Query → StateM σ Query) (R : Query → σ → Query → Prop) :
    List Query → σ → List Query → σ → Prop where
  | nil {s} : Sweep g R [] s [] s
  | cons {b c rest changed s s'} : R b s c → Sweep g R rest (g b s).2 changed s' →
      Sweep g R (b :: rest) s (c :: changed) s'

/-- The queries that a map gives in the place of others. -/
abbrev Mapped {σ : Type} (f : Query → StateM σ Query) :=
  Sweep f fun b s c => c = (f b s).1

/-- Whether the queries of some part are mapped in their order, and nothing else is changed. -/
def MapsInOrder {σ α β : Type} (f : Query → StateM σ Query) (children : α → List Query)
    (shape : α → β) (x : α) (y : StateM σ α) : Prop :=
  ∀ s, Mapped f (children x) s (children (y s).1) (y s).2 ∧ shape (y s).1 = shape x

section

variable {σ α β : Type} {f g : Query → StateM σ Query} {R : Query → σ → Query → Prop}
  {bs cs bs' cs' : List Query} {s s₁ s₂ : σ}

theorem Sweep.append (h : Sweep g R bs s cs s₁) (h' : Sweep g R bs' s₁ cs' s₂) :
    Sweep g R (bs ++ bs') s (cs ++ cs') s₂ := by
  induction h with
  | nil => exact h'
  | cons own _ ih => exact .cons own (ih h')

theorem mapped_one (b : Query) (s : σ) :
    Mapped f [b] s [(f b s).1] (f b s).2 :=
  .cons rfl .nil

variable {children : α → List Query} {shape : α → β}

theorem mapsInOrder_list {y : α → StateM σ α} (xs : List α)
    (h : ∀ x ∈ xs, MapsInOrder f children shape x (y x)) :
    MapsInOrder f (List.flatMap children) (List.map shape) xs (xs.mapM y) := by
  induction xs with
  | nil => exact fun s => ⟨.nil, rfl⟩
  | cons x rest ih =>
      intro s
      rw [List.mapM_cons]
      have own := h x List.mem_cons_self s
      have more := ih (fun z hz => h z (List.mem_cons_of_mem _ hz)) (y x s).2
      exact ⟨own.1.append more.1, congrArg₂ List.cons own.2 more.2⟩

theorem mapsInOrder_option {y : α → StateM σ α} (o : Option α)
    (h : ∀ x ∈ o, MapsInOrder f children shape x (y x)) :
    MapsInOrder f (fun o => o.toList.flatMap children) (Option.map shape) o (o.mapM y) := by
  cases o with
  | none => exact fun s => ⟨.nil, rfl⟩
  | some x =>
      intro s
      have own := h x rfl s
      exact ⟨own.1.append .nil, congrArg some own.2⟩

end

/-! ### Queries inside expressions -/

section

variable {σ : Type} {f : Query → StateM σ Query} {s s₁ s₂ : σ}

theorem inOrder_expr {e r : Expr} (own : Mapped f e.query?.toList s r.query?.toList s₁)
    (parts : Mapped f (e.parts.flatMap Expr.children) s₁ (r.parts.flatMap Expr.children) s₂)
    (shape : (r.mapOwnQuery fun _ => .empty).mapParts Expr.hollow =
      (e.mapOwnQuery fun _ => .empty).mapParts Expr.hollow) :
    Mapped f e.children s r.children s₂ ∧ r.hollow = e.hollow := by
  rw [e.children_eq, r.children_eq, Expr.hollow, Expr.hollow, mapQuery_eq, mapQuery_eq]
  exact ⟨own.append parts, shape⟩

mutual

theorem mapQuery_inOrder : ∀ e : Expr, MapsInOrder f Expr.children Expr.hollow e (e.mapQueryM f)
  | .column _ _ | .literal _ | .param _ | .interval _ | .star _ | .raw _ =>
      fun _ => ⟨.nil, rfl⟩
  | .subquery q | .exists q _ => fun s => inOrder_expr (mapped_one q s) .nil rfl
  | .inQuery a q n => fun s => by
      have operand := mapQuery_inOrder a (f q s).2
      exact inOrder_expr (mapped_one q s) (operand.1.append .nil)
        (congrArg (Expr.inQuery · .empty n) operand.2)
  | .unary op a => fun s => by
      have operand := mapQuery_inOrder a s
      exact inOrder_expr .nil (operand.1.append .nil) (congrArg (Expr.unary op) operand.2)
  | .isNull a n => fun s => by
      have operand := mapQuery_inOrder a s
      exact inOrder_expr .nil (operand.1.append .nil) (congrArg (Expr.isNull · n) operand.2)
  | .isTruth a v n => fun s => by
      have operand := mapQuery_inOrder a s
      exact inOrder_expr .nil (operand.1.append .nil) (congrArg (Expr.isTruth · v n) operand.2)
  | .cast a t => fun s => by
      have operand := mapQuery_inOrder a s
      exact inOrder_expr .nil (operand.1.append .nil) (congrArg (Expr.cast · t) operand.2)
  | .paren a => fun s => by
      have operand := mapQuery_inOrder a s
      exact inOrder_expr .nil (operand.1.append .nil) (congrArg Expr.paren operand.2)
  | .binary a op b => fun s => by
      have left := mapQuery_inOrder a s
      have right := mapQuery_inOrder b (a.mapQueryM f s).2
      exact inOrder_expr .nil (left.1.append (right.1.append .nil))
        (congrArg₂ (Expr.binary · op ·) left.2 right.2)
  | .between a l h n => fun s => by
      have operand := mapQuery_inOrder a s
      have low := mapQuery_inOrder l (a.mapQueryM f s).2
      have high := mapQuery_inOrder h (l.mapQueryM f (a.mapQueryM f s).2).2
      refine inOrder_expr .nil (operand.1.append (low.1.append (high.1.append .nil))) ?_
      change Expr.between _ _ _ n = Expr.between _ _ _ n
      rw [operand.2, low.2, high.2]
  | .call name xs d => fun s => by
      have arguments := mapQueries_inOrder xs s
      exact inOrder_expr .nil arguments.1 (congrArg (Expr.call name · d) arguments.2)
  | .inList a xs n => fun s => by
      have operand := mapQuery_inOrder a s
      have values := mapQueries_inOrder xs (a.mapQueryM f s).2
      exact inOrder_expr .nil (operand.1.append values.1)
        (congrArg₂ (Expr.inList · · n) operand.2 values.2)
  | .case o bs e => fun s => by
      have operand := mapOptionQuery_inOrder o s
      have branches := mapBranchQueries_inOrder bs (mapOptionQueryM f o s).2
      have otherwise := mapOptionQuery_inOrder e
        (mapBranchQueriesM f bs (mapOptionQueryM f o s).2).2
      have parts := (operand.1.append branches.1).append otherwise.1
      simp only [← List.flatMap_append] at parts
      refine inOrder_expr .nil parts ?_
      change Expr.case _ (List.map Branch.hollow _) _ = Expr.case _ (List.map Branch.hollow _) _
      rw [operand.2, branches.2, otherwise.2]

theorem mapQueries_inOrder : ∀ es : List Expr,
    MapsInOrder f (List.flatMap Expr.children) (List.map Expr.hollow) es (mapQueriesM f es)
  | [] => fun _ => ⟨.nil, rfl⟩
  | e :: rest => fun s => by
      have own := mapQuery_inOrder e s
      have more := mapQueries_inOrder rest (e.mapQueryM f s).2
      exact ⟨own.1.append more.1, congrArg₂ List.cons own.2 more.2⟩

theorem mapOptionQuery_inOrder : ∀ o : Option Expr,
    MapsInOrder f (fun o => o.toList.flatMap Expr.children) (Option.map Expr.hollow) o
      (mapOptionQueryM f o)
  | none => fun _ => ⟨.nil, rfl⟩
  | some e => fun s => by
      have own := mapQuery_inOrder e s
      exact ⟨own.1.append .nil, congrArg some own.2⟩

theorem mapBranchQueries_inOrder : ∀ bs : List Branch,
    MapsInOrder f (fun bs => (bs.flatMap Branch.sides).flatMap Expr.children)
      (List.map Branch.hollow) bs (mapBranchQueriesM f bs)
  | [] => fun _ => ⟨.nil, rfl⟩
  | ⟨c, r⟩ :: rest => fun s => by
      have condition := mapQuery_inOrder c s
      have result := mapQuery_inOrder r (c.mapQueryM f s).2
      have more := mapBranchQueries_inOrder rest
        (r.mapQueryM f (c.mapQueryM f s).2).2
      exact ⟨condition.1.append (result.1.append more.1),
        congrArg₂ List.cons (congrArg₂ Branch.mk condition.2 result.2) more.2⟩

end

/-! ### Queries inside queries -/

theorem mapSource_inOrder (x : Source) :
    MapsInOrder f (fun x => x.query?.toList) Source.hollow x (x.mapQueryM f) := by
  intro s
  cases x with
  | derived q label => exact ⟨mapped_one q s, rfl⟩
  | named _ | raw _ => exact ⟨.nil, rfl⟩

theorem mapSources_inOrder (x : FromItem) :
    MapsInOrder f FromItem.sourceChildren FromItem.hollowSources x (x.mapQueryM f) := by
  intro s
  have source := mapSource_inOrder (f := f) x.source s
  have join (j : Join) : MapsInOrder f (fun j => j.source.query?.toList)
      (fun j => { j with source := j.source.hollow }) j
      (do return { j with source := ← j.source.mapQueryM f }) := fun s =>
    ⟨(mapSource_inOrder j.source s).1,
      congrArg (Join.mk j.kind · j.condition) (mapSource_inOrder j.source s).2⟩
  have joins := mapsInOrder_list x.joins (fun j _ => join j) (x.source.mapQueryM f s).2
  exact ⟨source.1.append joins.1, congrArg₂ FromItem.mk source.2 joins.2⟩

theorem mapConditions_inOrder (x : FromItem) :
    MapsInOrder f FromItem.conditionChildren
      (fun x => (⟨x.source, x.joins.map fun j => ⟨j.kind, j.source, j.condition.map Expr.hollow⟩⟩ :
        FromItem)) x (x.mapExprM (Expr.mapQueryM f)) := by
  have join (j : Join) : MapsInOrder f (fun j => j.condition.toList.flatMap Expr.children)
      (fun j => { j with condition := j.condition.map Expr.hollow }) j
      (j.mapExprM (Expr.mapQueryM f)) := fun s =>
    have condition := mapsInOrder_option j.condition (fun e _ => mapQuery_inOrder e) s
    ⟨condition.1, congrArg (Join.mk j.kind j.source) condition.2⟩
  have joins := mapsInOrder_list x.joins fun j _ => join j
  exact fun s => ⟨(joins s).1, congrArg (FromItem.mk x.source) (joins s).2⟩

theorem mapCte_inOrder (c : Cte) :
    MapsInOrder f (fun c => [c.query]) (fun c => { c with query := .empty }) c
      (do return { c with query := ← f c.query }) :=
  fun s => ⟨mapped_one c.query s, rfl⟩

theorem mapSides_inOrder (o : SetOperation) :
    MapsInOrder f SetOperation.sides (fun o => { o with left := .empty, right := .empty }) o
      (do
        let left ← f o.left
        return { o with left, right := ← f o.right }) :=
  fun s => ⟨(mapped_one o.left s).append (mapped_one o.right (f o.left s).2), rfl⟩

theorem mapExprs_inOrder (q : Query) :
    MapsInOrder f Query.exprChildren (fun q => q.mapParts Expr.hollow id) q
      (q.mapExprM (Expr.mapQueryM f)) := by
  intro s
  have item (i : SelectItem) : MapsInOrder f (fun i => i.expr.children)
      (fun i => { i with expr := i.expr.hollow }) i
      (do return { i with expr := ← i.expr.mapQueryM f }) := fun s =>
    ⟨(mapQuery_inOrder i.expr s).1,
      congrArg (SelectItem.mk · i.label) (mapQuery_inOrder i.expr s).2⟩
  have order (o : OrderItem) : MapsInOrder f (fun o => o.expr.children)
      (fun o => { o with expr := o.expr.hollow }) o
      (do return { o with expr := ← o.expr.mapQueryM f }) := fun s =>
    ⟨(mapQuery_inOrder o.expr s).1,
      congrArg (OrderItem.mk · o.direction o.nulls) (mapQuery_inOrder o.expr s).2⟩
  have items := mapsInOrder_list q.items fun i _ => item i
  have sources := mapsInOrder_list q.sources fun x _ => mapConditions_inOrder (f := f) x
  have condition := mapsInOrder_option q.condition fun e _ => mapQuery_inOrder (f := f) e
  have groupBy := mapsInOrder_list q.groupBy fun e _ => mapQuery_inOrder (f := f) e
  have having := mapsInOrder_option q.having fun e _ => mapQuery_inOrder (f := f) e
  have orderBy := mapsInOrder_list q.orderBy fun o _ => order o
  refine ⟨(((((items s).1.append (sources _).1).append (condition _).1).append
    (groupBy _).1).append (having _).1).append (orderBy _).1, ?_⟩
  exact (Query.mk.injEq ..).mpr ⟨rfl, (items s).2, rfl, (sources _).2, (condition _).2,
    (groupBy _).2, (having _).2, (orderBy _).2, rfl, rfl⟩

theorem inOrder_query {q p r : Query}
    (operands : Mapped f q.operandChildren s p.operandChildren s₁)
    (hollow : p.hollowOperands = q.hollowOperands)
    (exprs : Mapped f p.exprChildren s₁ r.exprChildren s₂)
    (rest : r.mapParts Expr.hollow id = p.mapParts Expr.hollow id) :
    Mapped f q.children s r.children s₂ ∧ r.hollow = q.hollow := by
  have same : p.exprChildren = q.exprChildren := by
    rw [← exprChildren_hollow, hollow, exprChildren_hollow]
  have kept : r.operandChildren = p.operandChildren := by
    rw [← operandChildren_mapParts, rest, operandChildren_mapParts]
  constructor
  · rw [children_split, children_split, ← same, kept]
    exact operands.append exprs
  · rw [hollow_eq_operands, rest, ← hollow_eq_operands, hollow_eq_exprs, hollow, ← hollow_eq_exprs]

/-- The queries directly nested in a query are mapped in their order, and nothing else is changed. -/
theorem mapChildren_inOrder (q : Query) :
    MapsInOrder f Query.children Query.hollow q (q.mapChildrenM f) := by
  intro s
  have ctes := mapsInOrder_list q.ctes fun c _ => mapCte_inOrder (f := f) c
  have sides := mapsInOrder_option q.setOperation fun o _ => mapSides_inOrder (f := f) o
  have sources := mapsInOrder_list q.sources fun x _ => mapSources_inOrder (f := f) x
  refine inOrder_query
    (p := ⟨_, q.items, q.distinct, _, q.condition, q.groupBy, q.having, q.orderBy, q.rows, _⟩)
    (((ctes s).1.append (sides _).1).append (sources _).1) ?_
    (mapExprs_inOrder _ _).1 (mapExprs_inOrder _ _).2
  exact (Query.mk.injEq ..).mpr ⟨(ctes s).2, rfl, rfl, (sources _).2, rfl, rfl, rfl, rfl, rfl,
    (sides _).2⟩

end

end ReportSql.Tree
