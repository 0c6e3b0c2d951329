import ReportSql.Tree.Rewrite

/-!
The queries nested in a query, and the steps that are made on all of them.
-/
namespace ReportSql.Tree

/-! ### Queries directly inside -/

def Source.query? : Source → Option Query
  | .derived query _ => some query
  | .named _ | .raw _ => none

def SetOperation.sides (o : SetOperation) : List Query := [o.left, o.right]

/-- The queries that nodes of an expression are made of. -/
def Expr.children (e : Expr) : List Query := e.nodes.filterMap Expr.query?

/-- The queries directly nested in a query, in their order. -/
def Query.children (q : Query) : List Query :=
  q.ctes.map Cte.query ++ q.setOperation.toList.flatMap SetOperation.sides
    ++ q.allSources.filterMap Source.query? ++ q.exprs.flatMap Expr.children

mutual

theorem Expr.queries_eq : ∀ e : Expr,
    e.queries = (e.nodes.filterMap Expr.query?).flatMap Query.queries
  | .column _ _ | .literal _ | .param _ | .interval _ | .star _ | .raw _ => rfl
  | .subquery _ | .exists _ _ => by
      simp [Expr.queries, Expr.nodes, Expr.query?]
  | .binary a _ b => by
      simp [Expr.queries, Expr.nodes, Expr.query?, List.filterMap_cons, a.queries_eq,
        b.queries_eq]
  | .unary _ a | .isNull a _ | .isTruth a _ _ | .cast a _ | .paren a | .inQuery a _ _ => by
      simp [Expr.queries, Expr.nodes, Expr.query?, List.filterMap_cons, a.queries_eq]
  | .call _ xs _ => by
      simp [Expr.queries, Expr.nodes, Expr.query?, List.filterMap_cons, exprQueries_eq xs]
  | .case none bs none => by
      simp [Expr.queries, Expr.nodes, Expr.query?, List.filterMap_cons, branchQueries_eq bs]
  | .case (some o) bs none => by
      simp [Expr.queries, Expr.nodes, Expr.query?, List.filterMap_cons, branchQueries_eq bs,
        o.queries_eq]
  | .case none bs (some e) => by
      simp [Expr.queries, Expr.nodes, Expr.query?, List.filterMap_cons, branchQueries_eq bs,
        e.queries_eq]
  | .case (some o) bs (some e) => by
      simp [Expr.queries, Expr.nodes, Expr.query?, List.filterMap_cons, branchQueries_eq bs,
        o.queries_eq, e.queries_eq]
  | .inList a xs _ => by
      simp [Expr.queries, Expr.nodes, Expr.query?, List.filterMap_cons, a.queries_eq,
        exprQueries_eq xs]
  | .between a l h _ => by
      simp [Expr.queries, Expr.nodes, Expr.query?, List.filterMap_cons, a.queries_eq,
        l.queries_eq, h.queries_eq]

theorem exprQueries_eq : ∀ es : List Expr,
    exprQueries es = ((nodesOf es).filterMap Expr.query?).flatMap Query.queries
  | [] => rfl
  | e :: rest => by
      simp [exprQueries, nodesOf, e.queries_eq, exprQueries_eq rest]

theorem branchQueries_eq : ∀ bs : List Branch,
    branchQueries bs = ((branchNodes bs).filterMap Expr.query?).flatMap Query.queries
  | [] => rfl
  | ⟨c, r⟩ :: rest => by
      simp [branchQueries, branchNodes, c.queries_eq, r.queries_eq, branchQueries_eq rest]

end

theorem exprQueries_flatMap (es : List Expr) :
    exprQueries es = (es.flatMap Expr.children).flatMap Query.queries := by
  induction es with
  | nil => rfl
  | cons e rest ih => simp [exprQueries, e.queries_eq, ih, Expr.children]

theorem optionQueries_eq (e : Option Expr) :
    (match e with | some e => e.queries | none => []) =
      (e.toList.flatMap Expr.children).flatMap Query.queries := by
  cases e <;> simp [Expr.queries_eq, Expr.children]

theorem cteQueries_eq (cs : List Cte) :
    cteQueries cs = (cs.map Cte.query).flatMap Query.queries := by
  induction cs with
  | nil => rfl
  | cons c rest ih =>
      obtain ⟨_, _, _, _⟩ := c
      simp [cteQueries, ih]

theorem itemQueries_eq (is : List SelectItem) :
    itemQueries is = ((is.map SelectItem.expr).flatMap Expr.children).flatMap Query.queries := by
  induction is with
  | nil => rfl
  | cons i rest ih =>
      obtain ⟨_, _⟩ := i
      simp [itemQueries, ih, Expr.queries_eq, Expr.children]

theorem orderQueries_eq (os : List OrderItem) :
    orderQueries os = ((os.map OrderItem.expr).flatMap Expr.children).flatMap Query.queries := by
  induction os with
  | nil => rfl
  | cons o rest ih =>
      obtain ⟨_, _, _⟩ := o
      simp [orderQueries, ih, Expr.queries_eq, Expr.children]

theorem Source.queries_eq (s : Source) :
    s.queries = s.query?.toList.flatMap Query.queries := by
  cases s <;> simp [Source.queries, Source.query?]

theorem joinSourceQueries_eq (js : List Join) :
    joinSourceQueries js = ((js.map Join.source).filterMap Source.query?).flatMap Query.queries := by
  induction js with
  | nil => rfl
  | cons j rest ih =>
      obtain ⟨_, source, _⟩ := j
      cases h : source.query? <;> simp [joinSourceQueries, ih, Source.queries_eq, h]

theorem fromQueries_eq (fs : List FromItem) :
    fromQueries fs =
      ((fs.flatMap FromItem.allSources).filterMap Source.query?).flatMap Query.queries := by
  induction fs with
  | nil => rfl
  | cons f rest ih =>
      obtain ⟨source, joins⟩ := f
      cases h : source.query? <;>
        simp [fromQueries, ih, Source.queries_eq, FromItem.allSources, joinSourceQueries_eq, h]

theorem conditionQueries_eq (js : List Join) :
    conditionQueries js =
      ((js.filterMap Join.condition).flatMap Expr.children).flatMap Query.queries := by
  induction js with
  | nil => rfl
  | cons j rest ih =>
      obtain ⟨_, _, condition⟩ := j
      cases condition <;> simp [conditionQueries, ih, Expr.queries_eq, Expr.children]

theorem joinConditionQueries_eq (fs : List FromItem) :
    joinConditionQueries fs =
      ((fs.flatMap fun f => f.joins.filterMap Join.condition).flatMap Expr.children).flatMap
        Query.queries := by
  induction fs with
  | nil => rfl
  | cons f rest ih =>
      obtain ⟨_, joins⟩ := f
      simp [joinConditionQueries, ih, conditionQueries_eq]

/-- A query is followed by those nested in it, each before those inside it. -/
theorem Query.queries_eq (q : Query) : q.queries = q :: q.children.flatMap Query.queries := by
  obtain ⟨ctes, items, distinct, sources, condition, groupBy, having, orderBy, rows, operation⟩ := q
  have unfolded : Query.queries ⟨ctes, items, distinct, sources, condition, groupBy, having,
      orderBy, rows, operation⟩ = ⟨ctes, items, distinct, sources, condition, groupBy, having,
      orderBy, rows, operation⟩ :: cteQueries ctes
        ++ (operation.map SetOperation.queries).getD []
        ++ fromQueries sources ++ itemQueries items ++ joinConditionQueries sources
        ++ (match condition with | some e => e.queries | none => []) ++ exprQueries groupBy
        ++ (match having with | some e => e.queries | none => []) ++ orderQueries orderBy := by
    cases operation <;> cases condition <;> cases having <;> rfl
  rw [unfolded, cteQueries_eq, fromQueries_eq, itemQueries_eq, joinConditionQueries_eq,
    optionQueries_eq, exprQueries_flatMap, optionQueries_eq, orderQueries_eq]
  simp [Query.children, Query.exprs, Query.allSources]
  cases operation with
  | none => rfl
  | some o => cases o with | mk l op a r => simp [SetOperation.queries, SetOperation.sides]

theorem Query.self_mem_queries (q : Query) : q ∈ q.queries := by
  rw [q.queries_eq]
  exact List.mem_cons_self

end ReportSql.Tree
