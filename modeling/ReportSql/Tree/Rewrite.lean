import ReportSql.Tree.Build
import ReportSql.Tree.Walk

/-!
Changing a tree. A replacement is made at the outermost nodes it applies to. A step on queries is
applied to a query and then to the queries nested in the result.
-/

namespace ReportSql.Tree

/-! ### Replacing nodes -/

mutual

/-- The expression with each outermost node replaced for which there is a replacement, and how
many were. The queries inside are left as they are. -/
def Expr.replace (f : Expr → Option Expr) (e : Expr) : Expr × Nat :=
  match f e with
  | some r => (r, 1)
  | none =>
    match e with
    | .binary left op right =>
      let (left, n) := left.replace f
      let (right, m) := right.replace f
      (.binary left op right, n + m)
    | .unary op operand =>
      let (operand, n) := operand.replace f
      (.unary op operand, n)
    | .call name arguments distinct =>
      let (arguments, n) := replaceAll f arguments
      (.call name arguments distinct, n)
    | .case operand branches otherwise =>
      let (operand, n) := replaceOption f operand
      let (branches, m) := replaceBranches f branches
      let (otherwise, k) := replaceOption f otherwise
      (.case operand branches otherwise, n + m + k)
    | .inList operand values negated =>
      let (operand, n) := operand.replace f
      let (values, m) := replaceAll f values
      (.inList operand values negated, n + m)
    | .inQuery operand query negated =>
      let (operand, n) := operand.replace f
      (.inQuery operand query negated, n)
    | .between operand low high negated =>
      let (operand, n) := operand.replace f
      let (low, m) := low.replace f
      let (high, k) := high.replace f
      (.between operand low high negated, n + m + k)
    | .isNull operand negated =>
      let (operand, n) := operand.replace f
      (.isNull operand negated, n)
    | .isTruth operand value negated =>
      let (operand, n) := operand.replace f
      (.isTruth operand value negated, n)
    | .cast operand type =>
      let (operand, n) := operand.replace f
      (.cast operand type, n)
    | .paren inner =>
      let (inner, n) := inner.replace f
      (.paren inner, n)
    | .column _ _ | .literal _ | .param _ | .subquery _ | .exists _ _ | .interval _ | .star _
    | .raw _ => (e, 0)

def replaceAll (f : Expr → Option Expr) : List Expr → List Expr × Nat
  | [] => ([], 0)
  | e :: rest =>
    let (e, n) := e.replace f
    let (rest, m) := replaceAll f rest
    (e :: rest, n + m)

def replaceOption (f : Expr → Option Expr) : Option Expr → Option Expr × Nat
  | none => (none, 0)
  | some e =>
    let (e, n) := e.replace f
    (some e, n)

def replaceBranches (f : Expr → Option Expr) : List Branch → List Branch × Nat
  | [] => ([], 0)
  | ⟨condition, result⟩ :: rest =>
    let (condition, n) := condition.replace f
    let (result, m) := result.replace f
    let (rest, k) := replaceBranches f rest
    (⟨condition, result⟩ :: rest, n + m + k)

end

/-! ### The expressions of a query -/

section

variable {m : Type → Type} [Monad m]

def Join.mapExprM (f : Expr → m Expr) (j : Join) : m Join :=
  return { j with condition := ← j.condition.mapM f }

def FromItem.mapExprM (f : Expr → m Expr) (s : FromItem) : m FromItem :=
  return { s with joins := ← s.joins.mapM (Join.mapExprM f) }

/-- Maps the expressions of a query itself, in their order. -/
def Query.mapExprM (f : Expr → m Expr) (q : Query) : m Query := do
  let items ← q.items.mapM fun i => return { i with expr := ← f i.expr }
  let sources ← q.sources.mapM (FromItem.mapExprM f)
  let condition ← q.condition.mapM f
  let groupBy ← q.groupBy.mapM f
  let having ← q.having.mapM f
  let orderBy ← q.orderBy.mapM fun o => return { o with expr := ← f o.expr }
  return { q with items, sources, condition, groupBy, having, orderBy }

end

/-- Replaces nodes in every expression of a query itself; how many were replaced. -/
def Query.replaceExprs (f : Expr → Option Expr) (q : Query) : Query × Nat :=
  let step (e : Expr) : StateM Nat Expr := fun n =>
    let (e, m) := e.replace f
    (e, n + m)
  (q.mapExprM step).run 0

/-! ### Nested queries -/

section

variable {m : Type → Type} [Monad m]

mutual

/-- Maps the queries that the nodes of an expression are made of. -/
def Expr.mapQueryM (f : Query → m Query) : Expr → m Expr
  | .subquery query => return .subquery (← f query)
  | .exists query negated => return .exists (← f query) negated
  | .inQuery operand query negated => do
    let query ← f query
    return .inQuery (← operand.mapQueryM f) query negated
  | .binary left op right => do
    let left ← left.mapQueryM f
    return .binary left op (← right.mapQueryM f)
  | .unary op operand => return .unary op (← operand.mapQueryM f)
  | .call name arguments distinct => return .call name (← mapQueriesM f arguments) distinct
  | .case operand branches otherwise => do
    let operand ← mapOptionQueryM f operand
    let branches ← mapBranchQueriesM f branches
    let otherwise ← mapOptionQueryM f otherwise
    return .case operand branches otherwise
  | .inList operand values negated => do
    let operand ← operand.mapQueryM f
    return .inList operand (← mapQueriesM f values) negated
  | .between operand low high negated => do
    let operand ← operand.mapQueryM f
    let low ← low.mapQueryM f
    return .between operand low (← high.mapQueryM f) negated
  | .isNull operand negated => return .isNull (← operand.mapQueryM f) negated
  | .isTruth operand value negated => return .isTruth (← operand.mapQueryM f) value negated
  | .cast operand type => return .cast (← operand.mapQueryM f) type
  | .paren inner => return .paren (← inner.mapQueryM f)
  | .column table name => return .column table name
  | .literal value => return .literal value
  | .param name => return .param name
  | .interval text => return .interval text
  | .star table => return .star table
  | .raw sql => return .raw sql

def mapOptionQueryM (f : Query → m Query) : Option Expr → m (Option Expr)
  | none => return none
  | some e => return some (← e.mapQueryM f)

def mapQueriesM (f : Query → m Query) : List Expr → m (List Expr)
  | [] => return []
  | e :: rest => do
    let e ← e.mapQueryM f
    return e :: (← mapQueriesM f rest)

def mapBranchQueriesM (f : Query → m Query) : List Branch → m (List Branch)
  | [] => return []
  | ⟨condition, result⟩ :: rest => do
    let condition ← condition.mapQueryM f
    let result ← result.mapQueryM f
    return ⟨condition, result⟩ :: (← mapBranchQueriesM f rest)

end

def Source.mapQueryM (f : Query → m Query) : Source → m Source
  | .derived query label => return .derived (← f query) label
  | .named table => return .named table
  | .raw sql => return .raw sql

def FromItem.mapQueryM (f : Query → m Query) (s : FromItem) : m FromItem := do
  let source ← s.source.mapQueryM f
  let joins ← s.joins.mapM fun j => return { j with source := ← j.source.mapQueryM f }
  return ⟨source, joins⟩

/-- Maps the queries directly nested in a query, in their order. -/
def Query.mapChildrenM (f : Query → m Query) (q : Query) : m Query := do
  let ctes ← q.ctes.mapM fun c => return { c with query := ← f c.query }
  let setOperation ← q.setOperation.mapM fun o => do
    let left ← f o.left
    return { o with left, right := ← f o.right }
  let sources ← q.sources.mapM (FromItem.mapQueryM f)
  { q with ctes, setOperation, sources }.mapExprM (Expr.mapQueryM f)

/-- Applies a step to a query and to the queries nested in the result, down to a depth. -/
def Query.forEachWithin (step : Query → m Query) : Nat → Query → m Query
  | 0, q => return q
  | n + 1, q => do (← step q).mapChildrenM (forEachWithin step n)

/-- Applies a step to a query and to the queries nested in the result. No step nests queries more
deeply, so that their number bounds the depth. -/
def Query.forEachM (step : Query → m Query) (q : Query) : m Query :=
  q.forEachWithin step q.queries.length

end

def Query.forEach (step : Query → Query) (q : Query) : Query :=
  Id.run (q.forEachM fun q => pure (step q))

/-- Applies a step that can fail to a query and to the queries nested in the result, until it fails
for one. What the step has made of that query stays, and it is not taken on those after it. -/
def Query.tryForEach {σ ε : Type} (step : Query → σ → Query × σ × Option ε) (q : Query) (s : σ) :
    Query × σ × Option ε :=
  let guarded (q : Query) : StateM (σ × Option ε) Query := fun (s, failure) =>
    match failure with
    | some e => (q, s, some e)
    | none => step q s
  (q.forEachM guarded).run (s, none)

/-- How far a step has come that can fail: the queries it was applied to, and whether it failed. -/
structure UntilState where
  applied : Nat
  failed : Bool
  deriving DecidableEq, Repr

/-- Applies a step to a query and to the queries nested in the result until it fails for one. That
query and those after it stay as they are. -/
def Query.forEachUntil (step : Query → Option Query) (q : Query) : Query × UntilState :=
  let counted (q : Query) (n : Nat) : Query × Nat × Option Unit :=
    match step q with
    | some q => (q, n + 1, none)
    | none => (q, n, some ())
  let (q, n, failure) := q.tryForEach counted 0
  (q, ⟨n, failure.isSome⟩)

/-- Replaces columns in a query and in the queries nested in it, and counts them. Queries inside
the replacement are entered too. -/
def Query.replaceColumns (isReplaced : Expr → Bool) (replacement : Expr) (q : Query) :
    Query × Nat :=
  let step (q : Query) : StateM Nat Query := fun n =>
    let (q, m) := q.replaceExprs fun node => if isReplaced node then some replacement else none
    (q, n + m)
  (q.forEachWithin step (q.queries.length + replacement.queries.length)).run 0

/-! ### Conjunctions -/

/-- The conditions joined by AND, through parentheses that only group such conditions. -/
def Expr.conjuncts : Expr → List Expr
  | .binary left .and right => left.conjuncts ++ right.conjuncts
  | .paren (.binary left .and right) => left.conjuncts ++ right.conjuncts
  | e => [e]

/-- A disjunction in parentheses, and any other condition as it is. -/
def Expr.asConjunct (e : Expr) : Expr :=
  match e with
  | .binary _ .or _ => .paren e
  | e => e

/-- The conditions joined by AND; none where there is no condition. -/
def conjunction (conditions : List Expr) : Option Expr :=
  match conditions.map Expr.asConjunct with
  | [] => none
  | e :: rest => some (rest.foldl Expr.and e)

/-- Changes the conditions that the WHERE clause of a query joins by AND. -/
def Query.editConjuncts (edit : List Expr → List Expr) (q : Query) : Query :=
  { q with condition := conjunction (edit ((q.condition.map Expr.conjuncts).getD [])) }

end ReportSql.Tree
