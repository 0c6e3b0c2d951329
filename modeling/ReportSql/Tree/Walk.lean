import ReportSql.Text.Casing
import ReportSql.Tree.Basic

/-!
The parts of a tree in their order. The nodes of an expression are listed without those of the
queries inside it; the queries of a query are listed with every query nested in them.
-/

namespace ReportSql.Tree

/-! ### Nodes of an expression -/

mutual

/-- An expression and the expressions inside it, each before its parts. -/
def Expr.nodes : Expr → List Expr
  | e@(.binary left _ right) => e :: left.nodes ++ right.nodes
  | e@(.unary _ operand) => e :: operand.nodes
  | e@(.call _ arguments _) => e :: nodesOf arguments
  | e@(.case operand branches otherwise) =>
    e :: (match operand with | some o => o.nodes | none => [])
      ++ branchNodes branches
      ++ (match otherwise with | some o => o.nodes | none => [])
  | e@(.inList operand values _) => e :: operand.nodes ++ nodesOf values
  | e@(.inQuery operand _ _) => e :: operand.nodes
  | e@(.between operand low high _) => e :: operand.nodes ++ low.nodes ++ high.nodes
  | e@(.isNull operand _) => e :: operand.nodes
  | e@(.isTruth operand _ _) => e :: operand.nodes
  | e@(.cast operand _) => e :: operand.nodes
  | e@(.paren inner) => e :: inner.nodes
  | e => [e]

def nodesOf : List Expr → List Expr
  | [] => []
  | e :: rest => e.nodes ++ nodesOf rest

def branchNodes : List Branch → List Expr
  | [] => []
  | ⟨condition, result⟩ :: rest => condition.nodes ++ result.nodes ++ branchNodes rest

end

def Expr.any (p : Expr → Bool) (e : Expr) : Bool := e.nodes.any p

/-- The query that a node is made of, if it is made of one. -/
def Expr.query? : Expr → Option Query
  | .subquery q | .exists q _ | .inQuery _ q _ => some q
  | _ => none

/-! ### Parts of a query -/

/-- The expressions of a query itself: its select list, join conditions, WHERE, GROUP BY, HAVING
and ORDER BY. -/
def Query.exprs (q : Query) : List Expr :=
  q.items.map SelectItem.expr
    ++ q.sources.flatMap (fun f => f.joins.filterMap Join.condition)
    ++ q.condition.toList ++ q.groupBy ++ q.having.toList ++ q.orderBy.map OrderItem.expr

/-- The sources in the FROM list of a query. -/
def Query.allSources (q : Query) : List Source := q.sources.flatMap FromItem.allSources

/-- The relations that the FROM list of a query names. -/
def Query.namedTables (q : Query) : List TableRef :=
  q.allSources.filterMap fun
    | .named t => some t
    | _ => none

/-! ### Nested queries -/

mutual

/-- A query followed by the queries nested in it, each before those inside it. -/
def Query.queries : Query → List Query
  | q@⟨ctes, items, _, sources, condition, groupBy, having, orderBy, _, setOperation⟩ =>
    q :: cteQueries ctes
      ++ (match setOperation with | some o => o.queries | none => [])
      ++ fromQueries sources
      ++ itemQueries items
      ++ joinConditionQueries sources
      ++ (match condition with | some e => e.queries | none => [])
      ++ exprQueries groupBy
      ++ (match having with | some e => e.queries | none => [])
      ++ orderQueries orderBy

def cteQueries : List Cte → List Query
  | [] => []
  | ⟨_, _, query, _⟩ :: rest => query.queries ++ cteQueries rest

def SetOperation.queries : SetOperation → List Query
  | ⟨left, _, _, right⟩ => left.queries ++ right.queries

def Source.queries : Source → List Query
  | .derived query _ => query.queries
  | .named _ => []
  | .raw _ => []

def joinSourceQueries : List Join → List Query
  | [] => []
  | ⟨_, source, _⟩ :: rest => source.queries ++ joinSourceQueries rest

def fromQueries : List FromItem → List Query
  | [] => []
  | ⟨source, joins⟩ :: rest => source.queries ++ joinSourceQueries joins ++ fromQueries rest

def itemQueries : List SelectItem → List Query
  | [] => []
  | ⟨expr, _⟩ :: rest => expr.queries ++ itemQueries rest

def conditionQueries : List Join → List Query
  | [] => []
  | ⟨_, _, condition⟩ :: rest =>
    (match condition with | some e => e.queries | none => []) ++ conditionQueries rest

def joinConditionQueries : List FromItem → List Query
  | [] => []
  | ⟨_, joins⟩ :: rest => conditionQueries joins ++ joinConditionQueries rest

def orderQueries : List OrderItem → List Query
  | [] => []
  | ⟨expr, _, _⟩ :: rest => expr.queries ++ orderQueries rest

/-- The queries nested in an expression. -/
def Expr.queries : Expr → List Query
  | .subquery query => query.queries
  | .exists query _ => query.queries
  | .inQuery operand query _ => query.queries ++ operand.queries
  | .binary left _ right => left.queries ++ right.queries
  | .unary _ operand => operand.queries
  | .call _ arguments _ => exprQueries arguments
  | .case operand branches otherwise =>
    (match operand with | some e => e.queries | none => [])
      ++ branchQueries branches
      ++ (match otherwise with | some e => e.queries | none => [])
  | .inList operand values _ => operand.queries ++ exprQueries values
  | .between operand low high _ => operand.queries ++ low.queries ++ high.queries
  | .isNull operand _ => operand.queries
  | .isTruth operand _ _ => operand.queries
  | .cast operand _ => operand.queries
  | .paren inner => inner.queries
  | .column _ _ | .literal _ | .param _ | .interval _ | .star _ | .raw _ => []

def exprQueries : List Expr → List Query
  | [] => []
  | e :: rest => e.queries ++ exprQueries rest

def branchQueries : List Branch → List Query
  | [] => []
  | ⟨condition, result⟩ :: rest => condition.queries ++ result.queries ++ branchQueries rest

end

/-! ### Columns and aggregates -/

def aggregateNames : List String := ["sum", "count", "avg", "min", "max"]

def Expr.isAggregate : Expr → Bool
  | .call name _ _ => aggregateNames.contains (Text.asciiLower name)
  | _ => false

def Expr.containsAggregate (e : Expr) : Bool := e.any Expr.isAggregate

/-- Whether a node is a column of a given name with one of some qualifiers, or with none where
that is allowed. -/
def Expr.isColumnOf (qualifiers : List String) (name : String) (unqualified : Bool) : Expr → Bool
  | .column (some table) own =>
    Text.sameIgnoringAsciiCase own name
      && qualifiers.any fun q => Text.sameIgnoringAsciiCase q table
  | .column none own => Text.sameIgnoringAsciiCase own name && unqualified
  | _ => false

def Expr.mentionsColumn (qualifiers : List String) (name : String) (unqualified : Bool)
    (e : Expr) : Bool :=
  e.any (Expr.isColumnOf qualifiers name unqualified)

end ReportSql.Tree
