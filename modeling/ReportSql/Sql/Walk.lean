import ReportSql.Sql.Syntax

/-!
What a walk over the syntax of a statement meets: its queries, the relations they read, the
functions they call, and statements inside them that are no queries. The parts of a construct
come in a fixed order, each after the construct that it belongs to.
-/

namespace ReportSql.Sql

inductive Visit where
  | query (query : Query)
  /-- A relation that is read by its name. -/
  | relation (name : List Ident)
  /-- A call in an expression. A function in a FROM list is a relation. -/
  | call (name : List Ident)
  /-- A statement that is no query. -/
  | change (keyword : String)

mutual

def Expr.visits : Expr → List Visit
  | .name _ | .wildcard _ | .value _ | .typed _ _ => []
  | .binary left _ right => left.visits ++ right.visits
  | .unary _ operand => operand.visits
  | .nested inner => inner.visits
  | .isNull operand _ => operand.visits
  | .isTruth operand _ _ => operand.visits
  | .inList operand items _ => operand.visits ++ exprVisits items
  | .inQuery operand query _ => operand.visits ++ query.visits
  | .between operand low high _ => operand.visits ++ low.visits ++ high.visits
  | .like operand pattern _ _ _ _ => operand.visits ++ pattern.visits
  | .cast _ operand _ _ => operand.visits
  | .interval value _ => value.visits
  | .trim _ characters operand => operand.visits ++ optionVisits characters
  | .call name _ _ arguments clauses within filter _ window =>
    .call name :: argumentVisits arguments ++ piecesVisits clauses ++ optionVisits filter
      ++ piecesVisits window ++ piecesVisits within
  | .case operand branches otherwise =>
    optionVisits operand ++ conditionVisits branches ++ resultVisits branches
      ++ optionVisits otherwise
  | .exists query _ => query.visits
  | .subquery query => query.visits
  | .phrase pieces => piecesVisits pieces

def optionVisits : Option Expr → List Visit
  | none => []
  | some e => e.visits

def exprVisits : List Expr → List Visit
  | [] => []
  | e :: rest => e.visits ++ exprVisits rest

def conditionVisits : List CaseBranch → List Visit
  | [] => []
  | ⟨condition, _⟩ :: rest => condition.visits ++ conditionVisits rest

def resultVisits : List CaseBranch → List Visit
  | [] => []
  | ⟨_, result⟩ :: rest => result.visits ++ resultVisits rest

def Piece.visits : Piece → List Visit
  | .text _ => []
  | .expr e => e.visits
  | .query q => q.visits
  | .table t => t.visits

def piecesVisits : List Piece → List Visit
  | [] => []
  | p :: rest => p.visits ++ piecesVisits rest

def Argument.visits : Argument → List Visit
  | .expr e => e.visits
  | .star => []
  | .phrase pieces => piecesVisits pieces

def argumentVisits : List Argument → List Visit
  | [] => []
  | a :: rest => a.visits ++ argumentVisits rest

def Query.visits : Query → List Visit
  | q@⟨_, ctes, body, orderBy, limit, offset, _, _, _, _⟩ =>
    .query q :: cteVisits ctes ++ body.visits ++ orderVisits orderBy ++ optionVisits limit
      ++ optionVisits offset

def cteVisits : List Cte → List Visit
  | [] => []
  | ⟨_, _, query, _⟩ :: rest => query.visits ++ cteVisits rest

def orderVisits : List OrderItem → List Visit
  | [] => []
  | ⟨expr, _, _⟩ :: rest => expr.visits ++ orderVisits rest

def Body.visits : Body → List Visit
  | .select s => s.visits
  | .query q => q.visits
  | .setOperation left _ _ right => left.visits ++ right.visits
  | .values pieces => piecesVisits pieces
  | .table _ => []
  | .change keyword _ => [.change keyword]

def Select.visits : Select → List Visit
  | ⟨_, distinctKeys, top, items, _, sources, views, condition, _, groupBy, sorting, having,
      windows, qualify, _⟩ =>
    exprVisits distinctKeys ++ piecesVisits top ++ itemVisits items ++ sourceVisits sources
      ++ piecesVisits views ++ optionVisits condition ++ exprVisits groupBy
      ++ piecesVisits sorting ++ optionVisits having ++ piecesVisits windows
      ++ optionVisits qualify

def itemVisits : List SelectItem → List Visit
  | [] => []
  | .expr e _ :: rest => e.visits ++ itemVisits rest
  | .wildcard _ :: rest => itemVisits rest

def Source.visits : Source → List Visit
  | ⟨table, joins⟩ => table.visits ++ joinVisits joins

def sourceVisits : List Source → List Visit
  | [] => []
  | s :: rest => s.visits ++ sourceVisits rest

def joinVisits : List Join → List Visit
  | [] => []
  | ⟨_, _, table, matching, _, condition⟩ :: rest =>
    table.visits ++ piecesVisits matching ++ optionVisits condition ++ joinVisits rest

def Table.visits : Table → List Visit
  | .named name _ arguments _ _ hints =>
    .relation name :: argumentVisits arguments ++ exprVisits hints
  | .derived _ query _ => query.visits
  | .function _ arguments _ => argumentVisits arguments
  | .joined source _ => source.visits
  | .phrase pieces => piecesVisits pieces

end

def Statement.visits : Statement → List Visit
  | .query q => q.visits
  | .command keyword => [.change keyword]

end ReportSql.Sql
