import ReportSql.Proofs.ReadOperands
import ReportSql.Proofs.Spelling
import ReportSql.Tree.Render

/-!
The syntax that the text of a tree is read as. How tightly the operators of a tree bind tells where
its text needs no parentheses.
-/
namespace ReportSql.Tree

open Output (isWrittenBare nameToken spelled)
open Sql (Ident)

/-! ### Names, literals and operators -/

/-- A name as it is read. -/
def nameIdent (name : String) : Ident := ⟨name, if isWrittenBare name then .bare else .double⟩

def Literal.toSyntax : Literal → Sql.Expr
  | .int n => .value (.number (toString n) false)
  | .float x => .value (.number (Output.floatText x) false)
  | .text s => .value (.text .plain s)
  | .boolean b => .value (.boolean b)
  | .date d => .typed ⟨"DATE", .date⟩ d.text
  | .null => .value .null

/-- A binary expression in the syntax of its operator. -/
def BinaryOp.toSyntax (op : BinaryOp) (left right : Sql.Expr) : Sql.Expr :=
  match op with
  | .eq => .binary left .eq right
  | .ne => .binary left .notEq right
  | .lt => .binary left .lt right
  | .gt => .binary left .gt right
  | .ltEq => .binary left .ltEq right
  | .gtEq => .binary left .gtEq right
  | .and => .binary left .and right
  | .or => .binary left .or right
  | .plus => .binary left .plus right
  | .minus => .binary left .minus right
  | .times => .binary left .times right
  | .divide => .binary left .divide right
  | .modulo => .binary left .modulo right
  | .concat => .binary left .concat right
  | .like => .like left right false false false none
  | .notLike => .like left right false false true none
  | .ilike => .like left right true false false none
  | .notIlike => .like left right true false true none

/-- How tightly an operator binds when it is read. -/
def BinaryOp.precedence : BinaryOp → Nat
  | .or => 10
  | .and => 20
  | .eq | .ne | .lt | .gt | .ltEq | .gtEq => 50
  | .like | .notLike | .ilike | .notIlike => 60
  | .concat => 70
  | .plus | .minus => 80
  | .times | .divide | .modulo => 90

def UnaryOp.toSyntax (op : UnaryOp) (operand : Sql.Expr) : Sql.Expr :=
  match op with
  | .not => .unary .not operand
  | .minus => .unary .minus operand

def UnaryOp.precedence : UnaryOp → Nat
  | .not => Sql.Grammar.notPrecedence
  | .minus => Sql.Grammar.signPrecedence

/-- The type that a word is read as after a cast. -/
def castType? (type : String) : Option Sql.DataType :=
  match Sql.Grammar.dataType [.word type false] with
  | .ok (found, []) => some found
  | _ => none

def castType (type : String) : Sql.DataType := (castType? type).getD ⟨type, .custom⟩

def JoinKind.toSyntax : JoinKind → Sql.JoinOperator
  | .inner => .inner
  | .left => .left
  | .right => .right
  | .full => .full
  | .cross => .cross

def aliasSyntax (label : Option String) : Option Sql.Alias := label.map fun l => ⟨nameIdent l, []⟩

def TableRef.toSyntax (t : TableRef) : Sql.Table :=
  let name := nameIdent t.table
  .named (match t.schema with | some s => [nameIdent s, name] | none => [name]) false [] false
    (aliasSyntax t.label) []

/-- Whether an expression is a star alone. -/
def Expr.isStar : Expr → Bool
  | .star none => true
  | _ => false

/-- Whether an expression is a star that was kept as raw SQL. -/
def Expr.isWildcard : Expr → Bool
  | .raw sql => sql == "*"
  | _ => false

def countSyntax (n : UInt64) : Sql.Expr :=
  .value (.number (toString (Output.rowCount n)) false)

/-! ### The syntax of a tree -/

mutual

/-- The syntax that the text of an expression is read as. -/
def Expr.toSyntax : Expr → Sql.Expr
  | .column table name =>
    .name (match table with | some t => [nameIdent t, nameIdent name] | none => [nameIdent name])
  | .literal value => value.toSyntax
  | .param name => .value (.text .plain (Sql.Placeholder.sentinelMark ++ name))
  | .binary left op right => op.toSyntax left.toSyntax right.toSyntax
  | .unary op operand => op.toSyntax operand.toSyntax
  | .call name arguments distinct =>
    .call [⟨Text.upper name, .bare⟩] false (.list (if distinct then some "DISTINCT" else none))
      (argumentsSyntax arguments) [] [] none none []
  | .case operand branches otherwise =>
    .case (optionSyntax operand) (branchesSyntax branches) (optionSyntax otherwise)
  | .subquery query => .subquery query.toSyntax
  | .exists query negated => .exists query.toSyntax negated
  | .inList operand values negated =>
    match values with
    | [] => .value (.boolean negated)
    | values => .inList operand.toSyntax (exprsSyntax values) negated
  | .inQuery operand query negated => .inQuery operand.toSyntax query.toSyntax negated
  | .between operand low high negated =>
    .between operand.toSyntax low.toSyntax high.toSyntax negated
  | .isNull operand negated => .isNull operand.toSyntax negated
  | .isTruth operand value negated => .isTruth operand.toSyntax value negated
  | .cast operand type =>
    .cast .suffix (if operand.isAtomic then operand.toSyntax else .nested operand.toSyntax)
      (castType type) none
  | .interval text => .interval (.value (.text .plain text)) ⟨false, ""⟩
  | .star table => .wildcard (match table with | some t => [nameIdent t] | none => [])
  | .paren inner => .nested inner.toSyntax
  | .raw sql => .value (.number sql false)

def optionSyntax : Option Expr → Option Sql.Expr
  | none => none
  | some e => some e.toSyntax

def exprsSyntax : List Expr → List Sql.Expr
  | [] => []
  | e :: rest => e.toSyntax :: exprsSyntax rest

def argumentsSyntax : List Expr → List Sql.Argument
  | [] => []
  | e :: rest => (if e.isStar then .star else .expr e.toSyntax) :: argumentsSyntax rest

def branchesSyntax : List Branch → List Sql.CaseBranch
  | [] => []
  | ⟨condition, result⟩ :: rest => ⟨ condition.toSyntax, result.toSyntax⟩ :: branchesSyntax rest

/-- The syntax that the text of a query is read as. -/
def Query.toSyntax : Query → Sql.Query
  | ⟨ctes, items, distinct, sources, condition, groupBy, having, orderBy, rows, setOperation⟩ => {
      isRecursive := ctes.any Cte.isRecursive
      ctes := ctesSyntax ctes
      body := match setOperation with
        | some operation => operation.toSyntax
        | none => .select {
            distinct := if distinct then .rows else .unmarked
            distinctKeys := []
            top := []
            items := itemsSyntax items
            into := none
            sources := sourcesSyntax sources
            views := []
            condition := optionSyntax condition
            groupAll := false
            groupBy := exprsSyntax groupBy
            sorting := []
            having := optionSyntax having
            windows := []
            qualify := none
            windowsFirst := false }
      orderBy := ordersSyntax orderBy
      limit := (rows.bind RowRange.limit).map countSyntax
      offset := (rows.bind RowRange.offset).map countSyntax
      offsetUnit := .unmarked
      fetch := none
      locks := []
      output := none }

def ctesSyntax : List Cte → List Sql.Cte
  | [] => []
  | ⟨name, _, query, _⟩ :: rest =>
      ⟨⟨nameIdent name, []⟩, none, query.toSyntax, none⟩ :: ctesSyntax rest

def itemsSyntax : List SelectItem → List Sql.SelectItem
  | [] => []
  | ⟨expr, label⟩ :: rest =>
    (if expr.isWildcard then .wildcard [] else .expr expr.toSyntax (label.map nameIdent))
      :: itemsSyntax rest

def sourcesSyntax : List FromItem → List Sql.Source
  | [] => []
  | ⟨source, joins⟩ :: rest => ⟨ source.toSyntax, joinsSyntax joins⟩ :: sourcesSyntax rest

def Source.toSyntax : Source → Sql.Table
  | .named table => table.toSyntax
  | .derived query label => .derived false query.toSyntax (aliasSyntax label)
  | .raw _ => .phrase []

def joinsSyntax : List Join → List Sql.Join
  | [] => []
  | ⟨kind, source, condition⟩ :: rest =>
    ⟨false, kind.toSyntax, source.toSyntax, [], if condition.isSome then .on else .unmarked,
      optionSyntax condition⟩ :: joinsSyntax rest

def ordersSyntax : List OrderItem → List Sql.OrderItem
  | [] => []
  | ⟨expr, direction, nulls⟩ :: rest =>
    ⟨ expr.toSyntax, direction.map (· == .ascending), nulls.map (· == .first)⟩ :: ordersSyntax rest

/-- Operands are read in parentheses, except for a chain of set operations to the left. -/
def SetOperation.toSyntax : SetOperation → Sql.Body
  | ⟨left, op, all, right⟩ =>
    .setOperation (if left.isBareSetOperation then left.toSyntax.body else .query left.toSyntax) op
      (if all then .all else .unmarked) (.query right.toSyntax)

end

/-! ### How tightly a tree binds -/

/-- How tightly what binds least to the left of an expression does: an operator that binds more
tightly takes the expression apart when it stands in front. -/
def Expr.level : Expr → Nat
  | .binary left op _ => min op.precedence left.level
  | .inList operand (_ :: _) _ | .inQuery operand _ _ | .between operand _ _ _ =>
    min Sql.Grammar.testPrecedence operand.level
  | .isNull operand _ | .isTruth operand _ _ => min 40 operand.level
  | .cast _ _ => 140
  | _ => 200

/-- How tightly what binds least to the right of an expression does. -/
def Expr.edge : Expr → Nat
  | .binary _ op right => min op.precedence right.edge
  | .unary op operand => min op.precedence operand.edge
  | .between _ _ high _ => min Sql.Grammar.testPrecedence high.edge
  | _ => 200

mutual

/-- How many levels of expressions and queries are read inside an expression. -/
def Expr.depth : Expr → Nat
  | .binary left _ right => max left.depth (right.depth + 1)
  | .unary _ operand | .paren operand => operand.depth + 1
  | .call _ arguments _ => exprsDepth arguments + 1
  | .case operand branches otherwise =>
    max (optionDepth operand) (max (branchesDepth branches) (optionDepth otherwise)) + 1
  | .subquery query | .exists query _ => query.depth + 1
  | .inList operand values _ => max operand.depth (exprsDepth values + 1)
  | .inQuery operand query _ => max operand.depth (query.depth + 1)
  | .between operand low high _ => max operand.depth (max low.depth high.depth + 1)
  | .isNull operand _ | .isTruth operand _ _ => operand.depth
  | .cast operand _ => if operand.isAtomic then operand.depth else operand.depth + 1
  | .column _ _ | .literal _ | .param _ | .interval _ | .star _ | .raw _ => 0

def optionDepth : Option Expr → Nat
  | none => 0
  | some e => e.depth

def exprsDepth : List Expr → Nat
  | [] => 0
  | e :: rest => max e.depth (exprsDepth rest)

def branchesDepth : List Branch → Nat
  | [] => 0
  | ⟨condition, result⟩ :: rest => max (max condition.depth result.depth) (branchesDepth rest)

/-- How many levels of expressions and queries are read inside a query. -/
def Query.depth : Query → Nat
  | ⟨ctes, items, _, sources, condition, groupBy, having, orderBy, _, setOperation⟩ =>
    max (ctesDepth ctes) (max
      (match setOperation with
        | some operation => operation.depth
        | none => max (itemsDepth items) (max (sourcesDepth sources)
          (max (optionDepth condition + 1) (max (exprsDepth groupBy + 1)
            (optionDepth having + 1)))))
      (ordersDepth orderBy + 1))

def ctesDepth : List Cte → Nat
  | [] => 0
  | ⟨_, _, query, _⟩ :: rest => max (query.depth + 1) (ctesDepth rest)

def itemsDepth : List SelectItem → Nat
  | [] => 0
  | ⟨expr, _⟩ :: rest => max (expr.depth + 1) (itemsDepth rest)

def sourcesDepth : List FromItem → Nat
  | [] => 0
  | ⟨source, joins⟩ :: rest => max (max source.depth (joinsDepth joins)) (sourcesDepth rest)

def Source.depth : Source → Nat
  | .derived query _ => query.depth + 1
  | .named _ | .raw _ => 0

def joinsDepth : List Join → Nat
  | [] => 0
  | ⟨_, source, condition⟩ :: rest =>
    max (max source.depth (optionDepth condition + 1)) (joinsDepth rest)

def ordersDepth : List OrderItem → Nat
  | [] => 0
  | ⟨expr, _, _⟩ :: rest => max expr.depth (ordersDepth rest)

def SetOperation.depth : SetOperation → Nat
  | ⟨left, _, _, right⟩ =>
    max (if left.isBareSetOperation then left.depth else left.depth + 1) (right.depth + 1)

end

section

-- the equations of depths, made before the proofs that would wait for them
attribute [local simp] Expr.depth
attribute [local simp] Query.depth
attribute [local simp] Source.depth
attribute [local simp] SetOperation.depth

end

end ReportSql.Tree
