import ReportSql.Calendar.Format
import ReportSql.Output.Token
import ReportSql.Tree.Basic

/-!
The SQL of a tree, as tokens. Each clause of a query starts a line.
-/

namespace ReportSql.Tree

open Output (Token Mark)
open Sql (SetOperator)

def Literal.token : Literal → Token
  | .int n => .int n
  | .float x => .float x
  | .text s => .text s
  | .boolean b => .boolean b
  | .date d => .date d.text
  | .null => .mark .null

def BinaryOp.tokens : BinaryOp → List Token
  | .eq => [.mark .eq]
  | .ne => [.mark .ne]
  | .lt => [.mark .lt]
  | .gt => [.mark .gt]
  | .ltEq => [.mark .ltEq]
  | .gtEq => [.mark .gtEq]
  | .and => [.mark .and]
  | .or => [.mark .or]
  | .plus => [.mark .plus]
  | .minus => [.mark .minus]
  | .times => [.mark .times]
  | .divide => [.mark .divide]
  | .modulo => [.mark .modulo]
  | .concat => [.concat]
  | .like => [.mark .like]
  | .notLike => [.mark .not, .mark .space, .mark .like]
  | .ilike => [.mark .ilike]
  | .notIlike => [.mark .not, .mark .space, .mark .ilike]

/-- Whether a cast can follow without parentheses. -/
def Expr.isAtomic : Expr → Bool
  | .column _ _ | .literal _ | .param _ | .call _ _ _ | .case _ _ _ | .subquery _ | .cast _ _
  | .interval _ | .paren _ => true
  | _ => false

/-- `NOT` before a word, after a blank. -/
def spacedNot (negated : Bool) : List Token :=
  if negated then [.mark .space, .mark .not] else []

def leadingNot (negated : Bool) : List Token :=
  if negated then [.mark .not, .mark .space] else []

def aliasTokens : Option String → List Token
  | some name => [.mark .space, .mark .as, .mark .space, .ident name]
  | none => []

/-- A word between blanks. -/
def spaced (m : Mark) : List Token := [.mark .space, .mark m, .mark .space]

/-- A word at the start of a line, and a blank. -/
def lineStart (m : Mark) : List Token := [.mark .newline, .mark m, .mark .space]

def parens (inner : List Token) : List Token := .mark .leftParen :: inner ++ [.mark .rightParen]

def qualifier : Option String → List Token
  | some name => [.ident name, .mark .dot]
  | none => []

def TableRef.tokens (t : TableRef) : List Token :=
  .qualified t.schema t.table :: aliasTokens t.label

def JoinKind.tokens : JoinKind → List Token
  | .inner => [.mark .inner]
  | .left => [.mark .left]
  | .right => [.mark .right]
  | .full => [.mark .full, .mark .space, .mark .outer]
  | .cross => [.mark .cross]

def Direction.mark : Direction → Mark
  | .ascending => .asc
  | .descending => .desc

def NullsPlace.mark : NullsPlace → Mark
  | .first => .nullsFirst
  | .last => .nullsLast

def setOperatorMark : SetOperator → Mark
  | .union => .union
  | .intersect => .intersect
  | .except => .except

/-- Whether a query is a set operation with no clause around it. -/
def Query.isBareSetOperation (q : Query) : Bool :=
  q.setOperation.isSome && q.ctes.isEmpty && q.orderBy.isEmpty && q.rows.isNone

def RowRange.tokens (r : RowRange) : List Token := Output.limitOffset r.limit r.offset

mutual

def Expr.tokens : Expr → List Token
  | .column table name => qualifier table ++ [.ident name]
  | .literal value => [value.token]
  | .param name => [.param name]
  | .binary left op right =>
    left.tokens ++ [.mark .space] ++ op.tokens ++ [.mark .space] ++ right.tokens
  | .unary .not operand => .mark .not :: .mark .space :: operand.tokens
  | .unary .minus operand => .mark .minus :: operand.tokens
  | .call name arguments distinct =>
    .function name :: parens ((if distinct then [.mark .distinct, .mark .space] else [])
      ++ Output.commaSeparated (exprGroups arguments))
  | .case operand branches otherwise =>
    .mark .case
      :: (match operand with | some e => .mark .space :: e.tokens | none => [])
      ++ branchTokens branches
      ++ (match otherwise with | some e => spaced .else ++ e.tokens | none => [])
      ++ [.mark .space, .mark .end]
  | .subquery query => parens query.tokens
  | .exists query negated =>
    leadingNot negated ++ [.mark .exists, .mark .space] ++ parens query.tokens
  | .inList operand values negated =>
    -- an empty list cannot be written; nothing is in it
    match values with
    | [] => [.mark (if negated then .true else .false)]
    | values =>
      operand.tokens ++ spacedNot negated ++ spaced .in
        ++ parens (Output.commaSeparated (exprGroups values))
  | .inQuery operand query negated =>
    operand.tokens ++ spacedNot negated ++ spaced .in ++ parens query.tokens
  | .between operand low high negated =>
    operand.tokens ++ spacedNot negated ++ spaced .between ++ low.tokens ++ spaced .and
      ++ high.tokens
  | .isNull operand negated =>
    operand.tokens ++ [.mark .space, .mark (if negated then .isNotNull else .isNull)]
  | .isTruth operand value negated =>
    operand.tokens ++ spaced .is ++ leadingNot negated
      ++ [.mark (if value then .true else .false)]
  | .cast operand type =>
    (if operand.isAtomic then operand.tokens else parens operand.tokens) ++ [.castTo type]
  | .interval value => [.mark .interval, .mark .space, .text value]
  | .star table => qualifier table ++ [.mark .star]
  | .paren inner => parens inner.tokens
  | .raw sql => [.raw sql]

def exprGroups : List Expr → List (List Token)
  | [] => []
  | e :: rest => e.tokens :: exprGroups rest

def branchTokens : List Branch → List Token
  | [] => []
  | ⟨condition, result⟩ :: rest =>
    spaced .when ++ condition.tokens ++ spaced .then ++ result.tokens ++ branchTokens rest

def Query.tokens : Query → List Token
  | ⟨ctes, items, distinct, sources, condition, groupBy, having, orderBy, rows, setOperation⟩ =>
    (if ctes.isEmpty then []
      else .mark .with
        :: (if ctes.any Cte.isRecursive then [.mark .space, .mark .recursive] else [])
        ++ [.mark .space]
        ++ Output.separated [.mark .comma, .mark .newline] (cteGroups ctes) ++ [.mark .newline])
    ++ (match setOperation with
      | some operation => operation.tokens
      | none =>
        .mark .select :: (if distinct then [.mark .space, .mark .distinct] else [])
        ++ (if items.isEmpty then []
          else [.mark .newline, .indent 1]
            ++ Output.separated [.mark .comma, .mark .newline, .indent 1] (itemGroups items))
        ++ (if sources.isEmpty then []
          else lineStart .from ++ Output.commaSeparated (sourceGroups sources))
        ++ (match condition with | some e => lineStart .where ++ e.tokens | none => [])
        ++ (if groupBy.isEmpty then []
          else lineStart .groupBy ++ Output.commaSeparated (exprGroups groupBy))
        ++ (match having with | some e => lineStart .having ++ e.tokens | none => []))
    ++ (if orderBy.isEmpty then []
      else lineStart .orderBy ++ Output.commaSeparated (orderGroups orderBy))
    ++ (match rows with | some r => .mark .newline :: r.tokens | none => [])

def Cte.tokens : Cte → List Token
  | ⟨name, columns, query, _⟩ =>
    .ident name
      :: (match columns with
        | some names =>
          .mark .space :: parens (Output.commaSeparated (names.map fun c => [.ident c]))
        | none => [])
      ++ spaced .as ++ parens (.mark .newline :: query.tokens ++ [.mark .newline])

def cteGroups : List Cte → List (List Token)
  | [] => []
  | c :: rest => c.tokens :: cteGroups rest

def SelectItem.tokens : SelectItem → List Token
  | ⟨expr, label⟩ => expr.tokens ++ aliasTokens label

def itemGroups : List SelectItem → List (List Token)
  | [] => []
  | i :: rest => i.tokens :: itemGroups rest

def FromItem.tokens : FromItem → List Token
  | ⟨source, joins⟩ => source.tokens ++ joinTokens joins

def sourceGroups : List FromItem → List (List Token)
  | [] => []
  | f :: rest => f.tokens :: sourceGroups rest

def Join.tokens : Join → List Token
  | ⟨kind, source, condition⟩ =>
    kind.tokens ++ spaced .join ++ source.tokens
      ++ (match condition with | some e => spaced .on ++ e.tokens | none => [])

/-- Joins, each of them on a line of its own. -/
def joinTokens : List Join → List Token
  | [] => []
  | j :: rest => .mark .newline :: j.tokens ++ joinTokens rest

def Source.tokens : Source → List Token
  | .named table => table.tokens
  | .derived query label =>
    parens (.mark .newline :: query.tokens ++ [.mark .newline]) ++ aliasTokens label
  | .raw sql => [.raw sql]

def OrderItem.tokens : OrderItem → List Token
  | ⟨expr, direction, nulls⟩ =>
    expr.tokens
      ++ (match direction with | some d => [.mark .space, .mark d.mark] | none => [])
      ++ (match nulls with | some n => [.mark .space, .mark n.mark] | none => [])

def orderGroups : List OrderItem → List (List Token)
  | [] => []
  | o :: rest => o.tokens :: orderGroups rest

/-- A chain of set operations to the left needs no parentheses. -/
def SetOperation.tokens : SetOperation → List Token
  | ⟨left, op, all, right⟩ =>
    (if left.isBareSetOperation then left.tokens else parens left.tokens)
      ++ [.mark .newline, .mark (setOperatorMark op)]
      ++ (if all then [.mark .space, .mark .all] else [])
      ++ [.mark .newline] ++ parens right.tokens

end

def Expr.sql (e : Expr) : String := Output.sqlText e.tokens

def Query.sql (q : Query) : String := Output.sqlText q.tokens

end ReportSql.Tree
