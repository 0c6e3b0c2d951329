import ReportSql.Calendar.Date
import ReportSql.Number.Binary64
import ReportSql.Sql.Syntax

/-!
The tree of a reporting query. Plans are compiled to it, and queries from outside are read into
it, so that a rewrite works on typed nodes. What the tree does not model is kept as raw SQL.
-/

namespace ReportSql.Tree

open Sql (SetOperator)

inductive Literal where
  | int (value : Int)
  | float (value : Binary64)
  | text (value : String)
  | boolean (value : Bool)
  | date (value : Date)
  | null
  deriving DecidableEq, Repr

inductive BinaryOp where
  | eq | ne | lt | gt | ltEq | gtEq
  | and | or
  | plus | minus | times | divide | modulo
  | concat | like | notLike | ilike | notIlike
  deriving DecidableEq, Repr

inductive UnaryOp where
  | not
  | minus
  deriving DecidableEq, Repr

inductive JoinKind where
  | inner
  | left
  | right
  | full
  | cross
  deriving DecidableEq, Repr

inductive Direction where
  | ascending
  | descending
  deriving DecidableEq, Repr

inductive NullsPlace where
  | first
  | last
  deriving DecidableEq, Repr

/-- A relation by name. -/
structure TableRef where
  schema : Option String
  table : String
  label : Option String
  deriving DecidableEq, Repr

/-- The number of rows a query gives at most and how many it passes over. -/
structure RowRange where
  limit : Option UInt64
  offset : Option UInt64
  deriving DecidableEq, Repr

mutual

inductive Expr where
  | column (table : Option String) (name : String)
  | literal (value : Literal)
  /-- A named parameter, bound when the query is run. -/
  | param (name : String)
  | binary (left : Expr) (op : BinaryOp) (right : Expr)
  | unary (op : UnaryOp) (operand : Expr)
  | call (name : String) (arguments : List Expr) (distinct : Bool)
  | case (operand : Option Expr) (branches : List Branch) (otherwise : Option Expr)
  | subquery (query : Query)
  | exists (query : Query) (negated : Bool)
  | inList (operand : Expr) (values : List Expr) (negated : Bool)
  | inQuery (operand : Expr) (query : Query) (negated : Bool)
  | between (operand low high : Expr) (negated : Bool)
  | isNull (operand : Expr) (negated : Bool)
  /-- `IS [NOT] TRUE` or `IS [NOT] FALSE` -/
  | isTruth (operand : Expr) (value : Bool) (negated : Bool)
  | cast (operand : Expr) (type : String)
  | interval (text : String)
  | star (table : Option String)
  | paren (inner : Expr)
  | raw (sql : String)

/-- `WHEN condition THEN result` -/
structure Branch where
  condition : Expr
  result : Expr

/-- A query. A set operation takes the place of its select list and the clauses up to HAVING; the
others apply around it. -/
structure Query where
  ctes : List Cte
  items : List SelectItem
  distinct : Bool
  sources : List FromItem
  condition : Option Expr
  groupBy : List Expr
  having : Option Expr
  orderBy : List OrderItem
  rows : Option RowRange
  setOperation : Option SetOperation

structure Cte where
  name : String
  columns : Option (List String)
  query : Query
  isRecursive : Bool

structure SelectItem where
  expr : Expr
  label : Option String

/-- An entry of the FROM list with the joins chained onto it. -/
structure FromItem where
  source : Source
  joins : List Join

structure Join where
  kind : JoinKind
  source : Source
  condition : Option Expr

/-- What can stand in a FROM list. -/
inductive Source where
  | named (table : TableRef)
  | derived (query : Query) (label : Option String)
  | raw (sql : String)

structure OrderItem where
  expr : Expr
  direction : Option Direction
  nulls : Option NullsPlace

structure SetOperation where
  left : Query
  op : SetOperator
  all : Bool
  right : Query

end

/-- The query with no clause at all. -/
def Query.empty : Query where
  ctes := []
  items := []
  distinct := false
  sources := []
  condition := none
  groupBy := []
  having := none
  orderBy := []
  rows := none
  setOperation := none

/-- The name that columns of a relation are qualified with. -/
def TableRef.binding (t : TableRef) : String := t.label.getD t.table

def TableRef.ofName (table : String) : TableRef where
  schema := none
  table
  label := none

/-- The sources of an entry of the FROM list, the leading one first. -/
def FromItem.allSources (f : FromItem) : List Source := f.source :: f.joins.map Join.source

end ReportSql.Tree
