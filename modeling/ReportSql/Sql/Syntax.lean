import ReportSql.Sql.Token

/-!
The syntax of statements as it is read. Constructs that a report is made of have their own
constructors. All others are kept as phrases: their canonical text, interleaved with the
expressions, queries and tables inside it, so that a walk over the syntax still meets every
part of them.
-/

namespace ReportSql.Sql

inductive Quotation where
  | bare
  | double
  | single
  deriving DecidableEq, Repr

/-- A name as it is written, without its quotes. -/
structure Ident where
  value : String
  quotation : Quotation
  deriving DecidableEq, Repr

/-- A literal that stands for itself. -/
inductive Value where
  | number (text : String) (long : Bool)
  | text (form : TextForm) (value : String)
  | boolean (value : Bool)
  | null
  | placeholder (text : String)
  /-- A quoted name where only a literal can stand. -/
  | quotedName (name : String)
  deriving DecidableEq, Repr

inductive TypeSort where
  | date
  | interval
  | builtin
  | custom
  deriving DecidableEq, Repr

/-- The name of a data type in its canonical spelling. -/
structure DataType where
  text : String
  sort : TypeSort
  deriving DecidableEq, Repr

inductive BinaryOp where
  | plus | minus | times | divide | modulo | concat
  | gt | lt | gtEq | ltEq | eq | notEq | and | or
  | other (text : String)
  deriving DecidableEq, Repr

def BinaryOp.text : BinaryOp → String
  | .plus => "+" | .minus => "-" | .times => "*" | .divide => "/" | .modulo => "%"
  | .concat => "||" | .gt => ">" | .lt => "<" | .gtEq => ">=" | .ltEq => "<=" | .eq => "="
  | .notEq => "<>" | .and => "AND" | .or => "OR"
  | .other text => text

inductive UnaryOp where
  | not
  | minus
  | other (text : String)
  deriving DecidableEq, Repr

inductive CastForm where
  /-- `CAST(a AS t)` -/
  | function
  /-- `a::t` -/
  | suffix
  /-- `TRY_CAST` and `SAFE_CAST` -/
  | other (keyword : String)
  deriving DecidableEq, Repr

/-- An alias of a relation, with the texts of its column definitions. -/
structure Alias where
  name : Ident
  columns : List String
  deriving DecidableEq, Repr

inductive SetOperator where
  | union
  | intersect
  | except
  deriving DecidableEq, Repr

def SetOperator.text : SetOperator → String
  | .union => "UNION"
  | .intersect => "INTERSECT"
  | .except => "EXCEPT"

inductive SetQuantifier where
  | all
  | distinct
  | unmarked
  | byName
  | allByName
  | distinctByName
  deriving DecidableEq, Repr

def SetQuantifier.text : SetQuantifier → String
  | .all => "ALL"
  | .distinct => "DISTINCT"
  | .unmarked => ""
  | .byName => "BY NAME"
  | .allByName => "ALL BY NAME"
  | .distinctByName => "DISTINCT BY NAME"

inductive JoinOperator where
  | inner
  | left
  | right
  | full
  | cross
  | other (text : String)
  deriving DecidableEq, Repr

def JoinOperator.text : JoinOperator → String
  | .inner => "JOIN"
  | .left => "LEFT JOIN"
  | .right => "RIGHT JOIN"
  | .full => "FULL JOIN"
  | .cross => "CROSS JOIN"
  | .other text => text

/-- `ROW` or `ROWS` after the number of an OFFSET. -/
inductive OffsetUnit where
  | unmarked
  | row
  | rows
  deriving DecidableEq, Repr

/-- How a function is called. -/
inductive CallForm where
  /-- By its name alone, as `CURRENT_DATE`. -/
  | bare
  /-- With a query in the parentheses, as `ARRAY(SELECT 1)`. -/
  | subquery
  /-- With a list; the quantifier is `ALL` or `DISTINCT`. -/
  | list (quantifier : Option String)
  deriving DecidableEq, Repr

inductive DistinctForm where
  | unmarked
  | rows
  /-- `DISTINCT ON` some keys. -/
  | on
  deriving DecidableEq, Repr

inductive JoinForm where
  | unmarked
  | natural
  | using (columns : List Ident)
  | on
  deriving DecidableEq, Repr

/-- The unit after the value of an interval; it may name no field. -/
structure IntervalUnit where
  hasField : Bool
  text : String
  deriving DecidableEq, Repr

mutual

inductive Expr where
  /-- A column, with the names that qualify it first. -/
  | name (path : List Ident)
  /-- `path.*` -/
  | wildcard (path : List Ident)
  | value (value : Value)
  /-- A literal with its type in front: `DATE '2024-01-05'`. -/
  | typed (type : DataType) (value : String)
  | binary (left : Expr) (op : BinaryOp) (right : Expr)
  | unary (op : UnaryOp) (operand : Expr)
  /-- An expression in parentheses. -/
  | nested (inner : Expr)
  | isNull (operand : Expr) (negated : Bool)
  /-- `IS [NOT] TRUE` or `IS [NOT] FALSE` -/
  | isTruth (operand : Expr) (value : Bool) (negated : Bool)
  | inList (operand : Expr) (items : List Expr) (negated : Bool)
  | inQuery (operand : Expr) (query : Query) (negated : Bool)
  | between (operand low high : Expr) (negated : Bool)
  /-- `LIKE`, or `ILIKE` when it ignores case. -/
  | like (operand pattern : Expr) (ignoresCase any negated : Bool) (escape : Option String)
  | cast (form : CastForm) (operand : Expr) (type : DataType) (format : Option String)
  | interval (value : Expr) (unit : IntervalUnit)
  /-- `TRIM(side characters FROM operand)` -/
  | trim (side : Option String) (characters : Option Expr) (operand : Expr)
  /-- A function call; the clauses stand in its parentheses after the arguments. -/
  | call (name : List Ident) (inBraces : Bool) (form : CallForm) (arguments : List Argument)
      (clauses within : List Piece) (filter : Option Expr) (nulls : Option String)
      (window : List Piece)
  | case (operand : Option Expr) (branches : List CaseBranch) (otherwise : Option Expr)
  | exists (query : Query) (negated : Bool)
  | subquery (query : Query)
  | phrase (pieces : List Piece)

/-- `WHEN condition THEN result` -/
structure CaseBranch where
  condition : Expr
  result : Expr

/-- A part of a construct that is kept as a phrase. -/
inductive Piece where
  | text (text : String)
  | expr (expr : Expr)
  | query (query : Query)
  | table (table : Table)

inductive Argument where
  | expr (expr : Expr)
  | star
  | phrase (pieces : List Piece)

structure Query where
  isRecursive : Bool
  ctes : List Cte
  body : Body
  orderBy : List OrderItem
  limit : Option Expr
  offset : Option Expr
  offsetUnit : OffsetUnit
  fetch : Option String
  locks : List String
  /-- A request for JSON or XML output. -/
  output : Option String

structure Cte where
  label : Alias
  materialized : Option Bool
  query : Query
  source : Option Ident

structure OrderItem where
  expr : Expr
  ascending : Option Bool
  nullsFirst : Option Bool

inductive Body where
  | select (select : Select)
  | query (query : Query)
  | setOperation (left : Body) (op : SetOperator) (quantifier : SetQuantifier) (right : Body)
  | values (pieces : List Piece)
  | table (text : String)
  /-- A statement that changes data, by its keyword and its text. -/
  | change (keyword text : String)

structure Select where
  distinct : DistinctForm
  distinctKeys : List Expr
  top : List Piece
  items : List SelectItem
  into : Option String
  sources : List Source
  views : List Piece
  condition : Option Expr
  groupAll : Bool
  groupBy : List Expr
  /-- Clauses that cluster, distribute or sort the rows. -/
  sorting : List Piece
  having : Option Expr
  windows : List Piece
  qualify : Option Expr
  windowsFirst : Bool

inductive SelectItem where
  | expr (expr : Expr) (label : Option Ident)
  /-- `*`, or `path.*` where names qualify it. -/
  | wildcard (path : List Ident)

/-- An entry of the FROM list with the joins chained onto it. -/
structure Source where
  table : Table
  joins : List Join

structure Join where
  isGlobal : Bool
  operator : JoinOperator
  table : Table
  matching : List Piece
  form : JoinForm
  condition : Option Expr

inductive Table where
  /-- A relation by name; with arguments it is a table function. -/
  | named (name : List Ident) (isCall : Bool) (arguments : List Argument) (ordinality : Bool)
      (label : Option Alias) (hints : List Expr)
  | derived (isLateral : Bool) (query : Query) (label : Option Alias)
  /-- A function after `LATERAL`. -/
  | function (name : List Ident) (arguments : List Argument) (label : Option Alias)
  /-- Joined tables in parentheses. -/
  | joined (source : Source) (label : Option Alias)
  | phrase (pieces : List Piece)

end

/-- A statement; a command is known by its keyword only, and is never run. -/
inductive Statement where
  | query (query : Query)
  | command (keyword : String)

end ReportSql.Sql
