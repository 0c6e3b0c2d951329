import ReportSql.Tree.Basic

/-!
Building trees: the expressions that reports are made of, and the clauses of a query one by one.
-/

namespace ReportSql.Tree

/-! ### Expressions -/

namespace Expr

def col (name : String) : Expr := .column none name

def colOf (table name : String) : Expr := .column (some table) name

def text (s : String) : Expr := .literal (.text s)

def int (n : Int) : Expr := .literal (.int n)

def null : Expr := .literal .null

def callOf (name : String) (arguments : List Expr) : Expr := .call name arguments false

def lower (e : Expr) : Expr := callOf "LOWER" [e]

def sum (e : Expr) : Expr := callOf "SUM" [e]

def truncate (unit : String) (e : Expr) : Expr := callOf "DATE_TRUNC" [text unit, e]

def eq (a b : Expr) : Expr := .binary a .eq b

def lt (a b : Expr) : Expr := .binary a .lt b

def ge (a b : Expr) : Expr := .binary a .gtEq b

def and (a b : Expr) : Expr := .binary a .and b

def or (a b : Expr) : Expr := .binary a .or b

def add (a b : Expr) : Expr := .binary a .plus b

def sub (a b : Expr) : Expr := .binary a .minus b

def mul (a b : Expr) : Expr := .binary a .times b

def div (a b : Expr) : Expr := .binary a .divide b

/-- False and unknown are both not true. -/
def isNotTrue (e : Expr) : Expr := .isTruth e true true

def isOneOf (e : Expr) (values : List Expr) : Expr := .inList e values false

/-- `CASE WHEN condition THEN result ELSE otherwise END` -/
def ifElse (condition result otherwise : Expr) : Expr :=
  .case none [⟨condition, result⟩] (some otherwise)

def as (e : Expr) (name : String) : SelectItem := ⟨e, some name⟩

def item (e : Expr) : SelectItem := ⟨e, none⟩

def ascending (e : Expr) : OrderItem := ⟨e, some .ascending, none⟩

def descending (e : Expr) : OrderItem := ⟨e, some .descending, none⟩

end Expr

/-! ### Queries -/

namespace Query

def ofItems (items : List SelectItem) : Query := { Query.empty with items }

def select (q : Query) (items : List SelectItem) : Query := { q with items }

def addSource (q : Query) (source : Source) : Query :=
  { q with sources := q.sources ++ [⟨source, []⟩] }

/-- Chains a join onto the last entry of a FROM list; an empty list starts with its source. -/
def joinOnto (j : Join) : List FromItem → List FromItem
  | [] => [⟨j.source, []⟩]
  | [f] => [{ f with joins := f.joins ++ [j] }]
  | f :: rest => f :: joinOnto j rest

def join (q : Query) (j : Join) : Query := { q with sources := joinOnto j q.sources }

/-- Adds a condition to the WHERE clause. -/
def filter (q : Query) (condition : Expr) : Query :=
  { q with condition := some (match q.condition with
    | some existing => existing.and condition
    | none => condition) }

def filterAll (q : Query) (conditions : List Expr) : Query := conditions.foldl filter q

def withGroups (q : Query) (groupBy : List Expr) : Query := { q with groupBy }

def withOrder (q : Query) (orderBy : List OrderItem) : Query := { q with orderBy }

def withLimit (q : Query) (limit : UInt64) : Query :=
  { q with rows := some ⟨some limit, q.rows.bind RowRange.offset⟩ }

def withCte (q : Query) (cte : Cte) : Query := { q with ctes := q.ctes ++ [cte] }

end Query

/-- A relation by its plain name. -/
def Source.ofName (table : String) : Source := .named (.ofName table)

def Cte.ofQuery (name : String) (query : Query) : Cte where
  name
  columns := none
  query
  isRecursive := false

end ReportSql.Tree
