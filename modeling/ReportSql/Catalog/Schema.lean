import ReportSql.Tree.Build

/-!
Schemas: the tables of a reporting database with their special columns, the joins declared between
them, and what marks a transaction as finished. A schema can only be built without faults.
-/

namespace ReportSql.Catalog

open ReportSql.Tree (Expr)

/-- Whether a table holds events or describes them. -/
inductive Role where
  | fact
  | dimension
  deriving DecidableEq, Repr

/-- A tree of rows inside one table. -/
structure Hierarchy where
  id : String
  parent : String
  label : String
  deriving DecidableEq, Repr

structure Table where
  name : String
  role : Role
  primaryKey : String
  /-- The column that holds the tenant. -/
  scopeColumn : Option String
  dateColumn : Option String
  /-- A flag for rows that were canceled. -/
  cancelColumn : Option String
  /-- A table that supplies the date and the tenant of this one. -/
  anchor : Option String
  hierarchy : Option Hierarchy
  deriving DecidableEq, Repr

/-- Which rows a declared join keeps. -/
inductive EdgeKind where
  | inner
  | left
  deriving DecidableEq, Repr

/-- A declared join of two tables by a key of each. -/
structure Edge where
  leftTable : String
  leftKey : String
  rightTable : String
  rightKey : String
  kind : EdgeKind
  deriving DecidableEq, Repr

def Edge.condition (e : Edge) : Expr :=
  (Expr.colOf e.leftTable e.leftKey).eq (Expr.colOf e.rightTable e.rightKey)

/-- The table of transactions, and the value of a column that marks a finished one. -/
structure CompletedState where
  table : String
  column : String
  value : String
  deriving DecidableEq, Repr

/-- The condition that a transaction is finished, for a table under some name. -/
def CompletedState.predicate (s : CompletedState) (qualifier : String) : Expr :=
  (Expr.colOf qualifier s.column).eq (.text s.value)

/-! ### Faults -/

inductive SchemaFault where
  | duplicateTable (name : String)
  | unknownReference (owner table : String)
  | invalidJoin (left right : String)
  deriving DecidableEq, Repr

def SchemaFault.message : SchemaFault → String
  | .duplicateTable name => "duplicate table: " ++ name
  | .unknownReference owner table => owner ++ " references unknown table " ++ table
  | .invalidJoin left right =>
    "join edge " ++ left ++ " -> " ++ right ++ " references an unknown table"

/-- The first name that has come before. -/
def firstRepeated (seen : List String) : List String → Option String
  | [] => none
  | name :: rest => if seen.contains name then some name else firstRepeated (name :: seen) rest

def anchorFault? (names : List String) (t : Table) : Option SchemaFault :=
  match t.anchor with
  | some anchor =>
    if names.contains anchor then none else some (.unknownReference t.name anchor)
  | none => none

def edgeFault? (names : List String) (e : Edge) : Option SchemaFault :=
  if names.contains e.leftTable && names.contains e.rightTable then none
  else some (.invalidJoin e.leftTable e.rightTable)

def completedFault? (names : List String) (completed : Option CompletedState) :
    Option SchemaFault :=
  match completed with
  | some state =>
    if names.contains state.table then none
    else some (.unknownReference "completed_state" state.table)
  | none => none

/-- The first fault of a schema: a table that is declared twice, or a name of no table. -/
def schemaFault? (tables : List Table) (edges : List Edge) (completed : Option CompletedState) :
    Option SchemaFault :=
  let names := tables.map Table.name
  ((firstRepeated [] names).map .duplicateTable)
    <|> tables.findSome? (anchorFault? names)
    <|> edges.findSome? (edgeFault? names)
    <|> completedFault? names completed

/-! ### Schemas -/

structure Schema where
  tables : List Table
  edges : List Edge
  completed : Option CompletedState
  faultless : schemaFault? tables edges completed = none

/-- Builds a schema unless it has a fault. -/
def Schema.build (tables : List Table) (edges : List Edge) (completed : Option CompletedState) :
    Except SchemaFault Schema :=
  match h : schemaFault? tables edges completed with
  | some fault => .error fault
  | none => .ok ⟨tables, edges, completed, h⟩

/-- A name that a catalog does not have. -/
inductive LookupFault where
  | unknownTable (name : String)
  | unknownMetric (key : String)
  deriving DecidableEq, Repr

def LookupFault.message : LookupFault → String
  | .unknownTable name => "unknown table: " ++ name
  | .unknownMetric key => "unknown metric: " ++ key

namespace Schema

def table? (s : Schema) (name : String) : Option Table := s.tables.find? fun t => t.name == name

def table (s : Schema) (name : String) : Except LookupFault Table :=
  match s.table? name with
  | some t => .ok t
  | none => .error (.unknownTable name)

/-- The table that scopes a table to a tenant: its anchor if it has one. -/
def scopeTable (s : Schema) (name : String) : Except LookupFault Table := do
  let t ← s.table name
  match t.anchor with
  | some anchor => s.table anchor
  | none => return t

/-- The table and column that date the rows of a table: its own or else its anchor's. -/
def dateSource (s : Schema) (name : String) : Except LookupFault (Option (Table × String)) := do
  let t ← s.table name
  match t.dateColumn, t.anchor with
  | some column, _ => return some (t, column)
  | none, some anchor =>
    let anchor ← s.table anchor
    return anchor.dateColumn.map (anchor, ·)
  | none, none => return none

end Schema

/-- The condition that a row belongs to a tenant, if the table has a column for it. -/
def Table.scoping? (t : Table) (tenant : Expr) : Option Expr :=
  t.scopeColumn.map fun column => (Expr.colOf t.name column).lower.eq tenant.lower

/-- The condition that a row is not canceled, if the table has a flag for it. -/
def Table.cancellation? (t : Table) : Option Expr :=
  t.cancelColumn.map fun column => (Expr.colOf t.name column).isNotTrue

/-- The conditions on the rows of a table by themselves. -/
def Table.defaultFilters (t : Table) (tenant : Expr) : List Expr :=
  (t.scoping? tenant).toList ++ t.cancellation?.toList

end ReportSql.Catalog
