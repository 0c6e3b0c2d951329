import ReportSql.Catalog.Schema

/-!
Paths between tables over the declared joins of a schema. The search goes breadth first and takes
the joins of a table in the order of their declaration, so that a path is as short as possible and
the same every time.
-/

namespace ReportSql.Join

open Catalog (Edge Schema)

inductive Fault where
  | unknownTable (name : String)
  | noPath (start target : String)
  | stuck (tables : List String)
  deriving DecidableEq, Repr

def Fault.message : Fault → String
  | .unknownTable name => "unknown table: " ++ name
  | .noPath start target => "no join path from '" ++ start ++ "' to '" ++ target ++ "'"
  | .stuck tables => "unable to order joins; remaining tables: " ++ String.intercalate ", " tables

/-- A table that is reached, and the joins that lead to it from the start. -/
structure Trail where
  table : String
  edges : List Edge
  deriving DecidableEq, Repr

/-- The table at the other end of a join. -/
def otherEnd? (table : String) (e : Edge) : Option String :=
  if e.leftTable == table then some e.rightTable
  else if e.rightTable == table then some e.leftTable
  else none

def isReached (reached : List Trail) (table : String) : Bool :=
  reached.any fun t => t.table == table

/-- The trails that go on from one by a join to a table not reached yet. -/
def extensions (reached : List Trail) (current : Trail) : List Edge → List Trail
  | [] => []
  | e :: rest =>
    match otherEnd? current.table e with
    | some table =>
      if isReached reached table then extensions reached current rest
      else
        let next : Trail := ⟨table, current.edges ++ [e]⟩
        next :: extensions (next :: reached) current rest
    | none => extensions reached current rest

/-- Follows the waiting trails in their order, and adds what they lead to. -/
def follow (edges : List Edge) : Nat → List Trail → List Trail → List Trail
  | 0, _, reached => reached
  | _, [], reached => reached
  | n + 1, current :: waiting, reached =>
    let next := extensions reached current edges
    follow edges n (waiting ++ next) (reached ++ next)

/-- The tables connected with a start. Each table waits once at most, so that their number bounds
the rounds. -/
def trails (s : Schema) (start : String) : List Trail :=
  follow s.edges s.tables.length [⟨start, []⟩] [⟨start, []⟩]

/-- The joins on the shortest path between two tables. -/
def path (s : Schema) (start target : String) : Except Fault (List Edge) :=
  if (s.table? start).isNone then .error (.unknownTable start)
  else if (s.table? target).isNone then .error (.unknownTable target)
  else match (trails s start).find? fun t => t.table == target with
    | some trail => .ok trail.edges
    | none => .error (.noPath start target)

end ReportSql.Join
