import ReportSql.Join.Path
import ReportSql.Text.Scan

/-!
Joining tables to a base table. Joins are put into an order in which each of them brings in one
new table and refers to tables that are there already.
-/

namespace ReportSql.Join

open Catalog (Edge EdgeKind Schema)
open ReportSql.Tree (Expr)

/-- A join that brings in a table. -/
structure Step where
  table : String
  kind : EdgeKind
  condition : Expr

def Step.join (s : Step) : Tree.Join where
  kind := match s.kind with
    | .inner => .inner
    | .left => .left
  source := .ofName s.table
  condition := some s.condition

/-- How far a round through the joins has come: the tables that are there, the joins made, and
those that refer to no table yet. -/
structure Progress where
  present : List String
  steps : List Step
  stuck : List Edge
  /-- Whether a join was made or found to be implied. -/
  moved : Bool

def Progress.add (p : Progress) (table : String) (e : Edge) : Progress :=
  { p with
    present := table :: p.present
    steps := p.steps ++ [⟨table, e.kind, e.condition⟩]
    moved := true }

/-- Makes a join if one of its tables is there. If both are, the join is implied. -/
def Progress.take (p : Progress) (e : Edge) : Progress :=
  match p.present.contains e.leftTable, p.present.contains e.rightTable with
  | true, false => p.add e.rightTable e
  | false, true => p.add e.leftTable e
  | true, true => { p with moved := true }
  | false, false => { p with stuck := p.stuck ++ [e] }

/-- Goes through the remaining joins until a round makes none of them. -/
def rounds : Nat → List String → List Step → List Edge → List Step × List Edge
  | 0, _, steps, remaining => (steps, remaining)
  | _, _, steps, [] => (steps, [])
  | n + 1, present, steps, remaining =>
    let p := remaining.foldl Progress.take ⟨present, steps, [], false⟩
    if p.moved then rounds n p.present p.steps p.stuck else (p.steps, p.stuck)

/-- The joins in order. A round with progress leaves fewer joins over. -/
def order (base : String) (edges : List Edge) : Except Fault (List Step) :=
  match rounds edges.length [base] [] edges with
  | (steps, []) => .ok steps
  | (_, stuck) =>
    .error (.stuck (Text.sortedSet (stuck.flatMap fun e => [e.leftTable, e.rightTable])))

/-- Adds the joins that are not there yet. -/
def addEdges (known : List Edge) (more : List Edge) : List Edge :=
  more.foldl (fun known e => if known.contains e then known else known ++ [e]) known

/-- The joins that connect a base with the required tables, by the path to each of them in
ascending order. -/
def resolve (s : Schema) (base : String) (required : List String) : Except Fault (List Step) := do
  let edges ← (Text.sortedSet required).foldlM
    (fun known table => return addEdges known (← path s base table)) []
  order base edges

end ReportSql.Join
