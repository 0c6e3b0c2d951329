import ReportSql.Sql.Parser
import ReportSql.Sql.Printer

/-!
What the grammar nests. The parsers of one level are built from the parsers of the level inside
it, so that the number of levels bounds how deeply a statement can nest.
-/

namespace ReportSql.Sql.Grammar

open Parse

/-- The parsers of the next level inside. -/
structure Nesting where
  /-- An expression whose operators bind more tightly than a given precedence. -/
  exprAbove : Nat → Parse Expr
  query : Parse Query
  statement : Parse Statement

def Nesting.expr (g : Nesting) : Parse Expr := g.exprAbove 0

/-- Beyond the innermost level nothing can be read. -/
def Nesting.none : Nesting where
  exprAbove _ := throw .tooDeep
  query := throw .tooDeep
  statement := throw .tooDeep

/-- Statements between semicolons, up to the end of the text or up to an END that follows a
statement. The flag says whether a statement can start. -/
def statementsWithin (statement : Parse Statement) : Nat → Bool → Parse (List Statement)
  | 0, _ => fail
  | n + 1, separated => do
    if ← accept .semicolon then statementsWithin statement n true
    else match ← peek? with
      | none => return []
      | some t =>
        if separated then
          let s ← statement
          return s :: (← statementsWithin statement n false)
        else if t.isKeyword "END" then return []
        else fail

/-- A statement and its separator take a token at least, so that the bound is never met. -/
def statements (statement : Parse Statement) : Parse (List Statement) := do
  statementsWithin statement (2 * (← ahead).length + 1) true

/-- Groups of pieces with a text between each two. -/
def joinPieces (separator : String) : List (List Piece) → List Piece
  | [] => []
  | [p] => p
  | p :: rest => p ++ .text separator :: joinPieces separator rest

def exprPieces (exprs : List Expr) : List Piece := joinPieces ", " (exprs.map fun e => [.expr e])

def OrderItem.pieces (o : OrderItem) : List Piece :=
  [.expr o.expr,
   .text ((match o.ascending with | some true => " ASC" | some false => " DESC" | none => "")
     ++ (match o.nullsFirst with
       | some true => " NULLS FIRST"
       | some false => " NULLS LAST"
       | none => ""))]

def orderPieces (items : List OrderItem) : List Piece :=
  joinPieces ", " (items.map OrderItem.pieces)

/-- Whether an order ascends, if it says so. -/
def direction : Parse (Option Bool) := do
  if ← keyword "ASC" then return some true
  else if ← keyword "DESC" then return some false
  else return none

/-- Whether NULL comes first in an order, if it says so. -/
def nullsPlace : Parse (Option Bool) := do
  if ← keywords ["NULLS", "FIRST"] then return some true
  else if ← keywords ["NULLS", "LAST"] then return some false
  else return none

/-- `expr [ASC | DESC] [NULLS FIRST | NULLS LAST]` -/
def orderItem (g : Nesting) : Parse OrderItem := do
  let e ← g.expr
  let ascending ← direction
  return ⟨e, ascending, ← nullsPlace⟩

def orderItems (g : Nesting) : Parse (List OrderItem) := commaSeparated (orderItem g)

/-- The names in front of a star, or no name for a star alone; nothing where none stands. -/
def leadingWildcard : Parse (Option (List Ident)) := do
  let start ← ahead
  let rec more : Nat → List Ident → Parse (Option (List Ident))
    | 0, _ => fail
    | n + 1, names => do
      if ← accept .period then
        if ← accept .star then return some names.reverse
        else more n ((← ident) :: names)
      else
        set start
        return none
  match start with
  | .symbol .star :: _ => do skip; return some []
  | first :: .symbol .period :: _ =>
    match first with
    | .word _ _ | .text .plain _ => more start.length [← ident]
    | _ => return none
  | _ => return none

end ReportSql.Sql.Grammar
