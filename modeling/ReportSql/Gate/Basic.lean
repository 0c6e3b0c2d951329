import ReportSql.Gate.Policy
import ReportSql.Sql.Grammar
import ReportSql.Sql.Placeholder
import ReportSql.Sql.Walk
import ReportSql.Text.Blank

/-!
The gate for SQL from outside. A text passes if it is a single SELECT that only reads, and only
what a policy allows; everything inside the statement is looked at.
-/

namespace ReportSql.Gate

open Sql (Body Lexeme Query Statement Visit)

/-- Why a text is refused. -/
inductive Refusal where
  | empty
  | malformed
  | multipleStatements (count : Nat)
  | notSelect
  | forbidden (operation : Operation)
  | relation (name : String)
  deriving DecidableEq, Repr

def Refusal.message : Refusal → String
  | .empty => "empty SQL"
  | .malformed => "SQL parse error"
  | .multipleStatements count =>
    "multiple SQL statements are not allowed (found " ++ toString count ++ ")"
  | .notSelect => "only SELECT queries are allowed"
  | .forbidden operation => operation.text ++ " is not allowed"
  | .relation name => "relation " ++ name ++ " is not allowed"

/-! ### The statement -/

/-- Whether a SELECT outside of parentheses makes a table. -/
def selectsInto : Body → Bool
  | .select s => s.into.isSome
  | .setOperation left _ _ right => selectsInto left || selectsInto right
  | _ => false

def cteNames (q : Query) : List String := q.ctes.map fun c => Text.lower c.label.name.value

def isLimited (q : Query) : Bool := q.limit.isSome || q.fetch.isSome

/-- Looks at what a walk meets, where the names defined so far are given; gives all the names that
are defined. -/
def checkVisit (p : Policy) (ctes : List String) : Visit → Except Refusal (List String)
  | .query q =>
    if !q.locks.isEmpty then .error (.forbidden .lockingRead)
    else if selectsInto q.body then .error (.forbidden .selectInto)
    else .ok (ctes ++ cteNames q)
  | .relation name =>
    let parts := name.map fun i => Text.lower i.value
    if p.allowsRelation parts ctes then .ok ctes
    else .error (.relation (String.intercalate "." parts))
  | .call name =>
    match name.getLast? with
    | some i =>
      if p.forbidsFunction i.value then .error (.forbidden (.function (Text.lower i.value)))
      else .ok ctes
    | none => .ok ctes
  | .change keyword => .error (.forbidden (.ofKeyword keyword))

def checkVisits (p : Policy) (visits : List Visit) : Except Refusal Unit := do
  let _ ← visits.foldlM (checkVisit p) []

/-- Whether a query is a SELECT, in parentheses or not. -/
def isSelect : Query → Bool
  | ⟨_, _, .select _, _, _, _, _, _, _, _⟩ => true
  | ⟨_, _, .query q, _, _, _, _, _, _, _⟩ => isSelect q
  | _ => false

/-- Whether a query of a walk has a limit. -/
def hasLimit (visits : List Visit) : Bool :=
  visits.any fun
    | .query q => isLimited q
    | _ => false

/-! ### The text -/

/-- The lexemes from the first to the last one that is no filler. -/
def trimLexemes (lexemes : List Lexeme) : List Lexeme :=
  let isFiller (l : Lexeme) := l.token.isFiller
  (((lexemes.dropWhile isFiller).reverse).dropWhile isFiller).reverse

/-- A text without the blanks, comments and semicolons around it. -/
def trimText (text : String) : String :=
  match Sql.lex text with
  | some lexemes =>
    if lexemes.all fun l => l.token.isFiller then Text.trim text
    else String.ofList ((trimLexemes lexemes).flatMap Lexeme.source)
  | none => Text.trim text

/-! ### The gate -/

/-- A statement that passed. -/
structure Accepted where
  /-- The text without what surrounds the statement. -/
  text : String
  /-- Whether there is a limit anywhere in the statement. -/
  hasLimit : Bool
  /-- The statement, with its placeholders masked. -/
  query : Query

def checkStatement (p : Policy) (s : Statement) : Except Refusal Query := do
  checkVisits p s.visits
  match s with
  | .query q => if isSelect q then .ok q else .error .notSelect
  | .command _ => .error .notSelect

def check (p : Policy) (text : String) : Except Refusal Accepted := do
  if (Text.trim text).isEmpty then .error .empty
  match Sql.statements? (Sql.Placeholder.mask text) with
  | none => .error .malformed
  | some [] => .error .empty
  | some [s] =>
    let q ← checkStatement p s
    return ⟨trimText text, hasLimit q.visits, q⟩
  | some statements => .error (.multipleStatements statements.length)

end ReportSql.Gate
