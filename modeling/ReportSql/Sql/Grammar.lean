import ReportSql.Sql.Grammar.Commands
import ReportSql.Sql.Lexer

/-!
Reading the statements of a text. Statements, queries and expressions nest in one another up to a
fixed depth; a text that nests more deeply is refused.
-/

namespace ReportSql.Sql

namespace Grammar

/-- The parsers with a number of levels left. -/
def nesting : Nat → Nesting
  | 0 => Nesting.none
  | n + 1 => {
      exprAbove := fun precedence => Grammar.exprAbove (nesting n) precedence
      query := Grammar.query (nesting n)
      statement := Grammar.statement (nesting n) }

/-- How many statements, queries and expressions may stand inside one another. -/
def depthLimit : Nat := 50

end Grammar

/-- The tokens of lexemes without the blanks and comments between them. -/
def significantTokens (lexemes : List Lexeme) : List Token :=
  (lexemes.map Lexeme.token).filter fun t => t != .blank && t != .comment

/-- The statements of some tokens; empty ones are left out. -/
def readStatements (tokens : List Token) : Except Failure (List Statement) :=
  (Grammar.statements (Grammar.nesting Grammar.depthLimit).statement tokens).map Prod.fst

/-- The statements of a text, unless it cannot be read. -/
def statements? (text : String) : Option (List Statement) := do
  let lexemes ← lex text
  (readStatements (significantTokens lexemes)).toOption

end ReportSql.Sql
