import ReportSql.Number.Shortest
import ReportSql.Output.Quoting
import ReportSql.Sql.Placeholder
import ReportSql.Text.Casing

/-!
The tokens that SQL is written in. Keywords, punctuation and operators have a fixed text; the
others carry the name or the value that they show.
-/

namespace ReportSql.Output

/-- A token with a fixed text. -/
inductive Mark where
  | select | from | where | and | or | not | as | on
  | join | inner | left | right | full | outer | cross
  | groupBy | having | orderBy | asc | desc | nullsFirst | nullsLast
  | case | when | then | else | end
  | in | between | like | ilike | is | isNull | isNotNull | exists
  | distinct | all | union | intersect | except | with | recursive
  | interval | true | false | null | limit | offset
  | comma | dot | star | leftParen | rightParen
  | eq | ne | lt | gt | ltEq | gtEq | plus | minus | times | divide | modulo
  | space | newline
  deriving DecidableEq, Repr

def Mark.text : Mark → String
  | .select => "SELECT" | .from => "FROM" | .where => "WHERE" | .and => "AND" | .or => "OR"
  | .not => "NOT" | .as => "AS" | .on => "ON"
  | .join => "JOIN" | .inner => "INNER" | .left => "LEFT" | .right => "RIGHT" | .full => "FULL"
  | .outer => "OUTER" | .cross => "CROSS"
  | .groupBy => "GROUP BY" | .having => "HAVING" | .orderBy => "ORDER BY" | .asc => "ASC"
  | .desc => "DESC" | .nullsFirst => "NULLS FIRST" | .nullsLast => "NULLS LAST"
  | .case => "CASE" | .when => "WHEN" | .then => "THEN" | .else => "ELSE" | .end => "END"
  | .in => "IN" | .between => "BETWEEN" | .like => "LIKE" | .ilike => "ILIKE" | .is => "IS"
  | .isNull => "IS NULL" | .isNotNull => "IS NOT NULL" | .exists => "EXISTS"
  | .distinct => "DISTINCT" | .all => "ALL" | .union => "UNION" | .intersect => "INTERSECT"
  | .except => "EXCEPT" | .with => "WITH" | .recursive => "RECURSIVE"
  | .interval => "INTERVAL" | .true => "TRUE" | .false => "FALSE" | .null => "NULL"
  | .limit => "LIMIT" | .offset => "OFFSET"
  | .comma => "," | .dot => "." | .star => "*" | .leftParen => "(" | .rightParen => ")"
  | .eq => "=" | .ne => "<>" | .lt => "<" | .gt => ">" | .ltEq => "<=" | .gtEq => ">="
  | .plus => "+" | .minus => "-" | .times => "*" | .divide => "/" | .modulo => "%"
  | .space => " " | .newline => "\n"

inductive Token where
  | mark (mark : Mark)
  /-- The operator that joins two texts. -/
  | concat
  | indent (depth : Nat)
  | ident (name : String)
  /-- A name that a schema may qualify. -/
  | qualified (schema : Option String) (name : String)
  | int (value : Int)
  | float (value : Binary64)
  | text (value : String)
  | boolean (value : Bool)
  | date (text : String)
  | param (name : String)
  | castTo (type : String)
  /-- The name of a function, which is written in upper case. -/
  | function (name : String)
  /-- SQL that is passed on as it is. -/
  | raw (sql : String)
  deriving DecidableEq, Repr

/-- The text of a token that carries nothing. -/
def Token.fixedText : Token → Option String
  | .mark m => some m.text
  | _ => none

/-- Numbers that have no literal are written as NULL. -/
def floatText : Binary64 → String
  | .finite negative m e => Binary64.finiteText negative m e
  | _ => "NULL"

def Token.render : Token → String
  | .mark m => m.text
  | .concat => "||"
  | .indent depth => String.ofList (List.replicate (2 * depth) ' ')
  | .ident name => identifier name
  | .qualified (some schema) name => identifier schema ++ "." ++ identifier name
  | .qualified none name => identifier name
  | .int value => toString value
  | .float value => floatText value
  | .text value => textLiteral value
  | .boolean value => booleanLiteral value
  | .date day => dateLiteral day
  | .param name => Sql.Placeholder.text name
  | .castTo type => castSuffix type
  | .function name => Text.upper name
  | .raw sql => sql

/-- The SQL that some tokens spell. -/
def sqlText (tokens : List Token) : String := String.join (tokens.map Token.render)

/-- Groups of tokens with a separator between each two. -/
def separated (separator : List Token) : List (List Token) → List Token
  | [] => []
  | [group] => group
  | group :: rest => group ++ separator ++ separated separator rest

def commaSeparated (groups : List (List Token)) : List Token :=
  separated [.mark .comma, .mark .space] groups

/-- A row count as a number of 64 bits with a sign. -/
def rowCount (n : UInt64) : Int := n.toInt64.toInt

/-- The LIMIT and OFFSET of a query. -/
def limitOffset (limit offset : Option UInt64) : List Token :=
  (match limit with
    | some n => [.mark .limit, .mark .space, .int (rowCount n)]
    | none => [])
  ++ (if limit.isSome && offset.isSome then [.mark .space] else [])
  ++ (match offset with
    | some n => [.mark .offset, .mark .space, .int (rowCount n)]
    | none => [])

end ReportSql.Output
