import ReportSql.Sql.Placeholder
import ReportSql.Text.Alphabetic
import ReportSql.Text.Blank
import ReportSql.Tree.Walk

/-!
What a query refers to: the names of a relation in its FROM list, the relations that it reads
anywhere, and the parameters that it mentions. Raw SQL is searched as text.
-/

namespace ReportSql.Tree

open Text

/-! ### Relations in raw SQL -/

/-- Whether a word ends or starts between two characters. -/
def isWordEdge (before after : Option Char) : Bool :=
  before.any isWordChar != after.any isWordChar

/-- The rest of a text that starts with another one, where case is ignored, and the last
character before that rest. -/
def dropIgnoringCase (before : Option Char) : List Char → List Char →
    Option (Option Char × List Char)
  | [], s => some (before, s)
  | _ :: _, [] => none
  | p :: ps, c :: rest =>
    if foldCase p == foldCase c then dropIgnoringCase (some c) ps rest else none

/-- Whether a relation of some name starts a text, as a whole word. -/
def namesTable (table : List Char) (before : Option Char) (s : List Char) : Bool :=
  match dropIgnoringCase before table s with
  | some (last, rest) => isWordEdge last rest.head?
  | none => false

/-- Whether a relation follows, or a word and a period and then the relation. -/
def namesTableQualified (table : List Char) (before : Option Char) (s : List Char) : Bool :=
  namesTable table before s ||
    let word := s.takeWhile isWordChar
    match s.dropWhile isWordChar with
    | '.' :: rest => !word.isEmpty && namesTable table (some '.') rest
    | _ => false

/-- Whether one or more blanks follow and then a relation. -/
def namesTableAfterBlanks (table : List Char) : List Char → Bool
  | [] => false
  | c :: rest =>
    isBlank c && (namesTableQualified table (some c) rest || namesTableAfterBlanks table rest)

/-- Whether a text starts with a keyword, blanks and a relation. -/
def readsAfter (keyword table : List Char) (s : List Char) : Bool :=
  match dropIgnoringCase none keyword s with
  | some (_, rest) => namesTableAfterBlanks table rest
  | none => false

def readsFrom (table : List Char) (before : Option Char) : List Char → Bool
  | [] => false
  | c :: rest =>
    (isWordEdge before (some c)
      && (readsAfter "from".toList table (c :: rest) || readsAfter "join".toList table (c :: rest)))
    || readsFrom table (some c) rest

/-- Whether raw SQL names a relation after FROM or JOIN. -/
def rawReads (table : String) (sql : String) : Bool := readsFrom table.toList none sql.toList

/-! ### Relations -/

/-- Adds a name that is not there yet. -/
def addName (names : List String) (name : String) : List String :=
  if names.contains name then names else names ++ [name]

/-- The names that qualify columns of a relation in a query; none where it is not in its FROM
list. -/
def Query.qualifiersFor (q : Query) (table : String) : List String :=
  (q.namedTables.filter fun t => sameIgnoringAsciiCase t.table table).foldl
    (fun names t => addName (addName names t.table) t.binding) []

/-- The raw SQL in the sources and expressions of a query itself. -/
def Query.rawFragments (q : Query) : List String :=
  q.allSources.filterMap (fun
    | .raw sql => some sql
    | _ => none)
  ++ (q.exprs.flatMap Expr.nodes).filterMap fun
    | .raw sql => some sql
    | _ => none

/-- Whether a relation is read anywhere in a query. -/
def Query.reads (q : Query) (table : String) : Bool :=
  q.queries.any fun b => !(b.qualifiersFor table).isEmpty || b.rawFragments.any (rawReads table)

/-! ### Parameters -/

def Expr.isParamOrMentions (name : String) : Expr → Bool
  | .param own => own == name
  | .raw sql => Sql.Placeholder.mentions sql name
  | _ => false

/-- Whether a parameter is mentioned anywhere in a query. -/
def Query.references (q : Query) (param : String) : Bool :=
  q.queries.any fun b =>
    b.exprs.any (Expr.any (Expr.isParamOrMentions param))
      || b.rawFragments.any fun sql => Sql.Placeholder.mentions sql param

end ReportSql.Tree
