/-!
How names and literals are written in the SQL that reports are run with. A name is quoted only
where it would not be read back as itself.
-/

namespace ReportSql.Output

/-- Every quote written twice. -/
def doubled (quote : Char) (s : List Char) : List Char :=
  s.flatMap fun c => if c == quote then [c, c] else [c]

/-- A text between quotes, the quotes inside written twice. -/
def quoted (quote : Char) (s : String) : String :=
  String.ofList (quote :: doubled quote s.toList ++ [quote])

/-- Words that are no names unless they are quoted. -/
def reservedWords : List String :=
  ["all", "analyse", "analyze", "and", "any", "array", "as", "asc", "asymmetric", "both", "case",
   "cast", "check", "collate", "column", "constraint", "create", "current_catalog",
   "current_date", "current_role", "current_time", "current_timestamp", "current_user", "default",
   "deferrable", "desc", "distinct", "do", "else", "end", "except", "false", "fetch", "for",
   "foreign", "from", "grant", "group", "having", "in", "initially", "intersect", "into",
   "lateral", "leading", "limit", "localtime", "localtimestamp", "not", "null", "offset", "on",
   "only", "or", "order", "placing", "primary", "references", "returning", "select",
   "session_user", "some", "symmetric", "table", "then", "to", "trailing", "true", "union",
   "unique", "user", "using", "variadic", "when", "where", "window", "with"]

def isReserved (name : String) : Bool := reservedWords.contains name

def startsBareName (c : Char) : Bool := c.isLower || c == '_'

def continuesBareName (c : Char) : Bool := c.isLower || c.isDigit || c == '_'

/-- Whether a name keeps its letters when it is not quoted. -/
def isBareName (name : String) : Bool :=
  match name.toList with
  | c :: rest => startsBareName c && rest.all continuesBareName
  | [] => false

/-- A name, quoted where it has to be. -/
def identifier (name : String) : String :=
  if isBareName name && !isReserved name then name else quoted '"' name

/-- A text literal. -/
def textLiteral (s : String) : String := quoted '\'' s

def dateLiteral (date : String) : String := "DATE " ++ textLiteral date

def booleanLiteral (b : Bool) : String := if b then "true" else "false"

def castSuffix (type : String) : String := "::" ++ type

end ReportSql.Output
