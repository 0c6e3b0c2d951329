import ReportSql.Sql.Grammar.Alterations

/-!
The grammar of the statements that are no queries. A command is known by its keyword; what
follows it is read only to see where the statement ends and whether it is one at all.
-/

namespace ReportSql.Sql.Grammar

open Parse

/-! ### Changing rows -/

def delete (g : Nesting) : Parse Unit := do
  unless ← keyword "FROM" do
    names
    expectKeyword "FROM"
  pass (commaSeparated (source g))
  optionalClause ["USING"] (pass (commaSeparated (source g)))
  pass (optionalCondition g)
  pass (optionalReturning g)
  optionalClause ["ORDER", "BY"] (pass (orderItems g))
  optionalClause ["LIMIT"] (pass (limitClause g))

/-- One case of a merge and what to do in it. -/
def mergeClause (g : Nesting) : Parse Unit := do
  expectKeyword "WHEN"
  let absent ← keyword "NOT"
  expectKeyword "MATCHED"
  let bySource ← if absent then keywords ["BY", "SOURCE"] else pure false
  if absent && !bySource then pass (keywords ["BY", "TARGET"])
  optionalClause ["AND"] (pass g.expr)
  expectKeyword "THEN"
  let inserts := absent && !bySource
  match ← expectOneOf ["UPDATE", "INSERT", "DELETE"] with
  | "INSERT" =>
    unless inserts do fail
    optionalColumnList
    expectKeyword "VALUES"
    pass (values g)
  | "UPDATE" =>
    if inserts then fail
    expectKeyword "SET"
    pass (assignments g)
  | _ => if inserts then fail

def merge (g : Nesting) : Parse Unit := do
  pass (keyword "INTO")
  pass (table g)
  expectKeyword "USING"
  pass (table g)
  expectKeyword "ON"
  pass g.expr
  repeated do
    if (← ahead).isEmpty || (← atSymbol .semicolon) then return false
    else
      mergeClause g
      return true

def truncate (g : Nesting) : Parse Unit := do
  pass (keyword "TABLE")
  pass (keyword "ONLY")
  names
  optionalClause ["PARTITION"] (exprList g)
  pass (firstOf [keywords ["RESTART", "IDENTITY"], keywords ["CONTINUE", "IDENTITY"]])
  dropBehavior
  onCluster

/-! ### Copying -/

def literalChar : Parse Unit := do
  unless (← literalText).utf8ByteSize == 1 do fail

def copyFlag : Parse Unit := pass (oneOf ["TRUE", "FALSE"])

def copyOption : Parse Unit :=
  expectFirstOf [
    clause ["FORMAT"] (pass ident),
    clause ["FREEZE"] copyFlag,
    clause ["DELIMITER"] literalChar,
    clause ["NULL"] (pass literalText),
    clause ["HEADER"] copyFlag,
    clause ["QUOTE"] literalChar,
    clause ["ESCAPE"] literalChar,
    clause ["FORCE_QUOTE"] (pass columnList),
    clause ["FORCE_NOT_NULL"] (pass columnList),
    clause ["FORCE_NULL"] (pass columnList),
    clause ["ENCODING"] (pass literalText)]

def marked (p : Parse Unit) : Parse Unit := do
  pass (keyword "AS")
  p

def copyLayout : Parse Bool :=
  tentative (firstOf [
    keyword "HEADER",
    clause ["QUOTE"] (marked literalChar),
    clause ["ESCAPE"] (marked literalChar),
    clause ["FORCE", "NOT", "NULL"] idents,
    clause ["FORCE", "QUOTE"] idents])

/-- Rows that follow a statement, up to a backslash and a period. -/
def inlineRows : List Token → List Token
  | [] => []
  | [.symbol .backslash] => []
  | .symbol .backslash :: t :: rest =>
    if t = .symbol .period then rest else inlineRows rest
  | _ :: rest => inlineRows rest

def copy (g : Nesting) : Parse Unit := do
  let fromQuery ← accept .leftParen
  if fromQuery then
    pass g.query
    expect .rightParen
  else
    name
    optionalColumnList
  let direction ← expectOneOf ["FROM", "TO"]
  if fromQuery && direction == "FROM" then fail
  let reads ← keyword "STDIN"
  unless reads do
    unless ← keyword "STDOUT" do
      pass (keyword "PROGRAM")
      pass literalText
  pass (keyword "WITH")
  pass (optionalInParens (commaSeparated copyOption))
  repeated (tentative (firstOf [
    keyword "BINARY",
    clause ["DELIMITER"] (marked literalChar),
    clause ["NULL"] (marked (pass literalText)),
    clause ["CSV"] (repeated copyLayout)]))
  if reads then
    expect .semicolon
    set (inlineRows (← ahead))

/-! ### Privileges -/

/-- Privileges on whole objects. -/
def objectPrivileges : List String :=
  ["CONNECT", "CREATE", "DELETE", "EXECUTE", "TEMPORARY", "TRIGGER", "TRUNCATE", "USAGE"]

/-- Privileges that may be limited to some columns. -/
def columnPrivileges : List String := ["INSERT", "REFERENCES", "SELECT", "UPDATE"]

def privilege : Parse Unit := do
  let k ← expectOneOf (objectPrivileges ++ columnPrivileges)
  if columnPrivileges.contains k then optionalColumnList

/-- Privileges and the objects they are on. -/
def privileges : Parse Unit := do
  if ← keyword "ALL" then pass (keyword "PRIVILEGES")
  else pass (commaSeparated privilege)
  expectKeyword "ON"
  expectFirstOf [
    clause ["ALL", "TABLES", "IN", "SCHEMA"] names,
    clause ["ALL", "SEQUENCES", "IN", "SCHEMA"] names,
    do
      pass (oneOf ["SEQUENCE", "SCHEMA", "TABLE"])
      names
      return true]

def grant : Parse Unit := do
  privileges
  expectKeyword "TO"
  idents
  pass (keywords ["WITH", "GRANT", "OPTION"])
  optionalClause ["GRANTED", "BY"] (pass ident)

def revoke : Parse Unit := do
  privileges
  expectKeyword "FROM"
  idents
  optionalClause ["GRANTED", "BY"] (pass ident)
  dropBehavior

/-! ### Transactions -/

def transactionMode : Parse Bool :=
  firstOf [
    clause ["ISOLATION", "LEVEL"] (expectFirstOf [
      keywords ["READ", "UNCOMMITTED"], keywords ["READ", "COMMITTED"],
      keywords ["REPEATABLE", "READ"], keyword "SERIALIZABLE"]),
    keywords ["READ", "ONLY"],
    keywords ["READ", "WRITE"]]

/-- Modes, between which a comma may stand. -/
def transactionModes : Parse Unit := do
  repeated do
    if ← transactionMode then
      if ← accept .comma then
        let before ← ahead
        unless ← transactionMode do fail
        set before
      return true
    else return false

def transactionChain : Parse Unit := do
  pass (oneOf ["TRANSACTION", "WORK"])
  optionalClause ["AND"] do
    pass (keyword "NO")
    expectKeyword "CHAIN"

def rollback : Parse Unit := do
  transactionChain
  optionalClause ["TO"] do
    pass (keyword "SAVEPOINT")
    pass ident

/-! ### Sessions -/

/-- The value of a variable of the session. -/
def variableValue (g : Nesting) : Parse Unit := do
  if ← atQuery then pass g.query else pass g.expr

/-- A variable of the session and its value, read after SET. -/
def setVariable (g : Nesting) : Parse Unit := do
  let scope ← oneOf ["SESSION", "LOCAL", "HIVEVAR"]
  let role := clause ["ROLE"] do
    unless ← keyword "NONE" do pass ident
  if scope == some "HIVEVAR" then expect .colon
  else if ← tentative role then return ()
  let parameter ←
    if ← keywords ["TIME", "ZONE"] then pure "TIMEZONE" else pure (pathText (← path))
  if ← assigns then pass (commaSeparated (variableValue g))
  else if Text.asciiUpper parameter == "TIMEZONE" then pass g.expr
  else if parameter == "CHARACTERISTICS" then
    expectKeywords ["AS", "TRANSACTION"]
    transactionModes
  else if parameter == "TRANSACTION" && scope.isNone then
    if ← keyword "SNAPSHOT" then pass value else transactionModes
  else fail

/-- What is left of a text up to an equals sign, which names of any kind may fill. -/
def variableNames : Parse Unit :=
  modify fun tokens => tokens.dropWhile (· != .symbol .eq)

/-- Which of the objects to show; a text alone is a pattern. -/
def showFilter (g : Nesting) : Parse Unit :=
  pass (firstOf [
    clause ["LIKE"] (pass literalText),
    clause ["ILIKE"] (pass literalText),
    clause ["WHERE"] (pass g.expr),
    return (← optional literalText).isSome])

/-- Where the objects to show are. An owner of some kind may go without its name. -/
def showPlace : Parse Unit := do
  if (← oneOf ["FROM", "IN"]).isSome then
    match ← oneOf ["ACCOUNT", "DATABASE", "SCHEMA", "TABLE", "VIEW"] with
    | some k =>
      let ends := (afterKeywords? ["STARTS", "WITH"] (← ahead)).isSome || (← atKeyword "LIMIT")
      unless ends && (k == "DATABASE" || k == "SCHEMA") do pass (optional path)
    | none =>
      name
      if (← oneOf ["FROM", "IN"]).isSome then pass ident

def showOptions (g : Nesting) : Parse Unit := do
  showPlace
  showFilter g
  optionalClause ["STARTS", "WITH"] (pass value)
  optionalClause ["LIMIT"] (pass (limitClause g))
  optionalClause ["FROM"] (pass value)

def showing (g : Nesting) : Parse Unit := do
  pass (keyword "TERSE")
  let extended ← keyword "EXTENDED"
  let full ← keyword "FULL"
  pass (keyword "SESSION")
  pass (keyword "GLOBAL")
  pass (keyword "EXTERNAL")
  if ← firstOf [
      keyword "COLUMNS", keyword "FIELDS", keyword "TABLES", keywords ["MATERIALIZED", "VIEWS"],
      keyword "VIEWS"] then showOptions g
  else if ← keyword "FUNCTIONS" then showFilter g
  else if extended || full then fail
  else if ← keyword "CREATE" then
    pass (expectOneOf ["TABLE", "TRIGGER", "EVENT", "FUNCTION", "PROCEDURE", "VIEW"])
    name
  else if ← keyword "COLLATION" then showFilter g
  else
    pass (keyword "VARIABLES")
    pass (keyword "STATUS")
    if (← oneOf ["DATABASES", "SCHEMAS"]).isSome then
      pass (keyword "HISTORY")
      showOptions g
    else variableNames

def discard : Parse Unit :=
  pass (expectOneOf ["ALL", "PLANS", "SEQUENCES", "TEMP", "TEMPORARY"])

def comment : Parse Unit := do
  ifExists
  expectKeyword "ON"
  pass (expectOneOf ["COLUMN", "TABLE", "EXTENSION", "SCHEMA", "DATABASE", "USER", "ROLE"])
  name
  expectKeyword "IS"
  unless ← keyword "NULL" do pass literalText

def notify : Parse Unit := do
  pass ident
  if ← accept .comma then pass literalText

/-! ### Prepared statements and cursors -/

def prepare (g : Nesting) : Parse Unit := do
  pass ident
  pass (optionalInParens (commaSeparated dataType))
  expectKeyword "AS"
  pass g.statement

def execute (g : Nesting) : Parse Unit := do
  name
  if ← accept .leftParen then
    optionalItems g.expr
    expect .rightParen
  else
    let ends := (← ahead).isEmpty || (← atSymbol .semicolon) || (← atKeyword "USING")
    unless ends do pass (commaSeparated g.expr)
  optionalClause ["USING"] (pass (commaSeparated g.expr))

def declareCursor (g : Nesting) : Parse Unit := do
  pass ident
  pass (keyword "BINARY")
  pass (oneOf ["INSENSITIVE", "ASENSITIVE"])
  pass (firstOf [keyword "SCROLL", keywords ["NO", "SCROLL"]])
  expectKeyword "CURSOR"
  if (← oneOf ["WITH", "WITHOUT"]).isSome then expectKeyword "HOLD"
  expectKeyword "FOR"
  pass g.query

def fetchRows : Parse Unit := do
  match ← oneOf ["NEXT", "PRIOR", "FIRST", "LAST", "ABSOLUTE", "RELATIVE", "FORWARD", "BACKWARD",
    "ALL"] with
  | some "ABSOLUTE" | some "RELATIVE" | none => pass numberValue
  | some "FORWARD" | some "BACKWARD" => unless ← keyword "ALL" do pass numberValue
  | _ => pure ()
  pass (expectOneOf ["FROM", "IN"])
  pass ident
  optionalClause ["INTO"] name

def call (g : Nesting) : Parse Unit := do
  let function ← path
  if ← atSymbol .leftParen then
    pass (callRest g (leadingExpr g ((← ahead).length + 1)) function false)

/-! ### Plans and statistics -/

def planOption (g : Nesting) : Parse Unit := do
  pass ident
  unless (← atSymbol .comma) || (← atSymbol .rightParen) do pass g.expr

def explainedAlready : Statement → Bool
  | .command k => k == "EXPLAIN" || k == "DESCRIBE" || k == "DESC"
  | .query _ => false

/-- A statement to explain, or a table to describe. -/
def explain (g : Nesting) (isExplain : Bool) : Parse Unit := do
  if isExplain && (← atSymbol .leftParen) then
    pass (inParens (commaSeparated (planOption g)))
  else if ← keywords ["QUERY", "PLAN"] then pure ()
  else if ← keyword "ESTIMATE" then pure ()
  else
    pass (keyword "ANALYZE")
    pass (keyword "VERBOSE")
    optionalClause ["FORMAT"] (pass (expectOneOf ["TEXT", "GRAPHVIZ", "JSON"]))
  match ← optional g.statement with
  | some s => if explainedAlready s then fail
  | none =>
    pass (oneOf ["EXTENDED", "FORMATTED"])
    name

def analyze (g : Nesting) : Parse Unit := do
  expectKeyword "TABLE"
  name
  repeated (firstOf [
    clause ["PARTITION"] (exprList g),
    keyword "NOSCAN",
    clause ["FOR"] (do
      expectKeyword "COLUMNS"
      pass (optional idents)),
    clause ["CACHE"] (expectKeyword "METADATA"),
    clause ["COMPUTE"] (expectKeyword "STATISTICS")])

/-! ### Files and caches -/

def attach (g : Nesting) : Parse Unit := do
  pass (keyword "DATABASE")
  pass g.expr
  expectKeyword "AS"
  pass ident

def repairTable : Parse Unit := do
  pass (keyword "REPAIR")
  expectKeyword "TABLE"
  name
  pass (optional do
    pass (oneOf ["ADD", "DROP", "SYNC"])
    expectKeyword "PARTITIONS")

/-- The rows of a query that are kept under a name. A name in front of TABLE is a flag. -/
def cacheTable (g : Nesting) : Parse Unit := do
  unless ← keyword "TABLE" do
    name
    expectKeyword "TABLE"
  name
  storageOptions g "OPTIONS"
  unless (← ahead).isEmpty do
    match ← peek? with
    | some (.word _ _) => do
      pass (keyword "AS")
      pass g.query
    | _ => fail

def uncacheTable : Parse Unit := do
  expectKeyword "TABLE"
  ifExists
  name

def pragma : Parse Unit := do
  name
  let setting := do
    match ← value with
    | .text .plain _ | .quotedName _ | .number _ _ | .placeholder _ => return ()
    | _ => fail
  if ← atSymbol .leftParen then pass (inParens setting)
  else if ← accept .eq then setting

/-- The rows of a query written to a place. The keyword is not set apart from the query, so that
the first word of its text runs into the query. -/
def unload (g : Nesting) : Parse String := do
  let q ← inParens g.query
  expectKeyword "TO"
  pass ident
  storageOptions g "WITH"
  return "UNLOAD(" ++ String.ofList (q.render.toList.takeWhile (· != ' '))

/-! ### All of them -/

/-- How to read what follows the keyword of a command. -/
def commandRest (g : Nesting) (k : String) : Parse Unit := do
  match k with
  | "INSERT" => pass (insertRest g)
  | "UPDATE" => pass (updateRest g)
  | "DELETE" => delete g
  | "MERGE" => merge g
  | "TRUNCATE" => truncate g
  | "COPY" => copy g
  | "CREATE" => create g
  | "ALTER" => alter g
  | "DROP" => drop g
  | "GRANT" => grant
  | "REVOKE" => revoke
  | "EXPLAIN" => explain g true
  | "DESCRIBE" | "DESC" => explain g false
  | "ANALYZE" => analyze g
  | "SET" => setVariable g
  | "SHOW" => showing g
  | "START" =>
    expectKeyword "TRANSACTION"
    transactionModes
  | "BEGIN" =>
    pass (oneOf ["TRANSACTION", "WORK"])
    transactionModes
  | "END" | "COMMIT" => transactionChain
  | "ROLLBACK" => rollback
  | "SAVEPOINT" => pass ident
  | "RELEASE" =>
    pass (keyword "SAVEPOINT")
    pass ident
  | "PREPARE" => prepare g
  | "EXECUTE" | "EXEC" => execute g
  | "DEALLOCATE" =>
    pass (keyword "PREPARE")
    pass ident
  | "DECLARE" => declareCursor g
  | "FETCH" => fetchRows
  | "CLOSE" => unless ← keyword "ALL" do pass ident
  | "LISTEN" | "LOAD" => pass ident
  | "UNLISTEN" => unless ← accept .star do pass ident
  | "NOTIFY" => notify
  | "CALL" => call g
  | "COMMENT" => comment
  | "USE" => name
  | "DISCARD" => discard
  | "KILL" =>
    pass (oneOf ["CONNECTION", "QUERY"])
    pass natural
  | "ASSERT" =>
    pass g.expr
    optionalClause ["AS"] (pass g.expr)
  | "ATTACH" => attach g
  | "MSCK" => repairTable
  | "CACHE" => cacheTable g
  | "UNCACHE" => uncacheTable
  | "PRAGMA" => pragma
  | _ => fail

/-- The keyword a command is known by: the first word of its canonical text. -/
def commandName : String → String
  | "EXEC" => "EXECUTE"
  | "END" => "COMMIT"
  | k => k

/-- A command, read after its keyword. -/
def command (g : Nesting) (k : String) : Parse String := do
  if k == "UNLOAD" then unload g
  else
    commandRest g k
    return commandName k

def statement (g : Nesting) : Parse Statement := do
  match ← peek? with
  | some (.symbol .leftParen) => return .query (← g.query)
  | some t =>
    match t.keyword? with
    | some k =>
      if k == "SELECT" || k == "WITH" || k == "VALUES" then return .query (← g.query)
      else
        skip
        return .command (← command g k)
    | none => fail
  | none => fail

end ReportSql.Sql.Grammar
