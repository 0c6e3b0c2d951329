import ReportSql.Sql.Grammar.Definitions

/-!
The grammar of statements that alter and drop the objects of a database. Such a statement is never
run, so a parser here only passes its tokens.
-/

namespace ReportSql.Sql.Grammar

open Parse

/-! ### Dropping -/

/-- Objects of one kind, read after DROP. -/
def drop (g : Nesting) : Parse Unit := do
  let k ← expectOneOf ["TABLE", "VIEW", "INDEX", "ROLE", "SCHEMA", "DATABASE", "SEQUENCE", "STAGE",
    "TYPE", "FUNCTION", "POLICY", "PROCEDURE", "SECRET", "TRIGGER"]
  ifExists
  match k with
  | "FUNCTION" | "PROCEDURE" =>
    pass (commaSeparated (functionName g))
    dropBehavior
  | "POLICY" =>
    pass ident
    expectKeyword "ON"
    name
    dropBehavior
  | "TRIGGER" =>
    name
    expectKeyword "ON"
    name
    dropBehavior
  | "SECRET" =>
    pass ident
    optionalClause ["FROM"] lenientIdent
  | _ =>
    names
    let cascade ← keyword "CASCADE"
    let restrict ← keyword "RESTRICT"
    let purge ← keyword "PURGE"
    if cascade && restrict then fail
    if k == "ROLE" && (cascade || restrict || purge) then fail

/-! ### Tables -/

def alterColumn (g : Nesting) : Parse Unit := do
  pass (keyword "COLUMN")
  pass ident
  let retype := do
    pass dataType
    optionalClause ["USING"] (pass g.expr)
  expectFirstOf [
    keywords ["SET", "NOT", "NULL"],
    keywords ["DROP", "NOT", "NULL"],
    clause ["SET", "DEFAULT"] (pass g.expr),
    keywords ["DROP", "DEFAULT"],
    clause ["SET", "DATA", "TYPE"] retype,
    clause ["TYPE"] retype,
    clause ["ADD", "GENERATED"] (do
      pass (firstOf [keyword "ALWAYS", keywords ["BY", "DEFAULT"]])
      expectKeywords ["AS", "IDENTITY"]
      identityOptions)]

/-- A column or partitions, read after ADD. -/
def addColumn (g : Nesting) : Parse Unit := do
  pass ifNotExists
  if ← atKeyword "PARTITION" then repeated (clause ["PARTITION"] (exprList g))
  else
    pass (keyword "COLUMN")
    pass ifNotExists
    columnDefinition g

def renamed : Parse Unit := do
  pass ident
  expectKeyword "TO"
  pass ident

/-- A column with a new type and options. -/
def redefined (g : Nesting) : Parse Unit := do
  pass dataType
  repeated (columnOption g)

def dropFromTable (g : Nesting) : Parse Unit := do
  let oldColumn := do
    ifExists
    pass ident
    pass (keyword "CASCADE")
  expectFirstOf [
    clause ["IF", "EXISTS", "PARTITION"] (exprList g),
    clause ["PARTITION"] (exprList g),
    clause ["CONSTRAINT"] oldColumn,
    passedOver ["PRIMARY", "KEY"],
    passedOver ["PROJECTION"],
    keywords ["CLUSTERING", "KEY"],
    do
      pass (keyword "COLUMN")
      oldColumn
      return true]

/-- One change to a table. -/
def alterTableStep (g : Nesting) : Parse Unit := do
  let named (ks : List String) := clause ks (pass ident)
  let rowSecurity := keywords ["ROW", "LEVEL", "SECURITY"]
  expectFirstOf [
    clause ["ADD"] (do unless ← tableConstraint g do addColumn g),
    clause ["RENAME"] (expectFirstOf [
      clause ["CONSTRAINT"] renamed,
      clause ["TO"] name,
      do
        pass (keyword "COLUMN")
        renamed
        return true]),
    clause ["DISABLE"] (expectFirstOf [rowSecurity, named ["RULE"], named ["TRIGGER"]]),
    clause ["ENABLE"] (expectFirstOf [
      named ["ALWAYS", "RULE"], named ["ALWAYS", "TRIGGER"], rowSecurity,
      named ["REPLICA", "RULE"], named ["REPLICA", "TRIGGER"], named ["RULE"], named ["TRIGGER"]]),
    passedOver ["CLEAR", "PROJECTION"],
    passedOver ["MATERIALIZE", "PROJECTION"],
    clause ["DROP"] (dropFromTable g),
    clause ["PARTITION"] (do
      exprList g
      expectKeywords ["RENAME", "TO", "PARTITION"]
      exprList g),
    clause ["CHANGE"] (do
      pass (keyword "COLUMN")
      pass ident
      pass ident
      redefined g),
    clause ["MODIFY"] (do
      pass (keyword "COLUMN")
      pass ident
      redefined g),
    clause ["ALTER"] (alterColumn g),
    clause ["SWAP"] (do
      expectKeyword "WITH"
      name),
    named ["OWNER", "TO"],
    clause ["CLUSTER", "BY"] (exprList g),
    keywords ["SUSPEND", "RECLUSTER"],
    keywords ["RESUME", "RECLUSTER"],
    clause ["SET", "TBLPROPERTIES"] (pass (inParens (commaSeparated (setting g))))]

def alterTable (g : Nesting) : Parse Unit := do
  ifExists
  pass (keyword "ONLY")
  name
  onCluster
  pass (commaSeparated (alterTableStep g))
  pass (firstOf [clause ["LOCATION"] (pass ident), clause ["SET", "LOCATION"] (pass ident)])

/-! ### Other objects -/

def alterView (g : Nesting) : Parse Unit := do
  name
  optionalColumnList
  storageOptions g "WITH"
  expectKeyword "AS"
  pass g.query

def alterIndex : Parse Unit := do
  name
  expectKeywords ["RENAME", "TO"]
  name

/-- Whether the sign of an assignment follows, which is then passed. -/
def assigns : Parse Bool := do
  if ← accept .eq then return true else keyword "TO"

def alterRole (g : Nesting) : Parse Unit := do
  pass ident
  optionalClause ["IN", "DATABASE"] lenientName
  expectFirstOf [
    clause ["RENAME"] (do
      expectKeyword "TO"
      pass ident),
    clause ["SET"] (do
      name
      unless ← keywords ["FROM", "CURRENT"] do
        unless ← assigns do fail
        unless ← keyword "DEFAULT" do pass g.expr),
    clause ["RESET"] (do unless ← keyword "ALL" do name),
    do
      pass (keyword "WITH")
      let option := tentative (firstOf roleOptions)
      unless ← option do fail
      repeated option
      return true]

def alterPolicy (g : Nesting) : Parse Unit := do
  pass ident
  expectKeyword "ON"
  name
  if ← keyword "RENAME" then
    expectKeyword "TO"
    pass ident
  else policyRows g

/-- An alteration, read after ALTER. -/
def alter (g : Nesting) : Parse Unit := do
  match ← expectOneOf ["VIEW", "TABLE", "INDEX", "ROLE", "POLICY"] with
  | "VIEW" => alterView g
  | "TABLE" => alterTable g
  | "INDEX" => alterIndex
  | "ROLE" => alterRole g
  | _ => alterPolicy g

end ReportSql.Sql.Grammar
