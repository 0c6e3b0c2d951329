import ReportSql.Sql.Grammar.Tables

/-!
The grammar of statements that change rows. They can stand where a query does, and are kept as
their keyword and their canonical text.
-/

namespace ReportSql.Sql.Grammar

open Parse

/-- An item of a select list. A column named `from` needs quotes. -/
def selectItem (g : Nesting) : Parse SelectItem := do
  match ← leadingWildcard with
  | some names => return .wildcard names
  | none =>
    match ← g.expr with
    | .wildcard names => return .wildcard names
    | e => do
      match e with
      | .name [⟨s, .bare⟩] => if Text.lower s == "from" then fail
      | _ => pure ()
      return .expr e (← optionalAlias endsSelectItem)

def assignmentTarget : Parse String := do
  if ← accept .leftParen then
    let columns ← commaSeparated path
    expect .rightParen
    return "(" ++ commaText (columns.map pathText) ++ ")"
  else return pathText (← path)

def assignment (g : Nesting) : Parse String := do
  let target ← assignmentTarget
  expect .eq
  return target ++ " = " ++ (← g.expr).render

def assignments (g : Nesting) : Parse String := do
  return commaText (← commaSeparated (assignment g))

def optionalCondition (g : Nesting) : Parse String := do
  if ← keyword "WHERE" then return " WHERE " ++ (← g.expr).render else return ""

def optionalReturning (g : Nesting) : Parse String := do
  if ← keyword "RETURNING" then
    return " RETURNING " ++ commaText (selectItemTexts (← commaSeparated (selectItem g)))
  else return ""

/-- What can be done about a row that is there already. -/
def conflictActions : List String := ["REPLACE", "ROLLBACK", "ABORT", "FAIL", "IGNORE"]

/-- `OR` and what to do about a conflict, with a blank after it. REPLACE stands without OR too. -/
def conflictClause : Parse String := do
  match ← conflictActions.findM? fun k => keywords ["OR", k] with
  | some k => return "OR " ++ k ++ " "
  | none => return if ← keyword "REPLACE" then "OR REPLACE " else ""

/-- The formats that the files of a table can have. -/
def fileFormats : List String :=
  ["AVRO", "JSONFILE", "ORC", "PARQUET", "RCFILE", "SEQUENCEFILE", "TEXTFILE"]

def fileFormat : Parse String := expectOneOf fileFormats

/-- What an insertion does about rows that are there already. -/
def onConflict (g : Nesting) : Parse String := do
  unless ← keyword "ON" do return ""
  if ← keyword "CONFLICT" then
    let target ←
      if ← keywords ["ON", "CONSTRAINT"] then pure (" ON CONSTRAINT " ++ pathText (← path))
      else if ← atSymbol .leftParen then
        pure ("(" ++ commaText ((← columnList).map Ident.text) ++ ")")
      else pure ""
    expectKeyword "DO"
    if ← keyword "NOTHING" then return " ON CONFLICT" ++ target ++ " DO NOTHING"
    else
      expectKeywords ["UPDATE", "SET"]
      let set ← assignments g
      return " ON CONFLICT" ++ target ++ " DO UPDATE SET " ++ set ++ (← optionalCondition g)
  else
    expectKeywords ["DUPLICATE", "KEY", "UPDATE"]
    return " ON DUPLICATE KEY UPDATE " ++ (← assignments g)

/-- Whether a select in parentheses follows. -/
def atSelectInParens : Parse Bool := do
  return match ← ahead with
    | .symbol .leftParen :: t :: _ => t.isKeyword "SELECT"
    | _ => false

/-- An insertion, read after its keyword. -/
def insertRest (g : Nesting) : Parse String := do
  let conflict ← conflictClause
  let overwrite ← keyword "OVERWRITE"
  let into ← keyword "INTO"
  let isLocal ← keyword "LOCAL"
  if ← keyword "DIRECTORY" then
    let place ← literalText
    let format ←
      if ← keywords ["STORED", "AS"] then pure (" STORED AS " ++ (← fileFormat)) else pure ""
    let q ← g.query
    return "INSERT" ++ (if overwrite then " OVERWRITE" else "")
      ++ (if isLocal then " LOCAL" else "") ++ " DIRECTORY '" ++ place ++ "'" ++ format ++ " "
      ++ q.render
  let hasTable ← keyword "TABLE"
  let name := pathText (← path)
  let label ← if ← keyword "AS" then pure (" AS " ++ (← ident).text) else pure ""
  let head :=
    if conflict.isEmpty then
      "INSERT" ++ (if overwrite then " OVERWRITE" else "") ++ (if into then " INTO" else "")
        ++ (if hasTable then " TABLE" else "") ++ " " ++ name ++ label ++ " "
    else "INSERT " ++ conflict ++ "INTO " ++ name ++ label ++ " "
  let rows ←
    if ← keywords ["DEFAULT", "VALUES"] then pure "DEFAULT VALUES"
    else
      let columns ←
        if ← atSelectInParens then pure ""
        else match ← optionalInParens (commaSeparated ident) with
          | some names => pure ("(" ++ commaText (names.map Ident.text) ++ ") ")
          | none => pure ""
      let partition ←
        if ← keyword "PARTITION" then
          let parts ← inParens (commaSeparated g.expr)
          pure ("PARTITION (" ++ commaText (exprTexts parts) ++ ") ")
        else pure ""
      pure (columns ++ partition ++ (← g.query).render)
  let conflictAction ← onConflict g
  return head ++ rows ++ conflictAction ++ (← optionalReturning g)

/-- An update, read after its keyword. -/
def updateRest (g : Nesting) : Parse String := do
  let conflict ← conflictClause
  let target ← source g
  expectKeyword "SET"
  let set ← assignments g
  let sources ← if ← keyword "FROM" then pure (" FROM " ++ (← source g).render) else pure ""
  let condition ← optionalCondition g
  return "UPDATE " ++ conflict ++ target.render ++ " SET " ++ set ++ sources ++ condition
    ++ (← optionalReturning g)

end ReportSql.Sql.Grammar
