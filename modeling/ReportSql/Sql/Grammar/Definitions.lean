import ReportSql.Sql.Grammar.Queries

/-!
The grammar of statements that define the objects of a database. Such a statement is never run, so
a parser here only passes its tokens.
-/

namespace ReportSql.Sql.Grammar

open Parse

/-! ### Common parts -/

/-- Runs a parser for the tokens it passes. -/
def pass {α : Type} (p : Parse α) : Parse Unit := do
  let _ ← p

def ifExists : Parse Unit := pass (keywords ["IF", "EXISTS"])

def ifNotExists : Parse Bool := keywords ["IF", "NOT", "EXISTS"]

def dropBehavior : Parse Unit := pass (oneOf ["CASCADE", "RESTRICT"])

def name : Parse Unit := pass path

def names : Parse Unit := pass (commaSeparated path)

def idents : Parse Unit := pass (commaSeparated ident)

/-- Passes a name, or any other token that stands in its place. -/
def lenientName : Parse Unit :=
  iterate (fun _ => do
    match ← optional ident with
    | some _ => if ← accept .period then return some () else return none
    | none => do
      skip
      return none) ()

/-- A part that a sequence of keywords announces; whether it was there. -/
def clause (ks : List String) (p : Parse Unit) : Parse Bool := do
  if ← keywords ks then
    p
    return true
  else return false

def optionalClause (ks : List String) (p : Parse Unit) : Parse Unit := pass (clause ks p)

/-- The first of some clauses that stands here; whether one did. -/
def firstOf : List (Parse Bool) → Parse Bool
  | [] => return false
  | p :: rest => do
    if ← p then return true else firstOf rest

/-- One of some clauses has to stand here. -/
def expectFirstOf (clauses : List (Parse Bool)) : Parse Unit := do
  unless ← firstOf clauses do fail

/-- Repeats a clause for as long as it stands. -/
def repeated (p : Parse Bool) : Parse Unit := do
  pass (many do
    if ← p then return some () else return none)

/-- The clauses that are left when the first of them that stands here is passed. -/
def withoutFirst : List (Parse Bool) → Parse (Option (List (Parse Bool)))
  | [] => return none
  | p :: rest => do
    if ← p then return some rest
    else return (← withoutFirst rest).map (p :: ·)

def onceEachWithin : Nat → List (Parse Bool) → Parse Unit
  | 0, _ => return ()
  | n + 1, clauses => do
    match ← withoutFirst clauses with
    | some rest => onceEachWithin n rest
    | none => return ()

/-- Clauses in any order, each at most once. -/
def onceEach (clauses : List (Parse Bool)) : Parse Unit := onceEachWithin clauses.length clauses

/-- A clause, unless what follows its keywords does not fit it. -/
def tentative (p : Parse Bool) : Parse Bool := return (← optional p).getD false

/-- Keywords that are passed where they stand and mean nothing. -/
def passedOver (ks : List String) : Parse Bool := do
  pass (keywords ks)
  return false

/-- Items between commas, unless a closing parenthesis follows at once. -/
def optionalItems {α : Type} (p : Parse α) : Parse Unit := do
  unless ← atSymbol .rightParen do pass (commaSeparated p)

def optionalColumnList : Parse Unit := do
  if ← atSymbol .leftParen then pass columnList

/-- An expression in parentheses. -/
def condition (g : Nesting) : Parse Unit := pass (inParens g.expr)

def exprList (g : Nesting) : Parse Unit := pass (inParens (commaSeparated g.expr))

def word : Parse Unit := do
  match ← next with
  | .word _ _ => return ()
  | _ => fail

/-- `name = expr` -/
def setting (g : Nesting) : Parse Unit := do
  pass ident
  expect .eq
  pass g.expr

/-- Settings in parentheses after a keyword. -/
def storageOptions (g : Nesting) (k : String) : Parse Unit :=
  optionalClause [k] (pass (inParens (optionalItems (setting g))))

def onCluster : Parse Unit := optionalClause ["ON", "CLUSTER"] (pass ident)

/-- Whether nulls count as equal. -/
def nullsDistinct : Parse Unit :=
  optionalClause ["NULLS"] do
    pass (keyword "NOT")
    expectKeyword "DISTINCT"

/-! ### Columns and constraints -/

def referentialAction : Parse Unit := do
  match ← expectOneOf ["RESTRICT", "CASCADE", "SET", "NO"] with
  | "SET" => pass (expectOneOf ["NULL", "DEFAULT"])
  | "NO" => expectKeyword "ACTION"
  | _ => return ()

/-- When a constraint is checked. -/
def constraintTiming : Parse Unit :=
  onceEach [
    firstOf [keywords ["NOT", "DEFERRABLE"], keyword "DEFERRABLE"],
    clause ["INITIALLY"] (pass (expectOneOf ["DEFERRED", "IMMEDIATE"])),
    firstOf [keyword "ENFORCED", keywords ["NOT", "ENFORCED"]]]

/-- What becomes of a row whose key is deleted or changed, and when that is checked. -/
def referenceRest : Parse Unit := do
  onceEach [
    clause ["ON", "DELETE"] referentialAction,
    clause ["ON", "UPDATE"] referentialAction]
  constraintTiming

def sequenceOptions : Parse Unit := do
  optionalClause ["INCREMENT"] do
    pass (keyword "BY")
    pass signedNumber
  pass (firstOf [clause ["MINVALUE"] (pass signedNumber), keywords ["NO", "MINVALUE"]])
  pass (firstOf [clause ["MAXVALUE"] (pass signedNumber), keywords ["NO", "MAXVALUE"]])
  optionalClause ["START"] do
    pass (keyword "WITH")
    pass signedNumber
  optionalClause ["CACHE"] (pass signedNumber)
  pass (firstOf [keywords ["NO", "CYCLE"], keyword "CYCLE"])

def identityOptions : Parse Unit := pass (optionalInParens sequenceOptions)

/-- What follows GENERATED in a column; alone it means nothing. -/
def generated (g : Nesting) : Parse Bool :=
  firstOf [
    clause ["ALWAYS", "AS", "IDENTITY"] identityOptions,
    clause ["BY", "DEFAULT", "AS", "IDENTITY"] identityOptions,
    do
      if ← keywords ["ALWAYS", "AS"] then
        if ← atSymbol .leftParen then
          condition g
          expectKeyword "STORED"
          return true
        else return false
      else return false]

def columnOption (g : Nesting) : Parse Bool := do
  let plainText : Parse Unit := do
    match ← next with
    | .text .plain _ => return ()
    | _ => fail
  firstOf [
    clause ["CHARACTER", "SET"] name,
    keywords ["NOT", "NULL"],
    clause ["COMMENT"] plainText,
    keyword "NULL",
    clause ["DEFAULT"] (pass g.expr),
    clause ["PRIMARY", "KEY"] constraintTiming,
    clause ["UNIQUE"] constraintTiming,
    clause ["REFERENCES"] (do
      name
      optionalColumnList
      referenceRest),
    clause ["CHECK"] (condition g),
    passedOver ["AUTO_INCREMENT"],
    passedOver ["AUTOINCREMENT"],
    passedOver ["ASC"],
    passedOver ["DESC"],
    passedOver ["ON", "UPDATE"],
    do
      if ← keyword "GENERATED" then
        -- nothing else is looked for after GENERATED
        return ← generated g
      else
        pass (keyword "AS")
        passedOver ["IDENTITY"]]

def columnDefinition (g : Nesting) : Parse Unit := do
  pass ident
  pass dataType
  optionalClause ["COLLATE"] name
  repeated (firstOf [
    clause ["CONSTRAINT"] (do
      pass ident
      unless ← columnOption g do fail),
    columnOption g])

/-- The kind of an index. -/
def indexKind : Parse Bool := clause ["USING"] (pass (expectOneOf ["BTREE", "HASH"]))

/-- The columns of a key, behind the name and kind of its index. -/
def keyColumns : Parse Unit := do
  pass (optional ident)
  pass indexKind
  pass columnList
  repeated (firstOf [indexKind, clause ["COMMENT"] (pass literalText)])
  constraintTiming

/-- A constraint of a table, if one starts here. -/
def tableConstraint (g : Nesting) : Parse Bool := do
  let named ← clause ["CONSTRAINT"] (pass ident)
  let found ← firstOf [
    clause ["UNIQUE"] (do
      if (← oneOf ["KEY", "INDEX"]).isSome then fail
      nullsDistinct
      keyColumns),
    clause ["PRIMARY"] (do
      expectKeyword "KEY"
      keyColumns),
    clause ["FOREIGN"] (do
      expectKeyword "KEY"
      pass columnList
      expectKeyword "REFERENCES"
      name
      pass columnList
      referenceRest),
    clause ["CHECK"] (condition g)]
  if named && !found then fail
  return found

def tableElement (g : Nesting) : Parse Unit := do
  unless ← tableConstraint g do
    match ← peek? with
    | some (.word _ _) => columnDefinition g
    | _ => fail

/-- The columns and constraints of a table, if any are given. -/
def tableElements (g : Nesting) : Parse Unit :=
  pass (optionalInParens (optionalItems (tableElement g)))

/-! ### Tables -/

/-- How the fields of a row are told apart in a file. -/
def rowDelimiters : Parse Unit :=
  repeated do
    match ← oneOf ["FIELDS", "COLLECTION", "MAP", "LINES", "NULL"] with
    | some "FIELDS" =>
      if ← clause ["TERMINATED", "BY"] (pass ident) then
        optionalClause ["ESCAPED", "BY"] (pass ident)
        return true
      else return false
    | some "COLLECTION" => clause ["ITEMS", "TERMINATED", "BY"] (pass ident)
    | some "MAP" => clause ["KEYS", "TERMINATED", "BY"] (pass ident)
    | some "LINES" => clause ["TERMINATED", "BY"] (pass ident)
    | some _ => clause ["DEFINED", "AS"] (pass ident)
    | none => return false

/-- How and where the rows of a table are kept. -/
def storageLayout (g : Nesting) : Parse Unit := do
  optionalClause ["PARTITIONED", "BY"] (pass (inParens (commaSeparated (columnDefinition g))))
  repeated (firstOf [
    clause ["ROW"] (do
      expectKeyword "FORMAT"
      match ← oneOf ["SERDE", "DELIMITED"] with
      | some "SERDE" => pass literalText
      | _ => rowDelimiters),
    clause ["STORED"] (do
      expectKeyword "AS"
      if ← keyword "INPUTFORMAT" then
        pass g.expr
        expectKeyword "OUTPUTFORMAT"
        pass g.expr
      else pass fileFormat),
    clause ["LOCATION"] (pass literalText),
    clause ["WITH", "SERDEPROPERTIES"] (pass (inParens (commaSeparated (setting g))))])

def createTable (g : Nesting) : Parse Unit := do
  pass ifNotExists
  name
  onCluster
  if (← oneOf ["LIKE", "ILIKE"]).isSome then lenientName
  optionalClause ["CLONE"] lenientName
  tableElements g
  pass (keywords ["WITHOUT", "ROWID"])
  storageLayout g
  storageOptions g "WITH"
  storageOptions g "TBLPROPERTIES"
  optionalClause ["ENGINE"] do
    expect .eq
    word
    optionalColumnList
  optionalClause ["AUTO_INCREMENT"] do
    pass (accept .eq)
    unless (← natural) < UInt32.size do fail
  optionalClause ["ORDER", "BY"] do
    if ← accept .leftParen then
      optionalItems g.expr
      expect .rightParen
    else pass g.expr
  optionalClause ["PARTITION", "BY"] (pass g.expr)
  optionalClause ["DEFAULT", "CHARSET"] do
    expect .eq
    word
  optionalClause ["COLLATE"] do
    expect .eq
    word
  pass (firstOf [
    keywords ["ON", "COMMIT", "DELETE", "ROWS"],
    keywords ["ON", "COMMIT", "PRESERVE", "ROWS"],
    keywords ["ON", "COMMIT", "DROP"]])
  pass (keyword "STRICT")
  optionalClause ["COMMENT"] do
    pass (accept .eq)
    match ← next with
    | .text .plain _ | .text (.dollar _) _ => return ()
    | _ => fail
  optionalClause ["AS"] (pass g.query)

/-- A table whose rows are kept elsewhere. -/
def createExternalTable (g : Nesting) : Parse Unit := do
  expectKeyword "TABLE"
  pass ifNotExists
  name
  tableElements g
  storageLayout g
  storageOptions g "TBLPROPERTIES"

/-- A table that a module computes. -/
def createVirtualTable : Parse Unit := do
  expectKeyword "TABLE"
  pass ifNotExists
  name
  expectKeyword "USING"
  pass ident
  pass (optionalInParens (optionalItems ident))

/-! ### Views, indexes and schemas -/

def createView (g : Nesting) : Parse Unit := do
  name
  pass (optionalInParens (optionalItems ident))
  storageOptions g "WITH"
  optionalClause ["CLUSTER"] do
    expectKeyword "BY"
    optionalColumnList
  expectKeyword "AS"
  pass g.query

def createIndex (g : Nesting) : Parse Unit := do
  pass (keyword "CONCURRENTLY")
  let named ← ifNotExists
  let unnamed ← if named then pure false else keyword "ON"
  unless unnamed do
    name
    expectKeyword "ON"
  name
  optionalClause ["USING"] (pass ident)
  pass (inParens (orderItems g))
  optionalClause ["INCLUDE"] (pass columnList)
  nullsDistinct
  optionalClause ["WITH"] (exprList g)
  optionalClause ["WHERE"] (pass g.expr)

def createSchema : Parse Unit := do
  pass ifNotExists
  if ← keyword "AUTHORIZATION" then pass ident
  else
    name
    optionalClause ["AUTHORIZATION"] (pass ident)

def createDatabase : Parse Unit := do
  pass ifNotExists
  name
  repeated (firstOf [
    clause ["LOCATION"] (pass literalText),
    clause ["MANAGEDLOCATION"] (pass literalText)])

def createSequence : Parse Unit := do
  pass ifNotExists
  name
  optionalClause ["AS"] (pass dataType)
  sequenceOptions
  optionalClause ["OWNED", "BY"] (do unless ← keyword "NONE" do name)

def createExtension : Parse Unit := do
  pass ifNotExists
  pass ident
  optionalClause ["WITH"] do
    optionalClause ["SCHEMA"] (pass ident)
    optionalClause ["VERSION"] (pass ident)
    pass (keyword "CASCADE")

/-- Items in parentheses, between which commas stand and after which one may. -/
def looseItemsWithin (item : Parse Unit) : Nat → Parse Unit
  | 0 => fail
  | n + 1 => do
    item
    let more ← accept .comma
    if ← accept .rightParen then return ()
    else if more then looseItemsWithin item n
    else fail

def looseItems (item : Parse Unit) : Parse Unit := do
  if ← accept .leftParen then
    unless ← accept .rightParen do looseItemsWithin item ((← ahead).length + 1)

def createType : Parse Unit := do
  name
  expectKeyword "AS"
  if ← keyword "ENUM" then pass (inParens (optionalItems ident))
  else
    looseItems do
      pass ident
      pass dataType
      optionalClause ["COLLATE"] name

/-! ### Roles, policies and secrets -/

/-- What a role may do; each of these words has an opposite that starts with NO. -/
def roleFlags : List String :=
  ["LOGIN", "INHERIT", "BYPASSRLS", "CREATEDB", "CREATEROLE", "SUPERUSER", "REPLICATION"]

/-- The options that a role is created with and that can be altered later. -/
def roleOptions : List (Parse Bool) :=
  roleFlags.map (fun k => firstOf [keyword k, keyword ("NO" ++ k)]) ++ [
    clause ["PASSWORD"] (do unless ← keyword "NULL" do pass value),
    clause ["CONNECTION"] (do
      expectKeyword "LIMIT"
      pass numberValue),
    clause ["VALID"] (do
      expectKeyword "UNTIL"
      pass value)]

def createRole : Parse Unit := do
  pass ifNotExists
  names
  pass (keyword "WITH")
  onceEach (roleOptions ++ [
    clause ["IN", "ROLE"] idents,
    clause ["IN", "GROUP"] idents,
    clause ["ROLE"] idents,
    clause ["USER"] idents,
    clause ["ADMIN"] idents])

/-- Which rows a policy shows, and which ones it lets in. -/
def policyRows (g : Nesting) : Parse Unit := do
  optionalClause ["TO"] idents
  optionalClause ["USING"] (condition g)
  optionalClause ["WITH", "CHECK"] (condition g)

def createPolicy (g : Nesting) : Parse Unit := do
  pass ident
  expectKeyword "ON"
  name
  optionalClause ["AS"] (pass (expectOneOf ["PERMISSIVE", "RESTRICTIVE"]))
  optionalClause ["FOR"] (pass (expectOneOf ["ALL", "SELECT", "INSERT", "UPDATE", "DELETE"]))
  policyRows g

/-- An identifier, or any other token that stands in its place. -/
def lenientIdent : Parse Unit := skip

def createSecret : Parse Unit := do
  pass ifNotExists
  unless ← atSymbol .leftParen do
    unless ← clause ["IN"] lenientIdent do
      lenientIdent
      optionalClause ["IN"] lenientIdent
  expect .leftParen
  expectKeyword "TYPE"
  pass ident
  if ← accept .comma then
    pass (commaSeparated do
      pass ident
      pass ident)
  expect .rightParen

/-! ### Routines and triggers -/

/-- `[IN | OUT | INOUT] [name] type [DEFAULT expr]` -/
def functionArgument (g : Nesting) : Parse Unit := do
  pass (oneOf ["IN", "OUT", "INOUT"])
  match (← dataType).sort with
  | .custom => pass dataType
  | _ => pure ()
  if ← keyword "DEFAULT" then pass g.expr
  else if ← accept .eq then pass g.expr

/-- A function by name, with the arguments that tell it from others. -/
def functionName (g : Nesting) : Parse Unit := do
  name
  pass (optionalInParens (optionalItems (functionArgument g)))

def functionBody : Parse Unit := do
  match ← peek? with
  | some (.text (.dollar _) _) => skip
  | _ => pass literalText

def createFunction (g : Nesting) : Parse Unit := do
  name
  pass (inParens (optionalItems (functionArgument g)))
  optionalClause ["RETURNS"] (pass dataType)
  onceEach [
    firstOf [clause ["AS"] functionBody, clause ["RETURN"] (pass g.expr)],
    clause ["LANGUAGE"] (pass ident),
    firstOf [keyword "IMMUTABLE", keyword "STABLE", keyword "VOLATILE"],
    firstOf [
      keywords ["CALLED", "ON", "NULL", "INPUT"],
      keywords ["RETURNS", "NULL", "ON", "NULL", "INPUT"],
      keyword "STRICT"],
    clause ["PARALLEL"] (pass (expectOneOf ["UNSAFE", "RESTRICTED", "SAFE"]))]

def createProcedure (g : Nesting) : Parse Unit := do
  name
  looseItems do
    match ← peek? with
    | some (.word _ _) => do
      pass ident
      pass dataType
    | _ => return ()
  expectKeywords ["AS", "BEGIN"]
  pass (statements g.statement)
  expectKeyword "END"

def triggerEvent : Parse Unit := do
  match ← expectOneOf ["INSERT", "UPDATE", "DELETE", "TRUNCATE"] with
  | "UPDATE" => optionalClause ["OF"] idents
  | _ => return ()

def createTrigger (g : Nesting) : Parse Unit := do
  name
  match ← expectOneOf ["BEFORE", "AFTER", "INSTEAD"] with
  | "INSTEAD" => expectKeyword "OF"
  | _ => pure ()
  triggerEvent
  repeated (clause ["OR"] triggerEvent)
  expectKeyword "ON"
  name
  optionalClause ["FROM"] lenientName
  constraintTiming
  optionalClause ["REFERENCING"] do
    let transition := do
      pass (keyword "AS")
      name
    repeated (firstOf [clause ["OLD", "TABLE"] transition, clause ["NEW", "TABLE"] transition])
  expectKeyword "FOR"
  pass (keyword "EACH")
  pass (expectOneOf ["ROW", "STATEMENT"])
  optionalClause ["WHEN"] (pass g.expr)
  expectKeyword "EXECUTE"
  pass (expectOneOf ["FUNCTION", "PROCEDURE"])
  functionName g

/-! ### All of them -/

/-- A definition, read after CREATE. Only some objects can be replaced. -/
def create (g : Nesting) : Parse Unit := do
  let replaces ← keywords ["OR", "REPLACE"]
  pass (keywords ["OR", "ALTER"])
  pass (keyword "LOCAL")
  pass (keyword "GLOBAL")
  pass (keyword "TRANSIENT")
  pass (oneOf ["TEMP", "TEMPORARY"])
  let replaceable := [
    clause ["TABLE"] (createTable g),
    clause ["MATERIALIZED", "VIEW"] (createView g),
    clause ["VIEW"] (createView g),
    clause ["POLICY"] (createPolicy g),
    clause ["EXTERNAL"] (createExternalTable g),
    clause ["FUNCTION"] (createFunction g),
    clause ["TRIGGER"] (createTrigger g),
    clause ["CONSTRAINT", "TRIGGER"] (createTrigger g),
    clause ["SECRET"] createSecret]
  let others := [
    clause ["EXTENSION"] createExtension,
    clause ["INDEX"] (createIndex g),
    clause ["UNIQUE", "INDEX"] (createIndex g),
    clause ["VIRTUAL"] createVirtualTable,
    clause ["SCHEMA"] createSchema,
    clause ["DATABASE"] createDatabase,
    clause ["ROLE"] createRole,
    clause ["SEQUENCE"] createSequence,
    clause ["TYPE"] createType,
    clause ["PROCEDURE"] (createProcedure g)]
  expectFirstOf (if replaces then replaceable else replaceable ++ others)

end ReportSql.Sql.Grammar
