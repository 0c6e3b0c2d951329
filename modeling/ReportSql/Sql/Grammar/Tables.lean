import ReportSql.Sql.Grammar.Expressions

/-!
The grammar of the FROM list: relations, table functions, derived tables and the joins between
them.
-/

namespace ReportSql.Sql.Grammar

open Parse

/-- A column of an alias, which may have a type. -/
def aliasColumn : Parse String := do
  let name := (← ident).text
  match ← optional dataType with
  | some type => return name ++ " " ++ type.text
  | none => return name

def aliasColumns : Parse (List String) := do
  return (← optionalInParens (commaSeparated aliasColumn)).getD []

def tableAlias : Parse (Option Alias) := do
  match ← optionalAlias endsRelation with
  | some name => return some ⟨name, ← aliasColumns⟩
  | none => return none

/-- The arguments of a table function, after the opening parenthesis and up to the closing
one. -/
def tableArguments (g : Nesting) : Parse (List Argument) := do
  if ← accept .rightParen then return []
  else
    let arguments ← commaSeparated (argument g)
    expect .rightParen
    return arguments

def derivedTable (g : Nesting) (isLateral : Bool) : Parse Table := do
  let q ← g.query
  expect .rightParen
  return .derived isLateral q (← tableAlias)

/-- An expression that AS may give a name. -/
def namedPiece (p : Parse Expr) : Parse (List Piece) := do
  let e ← p
  if ← keyword "AS" then return [.expr e, .text (" AS " ++ (← ident).text)]
  else return [.expr e]

/-- A call that PIVOT aggregates by. The function is one word, which loses its quotes. -/
def pivotCall (g : Nesting) : Parse Expr := do
  match ← next with
  | .word s _ => callRest g (leadingExpr g ((← ahead).length + 1)) [⟨s, .bare⟩] false
  | _ => fail

/-- The rows of a table turned into columns, read after PIVOT. -/
def pivotRest (g : Nesting) (table : Table) : Parse Table := do
  expect .leftParen
  let aggregates ← commaSeparated (namedPiece (pivotCall g))
  expectKeyword "FOR"
  let column ← path
  expectKeyword "IN"
  expect .leftParen
  let source ←
    if ← keyword "ANY" then
      if ← keywords ["ORDER", "BY"] then
        pure (.text "ANY ORDER BY " :: orderPieces (← orderItems g))
      else pure [.text "ANY"]
    else if ← atQuery then pure [.query (← g.query)]
    else pure (joinPieces ", " (← commaSeparated (namedPiece g.expr)))
  expect .rightParen
  let default ←
    if ← keywords ["DEFAULT", "ON", "NULL"] then
      pure [.text " DEFAULT ON NULL (", .expr (← inParens g.expr), .text ")"]
    else pure []
  expect .rightParen
  let label ← tableAlias
  return .phrase ([.table table, .text " PIVOT("] ++ joinPieces ", " aggregates
    ++ [.text (" FOR " ++ pathText column ++ " IN (")] ++ source ++ [.text ")"] ++ default
    ++ [.text (")" ++ aliasText label)])

/-- The columns of a table turned into rows, read after UNPIVOT. -/
def unpivotRest (table : Table) : Parse Table := do
  expect .leftParen
  let value ← ident
  expectKeyword "FOR"
  let name ← ident
  expectKeyword "IN"
  let columns ← columnList
  expect .rightParen
  let label ← tableAlias
  return .phrase [.table table, .text (" UNPIVOT(" ++ value.text ++ " FOR " ++ name.text ++ " IN ("
    ++ commaText (columns.map Ident.text) ++ "))" ++ aliasText label)]

def pivots (g : Nesting) (table : Table) : Parse Table :=
  iterate (fun table => do
    if ← keyword "PIVOT" then return some (← pivotRest g table)
    else if ← keyword "UNPIVOT" then return some (← unpivotRest table)
    else return none) table

/-- The elements of arrays as rows, read after UNNEST. A WITH at the end that no OFFSET follows
means nothing. -/
def unnestRest (g : Nesting) : Parse Table := do
  let arrays ← inParens (commaSeparated g.expr)
  let ordinality ← keywords ["WITH", "ORDINALITY"]
  let label ← tableAlias
  let offset ← if ← keyword "WITH" then keyword "OFFSET" else pure false
  let offsetAlias ← if offset then optionalAlias endsSelectItem else pure none
  return .phrase (.text "UNNEST(" :: exprPieces arrays
    ++ [.text (")" ++ (if ordinality then " WITH ORDINALITY" else "") ++ aliasText label
      ++ (if offset then " WITH OFFSET" else "")
      ++ optionalText " AS " (offsetAlias.map Ident.text))])

/-- What stands in for the value of a column of a JSON table. -/
def jsonInstead : Parse (Option String) := do
  if ← keyword "NULL" then return some "NULL"
  else if ← keyword "ERROR" then return some "ERROR"
  else if ← keyword "DEFAULT" then return some ("DEFAULT " ++ (← value).render)
  else return none

/-- What a column of a JSON table holds where its path finds nothing or goes wrong. -/
def jsonFallback : Parse (Option (String × String)) := do
  match ← jsonInstead with
  | none => return none
  | some text => do
    expectKeyword "ON"
    return some (← expectOneOf ["EMPTY", "ERROR"], text)

/-- A column of a JSON table; the bound is on columns inside columns. -/
def jsonColumn : Nat → Parse String
  | 0 => fail
  | n + 1 => do
    if ← keyword "NESTED" then
      let _ ← keyword "PATH"
      let place ← value
      expectKeyword "COLUMNS"
      let columns ← inParens (commaSeparated (jsonColumn n))
      return "NESTED PATH " ++ place.render ++ " COLUMNS (" ++ commaText columns ++ ")"
    else
      let name := (← ident).text
      if ← keyword "FOR" then
        expectKeyword "ORDINALITY"
        return name ++ " FOR ORDINALITY"
      else
        let type ← dataType
        let tests := if ← keyword "EXISTS" then " EXISTS" else ""
        expectKeyword "PATH"
        let place ← value
        let fallbacks := (← many jsonFallback).reverse
        let shown (k : String) :=
          optionalText " " ((fallbacks.lookup k).map (· ++ " ON " ++ k))
        return name ++ " " ++ type.text ++ tests ++ " PATH " ++ place.render ++ shown "EMPTY"
          ++ shown "ERROR"

/-- The rows that JSON_TABLE finds in a document, read after its opening parenthesis. -/
def jsonTableRest (g : Nesting) : Parse Table := do
  let document ← g.expr
  expect .comma
  let place ← value
  expectKeyword "COLUMNS"
  let columns ← inParens (commaSeparated (jsonColumn ((← ahead).length + 1)))
  expect .rightParen
  let label ← tableAlias
  return .phrase [.text "JSON_TABLE(", .expr document,
    .text (", " ++ place.render ++ " COLUMNS(" ++ commaText columns ++ "))" ++ aliasText label)]

/-- A column of OPENJSON, which may have a path and may hold JSON itself. -/
def openJsonColumn : Parse String := do
  let name := (← ident).text
  let type ← dataType
  let place ← match ← peek? with
    | some (.text .plain s) => do
      skip
      pure (" '" ++ escapeQuotes '\'' s ++ "'")
    | _ => pure ""
  if ← keyword "AS" then
    expectKeyword "JSON"
    return name ++ " " ++ type.text ++ place ++ " AS JSON"
  else return name ++ " " ++ type.text ++ place

/-- The members of a JSON document as rows, read after the opening parenthesis of OPENJSON. -/
def openJsonRest (g : Nesting) : Parse Table := do
  let document ← g.expr
  let place ← if ← accept .comma then pure (", " ++ (← value).render) else pure ""
  expect .rightParen
  let columns ←
    if ← keyword "WITH" then
      pure (" WITH (" ++ commaText (← inParens (commaSeparated openJsonColumn)) ++ ")")
    else pure ""
  let label ← tableAlias
  return .phrase [.text "OPENJSON(", .expr document,
    .text (place ++ ")" ++ columns ++ aliasText label)]

/-- A relation or table function by name. -/
def namedTable (g : Nesting) : Parse Table := do
  let name ← path
  let arguments ←
    if ← accept .leftParen then pure (some (← tableArguments g)) else pure none
  let ordinality ← keywords ["WITH", "ORDINALITY"]
  let label ← tableAlias
  let start ← ahead
  let hints ←
    if ← keyword "WITH" then
      if ← accept .leftParen then
        let hints ← commaSeparated g.expr
        expect .rightParen
        pure hints
      else do
        set start
        pure []
    else pure []
  pivots g (.named name arguments.isSome (arguments.getD []) ordinality label hints)

def joinConstraint (g : Nesting) (natural : Bool) : Parse (JoinForm × Option Expr) := do
  if natural then return (.natural, none)
  else if ← keyword "ON" then return (.on, some (← g.expr))
  else if ← keyword "USING" then return (.using (← columnList), none)
  else return (.unmarked, none)

/-- The kind of a join that a constraint follows, if the tokens start one. -/
def joinOperator (natural : Bool) : Parse (Option JoinOperator) := do
  match ← oneOf ["INNER", "JOIN", "LEFT", "RIGHT", "ANTI", "SEMI", "FULL"] with
  | some "JOIN" => return some .inner
  | some "INNER" => do
    expectKeyword "JOIN"
    return some .inner
  | some "FULL" => do
    let _ ← keyword "OUTER"
    expectKeyword "JOIN"
    return some .full
  | some side =>
    if side == "LEFT" || side == "RIGHT" then
      let plain : JoinOperator := if side == "LEFT" then .left else .right
      match ← expectOneOf ["OUTER", "SEMI", "ANTI", "JOIN"] with
      | "JOIN" => return some plain
      | "OUTER" => do
        expectKeyword "JOIN"
        return some plain
      | k => do
        expectKeyword "JOIN"
        return some (.other (side ++ " " ++ k ++ " JOIN"))
    else do
      expectKeyword "JOIN"
      return some (.other (side ++ " JOIN"))
  | none =>
    if natural then fail
    else if ← atKeyword "OUTER" then fail
    else return none

/-- A join onto the tables before it, if one follows. -/
def join (g : Nesting) (table : Parse Table) : Parse (Option Join) := do
  let isGlobal ← keyword "GLOBAL"
  if ← keyword "CROSS" then
    let operator ← match ← expectOneOf ["JOIN", "APPLY"] with
      | "JOIN" => pure .cross
      | _ => pure (.other "CROSS APPLY")
    return some ⟨isGlobal, operator, ← table, [], .unmarked, none⟩
  else if ← keyword "OUTER" then
    expectKeyword "APPLY"
    return some ⟨isGlobal, .other "OUTER APPLY", ← table, [], .unmarked, none⟩
  else if ← keyword "ASOF" then
    expectKeyword "JOIN"
    let t ← table
    expectKeyword "MATCH_CONDITION"
    let condition ← inParens g.expr
    let (form, on) ← joinConstraint g false
    return some ⟨isGlobal, .other "ASOF JOIN", t,
      [.text " MATCH_CONDITION (", .expr condition, .text ")"], form, on⟩
  else
    let natural ← keyword "NATURAL"
    match ← joinOperator natural with
    | none => return none
    | some operator =>
      let t ← table
      let (form, on) ← joinConstraint g natural
      return some ⟨isGlobal, operator, t, [], form, on⟩

/-- A table with its joins, given how to read a table. -/
def sourceOf (g : Nesting) (table : Parse Table) : Parse Source := do
  let t ← table
  return ⟨t, ← many (join g table)⟩

def isJoined : Table → Bool
  | .joined _ _ => true
  | _ => false

/-- What stands in a FROM list; the bound is on parentheses that only group joins. -/
def tableWithin (g : Nesting) : Nat → Parse Table
  | 0 => fail
  | n + 1 => do
    if ← keyword "LATERAL" then
      if ← accept .leftParen then derivedTable g true
      else
        let name ← path
        expect .leftParen
        let arguments ← tableArguments g
        return .function name arguments (← tableAlias)
    else if ← keyword "TABLE" then
      let e ← inParens g.expr
      let label ← tableAlias
      return .phrase [.text "TABLE(", .expr e, .text (")" ++ aliasText label)]
    else if ← accept .leftParen then
      match ← optional (derivedTable g false) with
      | some t => pivots g t
      | none =>
        let inner ← sourceOf g (tableWithin g n)
        if inner.joins.isEmpty && !isJoined inner.table then fail
        else
          expect .rightParen
          return .joined inner (← tableAlias)
    else if ← keyword "UNNEST" then unnestRest g
    else if ← opening "JSON_TABLE" then jsonTableRest g
    else if ← opening "OPENJSON" then openJsonRest g
    else namedTable g

def table (g : Nesting) : Parse Table := do tableWithin g ((← ahead).length + 1)

def source (g : Nesting) : Parse Source := sourceOf g (table g)

end ReportSql.Sql.Grammar
