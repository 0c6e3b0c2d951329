import ReportSql.Sql.Grammar.Changes

/-!
The grammar of queries: common table expressions, selects, set operations, and the clauses that
order, limit and lock the rows.
-/

namespace ReportSql.Sql.Grammar

open Parse

/-! ### Selects -/

def top (g : Nesting) : Parse (List Piece) := do
  unless ← keyword "TOP" do return []
  let quantity ←
    if ← accept .leftParen then
      let e ← g.expr
      expect .rightParen
      pure [.text " TOP (", .expr e, .text ")"]
    else pure [.text (" TOP " ++ toString (← natural))]
  let percent := if ← keyword "PERCENT" then " PERCENT" else ""
  let ties := if ← keywords ["WITH", "TIES"] then " WITH TIES" else ""
  return quantity ++ [.text (percent ++ ties)]

def distinct (g : Nesting) : Parse (DistinctForm × List Expr) := do
  let all ← keyword "ALL"
  if ← keyword "DISTINCT" then
    if all then fail
    if ← keyword "ON" then
      expect .leftParen
      if ← accept .rightParen then return (.on, [])
      else
        let keys ← commaSeparated g.expr
        expect .rightParen
        return (.on, keys)
    else return (.rows, [])
  else return (.unmarked, [])

def selectInto : Parse (Option String) := do
  unless ← keyword "INTO" do return none
  let temporary := if (← oneOf ["TEMP", "TEMPORARY"]).isSome then " TEMPORARY" else ""
  let unlogged := if ← keyword "UNLOGGED" then " UNLOGGED" else ""
  let table := if ← keyword "TABLE" then " TABLE" else ""
  return some ("INTO" ++ temporary ++ unlogged ++ table ++ " " ++ pathText (← path))

def lateralView (g : Nesting) : Parse (Option (List Piece)) := do
  unless ← keywords ["LATERAL", "VIEW"] do return none
  let outer := if ← keyword "OUTER" then " OUTER" else ""
  let e ← g.expr
  let name ← path
  let aliases ← commaSeparated (optionalAlias ["WHERE", "GROUP", "CLUSTER", "HAVING", "LATERAL"])
  let columns := (aliases.filterMap id).map Ident.text
  return some [.text (" LATERAL VIEW" ++ outer ++ " "), .expr e, .text (" " ++ pathText name
    ++ if columns.isEmpty then "" else " AS " ++ commaText columns)]

/-- Keys in parentheses, which may be none. -/
def keyTuple (g : Nesting) : Parse (List Expr) := do
  expect .leftParen
  if ← accept .rightParen then return []
  else
    let keys ← commaSeparated g.expr
    expect .rightParen
    return keys

/-- A tuple of keys, as a set of groups. -/
def groupSet (g : Nesting) : Parse (List Piece) := do
  return .text "(" :: exprPieces (← keyTuple g) ++ [.text ")"]

/-- A tuple of keys, where one key stands without parentheses. -/
def groupKey (g : Nesting) : Parse (List Piece) := do
  let keys ← if ← atSymbol .leftParen then keyTuple g else pure [← g.expr]
  match keys with
  | [e] => return [.expr e]
  | keys => return .text "(" :: exprPieces keys ++ [.text ")"]

def groupByExpr (g : Nesting) : Parse Expr := do
  let grouping (name : String) (item : Parse (List Piece)) : Parse Expr := do
    let items ← inParens (commaSeparated item)
    return .phrase (.text (name ++ " (") :: joinPieces ", " items ++ [.text ")"])
  if ← keywords ["GROUPING", "SETS"] then grouping "GROUPING SETS" (groupSet g)
  else if ← keyword "CUBE" then grouping "CUBE" (groupKey g)
  else if ← keyword "ROLLUP" then grouping "ROLLUP" (groupKey g)
  else match ← ahead with
    | .symbol .leftParen :: .symbol .rightParen :: rest => do
      set rest
      return .phrase [.text "()"]
    | _ => g.expr

def groupBy (g : Nesting) : Parse (Bool × List Expr) := do
  if ← keywords ["GROUP", "BY"] then
    if ← keyword "ALL" then return (true, [])
    else return (false, ← commaSeparated (groupByExpr g))
  else return (false, [])

def sortingClause (g : Nesting) (name : String) : Parse (List Piece) := do
  if ← keywords [name, "BY"] then
    return .text (" " ++ name ++ " BY ") :: exprPieces (← commaSeparated g.expr)
  else return []

def namedWindow (g : Nesting) : Parse (List Piece) := do
  let name ← ident
  expectKeyword "AS"
  expect .leftParen
  let inside ← window g (leadingExpr g ((← ahead).length + 1))
  return .text (name.text ++ " AS (") :: inside ++ [.text ")"]

def windowClause (g : Nesting) : Parse (List Piece) := do
  if ← keyword "WINDOW" then return joinPieces ", " (← commaSeparated (namedWindow g))
  else return []

def optionalExpr (g : Nesting) (k : String) : Parse (Option Expr) := do
  if ← keyword k then return some (← g.expr) else return none

def select (g : Nesting) : Parse Select := do
  expectKeyword "SELECT"
  let (distinct, distinctKeys) ← distinct g
  let top ← top g
  let items ← commaSeparated (selectItem g)
  let into ← selectInto
  let sources ← if ← keyword "FROM" then commaSeparated (source g) else pure []
  let views := (← many (lateralView g)).flatten
  let condition ← optionalExpr g "WHERE"
  let (groupAll, groupBy) ← groupBy g
  let clustered ← sortingClause g "CLUSTER"
  let distributed ← sortingClause g "DISTRIBUTE"
  let sorted ← sortingClause g "SORT"
  let having ← optionalExpr g "HAVING"
  let windows ← windowClause g
  let qualify ← optionalExpr g "QUALIFY"
  let laterWindows ←
    if windows.isEmpty && qualify.isSome then windowClause g else pure []
  return {
    distinct, distinctKeys, top, items, into, sources, views, condition, groupAll, groupBy
    sorting := clustered ++ distributed ++ sorted
    having
    windows := windows ++ laterWindows
    qualify
    windowsFirst := !windows.isEmpty }

/-! ### Bodies -/

def values (g : Nesting) : Parse Body := do
  let row : Parse (Bool × List Expr) := do
    let marked ← keyword "ROW"
    return (marked, ← inParens (commaSeparated g.expr))
  let rows ← commaSeparated row
  let lead := if rows.any Prod.fst then "ROW(" else "("
  return .values (.text "VALUES " ::
    joinPieces ", " (rows.map fun (_, r) => .text lead :: exprPieces r ++ [.text ")"]))

/-- A relation after TABLE. Three tokens are passed whether or not the name takes them all. -/
def tableBody : Parse Body := do
  match ← ahead with
  | .word schema _ :: .symbol .period :: .word name _ :: rest => do
    set rest
    return .table ("TABLE " ++ schema ++ "." ++ name)
  | .word _ _ :: .symbol .period :: _ => fail
  | .word name _ :: rest => do
    set (rest.drop 2)
    return .table ("TABLE " ++ name)
  | _ => fail

def setOperator? (tokens : List Token) : Option SetOperator :=
  match tokens.head?.bind Token.keyword? with
  | some "UNION" => some .union
  | some "EXCEPT" => some .except
  | some "INTERSECT" => some .intersect
  | _ => none

/-- INTERSECT binds more tightly than the other set operators. -/
def setPrecedence : SetOperator → Nat
  | .intersect => 20
  | _ => 10

def setQuantifier : Parse SetQuantifier := do
  if ← keywords ["DISTINCT", "BY", "NAME"] then return .distinctByName
  else if ← keywords ["BY", "NAME"] then return .byName
  else if ← keyword "ALL" then
    if ← keywords ["BY", "NAME"] then return .allByName else return .all
  else if ← keyword "DISTINCT" then return .distinct
  else return .unmarked

def simpleBody (g : Nesting) : Parse Body := do
  if ← atKeyword "SELECT" then return .select (← select g)
  else if ← accept .leftParen then
    let q ← g.query
    expect .rightParen
    return .query q
  else if ← keyword "VALUES" then values g
  else if ← keyword "TABLE" then tableBody
  else fail

/-- A body whose set operators bind more tightly than a given precedence. The bound is on the
operators that a right-hand side can nest. -/
def bodyAbove (g : Nesting) : Nat → Nat → Parse Body
  | 0, _ => fail
  | n + 1, precedence => do
    let first ← simpleBody g
    iterate (fun left => do
      match setOperator? (← ahead) with
      | none => return none
      | some op =>
        if setPrecedence op ≤ precedence then return none
        else
          skip
          let quantifier ← setQuantifier
          let right ← bodyAbove g n (setPrecedence op)
          return some (.setOperation left op quantifier right)) first

/-! ### Queries -/

def materialized : Parse (Option Bool) := do
  if ← keyword "MATERIALIZED" then return some true
  else if ← keywords ["NOT", "MATERIALIZED"] then return some false
  else return none

def cte (g : Nesting) : Parse Cte := do
  let name ← ident
  let columns ←
    if ← keyword "AS" then pure []
    else
      let columns ← aliasColumns
      expectKeyword "AS"
      pure columns
  let isMaterialized ← materialized
  let q ← inParens g.query
  let source ← if ← keyword "FROM" then pure (some (← ident)) else pure none
  return ⟨⟨name, columns⟩, isMaterialized, q, source⟩

def limitClause (g : Nesting) : Parse (Option Expr) := do
  if ← keyword "ALL" then return none else return some (← g.expr)

def offsetUnit : Parse OffsetUnit := do
  if ← keyword "ROW" then return .row
  else if ← keyword "ROWS" then return .rows
  else return .unmarked

/-- LIMIT and OFFSET in either order; a limit of ALL is none. -/
def limits (g : Nesting) : Nat → Option Expr → Option (Expr × OffsetUnit) →
    Parse (Option Expr × Option (Expr × OffsetUnit))
  | 0, limit, offset => return (limit, offset)
  | n + 1, limit, offset => do
    let limit ←
      if limit.isNone then
        if ← keyword "LIMIT" then limitClause g else pure none
      else pure limit
    let offset ←
      if offset.isNone then
        if ← keyword "OFFSET" then
          let count ← g.expr
          pure (some (count, ← offsetUnit))
        else pure none
      else pure offset
    limits g n limit offset

def fetchClause : Parse (Option String) := do
  unless ← keyword "FETCH" do return none
  let _ ← expectOneOf ["FIRST", "NEXT"]
  let quantity ←
    if (← oneOf ["ROW", "ROWS"]).isSome then pure ""
    else
      let v ← value
      let percent := if ← keyword "PERCENT" then " PERCENT" else ""
      let _ ← expectOneOf ["ROW", "ROWS"]
      pure (" " ++ v.render ++ percent)
  let ties ←
    if ← keyword "ONLY" then pure "ONLY"
    else
      expectKeywords ["WITH", "TIES"]
      pure "WITH TIES"
  return some ("FETCH FIRST" ++ quantity ++ " ROWS " ++ ties)

def quotedName : Parse (Option String) := optionalInParens literalText

/-- An option of JSON or XML output, by its keyword, and the text it holds. -/
abbrev OutputOption := String × Option String

/-- What stands after a comma in a request for output. An unknown option is left for what follows
the request. -/
def outputOption (known : List String) : Parse (List OutputOption) := do
  match ← oneOf known with
  | some "BINARY" => do
    expectKeyword "BASE64"
    return [("BINARY BASE64", none)]
  | some "ROOT" => return [("ROOT", some (← inParens literalText))]
  | some k => return [(k, none)]
  | none => return []

/-- The options of a request for output, in an order of their own. Of several roots the last one
counts. -/
def outputOptions (known shown : List String) : Parse String := do
  let found := (← many do
    if ← accept .comma then return some (← outputOption known) else return none).flatten
  return String.join (shown.map fun k =>
    match found.reverse.lookup k with
    | some (some name) => ", " ++ k ++ "('" ++ name ++ "')"
    | some none => ", " ++ k
    | none => "")

/-- A request for JSON, XML or browse output, read after FOR. -/
def outputClause : Parse (Option String) := do
  if ← keyword "XML" then
    let k ← expectOneOf ["RAW", "AUTO", "EXPLICIT", "PATH"]
    let name ← if k == "RAW" || k == "PATH" then quotedName else pure none
    let shown := match name with
      | some s => "('" ++ s ++ "')"
      | none => ""
    return some ("FOR XML " ++ k ++ shown
      ++ (← outputOptions ["ELEMENTS", "BINARY", "ROOT", "TYPE"]
        ["BINARY BASE64", "TYPE", "ROOT", "ELEMENTS"]))
  else if ← keyword "JSON" then
    let k ← expectOneOf ["AUTO", "PATH"]
    let options := ["ROOT", "INCLUDE_NULL_VALUES", "WITHOUT_ARRAY_WRAPPER"]
    return some ("FOR JSON " ++ k ++ (← outputOptions options options))
  else if ← keyword "BROWSE" then return some "FOR BROWSE"
  else return none

/-- What happens where a row is already locked. -/
def lockWaiting : Parse String := do
  if ← keyword "NOWAIT" then return " NOWAIT"
  else if ← keywords ["SKIP", "LOCKED"] then return " SKIP LOCKED"
  else return ""

/-- A locking clause, read after FOR. -/
def lockClause : Parse String := do
  let k ← expectOneOf ["UPDATE", "SHARE"]
  let relation ← if ← keyword "OF" then pure (" OF " ++ pathText (← path)) else pure ""
  return "FOR " ++ k ++ relation ++ (← lockWaiting)

/-- Locking clauses up to a request for output, which ends them. -/
def forClauses : Nat → Parse (List String × Option String)
  | 0 => fail
  | n + 1 => do
    if ← keyword "FOR" then
      match ← outputClause with
      | some output => return ([], some output)
      | none =>
        let lock ← lockClause
        let (locks, output) ← forClauses n
        return (lock :: locks, output)
    else return ([], none)

def ofBody (isRecursive : Bool) (ctes : List Cte) (body : Body) : Query where
  isRecursive
  ctes
  body
  orderBy := []
  limit := none
  offset := none
  offsetUnit := .unmarked
  fetch := none
  locks := []
  output := none

def query (g : Nesting) : Parse Query := do
  let hasCtes ← keyword "WITH"
  let isRecursive ← if hasCtes then keyword "RECURSIVE" else pure false
  let ctes ← if hasCtes then commaSeparated (cte g) else pure []
  if ← keyword "INSERT" then
    return ofBody isRecursive ctes (.change "INSERT" (← insertRest g))
  else if ← keyword "UPDATE" then
    return ofBody isRecursive ctes (.change "UPDATE" (← updateRest g))
  else
    let body ← bodyAbove g 3 0
    let orderBy ← if ← keywords ["ORDER", "BY"] then orderItems g else pure []
    let (limit, offset) ← limits g 2 none none
    let fetch ← fetchClause
    let (locks, output) ← forClauses ((← ahead).length + 1)
    return {
      isRecursive, ctes, body, orderBy, limit
      offset := offset.map Prod.fst
      offsetUnit := (offset.map Prod.snd).getD .unmarked
      fetch, locks, output }

end ReportSql.Sql.Grammar
