import ReportSql.Sql.Grammar.Nesting
import ReportSql.Sql.Grammar.Types

/-!
The grammar of expressions: what an expression starts with, the operators that go on from there,
and how tightly they bind. All binary operators associate to the left.
-/

namespace ReportSql.Sql.Grammar

open Parse

/-! ### Precedence -/

def symbolPrecedence : Symbol → Nat
  | .doubleColon => 140
  | .leftBracket => 130
  | .caret => 100
  | .star | .slash | .percent => 90
  | .plus | .minus => 80
  | .arrow | .longArrow | .hashArrow | .hashLongArrow | .atArrow | .arrowAt | .hashMinus
  | .atQuestion | .atAt | .question | .questionAnd | .questionPipe | .bang | .overlap | .caretAt
  | .concat | .hash | .shiftLeft | .shiftRight | .pipe | .ampersand => 70
  | .eq | .lt | .ltEq | .neq | .gt | .gtEq | .doubleEq | .spaceship | .tilde | .tildeStar
  | .bangTilde | .bangTildeStar | .doubleTilde | .doubleTildeStar | .bangDoubleTilde
  | .bangDoubleTildeStar => 50
  | _ => 0

/-- The keywords of tests that bind like LIKE, and that NOT may stand in front of. -/
def testKeywords : List String :=
  ["IN", "BETWEEN", "LIKE", "ILIKE", "RLIKE", "REGEXP", "SIMILAR"]

/-- How tightly the operator binds that the tokens start with; zero where none starts. -/
def nextPrecedence (tokens : List Token) : Nat :=
  match tokens with
  | [] => 0
  | .symbol s :: _ => symbolPrecedence s
  | .operator _ :: _ => 70
  | t :: rest =>
    match t.keyword? with
    | none => 0
    | some k =>
      if testKeywords.contains k then 60
      else match k with
        | "COLLATE" => 120
        | "AT" => if (afterKeywords? ["TIME", "ZONE"] rest).isSome then 110 else 0
        | "DIV" => 90
        | "XOR" => 75
        | "OPERATOR" => 60
        | "IS" => 40
        | "NOT" =>
          if (rest.head?.bind Token.keyword?).any testKeywords.contains then 60 else 0
        | "AND" => 20
        | "OR" => 10
        | _ => 0

def notPrecedence : Nat := 30
def testPrecedence : Nat := 60
def signPrecedence : Nat := 90
def prefixPrecedence : Nat := 80

/-- The binary operator a symbol stands for, if it stands for one. -/
def symbolOperator? : Symbol → Option BinaryOp
  | .eq | .doubleEq => some .eq
  | .neq => some .notEq
  | .gt => some .gt
  | .gtEq => some .gtEq
  | .lt => some .lt
  | .ltEq => some .ltEq
  | .plus => some .plus
  | .minus => some .minus
  | .star => some .times
  | .slash => some .divide
  | .percent => some .modulo
  | .concat => some .concat
  | .doubleColon | .leftBracket | .bang => none
  | s => if symbolPrecedence s > 0 then some (.other s.text) else none

/-! ### Dates, intervals and literals -/

/-- Fields of a date or time that have a name of their own. -/
def dateFields : List String :=
  ["YEAR", "MONTH", "WEEK", "DAY", "DAYOFWEEK", "DAYOFYEAR", "DATE", "DATETIME", "HOUR",
   "MINUTE", "SECOND", "CENTURY", "DECADE", "DOY", "DOW", "EPOCH", "ISODOW", "ISOYEAR",
   "ISOWEEK", "JULIAN", "MICROSECOND", "MICROSECONDS", "MILLENIUM", "MILLENNIUM",
   "MILLISECOND", "MILLISECONDS", "NANOSECOND", "NANOSECONDS", "QUARTER", "TIME", "TIMEZONE",
   "TIMEZONE_ABBR", "TIMEZONE_HOUR", "TIMEZONE_MINUTE", "TIMEZONE_REGION"]

/-- Fields that can follow the value of an interval. -/
def intervalFields : List String :=
  ["YEAR", "MONTH", "WEEK", "DAY", "HOUR", "MINUTE", "SECOND", "CENTURY", "DECADE", "DOW",
   "DOY", "EPOCH", "ISODOW", "ISOYEAR", "JULIAN", "MICROSECOND", "MICROSECONDS", "MILLENIUM",
   "MILLENNIUM", "MILLISECOND", "MILLISECONDS", "NANOSECOND", "NANOSECONDS", "QUARTER",
   "TIMEZONE", "TIMEZONE_HOUR", "TIMEZONE_MINUTE"]

/-- A field, which keeps its spelling unless it has a name of its own. -/
def dateField : Parse String := do
  match ← oneOf dateFields with
  | some k => return k
  | none => return (← ident).text

/-- A precision after a blank, if one follows. -/
def spacedPrecision : Parse String := do
  match ← optionalInParens natural with
  | some n => return s!" ({n})"
  | none => return ""

/-- What follows the value of an interval. -/
def intervalUnit : Parse IntervalUnit := do
  match ← oneOf intervalFields with
  | some "SECOND" =>
    let scale := do
      let p ← natural
      if ← accept .comma then
        let q ← natural
        return s!" ({p}, {q})"
      else return s!" ({p})"
    return ⟨true, " SECOND" ++ (← optionalInParens scale).getD ""⟩
  | leading =>
    let precision ← spacedPrecision
    let lead := optionalText " " leading ++ precision
    if ← keyword "TO" then
      let last ← dateField
      let fraction ← if last == "SECOND" then spacedPrecision else pure ""
      return ⟨true, lead ++ " TO " ++ last ++ fraction⟩
    else return ⟨leading.isSome, lead⟩

/-- An interval, read after its keyword; its value is what an expression can start with. -/
def interval (lead : Parse Expr) : Parse Expr := do
  let v ← lead
  return .interval v (← intervalUnit)

/-- A literal with a built-in type in front of it. -/
def typedLiteral (lead : Parse Expr) : Parse Expr := do
  let type ← dataType
  match type.sort with
  | .custom => fail
  | .interval => interval lead
  | _ => return .typed type (← literalText)

/-! ### Function calls -/

def wildcardText (names : List Ident) : String :=
  if names.isEmpty then "*" else pathText names ++ ".*"

/-- A wildcard or an expression, as a piece. -/
def wildcardOrExpr (g : Nesting) : Parse Piece := do
  match ← leadingWildcard with
  | some names => return .text (wildcardText names)
  | none => return .expr (← g.expr)

/-- What stands between the name and the value of a named argument. -/
def argumentOperator : Parse String := do
  if ← keyword "VALUE" then return "VALUE"
  else if ← accept .fatArrow then return "=>"
  else if ← accept .colon then return ":"
  else fail

/-- What follows the name of a named argument. -/
def namedArgumentRest (g : Nesting) : Parse (List Piece) := do
  let operator ← argumentOperator
  return [.text (" " ++ operator ++ " "), ← wildcardOrExpr g]

/-- An argument; a named one has any expression for its name. -/
def argument (g : Nesting) : Parse Argument := do
  let start ← ahead
  match ← leadingWildcard with
  | some names =>
    let after ← ahead
    set start
    match ← optional (do return .expr (← g.expr) :: (← namedArgumentRest g)) with
    | some pieces => return .phrase pieces
    | none =>
      set after
      return if names.isEmpty then .star else .phrase [.text (wildcardText names)]
  | none =>
    let e ← g.expr
    match ← optional (namedArgumentRest g) with
    | some pieces => return .phrase (.expr e :: pieces)
    | none =>
      match e with
      | .wildcard names => return .phrase [.text (wildcardText names)]
      | e => return .expr e

/-- How a JSON function treats NULL, if it says so. -/
def jsonNulls : Parse (List (List Piece)) := do
  if ← keywords ["ABSENT", "ON", "NULL"] then return [[.text "ABSENT ON NULL"]]
  else if ← keywords ["NULL", "ON", "NULL"] then return [[.text "NULL ON NULL"]]
  else return []

/-- The literals that an aggregate can end a text with that grows too long. -/
def fillerForms : List TextForm := [.plain, .escaped, .unicode, .national, .hex]

/-- What an aggregate does when its text grows too long, if it says so. -/
def onOverflow (g : Nesting) : Parse (List (List Piece)) := do
  if ← keywords ["ON", "OVERFLOW"] then
    if ← keyword "ERROR" then return [[.text "ON OVERFLOW ERROR"]]
    else
      expectKeyword "TRUNCATE"
      let filler ←
        if (← atKeyword "WITH") || (← atKeyword "WITHOUT") then pure []
        else match ← peek? with
          | some (.text form _) =>
            if fillerForms.contains form then pure [.text " ", .expr (← g.expr)] else fail
          | _ => fail
      let counted ← expectOneOf ["WITH", "WITHOUT"]
      expectKeyword "COUNT"
      return [.text "ON OVERFLOW TRUNCATE" :: filler ++ [.text (" " ++ counted ++ " COUNT")]]
  else return []

/-- The quantifier, arguments and clauses of a call, after the opening parenthesis and up to the
closing one. -/
def argumentList (g : Nesting) : Parse (Option String × List Argument × List Piece) := do
  let nulls ← jsonNulls
  if ← accept .rightParen then return (none, [], joinPieces " " nulls)
  let all ← keyword "ALL"
  let distinct ← keyword "DISTINCT"
  if all && distinct then fail
  let quantifier := if all then some "ALL" else if distinct then some "DISTINCT" else none
  let arguments ← commaSeparated (argument g)
  let order ←
    if ← keywords ["ORDER", "BY"] then
      pure [.text "ORDER BY " :: orderPieces (← orderItems g)]
    else pure []
  let limit ←
    if ← keyword "LIMIT" then pure [[.text "LIMIT ", .expr (← g.expr)]] else pure []
  let overflow ← onOverflow g
  let lastNulls ← jsonNulls
  expect .rightParen
  return (quantifier, arguments, joinPieces " " (nulls ++ order ++ limit ++ overflow ++ lastNulls))

/-! ### Windows -/

def frameBound (g : Nesting) (lead : Parse Expr) : Parse (List Piece) := do
  if ← keywords ["CURRENT", "ROW"] then return [.text "CURRENT ROW"]
  let distance ←
    if ← keyword "UNBOUNDED" then pure [.text "UNBOUNDED "]
    else match ← peek? with
      | some (.text .plain _) => pure [.expr (← interval lead), .text " "]
      | _ => pure [.expr (← g.expr), .text " "]
  return distance ++ [.text (← expectOneOf ["PRECEDING", "FOLLOWING"])]

def frame (g : Nesting) (lead : Parse Expr) : Parse (List Piece) := do
  let unit ← expectOneOf ["ROWS", "RANGE", "GROUPS"]
  if ← keyword "BETWEEN" then
    let start ← frameBound g lead
    expectKeyword "AND"
    let stop ← frameBound g lead
    return .text (unit ++ " BETWEEN ") :: start ++ .text " AND " :: stop
  else return .text (unit ++ " ") :: (← frameBound g lead)

/-- The inside of a window, up to the closing parenthesis. -/
def window (g : Nesting) (lead : Parse Expr) : Parse (List Piece) := do
  let base ←
    if (← peek?).any Token.isPlainWord then pure [[.text (← ident).text]] else pure []
  let parts ←
    if ← keywords ["PARTITION", "BY"] then
      pure [.text "PARTITION BY " :: exprPieces (← commaSeparated g.expr)]
    else pure []
  let order ←
    if ← keywords ["ORDER", "BY"] then
      pure [.text "ORDER BY " :: orderPieces (← orderItems g)]
    else pure []
  let bounds ←
    if ← accept .rightParen then pure []
    else
      let f ← frame g lead
      expect .rightParen
      pure [f]
  return joinPieces " " (base ++ parts ++ order ++ bounds)

/-- A call, read after the name of the function. -/
def callRest (g : Nesting) (lead : Parse Expr) (name : List Ident) (inBraces : Bool) :
    Parse Expr := do
  expect .leftParen
  let (quantifier, arguments, clauses) ← argumentList g
  let within ←
    if ← keywords ["WITHIN", "GROUP"] then
      expect .leftParen
      expectKeywords ["ORDER", "BY"]
      let order ← orderItems g
      expect .rightParen
      pure (.text " WITHIN GROUP (ORDER BY " :: orderPieces order ++ [.text ")"])
    else pure []
  -- a word or parenthesis that turns out to start no filter stays passed
  let filter ←
    if ← keyword "FILTER" then
      if ← accept .leftParen then
        if ← keyword "WHERE" then
          let condition ← g.expr
          expect .rightParen
          pure (some condition)
        else pure none
      else pure none
    else pure none
  let nulls ←
    match ← oneOf ["RESPECT", "IGNORE"] with
    | some k => do
      expectKeyword "NULLS"
      pure (some (k ++ " NULLS"))
    | none => pure none
  let window ←
    if ← keyword "OVER" then
      if ← accept .leftParen then
        let inside ← window g lead
        pure (.text " OVER (" :: inside ++ [.text ")"])
      else pure [.text (" OVER " ++ (← ident).text)]
    else pure []
  return .call name inBraces (.list quantifier) arguments clauses within filter nulls window

/-- A call that has no clauses after its list. -/
def plainCall (name : Ident) (form : CallForm) (arguments : List Argument)
    (clauses : List Piece) : Expr :=
  .call [name] false form arguments clauses [] none none []

/-! ### Words that start a construct -/

def caseExpr (g : Nesting) : Parse Expr := do
  let operand ←
    if ← keyword "WHEN" then pure none
    else
      let e ← g.expr
      expectKeyword "WHEN"
      pure (some e)
  let branch : Parse CaseBranch := do
    let condition ← g.expr
    expectKeyword "THEN"
    return ⟨condition, ← g.expr⟩
  let first ← branch
  let rest ← many do
    if ← keyword "WHEN" then return some (← branch) else return none
  let otherwise ← if ← keyword "ELSE" then pure (some (← g.expr)) else pure none
  expectKeyword "END"
  return .case operand (first :: rest) otherwise

def castExpr (g : Nesting) (form : CastForm) : Parse Expr := do
  expect .leftParen
  let e ← g.expr
  expectKeyword "AS"
  let type ← dataType
  let format ←
    if ← keyword "FORMAT" then
      let v ← value
      if ← keywords ["AT", "TIME", "ZONE"] then
        pure (some (v.render ++ " AT TIME ZONE " ++ (← value).render))
      else pure (some v.render)
    else pure none
  expect .rightParen
  return .cast form e type format

def convertExpr (g : Nesting) : Parse Expr := do
  expect .leftParen
  let e ← g.expr
  let rest ←
    if ← keyword "USING" then pure (" USING " ++ pathText (← path))
    else
      expect .comma
      let type ← dataType
      if ← keywords ["CHARACTER", "SET"] then
        pure (", " ++ type.text ++ " CHARACTER SET " ++ pathText (← path))
      else pure (", " ++ type.text)
  expect .rightParen
  return .phrase [.text "CONVERT(", .expr e, .text (rest ++ ")")]

def existsExpr (g : Nesting) (negated : Bool) : Parse Expr := do
  return .exists (← inParens g.query) negated

def extractExpr (g : Nesting) : Parse Expr := do
  expect .leftParen
  let field ← dateField
  expectKeyword "FROM"
  let e ← g.expr
  expect .rightParen
  return .phrase [.text ("EXTRACT(" ++ field ++ " FROM "), .expr e, .text ")"]

/-- What a number is rounded to: a field of a date or some places. -/
def roundingUnit : Parse String := do
  if ← keyword "TO" then return " TO " ++ (← dateField)
  else if ← accept .comma then
    match ← value with
    | .number digits long => return ", " ++ (Value.number digits long).render
    | _ => fail
  else return ""

/-- `CEIL` and `FLOOR`, to a field of a date or to some places. -/
def roundingExpr (g : Nesting) (name : String) : Parse Expr := do
  expect .leftParen
  let e ← g.expr
  let rest ← roundingUnit
  expect .rightParen
  return .phrase [.text (name ++ "("), .expr e, .text (rest ++ ")")]

def positionExpr (g : Nesting) : Parse Expr := do
  expect .leftParen
  let e ← g.exprAbove testPrecedence
  expectKeyword "IN"
  let text ← g.expr
  expect .rightParen
  return .phrase [.text "POSITION(", .expr e, .text " IN ", .expr text, .text ")"]

/-- Where a part of a text starts, if it says so; the flag says whether a comma stands before. -/
def substringStart (g : Nesting) (special : Bool) : Parse (List Piece) := do
  if special then return [.text ", ", .expr (← g.expr)]
  else if ← keyword "FROM" then return [.text " FROM ", .expr (← g.expr)]
  else return []

/-- How long a part of a text is, if it says so. -/
def substringLength (g : Nesting) (special : Bool) : Parse (List Piece) := do
  let extent := do return [.text (if special then ", " else " FOR "), .expr (← g.expr)]
  if ← keyword "FOR" then extent
  else if ← accept .comma then extent
  else return []

def substringExpr (g : Nesting) : Parse Expr := do
  expect .leftParen
  let e ← g.expr
  let special ← accept .comma
  let start ← substringStart g special
  let length ← substringLength g special
  expect .rightParen
  return .phrase (.text "SUBSTRING(" :: .expr e :: start ++ length ++ [.text ")"])

def overlayExpr (g : Nesting) : Parse Expr := do
  expect .leftParen
  let e ← g.expr
  expectKeyword "PLACING"
  let what ← g.expr
  expectKeyword "FROM"
  let start ← g.expr
  let length ← if ← keyword "FOR" then pure [.text " FOR ", .expr (← g.expr)] else pure []
  expect .rightParen
  return .phrase ([.text "OVERLAY(", .expr e, .text " PLACING ", .expr what, .text " FROM ",
    .expr start] ++ length ++ [.text ")"])

def trimExpr (g : Nesting) : Parse Expr := do
  expect .leftParen
  let side ← oneOf ["BOTH", "LEADING", "TRAILING"]
  let e ← g.expr
  if ← keyword "FROM" then
    let text ← g.expr
    expect .rightParen
    return .trim side (some e) text
  else
    let _ ← accept .comma
    expect .rightParen
    return .trim side none e

def notExpr (g : Nesting) : Parse Expr := do
  if ← keyword "EXISTS" then existsExpr g true
  else return .unary .not (← g.exprAbove notPrecedence)

/-- The elements of an array, after the opening bracket and up to the closing one. -/
def arrayRest (g : Nesting) (lead : String) : Parse Expr := do
  if ← accept .rightBracket then return .phrase [.text (lead ++ "[]")]
  else
    let items ← commaSeparated g.expr
    expect .rightBracket
    return .phrase (.text (lead ++ "[") :: exprPieces items ++ [.text "]"])

/-- The construct that an unquoted word starts, if it starts one. -/
def wordConstruct (g : Nesting) (lead : Parse Expr) (word : Ident) (k : String) :
    Parse (Option Expr) := do
  match k with
  | "TRUE" => return some (.value (.boolean true))
  | "FALSE" => return some (.value (.boolean false))
  | "NULL" => return some (.value .null)
  | "CURRENT_CATALOG" | "CURRENT_USER" | "SESSION_USER" | "USER" =>
    return some (plainCall word .bare [] [])
  | "CURRENT_TIMESTAMP" | "CURRENT_TIME" | "CURRENT_DATE" | "LOCALTIME" | "LOCALTIMESTAMP" =>
    if ← accept .leftParen then
      let (quantifier, arguments, clauses) ← argumentList g
      return some (plainCall word (.list quantifier) arguments clauses)
    else return some (plainCall word .bare [] [])
  | "CASE" => return some (← caseExpr g)
  | "CONVERT" => return some (← convertExpr g)
  | "CAST" => return some (← castExpr g .function)
  | "TRY_CAST" | "SAFE_CAST" => return some (← castExpr g (.other k))
  | "EXISTS" => return some (← existsExpr g false)
  | "EXTRACT" => return some (← extractExpr g)
  | "CEIL" | "FLOOR" => return some (← roundingExpr g k)
  | "POSITION" =>
    if ← atSymbol .leftParen then
      return some (← orElse (positionExpr g) (callRest g lead [word] false))
    else return none
  | "SUBSTRING" => return some (← substringExpr g)
  | "OVERLAY" => return some (← overlayExpr g)
  | "TRIM" => return some (← trimExpr g)
  | "INTERVAL" => return some (← interval lead)
  | "ARRAY" =>
    if ← accept .leftBracket then return some (← arrayRest g "ARRAY")
    else if ← accept .leftParen then
      let q ← g.query
      expect .rightParen
      return some (plainCall word .subquery [] [.query q])
    else return none
  | "NOT" => return some (← notExpr g)
  | _ => return none

/-- A column or a call, whose first name is already passed. -/
def nameOrCall (g : Nesting) (lead : Parse Expr) (word : Ident) : Parse Expr := do
  let rec more : Nat → List Ident → Parse Expr
    | 0, _ => fail
    | n + 1, names => do
      if ← accept .period then
        if ← accept .star then return .wildcard names.reverse
        else more n ((← ident) :: names)
      else if ← atSymbol .leftParen then callRest g lead names.reverse false
      else return .name names.reverse
  let introduces := word.value.startsWith "_"
  match ← peek? with
  | some (.symbol .leftParen) | some (.symbol .period) => more ((← ahead).length + 1) [word]
  | some (.text .plain _) | some (.text .hex _) =>
    if introduces then return .phrase [.text (word.value ++ " " ++ (← value).render)]
    else return .name [word]
  | _ => return .name [word]

/-- What a word starts. A construct that cannot be read may still be a column of that name. The
flag says whether a collation can follow. -/
def wordExpr (g : Nesting) (lead : Parse Expr) (t : Token) (word : Ident) :
    Parse (Expr × Bool) := do
  let start ← ahead
  match (wordConstruct g lead word (t.keyword?.getD "")) start with
  | .ok (some e, rest) => do
    set rest
    return (e, true)
  | .ok (none, _) => return (← nameOrCall g lead word, true)
  | .error failure =>
    if neverNames.contains (t.keyword?.getD "") then throw failure
    else match (nameOrCall g lead word) start with
      | .ok (e, rest) => do
        set rest
        return (e, false)
      | .error _ => throw failure

/-- What an opening parenthesis starts. -/
def parenExpr (g : Nesting) : Parse Expr := do
  let e ←
    if ← atQuery then pure (.subquery (← g.query))
    else match ← commaSeparated g.expr with
      | [e] => pure (.nested e)
      | es => pure (.phrase (.text "(" :: exprPieces es ++ [.text ")"]))
  expect .rightParen
  if ← accept .period then
    match ← next with
    | .word s quoted =>
      let key : Ident := ⟨s, if quoted then .double else .bare⟩
      return .phrase [.expr e, .text ("." ++ key.text)]
    | _ => fail
  else return e

def unaryExpr (g : Nesting) (op : UnaryOp) (precedence : Nat) : Parse Expr := do
  return .unary op (← g.exprAbove precedence)

/-- What an expression starts with. -/
def leadingExpr (g : Nesting) : Nat → Parse Expr
  | 0 => fail
  | n + 1 => do
    let lead := leadingExpr g n
    match ← optional (typedLiteral lead) with
    | some e => return e
    | none =>
      let start ← ahead
      let t ← next
      let (e, collates) ← match t with
        | .word s quoted => wordExpr g lead t ⟨s, if quoted then .double else .bare⟩
        | .symbol .leftBracket => do pure (← arrayRest g "", true)
        | .symbol .minus => do pure (← unaryExpr g .minus signPrecedence, true)
        | .symbol .plus => do pure (← unaryExpr g (.other "+") signPrecedence, true)
        | .symbol .doubleBang => do pure (← unaryExpr g (.other "!!") prefixPrecedence, true)
        | .symbol .squareRoot => do pure (← unaryExpr g (.other "|/") prefixPrecedence, true)
        | .symbol .cubeRoot => do pure (← unaryExpr g (.other "||/") prefixPrecedence, true)
        | .symbol .atSign => do pure (← unaryExpr g (.other "@") prefixPrecedence, true)
        | .symbol .tilde => do pure (← unaryExpr g (.other "~") prefixPrecedence, true)
        | .symbol .leftParen => do pure (← parenExpr g, true)
        | .symbol .leftBrace => do
          expectKeyword "FN"
          let name ← path
          let e ← callRest g lead name true
          expect .rightBrace
          pure (e, true)
        | _ => do
          set start
          pure (.value (← value), true)
      if collates then
        if ← keyword "COLLATE" then
          return .phrase [.expr e, .text (" COLLATE " ++ pathText (← path))]
        else return e
      else return e

/-! ### Operators -/

/-- The operator that the tokens start with, if it takes an expression on each side. -/
def binaryOperator : Parse (Option BinaryOp) := do
  match ← peek? with
  | some (.symbol s) =>
    match symbolOperator? s with
    | some op => do skip; return some op
    | none => return none
  | some (.operator spelling) => do skip; return some (.other spelling)
  | some t =>
    match t.keyword? with
    | some "AND" => do skip; return some .and
    | some "OR" => do skip; return some .or
    | some "XOR" => do skip; return some (.other "XOR")
    | some "OPERATOR" =>
      skip
      expect .leftParen
      let first := (← next).render
      let rest ← many do
        if ← accept .period then return some (← next).render else return none
      expect .rightParen
      return some (.other ("OPERATOR(" ++ ".".intercalate (first :: rest) ++ ")"))
    | _ => return none
  | none => return none

def comparesAll (op : BinaryOp) : Bool :=
  op == .gt || op == .lt || op == .gtEq || op == .ltEq || op == .eq || op == .notEq

/-- A binary operator and what stands to its right. -/
def binaryRest (g : Nesting) (left : Expr) (op : BinaryOp) (precedence : Nat) : Parse Expr := do
  match ← oneOf ["ANY", "ALL", "SOME"] with
  | some k =>
    let start ← ahead
    expect .leftParen
    let right ←
      if ← atQuery then do
        set start
        g.exprAbove precedence
      else do
        let e ← g.exprAbove precedence
        expect .rightParen
        pure e
    unless comparesAll op do fail
    let head := " " ++ op.text ++ " " ++ k
    match right with
    | .subquery q => return .phrase [.expr left, .text head, .expr (.subquery q)]
    | e => return .phrase [.expr left, .text (head ++ "("), .expr e, .text ")"]
  | none => return .binary left op (← g.exprAbove precedence)

def isRest (g : Nesting) (e : Expr) : Parse Expr := do
  if ← keyword "NULL" then return .isNull e false
  else if ← keywords ["NOT", "NULL"] then return .isNull e true
  else if ← keyword "TRUE" then return .isTruth e true false
  else if ← keywords ["NOT", "TRUE"] then return .isTruth e true true
  else if ← keyword "FALSE" then return .isTruth e false false
  else if ← keywords ["NOT", "FALSE"] then return .isTruth e false true
  else if ← keyword "UNKNOWN" then return .phrase [.expr e, .text " IS UNKNOWN"]
  else if ← keywords ["NOT", "UNKNOWN"] then return .phrase [.expr e, .text " IS NOT UNKNOWN"]
  else if ← keywords ["DISTINCT", "FROM"] then
    return .phrase [.expr e, .text " IS DISTINCT FROM ", .expr (← g.expr)]
  else if ← keywords ["NOT", "DISTINCT", "FROM"] then
    return .phrase [.expr e, .text " IS NOT DISTINCT FROM ", .expr (← g.expr)]
  else fail

def inRest (g : Nesting) (e : Expr) (negated : Bool) : Parse Expr := do
  if ← keyword "UNNEST" then
    let array ← inParens g.expr
    return .phrase [.expr e, .text (" " ++ notText negated ++ "IN UNNEST("), .expr array,
      .text ")"]
  expect .leftParen
  if ← atQuery then
    let q ← g.query
    expect .rightParen
    return .inQuery e q negated
  else
    let items ← commaSeparated g.expr
    expect .rightParen
    return .inList e items negated

def escapeText : Parse (Option String) := do
  if ← keyword "ESCAPE" then return some (← literalText) else return none

/-- A test of membership, of a range or of a pattern. RLIKE after REGEXP adds nothing. -/
def testRest (g : Nesting) (e : Expr) : Parse Expr := do
  let negated ← keyword "NOT"
  let regexp ← keyword "REGEXP"
  let rlike ← keyword "RLIKE"
  if regexp || rlike then
    let pattern ← g.exprAbove testPrecedence
    let word := if regexp then "REGEXP " else "RLIKE "
    return .phrase [.expr e, .text (" " ++ notText negated ++ word), .expr pattern]
  match ← oneOf testKeywords with
  | some "IN" => inRest g e negated
  | some "BETWEEN" =>
    let low ← g.exprAbove testPrecedence
    expectKeyword "AND"
    let high ← g.exprAbove testPrecedence
    return .between e low high negated
  | some "SIMILAR" =>
    expectKeyword "TO"
    let pattern ← g.exprAbove testPrecedence
    let escape ← escapeText
    return .phrase [.expr e, .text (" " ++ notText negated ++ "SIMILAR TO "), .expr pattern,
      .text (optionalText " ESCAPE " (escape.map fun c => "'" ++ c ++ "'"))]
  | some k =>
    let any ← keyword "ANY"
    let pattern ← g.exprAbove testPrecedence
    let escape ← escapeText
    return .like e pattern (k == "ILIKE") any negated escape
  | none => fail

/-- An index or a slice, after the opening bracket and up to the closing one. -/
def subscriptRest (g : Nesting) (e : Expr) : Parse Expr := do
  let close (pieces : List Piece) : Expr := .phrase (.expr e :: .text "[" :: pieces ++ [.text "]"])
  let lower ← if ← accept .colon then pure none else pure (some (← g.expr))
  let lowerPieces := match lower with
    | some l => [Piece.expr l]
    | none => []
  if ← accept .rightBracket then
    return close (lowerPieces ++ if lower.isSome then [] else [.text ":"])
  if lower.isSome then expect .colon
  if ← accept .rightBracket then return close (lowerPieces ++ [.text ":"])
  let upper ← g.expr
  if ← accept .rightBracket then return close (lowerPieces ++ [.text ":", .expr upper])
  expect .colon
  if ← accept .rightBracket then return close (lowerPieces ++ [.text ":", .expr upper])
  let stride ← g.expr
  expect .rightBracket
  return close (lowerPieces ++ [.text ":", .expr upper, .text ":", .expr stride])

/-- One operator after an expression, whose precedence is given. -/
def operatorRest (g : Nesting) (e : Expr) (precedence : Nat) : Parse Expr := do
  match ← binaryOperator with
  | some op => binaryRest g e op precedence
  | none =>
    let start ← ahead
    match ← next with
    | .symbol .doubleColon => return .cast .suffix e (← dataType) none
    | .symbol .bang => return .phrase [.expr e, .text "!"]
    | .symbol .leftBracket => subscriptRest g e
    | t =>
      match t.keyword? with
      | some "IS" => isRest g e
      | some "AT" =>
        expectKeywords ["TIME", "ZONE"]
        return .phrase [.expr e, .text " AT TIME ZONE ", .expr (← g.exprAbove precedence)]
      | _ =>
        set start
        testRest g e

/-- An expression whose operators bind more tightly than a given precedence. -/
def exprAbove (g : Nesting) (precedence : Nat) : Parse Expr := do
  let first ← leadingExpr g ((← ahead).length + 1)
  iterate (fun e => do
    let p := nextPrecedence (← ahead)
    if precedence < p then return some (← operatorRest g e p) else return none) first

end ReportSql.Sql.Grammar
