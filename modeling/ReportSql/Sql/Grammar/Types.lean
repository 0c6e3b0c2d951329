import ReportSql.Sql.Parser
import ReportSql.Sql.Printer

/-!
Names of data types. A type is read into its canonical spelling; a name that is no built-in type
is a custom one and keeps the spelling it has.
-/

namespace ReportSql.Sql.Grammar

open Parse

/-- A length in parentheses, if one follows. -/
def optionalPrecision : Parse String := do
  match ← optionalInParens natural with
  | some n => return s!"({n})"
  | none => return ""

/-- A precision, or a precision and a scale, if they follow. -/
def optionalScale : Parse String := do
  let scale := do
    let p ← natural
    if ← accept .comma then
      let q ← natural
      return s!"({p},{q})"
    else return s!"({p})"
  return (← optionalInParens scale).getD ""

/-- A length in characters or octets, if one follows. -/
def optionalLength : Parse String := do
  let length := do
    if ← keyword "MAX" then return "(MAX)"
    else
      let n ← natural
      if ← keyword "CHARACTERS" then return s!"({n} CHARACTERS)"
      else if ← keyword "OCTETS" then return s!"({n} OCTETS)"
      else return s!"({n})"
  return (← optionalInParens length).getD ""

def optionalTimeZone : Parse String := do
  if ← keyword "WITH" then
    expectKeywords ["TIME", "ZONE"]
    return " WITH TIME ZONE"
  else if ← keyword "WITHOUT" then
    expectKeywords ["TIME", "ZONE"]
    return " WITHOUT TIME ZONE"
  else return ""

/-- Types whose name is all there is, with their spelling. -/
def plainTypes : List (String × String) :=
  [("BOOLEAN", "BOOLEAN"), ("BOOL", "BOOL"), ("REAL", "REAL"), ("FLOAT4", "FLOAT4"),
   ("FLOAT32", "Float32"), ("FLOAT64", "FLOAT64"), ("FLOAT8", "FLOAT8"), ("UUID", "UUID"),
   ("DATE32", "Date32"), ("JSON", "JSON"), ("JSONB", "JSONB"), ("REGCLASS", "REGCLASS"),
   ("TEXT", "TEXT"), ("TINYTEXT", "TINYTEXT"), ("MEDIUMTEXT", "MEDIUMTEXT"),
   ("LONGTEXT", "LONGTEXT"), ("TINYBLOB", "TINYBLOB"), ("MEDIUMBLOB", "MEDIUMBLOB"),
   ("LONGBLOB", "LONGBLOB"), ("BYTEA", "BYTEA"), ("INT16", "Int16"), ("INT32", "Int32"),
   ("INT64", "INT64"), ("INT128", "Int128"), ("INT256", "Int256"), ("UINT8", "UInt8"),
   ("UINT16", "UInt16"), ("UINT32", "UInt32"), ("UINT64", "UInt64"), ("UINT128", "UInt128"),
   ("UINT256", "UInt256"), ("TRIGGER", "TRIGGER")]

/-- Integer types, which may have a width and no sign. -/
def integerTypes : List String :=
  ["TINYINT", "INT2", "SMALLINT", "MEDIUMINT", "INT", "INT4", "INT8", "INTEGER", "BIGINT"]

/-- Types with an optional length. -/
def lengthTypes : List String :=
  ["FLOAT", "CLOB", "BINARY", "VARBINARY", "BLOB", "BYTES", "DATETIME", "STRING"]

/-- Types with an optional precision and scale. -/
def scaleTypes : List String := ["NUMERIC", "DECIMAL", "DEC", "BIGNUMERIC", "BIGDECIMAL"]

/-- The modifiers of a custom type, up to the closing parenthesis. -/
def modifiersWithin : Nat → Parse (List String)
  | 0 => fail
  | n + 1 => do
    match ← next with
    | .symbol .comma => modifiersWithin n
    | .symbol .rightParen => return []
    | .word s quoted => return (Token.word s quoted).render :: (← modifiersWithin n)
    | .number s _ => return s :: (← modifiersWithin n)
    | .text .plain s => return s :: (← modifiersWithin n)
    | _ => fail

def modifiers : Parse (List String) := do modifiersWithin ((← ahead).length + 1)

/-- A character type, by its keyword. -/
def characterType (name : String) : Parse String := do
  if ← keyword "VARYING" then return name ++ " VARYING" ++ (← optionalLength)
  else if ← keywords ["LARGE", "OBJECT"] then
    return name ++ " LARGE OBJECT" ++ (← optionalPrecision)
  else return name ++ (← optionalLength)

/-- Texts in parentheses, as in a set. -/
def textList : Parse (List String) :=
  inParens (commaSeparated do
    match ← next with
    | .text .plain s => return "'" ++ escapeQuotes '\'' s ++ "'"
    | _ => fail)

def sign : Parse String := do
  if ← accept .plus then return "+" else if ← accept .minus then return "-" else return ""

/-- A number or the placeholder of one, which may have a sign. -/
def signedNumber : Parse String := do return (← sign) ++ (← numberValue).render

/-- The members of an enumeration, which may have numbers. -/
def enumMembers : Parse (List String) :=
  inParens (commaSeparated do
    let name := "'" ++ escapeQuotes '\'' (← literalText) ++ "'"
    if ← accept .eq then return name ++ " = " ++ (← signedNumber) else return name)

/-- A type that is not an array of another one, by its first keyword. -/
def keywordType (k : String) : Parse (Option DataType) := do
  let builtin (text : String) : Parse (Option DataType) := return some ⟨text, .builtin⟩
  match plainTypes.lookup k with
  | some text => builtin text
  | none =>
    if integerTypes.contains k then
      let width ← optionalPrecision
      builtin (k ++ width ++ if ← keyword "UNSIGNED" then " UNSIGNED" else "")
    else if lengthTypes.contains k then builtin (k ++ (← optionalPrecision))
    else if scaleTypes.contains k then builtin (k ++ (← optionalScale))
    else match k with
      | "DATE" => return some ⟨"DATE", .date⟩
      | "INTERVAL" => return some ⟨"INTERVAL", .interval⟩
      | "DOUBLE" => builtin (if ← keyword "PRECISION" then "DOUBLE PRECISION" else "DOUBLE")
      | "VARCHAR" | "NVARCHAR" => builtin (k ++ (← optionalLength))
      | "CHARACTER" | "CHAR" => builtin (← characterType k)
      | "BIT" =>
        if ← keyword "VARYING" then builtin ("BIT VARYING" ++ (← optionalPrecision))
        else builtin ("BIT" ++ (← optionalPrecision))
      | "TIMESTAMP" | "TIME" =>
        let precision ← optionalPrecision
        builtin (k ++ precision ++ (← optionalTimeZone))
      | "TIMESTAMPTZ" | "TIMETZ" => builtin (k ++ (← optionalPrecision))
      | "DATETIME64" =>
        expect .leftParen
        let precision ← natural
        let zone ← if ← accept .comma then pure (", '" ++ (← literalText) ++ "'") else pure ""
        expect .rightParen
        builtin s!"DateTime64({precision}{zone})"
      | "FIXEDSTRING" =>
        let size ← inParens natural
        builtin s!"FixedString({size})"
      | "ENUM" | "ENUM8" | "ENUM16" => builtin (k ++ "(" ++ commaText (← enumMembers) ++ ")")
      | "SET" => builtin ("SET(" ++ commaText (← textList) ++ ")")
      | _ => return none

/-- The square brackets that make a type an array of it. -/
def arrayBounds (type : DataType) : Parse DataType :=
  iterate (fun type => do
    if ← accept .leftBracket then
      let size := (← optional natural).map toString |>.getD ""
      expect .rightBracket
      return some ⟨type.text ++ "[" ++ size ++ "]", .builtin⟩
    else return none) type

/-- Whether the end of an array type, which its element may have closed, also closes the array type
around it. -/
def closesOuter (closed : Bool) : Parse Bool := do
  if closed then return false
  else if ← accept .gt then return false
  else if ← accept .shiftRight then return true
  else fail

/-- A type, and whether it has also closed the array type around it. -/
def dataTypeWithin : Nat → Parse (DataType × Bool)
  | 0 => fail
  | n + 1 => do
    let tokens ← ahead
    let t ← next
    match t with
    | .word _ _ =>
      if t.isKeyword "ARRAY" then
        expect .lt
        let (inner, closed) ← dataTypeWithin n
        let outer ← closesOuter closed
        return (← arrayBounds ⟨"ARRAY<" ++ inner.text ++ ">", .builtin⟩, outer)
      else
        match ← keywordType (t.keyword?.getD "") with
        | some type => return (← arrayBounds type, false)
        | none =>
          set tokens
          let name := pathText (← path)
          let type : DataType ←
            if ← accept .leftParen then
              let found ← modifiers
              pure ⟨if found.isEmpty then name
                else name ++ "(" ++ commaText found ++ ")", .custom⟩
            else pure ⟨name, .custom⟩
          return (← arrayBounds type, false)
    | _ => fail

def dataType : Parse DataType := do
  match ← dataTypeWithin ((← ahead).length + 1) with
  | (type, false) => return type
  | (_, true) => fail

end ReportSql.Sql.Grammar
