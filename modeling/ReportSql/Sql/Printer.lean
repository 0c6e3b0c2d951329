import ReportSql.Sql.Syntax

/-!
The canonical text of syntax: keywords in upper case, operators between blanks, names and
literals as they were written. Expressions that a report does not model reach the reader as this
text.
-/

namespace ReportSql.Sql

/-! ### Names and literals -/

/-- Writes every quote twice. A pair of quotes stays a pair, and a quote after a backslash stays
as it is, since either may be an escape already. -/
def doubleQuotes (quote : Char) (previous : Char) : List Char → List Char
  | [] => []
  | c :: rest =>
    if c == quote then
      if previous == '\\' then c :: doubleQuotes quote previous rest
      else match rest with
        | d :: after =>
          if d == quote then c :: c :: doubleQuotes quote c after
          else c :: c :: doubleQuotes quote c (d :: after)
        | [] => [c, c]
    else c :: doubleQuotes quote c rest

def escapeQuotes (quote : Char) (s : String) : String :=
  String.ofList (doubleQuotes quote (Char.ofNat 0) s.toList)

def Ident.text (i : Ident) : String :=
  match i.quotation with
  | .bare => i.value
  | .double => "\"" ++ escapeQuotes '"' i.value ++ "\""
  | .single => "'" ++ escapeQuotes '\'' i.value ++ "'"

def pathText (path : List Ident) : String := ".".intercalate (path.map Ident.text)

def commaText (texts : List String) : String := ", ".intercalate texts

/-- The body of an escape literal. -/
def escapeText (s : String) : String :=
  String.join (s.toList.map fun c =>
    match c with
    | '\'' => "\\'"
    | '\\' => "\\\\"
    | '\n' => "\\n"
    | '\t' => "\\t"
    | '\r' => "\\r"
    | c => c.toString)

/-- A number in upper-case hexadecimal digits, with zeros in front up to a width. -/
def hexText (width n : Nat) : String :=
  let digits := (Nat.toDigits 16 n).map Char.toUpper
  String.ofList (List.replicate (width - digits.length) '0' ++ digits)

/-- The body of a Unicode literal. -/
def unicodeText (s : String) : String :=
  String.join (s.toList.map fun c =>
    if c == '\'' then "''"
    else if c == '\\' then "\\\\"
    else if c.toNat < 0x80 then c.toString
    else if c.toNat ≤ 0xFFFF then "\\" ++ hexText 4 c.toNat
    else "\\+" ++ hexText 6 c.toNat)

def quotedText (form : TextForm) (s : String) : String :=
  match form with
  | .plain => "'" ++ escapeQuotes '\'' s ++ "'"
  | .national => "N'" ++ s ++ "'"
  | .escaped => "E'" ++ escapeText s ++ "'"
  | .unicode => "U&'" ++ unicodeText s ++ "'"
  | .bits => "B'" ++ s ++ "'"
  | .doubleBits => "B\"" ++ s ++ "\""
  | .hex => "X'" ++ s ++ "'"
  | .dollar tag =>
    let mark := "$" ++ tag.getD "" ++ "$"
    mark ++ s ++ mark

def Value.render : Value → String
  | .number digits long => digits ++ if long then "L" else ""
  | .text form value => quotedText form value
  | .boolean value => if value then "true" else "false"
  | .null => "NULL"
  | .placeholder name => name
  | .quotedName name => "\"" ++ escapeQuotes '"' name ++ "\""

/-- The text of a token inside an operator name or a list of type modifiers. -/
def Token.render : Token → String
  | .word name quoted => if quoted then "\"" ++ name ++ "\"" else name
  | .number digits long => digits ++ if long then "L" else ""
  | .text form value =>
    match form with
    | .plain => "'" ++ value ++ "'"
    | .escaped => "E'" ++ value ++ "'"
    | .unicode => "U&'" ++ value ++ "'"
    | form => quotedText form value
  | .placeholder name => name
  | .symbol s => s.text
  | .operator spelling => spelling
  | .blank => " "
  | .comment => ""
  | .stray c => c.toString

/-! ### Fixed parts -/

def Alias.text (a : Alias) : String :=
  a.name.text ++ if a.columns.isEmpty then "" else " (" ++ commaText a.columns ++ ")"

/-- A part that is there or not, with its lead. -/
def optionalText (lead : String) : Option String → String
  | none => ""
  | some s => lead ++ s

def aliasText (label : Option Alias) : String := optionalText " AS " (label.map Alias.text)

def notText (negated : Bool) : String := if negated then "NOT " else ""

def OffsetUnit.text : OffsetUnit → String
  | .unmarked => ""
  | .row => " ROW"
  | .rows => " ROWS"

def JoinForm.lead : JoinForm → String
  | .natural => "NATURAL "
  | _ => ""

def UnaryOp.text : UnaryOp → String
  | .not => "NOT "
  | .minus => "-"
  | .other text => text

/-! ### Expressions, queries and tables -/

mutual

def Expr.render : Expr → String
  | .name path => pathText path
  | .wildcard path => pathText path ++ ".*"
  | .value v => v.render
  | .typed type value => type.text ++ " '" ++ escapeQuotes '\'' value ++ "'"
  | .binary left op right => left.render ++ " " ++ op.text ++ " " ++ right.render
  | .unary op operand => op.text ++ operand.render
  | .nested inner => "(" ++ inner.render ++ ")"
  | .isNull operand negated => operand.render ++ " IS " ++ notText negated ++ "NULL"
  | .isTruth operand value negated =>
    operand.render ++ " IS " ++ notText negated ++ (if value then "TRUE" else "FALSE")
  | .inList operand items negated =>
    operand.render ++ " " ++ notText negated ++ "IN (" ++ commaText (exprTexts items) ++ ")"
  | .inQuery operand query negated =>
    operand.render ++ " " ++ notText negated ++ "IN (" ++ query.render ++ ")"
  | .between operand low high negated =>
    operand.render ++ " " ++ notText negated ++ "BETWEEN " ++ low.render ++ " AND " ++ high.render
  | .like operand pattern ignoresCase any negated escape =>
    operand.render ++ " " ++ notText negated ++ (if ignoresCase then "ILIKE " else "LIKE ")
      ++ (if any then "ANY " else "") ++ pattern.render
      ++ optionalText " ESCAPE " (escape.map fun e => "'" ++ e ++ "'")
  | .cast form operand type format =>
    match form with
    | .suffix => operand.render ++ "::" ++ type.text
    | .function => "CAST(" ++ operand.render ++ " AS " ++ type.text
        ++ optionalText " FORMAT " format ++ ")"
    | .other keyword => keyword ++ "(" ++ operand.render ++ " AS " ++ type.text
        ++ optionalText " FORMAT " format ++ ")"
  | .interval value unit => "INTERVAL " ++ value.render ++ unit.text
  | .trim side characters operand =>
    "TRIM(" ++ (match side with | some s => s ++ " " | none => "")
      ++ (match characters with | some e => e.render ++ " FROM " | none => "")
      ++ operand.render ++ ")"
  | .call name inBraces form arguments clauses within filter nulls window =>
    let items := match form with
      | .bare => ""
      | .subquery => "(" ++ piecesText clauses ++ ")"
      | .list quantifier =>
        "(" ++ (match quantifier with | some q => q ++ " " | none => "")
          ++ commaText (argumentTexts arguments)
          ++ (if clauses.isEmpty || arguments.isEmpty then "" else " ") ++ piecesText clauses ++ ")"
    (if inBraces then "\x7bfn " else "") ++ pathText name ++ items
      ++ piecesText within
      ++ (match filter with | some e => " FILTER (WHERE " ++ e.render ++ ")" | none => "")
      ++ optionalText " " nulls ++ piecesText window ++ (if inBraces then "\x7d" else "")
  | .case operand branches otherwise =>
    "CASE" ++ (match operand with | some e => " " ++ e.render | none => "")
      ++ branchesText branches
      ++ (match otherwise with | some e => " ELSE " ++ e.render | none => "") ++ " END"
  | .exists query negated => notText negated ++ "EXISTS (" ++ query.render ++ ")"
  | .subquery query => "(" ++ query.render ++ ")"
  | .phrase pieces => piecesText pieces

def exprTexts : List Expr → List String
  | [] => []
  | e :: rest => e.render :: exprTexts rest

def branchesText : List CaseBranch → String
  | [] => ""
  | ⟨condition, result⟩ :: rest =>
    " WHEN " ++ condition.render ++ " THEN " ++ result.render ++ branchesText rest

def Piece.render : Piece → String
  | .text s => s
  | .expr e => e.render
  | .query q => q.render
  | .table t => t.render

def piecesText : List Piece → String
  | [] => ""
  | p :: rest => p.render ++ piecesText rest

def Argument.render : Argument → String
  | .expr e => e.render
  | .star => "*"
  | .phrase pieces => piecesText pieces

def argumentTexts : List Argument → List String
  | [] => []
  | a :: rest => a.render :: argumentTexts rest

def Query.render : Query → String
  | ⟨isRecursive, ctes, body, orderBy, limit, offset, offsetUnit, fetch, locks, output⟩ =>
    (if ctes.isEmpty then ""
      else "WITH " ++ (if isRecursive then "RECURSIVE " else "")
        ++ commaText (cteTexts ctes) ++ " ")
    ++ body.render
    ++ (if orderBy.isEmpty then "" else " ORDER BY " ++ commaText (orderTexts orderBy))
    ++ (match limit with | some e => " LIMIT " ++ e.render | none => "")
    ++ (match offset with | some e => " OFFSET " ++ e.render ++ offsetUnit.text | none => "")
    ++ optionalText " " fetch
    ++ String.join (locks.map (" " ++ ·))
    ++ optionalText " " output

def Cte.render : Cte → String
  | ⟨label, materialized, query, source⟩ =>
    label.text ++ " AS " ++ (match materialized with
      | some true => "MATERIALIZED "
      | some false => "NOT MATERIALIZED "
      | none => "")
    ++ "(" ++ query.render ++ ")" ++ optionalText " FROM " (source.map Ident.text)

def cteTexts : List Cte → List String
  | [] => []
  | c :: rest => c.render :: cteTexts rest

def OrderItem.render : OrderItem → String
  | ⟨expr, ascending, nullsFirst⟩ =>
    expr.render
    ++ (match ascending with | some true => " ASC" | some false => " DESC" | none => "")
    ++ (match nullsFirst with
      | some true => " NULLS FIRST"
      | some false => " NULLS LAST"
      | none => "")

def orderTexts : List OrderItem → List String
  | [] => []
  | o :: rest => o.render :: orderTexts rest

def Body.render : Body → String
  | .select s => s.render
  | .query q => "(" ++ q.render ++ ")"
  | .setOperation left op quantifier right =>
    left.render ++ " " ++ op.text ++ (if quantifier = .unmarked then "" else " " ++ quantifier.text)
      ++ " " ++ right.render
  | .values pieces => piecesText pieces
  | .table text => text
  | .change _ text => text

def Select.render : Select → String
  | ⟨distinct, distinctKeys, top, items, into, sources, views, condition, groupAll, groupBy,
      sorting, having, windows, qualify, windowsFirst⟩ =>
    let window := if windows.isEmpty then "" else " WINDOW " ++ piecesText windows
    let qualified := match qualify with
      | some e => " QUALIFY " ++ e.render
      | none => ""
    "SELECT"
    ++ (match distinct with
      | .unmarked => ""
      | .rows => " DISTINCT"
      | .on => " DISTINCT ON (" ++ commaText (exprTexts distinctKeys) ++ ")")
    ++ piecesText top
    ++ " " ++ commaText (selectItemTexts items)
    ++ optionalText " " into
    ++ (if sources.isEmpty then "" else " FROM " ++ commaText (sourceTexts sources))
    ++ piecesText views
    ++ (match condition with | some e => " WHERE " ++ e.render | none => "")
    ++ (if groupAll then " GROUP BY ALL"
      else if groupBy.isEmpty then "" else " GROUP BY " ++ commaText (exprTexts groupBy))
    ++ piecesText sorting
    ++ (match having with | some e => " HAVING " ++ e.render | none => "")
    ++ (if windowsFirst then window ++ qualified else qualified ++ window)

def SelectItem.render : SelectItem → String
  | .expr e label => e.render ++ optionalText " AS " (label.map Ident.text)
  | .wildcard [] => "*"
  | .wildcard path => pathText path ++ ".*"

def selectItemTexts : List SelectItem → List String
  | [] => []
  | i :: rest => i.render :: selectItemTexts rest

def Source.render : Source → String
  | ⟨table, joins⟩ => table.render ++ joinsText joins

def sourceTexts : List Source → List String
  | [] => []
  | s :: rest => s.render :: sourceTexts rest

/-- A join, which starts with a blank. -/
def Join.render : Join → String
  | ⟨isGlobal, operator, table, matching, form, condition⟩ =>
    (if isGlobal then " GLOBAL" else "") ++ " " ++ form.lead ++ operator.text ++ " " ++ table.render
    ++ piecesText matching
    ++ (match form, condition with
      | .on, some e => " ON " ++ e.render
      | .using columns, _ => " USING(" ++ commaText (columns.map Ident.text) ++ ")"
      | _, _ => "")

def joinsText : List Join → String
  | [] => ""
  | j :: rest => j.render ++ joinsText rest

def Table.render : Table → String
  | .named name isCall arguments ordinality label hints =>
    pathText name
    ++ (if isCall then "(" ++ commaText (argumentTexts arguments) ++ ")" else "")
    ++ (if ordinality then " WITH ORDINALITY" else "")
    ++ aliasText label
    ++ (if hints.isEmpty then "" else " WITH (" ++ commaText (exprTexts hints) ++ ")")
  | .derived isLateral query label =>
    (if isLateral then "LATERAL " else "") ++ "(" ++ query.render ++ ")" ++ aliasText label
  | .function name arguments label =>
    "LATERAL " ++ pathText name ++ "(" ++ commaText (argumentTexts arguments) ++ ")"
    ++ aliasText label
  | .joined source label => "(" ++ source.render ++ ")" ++ aliasText label
  | .phrase pieces => piecesText pieces

end

end ReportSql.Sql
