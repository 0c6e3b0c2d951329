import ReportSql.Calendar.Format
import ReportSql.Sql.Printer
import ReportSql.Sql.Placeholder
import ReportSql.Text.Casing
import ReportSql.Tree.Basic

/-!
The tree of a statement that was read. Expressions and sources that the tree does not model
become raw SQL in its canonical text; a clause that cannot be carried along that way is refused.
Names without quotes are folded to lower case.
-/

namespace ReportSql.Tree

open Sql (Ident Piece Argument)

/-- A construct that cannot be carried into a tree. -/
structure Unsupported where
  construct : String
  deriving DecidableEq, Repr

abbrev Converted := Except Unsupported

def refuse {α : Type} (construct : String) : Converted α := .error ⟨construct⟩

/-! ### Names, literals and operators -/

def foldedName (i : Ident) : String :=
  if i.quotation = .bare then Text.lower i.value else i.value

/-- The number that decimal digits denote, if it is below a bound. -/
def digitsBelow (bound : Nat) (s : String) : Option Nat :=
  if s.isEmpty || !s.all Char.isDigit then none
  else
    let n := s.toList.foldl (fun n c => 10 * n + (c.toNat - '0'.toNat)) 0
    if n < bound then some n else none

def ofValue (v : Sql.Value) : Expr :=
  match v with
  | .number digits _ =>
    match digitsBelow (UInt64.size / 2) digits with
    | some n => .literal (.int n)
    | none => .raw digits
  | .text .plain s =>
    match Sql.Placeholder.sentinelName? s with
    | some name => .param name
    | none => .literal (.text s)
  | .boolean b => .literal (.boolean b)
  | .null => .literal .null
  | v => .raw v.render

def ofBinaryOp : Sql.BinaryOp → Option BinaryOp
  | .plus => some .plus
  | .minus => some .minus
  | .times => some .times
  | .divide => some .divide
  | .modulo => some .modulo
  | .concat => some .concat
  | .gt => some .gt
  | .lt => some .lt
  | .gtEq => some .gtEq
  | .ltEq => some .ltEq
  | .eq => some .eq
  | .notEq => some .ne
  | .and => some .and
  | .or => some .or
  | .other _ => none

def likeOp (ignoresCase negated : Bool) : BinaryOp :=
  match ignoresCase, negated with
  | false, false => .like
  | false, true => .notLike
  | true, false => .ilike
  | true, true => .notIlike

/-- A date literal; the text of any other typed literal stays as it is. -/
def ofTyped (type : Sql.DataType) (value : String) : Option Expr :=
  if type.sort = .date then
    (Date.read? (Sql.escapeQuotes '\'' value)).map fun d => .literal (.date d)
  else none

/-- A row count of 64 bits. -/
def ofCount (e : Sql.Expr) : Converted UInt64 :=
  match e with
  | .value (.number digits _) =>
    match digitsBelow UInt64.size digits with
    | some n => .ok n.toUInt64
    | none => refuse ("row count " ++ digits)
  | e => refuse ("row count " ++ e.render)

def ofJoinOperator : Sql.JoinOperator → Option JoinKind
  | .inner => some .inner
  | .left => some .left
  | .right => some .right
  | .full => some .full
  | .cross => some .cross
  | .other _ => none

/-- Whether all there is to a call is its name and its arguments. -/
def isPlainCall (form : Sql.CallForm) (clauses within : List Piece) (filter : Option Sql.Expr)
    (nulls : Option String) (window : List Piece) : Bool :=
  (match form with | .list _ => true | _ => false)
    && clauses.isEmpty && within.isEmpty && filter.isNone && nulls.isNone && window.isEmpty

def RowRange.ofCounts (limit offset : Option UInt64) : Option RowRange :=
  if limit.isSome || offset.isSome then some ⟨limit, offset⟩ else none

/-- What a name of one or two parts refers to. -/
def tableRef? (name : List Ident) (label : Option String) : Option TableRef :=
  match name with
  | [table] => some ⟨none, foldedName table, label⟩
  | [schema, table] => some ⟨some (foldedName schema), foldedName table, label⟩
  | _ => none

def hasColumns (label : Option Sql.Alias) : Bool := label.any fun a => !a.columns.isEmpty

def aliasName (label : Option Sql.Alias) : Option String := label.map fun a => foldedName a.name

/-! ### Expressions and queries -/

mutual

def Expr.ofSyntax : Sql.Expr → Converted Expr
  | .name [column] => return .column none (foldedName column)
  | .name [table, column] => return .column (some (foldedName table)) (foldedName column)
  | .value v => return ofValue v
  | e@(.typed type value) => return (ofTyped type value).getD (.raw e.render)
  | e@(.binary left op right) =>
    match ofBinaryOp op with
    | some op => do
      let left ← Expr.ofSyntax left
      return .binary left op (← Expr.ofSyntax right)
    | none => return .raw e.render
  | .unary .not operand => return .unary .not (← Expr.ofSyntax operand)
  | .unary .minus operand => return .unary .minus (← Expr.ofSyntax operand)
  | .nested inner => return .paren (← Expr.ofSyntax inner)
  | .isNull operand negated => return .isNull (← Expr.ofSyntax operand) negated
  | .isTruth operand value negated => return .isTruth (← Expr.ofSyntax operand) value negated
  | .inList operand items negated => do
    let operand ← Expr.ofSyntax operand
    return .inList operand (← exprsOfSyntax items) negated
  | .inQuery operand query negated => do
    let operand ← Expr.ofSyntax operand
    return .inQuery operand (← Query.ofSyntax query) negated
  | .between operand low high negated => do
    let operand ← Expr.ofSyntax operand
    let low ← Expr.ofSyntax low
    return .between operand low (← Expr.ofSyntax high) negated
  | .like operand pattern ignoresCase _ negated none => do
    let operand ← Expr.ofSyntax operand
    return .binary operand (likeOp ignoresCase negated) (← Expr.ofSyntax pattern)
  | .cast .function operand type none => return .cast (← Expr.ofSyntax operand) type.text
  | .cast .suffix operand type none => return .cast (← Expr.ofSyntax operand) type.text
  | e@(.interval (.value (.text .plain text)) unit) =>
    return if unit.hasField then .raw e.render else .interval text
  | e@(.call name _ form arguments clauses within filter nulls window) =>
    if isPlainCall form clauses within filter nulls window then do
      let (plain, all) ← argumentsOfSyntax arguments
      return if all then .call (Sql.pathText name) plain (form == .list (some "DISTINCT"))
        else .raw e.render
    else return .raw e.render
  | .case operand branches otherwise => do
    let operand ← optionOfSyntax operand
    let branches ← branchesOfSyntax branches
    let otherwise ← optionOfSyntax otherwise
    return .case operand branches otherwise
  | .exists query negated => return .exists (← Query.ofSyntax query) negated
  | .subquery query => return .subquery (← Query.ofSyntax query)
  | e => return .raw e.render

def optionOfSyntax : Option Sql.Expr → Converted (Option Expr)
  | none => return none
  | some e => return some (← Expr.ofSyntax e)

def exprsOfSyntax : List Sql.Expr → Converted (List Expr)
  | [] => return []
  | e :: rest => do
    let e ← Expr.ofSyntax e
    return e :: (← exprsOfSyntax rest)

def branchesOfSyntax : List Sql.CaseBranch → Converted (List Branch)
  | [] => return []
  | ⟨condition, result⟩ :: rest => do
    let condition ← Expr.ofSyntax condition
    let result ← Expr.ofSyntax result
    return ⟨condition, result⟩ :: (← branchesOfSyntax rest)

/-- Arguments up to the first phrase, and whether there is none. -/
def argumentsOfSyntax : List Argument → Converted (List Expr × Bool)
  | [] => return ([], true)
  | .phrase _ :: _ => return ([], false)
  | .star :: rest => do
    let (rest, plain) ← argumentsOfSyntax rest
    return (.star none :: rest, plain)
  | .expr e :: rest => do
    let e ← Expr.ofSyntax e
    let (rest, plain) ← argumentsOfSyntax rest
    return (e :: rest, plain)

def Query.ofSyntax : Sql.Query → Converted Query
  | ⟨isRecursive, ctes, body, orderBy, limit, offset, _, fetch, locks, _⟩ => do
    if fetch.isSome then refuse "FETCH"
    if !locks.isEmpty then refuse "locking clause"
    let out ← bodyOfSyntax body
    if (!orderBy.isEmpty || limit.isSome || offset.isSome)
        && (!out.orderBy.isEmpty || out.rows.isSome) then
      refuse "ORDER BY or LIMIT on a parenthesized query"
    let ctes ← ctesOfSyntax isRecursive ctes
    let order ← orderOfSyntax orderBy
    let limit ← match limit with
      | some e => pure (some (← ofCount e))
      | none => pure none
    let offset ← match offset with
      | some e => pure (some (← ofCount e))
      | none => pure none
    let rows := RowRange.ofCounts limit offset
    return { out with
      ctes := ctes ++ out.ctes
      orderBy := if orderBy.isEmpty then out.orderBy else order
      rows := if rows.isSome then rows else out.rows }

def bodyOfSyntax : Sql.Body → Converted Query
  | .select select => selectOfSyntax select
  | .query query => Query.ofSyntax query
  | .setOperation left op quantifier right => do
    let all ← match quantifier with
      | .all => pure true
      | .unmarked | .distinct => pure false
      | q => refuse q.text
    let left ← bodyOfSyntax left
    let right ← bodyOfSyntax right
    return { Query.empty with setOperation := some ⟨left, op, all, right⟩ }
  | body => refuse body.render

def selectOfSyntax : Sql.Select → Converted Query
  | ⟨distinct, _, top, items, into, sources, _, condition, groupAll, groupBy, _, having, windows,
      qualify, _⟩ => do
    if !top.isEmpty then refuse "TOP"
    if into.isSome then refuse "SELECT INTO"
    if !windows.isEmpty then refuse "WINDOW clause"
    if qualify.isSome then refuse "QUALIFY"
    if distinct = .on then refuse "DISTINCT ON"
    let items ← itemsOfSyntax items
    let sources ← sourcesOfSyntax sources
    if groupAll then refuse "GROUP BY ALL"
    let groupBy ← exprsOfSyntax groupBy
    let condition ← optionOfSyntax condition
    let having ← optionOfSyntax having
    return { Query.empty with
      items, sources, condition, groupBy, having, distinct := distinct == .rows }

def itemsOfSyntax : List Sql.SelectItem → Converted (List SelectItem)
  | [] => return []
  | .expr e label :: rest => do
    let e ← Expr.ofSyntax e
    return ⟨e, label.map foldedName⟩ :: (← itemsOfSyntax rest)
  | .wildcard path :: rest => do
    let item : SelectItem := ⟨.raw (Sql.SelectItem.wildcard path).render, none⟩
    return item :: (← itemsOfSyntax rest)

def ctesOfSyntax (isRecursive : Bool) : List Sql.Cte → Converted (List Cte)
  | [] => return []
  | ⟨label, _, query, _⟩ :: rest => do
    if !label.columns.isEmpty then refuse ("column list on CTE " ++ label.name.text)
    let query ← Query.ofSyntax query
    return ⟨foldedName label.name, none, query, isRecursive⟩ :: (← ctesOfSyntax isRecursive rest)

def sourcesOfSyntax : List Sql.Source → Converted (List FromItem)
  | [] => return []
  | ⟨table, joins⟩ :: rest => do
    let source ← tableOfSyntax table
    let joins ← joinsOfSyntax joins
    return ⟨source, joins⟩ :: (← sourcesOfSyntax rest)

def tableOfSyntax : Sql.Table → Converted Source
  | t@(.named name isCall _ _ label _) =>
    if isCall || hasColumns label then return .raw t.render
    else match tableRef? name (aliasName label) with
      | some table => return .named table
      | none => return .raw t.render
  | t@(.derived isLateral query label) =>
    if isLateral || hasColumns label then return .raw t.render
    else return .derived (← Query.ofSyntax query) (aliasName label)
  | t => return .raw t.render

def joinsOfSyntax : List Sql.Join → Converted (List Join)
  | [] => return []
  | j@⟨_, operator, table, _, form, condition⟩ :: rest => do
    let kind ← match ofJoinOperator operator with
      | some kind => pure kind
      | none => refuse j.render
    if form != .unmarked && form != .on then refuse j.render
    let condition ← optionOfSyntax condition
    let source ← tableOfSyntax table
    return ⟨kind, source, condition⟩ :: (← joinsOfSyntax rest)

def orderOfSyntax : List Sql.OrderItem → Converted (List OrderItem)
  | [] => return []
  | ⟨expr, ascending, nullsFirst⟩ :: rest => do
    let expr ← Expr.ofSyntax expr
    let direction := ascending.map fun a => if a then Direction.ascending else .descending
    let nulls := nullsFirst.map fun f => if f then NullsPlace.first else .last
    return ⟨expr, direction, nulls⟩ :: (← orderOfSyntax rest)

end

end ReportSql.Tree
