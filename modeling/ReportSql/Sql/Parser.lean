import ReportSql.Sql.Keyword
import ReportSql.Sql.Syntax

/-!
Parsers over the tokens of a statement. A parser takes the tokens that are left and returns a
result with the tokens after it. Trying one alternative after another rewinds on failure; only
the failure of a statement that is nested too deeply is final.
-/

namespace ReportSql.Sql

inductive Failure where
  | unexpected
  | tooDeep
  deriving DecidableEq, Repr

abbrev Parse := StateT (List Token) (Except Failure)

namespace Parse

def fail {α : Type} : Parse α := throw .unexpected

def peek? : Parse (Option Token) := return (← get).head?

/-- The tokens that are left. -/
def ahead : Parse (List Token) := get

def skip : Parse Unit := modify List.tail

def next : Parse Token := fun tokens =>
  match tokens with
  | [] => .error .unexpected
  | t :: rest => .ok (t, rest)

/-- Whether the next token is a symbol, which is then passed. -/
def accept (s : Symbol) : Parse Bool := fun tokens =>
  match tokens with
  | t :: rest => if t = .symbol s then .ok (true, rest) else .ok (false, t :: rest)
  | [] => .ok (false, [])

def expect (s : Symbol) : Parse Unit := do
  unless ← accept s do fail

/-- The tokens after a sequence of keywords, if they start with it. -/
def afterKeywords? : List String → List Token → Option (List Token)
  | [], tokens => some tokens
  | _ :: _, [] => none
  | k :: ks, t :: rest => if t.isKeyword k then afterKeywords? ks rest else none

/-- Whether a sequence of keywords follows, which is then passed as a whole. -/
def keywords (ks : List String) : Parse Bool := fun tokens =>
  match afterKeywords? ks tokens with
  | some rest => .ok (true, rest)
  | none => .ok (false, tokens)

def keyword (k : String) : Parse Bool := keywords [k]

def expectKeywords (ks : List String) : Parse Unit := do
  unless ← keywords ks do fail

def expectKeyword (k : String) : Parse Unit := expectKeywords [k]

/-- The keyword that follows, if it is one of some, which is then passed. -/
def oneOf (ks : List String) : Parse (Option String) := fun tokens =>
  match tokens with
  | t :: rest =>
    match t.keyword? with
    | some k => if ks.contains k then .ok (some k, rest) else .ok (none, t :: rest)
    | none => .ok (none, t :: rest)
  | [] => .ok (none, [])

def expectOneOf (ks : List String) : Parse String := do
  match ← oneOf ks with
  | some k => return k
  | none => fail

def atKeyword (k : String) : Parse Bool := return (← get).head?.any (·.isKeyword k)

def atSymbol (s : Symbol) : Parse Bool := return (← get).head? == some (.symbol s)

/-- Whether a keyword and an opening parenthesis follow, which are then passed together. -/
def opening (k : String) : Parse Bool := fun tokens =>
  match tokens with
  | t :: .symbol .leftParen :: rest =>
    if t.isKeyword k then .ok (true, rest) else .ok (false, tokens)
  | _ => .ok (false, tokens)

/-- Whether a query follows as it does in an expression. -/
def atQuery : Parse Bool := return (← atKeyword "SELECT") || (← atKeyword "WITH")

/-- The result of a parser, or nothing, with no token passed, where it fails. -/
def optional {α : Type} (p : Parse α) : Parse (Option α) := fun tokens =>
  match p tokens with
  | .ok (a, rest) => .ok (some a, rest)
  | .error .tooDeep => .error .tooDeep
  | .error .unexpected => .ok (none, tokens)

/-- A parser, unless it fails; then another one from the same place. -/
def orElse {α : Type} (p q : Parse α) : Parse α := do
  match ← optional p with
  | some a => return a
  | none => q

/-- Items between commas, at most a given number of them. -/
def commaSeparatedWithin {α : Type} (p : Parse α) : Nat → Parse (List α)
  | 0 => fail
  | n + 1 => do
    let a ← p
    if ← accept .comma then return a :: (← commaSeparatedWithin p n) else return [a]

/-- One or more items between commas. -/
def commaSeparated {α : Type} (p : Parse α) : Parse (List α) := fun tokens =>
  commaSeparatedWithin p (tokens.length + 1) tokens

/-- A result between parentheses. -/
def inParens {α : Type} (p : Parse α) : Parse α := do
  expect .leftParen
  let a ← p
  expect .rightParen
  return a

/-- A result between parentheses, if an opening one follows. -/
def optionalInParens {α : Type} (p : Parse α) : Parse (Option α) := do
  if ← accept .leftParen then
    let a ← p
    expect .rightParen
    return some a
  else return none

/-- Repeats a step for as long as it goes on; every step that does passes a token. -/
def iterateWithin {α : Type} (step : α → Parse (Option α)) : Nat → α → Parse α
  | 0, _ => fail
  | n + 1, a => do
    match ← step a with
    | some b => iterateWithin step n b
    | none => return a

def iterate {α : Type} (step : α → Parse (Option α)) (a : α) : Parse α := fun tokens =>
  iterateWithin step (tokens.length + 1) a tokens

/-- Results of a parser until it gives none. -/
def many {α : Type} (p : Parse (Option α)) : Parse (List α) := do
  let items ← iterate (fun found => do
    match ← p with
    | some a => return some (a :: found)
    | none => return none) []
  return items.reverse

/-! ### Names and plain literals -/

def ident : Parse Ident := do
  match ← next with
  | .word s quoted => return ⟨s, if quoted then .double else .bare⟩
  | .text .plain s => return ⟨s, .single⟩
  | _ => fail

/-- Names between periods. -/
def path : Parse (List Ident) := do
  let first ← ident
  let rest ← many do
    if ← accept .period then return some (← ident) else return none
  return first :: rest

/-- Names between commas and in parentheses. -/
def columnList : Parse (List Ident) := inParens (commaSeparated ident)

/-- A natural number below `2 ^ 64`. -/
def natural : Parse Nat := do
  match ← next with
  | .number s _ =>
    match s.toNat? with
    | some n => if s.all Char.isDigit && n < UInt64.size then return n else fail
    | none => fail
  | _ => fail

/-- A literal text; a plain word stands for itself. -/
def literalText : Parse String := do
  let t ← next
  match t with
  | .text .plain s | .text .escaped s | .text .unicode s => return s
  | .word s _ => if t.isPlainWord then return s else fail
  | _ => fail

def value : Parse Value := do
  let t ← next
  match t with
  | .number s long => return .number s long
  | .text form s => return .text form s
  | .placeholder s => return .placeholder s
  | .word name true => return .quotedName name
  | .word _ false =>
    match t.keyword? with
    | some "TRUE" => return .boolean true
    | some "FALSE" => return .boolean false
    | some "NULL" => return .null
    | _ => fail
  | .symbol s =>
    if s = .colon || s = .atSign then
      match ← next with
      | .word name _ => return .placeholder (s.text ++ name)
      | .number name false => return .placeholder (s.text ++ name)
      | _ => fail
    else fail
  | _ => fail

/-- A number or the placeholder of one. -/
def numberValue : Parse Value := do
  match ← value with
  | .number digits long => return .number digits long
  | .placeholder name => return .placeholder name
  | _ => fail

/-- An alias; without AS it is none of some keywords. -/
def optionalAlias (ends : List String) : Parse (Option Ident) := do
  if ← keyword "AS" then return some (← ident)
  else
    match ← peek? with
    | some (.text .plain _) => return some (← ident)
    | some (.word s true) => do skip; return some ⟨s, .double⟩
    | some (.word s false) =>
      if ends.contains (Text.upper s) then return none
      else do skip; return some ⟨s, .bare⟩
    | _ => return none

end Parse

end ReportSql.Sql
