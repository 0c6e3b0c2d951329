import ReportSql.Toml.Document
import ReportSql.Toml.Scalar

/-!
Reading TOML text. Arrays and inline tables may hold newlines and comments; a comma may follow
their last element.
-/

namespace ReportSql.Toml

/-! ### Blanks and comments -/

def skipBlanks (s : List Char) : List Char := s.dropWhile isBlank

/-- What follows a comment, which ends before a newline. -/
def skipComment? (s : List Char) : Option (List Char) :=
  match s with
  | '#' :: rest =>
    let rest := rest.dropWhile isTextChar
    if rest.isEmpty || (skipNewline rest).isSome then some rest else none
  | s => some s

/-- What follows the end of a line; blanks and a comment may come before it. -/
def endLine? (s : List Char) : Option (List Char) := do
  let s ← skipComment? (skipBlanks s)
  if s.isEmpty then some [] else skipNewline s

/-- Passes over blanks, newlines and comments. -/
def skipFiller? : Nat → List Char → Option (List Char)
  | 0, _ => none
  | n + 1, s => do
    let s ← skipComment? (skipBlanks s)
    match skipNewline s with
    | some rest => skipFiller? n rest
    | none => some s

/-- Each round of the filler takes a newline. -/
def filler? (s : List Char) : Option (List Char) := skipFiller? (s.length + 1) s

/-! ### Keys -/

def isKeyChar (c : Char) : Bool := c.isAlphanum || c == '_' || c == '-'

def simpleKey? (s : List Char) : Option (String × List Char) :=
  match s with
  | '"' :: rest => lineText? '"' rest
  | '\'' :: rest => lineText? '\'' rest
  | s =>
    let word := s.takeWhile isKeyChar
    if word.isEmpty then none else some (String.ofList word, s.dropWhile isKeyChar)

/-- A key of parts with dots between them: the parts before the last one, and that. -/
def dottedKey? : Nat → List Char → Option ((List String × String) × List Char)
  | 0, _ => none
  | n + 1, s => do
    let (first, s) ← simpleKey? (skipBlanks s)
    match skipBlanks s with
    | '.' :: rest =>
      let ((path, last), rest) ← dottedKey? n rest
      return ((first :: path, last), rest)
    | s => return (([], first), s)

def key? (s : List Char) : Option ((List String × String) × List Char) := dottedKey? s.length s

/-- A key and the equals sign after it. -/
def assignedKey? (s : List Char) : Option ((List String × String) × List Char) := do
  let (key, s) ← key? s
  match skipBlanks s with
  | '=' :: rest => return (key, skipBlanks rest)
  | _ => none

/-! ### Values -/

/-- The elements of an array after its opening bracket, where the reader of an element and a bound
on their number are given. -/
def items? (value? : List Char → Option (Value × List Char)) :
    Nat → List Char → Option (List Value × List Char)
  | 0, _ => none
  | n + 1, s => do
    let s ← filler? s
    match s with
    | ']' :: rest => return ([], rest)
    | s =>
      let (item, s) ← value? s
      match ← filler? s with
      | ',' :: rest =>
        let (items, rest) ← items? value? n rest
        return (item :: items, rest)
      | ']' :: rest => return ([item], rest)
      | _ => none

/-- The assignments of an inline table after its opening brace. -/
def assignments? (value? : List Char → Option (Value × List Char)) :
    Nat → List Char → Option (List (List String × String × Value) × List Char)
  | 0, _ => none
  | n + 1, s => do
    let s ← filler? s
    match s with
    | '\x7d' :: rest => return ([], rest)
    | s =>
      let ((path, key), s) ← assignedKey? s
      let (value, s) ← value? s
      match ← filler? s with
      | ',' :: rest =>
        let (others, rest) ← assignments? value? n rest
        return ((path, key, value) :: others, rest)
      | '\x7d' :: rest => return ([(path, key, value)], rest)
      | _ => none

/-- A value, with arrays and inline tables nested up to a depth. -/
def valueWithin : Nat → List Char → Option (Value × List Char)
  | _, '"' :: rest => (text? '"' rest).map fun (s, rest) => (.text s, rest)
  | _, '\'' :: rest => (text? '\'' rest).map fun (s, rest) => (.text s, rest)
  | 0, '[' :: _ | 0, '\x7b' :: _ => none
  | n + 1, '[' :: rest => do
    let (items, rest) ← items? (valueWithin n) (rest.length + 1) rest
    return (.array items, rest)
  | n + 1, '\x7b' :: rest => do
    let (assignments, rest) ← assignments? (valueWithin n) (rest.length + 1) rest
    return (← inlineTable? assignments, rest)
  | _, s => plain? s

/-- How deeply arrays and inline tables may nest. -/
def depthLimit : Nat := 80

def value? (s : List Char) : Option (Value × List Char) := valueWithin depthLimit s

/-! ### Statements -/

/-- A statement that starts a line, up to its end. -/
def statement? (s : List Char) : Option (Statement × List Char) :=
  match s with
  | '[' :: '[' :: rest => do
    let ((path, key), rest) ← key? rest
    match skipBlanks rest with
    | ']' :: ']' :: rest => return (.tablesHeader path key, rest)
    | _ => none
  | '[' :: rest => do
    let ((path, key), rest) ← key? rest
    match skipBlanks rest with
    | ']' :: rest => return (.header path key, rest)
    | _ => none
  | s => do
    let ((path, key), s) ← assignedKey? s
    let (value, s) ← value? s
    return (.assign path key value, s)

/-- Adds the statements of a text, one to a line. -/
def statementsWithin : Nat → List Char → Document → Option Document
  | 0, _, _ => none
  | n + 1, s, d => do
    let s ← filler? s
    if s.isEmpty then some d
    else
      let (statement, s) ← statement? s
      let d ← d.add? statement
      statementsWithin n (← endLine? s) d

/-- A mark of the byte order may start a text. -/
def skipMark (s : List Char) : List Char :=
  match s with
  | '\ufeff' :: rest => rest
  | s => s

/-- The table that a text describes. -/
def Value.read? (text : String) : Option Value :=
  let s := skipMark text.toList
  (statementsWithin (s.length + 1) s .empty).map fun d => d.root.toValue

end ReportSql.Toml
