import ReportSql.Text.Alphabetic

/-!
What a program finds around it: variables and files. Texts can name variables, which are expanded.
-/

namespace ReportSql

/-- What is found under a path. -/
inductive FileState where
  | missing
  | unreadable
  | content (text : String)
  deriving DecidableEq, Repr

structure Environment where
  value? : String → Option String
  file : String → FileState

namespace Environment

def isVariableChar (c : Char) : Bool := Text.isAlphanumeric c || c == '_'

/-- A part of a text: a character, or the name of a variable. -/
inductive Part where
  | char (c : Char)
  | variable (name : String)
  deriving DecidableEq, Repr

/-- What a dollar sign starts, and how many characters after it belong to that. A name without its
closing brace goes to the end; a dollar sign with no name stands for itself. -/
def dollarPart (rest : List Char) : Part × Nat :=
  match rest with
  | '\x7b' :: inner =>
    let name := inner.takeWhile (· != '\x7d')
    (.variable (String.ofList name), min (name.length + 2) rest.length)
  | rest =>
    let name := rest.takeWhile isVariableChar
    if name.isEmpty then (.char '$', 0) else (.variable (String.ofList name), name.length)

/-- The parts of a text after so many characters of it. -/
def partsAfter : Nat → List Char → List Part
  | _, [] => []
  | n + 1, _ :: rest => partsAfter n rest
  | 0, c :: rest =>
    if c == '$' then
      let (part, size) := dollarPart rest
      part :: partsAfter size rest
    else .char c :: partsAfter 0 rest

def parts (text : String) : List Part := partsAfter 0 text.toList

def partText (env : Environment) : Part → Except String String
  | .char c => .ok c.toString
  | .variable name =>
    match env.value? name with
    | some value => .ok value
    | none => .error name

/-- A text with its variables replaced by their values; the first that has none is an error. -/
def expand (env : Environment) (text : String) : Except String String :=
  return String.join (← (parts text).mapM env.partText)

end Environment

end ReportSql
