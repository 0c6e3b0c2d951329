import ReportSql.Sql.Lexer
import ReportSql.Text.Scan

/-!
Named placeholders, `%(name)s`. Before a text is read as SQL each of them is masked as a string
literal, a sentinel, that names it; in a text that was written from syntax the sentinels are
unmasked again. What stands inside a literal, a quoted name or a comment is no placeholder.
-/

namespace ReportSql.Sql.Placeholder

open Text

def text (name : String) : String := "%(" ++ name ++ ")s"

/-! ### Names -/

def isNameStart (c : Char) : Bool := c.isAlpha || c == '_'

def isNamePart (c : Char) : Bool := c.isAlphanum || c == '_'

/-- The plain name that some text starts with. -/
def leadingName (s : List Char) : List Char :=
  match s with
  | c :: rest => if isNameStart c then c :: rest.takeWhile isNamePart else []
  | [] => []

/-- Whether a text is a plain name. -/
def isName (name : String) : Bool :=
  match name.toList with
  | c :: rest => isNameStart c && rest.all isNamePart
  | [] => false

/-- What stands between an opening text, which is dropped, and a closing one. -/
def nameBetween (opening closing s : List Char) : Option (String × Nat) :=
  if opening.isPrefixOf s then
    let name := leadingName (s.drop opening.length)
    if name.isEmpty then none
    else if closing.isPrefixOf (s.drop (opening.length + name.length)) then
      some (String.ofList name, opening.length + name.length + closing.length)
    else none
  else none

/-! ### Placeholders -/

/-- A character, and whether a placeholder may start there. -/
abbrev Place := Char × Bool

/-- A placeholder starts a token or stands in an operator, never inside another token. -/
def Lexeme.places (l : Lexeme) : List Place :=
  match l.token, l.source with
  | .operator _, source => source.map (·, true)
  | _, [] => []
  | _, c :: rest => (c, true) :: rest.map (·, false)

/-- In a text without lexemes a placeholder may start anywhere. -/
def places (s : List Char) : List Place :=
  match lexChars s with
  | some lexemes => lexemes.flatMap Lexeme.places
  | none => s.map (·, true)

def placeholderAt? (s : List Place) : Option (String × Nat) :=
  match s with
  | ('%', true) :: _ => nameBetween ['%', '('] [')', 's'] (s.map Prod.fst)
  | _ => none

def split (s : List Char) : List (Segment String Place) := segments placeholderAt? (places s)

/-- The names of the placeholders of a text, ascending. -/
def names (s : String) : List String := sortedSet (foundValues (split s.toList))

/-! ### Sentinels -/

def sentinelMark : String := "__qg_param__"

/-- The literal that masks a placeholder. -/
def sentinel (name : String) : String := "'" ++ sentinelMark ++ name ++ "'"

def sentinelAt? (s : List Char) : Option (String × Nat) :=
  nameBetween ('\'' :: sentinelMark.toList) ['\''] s

/-- The placeholder that the value of a literal stands for. -/
def sentinelName? (value : String) : Option String :=
  let mark := sentinelMark.toList
  let s := value.toList
  if mark.isPrefixOf s then
    let name := s.drop mark.length
    if !name.isEmpty && name.all isNamePart then some (String.ofList name) else none
  else none

def maskChars (s : List Char) : List Char :=
  (split s).flatMap fun
    | .plain (c, _) => [c]
    | .found name => (sentinel name).toList

/-- A text with each placeholder replaced by its sentinel. -/
def mask (s : String) : String := String.ofList (maskChars s.toList)

def unmaskChars (s : List Char) : List Char :=
  (segments sentinelAt? s).flatMap fun
    | .plain c => [c]
    | .found name => (text name).toList

/-- A text with each sentinel replaced by its placeholder. -/
def unmask (s : String) : String := String.ofList (unmaskChars s.toList)

/-- Whether a masked text holds the sentinel of a name. -/
def mentions (s name : String) : Bool :=
  (foundValues (segments sentinelAt? s.toList)).contains name

end ReportSql.Sql.Placeholder
