import ReportSql.Sql.Token
import ReportSql.Text.Alphabetic
import ReportSql.Text.Blank

/-!
Reading SQL text into lexemes, by the lexical rules of PostgreSQL. Every scanner takes the
characters that are left and returns what it read together with the characters after it.
A text that holds an unterminated literal, name or comment has no lexemes.
-/

namespace ReportSql.Sql.Lexer

open ReportSql.Text

def isNameStart (c : Char) : Bool := isLetter c || c == '_'

def isNamePart (c : Char) : Bool := isLetter c || c.isDigit || c == '$' || c == '_'

/-- Characters that an operator swallows when they directly follow it. -/
def isOperatorChar (c : Char) : Bool := "+-*/<>=~!@#%^&|\x60?".toList.contains c

def isHexDigit (c : Char) : Bool :=
  c.isDigit || ('a' ≤ c && c ≤ 'f') || ('A' ≤ c && c ≤ 'F')

def hexDigitValue (c : Char) : Nat :=
  if c.isDigit then c.toNat - '0'.toNat
  else if 'a' ≤ c && c ≤ 'f' then c.toNat - 'a'.toNat + 10
  else c.toNat - 'A'.toNat + 10

/-- The value of digits in some base. -/
def digitsValue (base : Nat) (digits : List Char) : Nat :=
  digits.foldl (fun n c => n * base + hexDigitValue c) 0

/-- The character of a code point, if the code point is a character. -/
def charOf? (n : Nat) : Option Char :=
  if n.isValidChar then some (Char.ofNat n) else none

/-! ### Quoted text -/

/-- The text up to a closing quote; a quote written twice stands for one. -/
def quotedBody (quote : Char) : List Char → Option (List Char × List Char)
  | [] => none
  | c :: rest =>
    if c == quote then
      match rest with
      | d :: after =>
        if d == quote then (quotedBody quote after).map fun (body, r) => (quote :: body, r)
        else some ([], d :: after)
      | [] => some ([], [])
    else (quotedBody quote rest).map fun (body, r) => (c :: body, r)

/-- What a backslash and a character stand for in a national or hexadecimal literal. -/
def plainEscape (c : Char) : Char :=
  match c with
  | '0' => Char.ofNat 0
  | 'a' => Char.ofNat 7
  | 'b' => Char.ofNat 8
  | 'f' => Char.ofNat 12
  | 'n' => '\n'
  | 'r' => '\r'
  | 't' => '\t'
  | 'Z' => Char.ofNat 26
  | _ => c

/-- The text up to a closing quote, where a backslash escapes the next character. -/
def backslashBody : List Char → Option (List Char × List Char)
  | [] => none
  | '\\' :: c :: rest => (backslashBody rest).map fun (body, r) => (plainEscape c :: body, r)
  | '\'' :: '\'' :: rest => (backslashBody rest).map fun (body, r) => ('\'' :: body, r)
  | '\'' :: rest => some ([], rest)
  | c :: rest => (backslashBody rest).map fun (body, r) => (c :: body, r)

/-- A number of one byte that stands for an ASCII character. -/
def byteChar? (n : Nat) : Option Char := if n % 256 ≤ 127 then some (Char.ofNat (n % 256)) else none

/-- The code point written with a fixed number of hexadecimal digits; a plus sign may take the
place of the first one. -/
def fixedHex? (digits : List Char) : Option Char :=
  let digits := match digits with
    | '+' :: rest => rest
    | _ => digits
  if !digits.isEmpty && digits.all isHexDigit then charOf? (digitsValue 16 digits) else none

/-- The character an escape stands for, read after the backslash. -/
def escapeSequence : List Char → Option (Char × List Char)
  | [] => none
  | 'b' :: r => some (Char.ofNat 8, r)
  | 'f' :: r => some (Char.ofNat 12, r)
  | 'n' :: r => some ('\n', r)
  | 'r' :: r => some ('\r', r)
  | 't' :: r => some ('\t', r)
  | 'u' :: r => if r.length < 4 then none else (fixedHex? (r.take 4)).map (·, r.drop 4)
  | 'U' :: r => if r.length < 8 then none else (fixedHex? (r.take 8)).map (·, r.drop 8)
  | 'x' :: r =>
    match (r.take 2).takeWhile isHexDigit with
    | [] => some ('x', r)
    | digits => (byteChar? (digitsValue 16 digits)).map (·, r.drop digits.length)
  | c :: r =>
    let octal (d : Char) := '0' ≤ d && d ≤ '7'
    if octal c then
      let more := (r.take 2).takeWhile octal
      (byteChar? (digitsValue 8 (c :: more))).map (·, r.drop more.length)
    else some (c, r)

/-- The body of an escape literal. An escape never stands for the null character. -/
def escapedBody : Nat → List Char → Option (List Char × List Char)
  | 0, _ => none
  | _ + 1, [] => none
  | n + 1, '\'' :: '\'' :: rest => (escapedBody n rest).map fun (body, r) => ('\'' :: body, r)
  | _ + 1, '\'' :: rest => some ([], rest)
  | n + 1, '\\' :: rest =>
    match escapeSequence rest with
    | some (c, after) =>
      if c.toNat == 0 then none else (escapedBody n after).map fun (body, r) => (c :: body, r)
    | none => none
  | n + 1, c :: rest => (escapedBody n rest).map fun (body, r) => (c :: body, r)

/-- The body of a Unicode literal, with `\XXXX` and `\+XXXXXX` for code points. -/
def unicodeBody : Nat → List Char → Option (List Char × List Char)
  | 0, _ => none
  | _ + 1, [] => none
  | n + 1, '\'' :: '\'' :: rest => (unicodeBody n rest).map fun (body, r) => ('\'' :: body, r)
  | _ + 1, '\'' :: rest => some ([], rest)
  | n + 1, '\\' :: '\\' :: rest => (unicodeBody n rest).map fun (body, r) => ('\\' :: body, r)
  | n + 1, '\\' :: rest =>
    let (width, rest) := match rest with
      | '+' :: r => (6, r)
      | r => (4, r)
    let digits := rest.take width
    if digits.length < width || !digits.all isHexDigit then none
    else match charOf? (digitsValue 16 digits) with
      | some c => (unicodeBody n (rest.drop width)).map fun (body, r) => (c :: body, r)
      | none => none
  | n + 1, c :: rest => (unicodeBody n rest).map fun (body, r) => (c :: body, r)

/-- The body of `$$text$$`; the flag says whether the character before was a dollar sign. -/
def dollarBody (afterDollar : Bool) : List Char → Option (List Char × List Char)
  | [] => none
  | c :: rest =>
    if afterDollar then
      if c == '$' then some ([], rest)
      else (dollarBody false rest).map fun (body, r) => ('$' :: c :: body, r)
    else if c == '$' then dollarBody true rest
    else (dollarBody false rest).map fun (body, r) => (c :: body, r)

/-- The text up to the closing `$tag$`, with all of it but the last dollar sign at its end. Once a
dollar sign is passed, `pending` is what is left of the tag. A character that does not continue the
tag is text, even if it is a dollar sign that could start the tag again. -/
def taggedBody (tag : List Char) : Option (List Char) → List Char →
    Option (List Char × List Char)
  | _, [] => none
  | pending, c :: rest =>
    let go (next : Option (List Char)) :=
      (taggedBody tag next rest).map fun (body, r) => (c :: body, r)
    match pending with
    | none => go (if c == '$' then some tag else none)
    | some [] => if c == '$' then some ([], rest) else go none
    | some (t :: more) => go (if c == t then some more else none)

/-- What a dollar sign starts: quoted text, or a placeholder. -/
def dollarToken (rest : List Char) : Option (Token × List Char) :=
  let text (tag : Option String) (body : List Char) : Token :=
    .text (.dollar tag) (String.ofList body)
  match rest with
  | '$' :: r => (dollarBody false r).map fun (body, r) => (text none body, r)
  | _ =>
    let isTag (c : Char) := isAlphanumeric c || c == '_'
    let tag := rest.takeWhile isTag
    match rest.dropWhile isTag with
    | '$' :: r =>
      (taggedBody tag none r).map fun (body, r) =>
        (text (some (String.ofList tag)) (body.take (body.length - (tag.length + 1))), r)
    | r => some (.placeholder ("$" ++ String.ofList tag), r)

/-! ### Comments, numbers and operators -/

/-- The text after a comment that may hold comments; `last` is the character just passed. -/
def afterComment (depth : Nat) (last : Char) : List Char → Option (List Char)
  | [] => none
  | c :: rest =>
    if last == '/' && c == '*' then afterComment (depth + 1) c rest
    else if last == '*' && c == '/' then
      if depth ≤ 1 then some rest else afterComment (depth - 1) c rest
    else afterComment depth c rest

/-- The text after a comment that ends with its line. -/
def afterLine (s : List Char) : List Char := (s.dropWhile (· != '\n')).drop 1

/-- An exponent with at least one digit, if one stands here. -/
def exponent (s : List Char) : List Char :=
  match s with
  | e :: rest =>
    if e == 'e' || e == 'E' then
      let sign := (rest.take 1).takeWhile fun c => c == '+' || c == '-'
      match (rest.drop sign.length).takeWhile Char.isDigit with
      | [] => []
      | digits => e :: sign ++ digits
    else []
  | [] => []

/-- A number, or the period that turns out to be none. -/
def numberToken (s : List Char) : Token × List Char :=
  let whole := s.takeWhile Char.isDigit
  let rest := s.drop whole.length
  match whole == ['0'], rest with
  | true, 'x' :: after =>
    let digits := after.takeWhile isHexDigit
    (.text .hex (String.ofList digits), after.drop digits.length)
  | _, _ =>
    let point := (rest.take 1).takeWhile (· == '.')
    let rest := rest.drop point.length
    let places := rest.takeWhile Char.isDigit
    let rest := rest.drop places.length
    let mantissa := whole ++ point ++ places
    if mantissa == ['.'] then (.symbol .period, rest)
    else
      let power := exponent rest
      let rest := rest.drop power.length
      let text := String.ofList (mantissa ++ power)
      match rest with
      | 'L' :: after => (.number text true, after)
      | _ => (.number text false, rest)

/-- An operator, longer by the operator characters that directly follow it. -/
def extended (s : Symbol) (rest : List Char) : Option (Token × List Char) :=
  match rest.takeWhile isOperatorChar with
  | [] => some (.symbol s, rest)
  | tail => some (.operator (s.text ++ String.ofList tail), rest.drop tail.length)

def fixed (s : Symbol) (rest : List Char) : Option (Token × List Char) := some (.symbol s, rest)

/-- Punctuation and operators. Some operators swallow the operator characters after them; a
question mark hides the character after it. -/
def symbolToken : List Char → Option (Token × List Char)
  | '(' :: r => fixed .leftParen r
  | ')' :: r => fixed .rightParen r
  | ',' :: r => fixed .comma r
  | ';' :: r => fixed .semicolon r
  | '[' :: r => fixed .leftBracket r
  | ']' :: r => fixed .rightBracket r
  | '\x7b' :: r => fixed .leftBrace r
  | '\x7d' :: r => fixed .rightBrace r
  | '\\' :: r => fixed .backslash r
  | '+' :: r => fixed .plus r
  | '*' :: r => fixed .star r
  | '/' :: r => fixed .slash r
  | '-' :: '>' :: '>' :: r => extended .longArrow r
  | '-' :: '>' :: r => extended .arrow r
  | '-' :: r => extended .minus r
  | '%' :: r => match r with
    | c :: _ => if isBlank c then fixed .percent r else extended .percent r
    | [] => fixed .percent r
  | '|' :: '/' :: r => extended .squareRoot r
  | '|' :: '|' :: '/' :: r => extended .cubeRoot r
  | '|' :: '|' :: r => extended .concat r
  | '|' :: r => extended .pipe r
  | '=' :: '>' :: r => fixed .fatArrow r
  | '=' :: '=' :: r => fixed .doubleEq r
  | '=' :: r => fixed .eq r
  | '!' :: '=' :: r => fixed .neq r
  | '!' :: '!' :: r => fixed .doubleBang r
  | '!' :: '~' :: '~' :: '*' :: r => fixed .bangDoubleTildeStar r
  | '!' :: '~' :: '~' :: r => fixed .bangDoubleTilde r
  | '!' :: '~' :: '*' :: r => fixed .bangTildeStar r
  | '!' :: '~' :: r => fixed .bangTilde r
  | '!' :: r => fixed .bang r
  | '<' :: '=' :: '>' :: r => extended .spaceship r
  | '<' :: '=' :: r => extended .ltEq r
  | '<' :: '>' :: r => extended .neq r
  | '<' :: '<' :: r => extended .shiftLeft r
  | '<' :: '@' :: r => extended .arrowAt r
  | '<' :: r => extended .lt r
  | '>' :: '=' :: r => extended .gtEq r
  | '>' :: '>' :: r => extended .shiftRight r
  | '>' :: r => extended .gt r
  | ':' :: ':' :: r => fixed .doubleColon r
  | ':' :: '=' :: r => fixed .assign r
  | ':' :: r => fixed .colon r
  | '&' :: '&' :: r => extended .overlap r
  | '&' :: r => extended .ampersand r
  | '^' :: '@' :: r => fixed .caretAt r
  | '^' :: r => fixed .caret r
  | '~' :: '~' :: '*' :: r => extended .doubleTildeStar r
  | '~' :: '~' :: r => extended .doubleTilde r
  | '~' :: '*' :: r => extended .tildeStar r
  | '~' :: r => extended .tilde r
  | '#' :: '-' :: r => extended .hashMinus r
  | '#' :: '>' :: '>' :: r => extended .hashLongArrow r
  | '#' :: '>' :: r => extended .hashArrow r
  | '#' :: r => extended .hash r
  | '@' :: '>' :: r => fixed .atArrow r
  | '@' :: '?' :: r => fixed .atQuestion r
  | '@' :: '@' :: r => fixed .atAt r
  | '@' :: r => fixed .atSign r
  | '?' :: '|' :: r => fixed .questionPipe r
  | '?' :: '&' :: r => fixed .questionAnd r
  | '?' :: r => fixed .question (r.drop 1)
  | _ => none

/-! ### Tokens -/

def quotedToken (form : TextForm) (scan : Option (List Char × List Char)) :
    Option (Token × List Char) :=
  scan.map fun (body, r) => (.text form (String.ofList body), r)

/-- A literal whose quote follows a letter, if one stands here. -/
def letteredToken (s : List Char) : Option (Option (Token × List Char)) :=
  match s with
  | c :: '\'' :: r =>
    if c == 'b' || c == 'B' then some (quotedToken .bits (quotedBody '\'' r))
    else if c == 'n' || c == 'N' then some (quotedToken .national (backslashBody r))
    else if c == 'e' || c == 'E' then some (quotedToken .escaped (escapedBody (r.length + 1) r))
    else if c == 'x' || c == 'X' then some (quotedToken .hex (backslashBody r))
    else none
  | c :: '"' :: r =>
    if c == 'b' || c == 'B' then some (quotedToken .doubleBits (quotedBody '"' r)) else none
  | c :: '&' :: '\'' :: r =>
    if c == 'u' || c == 'U' then some (quotedToken .unicode (unicodeBody (r.length + 1) r))
    else none
  | _ => none

def wordToken (s : List Char) : Token × List Char :=
  let name := s.takeWhile isNamePart
  (.word (String.ofList name) false, s.drop name.length)

/-- The first token of some text, and the text after it. -/
def token (s : List Char) : Option (Token × List Char) :=
  match letteredToken s with
  | some scanned => scanned
  | none =>
    match s with
    | [] => none
    | '-' :: '-' :: r => some (.comment, afterLine r)
    | '/' :: '*' :: r => (afterComment 1 ' ' r).map fun r => (.comment, r)
    | '\'' :: r => quotedToken .plain (quotedBody '\'' r)
    | '"' :: r => (quotedBody '"' r).map fun (name, r) => (.word (String.ofList name) true, r)
    | '$' :: r => dollarToken r
    | c :: r =>
      if isBlank c then some (.blank, r)
      else if c.isDigit || c == '.' then some (numberToken s)
      else if isNameStart c then some (wordToken s)
      else match symbolToken s with
        | some scanned => some scanned
        | none => some (.stray c, r)

/-- Lexemes of a text; the bound is one more than the number of its characters. -/
def lexemesWithin : Nat → List Char → Option (List Lexeme)
  | _, [] => some []
  | 0, _ :: _ => none
  | n + 1, s =>
    match token s with
    | none => none
    | some (t, rest) =>
      (lexemesWithin n rest).map (⟨t, s.take (s.length - rest.length)⟩ :: ·)

end Lexer

/-- The lexemes of a text, unless some literal, name or comment in it does not end. -/
def lexChars (s : List Char) : Option (List Lexeme) := Lexer.lexemesWithin (s.length + 1) s

def lex (text : String) : Option (List Lexeme) := lexChars text.toList

end ReportSql.Sql
