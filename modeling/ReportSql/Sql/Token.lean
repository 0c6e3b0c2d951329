/-!
The tokens of SQL text and the lexemes that carry them. A lexeme keeps the characters it was
read from, so that the sources of the lexemes of a text, joined, are the text.
-/

namespace ReportSql.Sql

/-- Punctuation and the operators with a fixed spelling. -/
inductive Symbol where
  | comma | period | semicolon | colon | doubleColon | assign | backslash
  | leftParen | rightParen | leftBracket | rightBracket | leftBrace | rightBrace
  | eq | doubleEq | neq | lt | gt | ltEq | gtEq | spaceship
  | plus | minus | star | slash | percent | concat
  | ampersand | pipe | caret | hash | shiftLeft | shiftRight | overlap
  | tilde | tildeStar | bangTilde | bangTildeStar
  | doubleTilde | doubleTildeStar | bangDoubleTilde | bangDoubleTildeStar
  | bang | doubleBang | atSign | caretAt | squareRoot | cubeRoot | fatArrow
  | arrow | longArrow | hashArrow | hashLongArrow | atArrow | arrowAt | hashMinus
  | atQuestion | atAt | question | questionAnd | questionPipe
  deriving DecidableEq, Repr

/-- The canonical spelling. -/
def Symbol.text : Symbol → String
  | .comma => "," | .period => "." | .semicolon => ";" | .colon => ":" | .doubleColon => "::"
  | .assign => ":=" | .backslash => "\\"
  | .leftParen => "(" | .rightParen => ")" | .leftBracket => "[" | .rightBracket => "]"
  | .leftBrace => "\x7b" | .rightBrace => "\x7d"
  | .eq => "=" | .doubleEq => "==" | .neq => "<>" | .lt => "<" | .gt => ">" | .ltEq => "<="
  | .gtEq => ">=" | .spaceship => "<=>"
  | .plus => "+" | .minus => "-" | .star => "*" | .slash => "/" | .percent => "%"
  | .concat => "||"
  | .ampersand => "&" | .pipe => "|" | .caret => "^" | .hash => "#" | .shiftLeft => "<<"
  | .shiftRight => ">>" | .overlap => "&&"
  | .tilde => "~" | .tildeStar => "~*" | .bangTilde => "!~" | .bangTildeStar => "!~*"
  | .doubleTilde => "~~" | .doubleTildeStar => "~~*" | .bangDoubleTilde => "!~~"
  | .bangDoubleTildeStar => "!~~*"
  | .bang => "!" | .doubleBang => "!!" | .atSign => "@" | .caretAt => "^@"
  | .squareRoot => "|/" | .cubeRoot => "||/" | .fatArrow => "=>"
  | .arrow => "->" | .longArrow => "->>" | .hashArrow => "#>" | .hashLongArrow => "#>>"
  | .atArrow => "@>" | .arrowAt => "<@" | .hashMinus => "#-"
  | .atQuestion => "@?" | .atAt => "@@" | .question => "?" | .questionAnd => "?&"
  | .questionPipe => "?|"

/-- The ways a literal can be quoted. -/
inductive TextForm where
  /-- `'text'` -/
  | plain
  /-- `N'text'` -/
  | national
  /-- `E'text'`, with backslash escapes -/
  | escaped
  /-- `U&'text'` -/
  | unicode
  /-- `B'text'` -/
  | bits
  /-- `B"text"` -/
  | doubleBits
  /-- `X'text'` -/
  | hex
  /-- `$tag$text$tag$` -/
  | dollar (tag : Option String)
  deriving DecidableEq, Repr

inductive Token where
  | word (text : String) (quoted : Bool)
  | number (text : String) (long : Bool)
  | text (form : TextForm) (value : String)
  /-- A dollar sign and a name or number, such as `$1`. -/
  | placeholder (text : String)
  | symbol (symbol : Symbol)
  /-- An operator made of a known one and further operator characters. -/
  | operator (text : String)
  | blank
  | comment
  /-- A character that starts no token. -/
  | stray (char : Char)
  deriving DecidableEq, Repr

/-- Blanks, comments and statement separators. -/
def Token.isFiller : Token → Bool
  | .blank | .comment | .symbol .semicolon => true
  | _ => false

/-- A token and the characters it was read from. -/
structure Lexeme where
  token : Token
  source : List Char
  deriving DecidableEq, Repr

/-- The number of bytes that some characters take. -/
def byteSize : List Char → Nat
  | [] => 0
  | c :: rest => c.utf8Size + byteSize rest

/-- The bytes a lexeme spans, with the end excluded. -/
structure Span where
  start : Nat
  stop : Nat
  deriving DecidableEq, Repr

/-- Lexemes with the bytes they span, the first one starting at `start`. -/
def spansFrom (start : Nat) : List Lexeme → List (Lexeme × Span)
  | [] => []
  | l :: rest =>
    let stop := start + byteSize l.source
    (l, ⟨start, stop⟩) :: spansFrom stop rest

def spans (lexemes : List Lexeme) : List (Lexeme × Span) := spansFrom 0 lexemes

end ReportSql.Sql
