import ReportSql.Sql.Placeholder
import ReportSql.Text.Blank

/-!
The bytes that the tokens of a text span. Tokens come with the line and the column of their first
character and of the one after them. Both are turned into bytes of the text, and what a placeholder
or a statement stands in is cut out of the text by its bytes. A cut fails past the end of the text
and inside a character.
-/

namespace ReportSql.Sql

open Text (Segment segments trimChars)

/-! ### Cuts -/

/-- The text before a byte, and the text from it on. -/
def cutAt? : Nat → List Char → Option (List Char × List Char)
  | 0, s => some ([], s)
  | _ + 1, [] => none
  | n + 1, c :: rest =>
    if n + 1 < c.utf8Size then none
    else (cutAt? (n + 1 - c.utf8Size) rest).map fun (before, after) => (c :: before, after)

/-- The text that some bytes hold. -/
def Span.slice? (span : Span) (s : List Char) : Option (List Char) := do
  let (_, rest) ← cutAt? span.start s
  if span.stop < span.start then none
  else (cutAt? (span.stop - span.start) rest).map Prod.fst

/-! ### Locations -/

/-- A place in a text by its line and its column, both counted from one. -/
structure Location where
  line : Nat
  column : Nat
  deriving DecidableEq, Repr

def Location.first : Location := ⟨1, 1⟩

/-- The place after a character. -/
def Location.next (place : Location) (c : Char) : Location :=
  if c == '\n' then ⟨place.line + 1, 1⟩ else ⟨place.line, place.column + 1⟩

/-- The place after some text. -/
def Location.after (place : Location) (s : List Char) : Location := s.foldl Location.next place

/-- A token with the places of its first character and of the one after it. -/
structure Located where
  token : Token
  start : Location
  stop : Location
  deriving DecidableEq, Repr

/-- Lexemes as tokens with their places, the first one starting at `start`. -/
def locatedFrom (start : Location) : List Lexeme → List Located
  | [] => []
  | l :: rest =>
    let stop := start.after l.source
    ⟨l.token, start, stop⟩ :: locatedFrom stop rest

/-! ### Bytes of locations -/

/-- The characters of a text with the bytes they start at, the first one starting at `start`. -/
def charOffsetsFrom (start : Nat) : List Char → List (Nat × Char)
  | [] => []
  | c :: rest => (start, c) :: charOffsetsFrom (start + c.utf8Size) rest

/-- The bytes at which the lines of a text start. -/
def lineStarts (s : List Char) : List Nat :=
  0 :: ((charOffsetsFrom 0 s).filter fun x => x.2 == '\n').map fun x => x.1 + 1

/-- The byte of a place. A place that is not in the text is taken for its end. -/
def Location.offset? (s : List Char) (place : Location) : Option Nat :=
  match place.line with
  | 0 => some (byteSize s)
  | n + 1 =>
    match (lineStarts s)[n]? with
    | none => some (byteSize s)
    | some start => do
      let (_, line) ← cutAt? start s
      match (charOffsetsFrom 0 line)[place.column - 1]? with
      | some (i, _) => return start + i
      | none => return byteSize s

/-- The tokens of a text with the bytes they span. -/
def ranges? (s : List Char) (lexemes : List Lexeme) : Option (List (Token × Span)) :=
  (locatedFrom .first lexemes).mapM fun l => do
    let start ← l.start.offset? s
    let stop ← l.stop.offset? s
    return (l.token, ⟨start, stop⟩)

/-! ### Masking by bytes -/

/-- The placeholder that a text starts with, wherever it stands. -/
def leadingPlaceholder? (s : List Char) : Option (String × Nat) :=
  Placeholder.nameBetween ['%', '('] [')', 's'] s

/-- The occurrences in a text that was split, with the bytes they span. -/
def foundFrom (start : Nat) : List (Segment String Char) → List (String × Span)
  | [] => []
  | .plain c :: rest => foundFrom (start + c.utf8Size) rest
  | .found name :: rest =>
    let stop := start + byteSize (Placeholder.text name).toList
    (name, ⟨start, stop⟩) :: foundFrom stop rest

/-- Whether a byte is inside one of some ranges, and not the first one there. -/
def isEnclosed (ranges : List Span) (n : Nat) : Bool :=
  ranges.any fun r => decide (r.start < n) && decide (n < r.stop)

def Token.isOperator : Token → Bool
  | .operator _ => true
  | _ => false

/-- The ranges in which no placeholder starts: those of all tokens but operators. -/
def enclosing (ranged : List (Token × Span)) : List Span :=
  (ranged.filter fun x => !x.1.isOperator).map Prod.snd

/-- A text from a byte on, with sentinels in the place of some placeholders. -/
def maskFrom? (s : List Char) (copied : Nat) : List (String × Span) → Option (List Char)
  | [] => Span.slice? ⟨copied, byteSize s⟩ s
  | (name, span) :: rest => do
    let before ← Span.slice? ⟨copied, span.start⟩ s
    let after ← maskFrom? s span.stop rest
    return before ++ (Placeholder.sentinel name).toList ++ after

/-- Masks a text by the bytes of its tokens and placeholders. -/
def maskSlices? (s : List Char) (lexemes : List Lexeme) : Option (List Char) := do
  let ranged ← ranges? s lexemes
  let isKept (x : String × Span) := !isEnclosed (enclosing ranged) x.2.start
  maskFrom? s 0 ((foundFrom 0 (segments leadingPlaceholder? s)).filter isKept)

/-! ### Trimming by bytes -/

/-- The text from its first to its last token that is no filler, cut out by their bytes. -/
def trimSlices? (s : List Char) (lexemes : List Lexeme) : Option (List Char) := do
  let ranged ← ranges? s lexemes
  match ranged.filter fun x => !x.1.isFiller with
  | [] => return trimChars s
  | x :: rest => Span.slice? ⟨x.2.start, (rest.getLastD x).2.stop⟩ s

end ReportSql.Sql
