/-!
Splitting a sequence into the occurrences of a pattern and the elements between them. The
occurrences are found from left to right and do not overlap.
-/

namespace ReportSql.Text

/-- An occurrence of a pattern with what it stands for, or an element outside of all of them. -/
inductive Segment (α β : Type) where
  | plain (element : β)
  | found (value : α)
  deriving DecidableEq, Repr

/-- Splits what follows the first `skip` elements, which belong to an occurrence already found.
The pattern gives a value and the number of elements it takes, at the start of a sequence. -/
def segmentsAfter {α β : Type} (pattern : List β → Option (α × Nat)) :
    Nat → List β → List (Segment α β)
  | _, [] => []
  | skip + 1, _ :: rest => segmentsAfter pattern skip rest
  | 0, b :: rest =>
    match pattern (b :: rest) with
    | some (a, size) => .found a :: segmentsAfter pattern (size - 1) rest
    | none => .plain b :: segmentsAfter pattern 0 rest

def segments {α β : Type} (pattern : List β → Option (α × Nat)) (s : List β) :
    List (Segment α β) :=
  segmentsAfter pattern 0 s

/-- The values of the occurrences. -/
def foundValues {α β : Type} (segments : List (Segment α β)) : List α :=
  segments.filterMap fun
    | .found a => some a
    | .plain _ => none

/-- Whether a pattern occurs in a sequence. -/
def hasInfix (pattern : List Char) : List Char → Bool
  | [] => pattern.isEmpty
  | c :: rest => pattern.isPrefixOf (c :: rest) || hasInfix pattern rest

/-- Inserts a text into an ascending list that holds each text once. -/
def insertSorted (s : String) : List String → List String
  | [] => [s]
  | t :: rest =>
    if s == t then t :: rest
    else if s < t then s :: t :: rest
    else t :: insertSorted s rest

/-- Texts in ascending order, each of them once. -/
def sortedSet (texts : List String) : List String := texts.foldr insertSorted []

end ReportSql.Text
