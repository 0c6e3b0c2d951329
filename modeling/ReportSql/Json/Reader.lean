import ReportSql.Json.Value

/-!
Reading JSON text. A value may nest in others to any depth.
-/

namespace ReportSql.Json

def isSpace (c : Char) : Bool := c == ' ' || c == '\t' || c == '\n' || c == '\r'

def skipSpace (s : List Char) : List Char := s.dropWhile isSpace

/-! ### Texts -/

/-- A character of a text, or the 16-bit unit that an escape gives. -/
inductive TextUnit where
  | char (c : Char)
  | escaped (unit : Nat)
  deriving DecidableEq, Repr

def hexDigit? (c : Char) : Option Nat :=
  if c.isDigit then some (c.toNat - '0'.toNat)
  else if 'a' ≤ c && c ≤ 'f' then some (c.toNat - 'a'.toNat + 10)
  else if 'A' ≤ c && c ≤ 'F' then some (c.toNat - 'A'.toNat + 10)
  else none

def hexUnit? (a b c d : Char) : Option Nat := do
  let a ← hexDigit? a
  let b ← hexDigit? b
  let c ← hexDigit? c
  let d ← hexDigit? d
  return ((a * 16 + b) * 16 + c) * 16 + d

def shortEscape? : Char → Option Char
  | '"' => some '"'
  | '\\' => some '\\'
  | '/' => some '/'
  | 'b' => some '\x08'
  | 'f' => some '\x0c'
  | 'n' => some '\n'
  | 'r' => some '\r'
  | 't' => some '\t'
  | _ => none

/-- The units of a text after its opening quote, and what follows its closing one. -/
def textUnits : List Char → Option (List TextUnit × List Char)
  | [] => none
  | '"' :: rest => some ([], rest)
  | '\\' :: 'u' :: a :: b :: c :: d :: rest => do
    let unit ← hexUnit? a b c d
    let (units, rest) ← textUnits rest
    return (.escaped unit :: units, rest)
  | '\\' :: c :: rest => do
    let c ← shortEscape? c
    let (units, rest) ← textUnits rest
    return (.char c :: units, rest)
  | c :: rest =>
    if c == '\\' || c.toNat < 0x20 then none
    else do
      let (units, rest) ← textUnits rest
      return (.char c :: units, rest)

/-- The first of two units that give one character. -/
def isLeading (unit : Nat) : Bool := 0xD800 ≤ unit && unit < 0xDC00

def isTrailing (unit : Nat) : Bool := 0xDC00 ≤ unit && unit < 0xE000

def pairedChar (leading trailing : Nat) : Char :=
  Char.ofNat (0x10000 + (leading - 0xD800) * 0x400 + (trailing - 0xDC00))

/-- The characters of a text, unless an escape gives half a character. -/
def joinUnits : List TextUnit → Option (List Char)
  | [] => some []
  | .char c :: rest => (joinUnits rest).map (c :: ·)
  | .escaped a :: .escaped b :: rest =>
    if isLeading a then
      if isTrailing b then (joinUnits rest).map (pairedChar a b :: ·) else none
    else if isTrailing a then none
    else (joinUnits (.escaped b :: rest)).map (Char.ofNat a :: ·)
  | .escaped a :: rest =>
    if isLeading a || isTrailing a then none
    else (joinUnits rest).map (Char.ofNat a :: ·)

/-- A text after its opening quote. -/
def textBody (s : List Char) : Option (Option String × List Char) :=
  (textUnits s).map fun (units, rest) => ((joinUnits units).map String.ofList, rest)

/-! ### Numbers -/

/-- The digits at the start, if there is one. -/
def digits? (s : List Char) : Option (List Char × List Char) :=
  let digits := s.takeWhile Char.isDigit
  if digits.isEmpty then none else some (digits, s.dropWhile Char.isDigit)

/-- The part of a number before the point; no zero stands in front of other digits. -/
def wholePart? (s : List Char) : Option (List Char × List Char) :=
  match s with
  | '0' :: rest => some (['0'], rest)
  | s => digits? s

def fractionPart? (s : List Char) : Option (List Char × List Char) :=
  match s with
  | '.' :: rest => (digits? rest).map fun (digits, rest) => ('.' :: digits, rest)
  | s => some ([], s)

def exponentPart? (s : List Char) : Option (List Char × List Char) :=
  match s with
  | e :: rest =>
    if e == 'e' || e == 'E' then
      match rest with
      | sign :: rest =>
        if sign == '+' || sign == '-' then
          (digits? rest).map fun (digits, rest) => (e :: sign :: digits, rest)
        else (digits? (sign :: rest)).map fun (digits, rest) => (e :: digits, rest)
      | [] => none
    else some ([], e :: rest)
  | [] => some ([], [])

def number? (s : List Char) : Option (String × List Char) := do
  let (sign, s) := match s with
    | '-' :: rest => (['-'], rest)
    | s => ([], s)
  let (whole, s) ← wholePart? s
  let (fraction, s) ← fractionPart? s
  let (exponent, s) ← exponentPart? s
  return (String.ofList (sign ++ whole ++ fraction ++ exponent), s)

/-! ### Values -/

def keyword? (keyword : String) (value : Value) (s : List Char) : Option (Value × List Char) :=
  if keyword.toList.isPrefixOf s then some (value, s.drop keyword.length) else none

mutual

/-- A value, where the number of readings still allowed is bounded. -/
def valueWithin : Nat → List Char → Option (Value × List Char)
  | 0, _ => none
  | n + 1, s =>
    match skipSpace s with
    | '"' :: rest => (textBody rest).map fun
      | (some text, rest) => (.text text, rest)
      | (none, rest) => (.brokenText, rest)
    | '[' :: rest =>
      match skipSpace rest with
      | ']' :: rest => some (.array [], rest)
      | rest => (itemsWithin n rest).map fun (items, rest) => (.array items, rest)
    | '\x7b' :: rest =>
      match skipSpace rest with
      | '\x7d' :: rest => some (.object [], rest)
      | rest => (membersWithin n rest).map fun (members, rest) => (.object members, rest)
    | 'n' :: rest => keyword? "null" .null ('n' :: rest)
    | 't' :: rest => keyword? "true" (.boolean true) ('t' :: rest)
    | 'f' :: rest => keyword? "false" (.boolean false) ('f' :: rest)
    | s => (number? s).map fun (number, rest) => (.number number, rest)

/-- The items of an array that has one, and what follows its closing bracket. -/
def itemsWithin : Nat → List Char → Option (List Value × List Char)
  | 0, _ => none
  | n + 1, s => do
    let (item, s) ← valueWithin n s
    match skipSpace s with
    | ',' :: rest =>
      let (items, rest) ← itemsWithin n rest
      return (item :: items, rest)
    | ']' :: rest => return ([item], rest)
    | _ => none

/-- The members of an object that has one, and what follows its closing brace. -/
def membersWithin : Nat → List Char → Option (List Member × List Char)
  | 0, _ => none
  | n + 1, s => do
    match skipSpace s with
    | '"' :: s =>
      let (key, s) ← textBody s
      match skipSpace s with
      | ':' :: s =>
        let (value, s) ← valueWithin n s
        match skipSpace s with
        | ',' :: rest =>
          let (members, rest) ← membersWithin n rest
          return (⟨key, value⟩ :: members, rest)
        | '\x7d' :: rest => return ([⟨key, value⟩], rest)
        | _ => none
      | _ => none
    | _ => none

end

/-- The value that a text holds, with nothing but blanks around it. Every reading takes a
character at least, so that the length of the text bounds their number. -/
def Value.read? (text : String) : Option Value := do
  let s := text.toList
  let (value, rest) ← valueWithin (2 * s.length + 1) s
  if (skipSpace rest).isEmpty then some value else none

end ReportSql.Json
