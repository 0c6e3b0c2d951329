import ReportSql.Calendar.Date
import ReportSql.Toml.Value

/-!
The scalars of TOML: texts with their four ways of quoting, and numbers, dates and times, which
are written without quotes.
-/

namespace ReportSql.Toml

/-! ### Texts -/

/-- A character that may stand for itself in a text. -/
def isTextChar (c : Char) : Bool := c == '\t' || (c.toNat ≥ 0x20 && c.toNat != 0x7F)

def isBlank (c : Char) : Bool := c == ' ' || c == '\t'

def hexDigit? (c : Char) : Option Nat :=
  if c.isDigit then some (c.toNat - '0'.toNat)
  else if 'a' ≤ c && c ≤ 'f' then some (c.toNat - 'a'.toNat + 10)
  else if 'A' ≤ c && c ≤ 'F' then some (c.toNat - 'A'.toNat + 10)
  else none

/-- The character that some hexadecimal digits name. -/
def hexChar? (digits : List Char) : Option Char := do
  let digits ← digits.mapM hexDigit?
  let n := digits.foldl (fun n d => 16 * n + d) 0
  if h : n.isValidChar then some (Char.ofNatAux n h) else none

def shortEscape? : Char → Option Char
  | 'b' => some '\x08'
  | 't' => some '\t'
  | 'n' => some '\n'
  | 'f' => some '\x0c'
  | 'r' => some '\r'
  | 'e' => some '\x1b'
  | '"' => some '"'
  | '\\' => some '\\'
  | _ => none

/-- The character that an escape gives, after its backslash. -/
def escape? : List Char → Option (Char × List Char)
  | [] => none
  | c :: rest =>
    let size := match c with
      | 'x' => 2
      | 'u' => 4
      | 'U' => 8
      | _ => 0
    if size == 0 then (shortEscape? c).map (·, rest)
    else if rest.length < size then none
    else (hexChar? (rest.take size)).map (·, rest.drop size)

/-- The content of a text on one line, up to its closing quote. -/
def lineBody (quote : Char) (escapes : Bool) : Nat → List Char → Option (List Char × List Char)
  | 0, _ | _, [] => none
  | n + 1, c :: rest =>
    if c == quote then some ([], rest)
    else if escapes && c == '\\' then do
      let (c, rest) ← escape? rest
      let (body, rest) ← lineBody quote escapes n rest
      return (c :: body, rest)
    else if isTextChar c then do
      let (body, rest) ← lineBody quote escapes n rest
      return (c :: body, rest)
    else none

def skipNewline : List Char → Option (List Char)
  | '\n' :: rest => some rest
  | '\r' :: '\n' :: rest => some rest
  | _ => none

/-- Passes over blanks and newlines. -/
def skipLines (s : List Char) : List Char :=
  s.dropWhile fun c => isBlank c || c == '\n' || c == '\r'

/-- What follows a backslash at the end of a line; the text goes on after all blank lines. -/
def afterLineEnd? (s : List Char) : Option (List Char) :=
  (skipNewline (s.dropWhile isBlank)).map skipLines

/-- The content of a text of several lines, up to three closing quotes. One or two more quotes
before them belong to it. -/
def linesBody (quote : Char) (escapes : Bool) : Nat → List Char → Option (List Char × List Char)
  | 0, _ | _, [] => none
  | n + 1, c :: rest =>
    if c == quote && [quote, quote].isPrefixOf rest then
      let quotes := (c :: rest).takeWhile (· == quote)
      if quotes.length ≤ 5 then
        some (quotes.drop 3, (c :: rest).drop quotes.length)
      else none
    else if escapes && c == '\\' then
      match afterLineEnd? rest with
      | some rest => linesBody quote escapes n rest
      | none => do
        let (c, rest) ← escape? rest
        let (body, rest) ← linesBody quote escapes n rest
        return (c :: body, rest)
    else if isTextChar c || c == '\n' || (c == '\r' && rest.head? == some '\n') then do
      let (body, rest) ← linesBody quote escapes n rest
      return (c :: body, rest)
    else none

/-- A text on one line, after its opening quote. -/
def lineText? (quote : Char) (s : List Char) : Option (String × List Char) :=
  (lineBody quote (quote == '"') s.length s).map fun (body, rest) => (String.ofList body, rest)

/-- A text of several lines after its opening quotes; a newline there is not part of it. -/
def linesText? (quote : Char) (s : List Char) : Option (String × List Char) :=
  let s := (skipNewline s).getD s
  (linesBody quote (quote == '"') s.length s).map fun (body, rest) => (String.ofList body, rest)

/-- A text after its first quote. -/
def text? (quote : Char) (s : List Char) : Option (String × List Char) :=
  if [quote, quote].isPrefixOf s then linesText? quote (s.drop 2) else lineText? quote s

/-! ### Numbers -/

def isDigitOf (base : Nat) (c : Char) : Bool := (hexDigit? c).any (· < base)

/-- Digits, with single underscores between them. -/
def groupedDigits? (base : Nat) : List Char → Option (List Char)
  | [] => none
  | [c] => if isDigitOf base c then some [c] else none
  | c :: '_' :: rest =>
    if isDigitOf base c then (groupedDigits? base rest).map (c :: ·) else none
  | c :: rest => if isDigitOf base c then (groupedDigits? base rest).map (c :: ·) else none

def digitsValue (base : Nat) (digits : List Char) : Nat :=
  digits.foldl (fun n c => base * n + (hexDigit? c).getD 0) 0

def unsigned (s : List Char) : Bool × List Char :=
  match s with
  | '-' :: rest => (true, rest)
  | '+' :: rest => (false, rest)
  | s => (false, s)

/-- Decimal digits without a zero in front of others. -/
def wholeDigits? (s : List Char) : Option (List Char) :=
  match groupedDigits? 10 s with
  | some digits => if digits.head? == some '0' && digits.length > 1 then none else some digits
  | none => none

/-- Integers have 128 bits at most, with or without a sign. -/
def boundedInteger? (n : Int) : Option Int :=
  if -0x80000000000000000000000000000000 ≤ n && n ≤ 0xffffffffffffffffffffffffffffffff then some n
  else none

def integer? (s : List Char) : Option Int :=
  match s with
  | '0' :: 'x' :: rest => (groupedDigits? 16 rest).bind fun d => boundedInteger? (digitsValue 16 d)
  | '0' :: 'o' :: rest => (groupedDigits? 8 rest).bind fun d => boundedInteger? (digitsValue 8 d)
  | '0' :: 'b' :: rest => (groupedDigits? 2 rest).bind fun d => boundedInteger? (digitsValue 2 d)
  | s =>
    let (negative, s) := unsigned s
    (wholeDigits? s).bind fun digits =>
      let n : Int := digitsValue 10 digits
      boundedInteger? (if negative then -n else n)

/-- The exponent of a float, which goes to the end. -/
def isExponent : List Char → Bool
  | c :: rest => (c == 'e' || c == 'E') && (groupedDigits? 10 (unsigned rest).2).isSome
  | [] => false

def isFloat (s : List Char) : Bool :=
  let s := (unsigned s).2
  if s == "inf".toList || s == "nan".toList then true
  else
    let isPart (c : Char) := c.isDigit || c == '_'
    let whole := s.takeWhile isPart
    let rest := s.dropWhile isPart
    (wholeDigits? whole).isSome && match rest with
      | '.' :: rest =>
        (groupedDigits? 10 (rest.takeWhile isPart)).isSome
          && ((rest.dropWhile isPart).isEmpty || isExponent (rest.dropWhile isPart))
      | rest => isExponent rest

/-! ### Dates and times -/

/-- A number of exactly so many digits. -/
def fixedNumber? (size : Nat) (s : List Char) : Option (Nat × List Char) :=
  let digits := s.take size
  if digits.length == size && digits.all Char.isDigit then some (digitsValue 10 digits, s.drop size)
  else none

def mark? (mark : Char) : List Char → Option (List Char)
  | c :: rest => if c == mark then some rest else none
  | [] => none

def skipDate? (s : List Char) : Option (List Char) := do
  let (year, s) ← fixedNumber? 4 s
  let (month, s) ← fixedNumber? 2 (← mark? '-' s)
  let (day, s) ← fixedNumber? 2 (← mark? '-' s)
  -- the calendar repeats after 400 years
  if (Date.ofCivil? ⟨year + 400, month, day⟩).isSome then some s else none

/-- The hour and minute of a day. -/
def skipMinutes? (s : List Char) : Option (List Char) := do
  let (hour, s) ← fixedNumber? 2 s
  let (minute, s) ← fixedNumber? 2 (← mark? ':' s)
  if hour ≤ 23 && minute ≤ 59 then some s else none

def skipFraction? (s : List Char) : Option (List Char) :=
  match s with
  | '.' :: rest =>
    if (rest.takeWhile Char.isDigit).isEmpty then none else some (rest.dropWhile Char.isDigit)
  | s => some s

/-- A time of the day, with or without seconds. -/
def skipTime? (s : List Char) : Option (List Char) := do
  let s ← skipMinutes? s
  match s with
  | ':' :: rest =>
    let (second, rest) ← fixedNumber? 2 rest
    if second ≤ 60 then skipFraction? rest else none
  | s => some s

def skipOffset? (s : List Char) : Option (List Char) :=
  match s with
  | c :: rest =>
    if c == 'Z' || c == 'z' then some rest
    else if c == '+' || c == '-' then skipMinutes? rest
    else some (c :: rest)
  | [] => some []

def isDateTime (s : List Char) : Bool :=
  match skipDate? s with
  | some [] => true
  | some (c :: rest) =>
    (c == 'T' || c == 't' || c == ' ') && ((skipTime? rest).bind skipOffset?) == some []
  | none => skipTime? s == some []

/-! ### Plain scalars -/

def isPlainChar (c : Char) : Bool :=
  c.isAlphanum || c == '+' || c == '-' || c == '_' || c == '.' || c == ':'

/-- The value of a scalar that is written without quotes. -/
def plainValue? (s : List Char) : Option Value :=
  if s == "true".toList then some (.boolean true)
  else if s == "false".toList then some (.boolean false)
  else match integer? s with
    | some n => some (.integer n)
    | none =>
      if isFloat s then some (.float (String.ofList s))
      else if isDateTime s then some (.dateTime (String.ofList s))
      else none

/-- A scalar without quotes. A date and a time may have a blank between them. -/
def plain? (s : List Char) : Option (Value × List Char) :=
  let word := s.takeWhile isPlainChar
  let rest := s.dropWhile isPlainChar
  let joined := match rest with
    | ' ' :: c :: more =>
      if skipDate? word == some [] && c.isDigit then
        some (word ++ ' ' :: (c :: more).takeWhile isPlainChar, (c :: more).dropWhile isPlainChar)
      else none
    | _ => none
  let (word, rest) := joined.getD (word, rest)
  (plainValue? word).map (·, rest)

end ReportSql.Toml
