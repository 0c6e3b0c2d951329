import ReportSql.Calendar.Date
import ReportSql.Text.Blank

/-!
Dates as text, written `YYYY-MM-DD`. A year outside 0 to 9999 has a sign. A reader accepts blanks
before each number and months and days of one digit; a lenient one accepts blanks after each
number too.
-/

namespace ReportSql.Date

open Text

/-- A natural number in decimal, with zeros in front up to a width. -/
def padded (width n : Nat) : String :=
  let digits := toString n
  String.ofList (List.replicate (width - digits.length) '0') ++ digits

def yearText (year : Int) : String :=
  if 0 ≤ year && year ≤ 9999 then padded 4 year.toNat
  else (if year < 0 then "-" else "+") ++ padded 4 year.natAbs

def text (d : Date) : String :=
  let c := d.civil
  yearText c.year ++ "-" ++ padded 2 c.month ++ "-" ++ padded 2 c.day

/-- One or more digits, at most `most` of them, and the text after them. -/
def digits (most : Nat) (s : List Char) : Option (Nat × List Char) :=
  let run := (s.take most).takeWhile Char.isDigit
  if run.isEmpty then none
  else some (run.foldl (fun n c => 10 * n + (c.toNat - '0'.toNat)) 0, s.drop run.length)

/-- A year has at most four digits unless it has a sign. -/
def readYear (s : List Char) : Option (Int × List Char) :=
  match s with
  | '-' :: r => (digits r.length r).map fun (n, r) => (-(n : Int), r)
  | '+' :: r => (digits r.length r).map fun (n, r) => ((n : Int), r)
  | s => (digits 4 s).map fun (n, r) => ((n : Int), r)

def dash : List Char → Option (List Char)
  | '-' :: r => some r
  | _ => none

/-- Reads a date; blanks after a number are passed only by a lenient reader. -/
def readChars (lenient : Bool) (s : List Char) : Option Date := do
  let after (r : List Char) := if lenient then trimLeftChars r else r
  let (year, r) ← readYear (trimLeftChars s)
  let r ← dash (after r)
  let (month, r) ← digits 2 (trimLeftChars r)
  let r ← dash (after r)
  let (day, r) ← digits 2 (trimLeftChars r)
  if (after r).isEmpty then ofCivil? ⟨year, month, day⟩ else none

def read? (s : String) : Option Date := readChars false s.toList

def readLenient? (s : String) : Option Date := readChars true s.toList

end ReportSql.Date
