/-!
Dates of the proleptic Gregorian calendar. A date is the number of days since the first of
January of year 1, which was a Monday, so that weeks need no more than division by seven.
-/

namespace ReportSql

structure Date where
  /-- Days since 0001-01-01. -/
  dayNumber : Int
  deriving DecidableEq, Repr

namespace Date

/-- A date by its parts. -/
structure Civil where
  year : Int
  month : Nat
  day : Nat
  deriving DecidableEq, Repr

def isLeapYear (year : Int) : Bool :=
  year % 4 == 0 && (year % 100 != 0 || year % 400 == 0)

def daysInMonth (year : Int) (month : Nat) : Nat :=
  if month == 2 then if isLeapYear year then 29 else 28
  else if month == 4 || month == 6 || month == 9 || month == 11 then 30
  else 31

/-- Years a date can lie in. -/
def firstYear : Int := -262143
def lastYear : Int := 262142

def Civil.isValid (c : Civil) : Bool :=
  firstYear ≤ c.year && c.year ≤ lastYear && 1 ≤ c.month && c.month ≤ 12
    && 1 ≤ c.day && c.day ≤ daysInMonth c.year c.month

/-- Counts in years that start in March, so that a leap day is the last day of its year. -/
def ofCivil (c : Civil) : Date :=
  let year := if c.month ≤ 2 then c.year - 1 else c.year
  let era := year / 400
  let yearOfEra := year % 400
  let month := (c.month + 9) % 12
  let dayOfYear := (153 * month + 2) / 5 + (c.day - 1)
  let dayOfEra := yearOfEra * 365 + yearOfEra / 4 - yearOfEra / 100 + dayOfYear
  ⟨era * 146097 + dayOfEra - 306⟩

def ofCivil? (c : Civil) : Option Date := if c.isValid then some (ofCivil c) else none

def civil (d : Date) : Civil :=
  let n := d.dayNumber + 306
  let era := n / 146097
  let dayOfEra := (n % 146097).toNat
  let yearOfEra :=
    (dayOfEra - dayOfEra / 1460 + dayOfEra / 36524 - dayOfEra / 146096) / 365
  let dayOfYear := dayOfEra - (365 * yearOfEra + yearOfEra / 4 - yearOfEra / 100)
  let month := (5 * dayOfYear + 2) / 153
  let day := dayOfYear - (153 * month + 2) / 5 + 1
  let year := yearOfEra + era * 400
  if month < 10 then ⟨year, month + 3, day⟩ else ⟨year + 1, month - 9, day⟩

def addDays (d : Date) (n : Int) : Date := ⟨d.dayNumber + n⟩

/-- Days since the last Monday, which may be the date itself. -/
def daysFromMonday (d : Date) : Int := d.dayNumber % 7

def le (a b : Date) : Bool := a.dayNumber ≤ b.dayNumber

end Date

end ReportSql
