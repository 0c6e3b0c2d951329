import ReportSql.Calendar.Format

/-!
Points in time and the days they lie in. Time goes on without zones or leap seconds, in microseconds,
so that a day is a range of points from its start to the start of the next day.
-/
namespace ReportSql

namespace Date

/-- The Monday on which the week of a date starts. -/
def weekStart (d : Date) : Date := d.addDays (-d.daysFromMonday)

/-- The first day of the month of a date. -/
def monthStart (d : Date) : Date := d.addDays (1 - d.civil.day)

theorem le_iff {a b : Date} : a.le b ↔ a.dayNumber ≤ b.dayNumber := by
  simp [le]

/-- A week starts on a Monday, at most six days before each of its dates. -/
theorem weekStart_spec (d : Date) :
    d.weekStart.daysFromMonday = 0 ∧ d.weekStart.le d ∧ d.le (d.weekStart.addDays 6) := by
  simp only [le_iff, weekStart, daysFromMonday, addDays]
  omega

/-! ### The first days of months -/

/-- The year, from March to February, of a day within 400 years. -/
def yearOfEra (n : Nat) : Nat := (n - n / 1460 + n / 36524 - n / 146096) / 365

/-- The first day of a year within 400 years. -/
def yearStart (year : Nat) : Nat := 365 * year + year / 4 - year / 100

/-- A date by its year and its day in it, from March on. -/
def civilOfYear (year : Int) (n : Nat) : Civil :=
  let month := (5 * n + 2) / 153
  let day := n - (153 * month + 2) / 5 + 1
  if month < 10 then ⟨year, month + 3, day⟩ else ⟨year + 1, month - 9, day⟩

variable {m n : Nat}

theorem yearOfEra_le (h : m ≤ n) (hn : n < 146097) : yearOfEra m ≤ yearOfEra n := by
  have below : m - m / 1460 + m / 36524 - m / 146096 ≤
      n - n / 1460 + n / 36524 - n / 146096 := by omega
  exact Nat.div_le_div_right below

theorem yearOfEra_lt (h : n < 146097) : yearOfEra n < 400 := by
  unfold yearOfEra
  omega

theorem yearOfEra_yearStart : ∀ year < 400, yearOfEra (yearStart year) = year ∧
    (0 < year → yearOfEra (yearStart year - 1) < year) := by
  decide +kernel

theorem yearStart_le (h : n < 146097) : yearStart (yearOfEra n) ≤ n := by
  apply Nat.le_of_not_lt
  intro above
  have first : 0 < yearOfEra n := by
    apply Nat.pos_of_ne_zero
    intro zero
    rw [zero] at above
    exact Nat.not_lt_zero n above
  have small : yearStart (yearOfEra n) - 1 < 146097 := by
    have few := yearOfEra_lt h
    unfold yearStart
    omega
  have before := (yearOfEra_yearStart _ (yearOfEra_lt h)).2 first
  exact Nat.not_lt_of_le (yearOfEra_le (Nat.le_sub_one_of_lt above) small) before

/-- Days of a year before one of its days lie in the same year. -/
theorem yearOfEra_back (hn : n < 146097) (start : yearStart (yearOfEra n) ≤ m) (h : m ≤ n) :
    yearOfEra m = yearOfEra n := by
  apply Nat.le_antisymm (yearOfEra_le h hn)
  have from_start := yearOfEra_le start (Nat.lt_of_le_of_lt h hn)
  rwa [(yearOfEra_yearStart _ (yearOfEra_lt hn)).1] at from_start

theorem civilOfYear_day (year : Int) (n : Nat) :
    (civilOfYear year n).day = n - (153 * ((5 * n + 2) / 153) + 2) / 5 + 1 := by
  simp only [civilOfYear]
  split <;> rfl

theorem civilOfYear_day_le (year : Int) (n : Nat) :
    1 ≤ (civilOfYear year n).day ∧ (civilOfYear year n).day ≤ n + 1 := by
  rw [civilOfYear_day]
  omega

/-- The first day of a month is as many days back as its days have been counted. -/
theorem civilOfYear_back (year : Int) (n : Nat) :
    civilOfYear year (n - ((civilOfYear year n).day - 1)) = { civilOfYear year n with day := 1 } := by
  rw [civilOfYear_day]
  generalize first : (153 * ((5 * n + 2) / 153) + 2) / 5 = k
  have back : n - (n - k + 1 - 1) = k := by omega
  have month : (5 * k + 2) / 153 = (5 * n + 2) / 153 := by omega
  rw [back]
  simp only [civilOfYear, month, first, Nat.sub_self]
  split <;> rfl

theorem civil_eq {d : Date} {era : Int} (h : n < 146097)
    (own : d.dayNumber + 306 = 146097 * era + n) :
    d.civil = civilOfYear (yearOfEra n + era * 400) (n - yearStart (yearOfEra n)) := by
  have unfolded : d.civil =
      let n := ((d.dayNumber + 306) % 146097).toNat
      let era := (d.dayNumber + 306) / 146097
      civilOfYear (yearOfEra n + era * 400) (n - yearStart (yearOfEra n)) := rfl
  have era : (d.dayNumber + 306) / 146097 = era := by omega
  have day : ((d.dayNumber + 306) % 146097).toNat = n := by omega
  rw [unfolded, era, day]

/-- A month starts on its own first day. -/
theorem monthStart_civil (d : Date) : d.monthStart.civil = { d.civil with day := 1 } := by
  have split : ∃ (era : Int) (n : Nat), n < 146097 ∧ d.dayNumber + 306 = 146097 * era + n :=
    ⟨(d.dayNumber + 306) / 146097, ((d.dayNumber + 306) % 146097).toNat, by omega, by omega⟩
  obtain ⟨era, n, small, own⟩ := split
  have start := yearStart_le small
  generalize year : yearOfEra n = y at start
  have civil := civil_eq small own
  rw [year] at civil
  have counted := civilOfYear_day_le (y + era * 400) (n - yearStart y)
  rw [← civil] at counted
  have back : d.monthStart.dayNumber + 306 = 146097 * era + (n - (d.civil.day - 1) : Nat) := by
    simp only [monthStart, addDays]
    omega
  have same : yearOfEra (n - (d.civil.day - 1)) = y := by
    rw [← year]
    apply yearOfEra_back small _ (Nat.sub_le _ _)
    rw [year]
    omega
  have less : n - (d.civil.day - 1) - yearStart y = n - yearStart y - (d.civil.day - 1) := by omega
  rw [civil_eq (by omega) back, same, less, civil]
  exact civilOfYear_back _ _

end Date

/-- A point in time, in microseconds since the start of 0001-01-01. -/
structure Moment where
  ticks : Int
  deriving DecidableEq, Repr

namespace Moment

def ticksPerDay : Int := 86400000000

instance : LE Moment := ⟨fun t u => t.ticks ≤ u.ticks⟩

instance : LT Moment := ⟨fun t u => t.ticks < u.ticks⟩

instance : DecidableLE Moment := fun t u => inferInstanceAs (Decidable (t.ticks ≤ u.ticks))

instance : DecidableLT Moment := fun t u => inferInstanceAs (Decidable (t.ticks < u.ticks))

def startOf (d : Date) : Moment := ⟨d.dayNumber * ticksPerDay⟩

/-- The day that a point in time lies in. -/
def day (t : Moment) : Date := ⟨t.ticks / ticksPerDay⟩

def addDays (t : Moment) (n : Int) : Moment := ⟨t.ticks + n * ticksPerDay⟩

variable {t u : Moment} {d : Date}

theorem not_lt : ¬ t < u ↔ u ≤ t := Int.not_lt

theorem not_le : ¬ t ≤ u ↔ u < t := Int.not_le

/-- A point in time is not before the start of a day just where its own day is not before it. -/
theorem startOf_le : startOf d ≤ t ↔ d.le t.day := by
  have ticks : startOf d ≤ t ↔ d.dayNumber * 86400000000 ≤ t.ticks := Iff.rfl
  simp only [ticks, Date.le_iff, day, ticksPerDay]
  omega

/-- A point in time is before the end of a day just where its own day is not after it. -/
theorem lt_end : t < (startOf d).addDays 1 ↔ t.day.le d := by
  have ticks : t < (startOf d).addDays 1 ↔
      t.ticks < d.dayNumber * 86400000000 + 1 * 86400000000 := Iff.rfl
  simp only [ticks, Date.le_iff, day, ticksPerDay]
  omega

theorem startOf_inj {a b : Date} : startOf a = startOf b ↔ a = b := by
  cases a
  cases b
  simp only [startOf, ticksPerDay, mk.injEq, Date.mk.injEq]
  omega

end Moment

/-! ### Lengths of time as text -/

/-- The number of days that a text such as `1 day` or `14 days` names. -/
def intervalDays? (s : String) : Option Int :=
  match Date.digits s.length s.toList with
  | some (n, rest) =>
    if rest = " day".toList ∨ rest = " days".toList then some n else none
  | none => none

/-- A number in decimal is read to its end. -/
theorem digits_toString (n : Nat) {most : Nat} {rest : List Char}
    (size : (toString n).toList.length ≤ most) (stops : ∀ c ∈ rest.head?, c.isDigit = false) :
    Date.digits most ((toString n).toList ++ rest) = some (n, rest) := by
  have digits : (toString n).toList = Nat.toDigits 10 n := by simp [Nat.repr, toString]
  have all : ∀ c ∈ (toString n).toList, c.isDigit = true := by
    rw [digits]
    exact fun c hc => Nat.isDigit_of_mem_toDigits (by decide) (by decide) hc
  have value : (toString n).toList.foldl (fun n c => 10 * n + (c.toNat - '0'.toNat)) 0 = n := by
    rw [digits]
    exact Nat.ofDigitChars_toDigits (by decide) (by decide)
  have nonempty : (toString n).toList ≠ [] := by
    rw [digits]
    exact Nat.toDigits_ne_nil
  have run : (((toString n).toList ++ rest).take most).takeWhile Char.isDigit =
      (toString n).toList := by
    rw [List.take_append, List.take_of_length_le size, List.takeWhile_append_of_pos all]
    have stopped : (rest.take (most - (toString n).toList.length)).takeWhile Char.isDigit = [] := by
      cases rest with
      | nil => simp
      | cons c rest =>
          have own := stops c rfl
          cases most - (toString n).toList.length with
          | zero => rfl
          | succ _ => simp [own]
    rw [stopped, List.append_nil]
  simp only [Date.digits, run, List.isEmpty_iff, nonempty, if_false, value, List.drop_left]

theorem intervalDays?_days (n : Nat) : intervalDays? (toString n ++ " days") = some (n : Int) := by
  have size : (toString n).toList.length ≤ (toString n ++ " days").length := by
    rw [String.length_append]
    exact Nat.le_add_right _ _
  have stops : ∀ c ∈ (" days".toList).head?, c.isDigit = false := by simp
  rw [intervalDays?, String.toList_append, digits_toString n size stops]
  simp

end ReportSql
