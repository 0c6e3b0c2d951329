/-!
Sets of characters given by ranges of code points. The tables of character properties are
values of this type.
-/

namespace ReportSql.Text

/-- A set of characters, as ascending ranges of code points with both ends in the range. -/
structure CharSet where
  ranges : List (Nat × Nat)

/-- Whether a code point lies in one of some ascending ranges. -/
def inRanges : List (Nat × Nat) → Nat → Bool
  | [], _ => false
  | (low, high) :: rest, n => if n < low then false else n ≤ high || inRanges rest n

def CharSet.contains (s : CharSet) (c : Char) : Bool := inRanges s.ranges c.toNat

end ReportSql.Text
