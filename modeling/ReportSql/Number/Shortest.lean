import ReportSql.Number.Binary64

/-!
The shortest decimal text of a binary number: the fewest digits that read back as the number,
and of those the nearest to it. It is positional from `10 ^ -5` to below `10 ^ 16`.
-/

namespace ReportSql.Binary64

/-- Digits and a power of ten. -/
structure Decimal where
  digits : Nat
  exponent : Int
  deriving DecidableEq, Repr

/-- The numbers between which all reals round to a finite number, as multiples of a quarter of
its unit, and whether the two ends do too. -/
structure Interval where
  low : Nat
  high : Nat
  closed : Bool

/-- The lower neighbour of a power of two is nearer than the upper one. -/
def interval (significand : Nat) (exponent : Int) : Interval where
  low := if significand == powerOfTwo 52 && exponent > minExponent then 4 * significand - 1
    else 4 * significand - 2
  high := 4 * significand + 2
  closed := significand % 2 == 0

/-- Compares `a * 2 ^ e` with `b * 10 ^ p`. -/
def compareScaled (a : Nat) (e : Int) (b : Nat) (p : Int) : Ordering :=
  compare (a * powerOfTwo e.toNat * powerOfTen (-p).toNat)
    (b * powerOfTen p.toNat * powerOfTwo (-e).toNat)

/-- Whether `b * 10 ^ p` rounds to the number with the given interval. -/
def Interval.contains (i : Interval) (e : Int) (b : Nat) (p : Int) : Bool :=
  match compareScaled i.low (e - 2) b p, compareScaled i.high (e - 2) b p with
  | .lt, .gt => true
  | .eq, _ | _, .eq => i.closed
  | _, _ => false

/-- The largest multiple of `10 ^ p` that is not above `m * 2 ^ e`. -/
def floorOnGrid (m : Nat) (e p : Int) : Nat :=
  m * powerOfTwo e.toNat * powerOfTen (-p).toNat / (powerOfTen p.toNat * powerOfTwo (-e).toNat)

/-- The power of ten that the first digit of `m * 2 ^ e` counts. -/
def leadingPower (m : Nat) (e : Int) : Int :=
  let guess := ((m.log2 : Int) + e) * 30103 / 100000
  if compareScaled m e 1 (guess + 1) != .lt then guess + 1
  else if compareScaled m e 1 guess != .lt then guess
  else guess - 1

/-- The nearer of the two neighbours on a grid, of those that read back. -/
def onGrid (m : Nat) (e : Int) (p : Int) : Option Decimal :=
  let i := interval m e
  let below := floorOnGrid m e p
  let above := below + 1
  match i.contains e below p, i.contains e above p with
  | true, false => some ⟨below, p⟩
  | false, true => some ⟨above, p⟩
  | false, false => none
  | true, true =>
    match compareScaled (2 * m) e (below + above) p with
    | .lt => some ⟨below, p⟩
    | .gt => some ⟨above, p⟩
    | .eq => some ⟨if below % 2 == 0 then below else above, p⟩

/-- Seventeen digits always suffice. -/
def shortestFrom (m : Nat) (e : Int) (leading : Int) : Nat → Decimal
  | 0 => ⟨floorOnGrid m e (leading - 16), leading - 16⟩
  | n + 1 =>
    match onGrid m e (leading - (16 - n)) with
    | some d => d
    | none => shortestFrom m e leading n

/-- Without the zeros at the end of the digits. -/
def Decimal.normalWithin : Nat → Decimal → Decimal
  | 0, d => d
  | n + 1, d =>
    if d.digits % 10 == 0 && d.digits != 0 then normalWithin n ⟨d.digits / 10, d.exponent + 1⟩
    else d

def shortest (m : Nat) (e : Int) : Decimal :=
  (shortestFrom m e (leadingPower m e) 17).normalWithin 20

def Decimal.text (d : Decimal) : String :=
  let digits := toString d.digits
  let count : Int := digits.length
  let point := count + d.exponent
  if 0 ≤ d.exponent && point ≤ 16 then
    digits ++ String.ofList (List.replicate d.exponent.toNat '0') ++ ".0"
  else if 0 < point && point ≤ 16 then
    String.ofList (digits.toList.take point.toNat) ++ "."
      ++ String.ofList (digits.toList.drop point.toNat)
  else if -5 < point && point ≤ 0 then
    "0." ++ String.ofList (List.replicate (-point).toNat '0') ++ digits
  else
    let power := toString (point - 1)
    match digits.toList with
    | [c] => c.toString ++ "e" ++ power
    | c :: rest => c.toString ++ "." ++ String.ofList rest ++ "e" ++ power
    | [] => ""

/-- The text of a finite number. -/
def finiteText (negative : Bool) (m : Nat) (e : Int) : String :=
  (if negative then "-" else "") ++ if m == 0 then "0.0" else (shortest m e).text

end ReportSql.Binary64
