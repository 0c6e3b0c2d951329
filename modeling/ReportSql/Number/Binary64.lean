/-!
Binary floating-point numbers of 64 bits. A finite number is a significand below `2 ^ 53` times a
power of two. Decimal text is read to the nearest number, an exact tie going to the even
significand.
-/

namespace ReportSql

inductive Binary64 where
  /-- `significand * 2 ^ exponent`, negated or not. -/
  | finite (negative : Bool) (significand : Nat) (exponent : Int)
  | infinite (negative : Bool)
  | nan
  deriving DecidableEq, Repr

namespace Binary64

/-- The exponent of the smallest positive number. -/
def minExponent : Int := -1074

def maxExponent : Int := 971

def isFinite : Binary64 → Bool
  | finite _ _ _ => true
  | _ => false

/-- `2 ^ n` -/
def powerOfTwo (n : Nat) : Nat := Nat.pow 2 n

/-- `10 ^ n` -/
def powerOfTen (n : Nat) : Nat := Nat.pow 10 n

/-- The quotient rounded to the nearest natural number, a half to the even one. -/
def roundQuotient (num den : Nat) : Nat :=
  let q := num / den
  let r := 2 * (num % den)
  if r < den || (r == den && q % 2 == 0) then q else q + 1

/-- `num / (den * 2 ^ e)`, rounded. -/
def scaledQuotient (num den : Nat) (e : Int) : Nat :=
  if e ≥ 0 then roundQuotient num (den * powerOfTwo e.toNat)
  else roundQuotient (num * powerOfTwo (-e).toNat) den

/-- The number nearest to a quotient of natural numbers. -/
def ofQuotient (negative : Bool) (num den : Nat) : Binary64 :=
  if num == 0 then finite negative 0 minExponent
  else
    let size : Int := (num.log2 : Int) - den.log2
    -- the quotient lies between `2 ^ (size - 1)` and `2 ^ (size + 1)`
    let below : Bool :=
      if size ≥ 0 then num < den * powerOfTwo size.toNat else num * powerOfTwo (-size).toNat < den
    let e := max ((if below then size - 1 else size) - 52) minExponent
    let m := scaledQuotient num den e
    let (m, e) := if m == powerOfTwo 53 then (powerOfTwo 52, e + 1) else (m, e)
    if e > maxExponent then infinite negative else finite negative m e

/-- `digits * 10 ^ exponent`. Far outside the range the digits make no difference. -/
def ofDecimal (negative : Bool) (digits : Nat) (exponent : Int) : Binary64 :=
  let size : Int := (toString digits).length + exponent
  if digits == 0 || size < -400 then finite negative 0 minExponent
  else if size > 400 then infinite negative
  else if exponent ≥ 0 then ofQuotient negative (digits * powerOfTen exponent.toNat) 1
  else ofQuotient negative digits (powerOfTen (-exponent).toNat)

/-! ### Reading -/

def digitsValue (s : List Char) : Nat := s.foldl (fun n c => 10 * n + (c.toNat - '0'.toNat)) 0

/-- The exponent that an `e` announces; zero where the text ends before it. -/
def readExponent : List Char → Option Int
  | [] => some 0
  | c :: rest =>
    if c == 'e' || c == 'E' then
      let (negative, digits) := match rest with
        | '-' :: r => (true, r)
        | '+' :: r => (false, r)
        | r => (false, r)
      if digits.isEmpty || !digits.all Char.isDigit then none
      else
        let n : Int := digitsValue digits
        some (if negative then -n else n)
    else none

def readUnsigned (negative : Bool) (s : List Char) : Option Binary64 :=
  let lowered := String.ofList (s.map Char.toLower)
  if lowered == "nan" then some nan
  else if lowered == "inf" || lowered == "infinity" then some (infinite negative)
  else
    let whole := s.takeWhile Char.isDigit
    let rest := s.dropWhile Char.isDigit
    let (fraction, rest) := match rest with
      | '.' :: r => (r.takeWhile Char.isDigit, r.dropWhile Char.isDigit)
      | r => ([], r)
    if whole.isEmpty && fraction.isEmpty then none
    else (readExponent rest).map fun e =>
      ofDecimal negative (digitsValue (whole ++ fraction)) (e - fraction.length)

/-- The number nearest to a decimal text. -/
def read? (s : String) : Option Binary64 :=
  match s.toList with
  | '-' :: r => readUnsigned true r
  | '+' :: r => readUnsigned false r
  | r => readUnsigned false r

end Binary64

end ReportSql
