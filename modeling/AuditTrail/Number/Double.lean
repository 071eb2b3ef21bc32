/-
Floating-point numbers of 64 bits, as values: a sign, a significand and a power of two, with both
infinities and an undefined value beside them. Every operation computes the exact rational result
first and rounds it once, to the nearest representable value and to the even one of two nearest.
-/
import AuditTrail.Text.Digit

namespace AuditTrail

/-- A floating-point number. A finite one is `significand * 2 ^ exponent`, with the sign kept
apart so that zero has two forms. -/
inductive Double where
  | nan
  | infinite (negative : Bool)
  | finite (negative : Bool) (significand : Nat) (exponent : Int)
  deriving DecidableEq, Repr, Inhabited

namespace Double

/-- The number of bits of a significand. -/
def precision : Nat := 53

/-- The power of two of the smallest positive number. -/
def minExponent : Int := -1074

/-- The largest power of two of a finite number. -/
def maxExponent : Int := 971

/-- The quotient of two natural numbers rounded to the nearest, to the even one of two nearest. -/
def roundQuotient (num den : Nat) : Nat :=
  let q := num / den
  let twice := 2 * (num % den)
  if twice < den then q
  else if den < twice then q + 1
  else q + q % 2

/-- The power of two at which the significand of `num / den` has `precision` bits, or
`minExponent` if that is higher. -/
def exponentFor (num den : Nat) : Int :=
  let guess : Int := (Nat.log2 num : Int) - (Nat.log2 den : Int) - 52
  -- the quotient lies between 2 ^ (guess + 51) and 2 ^ (guess + 53)
  let reaches :=
    if 0 ≤ guess + 52 then decide (den * Nat.pow 2 (guess + 52).toNat ≤ num)
    else decide (den ≤ num * Nat.pow 2 (-(guess + 52)).toNat)
  let e := if reaches then guess else guess - 1
  if e < minExponent then minExponent else e

/-- The finite number `significand * 2 ^ exponent`, or infinity if it is out of range. A carry
out of the significand moves to the exponent. -/
def pack (negative : Bool) (significand : Nat) (exponent : Int) : Double :=
  let (m, e) :=
    if significand = Nat.pow 2 precision then (Nat.pow 2 (precision - 1), exponent + 1)
    else (significand, exponent)
  if maxExponent < e then .infinite negative else .finite negative m e

/-- The number nearest to `num / den`, with a sign. -/
def ofRatio (negative : Bool) (num den : Nat) : Double :=
  if num = 0 then .finite negative 0 minExponent
  else
    let e := exponentFor num den
    let m :=
      if 0 ≤ e then roundQuotient num (den * Nat.pow 2 e.toNat)
      else roundQuotient (num * Nat.pow 2 (-e).toNat) den
    pack negative m e

/-- The number nearest to an integer. -/
def ofInt (n : Int) : Double := ofRatio (decide (n < 0)) n.natAbs 1

/-- Positive zero. -/
def zero : Double := .finite false 0 minExponent

/-- The exact value of a finite number, as a fraction with a sign in its numerator. -/
def fraction? : Double → Option (Int × Nat)
  | .finite negative m e =>
    let signed (n : Nat) : Int := if negative then -n else n
    if 0 ≤ e then some (signed (m * Nat.pow 2 e.toNat), 1)
    else some (signed m, Nat.pow 2 (-e).toNat)
  | _ => none

/-- Whether a number is one of the two zeros. -/
def isZero : Double → Bool
  | .finite _ 0 _ => true
  | _ => false

/-- The sign of a number; an undefined one has none. -/
def isNegative : Double → Bool
  | .nan => false
  | .infinite negative => negative
  | .finite negative _ _ => negative

/-- The number with the opposite sign. -/
def neg : Double → Double
  | .nan => .nan
  | .infinite negative => .infinite !negative
  | .finite negative m e => .finite (!negative) m e

/-- The sum of two numbers. -/
def add : Double → Double → Double
  | .nan, _ | _, .nan => .nan
  | .infinite a, .infinite b => if a = b then .infinite a else .nan
  | .infinite a, _ | _, .infinite a => .infinite a
  | .finite na ma ea, .finite nb mb eb =>
    let low := min ea eb
    let scaled (negative : Bool) (m : Nat) (e : Int) : Int :=
      let n : Int := m * Nat.pow 2 (e - low).toNat
      if negative then -n else n
    let sum := scaled na ma ea + scaled nb mb eb
    if sum = 0 then .finite (na && nb) 0 minExponent
    else if 0 ≤ low then ofRatio (decide (sum < 0)) (sum.natAbs * Nat.pow 2 low.toNat) 1
    else ofRatio (decide (sum < 0)) sum.natAbs (Nat.pow 2 (-low).toNat)

/-- The product of two numbers. -/
def mul : Double → Double → Double
  | .nan, _ | _, .nan => .nan
  | .infinite a, y =>
    if y.isZero then .nan else .infinite (a != y.isNegative)
  | x, .infinite b => if x.isZero then .nan else .infinite (x.isNegative != b)
  | .finite na ma ea, .finite nb mb eb =>
    let e := ea + eb
    if 0 ≤ e then ofRatio (na != nb) (ma * mb * Nat.pow 2 e.toNat) 1
    else ofRatio (na != nb) (ma * mb) (Nat.pow 2 (-e).toNat)

/-- Whether two numbers compare equal: the zeros do, an undefined number equals nothing. -/
def equals : Double → Double → Bool
  | .nan, _ | _, .nan => false
  | .infinite a, .infinite b => a == b
  | .finite na ma ea, .finite nb mb eb =>
    if ma = 0 ∨ mb = 0 then ma == mb else na == nb && ma == mb && ea == eb
  | _, _ => false

/-- Whether a number equals an integer. -/
def equalsInt (x : Double) (n : Int) : Bool :=
  match x.fraction? with
  | some (num, den) => num == n * den
  | none => false

/-- The integer that a finite number equals, if it equals one. -/
def toInt? (x : Double) : Option Int :=
  match x.fraction? with
  | some (num, den) => if num % den = 0 then some (num / den) else none
  | none => none

-- ==================================================== shortest text

/-- The decimal digits of a positive number and the power of ten of the point in front of them:
the value is `0.d₁d₂… * 10 ^ point`. -/
structure Digits where
  digits : Text
  point : Int
  deriving DecidableEq, Repr

/-- The power of ten below which a positive fraction lies: `10 ^ (p - 1) ≤ num / den < 10 ^ p`. -/
def pointOf (num den : Nat) : Int :=
  let guess : Int := ((Nat.log2 num : Int) - (Nat.log2 den : Int)) * 30103 / 100000
  let below (p : Int) : Bool :=
    if 0 ≤ p then decide (num < den * Nat.pow 10 p.toNat)
    else decide (num * Nat.pow 10 (-p).toNat < den)
  -- the guess is off by at most two
  if below (guess - 1) then guess - 1
  else if below guess then guess
  else if below (guess + 1) then guess + 1
  else guess + 2

/-- The number nearest to `d * 10 ^ e`. -/
def ofDecimal (negative : Bool) (d : Nat) (e : Int) : Double :=
  if 0 ≤ e then ofRatio negative (d * Nat.pow 10 e.toNat) 1
  else ofRatio negative d (Nat.pow 10 (-e).toNat)

/-- Of the two multiples of `10 ^ e` around `num / den`, the one that reads back as `x`; of two
such the nearer, of two equally near the even one. -/
def neighbour? (x : Double) (num den : Nat) (e : Int) : Option Nat :=
  let (num, den) :=
    if 0 ≤ e then (num, den * Nat.pow 10 e.toNat) else (num * Nat.pow 10 (-e).toNat, den)
  let low := num / den
  let lowReads := decide (0 < low) && ofDecimal false low e == x
  let highReads := ofDecimal false (low + 1) e == x
  if lowReads && highReads then some (roundQuotient num den)
  else if lowReads then some low
  else if highReads then some (low + 1)
  else none

/-- The shortest decimal that reads back as the positive number `x = num / den`, tried with
`count` digits and then with more, as long as `fuel` lasts. -/
def shortestWithin (x : Double) (num den : Nat) (point : Int) : Nat → Nat → Nat × Int
  | 0, count => (num / den, point - count)
  | fuel + 1, count =>
    match neighbour? x num den (point - count) with
    | some d => (d, point - count)
    | none => shortestWithin x num den point fuel (count + 1)

/-- The digits of the shortest decimal that reads back as a positive finite number, without
zeros at its end. -/
def shortest (m : Nat) (e : Int) : Digits :=
  let (num, den) := if 0 ≤ e then (m * Nat.pow 2 e.toNat, 1) else (m, Nat.pow 2 (-e).toNat)
  let (d, scale) := shortestWithin (.finite false m e) num den (pointOf num den) 17 1
  let digits := Text.ofNat d
  let kept := (digits.reverse.dropWhile (· == '0')).reverse
  ⟨kept, scale + digits.length⟩

/-- How a positive number with the given digits is written: positional between `10 ^ -4` and
`10 ^ 16`, with at least one digit after the point, otherwise with an exponent of at least two
digits. -/
def Digits.toText (d : Digits) : Text :=
  let n : Int := d.digits.length
  if -4 < d.point ∧ d.point ≤ 16 then
    if d.point ≤ 0 then
      '0' :: '.' :: List.replicate (-d.point).toNat '0' ++ d.digits
    else if d.point < n then
      d.digits.take d.point.toNat ++ '.' :: d.digits.drop d.point.toNat
    else
      d.digits ++ List.replicate (d.point - n).toNat '0' ++ ['.', '0']
  else
    let exponent := d.point - 1
    let head :=
      match d.digits with
      | [] => []
      | [a] => [a]
      | a :: rest => a :: '.' :: rest
    head ++ 'e' :: (if exponent < 0 then '-' else '+') :: Text.ofNatPadded 2 exponent.natAbs

/-- The shortest text that reads back as the number. -/
def toText : Double → Text
  | .nan => "nan".toList
  | .infinite negative => if negative then "-inf".toList else "inf".toList
  | .finite negative m e =>
    let body := if m = 0 then "0.0".toList else (shortest m e).toText
    if negative then '-' :: body else body

end Double

end AuditTrail
