/-
Numerals: how a text is read as an integer in some base or as a floating-point number. White space
around the numeral is allowed, a digit may come from any script, and single underscores may
separate digits.
-/
import AuditTrail.Number.Double
import AuditTrail.Text.Blank
import AuditTrail.Text.Hex
import AuditTrail.Text.Quoted

namespace AuditTrail.Numeral

/-- The most decimal digits that an integer may have when it is read or written. -/
def digitLimit : Nat := 4300

/-- Why a text is no numeral. -/
inductive Error where
  /-- The text is no integer in that base. -/
  | notInteger (base : Nat) (text : Text)
  /-- The integer has that many decimal digits, more than may be read. -/
  | tooManyDigits (count : Nat)
  /-- The text is no floating-point number. -/
  | notDouble (text : Text)
  deriving DecidableEq, Repr

/-- How many characters of a quoted text a complaint about an integer shows. -/
def shownLength : Nat := 200

/-- The wording of an error. -/
def Error.message : Error → Text
  | .notInteger base text =>
    "invalid literal for int() with base ".toList ++ Text.ofNat base ++ ": ".toList ++
      (Text.quoted text).take shownLength
  | .tooManyDigits count =>
    "Exceeds the limit (4300 digits) for integer string conversion: value has ".toList ++
      Text.ofNat count ++
      " digits; use sys.set_int_max_str_digits() to increase the limit".toList
  | .notDouble text => "could not convert string to float: ".toList ++ Text.quoted text

/-- A text without its sign, and whether the sign is a minus. -/
def splitSign : Text → Bool × Text
  | '-' :: rest => (true, rest)
  | '+' :: rest => (false, rest)
  | s => (false, s)

/-- Whether every underscore stands between two characters that satisfy `p`; `before` says that
the character read last does. -/
def underscoresSeparate (p : Char → Bool) : Bool → Text → Bool
  | _, [] => true
  | before, '_' :: c :: rest => before && p c && underscoresSeparate p true rest
  | _, ['_'] => false
  | _, c :: rest => underscoresSeparate p (p c) rest

/-- The value of a digit in bases up to sixteen, in any script. -/
def digitIn? (base : Nat) (c : Char) : Option Nat :=
  let value :=
    match Text.digitValue? c with
    | some n => some n
    | none => Text.hexValue? c
  value.bind fun n => if n < base then some n else none

/-- The number that a run of digits denotes. -/
def digitsValue? (base : Nat) (s : Text) : Option Nat :=
  s.foldl (fun acc c => acc.bind fun n => (digitIn? base c).map (base * n + ·)) (some 0)

/-- The letters that may announce a base after a zero. -/
def baseLetters (base : Nat) : Text :=
  if base = 16 then ['x', 'X'] else if base = 8 then ['o', 'O']
  else if base = 2 then ['b', 'B'] else []

/-- The digits of a numeral without the letters that announce its base. -/
def dropBaseLetters (base : Nat) : Text → Text
  | '0' :: c :: rest =>
    if (baseLetters base).contains c then
      match rest with
      | '_' :: more => more
      | more => more
    else '0' :: c :: rest
  | s => s

/-- Reads an integer in a base. -/
def readInt (base : Nat) (text : Text) : Except Error Int :=
  let (negative, body) := splitSign (Text.trim text)
  let digits := dropBaseLetters base body
  let plain := digits.filter (· != '_')
  let isDigit c := (digitIn? base c).isSome
  if plain.isEmpty || !underscoresSeparate isDigit false digits then
    .error (.notInteger base text)
  else
    match digitsValue? base plain with
    | none => .error (.notInteger base text)
    | some n =>
      if base = 10 ∧ digitLimit < plain.length then .error (.tooManyDigits plain.length)
      else .ok (if negative then -n else n)

/-- A character with a digit of another script replaced by the digit of the same value. -/
def asciiDigit (c : Char) : Char :=
  match Text.digitValue? c with
  | some n => Char.ofNat (0x30 + n)
  | none => c

/-- The exponent after the letter that announces it: a sign and at least one digit. -/
def readExponent? (s : Text) : Option Int :=
  let (negative, digits) := splitSign s
  if digits.isEmpty then none
  else (digitsValue? 10 digits).map fun n => if negative then -n else n

/-- The number `whole.fraction * 10 ^ exponent`, with a bound on exponents that cannot matter. -/
def ofParts (negative : Bool) (whole fraction : Text) (exponent : Int) : Double :=
  let d := (digitsValue? 10 (whole ++ fraction)).getD 0
  let scale := exponent - fraction.length
  let reach : Int := (whole ++ fraction).length
  if d = 0 then .finite negative 0 Double.minExponent
  else if 400 < scale then .infinite negative
  else if scale < -400 - reach then .finite negative 0 Double.minExponent
  else Double.ofDecimal negative d scale

/-- Reads an unsigned decimal: digits, a point, more digits, an exponent. -/
def readDecimal? (negative : Bool) (s : Text) : Option Double :=
  let whole := s.takeWhile Text.isAsciiDigit
  let s := s.dropWhile Text.isAsciiDigit
  let (fraction, s) :=
    match s with
    | '.' :: rest => (rest.takeWhile Text.isAsciiDigit, rest.dropWhile Text.isAsciiDigit)
    | s => ([], s)
  if whole.isEmpty && fraction.isEmpty then none
  else
    match s with
    | [] => some (ofParts negative whole fraction 0)
    | c :: rest =>
      if c = 'e' ∨ c = 'E' then
        (readExponent? rest).map fun e => ofParts negative whole fraction e
      else none

/-- Reads a floating-point number: a decimal, or the name of infinity or of the undefined number in
any letter case. -/
def readDouble (text : Text) : Except Error Double :=
  let s := (Text.trim text).map asciiDigit
  if !underscoresSeparate Text.isAsciiDigit false s then .error (.notDouble text)
  else
    let (negative, body) := splitSign (s.filter (· != '_'))
    let name := body.map Char.toLower
    if name = "inf".toList ∨ name = "infinity".toList then .ok (.infinite negative)
    else if name = "nan".toList then .ok .nan
    else
      match readDecimal? negative body with
      | some x => .ok x
      | none => .error (.notDouble text)

end AuditTrail.Numeral
