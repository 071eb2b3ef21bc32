/-
Days of the proleptic Gregorian calendar. A date is a year, a month and a day of the month; a day
number counts the days since 1 January 1970 and may be negative. Both directions count in eras of
400 years, whose 146097 days repeat, and let the year begin in March so that the leap day ends it.
-/
import AuditTrail.Text.Basic

namespace AuditTrail

/-- A day of the calendar. -/
structure Date where
  year : Int
  month : Nat
  day : Nat
  deriving DecidableEq, Repr, Inhabited

namespace Date

/-- Whether a year has a leap day. -/
def isLeap (year : Int) : Bool := year % 4 == 0 && (year % 100 != 0 || year % 400 == 0)

/-- The number of days of a month. -/
def daysInMonth (year : Int) (month : Nat) : Nat :=
  match month with
  | 2 => if isLeap year then 29 else 28
  | 4 | 6 | 9 | 11 => 30
  | _ => 31

/-- The number of days of an era of 400 years. -/
def daysPerEra : Int := 146097

/-- The days from the first day of era zero, 1 March of year 0, to 1 January 1970. -/
def epochOffset : Int := 719468

/-- The day number of a date. -/
def toDayNumber (d : Date) : Int :=
  let year := if d.month ≤ 2 then d.year - 1 else d.year
  let era := year.fdiv 400
  let yearOfEra := year - era * 400
  let monthFromMarch : Int := if d.month ≤ 2 then d.month + 9 else (d.month : Int) - 3
  let dayOfYear := (153 * monthFromMarch + 2) / 5 + d.day - 1
  let dayOfEra := yearOfEra * 365 + yearOfEra / 4 - yearOfEra / 100 + dayOfYear
  era * daysPerEra + dayOfEra - epochOffset

/-- The date of a day number. -/
def ofDayNumber (n : Int) : Date :=
  let shifted := n + epochOffset
  let era := shifted.fdiv daysPerEra
  let dayOfEra := shifted - era * daysPerEra
  let yearOfEra := (dayOfEra - dayOfEra / 1460 + dayOfEra / 36524 - dayOfEra / 146096) / 365
  let dayOfYear := dayOfEra - (365 * yearOfEra + yearOfEra / 4 - yearOfEra / 100)
  let monthFromMarch := (5 * dayOfYear + 2) / 153
  let day := dayOfYear - (153 * monthFromMarch + 2) / 5 + 1
  let month := if monthFromMarch < 10 then monthFromMarch + 3 else monthFromMarch - 9
  let year := yearOfEra + era * 400 + if month ≤ 2 then 1 else 0
  ⟨year, month.toNat, day.toNat⟩

/-- Why numbers make no date or no time of day. -/
inductive Error where
  | year (n : Int)
  | month
  | day
  | hour
  | minute
  | second
  /-- The instant lies before year 1 or after year 9999. -/
  | outOfRange
  deriving DecidableEq, Repr

/-- The wording of an error. -/
def Error.message : Error → Text
  | .year n => "year ".toList ++ Text.ofInt n ++ " is out of range".toList
  | .month => "month must be in 1..12".toList
  | .day => "day is out of range for month".toList
  | .hour => "hour must be in 0..23".toList
  | .minute => "minute must be in 0..59".toList
  | .second => "second must be in 0..59".toList
  | .outOfRange => "date value out of range".toList

/-- The first of the date's parts that is out of its range. -/
def check (d : Date) : Except Error Unit :=
  if d.year < 1 ∨ 9999 < d.year then .error (.year d.year)
  else if d.month < 1 ∨ 12 < d.month then .error .month
  else if d.day < 1 ∨ daysInMonth d.year d.month < d.day then .error .day
  else .ok ()

/-- The date as `YYYY-MM-DD`. -/
def toText (d : Date) : Text :=
  Text.ofNatPadded 4 d.year.toNat ++ '-' :: Text.ofNatPadded 2 d.month ++
    '-' :: Text.ofNatPadded 2 d.day

end Date

end AuditTrail
