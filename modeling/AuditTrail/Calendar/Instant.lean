/-
Instants in microseconds since the beginning of 1970, and the texts of records: date and time of
day in universal time, cut to milliseconds. An instant has such a text if its year lies between 1
and 9999. `ofSeconds` takes the time in seconds, as a floating-point number or an integer.
-/
import AuditTrail.Calendar.Date
import AuditTrail.Number.Double

namespace AuditTrail

/-- A point in time, in microseconds since the beginning of 1970 in universal time. -/
structure Instant where
  micros : Int
  deriving DecidableEq, Repr, Inhabited

/-- A time of day. -/
structure TimeOfDay where
  hour : Nat
  minute : Nat
  second : Nat
  micro : Nat
  deriving DecidableEq, Repr, Inhabited

/-- The first of the parts that is out of its range. -/
def TimeOfDay.check (t : TimeOfDay) : Except Date.Error Unit :=
  if 23 < t.hour then .error .hour
  else if 59 < t.minute then .error .minute
  else if 59 < t.second then .error .second
  else .ok ()

/-- The microseconds since midnight. -/
def TimeOfDay.toMicros (t : TimeOfDay) : Int :=
  (((t.hour * 60 + t.minute) * 60 + t.second) * 1000000 + t.micro : Nat)

/-- The time of day that lies some microseconds after midnight. -/
def TimeOfDay.ofMicros (n : Nat) : TimeOfDay :=
  ⟨n / 3600000000, n / 60000000 % 60, n / 1000000 % 60, n % 1000000⟩

/-- The hours, minutes and seconds as `HH:MM:SS`. -/
def TimeOfDay.clockText (t : TimeOfDay) : Text :=
  Text.ofNatPadded 2 t.hour ++ ':' :: Text.ofNatPadded 2 t.minute ++
    ':' :: Text.ofNatPadded 2 t.second

namespace Instant

/-- The microseconds of a day. -/
def microsPerDay : Int := 86400000000

/-- The instant of a date and a time of day in universal time. -/
def ofParts (d : Date) (t : TimeOfDay) : Instant := ⟨d.toDayNumber * microsPerDay + t.toMicros⟩

/-- The date on which an instant falls. -/
def date (i : Instant) : Date := Date.ofDayNumber (i.micros.fdiv microsPerDay)

/-- The time of day at which an instant falls. -/
def timeOfDay (i : Instant) : TimeOfDay := TimeOfDay.ofMicros (i.micros.fmod microsPerDay).toNat

/-- The first instant of year 1. -/
def first : Instant := ofParts ⟨1, 1, 1⟩ ⟨0, 0, 0, 0⟩

/-- The last instant of year 9999. -/
def last : Instant := ofParts ⟨9999, 12, 31⟩ ⟨23, 59, 59, 999999⟩

/-- Whether an instant falls into the years 1 to 9999. -/
def inRange (i : Instant) : Bool :=
  decide (first.micros ≤ i.micros) && decide (i.micros ≤ last.micros)

/-- The text of an instant: `YYYY-MM-DDTHH:MM:SS.mmm+00:00`, without the microseconds below a
millisecond. -/
def toText (i : Instant) : Text :=
  let t := i.timeOfDay
  i.date.toText ++ 'T' :: t.clockText ++ '.' :: Text.ofNatPadded 3 (t.micro / 1000) ++
    "+00:00".toList

/-- Why a number of seconds is no instant. -/
inductive Error where
  /-- The number is undefined. -/
  | undefined
  /-- The number of seconds does not fit into 64 bits. -/
  | tooFar
  /-- The year does not fit into the calendar of the system. -/
  | yearOverflow
  /-- The year lies outside 1 to 9999. -/
  | date (e : Date.Error)
  deriving DecidableEq, Repr

/-- The wording of an error. -/
def Error.message : Error → Text
  | .undefined => "Invalid value NaN (not a number)".toList
  | .tooFar => "timestamp out of range for platform time_t".toList
  | .yearOverflow => "[Errno 75] Value too large for defined data type".toList
  | .date e => e.message

/-- The instant of whole seconds and some microseconds, if its year has a text. A year is told in
32 bits, in which the largest ones wrap round. -/
def ofWholeSeconds (seconds : Int) (micros : Nat) : Except Error Instant :=
  let i : Instant := ⟨seconds * 1000000 + micros⟩
  if seconds < -(Nat.pow 2 63 : Int) ∨ Nat.pow 2 63 ≤ seconds then .error .tooFar
  else
    let year := i.date.year
    if year - 1900 < -(Nat.pow 2 31 : Int) ∨ Nat.pow 2 31 ≤ year - 1900 then .error .yearOverflow
    else if year < 1 ∨ 9999 < year then .error (.date (.year (year.bmod (Nat.pow 2 32))))
    else .ok i

/-- An integer fraction rounded to the nearest integer, to the even one of two nearest. -/
def roundFraction (num : Int) (den : Nat) : Int :=
  if num < 0 then -(Double.roundQuotient num.natAbs den : Int)
  else Double.roundQuotient num.natAbs den

/-- The instant of a floating-point number of seconds. The part below one second is multiplied by
a million in floating point, then rounded to whole microseconds. -/
def ofSeconds (x : Double) : Except Error Instant :=
  match x, x.fraction? with
  | .nan, _ => .error .undefined
  | _, none => .error .tooFar
  | _, some (num, den) =>
    let whole := num.tdiv den
    let part := num.tmod den
    let scaled := (Double.ofRatio (decide (part < 0)) part.natAbs den).mul (Double.ofInt 1000000)
    let micros : Int :=
      match scaled.fraction? with
      | some (n, d) => roundFraction n d
      | none => 0
    if 1000000 ≤ micros then ofWholeSeconds (whole + 1) (micros - 1000000).toNat
    else if micros < 0 then ofWholeSeconds (whole - 1) (micros + 1000000).toNat
    else ofWholeSeconds whole micros.toNat

/-- A time in microseconds as a floating-point number of seconds: the whole seconds plus the
product of the nanoseconds with the number nearest to a thousand-millionth. -/
def toSeconds (i : Instant) : Double :=
  let nanos := i.micros.fmod 1000000 * 1000
  (Double.ofInt (i.micros.fdiv 1000000)).add
    ((Double.ofDecimal false 1 (-9)).mul (Double.ofInt nanos))

end Instant

/-- A date and time of day as written, with the offset from universal time in microseconds if one
was given. -/
structure DateTime where
  date : Date
  time : TimeOfDay
  offset : Option Int
  deriving DecidableEq, Repr, Inhabited

namespace DateTime

/-- The instant of a date and time; without an offset it is taken as universal time. -/
def toInstant (d : DateTime) : Instant :=
  ⟨(Instant.ofParts d.date d.time).micros - d.offset.getD 0⟩

/-- The instant of a date and time, if universal time stays within the years 1 to 9999. A time
without an offset is compared with the one a day earlier, for a change of the clocks in between;
on the first day of year 1 there is none. -/
def toInstant? (d : DateTime) : Except Date.Error Instant :=
  if d.offset.isNone && !(Instant.mk (d.toInstant.micros - Instant.microsPerDay)).inRange then
    .error (.year 0)
  else if d.toInstant.inRange then .ok d.toInstant
  else .error .outOfRange

/-- An offset as `+HH:MM`, with seconds and microseconds if there are any. -/
def offsetText (offset : Int) : Text :=
  let n := offset.natAbs
  let t := TimeOfDay.ofMicros n
  let fraction := if t.micro = 0 then [] else '.' :: Text.ofNatPadded 6 t.micro
  let seconds := if n % 60000000 = 0 then [] else ':' :: Text.ofNatPadded 2 t.second ++ fraction
  (if offset < 0 then '-' else '+') :: Text.ofNatPadded 2 t.hour ++
    ':' :: Text.ofNatPadded 2 t.minute ++ seconds

/-- The date and time with a separator between them; microseconds and offset only if present. -/
def toText (d : DateTime) (separator : Char) : Text :=
  let fraction := if d.time.micro = 0 then [] else '.' :: Text.ofNatPadded 6 d.time.micro
  let offset :=
    match d.offset with
    | some o => offsetText o
    | none => []
  d.date.toText ++ separator :: d.time.clockText ++ fraction ++ offset

-- ==================================================== reading

/-- Two decimal digits as a number. -/
def twoDigits? (a b : Char) : Option Nat :=
  if a.isDigit && b.isDigit then some ((a.toNat - 0x30) * 10 + (b.toNat - 0x30)) else none

/-- Reads `HH:MM` with optional seconds: the hours, minutes and seconds, and what follows. -/
def readClock? : Text → Option (Nat × Nat × Nat × Text)
  | a :: b :: ':' :: c :: d :: ':' :: e :: f :: rest => do
    some (← twoDigits? a b, ← twoDigits? c d, ← twoDigits? e f, rest)
  | a :: b :: ':' :: c :: d :: rest => do some (← twoDigits? a b, ← twoDigits? c d, 0, rest)
  | _ => none

/-- Reads the digits after a point as microseconds; digits beyond the sixth are dropped. -/
def readFraction : Text → Nat × Text
  | '.' :: rest =>
    let digits := (rest.takeWhile Char.isDigit).take 6
    let micros := digits.foldl (fun n c => n * 10 + (c.toNat - 0x30)) 0
    (micros * Nat.pow 10 (6 - digits.length), rest.dropWhile Char.isDigit)
  | s => (0, s)

/-- Reads an offset from universal time, which may be missing. -/
def readOffset? : Text → Option (Option Int)
  | [] => some none
  | ['Z'] => some (some 0)
  | c :: rest =>
    if c = '+' ∨ c = '-' then
      match readClock? rest with
      | some (h, m, s, rest) =>
        let (micro, rest) := readFraction rest
        let n : Int := (((h * 60 + m) * 60 + s) * 1000000 + micro : Nat)
        if rest.isEmpty then some (some (if c = '-' then -n else n)) else none
      | none => none
    else none

/-- Reads `YYYY-MM-DDTHH:MM` with optional seconds, fraction and offset. -/
def read? : Text → Option DateTime
  | a :: b :: c :: d :: '-' :: e :: f :: '-' :: g :: h :: separator :: rest => do
    let century ← twoDigits? a b
    let year ← twoDigits? c d
    let date : Date := ⟨(century * 100 + year : Nat), ← twoDigits? e f, ← twoDigits? g h⟩
    if separator = 'T' ∨ separator = ' ' then
      let (hour, minute, second, rest) ← readClock? rest
      let (micro, rest) := readFraction rest
      let offset ← readOffset? rest
      some ⟨date, ⟨hour, minute, second, micro⟩, offset⟩
    else none
  | _ => none

end DateTime

/-- Reads `YYYY-MM-DD`. -/
def Date.read? : Text → Option Date
  | [a, b, c, d, '-', e, f, '-', g, h] => do
    let century ← DateTime.twoDigits? a b
    let year ← DateTime.twoDigits? c d
    some ⟨(century * 100 + year : Nat), ← DateTime.twoDigits? e f, ← DateTime.twoDigits? g h⟩
  | _ => none

end AuditTrail
