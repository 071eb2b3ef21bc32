/-
The values of scalars. A scalar's tag says how its text is read; a text that the tag cannot read is
a fault, whose wording is that of the reader.
-/
import AuditTrail.Text.Lower
import AuditTrail.Yaml.Node

namespace AuditTrail.Yaml.Scalar

/-- A reader's error as a failure. -/
def ofNumeral {α : Type} (r : Except Numeral.Error α) : Result α :=
  match r with
  | .ok x => .ok x
  | .error e => .error (.fault (.numeral e))

/-- A calendar error as a failure. -/
def ofDate {α : Type} (r : Except Date.Error α) : Result α :=
  match r with
  | .ok x => .ok x
  | .error e => .error (.fault (.date e))

/-- A text without underscores, its sign, and the rest; an empty text has no first character. -/
def splitNumber (s : Text) : Result (Bool × Text) :=
  match s.filter (· != '_') with
  | [] => .error (.fault .emptyText)
  | s => .ok (Numeral.splitSign s)

/-- The sum of parts in sixtieths, the last one counted once. -/
def sumSixtieths (parts : List Int) : Int := parts.foldl (fun n part => n * 60 + part) 0

/-- The integer that a text stands for. -/
def readInt (s : Text) : Result Int := do
  let (negative, digits) ← splitNumber s
  let signed (r : Except Numeral.Error Int) : Result Int :=
    ofNumeral (r.map fun n => if negative then -n else n)
  match digits with
  | [] => .error (.fault .emptyText)
  | '0' :: 'b' :: rest => signed (Numeral.readInt 2 rest)
  | '0' :: 'x' :: rest => signed (Numeral.readInt 16 rest)
  | ['0'] => .ok 0
  | '0' :: rest => signed (Numeral.readInt 8 ('0' :: rest))
  | digits =>
    if digits.contains ':' then
      signed (((Text.splitAt ':' digits).mapM (Numeral.readInt 10)).map sumSixtieths)
    else signed (Numeral.readInt 10 digits)

/-- The sum of floating-point parts in sixtieths, from the last part to the first; each is
multiplied by a power of sixty, which has to fit into a floating-point number. -/
def addSixtieths (base : Nat) (sum : Double) : List Double → Result Double
  | [] => .ok sum
  | part :: rest =>
    match Double.ofInt base with
    | .infinite _ => .error (.fault .integerTooLarge)
    | scale => addSixtieths (base * 60) (sum.add (part.mul scale)) rest

/-- The floating-point number that a text stands for. -/
def readFloat (s : Text) : Result Double := do
  let (negative, digits) ← splitNumber (Text.lower s)
  let signed (x : Double) : Double := if negative then x.neg else x
  if digits == ".inf".toList then .ok (.infinite negative)
  else if digits == ".nan".toList then .ok .nan
  else if digits.contains ':' then do
    let parts ← ofNumeral ((Text.splitAt ':' digits).mapM Numeral.readDouble)
    .ok (signed (← addSixtieths 1 Double.zero parts.reverse))
  else .ok (signed (← ofNumeral (Numeral.readDouble digits)))

/-- The truth value that a text stands for. -/
def readBool (s : Text) : Result Bool :=
  match Tag.truthNames.lookup (Text.lower s) with
  | some b => .ok b
  | none => .error (.fault (.missingKey (Text.quoted (Text.lower s))))

-- ==================================================== dates and times

/-- Up to two digits at the beginning of a text as a number. -/
def shortNumber (s : Text) : Nat × Text :=
  let digits := (s.takeWhile Text.isAsciiDigit).take 2
  (digits.foldl (fun n c => n * 10 + (c.toNat - 0x30)) 0, s.drop digits.length)

/-- Four digits as a number. -/
def yearNumber (s : Text) : Nat :=
  (s.take 4).foldl (fun n c => n * 10 + (c.toNat - 0x30)) 0

/-- The first six digits after a point as microseconds, and the text after all the digits. -/
def fraction (s : Text) : Nat × Text :=
  match s with
  | '.' :: rest =>
    let digits := rest.takeWhile Text.isAsciiDigit
    let kept := digits.take 6
    let micros := kept.foldl (fun n c => n * 10 + (c.toNat - 0x30)) 0
    (micros * Nat.pow 10 (6 - kept.length), rest.drop digits.length)
  | s => (0, s)

/-- The microseconds of an offset from universal time, if the text holds one. -/
def offset (s : Text) : Option Int :=
  match s.dropWhile fun c => c == ' ' || c == '\t' with
  | 'Z' :: _ => some 0
  | c :: rest =>
    if c = '+' ∨ c = '-' then
      let (hours, rest) := shortNumber rest
      let minutes := (shortNumber (rest.drop 1)).1
      let n : Int := ((hours * 60 + minutes) * 60000000 : Nat)
      some (if c = '-' then -n else n)
    else none
  | [] => none

/-- Whether a text is a date, with or without a time of day; unlike a plain scalar's, a date alone
may have a month or a day of one digit. -/
def isDateOrTime (s : Text) : Bool :=
  let date := do
    let s ← Tag.afterExactDigits? 4 s
    let s ← Tag.afterOnly? '-' s
    let s ← Tag.afterOneOrTwo? s
    let s ← Tag.afterOnly? '-' s
    Tag.afterOneOrTwo? s
  match date with
  | some [] => true
  | some rest => Tag.isTimeOfDay rest
  | none => false

/-- The date, or date and time, that a text stands for. -/
def readTimestamp (s : Text) : Result Value := do
  let s := if isDateOrTime s then s else Tag.dropFinalBreak s
  if !isDateOrTime s then
    .error (.fault (.missingAttribute "NoneType".toList "groupdict".toList))
  else
    let (month, rest) := shortNumber (s.drop 5)
    let (day, rest) := shortNumber (rest.drop 1)
    let date : Date := ⟨yearNumber s, month, day⟩
    match rest with
    | [] => do
      ofDate date.check
      .ok (.date date)
    | rest => do
      let (hour, rest) := shortNumber ((rest.drop 1).dropWhile fun c => c == ' ' || c == '\t')
      let (minute, rest) := shortNumber (rest.drop 1)
      let (second, rest) := shortNumber (rest.drop 1)
      let (micro, rest) := fraction rest
      let zone := offset rest
      match zone with
      | some o =>
        if Instant.microsPerDay ≤ o.natAbs then
          .error (.fault (.offsetRange (DateTime.quotedSpan o)))
        else pure ()
      | none => pure ()
      let time : TimeOfDay := ⟨hour, minute, second, micro⟩
      ofDate date.check
      ofDate time.check
      .ok (.dateTime ⟨date, time, zone⟩)

-- ==================================================== octets

/-- The value of a base64 character. -/
def base64Value? (c : Char) : Option Nat :=
  if 'A' ≤ c ∧ c ≤ 'Z' then some (c.toNat - 0x41)
  else if 'a' ≤ c ∧ c ≤ 'z' then some (c.toNat - 0x61 + 26)
  else if '0' ≤ c ∧ c ≤ '9' then some (c.toNat - 0x30 + 52)
  else if c = '+' then some 62
  else if c = '/' then some 63
  else none

/-- The octets of a base64 text. `place` counts the characters of the current group of four,
`left` holds the bits that wait for the next one, `pads` counts the equals signs, and `acc` holds
the octets, reversed. Characters outside the alphabet are passed over. -/
def base64Octets (place left pads : Nat) (acc : Bytes) : Text → Except Text Bytes
  | [] =>
    if place = 0 then .ok acc.reverse
    else if place = 1 then
      .error ("Invalid base64-encoded string: number of data characters (".toList ++
        Text.ofNat (acc.length / 3 * 4 + 1) ++
        ") cannot be 1 more than a multiple of 4".toList)
    else .error "Incorrect padding".toList
  | c :: rest =>
    if c = '=' then
      if 2 ≤ place then
        if 4 ≤ place + (pads + 1) then .ok acc.reverse
        else base64Octets place left (pads + 1) acc rest
      else base64Octets place left pads acc rest
    else
      match base64Value? c with
      | none => base64Octets place left pads acc rest
      | some n =>
        match place with
        | 0 => base64Octets 1 n 0 acc rest
        | 1 => base64Octets 2 (n % 16) 0 (UInt8.ofNat (left * 4 + n / 16) :: acc) rest
        | 2 => base64Octets 3 (n % 4) 0 (UInt8.ofNat (left * 16 + n / 4) :: acc) rest
        | _ => base64Octets 0 0 0 (UInt8.ofNat (left * 64 + n) :: acc) rest

/-- A character by its number, as a complaint about octets shows it. -/
def numbered (c : Char) : Text :=
  if c.toNat < 0x100 then '\\' :: 'x' :: Text.hexPadded 2 c.toNat
  else if c.toNat < 0x10000 then '\\' :: 'u' :: Text.hexPadded 4 c.toNat
  else '\\' :: 'U' :: Text.hexPadded 8 c.toNat

/-- The complaint about the first characters of a text that are not ASCII, if there are any. -/
def beyondAscii? (s : Text) : Option Text :=
  let isAscii (c : Char) : Bool := decide (c.toNat < 0x80)
  let before := s.takeWhile isAscii
  let run := (s.dropWhile isAscii).takeWhile fun c => !isAscii c
  match run with
  | [] => none
  | [c] =>
    some ("'ascii' codec can't encode character '".toList ++ numbered c ++
      "' in position ".toList ++ Text.ofNat before.length ++
      ": ordinal not in range(128)".toList)
  | run =>
    some ("'ascii' codec can't encode characters in position ".toList ++
      Text.ofNat before.length ++ ['-'] ++ Text.ofNat (before.length + run.length - 1) ++
      ": ordinal not in range(128)".toList)

/-- The octets that a text stands for. -/
def readBinary (place : Mark) (s : Text) : Result Bytes :=
  match beyondAscii? s with
  | some e => failAt ("failed to convert base64 data into ascii: ".toList ++ e) place
  | none =>
    match base64Octets 0 0 0 [] s with
    | .ok octets => .ok octets
    | .error e => failAt ("failed to decode base64 data: ".toList ++ e) place

end AuditTrail.Yaml.Scalar
