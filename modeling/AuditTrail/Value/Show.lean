/-
How a value is shown in a message or inside another text: quoted, as a literal would be written,
or plain, which differs for texts, dates and objects only.
-/
import AuditTrail.Text.Quoted
import AuditTrail.Value.Basic

namespace AuditTrail

/-- The quoted form of a vocabulary member. -/
def Term.quoted (t : Term) : Text :=
  '<' :: t.family ++ '.' :: t.label ++ ": ".toList ++ Text.quoted t.wire ++ ['>']

/-- The plain form of a vocabulary member: the part of the vocabulary and the name in it. -/
def Term.plain (t : Term) : Text := t.family ++ '.' :: t.label

/-- Numbers separated by commas. -/
def Text.commaList (numbers : List Int) : Text :=
  Text.joinWith ", ".toList (numbers.map Text.ofInt)

/-- The quoted form of a span of microseconds, as whole days and the rest of a day. -/
def DateTime.quotedSpan (micros : Int) : Text :=
  let days := micros.fdiv Instant.microsPerDay
  let rest := micros.fmod Instant.microsPerDay
  let part (name : String) (n : Int) : List Text :=
    if n = 0 then [] else [name.toList ++ '=' :: Text.ofInt n]
  let parts :=
    part "days" days ++ part "seconds" (rest / 1000000) ++ part "microseconds" (rest % 1000000)
  let shown := if parts.isEmpty then ['0'] else Text.joinWith ", ".toList parts
  "datetime.timedelta(".toList ++ shown ++ [')']

/-- The quoted form of an offset from universal time. -/
def DateTime.quotedOffset (offset : Int) : Text :=
  if offset = 0 then "datetime.timezone.utc".toList
  else "datetime.timezone(".toList ++ DateTime.quotedSpan offset ++ [')']

/-- The quoted form of a date. -/
def Date.quoted (d : Date) : Text :=
  "datetime.date(".toList ++ Text.commaList [d.year, d.month, d.day] ++ [')']

/-- The quoted form of a date with a time of day; seconds and microseconds of zero are left out
at the end. -/
def DateTime.quoted (d : DateTime) : Text :=
  let time : List Int :=
    if d.time.micro = 0 then if d.time.second = 0 then [] else [d.time.second]
    else [d.time.second, d.time.micro]
  let zone :=
    match d.offset with
    | some o => ", tzinfo=".toList ++ DateTime.quotedOffset o
    | none => []
  "datetime.datetime(".toList ++
    Text.commaList
      ([d.date.year, d.date.month, d.date.day, d.time.hour, d.time.minute] ++ time) ++
    zone ++ [')']

namespace Value

/-- How a container inside itself is shown. -/
def Enclosure.text : Enclosure → Text
  | .list => "[...]".toList
  | .tuple => "(...)".toList
  | .map => "\x7b...\x7d".toList

/-- A form that an object gives; nothing stands for one that it refuses. -/
def given (form : Except Objection Text) : Text := form.toOption.getD []

mutual

/-- The quoted form of a value. -/
def quoted : Value → Text
  | .null => "None".toList
  | .bool b => if b then "True".toList else "False".toList
  | .int n => Text.ofInt n
  | .float x => x.toText
  | .text s => Text.quoted s
  | .bytes octets => Text.quotedBytes octets
  | .list items => '[' :: Text.joinWith ", ".toList (quotedItems items) ++ [']']
  | .tuple [] => "()".toList
  | .tuple [v] => '(' :: quoted v ++ ",)".toList
  | .tuple (v :: rest) =>
    '(' :: Text.joinWith ", ".toList (quoted v :: quotedItems rest) ++ [')']
  | .set [] => "set()".toList
  | .set (v :: rest) =>
    '\x7b' :: Text.joinWith ", ".toList (quoted v :: quotedItems rest) ++ ['\x7d']
  | .map entries => '\x7b' :: Text.joinWith ", ".toList (quotedEntries entries) ++ ['\x7d']
  | .date d => d.quoted
  | .dateTime d => d.quoted
  | .term t => t.quoted
  | .foreign o _ => o.quoted
  | .agent c _ => given c.quoted
  | .cycle e => Enclosure.text e

/-- The quoted forms of several values. -/
def quotedItems : List Value → List Text
  | [] => []
  | v :: rest => quoted v :: quotedItems rest

/-- The quoted forms of the entries of a map. -/
def quotedEntries : List (Value × Value) → List Text
  | [] => []
  | (k, v) :: rest => (quoted k ++ ": ".toList ++ quoted v) :: quotedEntries rest

end

/-- The plain form of a value. -/
def plain : Value → Text
  | .text s => s
  | .date d => d.toText
  | .dateTime d => d.toText ' '
  | .term t => t.plain
  | .foreign o _ => o.plain
  | .agent c _ => given c.plain
  | v => v.quoted

end Value

end AuditTrail
