/-
Tags: what kind of value a node stands for. A scalar without a tag gets one from its text alone, by
the first of a few patterns that the whole text fits; a line feed at its end is overlooked.
-/
import AuditTrail.Text.Digit

namespace AuditTrail.Yaml

/-- The kinds of values, and any other tag by its text. -/
inductive Tag where
  | null
  | bool
  | int
  | float
  | binary
  | timestamp
  | omap
  | pairs
  | set
  | str
  | seq
  | map
  /-- The key that merges the mapping beside it. -/
  | merge
  /-- The key whose value stands for the whole mapping. -/
  | value
  | other (text : Text)
  deriving DecidableEq, Repr, Inhabited

namespace Tag

/-- What the tags of the standard kinds begin with. -/
def standardLead : Text := "tag:yaml.org,2002:".toList

/-- The standard kinds by name. -/
def standard : List (Text × Tag) :=
  [("null".toList, .null), ("bool".toList, .bool), ("int".toList, .int),
   ("float".toList, .float), ("binary".toList, .binary), ("timestamp".toList, .timestamp),
   ("omap".toList, .omap), ("pairs".toList, .pairs), ("set".toList, .set), ("str".toList, .str),
   ("seq".toList, .seq), ("map".toList, .map), ("merge".toList, .merge),
   ("value".toList, .value)]

/-- The tag with some text. -/
def ofText (s : Text) : Tag :=
  match (Text.after? standardLead s).bind fun name => standard.lookup name with
  | some t => t
  | none => .other s

/-- The text of a tag. -/
def toText (t : Tag) : Text :=
  match t with
  | .other s => s
  | t =>
    standardLead ++
      match standard.find? (·.2 == t) with
      | some p => p.1
      | none => []

-- ==================================================== patterns of plain scalars

/-- The texts that are truth values, and those values. -/
def truthNames : List (Text × Bool) :=
  [("yes".toList, true), ("no".toList, false), ("true".toList, true), ("false".toList, false),
   ("on".toList, true), ("off".toList, false)]

/-- A word with its first letter made a capital. -/
def capitalized : Text → Text
  | [] => []
  | c :: rest => c.toUpper :: rest

/-- Whether a text is a word in small letters, capitalized, or in capitals. -/
def isWordForm (word s : Text) : Bool :=
  s == word || s == capitalized word || s == word.map Char.toUpper

/-- The truth values. -/
def isBool (s : Text) : Bool := truthNames.any fun p => isWordForm p.1 s

/-- The missing values. -/
def isNull (s : Text) : Bool := s == ['~'] || s.isEmpty || isWordForm "null".toList s

/-- A digit, or an underscore between digits. -/
def isDigitOrLow (c : Char) : Bool := Text.isAsciiDigit c || c == '_'

/-- A text without its sign. -/
def dropSign : Text → Text
  | '+' :: rest => rest
  | '-' :: rest => rest
  | s => s

/-- The text after a digit and the digits and underscores that follow it. -/
def afterDigits? : Text → Option Text
  | [] => none
  | c :: rest => if Text.isAsciiDigit c then some (rest.dropWhile isDigitOrLow) else none

/-- The text after groups of a colon and one or two digits below sixty, at least `least`. -/
def afterSixtieths? (least : Nat) : Text → Option Text
  | ':' :: a :: b :: rest =>
    if '0' ≤ a ∧ a ≤ '5' ∧ Text.isAsciiDigit b then afterSixtieths? (least - 1) rest
    else if Text.isAsciiDigit a then afterSixtieths? (least - 1) (b :: rest)
    else if least = 0 then some (':' :: a :: b :: rest) else none
  | [':', a] =>
    if Text.isAsciiDigit a then (if least ≤ 1 then some [] else none)
    else if least = 0 then some [':', a] else none
  | s => if least = 0 then some s else none

/-- Whether a text is empty or an exponent with a sign. -/
def isExponentOrEmpty : Text → Bool
  | [] => true
  | c :: sign :: digits =>
    (c == 'e' || c == 'E') && (sign == '+' || sign == '-') && !digits.isEmpty &&
      digits.all Text.isAsciiDigit
  | _ => false

/-- The floating-point numbers: with a point, in sixtieths, or by name. -/
def isFloat (s : Text) : Bool :=
  let unsigned := dropSign s
  let decimal :=
    match afterDigits? unsigned with
    | some ('.' :: rest) => isExponentOrEmpty (rest.dropWhile isDigitOrLow)
    | _ => false
  let fraction :=
    match s with
    | '.' :: rest =>
      match afterDigits? rest with
      | some tail => isExponentOrEmpty tail
      | none => false
    | _ => false
  let sixtieths :=
    match (afterDigits? unsigned).bind (afterSixtieths? 1) with
    | some ('.' :: rest) => rest.all isDigitOrLow
    | _ => false
  let infinite :=
    match unsigned with
    | '.' :: name => isWordForm "inf".toList name
    | _ => false
  let undefined :=
    s == ".nan".toList || s == ".NaN".toList || s == ".NAN".toList
  decimal || fraction || sixtieths || infinite || undefined

/-- Whether a text is at least one character, all of which satisfy a test. -/
def isSome (p : Char → Bool) (s : Text) : Bool := !s.isEmpty && s.all p

/-- The integers: binary, octal, decimal, hexadecimal, or in sixtieths. -/
def isInt (s : Text) : Bool :=
  let isHex (c : Char) : Bool :=
    isDigitOrLow c || ('a' ≤ c && c ≤ 'f') || ('A' ≤ c && c ≤ 'F')
  match dropSign s with
  | '0' :: 'b' :: rest => isSome (fun c => c == '0' || c == '1' || c == '_') rest
  | '0' :: 'x' :: rest => isSome isHex rest
  | ['0'] => true
  | '0' :: rest => isSome (fun c => ('0' ≤ c && c ≤ '7') || c == '_') rest
  | c :: rest =>
    if '1' ≤ c ∧ c ≤ '9' then
      match rest.dropWhile isDigitOrLow with
      | [] => true
      | tail => afterSixtieths? 1 tail == some []
    else false
  | [] => false

/-- The text after between one and two digits. -/
def afterOneOrTwo? : Text → Option Text
  | a :: b :: rest =>
    if Text.isAsciiDigit a then
      if Text.isAsciiDigit b then some rest else some (b :: rest)
    else none
  | [a] => if Text.isAsciiDigit a then some [] else none
  | [] => none

/-- The text after exactly `n` digits. -/
def afterExactDigits? : Nat → Text → Option Text
  | 0, s => some s
  | _ + 1, [] => none
  | n + 1, c :: rest => if Text.isAsciiDigit c then afterExactDigits? n rest else none

/-- The text after one expected character. -/
def afterOnly? (c : Char) (s : Text) : Option Text := Text.after? [c] s

/-- Whether a text is empty or an offset from universal time: the letter for none, or a sign,
hours, and perhaps minutes. -/
def isZoneOrEmpty (s : Text) : Bool :=
  match s with
  | [] => true
  | ['Z'] => true
  | c :: rest =>
    if c = '+' ∨ c = '-' then
      match afterOneOrTwo? rest with
      | some [] => true
      | some (':' :: minutes) => afterExactDigits? 2 minutes == some []
      | _ => false
    else false

/-- Whether a text is a time of day after a date, with its offset. -/
def isTimeOfDay (s : Text) : Bool :=
  let isBlank (c : Char) : Bool := c == ' ' || c == '\t'
  let clock :=
    match s with
    | c :: rest =>
      if c = 'T' ∨ c = 't' then some rest
      else if isBlank c then some (rest.dropWhile isBlank) else none
    | [] => none
  let after := do
    let s ← clock
    let s ← afterOneOrTwo? s
    let s ← afterOnly? ':' s
    let s ← afterExactDigits? 2 s
    let s ← afterOnly? ':' s
    afterExactDigits? 2 s
  match after with
  | none => false
  | some rest =>
    let rest :=
      match rest with
      | '.' :: digits => digits.dropWhile Text.isAsciiDigit
      | s => s
    match rest with
    | [] => true
    | rest =>
      let zone := rest.dropWhile isBlank
      isZoneOrEmpty zone && !zone.isEmpty

/-- The dates, alone or with a time of day. -/
def isTimestamp (s : Text) : Bool :=
  let year := (afterExactDigits? 4 s).bind (afterOnly? '-')
  let short := do
    let s ← year
    let s ← afterExactDigits? 2 s
    let s ← afterOnly? '-' s
    afterExactDigits? 2 s
  let long := do
    let s ← year
    let s ← afterOneOrTwo? s
    let s ← afterOnly? '-' s
    afterOneOrTwo? s
  short == some [] || long.any isTimeOfDay

/-- A text without the line feed at its end. -/
def dropFinalBreak (s : Text) : Text :=
  if s.getLast? = some '\n' then s.dropLast else s

/-- The tag of a scalar that has none, from its text. -/
def ofPlain (s : Text) : Tag :=
  let fits (p : Text → Bool) : Bool := p s || p (dropFinalBreak s)
  if fits isBool then .bool
  else if fits isFloat then .float
  else if fits isInt then .int
  else if fits (· == "<<".toList) then .merge
  else if s.head? != some '\n' && fits isNull then .null
  else if fits isTimestamp then .timestamp
  else if fits (· == ['=']) then .value
  else if fits (fun t => t == ['!'] || t == ['&'] || t == ['*']) then
    .other (standardLead ++ "yaml".toList)
  else .str

end Tag

end AuditTrail.Yaml
