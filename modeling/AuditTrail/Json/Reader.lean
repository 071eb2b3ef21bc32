/-
JSON text read as a value. An object keeps its members in order; a name that occurs again keeps
its first place and takes its last value. Reading stops at the first flaw, and the error says
where: a flaw is raised together with the text that was left there, from which the position is
counted at the end.
-/
import AuditTrail.Number.Numeral
import AuditTrail.Text.Utf8
import AuditTrail.Value.Equality

namespace AuditTrail.Json

/-- What is wrong with a text as JSON. -/
inductive Flaw where
  /-- A mark of byte order stands before the text. -/
  | byteOrderMark
  /-- No value begins here. -/
  | value
  /-- No member name begins here. -/
  | name
  | colon
  | comma
  /-- Something follows the value. -/
  | extra
  /-- A backslash before a character that it cannot escape. -/
  | escape
  /-- An escape by number without four digits. -/
  | unicodeEscape
  /-- The string that begins here has no end. -/
  | unterminated
  /-- A control character inside a string. -/
  | control
  /-- An array or object nested deeper than the limit. -/
  | tooDeep (array : Bool)
  /-- An integer that has that many digits. -/
  | tooManyDigits (count : Nat)
  deriving DecidableEq, Repr

/-- A flaw and the text left at the place that it concerns. -/
structure Stop where
  flaw : Flaw
  rest : Text
  deriving DecidableEq, Repr

/-- What is read from the beginning of a text, and the text after it. -/
abbrev Reading (α : Type) := Except Stop (α × Text)

/-- How deep arrays and objects may be nested. -/
def depthLimit : Nat := 990

/-- Whether a character separates the parts of JSON text. -/
def isSpace (c : Char) : Bool := c == ' ' || c == '\t' || c == '\n' || c == '\r'

/-- The text from the next part on. -/
def skipSpace (s : Text) : Text := s.dropWhile isSpace

-- ==================================================== strings

/-- The character that a letter stands for after a backslash. -/
def escapedLetter? : Char → Option Char
  | '\x22' => some '\x22'
  | '\\' => some '\\'
  | '/' => some '/'
  | 'b' => some '\x08'
  | 'f' => some '\x0C'
  | 'n' => some '\n'
  | 'r' => some '\r'
  | 't' => some '\t'
  | _ => none

/-- Whether a unit of 16 bits is the first half of a character. -/
def isHighHalf (n : Nat) : Bool := decide (0xD800 ≤ n ∧ n < 0xDC00)

/-- Whether a unit of 16 bits is the second half of a character. -/
def isLowHalf (n : Nat) : Bool := decide (0xDC00 ≤ n ∧ n < 0xE000)

/-- The character of two halves. -/
def joinHalves (high low : Nat) : Char :=
  Char.ofNat (0x10000 + (high - 0xD800) * 0x400 + (low - 0xDC00))

/-- The character of one unit. Half a pair is no character, so that the replacement stands for it. -/
def unitChar (n : Nat) : Char :=
  if isHighHalf n || isLowHalf n then Utf8.replacement else Char.ofNat n

/-- The characters read so far, after a first half that found no second one. -/
def flushHalf (half : Option Nat) (acc : Text) : Text :=
  match half with
  | some n => unitChar n :: acc
  | none => acc

/-- The characters read so far after one more unit of 16 bits, and the first half that still
waits for its second. -/
def pushUnit (half : Option Nat) (acc : Text) (n : Nat) : Option Nat × Text :=
  match half with
  | some high =>
    if isLowHalf n then (none, joinHalves high n :: acc)
    else if isHighHalf n then (some n, unitChar high :: acc)
    else (none, unitChar n :: unitChar high :: acc)
  | none => if isHighHalf n then (some n, acc) else (none, unitChar n :: acc)

/-- Reads a string after its opening quote. `opened` is the text from that quote on, `half` a
first half that waits for its second, and `acc` holds the characters read, reversed. -/
def readString (opened : Text) (half : Option Nat) (acc : Text) : Text → Reading Text
  | [] => .error ⟨.unterminated, opened⟩
  | '\x22' :: rest => .ok ((flushHalf half acc).reverse, rest)
  | '\\' :: [] => .error ⟨.unterminated, opened⟩
  | '\\' :: 'u' :: a :: b :: c :: d :: rest =>
    match Text.hexNumber? [a, b, c, d], rest with
    | some n, _ :: _ =>
      readString opened (pushUnit half acc n).1 (pushUnit half acc n).2 rest
    | _, _ => .error ⟨.unicodeEscape, 'u' :: a :: b :: c :: d :: rest⟩
  | '\\' :: 'u' :: rest => .error ⟨.unicodeEscape, 'u' :: rest⟩
  | '\\' :: c :: rest =>
    match escapedLetter? c with
    | some x => readString opened none (x :: flushHalf half acc) rest
    | none => .error ⟨.escape, '\\' :: c :: rest⟩
  | c :: rest =>
    if c.toNat < 0x20 then .error ⟨.control, c :: rest⟩
    else readString opened none (c :: flushHalf half acc) rest
termination_by structural s => s

-- ==================================================== numbers

/-- The longest run of digits at the beginning of a text, and what follows it. -/
def spanDigits (s : Text) : Text × Text :=
  (s.takeWhile Text.isAsciiDigit, s.dropWhile Text.isAsciiDigit)

/-- The whole part of a number: a single zero, or digits that begin with another one. -/
def readWhole? : Text → Option (Text × Text)
  | '0' :: rest => some (['0'], rest)
  | s =>
    let (digits, rest) := spanDigits s
    if digits.isEmpty then none else some (digits, rest)

/-- The digits after a point, if there is a point with digits after it. -/
def readFraction : Text → Option Text × Text
  | '.' :: s =>
    let (digits, rest) := spanDigits s
    if digits.isEmpty then (none, '.' :: s) else (some digits, rest)
  | s => (none, s)

/-- The exponent of a number, if one is there with at least one digit. -/
def readExponent : Text → Option Int × Text
  | c :: s =>
    if c = 'e' ∨ c = 'E' then
      let (negative, unsigned) := Numeral.splitSign s
      let (digits, rest) := spanDigits unsigned
      if digits.isEmpty then (none, c :: s)
      else
        let n : Int := ((Numeral.digitsValue? 10 digits).getD 0 : Nat)
        (some (if negative then -n else n), rest)
    else (none, c :: s)
  | [] => (none, [])

/-- Reads a number after its sign. `start` is the text from its beginning. -/
def readNumber (start : Text) (negative : Bool) (s : Text) : Reading Value :=
  match readWhole? s with
  | none => .error ⟨.value, start⟩
  | some (whole, rest) =>
    let (fraction, rest) := readFraction rest
    let (exponent, rest) := readExponent rest
    match fraction, exponent with
    | none, none =>
      if Numeral.digitLimit < whole.length then .error ⟨.tooManyDigits whole.length, start⟩
      else
        let n : Int := ((Numeral.digitsValue? 10 whole).getD 0 : Nat)
        .ok (.int (if negative then -n else n), rest)
    | fraction, exponent =>
      .ok (.float (Numeral.ofParts negative whole (fraction.getD []) (exponent.getD 0)), rest)

/-- Reads a value that is neither a string nor a container. -/
def readScalar (s : Text) : Reading Value :=
  match Text.after? "null".toList s with
  | some rest => .ok (.null, rest)
  | none =>
  match Text.after? "true".toList s with
  | some rest => .ok (.bool true, rest)
  | none =>
  match Text.after? "false".toList s with
  | some rest => .ok (.bool false, rest)
  | none =>
  match Text.after? "NaN".toList s with
  | some rest => .ok (.float .nan, rest)
  | none =>
  match Text.after? "Infinity".toList s with
  | some rest => .ok (.float (.infinite false), rest)
  | none =>
  match Text.after? "-Infinity".toList s with
  | some rest => .ok (.float (.infinite true), rest)
  | none =>
  match s with
  | '-' :: rest => readNumber s true rest
  | s => readNumber s false s

-- ==================================================== values

mutual

/-- Reads a value at the beginning of a text. The first number bounds the steps, the second the
levels of nesting that are left. -/
def readValue : Nat → Nat → Text → Reading Value
  | 0, _, s => .error ⟨.value, s⟩
  | fuel + 1, levels, s =>
    match s with
    | '\x22' :: rest =>
      match readString s none [] rest with
      | .error e => .error e
      | .ok (t, rest) => .ok (.text t, rest)
    | '[' :: rest =>
      match levels with
      | 0 => .error ⟨.tooDeep true, s⟩
      | levels + 1 =>
        match skipSpace rest with
        | ']' :: rest => .ok (.list [], rest)
        | rest => readItems fuel levels [] rest
    | '\x7b' :: rest =>
      match levels with
      | 0 => .error ⟨.tooDeep false, s⟩
      | levels + 1 =>
        match skipSpace rest with
        | '\x7d' :: rest => .ok (.map [], rest)
        | rest => readMembers fuel levels [] rest
    | s => readScalar s

/-- Reads the items of an array from one item on; `acc` holds those before it, reversed. -/
def readItems : Nat → Nat → List Value → Text → Reading Value
  | 0, _, _, s => .error ⟨.value, s⟩
  | fuel + 1, levels, acc, s =>
    match readValue fuel levels s with
    | .error e => .error e
    | .ok (v, rest) =>
      match skipSpace rest with
      | ']' :: rest => .ok (.list (v :: acc).reverse, rest)
      | ',' :: rest => readItems fuel levels (v :: acc) (skipSpace rest)
      | rest => .error ⟨.comma, rest⟩

/-- Reads the members of an object from one name on; `acc` holds those before it. -/
def readMembers : Nat → Nat → Value.Entries → Text → Reading Value
  | 0, _, _, s => .error ⟨.value, s⟩
  | fuel + 1, levels, acc, s =>
    match s with
    | '\x22' :: rest =>
      match readString s none [] rest with
      | .error e => .error e
      | .ok (name, rest) =>
        match skipSpace rest with
        | ':' :: rest =>
          match readValue fuel levels (skipSpace rest) with
          | .error e => .error e
          | .ok (v, rest) =>
            let acc := Value.put false acc (.text name) v
            match skipSpace rest with
            | '\x7d' :: rest => .ok (.map acc, rest)
            | ',' :: rest => readMembers fuel levels acc (skipSpace rest)
            | rest => .error ⟨.comma, rest⟩
        | rest => .error ⟨.colon, rest⟩
    | s => .error ⟨.name, s⟩

end

/-- A flaw and the number of the character that it concerns, with the line and the column, both
counted from one. -/
structure ReadError where
  flaw : Flaw
  position : Nat
  line : Nat
  column : Nat
  deriving DecidableEq, Repr

/-- The place in a text at which some text is left. -/
def Stop.locate (e : Stop) (whole : Text) : ReadError :=
  let position := whole.length - e.rest.length
  let before := whole.take position
  ⟨e.flaw, position, before.count '\n' + 1,
    (before.reverse.takeWhile (· != '\n')).length + 1⟩

/-- Reads a text that holds one value and nothing else. -/
def readAll (s : Text) : Except Stop Value :=
  if s.head? = some '\uFEFF' then .error ⟨.byteOrderMark, s⟩
  else
    match readValue (2 * s.length + 2) depthLimit (skipSpace s) with
    | .error e => .error e
    | .ok (v, rest) =>
      match skipSpace rest with
      | [] => .ok v
      | rest => .error ⟨.extra, rest⟩

/-- The value that a text is the JSON of. -/
def read (s : Text) : Except ReadError Value :=
  match readAll s with
  | .error e => .error (e.locate s)
  | .ok v => .ok v

/-- A value stands first in the text that it is read from, and space alone after it. -/
theorem exists_of_read {s : Text} {v : Value} (h : read s = .ok v) :
    ∃ rest, readValue (2 * s.length + 2) depthLimit (skipSpace s) = .ok (v, rest) ∧
      skipSpace rest = [] := by
  unfold read readAll at h
  split at h
  case h_1 => cases h
  case h_2 w hw =>
    cases h
    split at hw
    case isTrue => cases hw
    case isFalse =>
      split at hw
      case h_1 => cases hw
      case h_2 u rest hu =>
        split at hw
        case h_1 hrest =>
          cases hw
          exact ⟨rest, hu, hrest⟩
        case h_2 => cases hw

/-- The wording of a flaw that has a place in the text. -/
def Flaw.message : Flaw → Text
  | .byteOrderMark => "Unexpected UTF-8 BOM (decode using utf-8-sig)".toList
  | .value => "Expecting value".toList
  | .name => "Expecting property name enclosed in double quotes".toList
  | .colon => "Expecting ':' delimiter".toList
  | .comma => "Expecting ',' delimiter".toList
  | .extra => "Extra data".toList
  | .escape => "Invalid \\escape".toList
  | .unicodeEscape => "Invalid \\uXXXX escape".toList
  | .unterminated => "Unterminated string starting at".toList
  | .control => "Invalid control character at".toList
  | .tooDeep true =>
    "maximum recursion depth exceeded while decoding a JSON array from a unicode string".toList
  | .tooDeep false =>
    "maximum recursion depth exceeded while decoding a JSON object from a unicode string".toList
  | .tooManyDigits count => (Numeral.Error.tooManyDigits count).message

/-- The wording of an error: the flaw, and its place unless the flaw is one of size. -/
def ReadError.message (e : ReadError) : Text :=
  match e.flaw with
  | .tooDeep _ | .tooManyDigits _ => e.flaw.message
  | flaw =>
    flaw.message ++ ": line ".toList ++ Text.ofNat e.line ++ " column ".toList ++
      Text.ofNat e.column ++ " (char ".toList ++ Text.ofNat e.position ++ [')']

end AuditTrail.Json
