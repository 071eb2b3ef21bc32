/-
Values written as JSON text, compact or indented by two spaces a level. Writing fails at the first
part, in the order of the text, that has no JSON form: a key that is no scalar, a value of another
type, a container inside itself, an integer of too many digits. A writer may be told to put the
plain form of a value in place of one that has none.
-/
import AuditTrail.Value.Silence

namespace AuditTrail.Json

/-- Why a value has no JSON text. -/
inductive WriteError where
  /-- A key of that type. -/
  | key (family : Text)
  /-- A value of that type. -/
  | value (family : Text)
  /-- A container inside itself. -/
  | circular
  /-- An integer with more digits than may be written. -/
  | tooManyDigits
  /-- An object that refuses to be put in its plain form. -/
  | refused (e : Objection)
  deriving DecidableEq, Repr

/-- The wording of an error. -/
def WriteError.message : WriteError → Text
  | .key family =>
    "keys must be str, int, float, bool or None, not ".toList ++ family
  | .value family =>
    "Object of type ".toList ++ family ++ " is not JSON serializable".toList
  | .circular => "Circular reference detected".toList
  | .tooManyDigits =>
    ("Exceeds the limit (4300 digits) for integer string conversion; " ++
      "use sys.set_int_max_str_digits() to increase the limit").toList
  | .refused e => e.message

/-- The class of an error: one of type, or of an unusable value. -/
def WriteError.family : WriteError → Text
  | .key _ | .value _ => "TypeError".toList
  | .circular | .tooManyDigits => "ValueError".toList
  | .refused e => e.family

/-- The error of a value that cannot be shown. -/
def WriteError.ofSilence : Value.Silence → WriteError
  | .digits => .tooManyDigits
  | .refused e => .refused e

/-- How JSON text is laid out and what it may contain. -/
structure Style where
  /-- One item a line, indented by its depth. -/
  indented : Bool
  /-- Nothing beyond the ASCII characters. -/
  ascii : Bool
  /-- The plain form stands in for a value without a JSON form. -/
  lenient : Bool
  deriving DecidableEq, Repr

namespace Style

/-- No white space, all characters as themselves. -/
def compact : Style := ⟨false, false, false⟩

/-- Indented, all characters as themselves. -/
def pretty : Style := ⟨true, false, false⟩

/-- No white space, and plain forms where there is no JSON form. -/
def loose : Style := ⟨false, false, true⟩

/-- Indented, ASCII characters only. -/
def prettyAscii : Style := ⟨true, true, false⟩

end Style

-- ==================================================== texts and numbers

/-- An escape of four hexadecimal digits. -/
def unicodeEscape (n : Nat) : Text := '\\' :: 'u' :: Text.hexPadded 4 n

/-- The escapes of a character by its number, as one unit of 16 bits or two. -/
def numericEscape (c : Char) : Text :=
  if c.toNat < 0x10000 then unicodeEscape c.toNat
  else
    let n := c.toNat - 0x10000
    unicodeEscape (0xD800 + n / 0x400) ++ unicodeEscape (0xDC00 + n % 0x400)

/-- A character inside a JSON string. -/
def escapedChar (ascii : Bool) (c : Char) : Text :=
  if c = '\x22' then ['\\', '\x22']
  else if c = '\\' then ['\\', '\\']
  else if c = '\n' then ['\\', 'n']
  else if c = '\r' then ['\\', 'r']
  else if c = '\t' then ['\\', 't']
  else if c = '\x0C' then ['\\', 'f']
  else if c = '\x08' then ['\\', 'b']
  else if c.toNat < 0x20 then unicodeEscape c.toNat
  else if ascii && decide (0x7F ≤ c.toNat) then numericEscape c
  else [c]

/-- A JSON string. -/
def writeText (ascii : Bool) (s : Text) : Text :=
  '\x22' :: s.flatMap (escapedChar ascii) ++ ['\x22']

/-- A floating-point number in JSON text, with names for those that JSON lacks. -/
def writeDouble : Double → Text
  | .nan => "NaN".toList
  | .infinite negative => if negative then "-Infinity".toList else "Infinity".toList
  | x => x.toText

/-- An integer in JSON text. -/
def writeInt (n : Int) : Except WriteError Text :=
  if Nat.pow 10 Numeral.digitLimit ≤ n.natAbs then .error .tooManyDigits else .ok (Text.ofInt n)

/-- The name of a key's type in an error: the compact layout gives it in full. -/
def keyFamily (style : Style) (v : Value) : Text :=
  if style.indented then v.family else v.qualifiedFamily

/-- The text of a key: keys that are scalars become texts. -/
def keyText (style : Style) : Value → Except WriteError Text
  | .text s => .ok s
  | .term t => .ok t.wire
  | .float x => .ok (writeDouble x)
  | .bool b => .ok (if b then "true".toList else "false".toList)
  | .null => .ok "null".toList
  | .int n => writeInt n
  | v => .error (.key (keyFamily style v))

-- ==================================================== layout

/-- The beginning of a line at some depth. -/
def newline (depth : Nat) : Text := '\n' :: List.replicate (2 * depth) ' '

/-- The items of a container between its brackets; the items stand one level deeper than
`depth`. -/
def enclose (style : Style) (depth : Nat) (opening closing : Char) (items : List Text) : Text :=
  if items.isEmpty then [opening, closing]
  else if style.indented then
    opening :: newline (depth + 1) ++ Text.joinWith (',' :: newline (depth + 1)) items ++
      newline depth ++ [closing]
  else opening :: Text.joinWith [','] items ++ [closing]

/-- What stands between a key and its value. -/
def colon (style : Style) : Text := if style.indented then [':', ' '] else [':']

/-- What is written for a value that has no JSON form; the plain form cannot show an integer of too
many digits either, and an object may refuse it. -/
def writeOther (style : Style) (v : Value) : Except WriteError Text :=
  if !style.lenient then .error (.value v.family)
  else
    match v.plainSilence? with
    | some s => .error (.ofSilence s)
    | none => .ok (writeText style.ascii v.plain)

mutual

/-- The JSON text of a value at some depth. -/
def writeAt (style : Style) (depth : Nat) : Value → Except WriteError Text
  | .null => .ok "null".toList
  | .bool b => .ok (if b then "true".toList else "false".toList)
  | .int n => writeInt n
  | .float x => .ok (writeDouble x)
  | .text s => .ok (writeText style.ascii s)
  | .term t => .ok (writeText style.ascii t.wire)
  | .list items =>
    (writeItems style (depth + 1) items).map (enclose style depth '[' ']')
  | .tuple items =>
    (writeItems style (depth + 1) items).map (enclose style depth '[' ']')
  | .map entries =>
    (writeEntries style (depth + 1) entries).map (enclose style depth '\x7b' '\x7d')
  | .cycle _ => .error .circular
  | .bytes octets => writeOther style (.bytes octets)
  | .set items => writeOther style (.set items)
  | .date d => writeOther style (.date d)
  | .dateTime d => writeOther style (.dateTime d)
  | .foreign o parts => writeOther style (.foreign o parts)
  | .agent c items => writeOther style (.agent c items)
termination_by structural v => v

/-- The JSON texts of the items of a sequence. -/
def writeItems (style : Style) (depth : Nat) : List Value → Except WriteError (List Text)
  | [] => .ok []
  | v :: rest => do
    let item ← writeAt style depth v
    let items ← writeItems style depth rest
    .ok (item :: items)
termination_by structural items => items

/-- The JSON texts of the entries of a map. -/
def writeEntries (style : Style) (depth : Nat) :
    List (Value × Value) → Except WriteError (List Text)
  | [] => .ok []
  | (k, v) :: rest => do
    let key ← keyText style k
    let item ← writeAt style depth v
    let items ← writeEntries style depth rest
    .ok ((writeText style.ascii key ++ colon style ++ item) :: items)
termination_by structural entries => entries

end

/-- The JSON text of a value. -/
def write (style : Style) (v : Value) : Except WriteError Text := writeAt style 0 v

end AuditTrail.Json
