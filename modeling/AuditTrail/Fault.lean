/-
Why an operation refuses its input. Each cause is a constructor with what the message needs; the
class of a fault is written into records next to its message, so both are functions of the cause.
-/
import AuditTrail.Json.Reader
import AuditTrail.Json.Writer
import AuditTrail.Text.Utf8
import AuditTrail.Value.Silence

namespace AuditTrail

/-- One complaint of a validation: where it was found, what kind it is, its wording, and the value
that was found. -/
structure Issue where
  location : Text
  code : Text
  wording : Text
  input : Value

/-- The complaints about the parts of one configuration object. -/
structure Report where
  title : Text
  issues : List Issue

/-- What the file system reports about a path. -/
inductive FileError where
  | missing
  | notDirectory
  | isDirectory
  | nameTooLong
  | linkLoop
  | denied
  deriving DecidableEq, Repr

/-- The number and the wording of a file error. -/
def FileError.describe : FileError → Nat × Text
  | .missing => (2, "No such file or directory".toList)
  | .denied => (13, "Permission denied".toList)
  | .notDirectory => (20, "Not a directory".toList)
  | .isDirectory => (21, "Is a directory".toList)
  | .nameTooLong => (36, "File name too long".toList)
  | .linkLoop => (40, "Too many levels of symbolic links".toList)

/-- The class of a file error. -/
def FileError.family : FileError → Text
  | .missing => "FileNotFoundError".toList
  | .notDirectory => "NotADirectoryError".toList
  | .isDirectory => "IsADirectoryError".toList
  | .denied => "PermissionError".toList
  | .nameTooLong | .linkLoop => "OSError".toList

/-- A cause of refusal. -/
inductive Fault where
  -- a value of a type that the operation cannot use
  | notIterable (family : Text)
  | notUnpackable (family : Text)
  | notContainer (family : Text)
  | notSubscriptable (family : Text)
  | notInteger (family : Text)
  | notBytes (family : Text)
  | notPath (family : Text)
  | octetPath
  | notException (family : Text)
  | notMatchable (family : Text)
  | textPatternOnBytes
  | textInBytes
  | unhashable (family : Text)
  | pairNotSequence (index : Nat)
  | wrongField (wire expected family : Text)
  | arguments (message : Text)
  -- a value that the operation cannot use
  | tooFewParts (count : Nat)
  | tooManyParts
  | pairLength (index length : Nat)
  | notMember (quoted family : Text)
  | noCategory
  | noCluster
  | byteRange
  | negativeCount
  | hugeCount
  | tooManyOctets
  | noMemory
  | noSourceType
  | noBody
  | fileArgument (quoted : Text)
  | nullByte
  | unknownLevel (quoted : Text)
  | levelType (quoted : Text)
  | tooManyDigits
  | groupItem (index : Nat)
  | unknownException (home name : Text)
  | emptyGroup
  | hugeCharacter
  | negativeCharacter
  | hugePosition
  | hugeAmount
  -- a part that is not there
  | missingKey (quoted : Text)
  | missingAttribute (family name : Text)
  | emptyText
  -- readers and writers
  | decoding (e : Utf8.DecodeError)
  | encoding (e : Utf8.EncodeError)
  | jsonReading (e : Json.ReadError)
  | jsonWriting (e : Json.WriteError)
  | numeral (e : Numeral.Error)
  | date (e : Date.Error)
  | instant (e : Instant.Error)
  | offsetRange (quoted : Text)
  | integerTooLarge
  | nestedTooDeeply
  -- files
  | file (e : FileError) (quotedPath : Text)
  | badDescriptor
  | negativeDescriptor
  | noHome
  | hostName (family message : Text)
  | linkLoop (path : Text)
  -- what an object raises instead of answering
  | refused (e : Objection)
  -- the record's own failures
  | conversion (mediaType : Option Text) (reason : Text)
  | serialization (reason : Text)
  | filterLoad (message : Text)
  | invalid (report : Report)

-- ==================================================== validation texts

/-- The longest beginning of a text whose octets are at most `budget`. -/
def Issue.takeOctets : Nat → Text → Text
  | _, [] => []
  | budget, c :: rest =>
    let size := (Utf8.encodeChar c).length
    if size ≤ budget then c :: takeOctets (budget - size) rest else []

/-- The quoted form of a value; of one longer than fifty octets the first 25 and the last 24. -/
def Issue.shownInput (v : Value) : Text :=
  let shown := v.quoted
  if v.silence?.isSome then "<unprintable ".toList ++ v.family ++ " object>".toList
  else if (Utf8.encode shown).length ≤ 50 then shown
  else
    takeOctets 25 shown ++ "...".toList ++ (takeOctets 24 shown.reverse).reverse

/-- The two lines of a complaint. -/
def Issue.message (i : Issue) : Text :=
  i.location ++ "\n  ".toList ++ i.wording ++ " [type=".toList ++ i.code ++
    ", input_value=".toList ++ Issue.shownInput i.input ++ ", input_type=".toList ++
    i.input.family ++ [']']

/-- The text of a report: how many complaints there are about what, and each complaint. -/
def Report.message (r : Report) : Text :=
  Text.ofNat r.issues.length ++
    (if r.issues.length = 1 then " validation error for ".toList
      else " validation errors for ".toList) ++
    r.title ++ r.issues.flatMap fun i => '\n' :: i.message

-- ==================================================== classes and messages

namespace Fault

/-- The class of a fault. -/
def family : Fault → Text
  | .notIterable _ | .notUnpackable _ | .notContainer _ | .notSubscriptable _ | .notInteger _
  | .notBytes _ | .notPath _ | .octetPath | .notException _ | .notMatchable _ | .textPatternOnBytes
  | .textInBytes | .unhashable _ | .pairNotSequence _ | .wrongField .. | .arguments _
  | .levelType _ =>
    "TypeError".toList
  | .tooFewParts _ | .tooManyParts | .pairLength .. | .notMember .. | .noCategory | .noCluster
  | .byteRange | .negativeCount | .noSourceType | .noBody | .fileArgument _ | .nullByte
  | .unknownLevel _ | .tooManyDigits | .groupItem _ | .emptyGroup | .hugeCharacter
  | .hugeAmount | .numeral _ | .negativeDescriptor
  | .offsetRange _ =>
    "ValueError".toList
  | .hugeCount | .tooManyOctets | .negativeCharacter | .integerTooLarge | .hugePosition =>
    "OverflowError".toList
  | .nestedTooDeeply => "RecursionError".toList
  | .noMemory => "MemoryError".toList
  | .missingKey _ => "KeyError".toList
  | .missingAttribute .. | .unknownException .. => "AttributeError".toList
  | .emptyText => "IndexError".toList
  | .decoding _ => "UnicodeDecodeError".toList
  | .encoding _ => "UnicodeEncodeError".toList
  | .jsonReading e =>
    match e.flaw with
    | .tooDeep _ => "RecursionError".toList
    | .tooManyDigits _ => "ValueError".toList
    | _ => "JSONDecodeError".toList
  | .jsonWriting e => e.family
  | .date .outOfRange => "OverflowError".toList
  | .date _ => "ValueError".toList
  | .instant e =>
    match e with
    | .undefined | .date _ => "ValueError".toList
    | .tooFar => "OverflowError".toList
    | .yearOverflow => "OSError".toList
  | .file e _ => e.family
  | .badDescriptor => "OSError".toList
  | .noHome | .linkLoop _ => "RuntimeError".toList
  | .hostName family _ => family
  | .refused e => e.family
  | .conversion .. => "ContentConversionError".toList
  | .serialization _ => "AuditSerializationError".toList
  | .filterLoad _ => "AuditFilterLoadError".toList
  | .invalid _ => "ValidationError".toList

/-- `a`, a text between single quotes, `b`. -/
private def around (a quoted b : Text) : Text :=
  a ++ '\x27' :: quoted ++ '\x27' :: b

/-- The wording of a fault. -/
def message : Fault → Text
  | .notIterable t => around [] t " object is not iterable".toList
  | .notUnpackable t => "cannot unpack non-iterable ".toList ++ t ++ " object".toList
  | .notContainer t => around "argument of type ".toList t " is not iterable".toList
  | .notSubscriptable t => around [] t " object is not subscriptable".toList
  | .notInteger t => around [] t " object cannot be interpreted as an integer".toList
  | .notBytes t => around "cannot convert ".toList t " object to bytes".toList
  | .notPath t => "expected str, bytes or os.PathLike object, not ".toList ++ t
  | .octetPath =>
    ("argument should be a str object or an os.PathLike object returning str, " ++
      "not <class 'bytes'>").toList
  | .notException t => "Exception expected for value, ".toList ++ t ++ " found".toList
  | .notMatchable t => around "expected string or bytes-like object, got ".toList t []
  | .textPatternOnBytes => "cannot use a string pattern on a bytes-like object".toList
  | .textInBytes => "a bytes-like object is required, not 'str'".toList
  | .unhashable t => around "unhashable type: ".toList t []
  | .pairNotSequence i =>
    "cannot convert dictionary update sequence element #".toList ++ Text.ofNat i ++
      " to a sequence".toList
  | .wrongField wire expected t =>
    wire ++ " expects ".toList ++ expected ++ ", got ".toList ++ t
  | .arguments m => m
  | .tooFewParts n =>
    "not enough values to unpack (expected 2, got ".toList ++ Text.ofNat n ++ [')']
  | .tooManyParts => "too many values to unpack (expected 2)".toList
  | .pairLength i n =>
    "dictionary update sequence element #".toList ++ Text.ofNat i ++ " has length ".toList ++
      Text.ofNat n ++ "; 2 is required".toList
  | .notMember quoted t => quoted ++ " is not a valid ".toList ++ t
  | .noCategory => "Audit category is required".toList
  | .noCluster => "Cluster info is required".toList
  | .byteRange => "bytes must be in range(0, 256)".toList
  | .negativeCount => "negative count".toList
  | .hugeCount | .hugeAmount => "cannot fit 'int' into an index-sized integer".toList
  | .tooManyOctets => "byte string is too large".toList
  | .hugePosition => "Python int too large to convert to C ssize_t".toList
  | .noMemory => []
  | .noSourceType => "source_content_type parameter is required with source".toList
  | .noBody => "Request has no content or source parameter".toList
  | .fileArgument quoted => "Invalid file argument: ".toList ++ quoted
  | .nullByte => "embedded null byte".toList
  | .unknownLevel quoted => "Unknown level: ".toList ++ quoted
  | .levelType quoted => "Level not an integer or a valid string: ".toList ++ quoted
  | .tooManyDigits => Json.WriteError.tooManyDigits.message
  | .groupItem i =>
    "Item ".toList ++ Text.ofNat i ++
      " of second argument (exceptions) is not an exception".toList
  | .unknownException home name =>
    "module ".toList ++ around [] home (around " has no attribute ".toList name [])
  | .emptyGroup => "second argument (exceptions) must be a non-empty sequence".toList
  | .hugeCharacter => "chr() arg not in range(0x110000)".toList
  | .negativeCharacter => "Python int too large to convert to C int".toList
  | .missingKey quoted => quoted
  | .missingAttribute t name =>
    around [] t (around " object has no attribute ".toList name [])
  | .emptyText => "string index out of range".toList
  | .decoding e => e.message
  | .encoding e => e.message
  | .jsonReading e => e.message
  | .jsonWriting e => e.message
  | .numeral e => e.message
  | .date e => e.message
  | .instant e => e.message
  | .offsetRange quoted =>
    ("offset must be a timedelta strictly between -timedelta(hours=24) and " ++
      "timedelta(hours=24), not ").toList ++ quoted ++ ['.']
  | .integerTooLarge => "int too large to convert to float".toList
  | .nestedTooDeeply => "maximum recursion depth exceeded".toList
  | .file e quotedPath =>
    "[Errno ".toList ++ Text.ofNat e.describe.1 ++ "] ".toList ++ e.describe.2 ++ ": ".toList ++
      quotedPath
  | .badDescriptor => "[Errno 9] Bad file descriptor".toList
  | .negativeDescriptor => "negative file descriptor".toList
  | .noHome => "Could not determine home directory.".toList
  | .linkLoop path => "Symlink loop from ".toList ++ Text.quoted path
  | .hostName _ m => m
  | .refused e => e.message
  | .conversion mediaType reason =>
    match mediaType with
    | some (c :: name) => '[' :: c :: name ++ "] ".toList ++ reason
    | _ => reason
  | .serialization reason => "Failed to serialize audit record: ".toList ++ reason
  | .filterLoad m => m
  | .invalid r => r.message

-- ==================================================== handlers

/-- A fault of a value that cannot be shown. -/
def ofSilence : Value.Silence → Fault
  | .digits => .tooManyDigits
  | .refused e => .refused e

/-- The exception that a fault is. -/
def raised : Fault → Objection
  | .refused e | .jsonWriting (.refused e) => e
  | e => .told e.family (.ofFamily e.family) e.message

/-- Whether a fault is of the ordinary kind, which handlers of all exceptions catch. -/
def isOrdinary (e : Fault) : Bool := e.raised.kind != .beyond

/-- The message of a fault as a handler puts it into words; asking for it may raise another one. -/
def wording (e : Fault) : Except Fault Text :=
  match e.raised with
  | .told _ _ message => .ok message
  | .untold _ _ instead => .error (.refused instead)

end Fault

end AuditTrail
