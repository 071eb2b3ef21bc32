/-
Content of a request made into JSON text on one line, so that redaction always works on one form.
The media type, without its parameters, says how the content is read: as JSON, as YAML, or as JSON
line by line; content of any other type is refused.
-/
import AuditTrail.Content.Octets
import AuditTrail.Json.Reader
import AuditTrail.Json.Writer
import AuditTrail.Text.Lines
import AuditTrail.Text.Lower
import AuditTrail.Yaml.Reader

namespace AuditTrail.Content

/-- How content is read. -/
inductive Format where
  | json
  | yaml
  /-- One JSON text a line. -/
  | jsonLines
  deriving DecidableEq, Repr

namespace Format

/-- The media types of each format. -/
def mediaTypes : Format → List Text
  | .json => ["application/json".toList, "text/json".toList]
  | .yaml =>
    ["application/yaml".toList, "application/x-yaml".toList, "text/yaml".toList,
     "text/x-yaml".toList]
  | .jsonLines => ["application/x-ndjson".toList, "application/ndjson".toList]

/-- The end of the name of a media type whose content is JSON, whatever else it is. -/
def jsonEnding : Text := "+json".toList

/-- The format of a media type in lower case and without parameters. -/
def ofMediaType? (base : Text) : Option Format :=
  if Format.json.mediaTypes.contains base || base.endsWith jsonEnding then some .json
  else if Format.yaml.mediaTypes.contains base then some .yaml
  else if Format.jsonLines.mediaTypes.contains base then some .jsonLines
  else none

end Format

/-- A media type in lower case and without its parameters. -/
def baseMediaType (mediaType : Text) : Text :=
  let name :=
    match Text.cutFirst ';' mediaType with
    | some (name, _) => name
    | none => mediaType
  Text.lower (Text.trim name)

/-- The base of a media type that need not be a text; a missing one is empty. -/
def baseOfValue (mediaType : Value) : Except Fault Text := do
  if ← mediaType.truth then
    match mediaType.text?, mediaType with
    | some s, _ => .ok (baseMediaType s)
    | none, .bytes _ => .error .textInBytes
    | none, v => .error (.missingAttribute v.qualifiedFamily "split".toList)
  else .ok []

/-- A failure to convert, with its reason after a heading. -/
def refuse {α : Type} (base heading reason : Text) : Except Fault α :=
  .error (.conversion (some base) (heading ++ reason))

/-- A value as JSON text on one line. -/
def dump (v : Value) : Except Fault Text :=
  match Json.write .compact v with
  | .ok s => .ok s
  | .error e => .error (.jsonWriting e)

/-- JSON text on one line with the content of a JSON text. -/
def restate (s : Text) : Except Fault Text :=
  match Json.read s with
  | .ok v => dump v
  | .error e => .error (.jsonReading e)

/-- JSON text from JSON text. -/
def ofJson (base s : Text) : Except Fault Text :=
  match restate s with
  | .ok out => .ok out
  | .error e => refuse base "Invalid JSON content: ".toList e.message

/-- JSON texts from those lines that are not blank. -/
def ofJsonLines (base s : Text) : Except Fault Text :=
  match ((Text.lines s).filter fun line => !Text.isAllBlank line).mapM restate with
  | .ok outs => .ok (Text.joinWith ['\n'] outs)
  | .error e => refuse base "Invalid NDJSON content: ".toList e.message

/-- Whether a fault of a value is reported as a failure to convert; any other passes through. -/
def isValueFault (e : Fault) : Bool :=
  [.type, .value, .decoding, .recursion].contains e.raised.kind

/-- JSON text from YAML text. -/
def ofYaml (base s : Text) : Except Fault Text :=
  let faulty (e : Fault) : Except Fault Text :=
    if isValueFault e then refuse base "YAML content is not JSON compatible: ".toList e.message
    else .error e
  match Yaml.read s with
  | .error (.fault e) => faulty e
  | .error e => refuse base "Invalid YAML content: ".toList (e.message (.ofText s))
  | .ok v =>
    match dump v with
    | .ok out => .ok out
    | .error e => faulty e

/-- The JSON text of content of a media type. -/
def toJson (content mediaType : Value) : Except Fault Text := do
  let base ← baseOfValue mediaType
  let s ← text content base
  match Format.ofMediaType? base with
  | some .json => ofJson base s
  | some .yaml => ofYaml base s
  | some .jsonLines => ofJsonLines base s
  | none => do
    .error (.conversion (if base.isEmpty then none else some base)
      ("Unsupported media type: ".toList ++ (← mediaType.quotedText)))

/-- The JSON text of a mapping, or of the pairs that make one. -/
def mappingToJson (mapping : Value) : Except Fault Text :=
  match mapping.toEntries.bind fun entries => dump (.map entries) with
  | .ok s => .ok s
  | .error e =>
    if isValueFault e then do
      .error (.conversion none ("Mapping is not JSON serializable: ".toList ++ (← e.wording)))
    else .error e

end AuditTrail.Content
