/-
The program: what a command line prints on some machine at some time, and how it ends. Failures of
a command end it with a message; failures to set up reporting do not.
-/
import AuditTrail.Command.Grammar
import AuditTrail.Filter.Load
import AuditTrail.Record.Call
import AuditTrail.Record.Projection

namespace AuditTrail.Command

/-- How the program ends. -/
inductive Ending where
  /-- With a code; `early` if no command was run. -/
  | exit (code : Nat) (early : Bool)
  /-- With a fault that nothing handles. -/
  | escaped (f : Fault)

/-- What the program printed, and how it ended. -/
structure Finished where
  out : Text
  err : Text
  ending : Ending

/-- What a command prints, and the fault that ends it, if one does. -/
structure Printed where
  out : Text
  err : Text
  fault : Option Fault

-- ==================================================== reporting

/-- The upper case of a character as far as it is ASCII: of the small letters, of the variants of
two of them, and of the ligatures that become two or three letters. Any other stays. -/
def upperChar (c : Char) : Text :=
  match c.toNat with
  | 0x131 => ['I']
  | 0x17F => ['S']
  | 0xDF => ['S', 'S']
  | 0xFB00 => ['F', 'F']
  | 0xFB01 => ['F', 'I']
  | 0xFB02 => ['F', 'L']
  | 0xFB03 => ['F', 'F', 'I']
  | 0xFB04 => ['F', 'F', 'L']
  | 0xFB05 | 0xFB06 => ['S', 'T']
  | _ => [c.toUpper]

/-- The thresholds of reporting by their names. -/
def thresholds : List (Text × Nat) :=
  [("CRITICAL".toList, 50), ("FATAL".toList, 50), ("ERROR".toList, 40), ("WARNING".toList, 30),
   ("WARN".toList, 30), ("INFO".toList, 20), ("DEBUG".toList, 10), ("NOTSET".toList, 0)]

/-- What a layout style is made of, in the quoted form of a table of styles: the sign of the style,
the name of its class, and how it writes the parts of a report. -/
def style (sign layoutClass : String) (before after : String) : Text :=
  let part (name : String) : Text := (before ++ name ++ after).toList
  '\x27' :: sign.toList ++ "': (<class 'logging.".toList ++ layoutClass.toList ++ "'>, '".toList ++
    part "levelname" ++ ':' :: part "name" ++ ':' :: part "message" ++ "')".toList

/-- The names that stand for something else than a threshold, and why that is none: a layout of
reports, and the table of the styles that layouts have. -/
def notThresholds : List (Text × Fault) :=
  [("BASIC_FORMAT".toList,
    .unknownLevel (Text.quoted "%(levelname)s:%(name)s:%(message)s".toList)),
   ("_STYLES".toList,
    .levelType ('\x7b' :: Text.joinWith ", ".toList
      [style "%" "PercentStyle" "%(" ")s", style "\x7b" "StrFormatStyle" "\x7b" "\x7d",
       style "$" "StringTemplateStyle" "$\x7b" "\x7d"] ++ ['\x7d']))]

/-- The threshold with some name; a name that is not known counts as that of information. -/
def threshold (name : Text) : Except Fault Nat :=
  let name := name.flatMap upperChar
  match notThresholds.lookup name with
  | some e => .error e
  | none => .ok ((thresholds.lookup name).getD Severity.info.rank)

/-- A report as a line, `stamp` standing for the time. -/
def line (stamp severity source message : Text) : Text :=
  stamp ++ ' ' :: severity ++ ' ' :: source ++ ':' :: ' ' :: message ++ ['\n']

/-- The reports that reach a threshold, as lines. -/
def reported (stamp : Text) (limit : Nat) (logs : List LogEntry) : Text :=
  (logs.filter fun l => limit ≤ l.severity.rank).flatMap fun l =>
    line stamp l.severity.label l.source.label l.message

/-- The complaint about a line of the file of variables. -/
def flawedLine (n : Nat) : Text :=
  "python-dotenv could not parse statement starting at line ".toList ++ Text.ofNat n

/-- The complaints about the file of variables before reporting is set up. -/
def plainComplaints (h : Host) : Text :=
  (Settings.flawedLines h).flatMap fun n => flawedLine n ++ ['\n']

/-- The complaints about the file of variables as reports. -/
def complaints (stamp : Text) (limit : Nat) (h : Host) : Text :=
  if limit ≤ Severity.warning.rank then
    (Settings.flawedLines h).flatMap fun n =>
      line stamp Severity.warning.label "dotenv.main".toList (flawedLine n)
  else []

-- ==================================================== fingerprints

/-- The paths after one was given: a key keeps its place. -/
def putPath (key path : Text) : List (Text × Text) → List (Text × Text)
  | [] => [(key, path)]
  | p :: rest => if p.1 = key then (key, path) :: rest else p :: putPath key path rest

/-- The key and the path of a file argument; a path alone is its own key. -/
def fileArgument (s : Text) : Except Fault (Text × Text) :=
  let (key, path) := (Text.cutFirst '=' s).getD (s, s)
  if key.isEmpty || path.isEmpty then .error (.fileArgument (Text.quoted s)) else .ok (key, path)

/-- The paths after some were given one after the other. -/
def putPaths (pairs : List (Text × Text)) : List (Text × Text) :=
  pairs.foldl (fun acc p => putPath p.1 p.2 acc) []

/-- The paths that file arguments give, in the order in which their keys first occur. -/
def fileArguments (args : List Text) : Except Fault (List (Text × Text)) :=
  (args.mapM fileArgument).map putPaths

/-- The key and the path of a value, which has to be a text. -/
def fileArgumentOfValue (v : Value) : Except Fault (Text × Text) :=
  match v.text?, v with
  | some s, _ => fileArgument s
  | none, .bytes _ => .error .textInBytes
  | none, v => .error (.missingAttribute v.qualifiedFamily "partition".toList)

/-- The paths that the items of a value give as file arguments. -/
def fileArgumentsOfValue (v : Value) : Except Fault (List (Text × Text)) :=
  (v.walkThrough (List.mapM fileArgumentOfValue) (.notIterable v.qualifiedFamily)).map putPaths

/-- The halves of surrogate pairs in a record: in the texts of its fields, by their keys, and in the
record as it is printed, as far as the output refuses them. -/
structure Torn where
  forms : Text → Utf8.Halves
  shown : Utf8.Halves

/-- A record without such halves, or at least none that matters. -/
def Torn.none : Torn := ⟨fun _ => .none, .none⟩

/-- A record in some layout. -/
def layOut (layout : Layout) (r : Record) (torn : Torn) : Except Fault Text :=
  match layout with
  | .json => Projection.compactJson r.wireFields
  | .pretty => Projection.prettyJson r.wireFields
  | .text => Projection.text r.wireFields
  | .url => Projection.query r.wireFields torn.forms

/-- A record as printed in some layout, if the output takes it. -/
def render (layout : Layout) (r : Record) (torn : Torn) : Except Fault Text := do
  let shown ← layOut layout r torn
  match Utf8.encodeError? torn.shown shown with
  | some e => .error (.encoding e)
  | none => .ok shown

/-- How many fingerprints a record holds. -/
def recorded (r : Record) : Nat :=
  match r.get? .complianceFileInfos with
  | some (.list items) => items.length
  | _ => 0

/-- The line that says how many files were left out, if any were. -/
def skippedLine (count : Nat) : Text :=
  if count = 0 then []
  else "Skipped ".toList ++ Text.ofNat count ++ " unreadable file(s)\n".toList

/-- The record of some files' fingerprints, printed in some layout. -/
def printFingerprints (h : Host) (now : DateTime) (torn : Torn) (log : List LogEntry → Text)
    (s : Settings) (paths : List (Text × Text)) (layout : Layout) : Printed :=
  let started := do
    let cluster ← Cluster.ofSettings h s
    Record.start (.term (.category .complianceExternalConfig)) (some cluster)
      (.term (.origin .localNode)) .null now
  match started with
  | .error e => ⟨[], [], some e⟩
  | .ok r =>
    let call : Call := .fileInfos (.map (paths.map fun p => (.text p.1, .text p.2)))
    let o := call.outcome h r.node
    match o.fault with
    | some e => ⟨[], log o.logs, some e⟩
    | none =>
      let r := r.putAll o.writes
      match render layout r torn with
      | .error e => ⟨[], log o.logs, some e⟩
      | .ok shown =>
        ⟨shown ++ ['\n'], log o.logs ++ skippedLine (paths.length - recorded r), none⟩

-- ==================================================== the filter

/-- A flag as the description of a filter shows it. -/
def flagText (b : Bool) : Text := if b then "True".toList else "False".toList

/-- Patterns as the description of a filter shows them. -/
def patternText (patterns : List Text) : Text :=
  match Text.joinWith ", ".toList patterns with
  | [] => ['-']
  | s => s

/-- The description of a filter. -/
def describe (f : Filter) : Text :=
  "Exclude sensitive headers: ".toList ++ flagText f.excludeSensitiveHeaders ++
    "\nLog request body:          ".toList ++ flagText f.logRequestBody ++
    "\nIgnored headers:           ".toList ++ patternText f.ignoreHeaders ++
    "\nIgnored URL params:        ".toList ++ patternText f.ignoreUrlParams ++ ['\n']

/-- A filter as it is printed. -/
def printFilter (f : Filter) (asJson : Bool) : Except Fault Text :=
  if asJson then
    match Json.write .prettyAscii (.map f.toOptions) with
    | .ok s => .ok (s ++ ['\n'])
    | .error e => .error (.jsonWriting e)
  else .ok (describe f)

-- ==================================================== commands

/-- What a command prints when reports reach a threshold. `known` are the settings if they were
read already. -/
def perform (h : Host) (now : DateTime) (torn : Torn) (stamp : Text) (limit : Nat)
    (known : Option Settings) (c : Task) : Printed :=
  let log := reported stamp limit
  let withSettings (next : Settings → Printed) : Printed :=
    match known with
    | some s => next s
    | none =>
      let warned := complaints stamp limit h
      match Settings.read h with
      | .error e => ⟨[], warned, some e⟩
      | .ok s =>
        let r := next s
        { r with err := warned ++ r.err }
  match c with
  | .fingerprint files layout =>
    match fileArguments files with
    | .error e => ⟨[], [], some e⟩
    | .ok paths => withSettings fun s => printFingerprints h now torn log s paths layout
  | .filter path asJson =>
    let print (r : Except Fault (Filter × List LogEntry)) : Printed :=
      match r with
      | .error e => ⟨[], [], some e⟩
      | .ok (f, logs) =>
        match printFilter f asJson with
        | .ok s => ⟨s, log logs, none⟩
        | .error e => ⟨[], log logs, some e⟩
    match path with
    | some path => print (Filter.load h (Path.ofText path))
    | none => withSettings fun s => print (Filter.loadFromSettings h s)

/-- A command's report as an ending of the program. -/
def finish (r : Printed) : Finished :=
  match r.fault with
  | none => ⟨r.out, r.err, .exit 0 false⟩
  | some e => ⟨r.out, r.err ++ "Error: ".toList ++ e.message ++ ['\n'], .exit 1 false⟩

/-- Runs a command with reports of some level, or of the level in the settings. -/
def runCommand (h : Host) (now : DateTime) (torn : Torn) (stamp : Text) (level : Option Text)
    (c : Task) : Finished :=
  match level with
  | some (a :: rest) =>
    match threshold (a :: rest) with
    | .error e => ⟨[], [], .escaped e⟩
    | .ok limit => finish (perform h now torn stamp limit none c)
  | _ =>
    let warned := plainComplaints h
    match Settings.read h with
    | .error e => ⟨[], warned, .escaped e⟩
    | .ok s =>
      match threshold s.logLevel with
      | .error e => ⟨[], warned, .escaped e⟩
      | .ok limit =>
        let f := finish (perform h now torn stamp limit (some s) c)
        { f with err := warned ++ f.err }

/-- Runs the program. A record that it prints may hold halves of surrogate pairs. -/
def run (h : Host) (now : DateTime) (torn : Torn) (stamp : Text) (args : List Text) : Finished :=
  match invocation args with
  | .error (.shown text) => ⟨text, [], .exit 0 true⟩
  | .error (.refused usage program message) =>
    ⟨[], usage ++ program ++ ": error: ".toList ++ message ++ ['\n'], .exit 2 true⟩
  | .ok i =>
    match i.task with
    | none => ⟨help, [], .exit 1 false⟩
    | some c => runCommand h now torn stamp i.logLevel c

end AuditTrail.Command
