/-
The command line of the program: its commands, their options, and the texts that explain them.
-/
import AuditTrail.Command.Arguments

namespace AuditTrail.Command

/-- How a record is printed. -/
inductive Layout where
  | json
  | pretty
  | text
  | url
  deriving DecidableEq, Repr, Inhabited

/-- The layouts, by their names. -/
def layouts : List (Text × Layout) :=
  [("json".toList, .json), ("pretty".toList, .pretty), ("text".toList, .text),
   ("url".toList, .url)]

/-- What the program is asked to do: a command and its arguments. -/
inductive Task where
  /-- Record the fingerprints of files. -/
  | fingerprint (files : List Text) (layout : Layout)
  /-- Show the filter that holds, or the one of a file. -/
  | filter (path : Option Text) (asJson : Bool)
  deriving DecidableEq, Repr

/-- What a command line says. -/
structure Invocation where
  logLevel : Option Text
  task : Option Task
  extras : List Text
  deriving DecidableEq, Repr

/-- The name of the program. -/
def program : Text := "auditrecord".toList

/-- The version of the program. -/
def version : Text := "0.4.0".toList

-- ==================================================== explanations

/-- How the program is used. -/
def usage : Text :=
  ("usage: auditrecord [-h] [--version] [--log-level LOG_LEVEL]\n" ++
    "                   \x7bfingerprint,filter\x7d ...\n").toList

/-- The explanation of the program. -/
def help : Text :=
  usage ++
    ("\nBuild and inspect redacted audit records\n" ++
      "\npositional arguments:\n" ++
      "  \x7bfingerprint,filter\x7d  Available commands\n" ++
      "    fingerprint         Record file fingerprints as a compliance event\n" ++
      "    filter              Show the effective audit filter\n" ++
      "\noptions:\n" ++
      "  -h, --help            show this help message and exit\n" ++
      "  --version             show program's version number and exit\n" ++
      "  --log-level LOG_LEVEL\n" ++
      "                        Log level (default: from settings)\n").toList

/-- How fingerprints are asked for. -/
def fingerprintUsage : Text :=
  ("usage: auditrecord fingerprint [-h] [--format \x7bjson,pretty,text,url\x7d]\n" ++
    "                               KEY=PATH [KEY=PATH ...]\n").toList

/-- The explanation of fingerprints. -/
def fingerprintHelp : Text :=
  fingerprintUsage ++
    ("\nBuild a COMPLIANCE_EXTERNAL_CONFIG record with SHA-256 fingerprints of files\n" ++
      "\npositional arguments:\n" ++
      "  KEY=PATH              Logical key and file path (a bare path uses itself as\n" ++
      "                        key)\n" ++
      "\noptions:\n" ++
      "  -h, --help            show this help message and exit\n" ++
      "  --format \x7bjson,pretty,text,url\x7d\n" ++
      "                        Output format (default: json)\n").toList

/-- How the filter is asked for. -/
def filterUsage : Text := "usage: auditrecord filter [-h] [--path PATH] [--json]\n".toList

/-- The explanation of the filter. -/
def filterHelp : Text :=
  filterUsage ++
    ("\nLoad the audit filter from a file or the environment and print it\n" ++
      "\noptions:\n" ++
      "  -h, --help   show this help message and exit\n" ++
      "  --path PATH  Audit filter YAML file (default: AUDIT_FILTER_PATH or\n" ++
      "               environment)\n" ++
      "  --json       Output as JSON\n").toList

-- ==================================================== parsers

/-- An option that shows a text instead of running a command. -/
def shows {σ : Type} (names : List Text) (text : Text) : Opt σ :=
  ⟨names, false, [], fun _ _ => .error (.shown text)⟩

/-- The names of the option that explains a command. -/
def helpNames : List Text := ["-h".toList, "--help".toList]

/-- The arguments of the command for fingerprints. -/
def fingerprintParser : Parser (List Text × Layout) where
  program := "auditrecord fingerprint".toList
  usage := fingerprintUsage
  options :=
    [shows helpNames fingerprintHelp,
     ⟨["--format".toList], true, layouts.map (·.1),
       fun v s => .ok (s.1, (layouts.lookup v).getD s.2)⟩]
  positional := some ⟨"KEY=PATH".toList, .some, true, fun files s => .ok (files, s.2)⟩

/-- The arguments of the command for the filter. -/
def filterParser : Parser (Option Text × Bool) where
  program := "auditrecord filter".toList
  usage := filterUsage
  options :=
    [shows helpNames filterHelp,
     ⟨["--path".toList], true, [], fun v s => .ok (some v, s.2)⟩,
     ⟨["--json".toList], false, [], fun _ s => .ok (s.1, true)⟩]
  positional := none

/-- The names of the commands. -/
def commandNames : List Text := ["fingerprint".toList, "filter".toList]

/-- A command by its name and arguments, and the arguments that it does not take. -/
def ofWords (words : List Text) : Except Stop (Task × List Text) :=
  let refuse (name : Text) : Except Stop (Task × List Text) :=
    .error (.refused usage program ("argument command: invalid choice: ".toList ++
      Text.quoted name ++ " (choose from ".toList ++
      Text.joinWith ", ".toList (commandNames.map Text.quoted) ++ [')']))
  match words with
  | [] => refuse []
  | name :: rest =>
    if name == "fingerprint".toList then do
      let (s, extras) ← fingerprintParser.parse rest ([], .json)
      .ok (.fingerprint s.1 s.2, extras)
    else if name == "filter".toList then do
      let (s, extras) ← filterParser.parse rest (none, false)
      .ok (.filter s.1 s.2, extras)
    else refuse name

/-- The arguments of the program. -/
def mainParser : Parser Invocation where
  program := program
  usage := usage
  options :=
    [shows helpNames help,
     shows ["--version".toList] (program ++ ' ' :: version ++ ['\n']),
     ⟨["--log-level".toList], true, [], fun v s => .ok { s with logLevel := some v }⟩]
  positional :=
    some ⟨"command".toList, .all, false, fun words s => do
      let (c, extras) ← ofWords words
      .ok { s with task := some c, extras := extras }⟩

/-- What a command line says, unless it is refused or asks for a text. -/
def invocation (args : List Text) : Except Stop Invocation := do
  let (s, extras) ← mainParser.parse args ⟨none, none, []⟩
  match extras ++ s.extras with
  | [] => .ok s
  | extras =>
    .error (.refused usage program
      ("unrecognized arguments: ".toList ++ Text.joinWith [' '] extras))

end AuditTrail.Command
