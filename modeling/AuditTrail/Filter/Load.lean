/-
Filters from files. A path given outright must lead to a usable file; a path from the settings is
only tried, and where its file is unusable the filter that the settings describe holds instead.
-/
import AuditTrail.Log
import AuditTrail.Settings.Basic
import AuditTrail.Yaml.Reader

namespace AuditTrail.Filter

/-- The filter that a file describes. -/
def ofFile (name : Text) (octets : Bytes) : Except Fault Filter :=
  match Yaml.readOptions (.ofOctets octets) with
  | .error (.fault e) => .error e
  | .error e =>
    .error (.filterLoad ("Invalid YAML in audit filter file: ".toList ++ e.message ⟨name, none⟩))
  | .ok .malformed =>
    .error (.filterLoad "Audit filter file must contain a YAML mapping".toList)
  | .ok (.given options) =>
    match ofOptions options with
    | .ok f => .ok f
    | .error r =>
      .error (.filterLoad ("Invalid audit filter configuration: ".toList ++ r.message))

/-- The filter of the file that a path leads to, and the report that it was loaded. -/
def load (h : Host) (path : Path) : Except Fault (Filter × List LogEntry) := do
  let path ← path.expandHome h.home h.users
  if path.hasNull then throw .nullByte
  let shown := Path.textOfPlace (h.files.resolve h.directory path)
  match h.files.locate true [] shown with
  | .error .linkLoop => .error (.linkLoop shown)
  | .error .nameTooLong => .error (.file .nameTooLong (Text.quoted shown))
  | .error .denied => .error (.file .denied (Text.quoted shown))
  | .error _ => .error (.filterLoad ("Audit filter file not found: ".toList ++ shown))
  | .ok q =>
    match h.files.item? q with
    | some (.file octets) => do
      let f ← ofFile shown octets
      .ok (f, [⟨.info, .config, "Loaded audit filter from ".toList ++ shown⟩])
    | some .lockedFile =>
      .error (.filterLoad
        ("Cannot read audit filter file: ".toList ++
          (Fault.file .denied (Text.quoted shown)).message))
    | _ => .error (.filterLoad ("Audit filter path is not a file: ".toList ++ shown))

/-- The filter of the file that a value names. -/
def loadValue (h : Host) (path : Value) : Except Fault (Filter × List LogEntry) := do
  load h (← Path.ofValue path)

/-- The filter that settings lead to: of the file that they name if it is usable, or else the one
that they describe. -/
def loadFromSettings (h : Host) (s : Settings) : Except Fault (Filter × List LogEntry) :=
  match s.filterPath with
  | none => .ok (ofSettings s, [])
  | some path =>
    match load h path with
    | .ok r => .ok r
    | .error (.filterLoad m) =>
      .ok (ofSettings s,
        [⟨.warning, .config,
          "Failed to load audit filter from AUDIT_FILTER_PATH: ".toList ++ m⟩])
    | .error e => .error e

/-- The filter that holds on a machine. -/
def effective (h : Host) : Except Fault (Filter × List LogEntry) := do
  loadFromSettings h (← Settings.read h)

end AuditTrail.Filter
