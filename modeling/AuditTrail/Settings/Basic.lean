/-
The settings of a node: who it is, what may be recorded, how much is reported. They come from the
environment, or else from a file of variables in the working directory; letter case of names does
not matter, and of two names that differ in letter case only the later one holds.
-/
import AuditTrail.Filter.Options
import AuditTrail.Host
import AuditTrail.Settings.EnvFile
import AuditTrail.Text.Lines

namespace AuditTrail

/-- The settings of a node. -/
structure Settings where
  nodeId : Option Text
  nodeName : Option Text
  nodeHostName : Option Text
  nodeHostAddress : Option Text
  clusterName : Text
  filterPath : Option Path
  excludeSensitiveHeaders : Bool
  logRequestBody : Bool
  ignoreHeaders : Text
  ignoreUrlParams : Text
  logLevel : Text
  deriving DecidableEq, Repr

namespace Settings

/-- The file of variables in the working directory. -/
def envFile : Text := ".env".toList

/-- The title of a report about settings. -/
def title : Text := "Settings".toList

/-- The text of the file of variables; without such a file it is empty. -/
def envFileText (h : Host) : Except Fault Text :=
  match (h.files.locate true h.directory envFile).bind h.files.contentAt with
  | .error .denied => .error (.file .denied (Text.quoted envFile))
  | .error .nameTooLong => .error (.file .nameTooLong (Text.quoted envFile))
  | .error _ => .ok []
  | .ok octets =>
    match Utf8.decode octets with
    | .ok s => .ok (Text.unifyLineEnds s)
    | .error e => .error (.decoding e)

/-- The environment as references in the file of variables see it. -/
def references (h : Host) : List (Text × Text) := h.environment ++ [("HOME".toList, h.home)]

/-- Variables by name in lower case, in the order in which they were set. The file may set a
variable to no value. -/
abbrev Bound := List (Text × Option Text)

/-- The variables of the file and then those of the environment. -/
def bound (h : Host) (file : Text) : Bound :=
  let fromFile := EnvFile.bindings (references h) file
  (fromFile.map fun b => (Text.lower b.name, b.value)) ++
    h.environment.map fun p => (Text.lower p.1, some p.2)

/-- The value of a variable: the last one set. -/
def find? (values : Bound) (name : String) : Option Text :=
  (values.reverse.lookup (Text.lower name.toList)).join

/-- A flag among the variables, and the complaint about it. -/
def flag (values : Bound) (name : String) (absent : Bool) : Bool × List Issue :=
  match find? values name with
  | none => (absent, [])
  | some s =>
    match Flag.ofValue (.text s) with
    | .ok b => (b, [])
    | .error e => (absent, [e.issue name.toList (.text s)])

/-- The settings that variables make. -/
def ofVariables (values : Bound) : Except Report Settings :=
  let find := find? values
  let sensitive := flag values "AUDIT_EXCLUDE_SENSITIVE_HEADERS" true
  let body := flag values "AUDIT_LOG_REQUEST_BODY" true
  match sensitive.2 ++ body.2 with
  | [] =>
    .ok
      { nodeId := find "AUDIT_NODE_ID"
        nodeName := find "AUDIT_NODE_NAME"
        nodeHostName := find "AUDIT_NODE_HOST_NAME"
        nodeHostAddress := find "AUDIT_NODE_HOST_ADDRESS"
        clusterName := (find "AUDIT_CLUSTER_NAME").getD "auditrecord".toList
        filterPath := (find "AUDIT_FILTER_PATH").map Path.ofText
        excludeSensitiveHeaders := sensitive.1
        logRequestBody := body.1
        ignoreHeaders := (find "AUDIT_IGNORE_HEADERS").getD []
        ignoreUrlParams := (find "AUDIT_IGNORE_URL_PARAMS").getD []
        logLevel := (find "LOG_LEVEL").getD "INFO".toList }
  | issues => .error ⟨title, issues⟩

/-- The settings that hold on a machine. -/
def read (h : Host) : Except Fault Settings := do
  let file ← envFileText h
  match ofVariables (bound h file) with
  | .ok s => .ok s
  | .error r => .error (.invalid r)

/-- The lines of the file of variables that cannot be read. -/
def flawedLines (h : Host) : List Nat :=
  match envFileText h with
  | .ok s => EnvFile.flawedLines s
  | .error _ => []

/-- The settings as a map. -/
def toEntries (s : Settings) : Value.Entries :=
  let optional (v : Option Text) : Value :=
    match v with
    | some t => .text t
    | none => .null
  [(.text "node_id".toList, optional s.nodeId),
   (.text "node_name".toList, optional s.nodeName),
   (.text "node_host_name".toList, optional s.nodeHostName),
   (.text "node_host_address".toList, optional s.nodeHostAddress),
   (.text "cluster_name".toList, .text s.clusterName),
   (.text "audit_filter_path".toList, optional (s.filterPath.map Path.toText)),
   (.text Filter.excludeSensitiveHeadersName, .bool s.excludeSensitiveHeaders),
   (.text Filter.logRequestBodyName, .bool s.logRequestBody),
   (.text Filter.ignoreHeadersName, .text s.ignoreHeaders),
   (.text Filter.ignoreUrlParamsName, .text s.ignoreUrlParams),
   (.text "log_level".toList, .text s.logLevel)]

end Settings

/-- The filter that settings describe. -/
def Filter.ofSettings (s : Settings) : Filter :=
  ⟨s.excludeSensitiveHeaders, s.logRequestBody, Patterns.ofText s.ignoreHeaders,
    Patterns.ofText s.ignoreUrlParams⟩

end AuditTrail
