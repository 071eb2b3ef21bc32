/-
The operations that add what is known of an event to a record. Each one ignores missing input and
otherwise writes its fields in full; what is written depends on the operation, its arguments and
the node only, never on the record. Redaction happens on the way, so nothing secret is written.
-/
import AuditTrail.Content.Conversion
import AuditTrail.Files.Fingerprint
import AuditTrail.Record.Argument
import AuditTrail.Record.Basic
import AuditTrail.Redaction.Header

namespace AuditTrail

/-- An operation on a record, with its arguments. -/
inductive Call where
  -- the actor
  | remoteAddress (address : Value)
  | isAdminDn (flag : Value)
  | initiatingUser (user : Value)
  | effectiveUser (user : Value)
  | privilege (privilege : Value)
  | exception (e : Argument)
  -- compliance
  | writeDiff (diff : Value)
  | securityWriteDiff (diff document : Value)
  | operation (operation : Value)
  | docVersion (version : Value)
  | fileInfos (paths : Value)
  -- the request body
  | bodyPair (content : Value)
  | bodyMapping (mapping : Value)
  | bodyText (source : Value)
  | securityText (source document : Value)
  | securityPair (content document : Value)
  | securityMapping (mapping document : Value)
  -- transport and trace
  | requestType (type : Value)
  | action (action : Value)
  | documentId (id : Value)
  | indices (indices : Value)
  | resolvedIndices (indices : Value)
  | taskId (id : Value)
  | parentTaskId (id : Value)
  | shard (s : Argument)
  | transportHeaders (headers exclude : Value)
  -- REST
  | path (path : Value)
  | method (method : Value)
  | params (params : Value) (filter : FilterChoice)
  | headers (headers exclude : Value) (filter : FilterChoice)
  | request (r : Argument) (filter : FilterChoice)

/-- What an operation does: the fields it writes, in order, the fault that ends it, if one does,
and what it reports. -/
structure Outcome where
  writes : List Write
  fault : Option Fault
  logs : List LogEntry

namespace Outcome

/-- Nothing happens. -/
def nothing : Outcome := ⟨[], none, []⟩

/-- Either a fault or some writes. -/
def of (r : Except Fault (List Write)) : Outcome :=
  match r with
  | .ok ws => ⟨ws, none, []⟩
  | .error e => ⟨[], some e, []⟩

/-- One operation after another, unless the first one ends in a fault. -/
def andThen (a b : Outcome) : Outcome :=
  match a.fault with
  | some _ => a
  | none => ⟨a.writes ++ b.writes, b.fault, a.logs ++ b.logs⟩

end Outcome

namespace Call

/-- What a record says instead of a body that cannot be converted. -/
def conversionMarker : Text := "ERROR: Unable to convert to json".toList

/-- What a record says instead of a body that cannot be read. -/
def bodyMarker : Text := "ERROR: Unable to generate request body".toList

/-- Writes one value to a field. -/
def write (f : Field) (v : Value) : Except Fault (List Write) := do .ok [← Write.of f v]

/-- Writes something if a value is neither missing nor empty. -/
def ifPresent (v : Value) (x : Except Fault (List Write)) : Except Fault (List Write) := do
  if ← v.truth then x else .ok []

/-- Writes one value to a field, unless it is missing or empty. -/
def writePresent (f : Field) (v : Value) : Except Fault (List Write) := ifPresent v (write f v)

-- ==================================================== bodies

/-- The JSON text of a media type and content that come as a pair. -/
def pairToJson (content : Value) : Except Fault Text := do
  let (mediaType, raw) ← content.pair
  Content.toJson raw mediaType

/-- The converted body, or what the record says of the failure to convert it, if that is of the
ordinary kind and can be put into words. -/
def bodyOrReason (r : Except Fault Text) : Except Fault Text :=
  match r with
  | .ok s => .ok s
  | .error e =>
    if e.isOrdinary then do
      .ok (conversionMarker ++ " because of ".toList ++ e.family ++ ": ".toList ++ (← e.wording))
    else .error e

/-- Writes a converted body, or why it cannot be converted. -/
def writeBody (r : Except Fault Text) : Except Fault (List Write) := do
  writePresent .requestBody (.text (← bodyOrReason r))

/-- Writes a body of the security configuration without its password hashes. -/
def writeSecurityText (source document : Value) : Except Fault (List Write) :=
  ifPresent source do writePresent .requestBody (← Redaction.contentValue source document)

/-- Writes a converted body of the security configuration, or that it cannot be converted. -/
def writeSecurityBody (r : Except Fault Text) (document : Value) : Except Fault (List Write) :=
  match r with
  | .ok s => writeSecurityText (.text s) document
  | .error e =>
    if e.isOrdinary then .ok [(.requestBody, .text conversionMarker)] else .error e

-- ==================================================== compliance

/-- Writes what a write changed: a difference, or that there is none. -/
def writeDifference (diff : Value) : Except Fault (List Write) :=
  match diff with
  | .null => .ok []
  | diff => do
    if ← diff.truth then
      let content ← Write.of .complianceDiffContent diff
      .ok [content, (.complianceDiffIsNoop, .bool false)]
    else .ok [(.complianceDiffIsNoop, .bool true)]

/-- Writes the fingerprints of files. -/
def writeFiles (h : Host) (paths : Value) : Outcome :=
  match paths.truth with
  | .error e => ⟨[], some e, []⟩
  | .ok false => .nothing
  | .ok true =>
    match Fingerprint.ofValue h paths with
    | .error e => ⟨[], some e, []⟩
    | .ok (prints, logs) =>
      ⟨[(.complianceFileInfos, .list (prints.map Fingerprint.toValue))], none, logs⟩

-- ==================================================== headers and parameters

/-- Writes a list of the items of a value. -/
def writeItems (f : Field) (v : Value) : Except Fault (List Write) :=
  ifPresent v do .ok [(f, .list (← v.items))]

/-- Writes the headers of a REST request. -/
def writeHeaders (headers : Value) (exclude : Bool) (filter : FilterChoice) :
    Except Fault (List Write) :=
  ifPresent headers do
    let kept ←
      match filter with
      | .absent => Redaction.restHeaders headers exclude none
      | .given f => Redaction.restHeaders headers exclude (some f)
      | .other family => do
        let visible ← Redaction.restHeaders headers exclude none
        if visible.isEmpty then .ok []
        else .error (.missingAttribute family "should_exclude_header".toList)
    .ok [(.restRequestHeaders, .map kept)]

/-- Writes the headers of a REST request, a value saying whether the authorization is left out. It is
asked only after the headers were listed. -/
def writeHeadersUnless (headers exclude : Value) (filter : FilterChoice) :
    Except Fault (List Write) :=
  match exclude.truth with
  | .ok exclude => writeHeaders headers exclude filter
  | .error e =>
    ifPresent headers do
      let _ ← Redaction.restHeaders headers false none
      .error e

/-- Writes the headers of a transport request. -/
def writeTransportHeaders (headers exclude : Value) : Except Fault (List Write) :=
  ifPresent headers do
    let kept ← Redaction.transportHeaders headers (← exclude.truth)
    .ok [(.transportRequestHeaders, .map kept)]

/-- Writes the parameters of a REST request. -/
def writeParams (params : Value) (filter : FilterChoice) : Except Fault (List Write) :=
  ifPresent params do
    let kept ←
      match filter with
      | .absent => Redaction.urlParams params none
      | .given f => Redaction.urlParams params (some f)
      | .other family => do
        let visible ← Redaction.urlParams params none
        if visible.isEmpty then .ok []
        else .error (.missingAttribute family "should_exclude_url_param".toList)
    .ok [(.restRequestParams, .map kept)]

/-- Writes the method of a REST request. -/
def writeMethod (method : Value) : Except Fault (List Write) :=
  match method with
  | .null => .ok []
  | m => do .ok [(.restRequestMethod, .term (.method (← Record.methodOf m)))]

-- ==================================================== whole requests

/-- The parameters of a request, the one that carries a body redacted like a body. -/
def redactedParams (r : Request) : Except Fault Value.Entries := do
  let entries ← r.params.toEntries
  match Value.lookupText entries Request.sourceParam with
  | none => .ok entries
  | some source =>
    if ← source.truth then
      let shown ← Redaction.bodyValue r.path source
      .ok (Value.put false entries (.text Request.sourceParam) shown)
    else .ok entries

/-- The body of a REST request as the record shows it. -/
def redactedBody (r : Request) : Except Fault (List Write) := do
  let (mediaType, raw) ← r.body
  let body ← Content.toJson (.bytes raw) mediaType
  writePresent .requestBody (← Redaction.bodyValue r.path (.text body))

/-- The report of a body that cannot be read. -/
def bodyReport (message : Text) : LogEntry :=
  ⟨.error, .audit, "Error while generating request body for audit log: ".toList ++ message⟩

/-- Writes the body of a REST request, or that it cannot be read. The report of that comes after
the write, and the reason in it may be one that cannot be put into words. -/
def writeRequestBody (r : Request) : Outcome :=
  match redactedBody r with
  | .ok ws => ⟨ws, none, []⟩
  | .error e =>
    if e.isOrdinary then
      let marked : List Write := [(.requestBody, .text bodyMarker)]
      match e.wording with
      | .ok message => ⟨marked, none, [bodyReport message]⟩
      | .error e => ⟨marked, some e, []⟩
    else ⟨[], some e, []⟩

/-- Writes everything about a request but its body. -/
def writeRequestHead (r : Request) (f : Filter) : Outcome :=
  match redactedParams r with
  | .error e => ⟨[], some e, []⟩
  | .ok entries =>
    (Outcome.of (writePresent .restRequestPath r.path)).andThen <|
    (Outcome.of (writeHeaders r.headers f.excludeSensitiveHeaders (.given f))).andThen <|
    (Outcome.of (writeParams (.map entries) (.given f))).andThen <|
    Outcome.of (writeMethod r.method)

/-- Writes the body of a request if the filter lets bodies be recorded and it is a REST request that
has one. -/
def writeLoggedBody (r : Request) (f : Filter) : Outcome :=
  if f.logRequestBody && r.isRest then
    match r.hasBody with
    | .error e => ⟨[], some e, []⟩
    | .ok true => writeRequestBody r
    | .ok false => .nothing
  else .nothing

/-- Writes a request, and its body where that is to be recorded. -/
def writeRequest (r : Request) (f : Filter) : Outcome :=
  (writeRequestHead r f).andThen (writeLoggedBody r f)

/-- Writes a request as far as it goes with an object of some type in place of the filter. -/
def writeRequestUnfiltered (r : Request) (family : Text) : Outcome :=
  match redactedParams r with
  | .error e => ⟨[], some e, []⟩
  | .ok _ =>
    (Outcome.of (writePresent .restRequestPath r.path)).andThen
      ⟨[], some (.missingAttribute family "should_exclude_sensitive_headers".toList), []⟩

-- ==================================================== all operations

/-- What an operation does on some machine to a record of the node with some identifier. -/
def outcome (h : Host) (node : Value) : Call → Outcome
  | .remoteAddress v => .of (writePresent .remoteAddress v)
  | .isAdminDn v => .of (write .isAdminDn v)
  | .initiatingUser v => .of (writePresent .requestInitiatingUser v)
  | .effectiveUser v => .of (writePresent .requestEffectiveUser v)
  | .privilege v => .of (writePresent .privilege v)
  | .exception a =>
    match a with
    | .exception e => .of (do write .exception (.text (← e.report)))
    | a => if a.isNull then .nothing else ⟨[], some (.notException a.toValue.family), []⟩
  | .writeDiff v => .of (writeDifference v)
  | .securityWriteDiff v document =>
    .of (do writeDifference (← Redaction.contentValue v document))
  | .operation v =>
    match v with
    | .null => .nothing
    | v => .of (do
        .ok [(.complianceOperation, .term (.operation (← Record.operationOf v)))])
  | .docVersion v => .of (write .complianceDocVersion v)
  | .fileInfos v => writeFiles h v
  | .bodyPair v =>
    match v with
    | .null => .nothing
    | v => .of (writeBody (pairToJson v))
  | .bodyMapping v => .of (ifPresent v (writeBody (Content.mappingToJson v)))
  | .bodyText v => .of (writePresent .requestBody v)
  | .securityText v document => .of (writeSecurityText v document)
  | .securityPair v document =>
    match v with
    | .null => .nothing
    | v => .of (writeSecurityBody (pairToJson v) document)
  | .securityMapping v document =>
    .of (ifPresent v (writeSecurityBody (Content.mappingToJson v) document))
  | .requestType v => .of (writePresent .transportRequestType v)
  | .action v => .of (writePresent .transportAction v)
  | .documentId v => .of (writePresent .id v)
  | .indices v => .of (writeItems .indices v)
  | .resolvedIndices v => .of (writeItems .resolvedIndices v)
  | .taskId v =>
    .of (do
      let node ← node.plainText
      let id ← v.plainText
      write .taskId (.text (node ++ ':' :: id)))
  | .parentTaskId v => .of (writePresent .taskParentId v)
  | .shard a =>
    match a with
    | .shard s => .of (write .shardId s.id)
    | a =>
      if a.isNull then .nothing else ⟨[], some (.missingAttribute a.family "id".toList), []⟩
  | .transportHeaders v exclude => .of (writeTransportHeaders v exclude)
  | .path v => .of (writePresent .restRequestPath v)
  | .method v => .of (writeMethod v)
  | .params v filter => .of (writeParams v filter)
  | .headers v exclude filter => .of (writeHeadersUnless v exclude filter)
  | .request a filter =>
    match a with
    | .request r =>
      match filter with
      | .absent => writeRequest r .standard
      | .given f => writeRequest r f
      | .other family => writeRequestUnfiltered r family
    | a =>
      if a.isNull then .nothing
      else
        let missing := if a.hasPath then "params" else "path"
        ⟨[], some (.missingAttribute a.family missing.toList), []⟩

end Call

namespace Record

/-- The identifier of the node that a record belongs to. -/
def node (r : Record) : Value := (r.get? .nodeId).getD .null

/-- The record after an operation. -/
def apply (h : Host) (r : Record) (c : Call) : Record := r.putAll (c.outcome h r.node).writes

/-- The record after several operations, one after the other. -/
def run (h : Host) (r : Record) (cs : List Call) : Record := cs.foldl (apply h) r

end Record

end AuditTrail
