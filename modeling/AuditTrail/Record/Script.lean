/-
Operations by name, as scripts ask for them. A record that is being built takes the operations
that add to it, a finished one those that write it out, and both can be read. A script works on one
record that is being built, and finishes records under names as it goes.
-/
import AuditTrail.Record.Call
import AuditTrail.Record.Projection
import AuditTrail.Record.Reading
import AuditTrail.Signature

namespace AuditTrail

/-- An operation that adds to a record: its name, the arguments that it needs, how many more it
may be given, and what it stands for. -/
structure NamedCall where
  name : String
  required : List String
  optional : Nat
  make : (Nat → Argument) → Call

namespace NamedCall

/-- An operation with one value. -/
def one (name argument : String) (make : Value → Call) : NamedCall :=
  ⟨name, [argument], 0, fun a => make (a 0).toValue⟩

/-- An operation with two values. -/
def two (name first second : String) (make : Value → Value → Call) : NamedCall :=
  ⟨name, [first, second], 0, fun a => make (a 0).toValue (a 1).toValue⟩

/-- All operations that add to a record. -/
def all : List NamedCall :=
  [one "add_remote_address" "address" .remoteAddress,
   one "add_is_admin_dn" "is_admin_dn" .isAdminDn,
   one "add_initiating_user" "user" .initiatingUser,
   one "add_effective_user" "user" .effectiveUser,
   one "add_privilege" "privilege" .privilege,
   ⟨"add_exception", ["exc"], 0, fun a => .exception (a 0)⟩,
   one "add_compliance_write_diff_source" "diff" .writeDiff,
   two "add_security_config_write_diff_source" "diff" "doc_id" .securityWriteDiff,
   one "add_compliance_operation" "operation" .operation,
   one "add_compliance_doc_version" "version" .docVersion,
   one "add_file_infos" "paths" .fileInfos,
   one "add_tuple_to_request_body" "content" .bodyPair,
   one "add_map_to_request_body" "mapping" .bodyMapping,
   one "add_unescaped_json_to_request_body" "source" .bodyText,
   two "add_security_config_content_to_request_body" "source" "doc_id" .securityText,
   two "add_security_config_tuple_to_request_body" "content" "doc_id" .securityPair,
   two "add_security_config_map_to_request_body" "mapping" "doc_id" .securityMapping,
   one "add_request_type" "request_type" .requestType,
   one "add_action" "action" .action,
   one "add_id" "doc_id" .documentId,
   one "add_indices" "indices" .indices,
   one "add_resolved_indices" "resolved_indices" .resolvedIndices,
   one "add_task_id" "task_id" .taskId,
   one "add_task_parent_id" "parent_id" .parentTaskId,
   ⟨"add_shard_id", ["shard"], 0, fun a => .shard (a 0)⟩,
   two "add_transport_headers" "headers" "exclude_sensitive_headers" .transportHeaders,
   one "add_path" "path" .path,
   one "add_rest_method" "method" .method,
   ⟨"add_rest_params", ["params"], 1,
     fun a => .params (a 0).toValue (.ofArgument (a 1))⟩,
   ⟨"add_rest_headers", ["headers", "exclude_sensitive_headers"], 1,
     fun a => .headers (a 0).toValue (a 1).toValue (.ofArgument (a 2))⟩,
   ⟨"add_rest_request_info", ["request"], 1,
     fun a => .request (a 0) (.ofArgument (a 1))⟩]

/-- The operation with some name. -/
def find? (name : Text) : Option NamedCall := all.find? (·.name.toList == name)

/-- What the operation is with some arguments. -/
def apply (c : NamedCall) (args : List Argument) : Except Fault Call := do
  let s : Signature :=
    ⟨("AuditMessageBuilder." ++ c.name).toList, c.required.map (·.toList), c.optional⟩
  s.check args.length
  .ok (c.make fun i => args.getD i .absent)

end NamedCall

/-- A finished record: how many were finished before it, and for each field how many additions
preceded the one that wrote it. -/
structure Snapshot where
  number : Nat
  record : Record
  written : List (Field × Nat)

/-- Whether two finished records are equal. One is equal to itself, also where it holds something
that is not, and an undefined number equals itself as long as it was not written again. -/
def Snapshot.same (a b : Snapshot) : Bool :=
  a.number == b.number ||
    Record.same (fun f => a.written.lookup f == b.written.lookup f) a.record b.record

/-- What a script works on: a record that is being built, or a finished one. -/
inductive Target where
  | builder (r : Record)
  | message (s : Snapshot)

/-- What an operation answers: a value, an addition to the record, or a finished record. -/
inductive Reply where
  | value (v : Value)
  | addition (c : Call)
  | message (r : Record)

namespace Target

/-- The record of a target. -/
def record : Target → Record
  | .builder r => r
  | .message s => s.record

/-- Whether two targets are equal; there is one record that is being built. -/
def same : Target → Target → Bool
  | .builder _, .builder _ => true
  | .message a, .message b => a.same b
  | _, _ => false

/-- The name of a target's class. -/
def family : Target → Text
  | .builder _ => "AuditMessageBuilder".toList
  | .message _ => "AuditMessage".toList

/-- Checks the number of arguments of a method. -/
def checkCount (name : String) (required : List String) (optional : Nat)
    (args : List Argument) : Except Fault Unit :=
  (Signature.mk name.toList (required.map (·.toList)) optional).check args.length

/-- A method that writes a finished record out. -/
def writer? (name : Text) : Option (String × (Projection.Fields → Except Fault Text)) :=
  if name == "to_json".toList then some ("AuditMessage.to_json", Projection.compactJson)
  else if name == "to_pretty_json".toList then
    some ("AuditMessage.to_pretty_json", Projection.prettyJson)
  else if name == "to_text".toList then some ("AuditMessage.to_text", Projection.text)
  else if name == "to_url_parameters".toList then
    some ("AuditMessage.to_url_parameters", fun fields => Projection.query fields)
  else none

/-- Calls a method by name. -/
def call (t : Target) (name : Text) (args : List Argument) : Except Fault Reply := do
  let value (i : Nat) : Value := (args.getD i .absent).toValue
  let unknown : Except Fault Reply := .error (.missingAttribute t.family name)
  if name == "get".toList then do
    checkCount "_AuditFieldsReader.get" ["field"] 1 args
    .ok (.value (← t.record.getOr (value 0) (value 1)))
  else
    match t with
    | .builder r =>
      if name == "build".toList then do
        checkCount "AuditMessageBuilder.build" [] 0 args
        .ok (.message r)
      else
        match NamedCall.find? name with
        | some c => do .ok (.addition (← c.apply args))
        | none => unknown
    | .message s =>
      match writer? name with
      | some (method, write) => do
        checkCount method [] 0 args
        .ok (.value (.text (← write s.record.wireFields)))
      | none => unknown

/-- The fact with some name. -/
def fact (t : Target) (name : Text) : Except Fault Value :=
  match t.record.fact? name with
  | some v => .ok v
  | none => .error (.missingAttribute t.family name)

/-- A target as text: a finished record as JSON. -/
def string (t : Target) : Except Fault Text :=
  match t with
  | .message s => Projection.compactJson s.record.wireFields
  | .builder _ => .ok (t.family)

/-- Why a finished record is no key. -/
def hash (t : Target) : Except Fault Value := .error (.unhashable t.family)

end Target

/-- A script's records: the one that is being built, which addition wrote each of its fields, how
many additions there were, and the finished ones by name, the last one first. -/
structure Session where
  builder : Record
  written : List (Field × Nat)
  additions : Nat
  finished : List (Text × Snapshot)

namespace Session

/-- The session that begins with a record. -/
def start (r : Record) : Session := ⟨r, [], 0, []⟩

/-- The session after an addition. -/
def add (s : Session) (ws : List Write) : Session :=
  { s with
    builder := s.builder.putAll ws
    written := ws.map (fun w => (w.1, s.additions)) ++ s.written
    additions := s.additions + 1 }

/-- The session after the record that is being built was finished under a name. -/
def finish (s : Session) (name : Text) : Session :=
  { s with finished := (name, ⟨s.finished.length, s.builder, s.written⟩) :: s.finished }

/-- The record with some name; the one that is being built is called `b`. -/
def target (s : Session) (name : Text) : Except Fault Target :=
  if name == ['b'] then .ok (.builder s.builder)
  else
    match s.finished.lookup name with
    | some m => .ok (.message m)
    | none => .error (.missingKey (Text.quoted name))

end Session

end AuditTrail
