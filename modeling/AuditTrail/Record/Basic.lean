/-
Audit records: fields of the vocabulary with values of the right kind, in the order in which they
were first written. A record starts with the identity of the node and the time of the event.
-/
import AuditTrail.Cluster
import AuditTrail.Value.Sequence

namespace AuditTrail

/-- Whether a value is of a kind. A flag is no integer; a member of the vocabulary counts as a
text. -/
def FieldKind.accepts : FieldKind → Value → Bool
  | .integer, .int _ => true
  | .text, .text _ => true
  | .text, .term _ => true
  | .flag, .bool _ => true
  | .sequence, .list _ => true
  | .mapping, .map _ => true
  | .category, .term (.category _) => true
  | .origin, .term (.origin _) => true
  | .method, .term (.method _) => true
  | .operation, .term (.operation _) => true
  | _, _ => false

/-- The name of a kind, as complaints give it. -/
def FieldKind.label : FieldKind → Text
  | .integer => "<class 'int'>".toList
  | .text => "<class 'str'>".toList
  | .flag => "<class 'bool'>".toList
  | .sequence => "<class 'list'>".toList
  | .mapping => "<class 'dict'>".toList
  | .category => "<enum 'AuditCategory'>".toList
  | .origin => "<enum 'Origin'>".toList
  | .method => "<enum 'RestMethod'>".toList
  | .operation => "<enum 'Operation'>".toList

/-- The short name of a kind. -/
def FieldKind.family : FieldKind → Text
  | .integer => "int".toList
  | .text => "str".toList
  | .flag => "bool".toList
  | .sequence => "list".toList
  | .mapping => "dict".toList
  | .category => "AuditCategory".toList
  | .origin => "Origin".toList
  | .method => "RestMethod".toList
  | .operation => "Operation".toList

/-- A field and the value to be written to it. -/
abbrev Write := Field × Value

/-- A value for a field, if it is of the field's kind. -/
def Write.of (f : Field) (v : Value) : Except Fault Write :=
  if f.kind.accepts v then .ok (f, v)
  else .error (.wrongField f.wire f.kind.label v.family)

/-- A record. -/
structure Record where
  fields : List (Field × Value)

namespace Record

/-- The fields after one was written: a field keeps its place. -/
def putField (f : Field) (v : Value) : List (Field × Value) → List (Field × Value)
  | [] => [(f, v)]
  | e :: rest => if e.1 = f then (f, v) :: rest else e :: putField f v rest

/-- The record after a field was written. -/
def put (r : Record) (w : Write) : Record := ⟨putField w.1 w.2 r.fields⟩

/-- The record after several fields were written, one after the other. -/
def putAll (r : Record) (ws : List Write) : Record := ws.foldl put r

/-- The value of a field. -/
def get? (r : Record) (f : Field) : Option Value := r.fields.lookup f

-- ==================================================== members of the vocabulary

/-- The member that a value stands for, in a part of the vocabulary. -/
def member {α : Type} (ofWire? : Text → Option α) (family : String) (v : Value) :
    Except Fault α :=
  match v.text?.bind ofWire? with
  | some x => .ok x
  | none => do .error (.notMember (← v.quotedText) family.toList)

/-- The field that a value stands for. -/
def fieldOf : Value → Except Fault Field := member Field.ofWire? "AuditField"

/-- The category that a value stands for. -/
def categoryOf : Value → Except Fault Category := member Category.ofWire? "AuditCategory"

/-- The origin that a value stands for. -/
def originOf : Value → Except Fault Origin := member Origin.ofWire? "Origin"

/-- The operation that a value stands for. -/
def operationOf : Value → Except Fault Operation := member Operation.ofWire? "Operation"

/-- The method that a value stands for. -/
def methodOf : Value → Except Fault Method := member Method.ofWire? "RestMethod"

-- ==================================================== a new record

/-- The write of an origin, unless it is missing. -/
def originWrite (f : Field) (v : Value) : Except Fault (List Write) :=
  match v with
  | .null => .ok []
  | v => do .ok [(f, .term (.origin (← originOf v)))]

/-- The fields of a new record: its category and time, the node's identity, and where given the
origin of the request and the layer that records it. -/
def initial (category : Value) (cluster : Option Cluster) (origin layer : Value)
    (clock : DateTime) : Except Fault (List Write) := do
  match category, cluster with
  | .null, _ => .error .noCategory
  | _, none => .error .noCluster
  | category, some c =>
    let now ←
      match clock.toInstant? with
      | .ok i => .ok i
      | .error e => .error (.date e)
    let category ← categoryOf category
    let address ← Write.of .nodeHostAddress c.hostAddress
    let id ← Write.of .nodeId c.nodeId
    let hostName ← Write.of .nodeHostName c.hostName
    let nodeName ← Write.of .nodeName c.nodeName
    let clusterName ← Write.of .clusterName c.clusterName
    let origin ← originWrite .origin origin
    let layer ← originWrite .requestLayer layer
    .ok ([(.formatVersion, .int AuditTrail.formatVersion),
      (.category, .term (.category category)), (.utcTimestamp, .text now.toText),
      address, id, hostName, nodeName, clusterName] ++ origin ++ layer)

/-- A new record. -/
def start (category : Value) (cluster : Option Cluster) (origin layer : Value)
    (clock : DateTime) : Except Fault Record :=
  (initial category cluster origin layer clock).map (putAll ⟨[]⟩)

end Record

end AuditTrail
