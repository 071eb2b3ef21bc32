/-
What a caller tells about a request: its path, method, headers and parameters, and for a REST
request its content. The body of a REST request is its content or else the parameter that carries
one.
-/
import AuditTrail.Content.Octets

namespace AuditTrail

/-- A request. Its parts come from callers and may be of any type; only a REST request has
content. -/
structure Request where
  isRest : Bool
  path : Value
  method : Value
  headers : Value
  params : Value
  content : Value
  mediaType : Value

/-- A shard of an index. -/
structure Shard where
  index : Value
  id : Value

namespace Request

/-- The parameter that carries a body. -/
def sourceParam : Text := "source".toList

/-- The parameter that tells the media type of a body in a parameter. -/
def sourceTypeParam : Text := "source_content_type".toList

/-- The media type of content without another. -/
def defaultMediaType : Text := "application/json".toList

/-- A parameter of a request; null if it is not there. -/
def param (r : Request) (name : Text) : Except Fault Value :=
  match r.params with
  | .map entries => .ok ((Value.lookupText entries name).getD .null)
  | v => .error (.missingAttribute v.qualifiedFamily "get".toList)

/-- Whether a REST request has content or a parameter that carries a body. -/
def hasBody (r : Request) : Except Fault Bool := do
  if ← r.content.truth then .ok true else (← r.param sourceParam).truth

/-- The octets of a text from outside. -/
def encoded (v : Value) : Except Fault Bytes :=
  match v.text? with
  | some s => .ok (Utf8.encode s)
  | none => .error (.missingAttribute v.qualifiedFamily "encode".toList)

/-- The media type and the octets of the body of a REST request. -/
def body (r : Request) : Except Fault (Value × Bytes) := do
  if ← r.content.truth then
    match r.content.text? with
    | some s => .ok (r.mediaType, Utf8.encode s)
    | none => do .ok (r.mediaType, ← Content.octets r.content)
  else
    let source ← r.param sourceParam
    if ← source.truth then
      let mediaType ← r.param sourceTypeParam
      if ← mediaType.truth then do .ok (mediaType, ← encoded source)
      else .error .noSourceType
    else .error .noBody

/-- The name of a request's class. -/
def family (r : Request) : Text :=
  if r.isRest then "RestRequest".toList else "AuditRequest".toList

/-- The parts of a request by their names. -/
def parts (r : Request) : Value.Entries :=
  [(.text "path".toList, r.path), (.text "method".toList, r.method),
   (.text "headers".toList, r.headers), (.text "params".toList, r.params)] ++
  (if r.isRest then
    [(.text "content".toList, r.content), (.text "media_type".toList, r.mediaType)]
  else [])

/-- A request as an object. -/
def toValue (r : Request) : Value := .object r.family r.parts false

end Request

/-- A shard as an object. -/
def Shard.toValue (s : Shard) : Value :=
  .object "ShardId".toList [(.text "index".toList, s.index), (.text "id".toList, s.id)]
    (s.index.unhashable?.or s.id.unhashable?).isNone

end AuditTrail
