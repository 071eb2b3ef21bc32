/-
Headers and parameters of a request. Sensitive headers disappear, filtered headers disappear, and
filtered parameters keep their names and lose their values. Names and values come from callers and
may be of any type; the first that cannot be used is a fault.
-/
import AuditTrail.Filter.Basic
import AuditTrail.Redaction.Body
import AuditTrail.Redaction.Hash
import AuditTrail.Value.Sequence

namespace AuditTrail.Redaction

/-- What stands for the value of a masked parameter. -/
def maskedParam : Text := "REDACTED".toList

/-- The header that carries credentials, in lower case. -/
def authorization : Text := "authorization".toList

/-- Whether a header carries credentials; letter case does not matter. -/
def isAuthorization (name : Text) : Bool := Text.lower name == authorization

/-- A header's name in lower case; octets have a lower case too, which no text equals. -/
def loweredName (name : Value) : Except Fault (Option Text) :=
  match name.text?, name with
  | some s, _ => .ok (some (Text.lower s))
  | none, .bytes _ => .ok none
  | none, v => .error (.missingAttribute v.qualifiedFamily "lower".toList)

/-- Whether the header with some name carries credentials. -/
def namesAuthorization (name : Value) : Except Fault Bool :=
  (loweredName name).map (· == some authorization)

/-- Whether a filter drops the header with some name. -/
def dropsHeader (f : Filter) (name : Value) : Except Fault Bool :=
  match name.text?, name with
  | some s, _ => .ok (f.excludesHeader s)
  | none, .bytes _ => if f.ignoreHeaders.isEmpty then .ok false else .error .textPatternOnBytes
  | none, v => .error (.missingAttribute v.qualifiedFamily "lower".toList)

/-- Whether a filter masks the parameter with some name. -/
def masksParam (f : Filter) (name : Value) : Except Fault Bool :=
  match name.text?, name with
  | some s, _ => .ok (f.excludesUrlParam s)
  | none, v =>
    if f.ignoreUrlParams.isEmpty then .ok false
    else
      match v with
      | .bytes _ => .error .textPatternOnBytes
      | v => .error (.notMatchable v.qualifiedFamily)

/-- The entries whose names do not satisfy a test that may fail. -/
def rejectNames (test : Value → Except Fault Bool) : Value.Entries → Except Fault Value.Entries
  | [] => .ok []
  | (name, v) :: rest => do
    let rejected ← test name
    let kept ← rejectNames test rest
    .ok (if rejected then kept else (name, v) :: kept)

/-- The values of a header as a list: a text alone is a list of one. -/
def headerValues (v : Value) : Except Fault Value :=
  match v.text? with
  | some _ => .ok (.list [v])
  | none => (Value.items v).map .list

/-- The headers with their values as lists. -/
def listValues : Value.Entries → Except Fault Value.Entries
  | [] => .ok []
  | (name, v) :: rest => do
    let values ← headerValues v
    let more ← listValues rest
    .ok ((name, values) :: more)

/-- The headers of a REST request that are recorded. -/
def restHeaders (headers : Value) (excludeSensitive : Bool) (filter : Option Filter) :
    Except Fault Value.Entries := do
  let entries ← headers.entries
  let listed ← listValues entries
  let visible ← if excludeSensitive then rejectNames namesAuthorization listed else .ok listed
  match filter with
  | some f => rejectNames (dropsHeader f) visible
  | none => .ok visible

/-- The headers of a transport request that are recorded. -/
def transportHeaders (headers : Value) (excludeSensitive : Bool) : Except Fault Value.Entries :=
  if excludeSensitive then headers.entries >>= rejectNames namesAuthorization
  else headers.toEntries

/-- The parameters with the values of the masked ones replaced. -/
def maskEntries (f : Filter) : Value.Entries → Except Fault Value.Entries
  | [] => .ok []
  | (name, v) :: rest => do
    let masked ← masksParam f name
    let more ← maskEntries f rest
    .ok ((name, if masked then .text maskedParam else v) :: more)

/-- The parameters of a request that are recorded. -/
def urlParams (params : Value) (filter : Option Filter) : Except Fault Value.Entries := do
  let entries ← params.entries
  match filter with
  | some f => maskEntries f entries
  | none => .ok entries

-- ==================================================== content and bodies of any type

/-- The text that a value is for a search in it. -/
def searchedText (v : Value) : Except Fault Text :=
  match v.text?, v with
  | some s, _ => .ok s
  | none, .bytes _ => .error .textPatternOnBytes
  | none, v => .error (.notMatchable v.qualifiedFamily)

/-- The content of a configuration document without password hashes; missing content stays
missing. -/
def contentValue (content document : Value) : Except Fault Value :=
  match content with
  | .null => .ok .null
  | v =>
    if document.text? = some usersDocument then
      (searchedText v).map fun s => .text (replaceHashes s)
    else .ok v

/-- Whether a path leads to an endpoint that administers accounts; no path leads nowhere. -/
def sensitivePathValue (path : Value) : Except Fault Bool :=
  match path with
  | .null => .ok false
  | v => (searchedText v).map isSensitivePath

/-- Whether a body mentions a password: a text as a part of it, a container as an item. -/
def mentionsPasswordValue (body : Value) : Except Fault Bool :=
  match body.text?, body with
  | some s, _ => .ok (mentionsPassword s)
  | none, .bytes _ => .error .textInBytes
  | none, v =>
    let mentioned (items : List Value) := items.any fun w => Value.same false w (.text sensitiveWord)
    match v.items?, v.broken? with
    | some items, _ => .ok (mentioned items)
    | none, some (items, e) => if mentioned items then .ok true else .error (.refused e)
    | none, none => .error (.notContainer v.qualifiedFamily)

/-- A body of any type, or the placeholder in its place. -/
def bodyValue (path body : Value) : Except Fault Value :=
  match body with
  | .null => .ok .null
  | v => do
    let sensitive ← sensitivePathValue path
    let mentions ← if sensitive then mentionsPasswordValue v else .ok false
    .ok (if mentions then .text bodyPlaceholder else v)

end AuditTrail.Redaction
