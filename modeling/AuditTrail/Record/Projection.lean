/-
The forms in which a finished record leaves the library: JSON, compact or indented, a text of one
entry a line, and a query. JSON fails where a value has no JSON form; the others show the plain
form of such a value, if it has one. The text leaves out what is empty, the query keeps it, and it
fails where a text is none of Unicode.
-/
import AuditTrail.Record.Basic
import AuditTrail.Text.Form

namespace AuditTrail.Projection

/-- Named values, in order. -/
abbrev Fields := List (Text × Value)

/-- The text of a value; null has none. -/
def stringForm? (v : Value) : Except Fault (Option Text) :=
  match v with
  | .null => .ok none
  | .term t => .ok (some t.wire)
  | .bool b => .ok (some (if b then "true".toList else "false".toList))
  | .text s => .ok (some s)
  | .map _ | .list _ | .tuple _ | .cycle _ =>
    match Json.write .loose v with
    | .ok s => .ok (some s)
    | .error e => .error (.jsonWriting e)
  | v => do .ok (some (← v.plainText))

/-- The text of a value; null and what is empty have the empty one. -/
def stringForm (v : Value) : Except Fault Text := do .ok ((← stringForm? v).getD [])

/-- Fields as a map. -/
def toMap (fields : Fields) : Value := .map (fields.map fun f => (.text f.1, f.2))

/-- Fields as JSON text in some style. -/
def json (style : Json.Style) (fields : Fields) : Except Fault Text :=
  match Json.write style (toMap fields) with
  | .ok s => .ok s
  | .error e => .error (.serialization e.message)

/-- Fields as JSON text on one line. -/
def compactJson (fields : Fields) : Except Fault Text := json .compact fields

/-- Fields as indented JSON text. -/
def prettyJson (fields : Fields) : Except Fault Text := json .pretty fields

/-- The fields with their texts. -/
def strings : Fields → Except Fault (List (Text × Text))
  | [] => .ok []
  | (key, v) :: rest => do
    let s ← stringForm v
    let more ← strings rest
    .ok ((key, s) :: more)

/-- Fields as text: a line for each one that is not empty. -/
def text (fields : Fields) : Except Fault Text := do
  let lines := (← strings fields).filter fun f => !f.2.isEmpty
  .ok (Text.joinWith ['\n'] (lines.map fun f => f.1 ++ [':', ' '] ++ f.2))

/-- Fields as a query; without fields it is empty. Their texts may hold halves of surrogate pairs,
which a query cannot. -/
def query (fields : Fields) (halves : Text → Utf8.Halves := fun _ => .none) :
    Except Fault Text := do
  let pairs ← strings fields
  match Text.Form.flaw? halves pairs with
  | some e => .error (.encoding e)
  | none => .ok (if pairs.isEmpty then [] else '?' :: Text.Form.query pairs)

end AuditTrail.Projection

namespace AuditTrail.Record

/-- The fields of a record under their keys in the written record. -/
def wireFields (r : Record) : Projection.Fields := r.fields.map fun f => (f.1.wire, f.2)

end AuditTrail.Record
