/-
Read access to records: single fields by name, the facts that have names of their own, whether two
records are the same, and how a record is shown.
-/
import AuditTrail.Record.Basic

namespace AuditTrail.Record

/-- The value of the field with some name, or another value if it is not set. -/
def getOr (r : Record) (name other : Value) : Except Fault Value := do
  .ok ((r.get? (← fieldOf name)).getD other)

/-- The value of the field with some name. -/
def item (r : Record) (name : Value) : Except Fault Value := do
  let f ← fieldOf name
  match r.get? f with
  | some v => .ok v
  | none => .error (.missingKey (Term.field f).quoted)

/-- Whether the field with some name is set; what names no field is not. -/
def contains (r : Record) (name : Value) : Bool :=
  match fieldOf name with
  | .ok f => (r.get? f).isSome
  | .error _ => false

/-- The facts of a record that have names of their own. -/
def facts : List (Text × Field) :=
  [("category".toList, .category), ("origin".toList, .origin),
   ("initiating_user".toList, .requestInitiatingUser),
   ("effective_user".toList, .requestEffectiveUser),
   ("request_type".toList, .transportRequestType),
   ("request_method".toList, .restRequestMethod), ("privilege".toList, .privilege),
   ("exception_stacktrace".toList, .exception), ("request_body".toList, .requestBody),
   ("node_id".toList, .nodeId), ("doc_id".toList, .id)]

/-- The fact with some name; null if it is not known. -/
def fact? (r : Record) (name : Text) : Option Value :=
  (facts.lookup name).map fun f => (r.get? f).getD .null

/-- The keys of a record, in order. -/
def keys (r : Record) : List Text := r.fields.map (·.1.wire)

/-- Whether two records have the same values in the same fields. `shared` says for which fields both
have their values from one write. -/
def same (shared : Field → Bool) (a b : Record) : Bool :=
  a.fields.length == b.fields.length &&
    a.fields.all fun f => (b.get? f.1).any fun v => Value.same (shared f.1) f.2 v

/-- A record as it is shown: its category and how many fields it has. -/
def shown (r : Record) : Text :=
  let category :=
    match r.get? .category with
    | some (.term t) => t.wire
    | _ => []
  "AuditMessage(category=".toList ++ category ++ ", fields=".toList ++
    Text.ofNat r.fields.length ++ [')']

end AuditTrail.Record
