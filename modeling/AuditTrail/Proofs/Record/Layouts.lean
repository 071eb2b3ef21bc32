/-
A record in JSON, on one line and indented.

Fields have JSON text in both layouts or in neither. Where they have, the
text on one line is the indented text without its white space; where they do
not, both fail at the same part of the fields and give the same reason, but
for a key whose type has a name in full that is not its short one: the two
layouts call it by different names.
-/
import AuditTrail.Proofs.Json.Layout
import AuditTrail.Record.Projection

namespace AuditTrail.Projection

open Json (Offence offence? squeeze)

variable {fields : Fields}

/-- How the two layouts of some fields come out. -/
inductive LayoutsAgree (fields : Fields) : Prop
  | written {indented line : Text}
    (hnone : offence? (toMap fields) = none)
    (hpretty : prettyJson fields = .ok indented)
    (hcompact : compactJson fields = .ok line)
    (hsqueeze : squeeze indented = line)
  | refused {o : Offence} (hfirst : offence? (toMap fields) = some o)
    (hpretty : prettyJson fields
      = .error (.serialization (o.message .pretty)))
    (hcompact : compactJson fields
      = .error (.serialization (o.message .compact)))
    (hreason : o.message .compact = o.message .pretty ↔ ¬ o.IsQualifiedKey)
    (hkey : ∀ k, o = .key k →
      o.message .pretty = (Json.WriteError.key k.family).message
        ∧ o.message .compact
          = (Json.WriteError.key k.qualifiedFamily).message)

/-- A map with a date for a key. -/
def dateKeyFields : Fields :=
  [("k".toList, .map [(.date ⟨2024, 1, 2⟩, .null)])]

end AuditTrail.Projection
