/-
Values of the types that callers declare: texts, header values, and maps
under text keys. A member of the vocabulary may stand wherever a text may.
-/
import AuditTrail.Value.Sequence

namespace AuditTrail.Value

/-- A text, or a member of the vocabulary in its place. -/
def IsText (v : Value) : Prop := v.text?.isSome = true

/-- A text, or nothing at all. -/
def IsOptionalText (v : Value) : Prop := v = .null ∨ v.IsText

/-- What a header may have for a value: a text or a list of texts. -/
inductive IsHeader : Value → Prop
  | one {v : Value} (hv : v.IsText) : IsHeader v
  | several {vs : List Value} (hvs : ∀ v ∈ vs, v.IsText) : IsHeader (.list vs)

/-- Entries under different keys, all of them texts, with values of some
kind. -/
structure TextKeyed (p : Value → Prop) (entries : Entries) : Prop where
  keys : ∀ e ∈ entries, e.1.IsText
  distinct : (entries.map (·.1.text?)).Nodup
  values : ∀ e ∈ entries, p e.2

/-- A map with such entries, or nothing at all. -/
def IsMapOf (p : Value → Prop) (v : Value) : Prop :=
  v = .null ∨ ∃ entries, v = .map entries ∧ TextKeyed p entries

/-- Whether a text is present can be told. -/
theorem IsText.truth_eq {v : Value} (hv : v.IsText) :
    v.truth = .ok v.truthy := by
  cases v with
  | text s
  | term t => rfl
  | _ => cases hv

theorem IsOptionalText.truth_eq {v : Value} (hv : v.IsOptionalText) :
    v.truth = .ok v.truthy := by
  rcases hv with rfl | hv
  · rfl
  · exact hv.truth_eq

/-- A value equals a text if the text is its own. -/
theorem same_ofText (v : Value) (s : Text) :
    same false v (.text s) = (v.text? == some s) := by
  cases v with
  | text a => exact BEq.comm
  | term t => exact BEq.comm
  | _ => rfl

end AuditTrail.Value
