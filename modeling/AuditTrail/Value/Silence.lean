/-
Values that cannot be shown: an integer in them has too many digits, or an object in them refuses.
Where a value comes from outside, its forms are asked for through this check.
-/
import AuditTrail.Number.Numeral
import AuditTrail.Value.Show

namespace AuditTrail.Value

/-- Why a value cannot be shown. -/
inductive Silence where
  /-- An integer has more digits than may be written. -/
  | digits
  /-- An object refuses to be. -/
  | refused (e : Objection)
  deriving DecidableEq, Repr

/-- Whether an integer has more digits than may be written. -/
def hasTooManyDigits (n : Int) : Bool := decide (Nat.pow 10 Numeral.digitLimit ≤ n.natAbs)

/-- Why a form that an object gives is not there. -/
def refusal? (form : Except Objection Text) : Option Silence :=
  match form with
  | .ok _ => none
  | .error e => some (.refused e)

mutual

/-- Why the quoted form of a value is not there: because of its first part that has none. -/
def silence? : Value → Option Silence
  | .int n => if hasTooManyDigits n then some .digits else none
  | .list items | .tuple items | .set items => silenceIn? items
  | .map entries => silenceEntries? entries
  | .foreign _ parts => silenceEntries? parts
  | .agent c _ => refusal? c.quoted
  | _ => none

/-- Why some item of a sequence has no quoted form. -/
def silenceIn? : List Value → Option Silence
  | [] => none
  | v :: rest => (silence? v).or (silenceIn? rest)

/-- Why some key or value of a map has no quoted form. -/
def silenceEntries? : List (Value × Value) → Option Silence
  | [] => none
  | (k, v) :: rest => ((silence? k).or (silence? v)).or (silenceEntries? rest)

end

/-- Why the plain form of a value is not there. -/
def plainSilence? : Value → Option Silence
  | .agent c _ => refusal? c.plain
  | v => v.silence?

end AuditTrail.Value
