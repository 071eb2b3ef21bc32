/-
Why a text is no YAML document that can be read. A complaint has a wording and a place, often
after the wording and the place of what was being read; faults in the value of a scalar and in the
depth of the document have no place.
-/
import AuditTrail.Fault
import AuditTrail.Yaml.Source

namespace AuditTrail.Yaml

/-- A wording with the place that it speaks of. -/
structure Note where
  wording : Option Text
  mark : Option Mark
  deriving DecidableEq, Repr

/-- A complaint: what was being read, and what was found wrong. -/
structure Complaint where
  context : Note
  problem : Note
  deriving DecidableEq, Repr

/-- Why a document cannot be read. -/
inductive Failure where
  /-- A character that may not stand in a document. -/
  | character (c : Char) (index : Nat)
  /-- A flaw of the document's form. -/
  | complaint (c : Complaint)
  /-- A fault without a place: a scalar whose text makes no value of its kind, or too many
  collections inside one another. -/
  | fault (f : Fault)

/-- What is read, or why it cannot be. -/
abbrev Result (α : Type) := Except Failure α

/-- A complaint about a place while something that began elsewhere was being read. -/
def fail {α : Type} (context : Text) (start : Mark) (problem : Text) (place : Mark) : Result α :=
  .error (.complaint ⟨⟨some context, some start⟩, ⟨some problem, some place⟩⟩)

/-- A complaint about a place. -/
def failAt {α : Type} (problem : Text) (place : Mark) : Result α :=
  .error (.complaint ⟨⟨none, none⟩, ⟨some problem, some place⟩⟩)

/-- The wording of a complaint about a source text. The first place is left out if it is the
second one too. -/
def Complaint.message (c : Complaint) (source : Caption) : Text :=
  let sameLine (a b : Mark) : Bool := a.line == b.line && a.column == b.column
  let firstPlace :=
    match c.context.mark, c.problem.wording, c.problem.mark with
    | some m, some _, some n => if sameLine m n then [] else [m.describe source]
    | some m, _, _ => [m.describe source]
    | none, _, _ => []
  Text.joinWith ['\n'] (c.context.wording.toList ++ firstPlace ++ c.problem.wording.toList ++
    (c.problem.mark.map (·.describe source)).toList)

/-- The wording of a failure about a source text. -/
def Failure.message (source : Caption) : Failure → Text
  | .character c index =>
    "unacceptable character #x".toList ++ Text.hexPadded 4 c.toNat ++
      ": special characters are not allowed\n  in \"".toList ++ source.name ++
      "\", position ".toList ++ Text.ofNat index
  | .complaint c => c.message source
  | .fault f => f.message

/-- A character between quotes, as complaints show it. -/
def shown (c : Char) : Text := Text.quoted [c]

end AuditTrail.Yaml
