/-
What a reader of YAML gets to see. A text is there as a whole; of a file the first two portions are
there at once, and each further one when the reader gets to it. What is wrong with a portion is
only noticed then, so that a flaw of the document before it is met first.
-/
import AuditTrail.Files.Delivery
import AuditTrail.Yaml.Error

namespace AuditTrail.Yaml

/-- A text, and what a reader meets behind it where that is not the end of the source. -/
structure Input where
  text : Text
  beyond : Option Failure

namespace Input

/-- A text that is there as a whole. -/
def ofText (s : Text) : Result Input :=
  match unacceptable? s with
  | some (c, index) => .error (.character c index)
  | none => .ok ⟨s, none⟩

/-- The input that begins with some text and goes on with some portions, behind which the source
ends or cannot be read. -/
def extend (text : Text) (e : Option Utf8.DecodeError) : List Text → Input
  | [] => ⟨text, e.map fun e => .fault (.decoding e)⟩
  | portion :: rest =>
    match unacceptable? portion with
    | some (c, index) => ⟨text, some (.character c (text.length + index))⟩
    | none => extend (text ++ portion) e rest

/-- A file, of which two portions have to be there for a reader to begin. -/
def ofDelivery (d : Delivery) : Result Input :=
  match d.portions, d.error with
  | first :: second :: rest, e => do
    let begin ← ofText (first ++ second)
    .ok (extend begin.text e rest)
  | _, some e => .error (.fault (.decoding e))
  | portions, none => ofText portions.flatten

end Input

end AuditTrail.Yaml
