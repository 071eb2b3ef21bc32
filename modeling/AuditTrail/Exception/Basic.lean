/-
Exceptions that callers hand over to be recorded, and the text that is recorded of one: what led
to it, then the exception itself, then its notes. A group of exceptions is drawn as a tree, cut off
where it grows too wide or too deep.
-/
import AuditTrail.Fault
import AuditTrail.Text.Lines

namespace AuditTrail

/-- The lines that state an exception: those above the last one, each with its end, and the last
one without its end. There is always a last one. -/
structure Statement where
  above : List Text
  last : Text

/-- The lines of a statement, each with its end. -/
def Statement.lines (s : Statement) : List Text := s.above ++ [s.last ++ ['\n']]

/-- What is said of an exception by itself: its class, the lines that state it unless its details
are of no use for that, its plain and its quoted form unless its details have none, whether it is of
the ordinary kind, and its notes. -/
structure Headline where
  family : Text
  statement : Except Fault Statement
  plain : Except Fault Text
  quoted : Except Fault Text
  ordinary : Bool
  notes : List Text

/-- What stands for a message that cannot be written. -/
def Headline.unwritable : Text := "<exception str() failed>".toList

/-- A form of an exception, or what stands for it. -/
def Headline.orUnwritable (r : Except Fault Text) : Text :=
  match r with
  | .ok s => s
  | .error _ => unwritable

/-- The message of an exception. -/
def Headline.message (h : Headline) : Text := orUnwritable h.plain

/-- An exception, with the one that caused it, the one during whose handling it arose, whether the
latter is kept silent, and the members of a group. Every group has members. -/
inductive Raised where
  | mk (head : Headline) (cause context : Option Raised) (silent : Bool) (members : List Raised)

namespace Raised

/-- What is said of an exception by itself. -/
def head : Raised → Headline
  | .mk head _ _ _ _ => head

/-- The exception with another cause, which silences its context. -/
def withCause (r cause : Raised) : Raised :=
  match r with
  | .mk head _ context _ members => .mk head (some cause) context true members

/-- The exception with another context. -/
def withContext (r context : Raised) : Raised :=
  match r with
  | .mk head cause _ silent members => .mk head cause (some context) silent members

/-- The exception with its context silenced. -/
def silenced : Raised → Raised
  | .mk head cause context _ members => .mk head cause context true members

/-- The exception with one more note. -/
def withNote (r : Raised) (note : Text) : Raised :=
  match r with
  | .mk head cause context silent members =>
    .mk { head with notes := head.notes ++ [note] } cause context silent members

/-- The sentence between an exception and the one that it caused. -/
def causeSentence : Text :=
  "\nThe above exception was the direct cause of the following exception:\n\n".toList

/-- The sentence between an exception and one that arose while it was handled. -/
def contextSentence : Text :=
  "\nDuring handling of the above exception, another exception occurred:\n\n".toList

/-- The most members of a group that are shown. -/
def widthLimit : Nat := 15

/-- The depth below which no group is shown. -/
def depthLimit : Nat := 10

/-- The space in front of what stands at some depth. -/
def space (depth : Nat) : Text := List.replicate (2 * depth) ' '

/-- A text at some depth: inside a group each line has a margin. -/
def place (depth : Nat) (s : Text) : Text :=
  if depth = 0 then s else Text.indent (space depth ++ ['|', ' ']) s

/-- The lines that state an exception and its notes, each with its end. -/
def statement (h : Headline) : Except Fault (List Text) :=
  h.statement.map fun s =>
    s.lines ++ h.notes.flatMap fun note => (Text.splitAt '\n' note).map (· ++ ['\n'])

/-- The line above a member of a group. -/
def memberTitle (depth : Nat) (first : Bool) (title : Text) : Text :=
  space depth ++ (if first then ['+', '-'] else [' ', ' ']) ++ "+---------------- ".toList ++
    title ++ " ----------------\n".toList

/-- The line that closes a group. -/
def closing (depth : Nat) : Text :=
  space depth ++ "+------------------------------------\n".toList

/-- What stands for the members of a group that are not shown. -/
def remainder (depth count : Nat) : Text :=
  place depth ("and ".toList ++ Text.ofNat count ++
    (if 1 < count then " more exceptions\n".toList else " more exception\n".toList))

mutual

/-- The text of an exception at some depth, after those that led to it, and whether a group was
drawn in it. -/
def textAt (depth : Nat) : Raised → Except Fault (Text × Bool)
  | .mk head cause context silent members => do
    let before ←
      match cause, context with
      | some c, _ => do
        let (s, drawn) ← textAt depth c
        .ok (s ++ place depth causeSentence, drawn)
      | none, some c =>
        if silent then .ok ([], false)
        else do
          let (s, drawn) ← textAt depth c
          .ok (s ++ place depth contextSentence, drawn)
      | none, none => .ok ([], false)
    let own ←
      match members with
      | [] => do .ok ((← statement head).flatMap (place depth), false)
      | first :: rest =>
        if depthLimit < depth then
          .ok (place depth ("... (max_group_depth is ".toList ++ Text.ofNat depthLimit ++
            ")\n".toList), false)
        else do
          let depth := max depth 1
          let lines ← statement head
          let inner ← membersText depth (rest.length + 1) 0 (first :: rest)
          .ok (lines.flatMap (place depth) ++ inner, true)
    .ok (before.1 ++ own.1, before.2 || own.2)

/-- The texts of the members of a group at some depth, from the one with some index on; there are
`count` in all. The last one shown is followed by a line that closes the group, unless a group in
it was closed there. -/
def membersText (depth count index : Nat) : List Raised → Except Fault Text
  | [] => .ok []
  | r :: rest =>
    let inner := depth + 1
    if widthLimit ≤ index then
      .ok (memberTitle depth false "...".toList ++ remainder inner (count - widthLimit) ++
        closing inner)
    else do
      let (s, drawn) ← textAt inner r
      let more ← membersText depth count (index + 1) rest
      .ok (memberTitle depth (index == 0) (Text.ofNat (index + 1)) ++ s ++
        (if rest.isEmpty && !drawn then closing inner else []) ++ more)

end

/-- The text that is recorded of an exception. -/
def report (r : Raised) : Except Fault Text := (textAt 0 r).map (·.1)

/-- The exception as an object. -/
def toValue (r : Raised) : Value :=
  .agent
    { family := r.head.family
      qualified := r.head.family
      hashable := true
      presence := .ok true
      walk := .none
      once := false
      plain := r.head.plain.mapError Fault.raised
      quoted := r.head.quoted.mapError Fault.raised } []

end Raised

end AuditTrail
