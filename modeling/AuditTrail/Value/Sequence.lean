/-
Values taken apart: the items that a value can be walked through, the map that it can be made into,
the two parts that a pair is expected to have; whether the value is present; and the forms of it
that may be too long to show. An object that answers for itself may refuse all of this.
-/
import AuditTrail.Fault

namespace AuditTrail.Value

/-- The octets of a value as integers. -/
def octetItems (octets : Bytes) : List Value := octets.map fun b => .int b.toNat

/-- The characters of a text as texts. -/
def characterItems (s : Text) : List Value := s.map fun c => .text [c]

/-- The items of a value that can be walked through to the end: of a map its keys, of a text its
characters, of octets their numbers, of an object pairs of a name and a part. -/
def items? : Value → Option (List Value)
  | .list items | .tuple items | .set items => some items
  | .map entries => some (entries.map (·.1))
  | .text s => some (characterItems s)
  | .term t => some (characterItems t.wire)
  | .bytes octets => some (octetItems octets)
  | .foreign o parts =>
    if o.walkable then some (parts.map fun p => .tuple [p.1, p.2]) else none
  | .agent c items =>
    match c.walk with
    | .whole => some items
    | _ => none
  | _ => none

/-- The items of an object that objects while it is walked through, and what it raises then. -/
def broken? : Value → Option (List Value × Objection)
  | .agent c items =>
    match c.walk with
    | .broken e => some (items, e)
    | _ => none
  | _ => none

/-- What is made of the items of a value on a walk through it. Where the object breaks the walk off,
an item before that may be at fault first; what has no items at all is at fault otherwise. -/
def walkThrough {α : Type} (v : Value) (use : List Value → Except Fault α) (otherwise : Fault) :
    Except Fault α :=
  match v.items?, v.broken? with
  | some items, _ => use items
  | none, some (items, e) => use items >>= fun _ => .error (.refused e)
  | none, none => .error otherwise

/-- The items of a value, or the fault that it has none. -/
def items (v : Value) : Except Fault (List Value) :=
  v.walkThrough .ok (.notIterable v.qualifiedFamily)

/-- What a list, a tuple or a set consists of. -/
def elements : Value → List Value
  | .list items | .tuple items | .set items => items
  | _ => []

/-- A value and what it consists of. Where the value contains itself, that is marked at other places
in the whole than in an element that is seen by itself. -/
structure Unfolded where
  whole : Value
  elements : List Value

/-- A value whose elements look the same by themselves. -/
def Unfolded.of (v : Value) : Unfolded := ⟨v, v.elements⟩

/-- The fault of a value that is no pair since a walk through it does not end: a third item is one
too many, and nothing is asked for after it. -/
def pairFault (v : Value) : Fault :=
  match v.broken? with
  | some (_ :: _ :: _ :: _, _) => .tooManyParts
  | some (_, e) => .refused e
  | none => .notUnpackable v.qualifiedFamily

/-- The two parts of a pair. -/
def pair (v : Value) : Except Fault (Value × Value) :=
  match v.items? with
  | none => .error v.pairFault
  | some [a, b] => .ok (a, b)
  | some items =>
    if items.length < 2 then .error (.tooFewParts items.length) else .error .tooManyParts

/-- The fault of an element that should be a pair and cannot be walked through; a complaint about
its type is replaced. -/
def elementFault (index : Nat) (v : Value) : Fault :=
  match v.broken? with
  | some (_, e) => if e.kind = .type then .pairNotSequence index else .refused e
  | none => .pairNotSequence index

/-- The entries that a list of pairs stands for; `index` numbers the first of them. -/
def entriesFrom (index : Nat) (acc : Entries) : List Value → Except Fault Entries
  | [] => .ok acc
  | v :: rest =>
    match v.items? with
    | none => .error (elementFault index v)
    | some [k, w] =>
      match k.unhashable? with
      | some t => .error (.unhashable t)
      | none => entriesFrom (index + 1) (put false acc k w) rest
    | some items => .error (.pairLength index items.length)

/-- The entries of a value that is a map or a sequence of pairs. -/
def toEntries : Value → Except Fault Entries
  | .map entries => .ok entries
  | v => v.walkThrough (entriesFrom 0 []) (.notIterable v.qualifiedFamily)

/-- The entries of a value that is a map; anything else lacks what a map is walked through by. -/
def entries : Value → Except Fault Entries
  | .map entries => .ok entries
  | v => .error (.missingAttribute v.qualifiedFamily "items".toList)

/-- An object of some class that is shown as a call of the class with its named parts, and equals
those with equal parts. -/
def object (family : Text) (parts : Entries) (hashable : Bool) : Value :=
  let shown := family ++ '(' ::
    Text.joinWith ", ".toList (parts.map fun p => p.1.plain ++ '=' :: p.2.quoted) ++ [')']
  .foreign
    { family := family
      plain := shown
      quoted := shown
      hashable := hashable
      walkable := false
      comparable := true } parts

-- ==================================================== forms

/-- The plain form of a value, or why it is not there. -/
def plainText (v : Value) : Except Fault Text :=
  match v.plainSilence? with
  | some s => .error (.ofSilence s)
  | none => .ok v.plain

/-- The quoted form of a value, or why it is not there. -/
def quotedText (v : Value) : Except Fault Text :=
  match v.silence? with
  | some s => .error (.ofSilence s)
  | none => .ok v.quoted

/-- Whether a value counts as present, or why that cannot be told. -/
def truth (v : Value) : Except Fault Bool :=
  match v.absenceRefused? with
  | some e => .error (.refused e)
  | none => .ok v.truthy

end AuditTrail.Value
