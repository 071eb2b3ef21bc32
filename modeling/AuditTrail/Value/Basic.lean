/-
The values that records, requests and configuration are made of. Most are plain data; beside them
stand members of the vocabulary, objects that only carry their names, objects that answer for
themselves and may refuse to, and the places where a value read from a document contains itself.
-/
import AuditTrail.Calendar.Instant
import AuditTrail.Vocabulary

namespace AuditTrail

/-- An object of a class that records know nothing about: its class, how it is written and quoted,
whether it can be a key, whether it can be walked through part by part, and whether it equals any
object of its class with equal parts, or else itself only. -/
structure Foreign where
  family : Text
  plain : Text
  quoted : Text
  hashable : Bool
  walkable : Bool
  comparable : Bool
  deriving DecidableEq, Repr

/-- What an exception is caught as. -/
inductive Objection.Kind where
  | type
  | value
  /-- A flaw of octets that are read as text, which also counts as one of a value. -/
  | decoding
  | recursion
  | other
  /-- Not of the ordinary kind. -/
  | beyond
  deriving DecidableEq, Repr

/-- What an exception of some class of the language is caught as. -/
def Objection.Kind.ofFamily (family : Text) : Objection.Kind :=
  if family == "TypeError".toList then .type
  else if family == "UnicodeDecodeError".toList then .decoding
  else if ["ValueError".toList, "JSONDecodeError".toList, "UnicodeEncodeError".toList].contains
      family then .value
  else if family == "RecursionError".toList then .recursion
  else .other

/-- An exception that an object raises instead of doing what is asked of it: its class, what it is
caught as, and its message, unless asking for that raises another one. -/
inductive Objection where
  | told (family : Text) (kind : Objection.Kind) (message : Text)
  | untold (family : Text) (kind : Objection.Kind) (instead : Objection)
  deriving DecidableEq, Repr

namespace Objection

/-- The class of an objection. -/
def family : Objection → Text
  | .told family _ _ | .untold family _ _ => family

/-- What an objection is caught as. -/
def kind : Objection → Kind
  | .told _ kind _ | .untold _ kind _ => kind

/-- The message of an objection, or what is shown in its place. -/
def message : Objection → Text
  | .told _ _ message => message
  | .untold .. => "<exception str() failed>".toList

end Objection

/-- How a walk through an object's items goes. -/
inductive Walk where
  /-- There is none. -/
  | none
  /-- To the end. -/
  | whole
  /-- As far as its items go, and then the object objects. -/
  | broken (e : Objection)
  deriving DecidableEq, Repr

/-- How an object behaves whose class decides that by itself: the name of the class, short and in
full, whether the object can be a key, what it says when asked whether it is there, how a walk
through it goes, whether it has nothing left after one walk, and how it is written and quoted. It
equals nothing but itself and has none of the methods that texts, maps or requests have. -/
structure Conduct where
  family : Text
  qualified : Text
  hashable : Bool
  presence : Except Objection Bool
  walk : Walk
  once : Bool
  plain : Except Objection Text
  quoted : Except Objection Text

/-- The brackets of a container, for a place where the container stands inside itself. -/
inductive Enclosure where
  | list
  | tuple
  | map
  deriving DecidableEq, Repr

/-- A value. The entries of a map are in the order in which their keys were first set; the parts of
an object have names, and an object that answers for itself gives items in some order. -/
inductive Value where
  | null
  | bool (b : Bool)
  | int (n : Int)
  | float (x : Double)
  | text (s : Text)
  | bytes (octets : Bytes)
  | list (items : List Value)
  | tuple (items : List Value)
  | set (items : List Value)
  | map (entries : List (Value × Value))
  | date (d : Date)
  | dateTime (d : DateTime)
  | term (t : Term)
  | foreign (o : Foreign) (parts : List (Value × Value))
  | agent (c : Conduct) (items : List Value)
  | cycle (e : Enclosure)

namespace Value

instance : Inhabited Value := ⟨.null⟩

/-- The entries of a map. -/
abbrev Entries := List (Value × Value)

/-- The name of a value's type. -/
def family : Value → Text
  | .null => "NoneType".toList
  | .bool _ => "bool".toList
  | .int _ => "int".toList
  | .float _ => "float".toList
  | .text _ => "str".toList
  | .bytes _ => "bytes".toList
  | .list _ | .cycle .list => "list".toList
  | .tuple _ | .cycle .tuple => "tuple".toList
  | .set _ => "set".toList
  | .map _ | .cycle .map => "dict".toList
  | .date _ => "date".toList
  | .dateTime _ => "datetime".toList
  | .term t => t.family
  | .foreign o _ => o.family
  | .agent c _ => c.family

/-- The name of a value's type with the part of the system that it belongs to, for the types that
have one. -/
def qualifiedFamily : Value → Text
  | .date _ => "datetime.date".toList
  | .dateTime _ => "datetime.datetime".toList
  | .agent c _ => c.qualified
  | v => v.family

/-- Whether a value counts as present: neither null, false, zero nor empty. An object does, be
there anything to walk through or not, unless it says otherwise or does not say. -/
def truthy : Value → Bool
  | .null => false
  | .bool b => b
  | .int n => n != 0
  | .float x => !x.isZero
  | .text s => !s.isEmpty
  | .bytes octets => !octets.isEmpty
  | .list items | .tuple items | .set items => !items.isEmpty
  | .map entries => !entries.isEmpty
  | .agent c _ =>
    match c.presence with
    | .ok b => b
    | .error _ => false
  | .foreign .. | .date _ | .dateTime _ | .term _ | .cycle _ => true

/-- What an object raises when it is asked whether it is there. -/
def absenceRefused? : Value → Option Objection
  | .agent c _ =>
    match c.presence with
    | .ok _ => none
    | .error e => some e
  | _ => none

/-- A value after it was walked through: an object that can be only once has nothing left. -/
def walked : Value → Value
  | .agent c items => if c.once then .agent { c with walk := .whole } [] else .agent c items
  | v => v

/-- The text of a value that is a text: a plain one, or the wire text of a vocabulary member. -/
def text? : Value → Option Text
  | .text s => some s
  | .term t => some t.wire
  | _ => none

/-- The number of a value that counts as an integer. -/
def int? : Value → Option Int
  | .int n => some n
  | .bool b => some (if b then 1 else 0)
  | _ => none

mutual

/-- The type of the first part of a value that keeps it from being a key. -/
def unhashable? : Value → Option Text
  | .list items => some (Value.list items).family
  | .set items => some (Value.set items).family
  | .map entries => some (Value.map entries).family
  | .cycle e => some (Value.cycle e).family
  | .foreign o _ => if o.hashable then none else some o.family
  | .agent c _ => if c.hashable then none else some c.family
  | .tuple items => unhashableIn? items
  | _ => none

/-- The type of the first part of some values that keeps them from being keys. -/
def unhashableIn? : List Value → Option Text
  | [] => none
  | v :: rest => (unhashable? v).or (unhashableIn? rest)

end

end Value

end AuditTrail
