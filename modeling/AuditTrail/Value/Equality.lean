/-
Equality of values, and maps keyed by it. Numbers are compared by their values whatever their
types, vocabulary members as the texts they stand for, objects by their parts or not at all; an
object that answers for itself equals no other value. An undefined number equals itself only where
both sides are known to be one object, which the flag `shared` says.
-/
import AuditTrail.Value.Basic

namespace AuditTrail.Value

/-- Whether a number of some type equals a number of another. -/
def sameNumber (shared : Bool) : Value → Value → Bool
  | .float x, .float y => x.equals y || (shared && x == .nan && y == .nan)
  | .float x, v => (v.int?.map x.equalsInt).getD false
  | v, .float x => (v.int?.map x.equalsInt).getD false
  | v, w =>
    match v.int?, w.int? with
    | some m, some n => m == n
    | _, _ => false

/-- Whether two dates with times of day are the same: the same instant if both have offsets, the
same date and time if neither has one. -/
def sameDateTime (a b : DateTime) : Bool :=
  match a.offset, b.offset with
  | some _, some _ => a.toInstant == b.toInstant
  | none, none => a == b
  | _, _ => false

mutual

/-- Whether two values are equal. -/
def same (shared : Bool) : Value → Value → Bool
  | .null, .null => true
  | .text s, w => w.text? == some s
  | .term t, w => w.text? == some t.wire
  | .bytes a, .bytes b => a == b
  | .list a, .list b => sameItems shared a b
  | .tuple a, .tuple b => sameItems shared a b
  | .set a, .set b => a.length == b.length && coversItems shared a b
  | .map a, .map b => a.length == b.length && coversEntries shared a b
  | .date a, .date b => a == b
  | .dateTime a, .dateTime b => sameDateTime a b
  | .foreign a p, .foreign b q =>
    a.comparable && a.family == b.family && p.length == q.length && coversEntries shared p q
  | .bool a, w => sameNumber shared (.bool a) w
  | .int a, w => sameNumber shared (.int a) w
  | .float a, w => sameNumber shared (.float a) w
  | _, _ => false
termination_by structural v => v

/-- Whether two sequences are equal item by item. -/
def sameItems (shared : Bool) : List Value → List Value → Bool
  | [], [] => true
  | v :: a, w :: b => same shared v w && sameItems shared a b
  | _, _ => false
termination_by structural a => a

/-- Whether every item of the first list equals one of the second. -/
def coversItems (shared : Bool) : List Value → List Value → Bool
  | [], _ => true
  | v :: a, b => (b.any fun w => same shared v w) && coversItems shared a b
termination_by structural a => a

/-- Whether every entry of the first map equals one of the second. -/
def coversEntries (shared : Bool) : List (Value × Value) → List (Value × Value) → Bool
  | [], _ => true
  | (k, v) :: a, b =>
    (b.any fun e => same shared k e.1 && same shared v e.2) && coversEntries shared a b
termination_by structural a => a

end

-- ==================================================== maps

/-- What stands under a key. -/
def lookup {α : Type} (entries : List (Value × α)) (key : Value) : Option α :=
  (entries.find? fun e => same false e.1 key).map (·.2)

/-- The entries after a key was set: an equal key keeps its place and its form. -/
def put (shared : Bool) (entries : Entries) (key v : Value) : Entries :=
  match entries with
  | [] => [(key, v)]
  | e :: rest =>
    if same shared e.1 key then (e.1, v) :: rest else e :: put shared rest key v

/-- The entries after several keys were set, one after the other. -/
def putAll (shared : Bool) (entries more : Entries) : Entries :=
  more.foldl (fun acc e => put shared acc e.1 e.2) entries

/-- What stands under a key that is a text. -/
def lookupText {α : Type} (entries : List (Value × α)) (key : Text) : Option α :=
  lookup entries (.text key)

end AuditTrail.Value
