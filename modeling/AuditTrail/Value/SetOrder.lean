/-
The order in which a set of numbers gives its members. The members lie in a table whose size is a
power of two with room to spare. Each lies at the place that its residue has in the table, or if
that is taken at one of the places tried after it; equal numbers of different types have the same
residue. The members are given from the first place of the table to the last.
-/
import AuditTrail.Value.Equality

namespace AuditTrail.Value.SetOrder

/-- The modulus of residues, a prime. -/
def modulus : Nat := Nat.pow 2 61 - 1

/-- The residue of a fraction whose denominator is a power of two; that power has an inverse, for 61
doublings change nothing. -/
def residueOfFraction (num : Int) (den : Nat) : Int :=
  let n := num.natAbs * Nat.pow 2 (61 - Nat.log2 den % 61) % modulus
  if num < 0 then if n = 1 then -2 else -(n : Int) else n

/-- The residue of a number, if it has one. -/
def residue? : Value → Option Int
  | .float (.infinite negative) => some (if negative then -314159 else 314159)
  | .float x => x.fraction?.map fun f => residueOfFraction f.1 f.2
  | v => v.int?.map fun n => residueOfFraction n 1

/-- How many places the table of so many members has. The number bounds the doublings. -/
def sizeFor (count : Nat) : Nat → Nat → Nat
  | 0, size => size
  | fuel + 1, size => if 4 < count ∧ size ≤ 2 * count then sizeFor count fuel (2 * size) else size

/-- How many places behind one are tried before a place far from it. -/
def neighbours : Nat := 9

/-- The first place that is free, from a place on; `rest` are the bits of the residue that have not
moved the place yet. The number bounds the jumps. -/
def freePlace (isFree : Nat → Bool) (size : Nat) : Nat → Nat → Nat → Nat
  | 0, place, _ => place
  | fuel + 1, place, rest =>
    let near := if place + neighbours < size then neighbours + 1 else 1
    match (List.range near).find? fun d => isFree (place + d) with
    | some d => place + d
    | none =>
      let rest := rest / 32
      freePlace isFree size fuel ((place * 5 + 1 + rest) % size) rest

/-- The table with one more member. -/
def insert (size : Nat) (table : List (Nat × Value)) (residue : Int) (v : Value) :
    List (Nat × Value) :=
  let bits := (residue % (Nat.pow 2 64 : Int)).toNat
  let place := freePlace (fun p => (table.lookup p).isNone) size (size + 13) (bits % size) bits
  (place, v) :: table

/-- The members of a set in their order, if all of them are numbers. -/
def sort? (members : List Value) : Option (List Value) := do
  let residues ← members.mapM residue?
  let size := sizeFor members.length members.length 8
  let table := (residues.zip members).foldl (fun table m => insert size table m.1 m.2) []
  some ((List.range size).filterMap fun place => table.lookup place)

end AuditTrail.Value.SetOrder
