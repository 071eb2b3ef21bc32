/-
Wildcard patterns over names: `*` for any run of characters, `?` for one character, a bracket for
one character of a set, anything else for itself. A pattern is cut into the chunks between its
stars, each a list of one-character tests, and a name is matched by taking the first chunk at its
beginning, each following one at the earliest place that is left, and the last at its end.
-/
import AuditTrail.Text.Basic

namespace AuditTrail.Glob

/-- A test on one character. -/
inductive Single where
  /-- That character. -/
  | literal (c : Char)
  /-- Any character. -/
  | any
  /-- A character inside one of the closed intervals, or outside all of them if `negated`. -/
  | within (negated : Bool) (ranges : List (Char × Char))
  deriving DecidableEq, Repr

/-- Whether a character passes a test. -/
def Single.accepts : Single → Char → Bool
  | .literal a, c => a == c
  | .any, _ => true
  | .within negated ranges, c =>
    (ranges.any fun r => decide (r.1.toNat ≤ c.toNat ∧ c.toNat ≤ r.2.toNat)) != negated

/-- A part of a pattern: a star or a one-character test. -/
inductive Part where
  | star
  | single (t : Single)
  deriving DecidableEq, Repr

-- ==================================================== bracket expressions

/-- The pieces of a bracket's content between the hyphens that may join two characters to an
interval. A hyphen joins only if two characters stand before it and the last hyphen that joined,
so the first `skip` characters are no such hyphens. -/
def hyphenPieces : Nat → Text → Text → List Text
  | _, piece, [] => [piece.reverse]
  | skip + 1, piece, c :: rest => hyphenPieces skip (c :: piece) rest
  | 0, piece, c :: rest =>
    if c = '-' then piece.reverse :: hyphenPieces 2 [] rest else hyphenPieces 0 (c :: piece) rest

/-- The pieces with an empty last one given back to its neighbour as the hyphen it follows. -/
def keepFinalHyphen : List Text → List Text
  | [] => []
  | [a] => [a]
  | [a, b] => if b.isEmpty then [a ++ ['-']] else [a, b]
  | a :: b :: rest => a :: keepFinalHyphen (b :: rest)

/-- The pieces after every interval that runs backwards is dropped together with its two ends,
from the last interval to the first. -/
def dropBackward : List Text → List Text
  | [] => []
  | a :: rest =>
    match dropBackward rest with
    | [] => [a]
    | b :: more =>
      match a.getLast?, b.head? with
      | some last, some first =>
        if first.toNat < last.toNat then (a.dropLast ++ b.tail) :: more else a :: b :: more
      | _, _ => a :: b :: more

/-- The intervals of the pieces: each character by itself, and one from the last character of a
piece to the first of the next. -/
def intervals : List Text → List (Char × Char)
  | [] => []
  | [a] => a.map fun c => (c, c)
  | a :: b :: rest =>
    let joined :=
      match a.getLast?, b.head? with
      | some last, some first => [(last, first)]
      | _, _ => [('-', '-')]
    a.map (fun c => (c, c)) ++ joined ++ intervals (b :: rest)

/-- The test that a bracket's content stands for. An exclamation mark in front negates it; with
nothing left it accepts no character, and negated with nothing left any. -/
def bracket (content : Text) : Single :=
  let pieces :=
    if content.contains '-' then
      let skip := if content.head? = some '!' then 2 else 1
      dropBackward (keepFinalHyphen (hyphenPieces skip [] content))
    else [content]
  match pieces with
  | [['!']] => .any
  | ('!' :: a) :: rest => .within true (intervals (a :: rest))
  | pieces => .within false (intervals pieces)

/-- The content of a bracket and the text after its end; the end is the first closing bracket
that is neither the content's first character nor its second after an exclamation mark. -/
def bracketContent (s : Text) : Option (Text × Text) :=
  let (lead, s) :=
    match s with
    | '!' :: ']' :: rest => (['!', ']'], rest)
    | '!' :: rest => (['!'], rest)
    | ']' :: rest => ([']'], rest)
    | s => ([], s)
  (Text.cutFirst ']' s).map fun r => (lead ++ r.1, r.2)

-- ==================================================== patterns

/-- The parts of a pattern. The number bounds the characters still to be read. -/
def partsWithin : Nat → Text → List Part
  | 0, _ => []
  | _, [] => []
  | fuel + 1, '*' :: rest => .star :: partsWithin fuel rest
  | fuel + 1, '?' :: rest => .single .any :: partsWithin fuel rest
  | fuel + 1, '[' :: rest =>
    match bracketContent rest with
    | some (content, after) => .single (bracket content) :: partsWithin fuel after
    | none => .single (.literal '[') :: partsWithin fuel rest
  | fuel + 1, c :: rest => .single (.literal c) :: partsWithin fuel rest

/-- The parts of a pattern, in order. -/
def parts (pattern : Text) : List Part := partsWithin pattern.length pattern

/-- The chunks of one-character tests before, between and after the stars. -/
def chunks : List Part → List (List Single)
  | [] => [[]]
  | .star :: rest => [] :: chunks rest
  | .single t :: rest =>
    match chunks rest with
    | [] => [[t]]
    | chunk :: more => (t :: chunk) :: more

/-- What is left of a text after a chunk at its beginning. -/
def takeChunk : List Single → Text → Option Text
  | [], s => some s
  | _ :: _, [] => none
  | t :: chunk, c :: s => if t.accepts c then takeChunk chunk s else none

/-- What is left of a text after the earliest occurrence of a chunk. -/
def findChunk (chunk : List Single) : Text → Option Text
  | [] => takeChunk chunk []
  | c :: s =>
    match takeChunk chunk (c :: s) with
    | some rest => some rest
    | none => findChunk chunk s

/-- Whether a chunk stands at the end of a text. -/
def endsWithChunk (chunk : List Single) (s : Text) : Bool :=
  decide (chunk.length ≤ s.length) &&
    (takeChunk chunk (s.drop (s.length - chunk.length))).isSome

/-- Whether the chunks, each after a star, cover a text. -/
def coversAfterStar : List (List Single) → Text → Bool
  | [], s => s.isEmpty
  | [last], s => endsWithChunk last s
  | chunk :: more, s =>
    match findChunk chunk s with
    | some rest => coversAfterStar more rest
    | none => false

/-- Whether a name matches the parts of a pattern. -/
def coversParts (ps : List Part) (name : Text) : Bool :=
  match chunks ps with
  | [] => name.isEmpty
  | [only] => takeChunk only name == some []
  | start :: more =>
    match takeChunk start name with
    | some rest => coversAfterStar more rest
    | none => false

/-- Whether a name matches a pattern. -/
def covers (pattern name : Text) : Bool := coversParts (parts pattern) name

end AuditTrail.Glob
