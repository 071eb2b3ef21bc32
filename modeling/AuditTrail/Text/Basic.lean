/-
Texts as lists of characters, so that every function on them is a recursion that a proof can
follow, and the few operations that the record, the filter and the readers share: cutting at a
character, joining with a separator, looking for a piece.
-/
namespace AuditTrail

/-- A text, character by character. -/
abbrev Text := List Char

/-- Raw content, octet by octet. -/
abbrev Bytes := List UInt8

namespace Text

/-- Whether a code point lies in one of some closed intervals. -/
def inRanges (ranges : List (Nat × Nat)) (n : Nat) : Bool :=
  ranges.any fun r => decide (r.1 ≤ n) && decide (n ≤ r.2)

/-- The pieces of `s` between the characters that satisfy `p`; the last argument holds the
current piece, reversed. -/
def cutInto (p : Char → Bool) : Text → Text → List Text
  | piece, [] => [piece.reverse]
  | piece, c :: rest =>
    if p c then piece.reverse :: cutInto p [] rest else cutInto p (c :: piece) rest

/-- The pieces of a text between the occurrences of a character: one piece more than there are
occurrences. -/
def splitAt (sep : Char) (s : Text) : List Text := cutInto (· == sep) [] s

/-- The text before the first occurrence of a character and the text after it, if there is one. -/
def cutFirst (sep : Char) : Text → Option (Text × Text)
  | [] => none
  | c :: rest =>
    if c = sep then some ([], rest) else (cutFirst sep rest).map fun r => (c :: r.1, r.2)

/-- The texts one after the other, with a separator between neighbours. -/
def joinWith (sep : Text) : List Text → Text
  | [] => []
  | [s] => s
  | s :: rest => s ++ sep ++ joinWith sep rest

/-- Whether `s` begins with `start`. -/
def startsWith (s start : Text) : Bool := start.isPrefixOf s

/-- Whether `s` ends with `final`. -/
def endsWith (s final : Text) : Bool := final.isSuffixOf s

/-- Whether `piece` stands somewhere in `s`. -/
def hasPiece (s piece : Text) : Bool :=
  piece.isPrefixOf s ||
    match s with
    | [] => false
    | _ :: rest => hasPiece rest piece

/-- The rest of `s` after `start`, if `s` begins with it. -/
def after? (start s : Text) : Option Text :=
  match start, s with
  | [], s => some s
  | _ :: _, [] => none
  | a :: start, c :: s => if a = c then after? start s else none

/-- The decimal digits of a natural number. -/
def ofNat (n : Nat) : Text := Nat.toDigits 10 n

/-- The decimal digits of an integer, after a minus sign if it is negative. -/
def ofInt (n : Int) : Text :=
  if n < 0 then '-' :: ofNat n.natAbs else ofNat n.natAbs

/-- A natural number with zeros in front, at least `width` digits wide. -/
def ofNatPadded (width n : Nat) : Text :=
  let digits := ofNat n
  List.replicate (width - digits.length) '0' ++ digits

end Text

end AuditTrail
