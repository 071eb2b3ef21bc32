/-
White space, and the texts with none at their ends. The set is the one that separates words: the
ASCII controls that move the cursor or separate records, and the space characters of Unicode.
-/
import AuditTrail.Text.Basic

namespace AuditTrail.Text

/-- The white space characters. -/
def blanks : List Nat :=
  [0x9, 0xA, 0xB, 0xC, 0xD, 0x1C, 0x1D, 0x1E, 0x1F, 0x20, 0x85,
   0xA0, 0x1680, 0x2000, 0x2001, 0x2002, 0x2003, 0x2004, 0x2005, 0x2006, 0x2007, 0x2008,
   0x2009, 0x200A, 0x2028, 0x2029, 0x202F, 0x205F, 0x3000]

/-- Whether a character is white space. -/
def isBlank (c : Char) : Bool := blanks.contains c.toNat

/-- The text without the white space at its beginning. -/
def trimStart (s : Text) : Text := s.dropWhile isBlank

/-- The text without the white space at its end. -/
def trimEnd (s : Text) : Text := (s.reverse.dropWhile isBlank).reverse

/-- The text without the white space at both ends. -/
def trim (s : Text) : Text := trimEnd (trimStart s)

/-- Whether a text holds white space only. -/
def isAllBlank (s : Text) : Bool := s.all isBlank

end AuditTrail.Text
