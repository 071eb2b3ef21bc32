/-
Quoted texts and quoted octets, as messages show them: between single quotes, or between double
quotes if the text holds single quotes only; line ends and tabs as letters after a backslash,
everything without a graphic form by its number.
-/
import AuditTrail.Text.Hex
import AuditTrail.Text.Printable

namespace AuditTrail.Text

/-- The quote that surrounds a text: single, unless the text holds single quotes and no double
ones. -/
def quoteFor (hasSingle hasDouble : Bool) : Char :=
  if hasSingle && !hasDouble then '\x22' else '\x27'

/-- One character between the quotes `quote`. -/
def quotedChar (quote c : Char) : Text :=
  if c = quote ∨ c = '\\' then ['\\', c]
  else if c = '\n' then ['\\', 'n']
  else if c = '\r' then ['\\', 'r']
  else if c = '\t' then ['\\', 't']
  else if isPrintable c then [c]
  else if c.toNat < 0x100 then '\\' :: 'x' :: hexPadded 2 c.toNat
  else if c.toNat < 0x10000 then '\\' :: 'u' :: hexPadded 4 c.toNat
  else '\\' :: 'U' :: hexPadded 8 c.toNat

/-- A text between quotes. -/
def quoted (s : Text) : Text :=
  let quote := quoteFor (s.contains '\x27') (s.contains '\x22')
  quote :: s.flatMap (quotedChar quote) ++ [quote]

/-- One octet between the quotes `quote`. -/
def quotedOctet (quote : Char) (b : UInt8) : Text :=
  let c := Char.ofNat b.toNat
  if c = quote ∨ c = '\\' then ['\\', c]
  else if c = '\n' then ['\\', 'n']
  else if c = '\r' then ['\\', 'r']
  else if c = '\t' then ['\\', 't']
  else if 0x20 ≤ b.toNat ∧ b.toNat ≤ 0x7E then [c]
  else '\\' :: 'x' :: hexPadded 2 b.toNat

/-- Octets between quotes, after the letter that tells them from a text. -/
def quotedBytes (bytes : Bytes) : Text :=
  let quote := quoteFor (bytes.contains 0x27) (bytes.contains 0x22)
  'b' :: quote :: bytes.flatMap (quotedOctet quote) ++ [quote]

end AuditTrail.Text
