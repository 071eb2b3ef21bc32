/-
Form encoding of query components: letters, digits and four marks stand for themselves, a space
becomes a plus sign, and every other character the percent-encoded octets of its UTF-8 form.
`decode` reads such a component back.
-/
import AuditTrail.Text.Utf8

namespace AuditTrail.Text.Form

/-- The octets that stand for themselves. -/
def isPlain (b : UInt8) : Bool :=
  let n := b.toNat
  decide (0x30 ≤ n ∧ n ≤ 0x39) || decide (0x41 ≤ n ∧ n ≤ 0x5A) || decide (0x61 ≤ n ∧ n ≤ 0x7A) ||
    n == 0x2D || n == 0x2E || n == 0x5F || n == 0x7E

/-- One octet in form encoding. -/
def encodeOctet (b : UInt8) : Text :=
  if isPlain b then [Char.ofNat b.toNat]
  else if b = 0x20 then ['+']
  else ['%', hexDigitUpper (b.toNat / 16), hexDigitUpper (b.toNat % 16)]

/-- A text in form encoding. -/
def encode (s : Text) : Text := (Utf8.encode s).flatMap encodeOctet

/-- The octets that a form-encoded component stands for. -/
def octets : Text → Option Bytes
  | [] => some []
  | '+' :: rest => (octets rest).map (0x20 :: ·)
  | '%' :: high :: low :: rest => do
    let h ← hexValue? high
    let l ← hexValue? low
    let more ← octets rest
    some (UInt8.ofNat (16 * h + l) :: more)
  | c :: rest => if c = '%' then none else (octets rest).map (UInt8.ofNat c.toNat :: ·)

/-- The text that a form-encoded component stands for. -/
def decode (s : Text) : Option Text := (octets s).bind fun bytes => (Utf8.decode bytes).toOption

/-- One named component. -/
def pair (p : Text × Text) : Text := encode p.1 ++ '=' :: encode p.2

/-- Why named components cannot be written: the first of them that holds half of a surrogate pair
cannot. The halves are given by the names. -/
def flaw? (halves : Text → Utf8.Halves) (pairs : List (Text × Text)) : Option Utf8.EncodeError :=
  pairs.findSome? fun p => Utf8.encodeError? (halves p.1) p.2

/-- Named components without such halves, joined by ampersands. -/
def query (pairs : List (Text × Text)) : Text := joinWith ['&'] (pairs.map pair)

end AuditTrail.Text.Form
