/-
UTF-8: every character as one to four octets, and back. Reading refuses what no character is
written as, and says where and why: an octet that starts nothing, an octet that does not continue
what was started, or an end in the middle of a character. Writing refuses half of a surrogate pair,
which is no character; where a text from outside holds one, a replacement stands for it here.
-/
import AuditTrail.Text.Hex

namespace AuditTrail.Utf8

/-- The octets of one character. -/
def encodeChar (c : Char) : Bytes :=
  let n := c.toNat
  if n < 0x80 then [UInt8.ofNat n]
  else if n < 0x800 then [UInt8.ofNat (0xC0 + n / 0x40), UInt8.ofNat (0x80 + n % 0x40)]
  else if n < 0x10000 then
    [UInt8.ofNat (0xE0 + n / 0x1000), UInt8.ofNat (0x80 + n / 0x40 % 0x40),
      UInt8.ofNat (0x80 + n % 0x40)]
  else
    [UInt8.ofNat (0xF0 + n / 0x40000), UInt8.ofNat (0x80 + n / 0x1000 % 0x40),
      UInt8.ofNat (0x80 + n / 0x40 % 0x40), UInt8.ofNat (0x80 + n % 0x40)]

/-- The octets of a text. -/
def encode (s : Text) : Bytes := s.flatMap encodeChar

/-- What is wrong with a sequence of octets. -/
inductive Flaw where
  /-- An octet that starts no character. -/
  | start
  /-- An octet that does not continue the character begun before it. -/
  | continuation
  /-- The octets end within a character. -/
  | truncated
  deriving DecidableEq, Repr

/-- A flaw, the position of the first octet it concerns, and the octets it concerns. -/
structure DecodeError where
  flaw : Flaw
  position : Nat
  octets : Bytes
  deriving DecidableEq, Repr

/-- Whether an octet continues a character: its two high bits are 10. -/
def isTail (b : UInt8) : Bool := decide (0x80 ≤ b.toNat ∧ b.toNat < 0xC0)

/-- Whether `b` may follow the first octet `a` of a three-octet character: no shorter form, and no
surrogate. -/
def isSecondOfThree (a b : UInt8) : Bool :=
  isTail b && (a.toNat != 0xE0 || decide (0xA0 ≤ b.toNat)) &&
    (a.toNat != 0xED || decide (b.toNat < 0xA0))

/-- Whether `b` may follow the first octet `a` of a four-octet character: no shorter form, and
nothing above the last code point. -/
def isSecondOfFour (a b : UInt8) : Bool :=
  isTail b && (a.toNat != 0xF0 || decide (0x90 ≤ b.toNat)) &&
    (a.toNat != 0xF4 || decide (b.toNat < 0x90))

/-- The six low bits of a continuation octet. -/
def tailBits (b : UInt8) : Nat := b.toNat % 0x40

/-- The character at the beginning of some octets and the number of octets it takes, or the flaw
there and the number of octets it concerns. -/
def first : Bytes → Except (Flaw × Nat) (Char × Nat)
  | [] => .error (.truncated, 0)
  | a :: rest =>
    let n := a.toNat
    if n < 0x80 then .ok (Char.ofNat n, 1)
    else if n < 0xC2 then .error (.start, 1)
    else if n < 0xE0 then
      match rest with
      | [] => .error (.truncated, 1)
      | b :: _ =>
        if isTail b then .ok (Char.ofNat ((n - 0xC0) * 0x40 + tailBits b), 2)
        else .error (.continuation, 1)
    else if n < 0xF0 then
      match rest with
      | [] => .error (.truncated, 1)
      | [b] => if isSecondOfThree a b then .error (.truncated, 2) else .error (.continuation, 1)
      | b :: c :: _ =>
        if !isSecondOfThree a b then .error (.continuation, 1)
        else if !isTail c then .error (.continuation, 2)
        else .ok (Char.ofNat ((n - 0xE0) * 0x1000 + tailBits b * 0x40 + tailBits c), 3)
    else if n < 0xF5 then
      match rest with
      | [] => .error (.truncated, 1)
      | [b] => if isSecondOfFour a b then .error (.truncated, 2) else .error (.continuation, 1)
      | [b, c] =>
        if !isSecondOfFour a b then .error (.continuation, 1)
        else if !isTail c then .error (.continuation, 2)
        else .error (.truncated, 3)
      | b :: c :: d :: _ =>
        if !isSecondOfFour a b then .error (.continuation, 1)
        else if !isTail c then .error (.continuation, 2)
        else if !isTail d then .error (.continuation, 3)
        else
          .ok (Char.ofNat ((n - 0xF0) * 0x40000 + tailBits b * 0x1000 + tailBits c * 0x40 +
            tailBits d), 4)
    else .error (.start, 1)

/-- Reads the octets from position `pos` on; `pending` octets still belong to the character read
last. -/
def decodeFrom (pos : Nat) : Nat → Bytes → Except DecodeError Text
  | _, [] => .ok []
  | pending + 1, _ :: rest => decodeFrom (pos + 1) pending rest
  | 0, a :: rest =>
    match first (a :: rest) with
    | .error (flaw, count) => .error ⟨flaw, pos, (a :: rest).take count⟩
    | .ok (c, count) => (decodeFrom (pos + 1) (count - 1) rest).map (c :: ·)

/-- The text that some octets encode, or the first flaw. -/
def decode (octets : Bytes) : Except DecodeError Text := decodeFrom 0 0 octets

/-- The wording of a flaw. -/
def Flaw.message : Flaw → Text
  | .start => "invalid start byte".toList
  | .continuation => "invalid continuation byte".toList
  | .truncated => "unexpected end of data".toList

/-- The wording of a decoding error: one octet is shown by its value, several by their
positions. -/
def DecodeError.message (e : DecodeError) : Text :=
  match e.octets with
  | [b] =>
    "'utf-8' codec can't decode byte 0x".toList ++ Text.hexPadded 2 b.toNat ++
      " in position ".toList ++ Text.ofNat e.position ++ ": ".toList ++ e.flaw.message
  | octets =>
    "'utf-8' codec can't decode bytes in position ".toList ++ Text.ofNat e.position ++ ['-'] ++
      Text.ofNat (e.position + octets.length - 1) ++ ": ".toList ++ e.flaw.message

-- ==================================================== halves of pairs

/-- What stands in a text for half of a surrogate pair without the other one. Half a pair is no
character and has no octets, but texts from outside may hold one. -/
def replacement : Char := '\uFFFD'

/-- The halves of surrogate pairs that a text holds: for a position, the number of the half that the
replacement there stands for. A replacement without such a number stands for itself. -/
abbrev Halves := Nat → Option Nat

/-- No halves. -/
def Halves.none : Halves := fun _ => Option.none

/-- The half that a character at some position stands for. -/
def Halves.at? (halves : Halves) (position : Nat) (c : Char) : Option Nat :=
  if c = replacement then halves position else Option.none

/-- Why a text has no octets: the positions of the first and the last of the first halves that stand
together, and the number of the first. -/
structure EncodeError where
  start : Nat
  stop : Nat
  half : Nat
  deriving DecidableEq, Repr

/-- How many halves stand together from some position on. -/
def halfCount (halves : Halves) : Nat → Text → Nat
  | _, [] => 0
  | i, c :: rest =>
    match halves.at? i c with
    | some _ => halfCount halves (i + 1) rest + 1
    | none => 0

/-- Why a text with some halves has no octets, from some position on. -/
def encodeErrorFrom? (halves : Halves) : Nat → Text → Option EncodeError
  | _, [] => none
  | i, c :: rest =>
    match halves.at? i c with
    | some half => some ⟨i, i + halfCount halves (i + 1) rest, half⟩
    | none => encodeErrorFrom? halves (i + 1) rest

/-- Why a text with some halves has no octets. -/
def encodeError? (halves : Halves) (s : Text) : Option EncodeError := encodeErrorFrom? halves 0 s

/-- The wording of an encoding error: one half is shown by its number, several by their
positions. -/
def EncodeError.message (e : EncodeError) : Text :=
  (if e.start = e.stop then
    "'utf-8' codec can't encode character '\\u".toList ++ Text.hexPadded 4 e.half ++
      "' in position ".toList ++ Text.ofNat e.start
  else
    "'utf-8' codec can't encode characters in position ".toList ++ Text.ofNat e.start ++ ['-'] ++
      Text.ofNat e.stop) ++ ": surrogates not allowed".toList

end AuditTrail.Utf8
