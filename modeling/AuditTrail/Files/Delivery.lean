/-
The text of a file as a reader gets it. Octets are decoded in chunks, line ends become line feeds,
and the characters are handed out in portions of a fixed length. An octet that fits nowhere is only
noticed with the portion that its chunk is decoded for; the portions before it are handed out.
-/
import AuditTrail.Number.Double
import AuditTrail.Text.Lines
import AuditTrail.Text.Utf8

namespace AuditTrail

/-- A file that is being read. -/
structure Reading where
  /-- The octets that are not decoded yet. -/
  octets : Bytes
  /-- The octets of the character in the middle of which the decoded ones end. -/
  unfinished : Bytes
  /-- Whether the decoded text ends in a carriage return, which a line feed may follow. -/
  heldReturn : Bool
  /-- The characters that are decoded and not handed out yet. -/
  ready : Text
  /-- How many octets a character took in the chunk decoded last. -/
  density : Double

/-- A file as it is delivered: its portions, and what is wrong with the one after them if the file
does not end there. -/
structure Delivery where
  portions : List Text
  error : Option Utf8.DecodeError

namespace Reading

/-- The fewest octets that are decoded at once. -/
def chunkSize : Nat := 8192

/-- How many characters make a portion. -/
def portionSize : Nat := 4096

/-- A file of which nothing has been read. -/
def start (octets : Bytes) : Reading := ⟨octets, [], false, [], Double.zero⟩

/-- Whether octets are the first two of a surrogate. -/
def beginSurrogate : Bytes → Bool
  | [a, b] => a == 0xED && Utf8.isTail b && decide (0xA0 ≤ b.toNat)
  | _ => false

/-- The text of some octets, and those of an unfinished character at their end. Also an unfinished
surrogate waits for its last octet, though nothing can follow that makes it a character. -/
def decodeBeginning (octets : Bytes) : Except Utf8.DecodeError (Text × Bytes) :=
  match Utf8.decode octets with
  | .ok s => .ok (s, [])
  | .error e =>
    let left := octets.drop e.position
    if e.flaw == .truncated || beginSurrogate left then
      (Utf8.decode (octets.take e.position)).map fun s => (s, left)
    else .error e

/-- How many octets are decoded for the sake of some characters: as many as they would take at the
last density. -/
def chunkFor (r : Reading) (wanted : Nat) : Nat :=
  match (r.density.mul (Double.ofInt wanted)).fraction? with
  | some (num, den) => max chunkSize (num.toNat / den)
  | none => chunkSize

/-- The file with decoded characters that become ready. A carriage return at the end waits for the
next ones. -/
def deliver (r : Reading) (size : Nat) (decoded : Text) : Reading :=
  let s := if r.heldReturn && !decoded.isEmpty then '\r' :: decoded else decoded
  let held := if s.isEmpty then r.heldReturn else s.getLast? == some '\r'
  let text := Text.unifyLineEnds (if held then s.dropLast else s)
  let density :=
    if text.isEmpty then Double.zero else Double.ofRatio false size text.length
  { r with heldReturn := held, ready := r.ready ++ text, density := density }

/-- The file after one more chunk was decoded for some characters, or nothing at its end. -/
def decodeChunk (r : Reading) (wanted : Nat) : Except Utf8.DecodeError (Option Reading) := do
  let chunk := r.octets.take (r.chunkFor wanted)
  if chunk.isEmpty then
    let _ ← Utf8.decode r.unfinished
    .ok (if r.heldReturn then some { r with heldReturn := false, ready := ['\n'] } else none)
  else
    let (s, unfinished) ← decodeBeginning (r.unfinished ++ chunk)
    let rest : Reading :=
      { r with octets := r.octets.drop chunk.length, unfinished := unfinished }
    .ok (some (rest.deliver chunk.length s))

/-- The next characters, `wanted` of them if there are so many, and the file after them. The first
number bounds the chunks. -/
def take : Nat → Nat → Reading → Except Utf8.DecodeError (Text × Reading)
  | 0, _, r => .ok ([], r)
  | fuel + 1, wanted, r => do
    let s := r.ready.take wanted
    let r := { r with ready := r.ready.drop wanted }
    if s.length = wanted then .ok (s, r)
    else
      match ← r.decodeChunk (wanted - s.length) with
      | none => .ok (s, r)
      | some r =>
        let (more, r) ← take fuel (wanted - s.length) r
        .ok (s ++ more, r)

/-- The portions of a file, up to its end or to what cannot be decoded. The number bounds them. -/
def portions : Nat → Reading → Delivery
  | 0, _ => ⟨[], none⟩
  | fuel + 1, r =>
    match r.take (r.octets.length + 2) portionSize with
    | .error e => ⟨[], some e⟩
    | .ok ([], _) => ⟨[], none⟩
    | .ok (s, r) =>
      let later := portions fuel r
      { later with portions := s :: later.portions }

end Reading

/-- The delivery of a file. -/
def Delivery.ofOctets (octets : Bytes) : Delivery :=
  (Reading.start octets).portions (octets.length + 2)

end AuditTrail
