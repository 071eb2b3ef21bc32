/-
SHA-256 as FIPS 180-4 defines it: `digest` pads a whole message and compresses it block by block.
Beside it a hasher that takes the message piece by piece and keeps back the octets that do not yet
fill a block, which is how files are read.
-/
import AuditTrail.Text.Hex

namespace AuditTrail.Sha256

/-- The constants of the 64 rounds: the first 32 bits of the fractional parts of the cube roots of
the first 64 primes. -/
def roundConstants : List UInt32 :=
  [0x428a2f98, 0x71374491, 0xb5c0fbcf, 0xe9b5dba5, 0x3956c25b, 0x59f111f1, 0x923f82a4, 0xab1c5ed5,
   0xd807aa98, 0x12835b01, 0x243185be, 0x550c7dc3, 0x72be5d74, 0x80deb1fe, 0x9bdc06a7, 0xc19bf174,
   0xe49b69c1, 0xefbe4786, 0x0fc19dc6, 0x240ca1cc, 0x2de92c6f, 0x4a7484aa, 0x5cb0a9dc, 0x76f988da,
   0x983e5152, 0xa831c66d, 0xb00327c8, 0xbf597fc7, 0xc6e00bf3, 0xd5a79147, 0x06ca6351, 0x14292967,
   0x27b70a85, 0x2e1b2138, 0x4d2c6dfc, 0x53380d13, 0x650a7354, 0x766a0abb, 0x81c2c92e, 0x92722c85,
   0xa2bfe8a1, 0xa81a664b, 0xc24b8b70, 0xc76c51a3, 0xd192e819, 0xd6990624, 0xf40e3585, 0x106aa070,
   0x19a4c116, 0x1e376c08, 0x2748774c, 0x34b0bcb5, 0x391c0cb3, 0x4ed8aa4a, 0x5b9cca4f, 0x682e6ff3,
   0x748f82ee, 0x78a5636f, 0x84c87814, 0x8cc70208, 0x90befffa, 0xa4506ceb, 0xbef9a3f7, 0xc67178f2]

/-- The eight words that are carried from block to block. -/
structure Chain where
  a : UInt32
  b : UInt32
  c : UInt32
  d : UInt32
  e : UInt32
  f : UInt32
  g : UInt32
  h : UInt32
  deriving DecidableEq, Repr, Inhabited

/-- The words before the first block: the first 32 bits of the fractional parts of the square
roots of the first eight primes. -/
def initial : Chain :=
  ⟨0x6a09e667, 0xbb67ae85, 0x3c6ef372, 0xa54ff53a, 0x510e527f, 0x9b05688c, 0x1f83d9ab, 0x5be0cd19⟩

/-- A word rotated to the right. -/
def rotate (x n : UInt32) : UInt32 := (x >>> n) ||| (x <<< (32 - n))

-- ==================================================== one block

/-- The word that four octets make, the first one highest. -/
def word (a b c d : UInt8) : UInt32 :=
  (a.toUInt32 <<< 24) ||| (b.toUInt32 <<< 16) ||| (c.toUInt32 <<< 8) ||| d.toUInt32

/-- The words of some octets. -/
def words : Bytes → List UInt32
  | a :: b :: c :: d :: rest => word a b c d :: words rest
  | _ => []

/-- The next word of a schedule, from those before it. -/
def nextWord (w : Array UInt32) : UInt32 :=
  let at' (back : Nat) : UInt32 := w.getD (w.size - back) 0
  let x := at' 15
  let y := at' 2
  let s0 := rotate x 7 ^^^ rotate x 18 ^^^ (x >>> 3)
  let s1 := rotate y 17 ^^^ rotate y 19 ^^^ (y >>> 10)
  at' 16 + s0 + at' 7 + s1

/-- A schedule made longer by so many words. -/
def extend : Nat → Array UInt32 → Array UInt32
  | 0, w => w
  | n + 1, w => extend n (w.push (nextWord w))

/-- The 64 words of a block's schedule. -/
def schedule (block : Bytes) : List UInt32 := (extend 48 (words block).toArray).toList

/-- One round with its constant and its word. -/
def round (s : Chain) (kw : UInt32 × UInt32) : Chain :=
  let s1 := rotate s.e 6 ^^^ rotate s.e 11 ^^^ rotate s.e 25
  let choice := (s.e &&& s.f) ^^^ (~~~s.e &&& s.g)
  let t1 := s.h + s1 + choice + kw.1 + kw.2
  let s0 := rotate s.a 2 ^^^ rotate s.a 13 ^^^ rotate s.a 22
  let majority := (s.a &&& s.b) ^^^ (s.a &&& s.c) ^^^ (s.b &&& s.c)
  ⟨t1 + (s0 + majority), s.a, s.b, s.c, s.d + t1, s.e, s.f, s.g⟩

/-- The words after one block of 64 octets. -/
def compress (s : Chain) (block : Bytes) : Chain :=
  let t := (roundConstants.zip (schedule block)).foldl round s
  ⟨s.a + t.a, s.b + t.b, s.c + t.c, s.d + t.d, s.e + t.e, s.f + t.f, s.g + t.g, s.h + t.h⟩

-- ==================================================== whole messages

/-- The number of octets in a block. -/
def blockSize : Nat := 64

/-- The words after the first `n` blocks of some octets. -/
def compressBlocks : Nat → Chain → Bytes → Chain
  | 0, s, _ => s
  | n + 1, s, octets =>
    compressBlocks n (compress s (octets.take blockSize)) (octets.drop blockSize)

/-- A number as eight octets, the highest first. -/
def octetsOf64 (n : Nat) : Bytes :=
  (List.range 8).map fun i => UInt8.ofNat (n / Nat.pow 256 (7 - i))

/-- What is put behind a message of some length: a single bit, zeros, and the length in bits, so
that the whole fills its blocks. -/
def padding (length : Nat) : Bytes :=
  0x80 :: List.replicate ((119 - length % blockSize) % blockSize) 0 ++ octetsOf64 (8 * length)

/-- The octets of a word, the highest first. -/
def octetsOf32 (w : UInt32) : Bytes :=
  [(w >>> 24).toUInt8, (w >>> 16).toUInt8, (w >>> 8).toUInt8, w.toUInt8]

/-- The octets of the eight words. -/
def Chain.octets (s : Chain) : Bytes :=
  [s.a, s.b, s.c, s.d, s.e, s.f, s.g, s.h].flatMap octetsOf32

/-- The digest of a whole message. -/
def digest (message : Bytes) : Bytes :=
  let padded := message ++ padding message.length
  (compressBlocks (padded.length / blockSize) initial padded).octets

-- ==================================================== piece by piece

/-- A message of which a part was read: the words after its full blocks, the octets behind them,
and how many octets there were in all. -/
structure Hasher where
  chain : Chain
  pending : Bytes
  length : Nat
  deriving DecidableEq, Repr

namespace Hasher

/-- The hasher of an empty message. -/
def empty : Hasher := ⟨initial, [], 0⟩

/-- The hasher after more octets of the message. -/
def feed (h : Hasher) (piece : Bytes) : Hasher :=
  let octets := h.pending ++ piece
  let full := octets.length / blockSize
  ⟨compressBlocks full h.chain octets, octets.drop (full * blockSize), h.length + piece.length⟩

/-- The digest of the message that was read. -/
def finish (h : Hasher) : Bytes :=
  let octets := h.pending ++ padding h.length
  (compressBlocks (octets.length / blockSize) h.chain octets).octets

end Hasher

/-- Octets cut into pieces of a size, as often as there are octets. -/
def piecesWithin (size : Nat) : Nat → Bytes → List Bytes
  | 0, _ => []
  | _, [] => []
  | fuel + 1, octets => octets.take size :: piecesWithin size fuel (octets.drop size)

/-- Octets cut into pieces of a size, the last one perhaps shorter. -/
def pieces (size : Nat) (octets : Bytes) : List Bytes := piecesWithin size octets.length octets

/-- The digest of a message that is read in pieces. -/
def digestOfPieces (pieces : List Bytes) : Bytes := (pieces.foldl Hasher.feed Hasher.empty).finish

end AuditTrail.Sha256
