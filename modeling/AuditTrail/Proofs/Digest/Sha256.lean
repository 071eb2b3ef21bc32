/-
A message may be read in any pieces.

After a part of a message the hasher stands where reading that part at once
would have left it (`Hasher.after`): the words are those after the part's
full blocks, and what is kept back are the octets behind them. One more piece
moves it on by as many blocks as are full then (`Hasher.feed_after`), and
what is put behind a message is read like one more piece. So the pieces do
not matter (`digestOfPieces_eq`), and only their concatenation is digested.

What the digest of a whole message is, is said once more in the terms of the
standard (`standardDigest`): the least number of zeros that fills the last
block, blocks of 64 octets, and a schedule whose words are given one by one
by a recurrence (`digest_eq_standardDigest`).
-/
import AuditTrail.Digest.Sha256

namespace AuditTrail.Sha256

variable {m n size : Nat} {s : Chain} {a b block message : Bytes}

-- ======================================================= block after block

/-- Blocks are compressed one after the other, those further on from where
the first ones end. -/
theorem compressBlocks_add (m n : Nat) (s : Chain) (octets : Bytes) :
    compressBlocks (m + n) s octets
      = compressBlocks n (compressBlocks m s octets)
          (octets.drop (m * blockSize)) := by
  induction m generalizing s octets with
  | zero => rw [Nat.zero_add, Nat.zero_mul, List.drop_zero]; rfl
  | succ m ih =>
      rw [Nat.succ_add, compressBlocks, compressBlocks, ih, List.drop_drop,
        Nat.succ_mul, Nat.add_comm blockSize]

/-- Octets behind the blocks are not looked at. -/
theorem compressBlocks_append (h : n * blockSize ≤ a.length) :
    compressBlocks n s (a ++ b) = compressBlocks n s a := by
  induction n generalizing s a with
  | zero => rfl
  | succ n ih =>
      rw [Nat.succ_mul] at h
      rw [compressBlocks, compressBlocks,
        List.take_append_of_le_length (by omega),
        List.drop_append_of_le_length (by omega),
        ih (by rw [List.length_drop]; omega)]

-- ================================================================= pieces

namespace Hasher

/-- The hasher that has read a message at once. -/
def after (message : Bytes) : Hasher :=
  let full := message.length / blockSize
  ⟨compressBlocks full initial message, message.drop (full * blockSize),
    message.length⟩

/-- One more piece leaves the hasher where reading it with the rest does. -/
theorem feed_after (message piece : Bytes) :
    (after message).feed piece = after (message ++ piece) := by
  have hle : message.length / blockSize * blockSize ≤ message.length :=
    Nat.div_mul_le_self _ _
  -- the octets kept back are those of the whole behind the full blocks
  have hkept : message.drop (message.length / blockSize * blockSize) ++ piece
      = (message ++ piece).drop (message.length / blockSize * blockSize) :=
    (List.drop_append_of_le_length hle).symm
  have hfull : message.length / blockSize
        + (message.length + piece.length
            - message.length / blockSize * blockSize) / blockSize
      = (message.length + piece.length) / blockSize := by
    unfold blockSize
    omega
  unfold feed after
  dsimp only
  rw [hkept, List.length_drop, List.length_append, List.drop_drop,
    ← Nat.add_mul, hfull]
  congr 1
  rw [← compressBlocks_append (b := piece) hle, ← compressBlocks_add, hfull]

/-- Pieces that are read one after the other are read like one. -/
theorem foldl_feed_after (message : Bytes) (pieces : List Bytes) :
    pieces.foldl feed (after message) = after (message ++ pieces.flatten) := by
  induction pieces generalizing message with
  | nil => rw [List.flatten_nil, List.append_nil]; rfl
  | cons piece pieces ih =>
      rw [List.foldl_cons, feed_after, ih, List.flatten_cons,
        List.append_assoc]

/-- What is put behind a message is read like one more piece of it. -/
theorem finish_after (message : Bytes) :
    (after message).finish = digest message := by
  have hchain := congrArg chain (feed_after message (padding message.length))
  exact congrArg Chain.octets hchain

end Hasher

/-- The digest of a message does not depend on its pieces. -/
theorem digestOfPieces_eq (pieces : List Bytes) :
    digestOfPieces pieces = digest pieces.flatten := by
  have hfed := Hasher.foldl_feed_after [] pieces
  unfold digestOfPieces
  rw [← Hasher.finish_after pieces.flatten]
  exact congrArg Hasher.finish hfed

-- ============================================================ equal pieces

theorem flatten_piecesWithin (hsize : 0 < size) {octets : Bytes}
    (hfuel : octets.length ≤ n) :
    (piecesWithin size n octets).flatten = octets := by
  induction n generalizing octets with
  | zero => rw [List.length_eq_zero_iff.mp (Nat.le_zero.mp hfuel)]; rfl
  | succ n ih =>
      cases octets with
      | nil => rfl
      | cons c octets =>
          rw [List.length_cons] at hfuel
          rw [piecesWithin, List.flatten_cons,
            ih (by rw [List.length_drop, List.length_cons]; omega),
            List.take_append_drop]
          exact List.cons_ne_nil _ _

/-- Nothing is lost between pieces. -/
theorem flatten_pieces (hsize : 0 < size) (octets : Bytes) :
    (pieces size octets).flatten = octets :=
  flatten_piecesWithin hsize (Nat.le_refl _)

theorem mem_piecesWithin (hsize : 0 < size) {octets piece : Bytes}
    (hpiece : piece ∈ piecesWithin size n octets) :
    piece ≠ [] ∧ piece.length ≤ size := by
  induction n generalizing octets with
  | zero => cases hpiece
  | succ n ih =>
      cases octets with
      | nil => cases hpiece
      | cons c octets =>
          rw [piecesWithin] at hpiece
          · rcases List.mem_cons.mp hpiece with rfl | hpiece
            · refine ⟨?_, List.length_take_le _ _⟩
              obtain ⟨size, rfl⟩ := Nat.exists_eq_succ_of_ne_zero (Nat.ne_of_gt hsize)
              exact List.cons_ne_nil _ _
            · exact ih hpiece
          · exact List.cons_ne_nil _ _

/-- No piece is empty, and none is longer than it may be. -/
theorem mem_pieces (hsize : 0 < size) {octets piece : Bytes}
    (hpiece : piece ∈ pieces size octets) :
    piece ≠ [] ∧ piece.length ≤ size :=
  mem_piecesWithin hsize hpiece

-- ============================================================ the standard

/-- The words of a block's schedule one by one: the first sixteen are those
of the block, each further one is made of four before it. -/
def scheduleWord (block : Bytes) (t : Nat) : UInt32 :=
  if t < 16 then (words block).getD t 0
  else
    let x := scheduleWord block (t - 15)
    let y := scheduleWord block (t - 2)
    (rotate y 17 ^^^ rotate y 19 ^^^ (y >>> 10)) + scheduleWord block (t - 7) +
      (rotate x 7 ^^^ rotate x 18 ^^^ (x >>> 3)) + scheduleWord block (t - 16)

/-- A message with a single bit behind it, as few zeros as make room for the
length at a block's end, and the length in bits. -/
def standardPadded (message : Bytes) : Bytes :=
  let zeros := (List.range blockSize).find? fun k =>
    (message.length + 1 + k) % blockSize == 56
  message ++ 0x80 :: List.replicate (zeros.getD 0) 0 ++
    octetsOf64 (8 * message.length)

/-- The words after one block in the terms of the standard: the rounds in
turn, each with its constant and its word. -/
def digestBlock (s : Chain) (block : Bytes) : Chain :=
  let t := (List.range 64).foldl
    (fun t i => round t (roundConstants.getD i 0, scheduleWord block i)) s
  ⟨s.a + t.a, s.b + t.b, s.c + t.c, s.d + t.d, s.e + t.e, s.f + t.f,
    s.g + t.g, s.h + t.h⟩

/-- The digest of a message in the terms of the standard. -/
def standardDigest (message : Bytes) : Bytes :=
  let blocks := pieces blockSize (standardPadded message)
  (blocks.foldl digestBlock initial).octets

theorem standardPadded_eq (message : Bytes) :
    standardPadded message = message ++ padding message.length := by
  have hzeros : (List.range blockSize).find? (fun k =>
      (message.length + 1 + k) % blockSize == 56)
        = some ((119 - message.length % blockSize) % blockSize) := by
    rw [List.find?_range_eq_some]
    simp only [blockSize, List.mem_range, beq_iff_eq, Bool.not_eq_true',
      beq_eq_false_iff_ne]
    refine ⟨by omega, by omega, fun k hk => by omega⟩
  unfold standardPadded padding
  rw [hzeros]
  simp only [Option.getD_some, List.append_assoc, List.cons_append]

/-- The whole fills its blocks. -/
theorem length_append_padding (message : Bytes) :
    (message ++ padding message.length).length % blockSize = 0 := by
  simp only [padding, octetsOf64, blockSize, List.length_append,
    List.length_cons, List.length_replicate, List.length_map,
    List.length_range]
  omega

theorem length_words (octets : Bytes) :
    (words octets).length = octets.length / 4 := by
  fun_induction words octets with
  | case1 a b c d rest ih =>
      simp only [List.length_cons, ih]
      omega
  | case2 octets hshort =>
      refine (Nat.div_eq_of_lt ?_).symm
      match octets, hshort with
      | [], _ | [_], _ | [_, _], _ | [_, _, _], _ => simp
      | a :: b :: c :: d :: rest, h => exact absurd rfl (h a b c d rest)

/-- The schedule so far, of so many words. -/
def scheduleOf (block : Bytes) (n : Nat) : Array UInt32 :=
  ((List.range n).map (scheduleWord block)).toArray

theorem nextWord_scheduleOf (block : Bytes) (hn : 16 ≤ n) :
    nextWord (scheduleOf block n) = scheduleWord block n := by
  have hword (back : Nat) (hback : 0 < back) (hle : back ≤ 16) :
      (scheduleOf block n).getD ((scheduleOf block n).size - back) 0
        = scheduleWord block (n - back) := by
    have hlt : n - back < n := by omega
    simp [scheduleOf, hlt]
  rw [scheduleWord, if_neg (by omega)]
  unfold nextWord
  simp only [hword 15 (by decide) (by decide), hword 2 (by decide) (by decide),
    hword 16 (by decide) (by decide), hword 7 (by decide) (by decide)]
  ac_rfl

theorem extend_scheduleOf (block : Bytes) (hm : 16 ≤ m) (n : Nat) :
    extend n (scheduleOf block m) = scheduleOf block (m + n) := by
  induction n generalizing m with
  | zero => rfl
  | succ n ih =>
      have hpush : (scheduleOf block m).push (scheduleWord block m)
          = scheduleOf block (m + 1) := by
        simp [scheduleOf, List.range_succ]
      rw [extend, nextWord_scheduleOf block hm, hpush, ih (by omega),
        Nat.add_assoc, Nat.add_comm 1]

theorem schedule_eq (hblock : block.length = blockSize) :
    schedule block = (List.range 64).map (scheduleWord block) := by
  have hfirst : (words block).toArray = scheduleOf block 16 := by
    have hlength : (words block).length = 16 := by
      rw [length_words, hblock]
      rfl
    unfold scheduleOf
    congr 1
    refine List.ext_getElem (by simp [hlength]) fun i hi _ => ?_
    have hlt : i < 16 := hlength ▸ hi
    simp [scheduleWord, hlt, hi]
  unfold schedule
  rw [hfirst, extend_scheduleOf block (by decide)]
  rfl

theorem digestBlock_eq (hblock : block.length = blockSize) (s : Chain) :
    digestBlock s block = compress s block := by
  have hconstants : roundConstants
      = (List.range 64).map fun i => roundConstants.getD i 0 := rfl
  have hrounds : roundConstants.zip (schedule block)
      = (List.range 64).map fun i =>
          (roundConstants.getD i 0, scheduleWord block i) := by
    rw [schedule_eq hblock]
    exact (congrArg (List.zip · _) hconstants).trans (List.zip_map' ..)
  unfold digestBlock compress
  rw [hrounds, List.foldl_map]

/-- Full blocks are compressed one by one. -/
theorem foldl_piecesWithin {octets : Bytes}
    (hlength : octets.length = m * blockSize) (hfuel : octets.length ≤ n)
    (s : Chain) :
    (piecesWithin blockSize n octets).foldl digestBlock s
      = compressBlocks m s octets := by
  induction m generalizing n octets s with
  | zero =>
      rw [Nat.zero_mul, List.length_eq_zero_iff] at hlength
      subst hlength
      cases n with
      | zero => rfl
      | succ n => rfl
  | succ m ih =>
      rw [Nat.succ_mul] at hlength
      have hblock : (octets.take blockSize).length = blockSize := by
        rw [List.length_take]
        omega
      cases n with
      | zero =>
          unfold blockSize at hlength
          omega
      | succ n =>
          have hne : octets ≠ [] := by
            rintro rfl
            unfold blockSize at hlength
            simp at hlength
          have hpos : 0 < blockSize := by decide
          rw [piecesWithin, List.foldl_cons, digestBlock_eq hblock,
            ih (by rw [List.length_drop]; omega)
              (by rw [List.length_drop]; omega), compressBlocks]
          exact hne

/-- The digest of a message is what the standard says. -/
theorem digest_eq_standardDigest (message : Bytes) :
    digest message = standardDigest message := by
  have hdvd := Nat.div_mul_cancel
    (Nat.dvd_of_mod_eq_zero (length_append_padding message))
  unfold digest standardDigest pieces
  dsimp only
  rw [standardPadded_eq, foldl_piecesWithin hdvd.symm (Nat.le_refl _)]

end AuditTrail.Sha256
