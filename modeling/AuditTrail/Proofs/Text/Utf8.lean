/-
A text is read back from its octets.

The octets of one character tell the character and how many they are,
whatever octets follow (`first_encodeChar`): one case for each of the four
lengths. A text is its characters one after the other, so its octets hold no
flaw and decode to it (`decode_encode`).
-/
import AuditTrail.Text.Utf8

namespace AuditTrail.Utf8

variable {n : Nat} {rest : Bytes}

-- =============================================================== octets

theorem toNat_octet (hn : n < 0x100) : (UInt8.ofNat n).toNat = n :=
  UInt8.toNat_ofNat_of_lt' hn

/-- The octet that continues a character holds six of its bits. -/
theorem tail_octet (n : Nat) :
    isTail (UInt8.ofNat (0x80 + n % 0x40)) = true
      ∧ tailBits (UInt8.ofNat (0x80 + n % 0x40)) = n % 0x40 := by
  have hoctet : (UInt8.ofNat (0x80 + n % 0x40)).toNat = 0x80 + n % 0x40 :=
    toNat_octet (by omega)
  unfold isTail tailBits
  rw [hoctet]
  exact ⟨decide_eq_true (by omega), by omega⟩

/-- Three octets are never read as a shorter form, nor as half a
character. -/
theorem second_of_three (hlow : 0x800 ≤ n) (hhigh : n < 0x10000)
    (hhalf : n < 0xD800 ∨ 0xE000 ≤ n) :
    isSecondOfThree (UInt8.ofNat (0xE0 + n / 0x1000))
      (UInt8.ofNat (0x80 + n / 0x40 % 0x40)) = true := by
  unfold isSecondOfThree
  rw [(tail_octet _).1, toNat_octet (show 0xE0 + n / 0x1000 < 0x100 by omega),
    toNat_octet (show 0x80 + n / 0x40 % 0x40 < 0x100 by omega)]
  simp only [Bool.true_and, Bool.and_eq_true, Bool.or_eq_true, bne_iff_ne,
    decide_eq_true_eq]
  omega

/-- Four octets are never read as a shorter form, nor as a number above the
last character. -/
theorem second_of_four (hlow : 0x10000 ≤ n) (hhigh : n < 0x110000) :
    isSecondOfFour (UInt8.ofNat (0xF0 + n / 0x40000))
      (UInt8.ofNat (0x80 + n / 0x1000 % 0x40)) = true := by
  unfold isSecondOfFour
  rw [(tail_octet _).1, toNat_octet (show 0xF0 + n / 0x40000 < 0x100 by omega),
    toNat_octet (show 0x80 + n / 0x1000 % 0x40 < 0x100 by omega)]
  simp only [Bool.true_and, Bool.and_eq_true, Bool.or_eq_true, bne_iff_ne,
    decide_eq_true_eq]
  omega

-- ============================================================== lengths

theorem first_of_one (hn : n < 0x80) :
    first (UInt8.ofNat n :: rest) = .ok (Char.ofNat n, 1) := by
  have ha : (UInt8.ofNat n).toNat = n := toNat_octet (by omega)
  unfold first
  simp only [ha]
  rw [if_pos hn]

theorem first_of_two (hlow : 0x80 ≤ n) (hhigh : n < 0x800) :
    first (UInt8.ofNat (0xC0 + n / 0x40) :: UInt8.ofNat (0x80 + n % 0x40)
        :: rest)
      = .ok (Char.ofNat n, 2) := by
  have ha : (UInt8.ofNat (0xC0 + n / 0x40)).toNat = 0xC0 + n / 0x40 :=
    toNat_octet (by omega)
  obtain ⟨hb, hbits⟩ := tail_octet n
  rw [first]
  simp only [ha, hb, hbits]
  rw [if_neg (by omega), if_neg (by omega), if_pos (by omega), if_pos trivial,
    show (0xC0 + n / 0x40 - 0xC0) * 0x40 + n % 0x40 = n by omega]

theorem first_of_three (hlow : 0x800 ≤ n) (hhigh : n < 0x10000)
    (hhalf : n < 0xD800 ∨ 0xE000 ≤ n) :
    first (UInt8.ofNat (0xE0 + n / 0x1000)
        :: UInt8.ofNat (0x80 + n / 0x40 % 0x40)
        :: UInt8.ofNat (0x80 + n % 0x40) :: rest)
      = .ok (Char.ofNat n, 3) := by
  have ha : (UInt8.ofNat (0xE0 + n / 0x1000)).toNat = 0xE0 + n / 0x1000 :=
    toNat_octet (by omega)
  have hb := second_of_three hlow hhigh hhalf
  obtain ⟨-, hbBits⟩ := tail_octet (n / 0x40)
  obtain ⟨hc, hcBits⟩ := tail_octet n
  rw [first]
  simp only [ha, hb, hbBits, hc, hcBits, Bool.not_true]
  rw [if_neg (by omega), if_neg (by omega), if_neg (by omega),
    if_pos (by omega), if_neg Bool.false_ne_true, if_neg Bool.false_ne_true,
    show (0xE0 + n / 0x1000 - 0xE0) * 0x1000 + n / 0x40 % 0x40 * 0x40
      + n % 0x40 = n by omega]

theorem first_of_four (hlow : 0x10000 ≤ n) (hhigh : n < 0x110000) :
    first (UInt8.ofNat (0xF0 + n / 0x40000)
        :: UInt8.ofNat (0x80 + n / 0x1000 % 0x40)
        :: UInt8.ofNat (0x80 + n / 0x40 % 0x40)
        :: UInt8.ofNat (0x80 + n % 0x40) :: rest)
      = .ok (Char.ofNat n, 4) := by
  have ha : (UInt8.ofNat (0xF0 + n / 0x40000)).toNat = 0xF0 + n / 0x40000 :=
    toNat_octet (by omega)
  have hb := second_of_four hlow hhigh
  obtain ⟨-, hbBits⟩ := tail_octet (n / 0x1000)
  obtain ⟨hc, hcBits⟩ := tail_octet (n / 0x40)
  obtain ⟨hd, hdBits⟩ := tail_octet n
  rw [first]
  simp only [ha, hb, hbBits, hc, hcBits, hd, hdBits, Bool.not_true]
  rw [if_neg (by omega), if_neg (by omega), if_neg (by omega),
    if_neg (by omega), if_pos (by omega), if_neg Bool.false_ne_true,
    if_neg Bool.false_ne_true, if_neg Bool.false_ne_true,
    show (0xF0 + n / 0x40000 - 0xF0) * 0x40000 + n / 0x1000 % 0x40 * 0x1000
      + n / 0x40 % 0x40 * 0x40 + n % 0x40 = n by omega]

-- ================================================================ texts

theorem encodeChar_ne_nil (c : Char) : encodeChar c ≠ [] := by
  unfold encodeChar
  dsimp only
  repeat' split
  all_goals exact List.cons_ne_nil _ _

/-- The octets of a character are read as that character. -/
theorem first_encodeChar (c : Char) (rest : Bytes) :
    first (encodeChar c ++ rest) = .ok (c, (encodeChar c).length) := by
  have hrange : c.toNat < 0xD800 ∨ 0xDFFF < c.toNat ∧ c.toNat < 0x110000 :=
    c.valid
  have hchar : Char.ofNat c.toNat = c := Char.ofNat_toNat c
  unfold encodeChar
  dsimp only
  split
  case isTrue hone => exact (first_of_one hone).trans (by rw [hchar]; rfl)
  case isFalse hone =>
    split
    case isTrue htwo =>
      exact (first_of_two (by omega) htwo).trans (by rw [hchar]; rfl)
    case isFalse htwo =>
      split
      case isTrue hthree =>
        refine (first_of_three (by omega) hthree (by omega)).trans ?_
        rw [hchar]
        rfl
      case isFalse hthree =>
        refine (first_of_four (by omega) (by omega)).trans ?_
        rw [hchar]
        rfl

/-- Octets that belong to the character read last are passed over. -/
theorem decodeFrom_append (pos : Nat) (taken : Bytes) :
    decodeFrom pos taken.length (taken ++ rest)
      = decodeFrom (pos + taken.length) 0 rest := by
  induction taken generalizing pos with
  | nil => rfl
  | cons b taken ih =>
      rw [List.length_cons, List.cons_append, decodeFrom, ih]
      congr 1
      omega

theorem decodeFrom_encode (pos : Nat) (s : Text) :
    decodeFrom pos 0 (encode s) = .ok s := by
  induction s generalizing pos with
  | nil => rfl
  | cons c s ih =>
      have hfirst := first_encodeChar c (encode s)
      show decodeFrom pos 0 (encodeChar c ++ encode s) = _
      obtain ⟨a, taken, hoctets⟩ :=
        List.exists_cons_of_ne_nil (encodeChar_ne_nil c)
      rw [hoctets, List.cons_append] at hfirst ⊢
      rw [decodeFrom, hfirst]
      show (decodeFrom (pos + 1) taken.length (taken ++ encode s)).map _ = _
      rw [decodeFrom_append, ih]
      rfl

/-- A text is read back from its octets. -/
theorem decode_encode (s : Text) : decode (encode s) = .ok s :=
  decodeFrom_encode 0 s

-- ======================================================= halves of pairs

/-- No character of a text stands for half a pair. -/
def Halves.Absent (halves : Halves) (s : Text) : Prop :=
  ∀ p ∈ s.zipIdx, halves.at? p.2 p.1 = Option.none

theorem encodeErrorFrom?_eq_none_iff {halves : Halves} {i : Nat} :
    encodeErrorFrom? halves i s = none
      ↔ ∀ p ∈ s.zipIdx i, halves.at? p.2 p.1 = none := by
  induction s generalizing i with
  | nil => exact iff_of_true rfl fun p hp => absurd hp List.not_mem_nil
  | cons c s ih =>
      rw [encodeErrorFrom?, List.zipIdx_cons, List.forall_mem_cons]
      dsimp only
      cases halves.at? i c with
      | none => exact ih.trans (and_iff_right rfl).symm
      | some half => exact ⟨nofun, fun h => nomatch h.1⟩

/-- A text has octets exactly if it holds no half. -/
theorem encodeError?_eq_none_iff {halves : Halves} :
    encodeError? halves s = none ↔ halves.Absent s :=
  encodeErrorFrom?_eq_none_iff

theorem Halves.absent_none (s : Text) : Halves.none.Absent s :=
  fun _ _ => ite_self _

end AuditTrail.Utf8
