/-
Integers in JSON text.

A number is read up to what cannot continue it (`Follows`), and an integer
is read back from its digits. The reader's digits are those of the library
(`digitsValue?_of_isDigit`), and only zero begins with a zero, so that none
is too many (`isWhole_ofNat`).
-/
import AuditTrail.Json.Reader
import AuditTrail.Json.Writer
import Mathlib.Data.List.TakeWhile

namespace AuditTrail.Json

variable {s t rest : Text} {c : Char}

-- ============================================================= integers

/-- What may follow a value: the end of the text or of its line, a comma or
a closing bracket. None of these continues a number. -/
def Follows (rest : Text) : Prop :=
  rest.head? ∈ [none, some ',', some ']', some '\x7d', some '\n']

theorem Follows.ends (h : Follows rest) :
    spanDigits rest = ([], rest) ∧ readFraction rest = (none, rest)
      ∧ readExponent rest = (none, rest) := by
  cases rest with
  | nil => exact ⟨rfl, rfl, rfl⟩
  | cons c rest =>
      simp only [Follows, List.head?_cons, List.mem_cons, List.not_mem_nil,
        reduceCtorEq, Option.some.injEq, false_or, or_false] at h
      rcases h with rfl | rfl | rfl | rfl
      all_goals exact ⟨rfl, rfl, rfl⟩

theorem isAsciiDigit_of_isDigit (h : c.isDigit = true) :
    Text.isAsciiDigit c = true := by
  simpa [Text.isAsciiDigit, Char.isDigit, UInt32.le_iff_toNat_le] using h

theorem digitIn?_of_isDigit (h : c.isDigit = true) :
    Numeral.digitIn? 10 c = some (c.toNat - '0'.toNat) := by
  have hrange : 0x30 ≤ c.toNat ∧ c.toNat ≤ 0x39 :=
    of_decide_eq_true (isAsciiDigit_of_isDigit h)
  have hvalue : Text.digitValue? c = some (c.toNat - 0x30) := by
    rw [Text.digitValue?, if_pos (by omega), if_pos hrange]
  rw [Numeral.digitIn?, hvalue]
  exact if_pos (by omega)

/-- The value of digits is that of the library. -/
theorem digitsValue?_of_isDigit (hs : ∀ c ∈ s, c.isDigit = true) :
    Numeral.digitsValue? 10 s = some (Nat.ofDigitChars 10 s 0) := by
  -- the reader's fold is that of the library as long as it meets digits
  have hfold : ∀ (s : Text) (m : Nat), (∀ c ∈ s, c.isDigit = true) →
      s.foldl (fun acc c => acc.bind fun n =>
        (Numeral.digitIn? 10 c).map (10 * n + ·)) (some m)
        = some (Nat.ofDigitChars 10 s m) := by
    intro s
    induction s with
    | nil => exact fun m _ => rfl
    | cons c s ih =>
        intro m hs
        obtain ⟨hc, hs⟩ := List.forall_mem_cons.mp hs
        rw [List.foldl_cons, Option.bind_some, digitIn?_of_isDigit hc]
        exact ih _ hs
  exact hfold s 0 hs

theorem isDigit_of_mem_ofNat {n : Nat} (hc : c ∈ Text.ofNat n) :
    c.isDigit = true :=
  Nat.isDigit_of_mem_toDigits (by decide) (by decide) hc

theorem digitsValue?_ofNat (n : Nat) :
    Numeral.digitsValue? 10 (Text.ofNat n) = some n :=
  (digitsValue?_of_isDigit fun _ hc => isDigit_of_mem_ofNat hc).trans
    (congrArg some (Nat.ofDigitChars_toDigits (by decide) (by decide)))

theorem digitIn?_lt {base d : Nat} (hd : Numeral.digitIn? base c = some d) :
    d < base := by
  obtain ⟨n, -, hn⟩ := Option.bind_eq_some_iff.mp hd
  split at hn
  case isTrue hlt =>
    cases hn
    exact hlt
  case isFalse => cases hn

theorem digitsValue?_lt {n : Nat} (hn : Numeral.digitsValue? 10 s = some n) :
    n < Nat.pow 10 s.length := by
  -- reading from the left, the digits so far bound the number so far
  have hfold : ∀ (s : Text) (m : Option Nat) (k : Nat),
      (∀ i, m = some i → i < Nat.pow 10 k) →
      s.foldl (fun acc c => acc.bind fun n =>
        (Numeral.digitIn? 10 c).map (10 * n + ·)) m = some n →
      n < Nat.pow 10 (k + s.length) := by
    intro s
    induction s with
    | nil => exact fun m k hm h => hm n h
    | cons c s ih =>
        intro m k hm h
        rw [List.length_cons, ← Nat.add_assoc, Nat.add_right_comm]
        refine ih _ (k + 1) (fun i hi => ?_) h
        obtain ⟨j, hj, hi⟩ := Option.bind_eq_some_iff.mp hi
        obtain ⟨d, hd, rfl⟩ := Option.map_eq_some_iff.mp hi
        have hlow := hm j hj
        have hdigit := digitIn?_lt hd
        rw [Nat.pow_eq] at hlow ⊢
        rw [Nat.pow_succ]
        omega
  have hlt := hfold s (some 0) 0 (fun i hi => ?_) hn
  · rwa [Nat.zero_add] at hlt
  · cases hi
    exact Nat.one_pos

theorem getD_digitsValue?_lt {k : Nat} (hs : s.length ≤ k) :
    (Numeral.digitsValue? 10 s).getD 0 < Nat.pow 10 k := by
  cases hn : Numeral.digitsValue? 10 s with
  | none => exact Nat.pow_pos (by decide)
  | some n =>
      exact (digitsValue?_lt hn).trans_le
        (Nat.pow_le_pow_right (by decide) hs)

/-- Only zero begins with a zero. -/
theorem exists_ofNat_eq_cons {n : Nat} (hn : 0 < n) :
    ∃ c t, Text.ofNat n = c :: t ∧ c ≠ '0' := by
  induction n using Nat.strongRecOn with
  | ind n ih =>
      by_cases hlt : n < 10
      · have hdigit : ∀ n < 10, 0 < n → Nat.digitChar n ≠ '0' := by decide
        exact ⟨_, [], Nat.toDigits_of_lt_base hlt, hdigit n hlt hn⟩
      · obtain ⟨c, t, ht, hc⟩ := ih (n / 10) (by omega) (by omega)
        refine ⟨c, t ++ [(n % 10).digitChar], ?_, hc⟩
        rw [Text.ofNat, Nat.toDigits_of_base_le (by decide) (by omega)]
        exact congrArg (· ++ _) ht

/-- Digits are read up to what is no digit. -/
theorem spanDigits_append (hs : ∀ c ∈ s, c.isDigit = true)
    (ht : spanDigits t = ([], t)) : spanDigits (s ++ t) = (s, t) := by
  have hdigits : ∀ c ∈ s, Text.isAsciiDigit c = true :=
    fun c hc => isAsciiDigit_of_isDigit (hs c hc)
  obtain ⟨htake, hdrop⟩ := Prod.ext_iff.mp ht
  rw [spanDigits, List.takeWhile_append_of_pos hdigits,
    List.dropWhile_append_of_pos hdigits]
  exact Prod.ext ((congrArg (s ++ ·) htake).trans (List.append_nil s)) hdrop

/-- A whole part is one zero alone, or begins with another digit. -/
def IsWhole (s : Text) : Prop := s = ['0'] ∨ ∃ c t, s = c :: t ∧ c ≠ '0'

theorem isWhole_ofNat (n : Nat) : IsWhole (Text.ofNat n) := by
  rcases Nat.eq_zero_or_pos n with rfl | hn
  · exact .inl rfl
  · exact .inr (exists_ofNat_eq_cons hn)

theorem readWhole?_append (hs : ∀ c ∈ s, c.isDigit = true) (hwhole : IsWhole s)
    (ht : spanDigits t = ([], t)) : readWhole? (s ++ t) = some (s, t) := by
  rcases hwhole with rfl | ⟨c, s', rfl, hc⟩
  · rfl
  · have hspan := spanDigits_append hs ht
    rw [List.cons_append] at hspan ⊢
    rw [readWhole?]
    · rw [hspan]
      rfl
    · exact fun _ h => absurd (List.cons.inj h).1 hc

theorem length_ofNat_le {n k : Nat} (hk : 0 < k) (hn : n < Nat.pow 10 k) :
    (Text.ofNat n).length ≤ k :=
  (Nat.length_toDigits_le_iff (by decide) hk).mpr hn

theorem readNumber_ofNat {start : Text} {negative : Bool} {n : Nat}
    (hn : n < Nat.pow 10 Numeral.digitLimit) (hrest : Follows rest) :
    readNumber start negative (Text.ofNat n ++ rest)
      = .ok (.int (if negative then -(n : Int) else n), rest) := by
  have hlength := length_ofNat_le (by decide : 0 < Numeral.digitLimit) hn
  obtain ⟨-, hfraction, hexponent⟩ := hrest.ends
  rw [readNumber, readWhole?_append (fun _ hc => isDigit_of_mem_ofNat hc)
    (isWhole_ofNat n) hrest.ends.1]
  dsimp only
  rw [hfraction]
  dsimp only
  rw [hexponent]
  dsimp only
  rw [if_neg (Nat.not_lt.mpr hlength), digitsValue?_ofNat]
  rfl

/-- The words that stand for values. -/
def words : List Text :=
  [['n', 'u', 'l', 'l'], ['t', 'r', 'u', 'e'], ['f', 'a', 'l', 's', 'e'],
    ['N', 'a', 'N'], ['I', 'n', 'f', 'i', 'n', 'i', 't', 'y'],
    ['-', 'I', 'n', 'f', 'i', 'n', 'i', 't', 'y']]

theorem readScalar_of_no_word (hs : ∀ word ∈ words, Text.after? word s = none) :
    (∀ rest, s = '-' :: rest → readScalar s = readNumber s true rest)
      ∧ ((∀ rest, s ≠ '-' :: rest) → readScalar s = readNumber s false s) := by
  simp only [words, List.forall_mem_cons] at hs
  obtain ⟨h1, h2, h3, h4, h5, h6, -⟩ := hs
  unfold readScalar
  rw [show Text.after? "null".toList s = none from h1,
    show Text.after? "true".toList s = none from h2,
    show Text.after? "false".toList s = none from h3,
    show Text.after? "NaN".toList s = none from h4,
    show Text.after? "Infinity".toList s = none from h5,
    show Text.after? "-Infinity".toList s = none from h6]
  constructor
  · rintro rest rfl
    rfl
  · intro hminus
    dsimp only
    split
    case h_1 => exact absurd rfl (hminus _)
    case h_2 => rfl

theorem ne_of_isDigit (hc : c.isDigit = true) :
    ∀ a : Char, a.isDigit = false → c ≠ a := by
  rintro a ha rfl
  rw [ha] at hc
  cases hc

/-- No word begins with a digit, also after a minus. -/
theorem readScalar_of_isDigit {t : Text} (hc : c.isDigit = true) :
    readScalar (c :: t) = readNumber (c :: t) false (c :: t)
      ∧ readScalar ('-' :: c :: t) = readNumber ('-' :: c :: t) true (c :: t) := by
  have hne : ∀ a : Char, a.isDigit = false → a ≠ c :=
    fun a ha => (ne_of_isDigit hc a ha).symm
  have hafter : ∀ {a b : Char} (w t : Text), a ≠ b →
      Text.after? (a :: w) (b :: t) = none := fun _ _ hab => if_neg hab
  have hdigit : ∀ word ∈ words, Text.after? word (c :: t) = none := by
    simp only [words, List.forall_mem_cons]
    exact ⟨hafter _ _ (hne _ rfl), hafter _ _ (hne _ rfl),
      hafter _ _ (hne _ rfl), hafter _ _ (hne _ rfl), hafter _ _ (hne _ rfl),
      hafter _ _ (hne _ rfl), fun _ h => absurd h List.not_mem_nil⟩
  have hminus : ∀ word ∈ words, Text.after? word ('-' :: c :: t) = none := by
    simp only [words, List.forall_mem_cons]
    exact ⟨rfl, rfl, rfl, rfl, rfl,
      (if_pos rfl).trans (hafter _ _ (hne 'I' rfl)),
      fun _ h => absurd h List.not_mem_nil⟩
  exact ⟨(readScalar_of_no_word hdigit).2 fun _ heq =>
      hne '-' rfl (List.cons.inj heq).1.symm,
    (readScalar_of_no_word hminus).1 _ rfl⟩

theorem exists_digit_ofNat (n : Nat) :
    ∃ c t, Text.ofNat n = c :: t ∧ c.isDigit = true := by
  obtain ⟨c, t, ht⟩ := List.exists_cons_of_ne_nil
    (Nat.toDigits_ne_nil (n := n) (b := 10))
  have hmem : c ∈ Text.ofNat n := by
    rw [Text.ofNat, ht]
    exact List.mem_cons_self
  exact ⟨c, t, ht, isDigit_of_mem_ofNat hmem⟩

theorem begins_of_isDigit (hc : c.isDigit = true) :
    isSpace c = false ∧ c ∉ [']', '\uFEFF', '\x22', '[', '\x7b'] := by
  have hne := ne_of_isDigit hc
  constructor
  · simp [isSpace, hne ' ' rfl, hne '\t' rfl, hne '\n' rfl, hne '\r' rfl]
  · simp [hne ']' rfl, hne '\uFEFF' rfl, hne '\x22' rfl, hne '[' rfl,
      hne '\x7b' rfl]

/-- An integer begins with a digit or a minus. -/
theorem begins_ofInt (n : Int) :
    ∃ c t, Text.ofInt n = c :: t ∧ isSpace c = false
      ∧ c ∉ [']', '\uFEFF', '\x22', '[', '\x7b'] := by
  unfold Text.ofInt
  split
  case isTrue => exact ⟨_, _, rfl, rfl, by decide⟩
  case isFalse =>
    obtain ⟨c, t, ht, hc⟩ := exists_digit_ofNat n.natAbs
    exact ⟨c, t, ht, begins_of_isDigit hc⟩

theorem readScalar_ofInt {n : Int}
    (hn : n.natAbs < Nat.pow 10 Numeral.digitLimit) (hrest : Follows rest) :
    readScalar (Text.ofInt n ++ rest) = .ok (.int n, rest) := by
  obtain ⟨c, t, ht, hc⟩ := exists_digit_ofNat n.natAbs
  obtain ⟨hpositive, hnegative⟩ := readScalar_of_isDigit (t := t ++ rest) hc
  have hread : ∀ start negative, readNumber start negative (c :: (t ++ rest))
      = .ok (.int (if negative then -(n.natAbs : Int) else n.natAbs), rest) := by
    intro start negative
    have hread : readNumber start negative (Text.ofNat n.natAbs ++ rest) = _ :=
      readNumber_ofNat hn hrest
    rw [ht] at hread
    exact hread
  unfold Text.ofInt
  split
  case isTrue hneg =>
    rw [ht]
    refine hnegative.trans ((hread _ true).trans ?_)
    rw [if_pos rfl, Int.ofNat_natAbs_of_nonpos (Int.le_of_lt hneg), Int.neg_neg]
  case isFalse hneg =>
    rw [ht]
    refine hpositive.trans ((hread _ false).trans ?_)
    rw [if_neg Bool.false_ne_true,
      Int.natAbs_of_nonneg (Int.not_lt.mp hneg)]

end AuditTrail.Json
