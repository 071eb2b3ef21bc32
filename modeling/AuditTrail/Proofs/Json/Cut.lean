/-
JSON text that is cut in two.

Whatever the reader takes from the beginning of a text it takes from every
longer one, as long as what follows goes on no number and no word
(`Foreign`): more steps do no harm, and what was left is left with the rest
behind it (`GoesOn`). So if a text and what it was cut from are both read to
the end, nothing but space was cut off. In front of a character that stands
in strings only, no beginning of JSON text is JSON text itself
(`read_cut`).
-/
import AuditTrail.Proofs.Json.Parts
import AuditTrail.Proofs.Text.Pieces
import AuditTrail.Text.Blank

namespace AuditTrail.Json

variable {α : Type} {s t u rest : Text} {c : Char} {fuel levels : Nat}

-- ================================================== foreign characters

/-- The characters that the parts of JSON text are made of, other than space
and what stands in strings. -/
def partCharacters : Text := '\x22' :: ':' :: (marks ++ scalarCharacters)

/-- A character that stands in strings only. -/
structure Foreign (c : Char) : Prop where
  space : isSpace c = false
  part : c ∉ partCharacters

/-- White space that does not separate the parts of JSON text. -/
theorem foreign_of_isBlank (hc : Text.isBlank c = true)
    (hspace : isSpace c = false) : Foreign c := by
  have hparts : partCharacters.any Text.isBlank = false := by decide
  exact ⟨hspace, fun hmem => List.any_eq_false.mp hparts c hmem hc⟩

namespace Foreign

theorem ne (hc : Foreign c) {d : Char} (hd : d ∈ partCharacters) : c ≠ d := by
  rintro rfl
  exact hc.part hd

theorem isAsciiDigit_eq (hc : Foreign c) : Text.isAsciiDigit c = false := by
  have hdigits : ∀ n < 0x3A, 0x30 ≤ n → Char.ofNat n ∈ partCharacters := by
    decide
  refine decide_eq_false fun h => hc.part ?_
  have hmem := hdigits c.toNat (by omega) h.1
  rwa [Char.ofNat_toNat] at hmem

/-- A text that begins with another character still does. -/
theorem ne_cons_append (hc : Foreign c) {d : Char} (hd : d ∈ partCharacters)
    (hs : ∀ rest, s ≠ d :: rest) : ∀ rest, s ++ c :: t ≠ d :: rest := by
  intro rest heq
  cases s with
  | nil => exact hc.ne hd (List.cons.inj heq).1
  | cons a s => exact hs s (by rw [(List.cons.inj heq).1])

theorem notMem_word (hc : Foreign c) {word : Text} (hword : word ∈ words) :
    c ∉ word := fun hmem => hc.part <|
  .tail _ (.tail _ (List.mem_append_right _ (List.mem_append_left _
    (List.mem_flatten.mpr ⟨word, hword, hmem⟩))))

end Foreign

-- ============================================== reading a longer text

/-- Where a reading succeeds, another one does, and leaves more behind. -/
def GoesOn (t : Text) (x y : Reading α) : Prop :=
  ∀ a rest, x = .ok (a, rest) → y = .ok (a, rest ++ t)

theorem goesOn_error {e : Stop} {y : Reading α} : GoesOn t (.error e) y :=
  fun _ _ h => nomatch h

theorem goesOn_ok {a : α} : GoesOn t (.ok (a, s)) (.ok (a, s ++ t)) := by
  rintro b rest h
  cases h
  rfl

/-- A string ends at its quote, whatever follows. -/
theorem goesOn_readString (opened opened' : Text) (half : Option Nat)
    (acc s t : Text) :
    GoesOn t (readString opened half acc s)
      (readString opened' half acc (s ++ t)) := by
  fun_induction readString opened half acc s with
  | case1
  | case3
  | case5
  | case6
  | case8
  | case9 => exact goesOn_error
  | case2 half acc rest => exact goesOn_ok
  | case4 half acc a b c d n head tail hnumber ih =>
      have hnext : readString opened' half acc
          ('\\' :: 'u' :: a :: b :: c :: d :: head :: (tail ++ t)) = _ :=
        readString.eq_4 _ _ _ _ _ _ _ _ _ _ hnumber
      rw [List.cons_append] at ih
      simp only [List.cons_append]
      rw [hnext]
      exact ih
  | case7 half acc c rest _ hletter x hx ih =>
      have hnext := readString.eq_7 opened' half acc c (rest ++ t)
        (fun _ _ _ _ _ h => absurd h hletter) hletter
      rw [hx] at hnext
      rw [List.cons_append, List.cons_append, hnext]
      exact ih
  | case10 half acc c rest hquote hend _ _ hescape hlow ih =>
      -- a backslash stands in front of something
      have hbackslash : c ≠ '\\' := by
        intro hc
        cases rest with
        | nil => exact hend hc rfl
        | cons d rest => exact hescape d rest hc rfl
      have hnext := readString.eq_8 opened' half acc c (rest ++ t) hquote
        (fun h => absurd h hbackslash) (fun _ _ _ _ _ h => absurd h hbackslash)
        (fun _ h => absurd h hbackslash) (fun _ _ h => absurd h hbackslash)
      rw [if_neg hlow] at hnext
      rw [List.cons_append, hnext]
      exact ih

section Scalars

variable (hc : Foreign c)

include hc

/-- A run of digits ends where it ended. -/
theorem spanDigits_foreign (s t : Text) :
    spanDigits (s ++ c :: t)
      = ((spanDigits s).1, (spanDigits s).2 ++ c :: t) := by
  unfold spanDigits
  induction s with
  | nil =>
      rw [List.nil_append, List.takeWhile_cons, List.dropWhile_cons,
        hc.isAsciiDigit_eq]
      rfl
  | cons d s ih =>
      obtain ⟨htake, hdrop⟩ := Prod.ext_iff.mp ih
      rw [List.cons_append]
      simp only [List.takeWhile_cons, List.dropWhile_cons]
      cases Text.isAsciiDigit d with
      | false => rfl
      | true => exact Prod.ext (congrArg (d :: ·) htake) hdrop

theorem readWhole?_foreign (s t : Text) :
    readWhole? (s ++ c :: t)
      = (readWhole? s).map fun r => (r.1, r.2 ++ c :: t) := by
  have hspan := spanDigits_foreign hc s t
  have hdigits : ∀ u, (∀ rest, u ≠ '0' :: rest) → readWhole? u
      = if (spanDigits u).1.isEmpty then none else some (spanDigits u) := by
    intro u hu
    rw [readWhole?.eq_2 u hu]
  by_cases hzero : ∃ rest, s = '0' :: rest
  · obtain ⟨rest, rfl⟩ := hzero
    rfl
  · have hs : ∀ rest, s ≠ '0' :: rest := fun rest h => hzero ⟨rest, h⟩
    rw [hdigits _ (hc.ne_cons_append (by decide) hs), hdigits _ hs, hspan]
    split <;> rfl

theorem readFraction_foreign (s t : Text) :
    readFraction (s ++ c :: t)
      = ((readFraction s).1, (readFraction s).2 ++ c :: t) := by
  by_cases hpoint : ∃ rest, s = '.' :: rest
  · obtain ⟨rest, rfl⟩ := hpoint
    rw [List.cons_append, readFraction, readFraction,
      spanDigits_foreign hc rest t]
    dsimp only
    split <;> rfl
  · have hs : ∀ rest, s ≠ '.' :: rest := fun rest h => hpoint ⟨rest, h⟩
    rw [readFraction.eq_2 _ hs,
      readFraction.eq_2 _ (hc.ne_cons_append (by decide) hs)]

theorem splitSign_foreign (s t : Text) :
    Numeral.splitSign (s ++ c :: t)
      = ((Numeral.splitSign s).1, (Numeral.splitSign s).2 ++ c :: t) := by
  by_cases hminus : ∃ rest, s = '-' :: rest
  · obtain ⟨rest, rfl⟩ := hminus
    rfl
  by_cases hplus : ∃ rest, s = '+' :: rest
  · obtain ⟨rest, rfl⟩ := hplus
    rfl
  · have hs : ∀ rest, s ≠ '-' :: rest := fun rest h => hminus ⟨rest, h⟩
    have hs' : ∀ rest, s ≠ '+' :: rest := fun rest h => hplus ⟨rest, h⟩
    rw [Numeral.splitSign.eq_3 _ hs hs',
      Numeral.splitSign.eq_3 _ (hc.ne_cons_append (by decide) hs)
        (hc.ne_cons_append (by decide) hs')]

theorem readExponent_foreign (s t : Text) :
    readExponent (s ++ c :: t)
      = ((readExponent s).1, (readExponent s).2 ++ c :: t) := by
  cases s with
  | nil =>
      have hletter : ¬ (c = 'e' ∨ c = 'E') := by
        rintro (h | h)
        · exact hc.ne (by decide) h
        · exact hc.ne (by decide) h
      rw [List.nil_append, readExponent, if_neg hletter]
      rfl
  | cons d s =>
      rw [List.cons_append, readExponent, readExponent]
      split
      case isFalse => rfl
      case isTrue =>
        rw [splitSign_foreign hc s t]
        dsimp only
        rw [spanDigits_foreign hc _ t]
        dsimp only
        split <;> rfl

theorem goesOn_readNumber (start start' : Text) (negative : Bool)
    (s t : Text) :
    GoesOn (c :: t) (readNumber start negative s)
      (readNumber start' negative (s ++ c :: t)) := by
  unfold readNumber
  rw [readWhole?_foreign hc s t]
  cases readWhole? s with
  | none => exact goesOn_error
  | some r =>
      obtain ⟨whole, rest⟩ := r
      rw [Option.map_some]
      dsimp only
      rw [readFraction_foreign hc rest t]
      dsimp only
      rw [readExponent_foreign hc _ t]
      dsimp only
      split
      case h_1 =>
        split
        · exact goesOn_error
        · exact goesOn_ok
      case h_2 => exact goesOn_ok

omit hc in
theorem after?_foreign {word : Text} (hword : c ∉ word) (s t : Text) :
    Text.after? word (s ++ c :: t)
      = (Text.after? word s).map (· ++ c :: t) := by
  induction word generalizing s with
  | nil => rfl
  | cons a word ih =>
      rw [List.mem_cons, not_or] at hword
      cases s with
      | nil => exact if_neg fun h => hword.1 h.symm
      | cons d s =>
          rw [List.cons_append, Text.after?, Text.after?, ih hword.2]
          split <;> rfl

theorem goesOn_readScalar (s t : Text) :
    GoesOn (c :: t) (readScalar s) (readScalar (s ++ c :: t)) := by
  by_cases hfound : ∃ word ∈ words, ∃ r, Text.after? word s = some r
  · obtain ⟨word, hword, r, hr⟩ := hfound
    rw [Text.after?_eq_some_iff.mp hr, List.append_assoc]
    simp only [words, List.mem_cons, List.not_mem_nil, or_false] at hword
    rcases hword with rfl | rfl | rfl | rfl | rfl | rfl
    all_goals exact goesOn_ok
  have hnone : ∀ word ∈ words, Text.after? word s = none := fun word hword =>
    Option.eq_none_iff_forall_ne_some.mpr fun r hr =>
      hfound ⟨word, hword, r, hr⟩
  have hnone' : ∀ word ∈ words, Text.after? word (s ++ c :: t) = none := by
    intro word hword
    rw [after?_foreign (hc.notMem_word hword), hnone word hword]
    rfl
  obtain ⟨hnegative, hpositive⟩ := readScalar_of_no_word hnone
  obtain ⟨hnegative', hpositive'⟩ := readScalar_of_no_word hnone'
  by_cases hminus : ∃ rest, s = '-' :: rest
  · obtain ⟨rest, rfl⟩ := hminus
    rw [hnegative rest rfl, hnegative' (rest ++ c :: t) rfl]
    exact goesOn_readNumber hc _ _ _ _ _
  · have hs : ∀ rest, s ≠ '-' :: rest := fun rest h => hminus ⟨rest, h⟩
    rw [hpositive hs, hpositive' (hc.ne_cons_append (by decide) hs)]
    exact goesOn_readNumber hc _ _ _ _ _

/-- Space is skipped up to where it was skipped, or up to the end and no
further. -/
theorem skipSpace_foreign (s t : Text) :
    skipSpace (s ++ c :: t) = skipSpace s ++ c :: t := by
  unfold skipSpace
  induction s with
  | nil => exact List.dropWhile_cons_of_neg (by rw [hc.space]; decide)
  | cons d s ih =>
      rw [List.cons_append, List.dropWhile_cons, List.dropWhile_cons, ih]
      split <;> rfl

end Scalars

-- =========================================================== containers

/-- The rules of the reader with so many steps to go: with as many or more,
they go on where something foreign follows. -/
structure ReadsOn (c : Char) (t : Text) (fuel : Nat) : Prop where
  value (levels : Nat) (s : Text) (fuel' : Nat) (hfuel : fuel ≤ fuel') :
    GoesOn (c :: t) (readValue fuel levels s)
      (readValue fuel' levels (s ++ c :: t))
  items (levels : Nat) (acc : List Value) (s : Text) (fuel' : Nat)
    (hfuel : fuel ≤ fuel') :
    GoesOn (c :: t) (readItems fuel levels acc s)
      (readItems fuel' levels acc (s ++ c :: t))
  members (levels : Nat) (acc : Value.Entries) (s : Text) (fuel' : Nat)
    (hfuel : fuel ≤ fuel') :
    GoesOn (c :: t) (readMembers fuel levels acc s)
      (readMembers fuel' levels acc (s ++ c :: t))

section Steps

variable (hc : Foreign c) (ih : ReadsOn c t fuel) {fuel' : Nat}
  (hfuel : fuel ≤ fuel')

include hc ih hfuel

theorem ReadsOn.readValue_succ (levels : Nat) (s : Text) :
    GoesOn (c :: t) (readValue (fuel + 1) levels s)
      (readValue (fuel' + 1) levels (s ++ c :: t)) := by
  rw [readValue.eq_def]
  dsimp only
  split
  case h_1 rest =>
    rw [List.cons_append, readValue]
    cases hread : readString ('\x22' :: rest) none [] rest with
    | error e => exact goesOn_error
    | ok r =>
        rw [goesOn_readString _ _ _ _ _ (c :: t) _ _ hread]
        exact goesOn_ok
  case h_2 rest =>
    cases levels with
    | zero => exact goesOn_error
    | succ levels =>
        rw [List.cons_append, readValue, skipSpace_foreign hc]
        dsimp only
        split
        case h_1 u hu =>
          rw [hu]
          exact goesOn_ok
        case h_2 hne =>
          split
          case h_1 u hu => exact absurd hu (hc.ne_cons_append (by decide) hne u)
          case h_2 => exact ih.items _ _ _ _ hfuel
  case h_3 rest =>
    cases levels with
    | zero => exact goesOn_error
    | succ levels =>
        rw [List.cons_append, readValue, skipSpace_foreign hc]
        dsimp only
        split
        case h_1 u hu =>
          rw [hu]
          exact goesOn_ok
        case h_2 hne =>
          split
          case h_1 u hu => exact absurd hu (hc.ne_cons_append (by decide) hne u)
          case h_2 => exact ih.members _ _ _ _ hfuel
  case h_4 hquote hbracket hbrace =>
    rw [readValue.eq_7 _ _ _ (hc.ne_cons_append (by decide) hquote)
      (hc.ne_cons_append (by decide) hbracket)
      (hc.ne_cons_append (by decide) hbrace)]
    exact goesOn_readScalar hc s t

theorem ReadsOn.readItems_succ (levels : Nat) (acc : List Value) (s : Text) :
    GoesOn (c :: t) (readItems (fuel + 1) levels acc s)
      (readItems (fuel' + 1) levels acc (s ++ c :: t)) := by
  rw [readItems, readItems]
  cases hread : readValue fuel levels s with
  | error e => exact goesOn_error
  | ok r =>
      obtain ⟨v, rest⟩ := r
      rw [ih.value levels s fuel' hfuel v rest hread]
      dsimp only
      rw [skipSpace_foreign hc]
      split
      case h_1 u hu =>
        rw [hu]
        exact goesOn_ok
      case h_2 u hu =>
        simp only [hu, List.cons_append, skipSpace_foreign hc]
        exact ih.items _ _ _ _ hfuel
      case h_3 => exact goesOn_error

theorem ReadsOn.readMembers_succ (levels : Nat) (acc : Value.Entries)
    (s : Text) :
    GoesOn (c :: t) (readMembers (fuel + 1) levels acc s)
      (readMembers (fuel' + 1) levels acc (s ++ c :: t)) := by
  rw [readMembers.eq_def]
  dsimp only
  split
  case h_2 => exact goesOn_error
  case h_1 rest =>
    rw [List.cons_append, readMembers]
    cases hname : readString ('\x22' :: rest) none [] rest with
    | error e => exact goesOn_error
    | ok r =>
        obtain ⟨name, rest'⟩ := r
        rw [goesOn_readString _ _ _ _ _ (c :: t) _ _ hname]
        dsimp only
        rw [skipSpace_foreign hc]
        split
        case h_2 => exact goesOn_error
        case h_1 u hu =>
          simp only [hu, List.cons_append, skipSpace_foreign hc]
          cases hread : readValue fuel levels (skipSpace u) with
          | error e => exact goesOn_error
          | ok r =>
              obtain ⟨v, rest''⟩ := r
              rw [ih.value levels _ fuel' hfuel v rest'' hread]
              dsimp only
              rw [skipSpace_foreign hc]
              split
              case h_1 w hw =>
                rw [hw]
                exact goesOn_ok
              case h_2 w hw =>
                simp only [hw, List.cons_append, skipSpace_foreign hc]
                exact ih.members _ _ _ _ hfuel
              case h_3 => exact goesOn_error

end Steps

theorem readsOn (hc : Foreign c) (t : Text) (fuel : Nat) :
    ReadsOn c t fuel := by
  induction fuel with
  | zero =>
      exact ⟨fun _ _ _ _ => goesOn_error, fun _ _ _ _ _ => goesOn_error,
        fun _ _ _ _ _ => goesOn_error⟩
  | succ fuel ih =>
      refine ⟨fun levels s fuel' hfuel => ?_, fun levels acc s fuel' hfuel => ?_,
        fun levels acc s fuel' hfuel => ?_⟩
      all_goals
        obtain ⟨fuel', rfl⟩ := Nat.exists_eq_add_one_of_ne_zero
          (show fuel' ≠ 0 by omega)
        have hle := Nat.le_of_succ_le_succ hfuel
      · exact ih.readValue_succ hc hle levels s
      · exact ih.readItems_succ hc hle levels acc s
      · exact ih.readMembers_succ hc hle levels acc s

-- ================================================================= cuts

variable {v : Value}

/-- No value begins with such a character, or with nothing. -/
theorem readValue_foreign (hs : ∀ c t, s = c :: t → Foreign c) :
    ∀ r, readValue fuel levels s ≠ .ok r := by
  intro r hread
  cases fuel with
  | zero => cases hread
  | succ fuel =>
      cases s with
      | nil => cases hread
      | cons c t =>
          have hc := hs c t rfl
          have hne : ∀ d ∈ partCharacters, ∀ u, c :: t ≠ d :: u :=
            fun d hd u h => hc.ne hd (List.cons.inj h).1
          have hword : ∀ word ∈ words, Text.after? word (c :: t) = none := by
            intro word hmem
            have hafter := after?_foreign (hc.notMem_word hmem) [] t
            rw [List.nil_append] at hafter
            rw [hafter]
            simp only [words, List.mem_cons, List.not_mem_nil, or_false] at hmem
            rcases hmem with rfl | rfl | rfl | rfl | rfl | rfl
            all_goals rfl
          have hnumber : readWhole? (c :: t) = none :=
            readWhole?_foreign hc [] t
          rw [readValue.eq_7 _ _ _ (hne _ (by decide)) (hne _ (by decide))
            (hne _ (by decide)),
            (readScalar_of_no_word hword).2 (hne _ (by decide))] at hread
          unfold readNumber at hread
          rw [hnumber] at hread
          cases hread

/-- What is left of white space begins with no space, so it is foreign. -/
theorem foreign_of_isAllBlank (hblank : Text.isAllBlank s = true) :
    ∀ c t, skipSpace s = c :: t → Foreign c := by
  intro c t hskip
  have hdrop : s.dropWhile isSpace = c :: t := hskip
  have hmem : c ∈ s := (List.dropWhile_sublist isSpace).subset
    (hdrop ▸ List.mem_cons_self)
  have hspace : isSpace c = false := by
    have hhead := List.head_dropWhile_not isSpace
      (hdrop ▸ List.cons_ne_nil c t)
    simpa only [hdrop, List.head_cons] using hhead
  exact foreign_of_isBlank (List.all_eq_true.mp hblank c hmem) hspace

/-- Text that can be read is not blank. -/
theorem not_isAllBlank_of_read (hread : read s = .ok v) :
    Text.isAllBlank s = false := by
  refine Bool.eq_false_iff.mpr fun hblank => ?_
  obtain ⟨rest, hvalue, -⟩ := exists_of_read hread
  exact readValue_foreign (foreign_of_isAllBlank hblank) _ hvalue

/-- Nor is it up to such a character. -/
theorem not_isAllBlank_of_read_append (hc : Foreign c)
    (hread : read (s ++ c :: t) = .ok v) : Text.isAllBlank s = false := by
  refine Bool.eq_false_iff.mpr fun hblank => ?_
  obtain ⟨rest, hvalue, -⟩ := exists_of_read hread
  rw [skipSpace_foreign hc] at hvalue
  refine readValue_foreign (fun d u hd => ?_) _ hvalue
  cases hs : skipSpace s with
  | nil =>
      rw [hs] at hd
      cases hd
      exact hc
  | cons a w =>
      rw [hs] at hd
      cases hd
      exact foreign_of_isAllBlank hblank _ _ hs

/-- No beginning of JSON text that is cut in front of such a character is
JSON text itself. -/
theorem read_cut (hc : Foreign c) (hread : read (s ++ c :: t) = .ok v) :
    ∃ e, read s = .error e := by
  cases hs : read s with
  | error e => exact ⟨e, rfl⟩
  | ok w =>
      obtain ⟨rest, hvalue, -⟩ := exists_of_read hs
      obtain ⟨rest', hvalue', hend⟩ := exists_of_read hread
      have hlength : 2 * s.length + 2 ≤ 2 * (s ++ c :: t).length + 2 := by
        rw [List.length_append]
        omega
      have hon := (readsOn hc t _).value _ _ _ hlength _ _ hvalue
      rw [skipSpace_foreign hc, hon] at hvalue'
      cases hvalue'
      rw [skipSpace_foreign hc] at hend
      exact absurd hend (List.append_ne_nil_of_right_ne_nil _
        (List.cons_ne_nil _ _))

end AuditTrail.Json
