/-
What wildcard patterns match.

`Fits` says what it is for a text to match the parts of a pattern: it can be
cut into consecutive pieces, one for each part. The matcher never tries two
cuts. It takes each chunk of one-character tests at the earliest place that
is left, and this loses nothing, since an earlier place leaves a longer rest
(`findChunk_complete`) and a longer rest is covered by whatever stands after
a star if a shorter one is (`Spread.of_isSuffix`). So the matcher finds a cut
exactly if there is one (`coversParts_iff`). In a pattern without brackets
each character is a part of its own, and `Matches` tells the cut by the
characters of the pattern (`covers_iff`); letters may count as alike whatever
their case (`covers_map_toLower_iff`).
-/
import AuditTrail.Text.Glob
import Mathlib.Data.List.Forall2
import Mathlib.Data.List.Infix

namespace AuditTrail.Glob

variable {ps : List Part} {chunk : List Single} {more : List (List Single)}
  {s t rest rest' pattern name : Text} {c d : Char}

-- ================================================================= cuts

/-- A text is cut into one piece for each part of a pattern: a star takes
any piece, a test a character that passes it. -/
inductive Fits : List Part → Text → Prop
  | nil : Fits [] []
  | star (piece : Text) {ps : List Part} {s : Text} (hs : Fits ps s) :
      Fits (.star :: ps) (piece ++ s)
  | single {t : Single} {c : Char} {ps : List Part} {s : Text}
      (hc : t.accepts c = true) (hs : Fits ps s) :
      Fits (.single t :: ps) (c :: s)

theorem fits_nil_iff : Fits [] s ↔ s = [] := by
  constructor
  · intro h
    cases h
    rfl
  · rintro rfl
    exact .nil

/-- A star leaves some end of the text to what follows. -/
theorem fits_star_iff : Fits (.star :: ps) s ↔ ∃ t, t <:+ s ∧ Fits ps t := by
  constructor
  · intro h
    cases h with
    | star piece hs => exact ⟨_, List.suffix_append piece _, hs⟩
  · rintro ⟨t, ⟨piece, rfl⟩, ht⟩
    exact .star piece ht

theorem fits_single_iff {a : Single} :
    Fits (.single a :: ps) s
      ↔ ∃ c t, s = c :: t ∧ a.accepts c = true ∧ Fits ps t := by
  constructor
  · intro h
    cases h with
    | single hc hs => exact ⟨_, _, rfl, hc, hs⟩
  · rintro ⟨c, t, rfl, hc, ht⟩
    exact .single hc ht

-- =============================================================== chunks

/-- A chunk takes one character for each of its tests. -/
theorem takeChunk_eq_some (h : takeChunk chunk s = some rest) :
    ∃ piece, s = piece ++ rest ∧ piece.length = chunk.length := by
  induction chunk generalizing s with
  | nil =>
      cases h
      exact ⟨[], rfl, rfl⟩
  | cons a chunk ih =>
      cases s with
      | nil => cases h
      | cons c s =>
          rw [takeChunk] at h
          split at h
          case isFalse => cases h
          case isTrue =>
            obtain ⟨piece, rfl, hlength⟩ := ih h
            exact ⟨c :: piece, rfl, congrArg (· + 1) hlength⟩

theorem length_of_takeChunk (h : takeChunk chunk s = some rest) :
    s.length = chunk.length + rest.length := by
  obtain ⟨piece, rfl, hlength⟩ := takeChunk_eq_some h
  rw [List.length_append, hlength]

theorem isSuffix_of_takeChunk (h : takeChunk chunk s = some rest) :
    rest <:+ s := by
  obtain ⟨piece, rfl, -⟩ := takeChunk_eq_some h
  exact List.suffix_append piece rest

/-- Of two places of a chunk the earlier one leaves the longer rest. -/
theorem isSuffix_of_isSuffix (ht : t <:+ s)
    (hs : takeChunk chunk s = some rest)
    (htake : takeChunk chunk t = some rest') : rest' <:+ rest := by
  refine List.suffix_of_suffix_length_le
    ((isSuffix_of_takeChunk htake).trans ht) (isSuffix_of_takeChunk hs) ?_
  have hlength := ht.length_le
  rw [length_of_takeChunk hs, length_of_takeChunk htake] at hlength
  exact Nat.le_of_add_le_add_left hlength

/-- Where a chunk is found, it stands. -/
theorem findChunk_sound (h : findChunk chunk s = some rest) :
    ∃ t, t <:+ s ∧ takeChunk chunk t = some rest := by
  induction s with
  | nil => exact ⟨[], List.suffix_refl [], h⟩
  | cons c s ih =>
      rw [findChunk] at h
      split at h
      case h_1 found hfound =>
        cases h
        exact ⟨c :: s, List.suffix_refl _, hfound⟩
      case h_2 =>
        obtain ⟨t, ht, htake⟩ := ih h
        exact ⟨t, ht.trans (List.suffix_cons c s), htake⟩

/-- A chunk that stands anywhere is found, and what is left after it holds
what is left after any other place of it. -/
theorem findChunk_complete (ht : t <:+ s)
    (htake : takeChunk chunk t = some rest') :
    ∃ rest, findChunk chunk s = some rest ∧ rest' <:+ rest := by
  induction s with
  | nil =>
      rw [List.suffix_nil.mp ht] at htake
      exact ⟨rest', htake, List.suffix_refl _⟩
  | cons c s ih =>
      rw [findChunk]
      cases hhere : takeChunk chunk (c :: s) with
      | some rest => exact ⟨rest, rfl, isSuffix_of_isSuffix ht hhere htake⟩
      | none =>
          rcases List.suffix_cons_iff.mp ht with rfl | ht
          · rw [hhere] at htake
            cases htake
          · exact ih ht

/-- A chunk at the end of a text stands somewhere with nothing left. -/
theorem endsWithChunk_iff :
    endsWithChunk chunk s = true
      ↔ ∃ t, t <:+ s ∧ takeChunk chunk t = some [] := by
  unfold endsWithChunk
  rw [Bool.and_eq_true, decide_eq_true_eq]
  constructor
  · rintro ⟨hle, hsome⟩
    obtain ⟨rest, hrest⟩ := Option.isSome_iff_exists.mp hsome
    -- as many characters are left as there are tests, so all are taken
    have hlength := length_of_takeChunk hrest
    rw [List.length_drop, Nat.sub_sub_self hle] at hlength
    obtain rfl := List.length_eq_zero_iff.mp
      (Nat.left_eq_add.mp hlength)
    exact ⟨_, List.drop_suffix (s.length - chunk.length) s, hrest⟩
  · rintro ⟨t, ht, htake⟩
    have hlength : t.length = chunk.length := length_of_takeChunk htake
    have hdrop := List.suffix_iff_eq_drop.mp ht
    rw [hlength] at hdrop
    exact ⟨hlength ▸ ht.length_le, by rw [← hdrop, htake]; rfl⟩

-- ================================================= chunks after stars

/-- Chunks stand in a text one after the other, with any space in front of
each and none after the last. -/
def Spread : List (List Single) → Text → Prop
  | [], s => s = []
  | chunk :: more, s =>
      ∃ t rest, t <:+ s ∧ takeChunk chunk t = some rest ∧ Spread more rest

/-- More space in front does no harm. -/
theorem Spread.of_isSuffix (h : Spread (chunk :: more) t) (ht : t <:+ s) :
    Spread (chunk :: more) s := by
  obtain ⟨u, rest, hu, htake, hrest⟩ := h
  exact ⟨u, rest, hu.trans ht, htake, hrest⟩

/-- Taking each chunk at the earliest place finds places for all of them if
there are any. The induction is on the chunks; the last one is taken at the
end. -/
theorem coversAfterStar_iff (chunks : List (List Single)) (s : Text) :
    coversAfterStar chunks s = true ↔ Spread chunks s := by
  induction chunks generalizing s with
  | nil => exact List.isEmpty_iff
  | cons chunk more ih =>
      cases more with
      | nil =>
          rw [coversAfterStar, endsWithChunk_iff]
          constructor
          · rintro ⟨t, ht, htake⟩
            exact ⟨t, [], ht, htake, rfl⟩
          · rintro ⟨t, rest, ht, htake, rfl⟩
            exact ⟨t, ht, htake⟩
      | cons next more =>
          rw [coversAfterStar.eq_3 _ _ _ (List.cons_ne_nil next more)]
          constructor
          · intro h
            split at h
            case h_1 rest hfound =>
              obtain ⟨t, ht, htake⟩ := findChunk_sound hfound
              exact ⟨t, rest, ht, htake, (ih rest).mp h⟩
            case h_2 => cases h
          · rintro ⟨t, rest', ht, htake, hspread⟩
            obtain ⟨rest, hfound, hrest⟩ := findChunk_complete ht htake
            rw [hfound]
            exact (ih rest).mpr (hspread.of_isSuffix hrest)

/-- The chunks of a pattern stand in a text, the first at its beginning and
the others wherever there is space for them. -/
def Laid : List (List Single) → Text → Prop
  | [], s => s = []
  | first :: more, s => ∃ rest, takeChunk first s = some rest ∧ Spread more rest

theorem chunks_ne_nil (ps : List Part) : chunks ps ≠ [] := by
  cases ps with
  | nil => exact List.cons_ne_nil _ _
  | cons p ps =>
      cases p with
      | star => exact List.cons_ne_nil _ _
      | single t =>
          rw [chunks]
          split
          · exact List.cons_ne_nil _ _
          · exact List.cons_ne_nil _ _

/-- A text fits a pattern if its chunks stand in it. -/
theorem fits_iff_laid (ps : List Part) (s : Text) :
    Fits ps s ↔ Laid (chunks ps) s := by
  induction ps generalizing s with
  | nil =>
      rw [fits_nil_iff]
      constructor
      · rintro rfl
        exact ⟨[], rfl, rfl⟩
      · rintro ⟨rest, htake, rfl⟩
        exact Option.some.inj htake
  | cons p ps ih =>
      obtain ⟨first, more, hchunks⟩ :=
        List.exists_cons_of_ne_nil (chunks_ne_nil ps)
      rw [hchunks] at ih
      cases p with
      | star =>
          rw [fits_star_iff, chunks, hchunks]
          constructor
          · rintro ⟨t, ht, hfits⟩
            obtain ⟨rest, htake, hspread⟩ := (ih t).mp hfits
            exact ⟨s, rfl, t, rest, ht, htake, hspread⟩
          · rintro ⟨_, hs, t, rest, ht, htake, hspread⟩
            cases hs
            exact ⟨t, ht, (ih t).mpr ⟨rest, htake, hspread⟩⟩
      | single a =>
          rw [fits_single_iff, chunks, hchunks]
          constructor
          · rintro ⟨c, t, rfl, hc, hfits⟩
            obtain ⟨rest, htake, hspread⟩ := (ih t).mp hfits
            exact ⟨rest, by rw [takeChunk, if_pos hc, htake], hspread⟩
          · rintro ⟨rest, htake, hspread⟩
            cases s with
            | nil => cases htake
            | cons c t =>
                rw [takeChunk] at htake
                split at htake
                case isFalse => cases htake
                case isTrue hc =>
                  exact ⟨c, t, rfl, hc, (ih t).mpr ⟨rest, htake, hspread⟩⟩

/-- The matcher decides whether a text can be cut into pieces for the parts
of a pattern. -/
theorem coversParts_iff (ps : List Part) (name : Text) :
    coversParts ps name = true ↔ Fits ps name := by
  rw [fits_iff_laid]
  unfold coversParts
  split
  case h_1 hchunks => exact absurd hchunks (chunks_ne_nil ps)
  case h_2 only hchunks =>
    rw [hchunks, beq_iff_eq]
    constructor
    · intro htake
      exact ⟨[], htake, rfl⟩
    · rintro ⟨rest, htake, rfl⟩
      exact htake
  case h_3 first more _ hchunks =>
    rw [hchunks]
    split
    case h_1 rest htake =>
      rw [coversAfterStar_iff]
      constructor
      · exact fun hspread => ⟨rest, htake, hspread⟩
      · rintro ⟨rest', htake', hspread⟩
        rw [htake] at htake'
        cases htake'
        exact hspread
    case h_2 htake =>
      constructor
      · exact fun h => absurd h Bool.false_ne_true
      · rintro ⟨rest, htake', -⟩
        rw [htake] at htake'
        cases htake'

-- ============================================ patterns without brackets

/-- What a character of a pattern takes of a name: a star any piece, a
question mark any one character, and any other character one that is like
it. -/
inductive Takes (alike : Char → Char → Prop) : Char → Text → Prop
  | star (piece : Text) : Takes alike '*' piece
  | any (d : Char) : Takes alike '?' [d]
  | itself {c d : Char} (hstar : c ≠ '*') (hany : c ≠ '?') (hd : alike c d) :
      Takes alike c [d]

/-- A name is cut into consecutive pieces, one for each character of a
pattern. -/
def Matches (alike : Char → Char → Prop) (pattern name : Text) : Prop :=
  ∃ pieces, List.Forall₂ (Takes alike) pattern pieces ∧ pieces.flatten = name

/-- The part that a character outside of brackets stands for. -/
def partOf (c : Char) : Part :=
  if c = '*' then .star
  else if c = '?' then .single .any
  else .single (.literal c)

theorem partsWithin_of_notMem {fuel : Nat} (hfuel : pattern.length ≤ fuel)
    (h : '[' ∉ pattern) : partsWithin fuel pattern = pattern.map partOf := by
  induction pattern generalizing fuel with
  | nil => cases fuel <;> rfl
  | cons c pattern ih =>
      rw [List.mem_cons, not_or] at h
      obtain ⟨fuel, rfl⟩ : ∃ n, fuel = n + 1 :=
        Nat.exists_eq_add_one_of_ne_zero (Nat.ne_of_gt
          (Nat.lt_of_lt_of_le (Nat.succ_pos _) hfuel))
      have hrest := ih (Nat.le_of_succ_le_succ hfuel) h.2
      rw [List.map_cons, partOf, ← hrest]
      by_cases hstar : c = '*'
      · subst hstar
        rfl
      by_cases hany : c = '?'
      · subst hany
        rfl
      rw [if_neg hstar, if_neg hany, partsWithin.eq_6 _ _ _ hstar hany
        (Ne.symm h.1)]

theorem parts_of_notMem (h : '[' ∉ pattern) :
    parts pattern = pattern.map partOf :=
  partsWithin_of_notMem (Nat.le_refl _) h

/-- A part fits what the character that stands for it takes. -/
theorem fits_partOf_iff :
    Fits (partOf c :: ps) s
      ↔ ∃ piece t, Takes Eq c piece ∧ s = piece ++ t ∧ Fits ps t := by
  unfold partOf
  split
  case isTrue hstar =>
    subst hstar
    rw [fits_star_iff]
    constructor
    · rintro ⟨t, ⟨piece, rfl⟩, ht⟩
      exact ⟨piece, t, .star piece, rfl, ht⟩
    · rintro ⟨piece, t, -, rfl, ht⟩
      exact ⟨t, List.suffix_append piece t, ht⟩
  case isFalse hstar =>
    split
    case isTrue hany =>
      subst hany
      rw [fits_single_iff]
      constructor
      · rintro ⟨d, t, rfl, -, ht⟩
        exact ⟨[d], t, .any d, rfl, ht⟩
      · rintro ⟨piece, t, htakes, rfl, ht⟩
        cases htakes with
        | any d => exact ⟨d, t, rfl, rfl, ht⟩
        | itself _ hany => exact absurd rfl hany
    case isFalse hany =>
      rw [fits_single_iff]
      constructor
      · rintro ⟨d, t, rfl, hd, ht⟩
        exact ⟨[d], t, .itself hstar hany (beq_iff_eq.mp hd), rfl, ht⟩
      · rintro ⟨piece, t, htakes, rfl, ht⟩
        cases htakes with
        | star => exact absurd rfl hstar
        | any => exact absurd rfl hany
        | itself _ _ hd => exact ⟨_, t, rfl, beq_iff_eq.mpr hd, ht⟩

theorem fits_map_partOf_iff :
    Fits (pattern.map partOf) name ↔ Matches Eq pattern name := by
  induction pattern generalizing name with
  | nil =>
      rw [List.map_nil, fits_nil_iff]
      constructor
      · rintro rfl
        exact ⟨[], .nil, rfl⟩
      · rintro ⟨pieces, hpieces, rfl⟩
        cases hpieces
        rfl
  | cons c pattern ih =>
      rw [List.map_cons, fits_partOf_iff]
      constructor
      · rintro ⟨piece, t, htakes, rfl, ht⟩
        obtain ⟨pieces, hpieces, rfl⟩ := ih.mp ht
        exact ⟨piece :: pieces, .cons htakes hpieces, rfl⟩
      · rintro ⟨pieces, hpieces, rfl⟩
        cases hpieces with
        | cons htakes hpieces =>
            exact ⟨_, _, htakes, rfl, ih.mpr ⟨_, hpieces, rfl⟩⟩

/-- A pattern without brackets covers the names that can be cut along it. -/
theorem covers_iff (h : '[' ∉ pattern) :
    covers pattern name = true ↔ Matches Eq pattern name := by
  rw [covers, coversParts_iff, parts_of_notMem h, fits_map_partOf_iff]

-- ========================================================== letter case

/-- Two characters differ in letter case at most. -/
def AlikeInCase (c d : Char) : Prop := c.toLower = d.toLower

/-- Lower case turns no letter into a character that is no letter. -/
theorem toLower_eq_iff (hd : ¬ ((65 ≤ d.toNat ∧ d.toNat ≤ 90)
    ∨ (97 ≤ d.toNat ∧ d.toNat ≤ 122))) : c.toLower = d ↔ c = d := by
  unfold Char.toLower
  split
  case isFalse => rfl
  case isTrue hc =>
    have hc : 65 ≤ c.toNat ∧ c.toNat ≤ 90 := by
      simpa [UInt32.le_iff_toNat_le, ← Char.toNat_val] using hc
    have hlowered : (c.val + ('a'.val - 'A'.val)).toNat = c.toNat + 32 := by
      rw [UInt32.toNat_add]
      exact Nat.mod_eq_of_lt (Nat.lt_of_le_of_lt
        (Nat.add_le_add_right hc.2 32) (by decide))
    constructor
    · rintro rfl
      rw [← Char.toNat_val, hlowered] at hd
      exact absurd (by omega) hd
    · rintro rfl
      exact absurd (.inl hc) hd

/-- Neither stars nor question marks come or go with letter case. -/
theorem takes_toLower_iff {piece : Text} :
    Takes Eq c.toLower (piece.map Char.toLower)
      ↔ Takes AlikeInCase c piece := by
  have hstar : c.toLower = '*' ↔ c = '*' := toLower_eq_iff (by decide)
  have hany : c.toLower = '?' ↔ c = '?' := toLower_eq_iff (by decide)
  constructor
  · intro h
    generalize hc' : c.toLower = c', hp' : piece.map Char.toLower = piece' at h
    cases h with
    | star =>
        rw [hstar.mp hc']
        exact .star piece
    | any =>
        obtain ⟨d, rfl, -⟩ := List.map_eq_singleton_iff.mp hp'
        rw [hany.mp hc']
        exact .any d
    | itself hne hne' hd =>
        obtain ⟨d, rfl, rfl⟩ := List.map_eq_singleton_iff.mp hp'
        subst hc'
        exact .itself (mt hstar.mpr hne) (mt hany.mpr hne') hd
  · intro h
    cases h with
    | star => exact .star _
    | any d => exact .any _
    | itself hne hne' hd =>
        exact .itself (mt hstar.mp hne) (mt hany.mp hne') hd

/-- A name in lower case is cut along a pattern in lower case where the name
is cut along the pattern with its letters taken as alike in case. -/
theorem matches_map_toLower_iff :
    Matches Eq (pattern.map Char.toLower) (name.map Char.toLower)
      ↔ Matches AlikeInCase pattern name := by
  constructor
  · rintro ⟨lowered, hpieces, hname⟩
    induction pattern generalizing lowered name with
    | nil =>
        cases hpieces
        exact ⟨[], .nil, (List.map_eq_nil_iff.mp hname.symm).symm⟩
    | cons c pattern ih =>
        cases hpieces with
        | cons htakes hpieces =>
            obtain ⟨piece, rest, rfl, rfl, hrest⟩ :=
              List.map_eq_append_iff.mp hname.symm
            obtain ⟨pieces, hpieces, rfl⟩ := ih _ hpieces hrest.symm
            exact ⟨piece :: pieces,
              .cons (takes_toLower_iff.mp htakes) hpieces, rfl⟩
  · rintro ⟨pieces, hpieces, rfl⟩
    refine ⟨pieces.map (List.map Char.toLower), ?_, List.map_flatten.symm⟩
    rw [List.forall₂_map_left_iff, List.forall₂_map_right_iff]
    exact hpieces.imp fun _ _ => takes_toLower_iff.mpr

/-- A pattern without brackets covers, with letters brought to lower case on
both sides, the names that can be cut along it whatever their letter case. -/
theorem covers_map_toLower_iff (h : '[' ∉ pattern) :
    covers (pattern.map Char.toLower) (name.map Char.toLower) = true
      ↔ Matches AlikeInCase pattern name := by
  have hlowered : '[' ∉ pattern.map Char.toLower := by
    rintro hmem
    obtain ⟨c, hc, hbracket⟩ := List.mem_map.mp hmem
    exact h ((toLower_eq_iff (by decide)).mp hbracket ▸ hc)
  rw [covers_iff hlowered, matches_map_toLower_iff]

end AuditTrail.Glob
