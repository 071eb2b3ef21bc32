/-
Where the hashes of a text are.

# One family, one length

No text begins with hashes of two families (`family_unique`): the second
and third characters tell them apart. So the hash found at a place is the
longest one of any family there (`hashAt?_eq_some_iff`).

# The spans

The hashes of a text are found on the walk that replaces them. Each stands
in front of those of the text behind it, which move on as a whole
(`hashSpansFrom_append`, `hashSpansFrom_cons`), so what is true of the spans
(`AreHashes`) and of the text with those spans filled in (`fill`) is shown
along the walk.

# Lines

No hash has a line feed, so what a text begins with does not depend on what
follows its line, and the lines of a text are redacted one by one
(`redactContent_lines`).
-/
import AuditTrail.Proofs.Redaction.Backtracking
import AuditTrail.Proofs.Redaction.HashFree

namespace AuditTrail.Redaction

open scoped Computability

variable {f g : HashFamily} {s t w : Text} {c : Char} {n : Nat}

-- ========================================================== one family only

/-- How the hashes of a family go on after the first dollar sign. -/
def BeginsWith : HashFamily → Char → Char → Prop
  | .bcrypt, d, e => d = '2' ∧ isVersion e = true
  | .pbkdf2, d, e =>
      Text.isDigit d = true ∧ (Text.isDigit e = true ∨ e = '$')
  | .argon2, d, _ => d = 'a'

theorem exists_of_mem_language (h : w ∈ f.language) :
    ∃ d e t, w = '$' :: d :: e :: t ∧ BeginsWith f d e := by
  cases f with
  | bcrypt =>
      obtain ⟨v, t, hv, rfl, -, -⟩ := mem_bcrypt.mp h
      exact ⟨'2', v, _, rfl, rfl, hv⟩
  | pbkdf2 =>
      have hseq : w ∈ sequence _ := h
      simp only [sequence_cons, Language.mem_mul] at hseq
      obtain ⟨-, rfl, -, ⟨u, hu, -, ⟨-, rfl, v, -, rfl⟩, rfl⟩, rfl⟩ := hseq
      -- the first number has one digit or more
      obtain ⟨d, ds, rfl, hd, hds⟩ := mem_oneOrMore_oneOf.mp hu
      cases ds with
      | nil => exact ⟨d, '$', v, rfl, hd, .inr rfl⟩
      | cons e ds =>
          exact ⟨d, e, _, rfl, hd, .inl (hds e List.mem_cons_self)⟩
  | argon2 =>
      have hseq : w ∈ sequence _ := h
      rw [sequence_cons] at hseq
      obtain ⟨u, rfl⟩ := exists_append_of_literal_mul hseq
      exact ⟨'a', 'r', _, rfl, rfl⟩

theorem BeginsWith.unique {d e : Char} (hf : BeginsWith f d e)
    (hg : BeginsWith g d e) : f = g := by
  have hversion : ∀ e, isVersion e = true →
      ¬ (Text.isDigit e = true ∨ e = '$') := by
    intro e he
    have hcases : (e = 'a' ∨ e = 'y') ∨ e = 'b' := by
      simpa [isVersion] using he
    rcases hcases with (rfl | rfl) | rfl
    all_goals decide
  cases f with
  | bcrypt =>
      cases g with
      | bcrypt => rfl
      | pbkdf2 => exact absurd hg.2 (hversion e hf.2)
      | argon2 => exact absurd (hf.1.symm.trans hg) (by decide)
  | pbkdf2 =>
      cases g with
      | bcrypt => exact absurd hf.2 (hversion e hg.2)
      | pbkdf2 => rfl
      | argon2 =>
          obtain rfl : d = 'a' := hg
          exact absurd hf.1 (by decide)
  | argon2 =>
      cases g with
      | bcrypt => exact absurd (hg.1.symm.trans hf) (by decide)
      | pbkdf2 =>
          obtain rfl : d = 'a' := hf
          exact absurd hg.1 (by decide)
      | argon2 => rfl

/-- No text begins with hashes of two families. -/
theorem family_unique {w' : Text} (hw : w ∈ f.language) (hws : w <+: s)
    (hw' : w' ∈ g.language) (hws' : w' <+: s) : f = g := by
  obtain ⟨d, e, u, rfl, hf⟩ := exists_of_mem_language hw
  obtain ⟨d', e', u', rfl, hg⟩ := exists_of_mem_language hw'
  obtain ⟨r, rfl⟩ := hws
  simp only [List.cons_append, List.cons_prefix_cons] at hws'
  obtain ⟨-, rfl, rfl, -⟩ := hws'
  exact hf.unique hg

/-- What is found is the longest hash of any family. -/
theorem hashAt?_eq_some_iff :
    hashAt? s = some (f, n)
      ↔ (∃ w ∈ f.language, w <+: s ∧ w.length = n)
        ∧ ∀ g : HashFamily, ∀ w ∈ g.language, w <+: s → w.length ≤ n := by
  constructor
  · intro h
    obtain ⟨⟨w, hw, hws, hlen⟩, hmax⟩ :=
      hashLength?_eq_some_iff.mp (hashLength?_of_hashAt? h)
    refine ⟨⟨w, hw, hws, hlen⟩, fun g w' hw' hws' => ?_⟩
    obtain rfl := family_unique hw hws hw' hws'
    exact hmax w' hw' hws'
  · rintro ⟨⟨w, hw, hws, rfl⟩, hmax⟩
    cases hat : hashAt? s with
    | none => exact absurd hws (hashAt?_eq_none_iff.mp hat f w hw)
    | some found =>
        obtain ⟨g, m⟩ := found
        obtain ⟨⟨w', hw', hws', rfl⟩, hmax'⟩ :=
          hashLength?_eq_some_iff.mp (hashLength?_of_hashAt? hat)
        obtain rfl := family_unique hw hws hw' hws'
        rw [Nat.le_antisymm (hmax f w' hw' hws') (hmax' w hw hws)]

-- ================================================================ the spans

namespace HashSpan

/-- The text of a span. -/
def within (x : HashSpan) (s : Text) : Text := (s.drop x.start).take x.length

/-- The place where a span ends. -/
def finish (x : HashSpan) : Nat := x.start + x.length

end HashSpan

/-- Spans are the hashes of a text that begin at some place or after it, all
of them and nothing else. -/
structure AreHashes (pos : Nat) (s : Text) (spans : List HashSpan) : Prop where
  /-- Each begins at the place or after it. -/
  after : ∀ x ∈ spans, pos ≤ x.start
  /-- Each ends before the next one begins. -/
  increasing : spans.Pairwise fun x y => x.finish ≤ y.start
  /-- Each lies in the text. -/
  inside : ∀ x ∈ spans, x.finish ≤ s.length
  /-- The text of each is a hash of its family and of no other one. -/
  family : ∀ x ∈ spans, ∀ f : HashFamily,
    x.within s ∈ f.language ↔ f = x.family
  /-- No hash of any family that begins where a span begins is longer. -/
  longest : ∀ x ∈ spans, ∀ f : HashFamily, ∀ w ∈ f.language,
    w <+: s.drop x.start → w.length ≤ x.length
  /-- Wherever a hash begins there is a span, which begins there or
  before. -/
  complete : ∀ p, pos ≤ p → ∀ f : HashFamily, ∀ w ∈ f.language,
    w <+: s.drop p → ∃ x ∈ spans, x.start ≤ p ∧ p < x.finish

/-- The text from a place on with a placeholder for each span. -/
def fill (s : Text) : Nat → List HashSpan → Text
  | pos, [] => s.drop pos
  | pos, x :: rest =>
      (s.drop pos).take (x.start - pos) ++ hashPlaceholder
        ++ fill s x.finish rest

section Walk

variable {pos : Nat} {spans : List HashSpan}

/-- At the end of the text there are no hashes any more. -/
theorem areHashes_nil (h : s.drop pos = []) : AreHashes pos s [] where
  after := fun _ hx => absurd hx List.not_mem_nil
  increasing := .nil
  inside := fun _ hx => absurd hx List.not_mem_nil
  family := fun _ hx => absurd hx List.not_mem_nil
  longest := fun _ hx => absurd hx List.not_mem_nil
  complete := by
    intro p hp f w hw hws
    obtain ⟨t, rfl⟩ := exists_dollar_of_mem hw
    have hdrop : s.drop p = [] := by
      rw [List.drop_eq_nil_iff] at h ⊢
      exact Nat.le_trans h hp
    rw [hdrop] at hws
    exact absurd (List.prefix_nil.mp hws) (List.cons_ne_nil _ _)

/-- A hash that is found is the first span. -/
theorem AreHashes.hash (h : AreHashes (pos + w.length) s spans)
    (hs : s.drop pos = w ++ t) (hw : w ∈ f.language)
    (hat : hashAt? (w ++ t) = some (f, w.length)) :
    AreHashes pos s (⟨f, pos, w.length⟩ :: spans) where
  after := List.forall_mem_cons.mpr
    ⟨Nat.le_refl pos, fun x hx => Nat.le_of_add_right_le (h.after x hx)⟩
  increasing := .cons h.after h.increasing
  inside := by
    refine List.forall_mem_cons.mpr ⟨?_, h.inside⟩
    have hlen := congrArg List.length hs
    rw [List.length_drop, List.length_append] at hlen
    have hpos := length_of_mem_language hw
    show pos + w.length ≤ s.length
    omega
  family := by
    refine List.forall_mem_cons.mpr ⟨fun g => ?_, h.family⟩
    have hwithin : HashSpan.within ⟨f, pos, w.length⟩ s = w := by
      unfold HashSpan.within
      rw [hs]
      exact List.take_left
    rw [hwithin]
    constructor
    · exact fun hg => family_unique hg List.prefix_rfl hw List.prefix_rfl
    · rintro rfl
      exact hw
  longest := by
    refine List.forall_mem_cons.mpr ⟨?_, h.longest⟩
    show ∀ g : HashFamily, ∀ u ∈ g.language, u <+: s.drop pos → _
    rw [hs]
    exact (hashAt?_eq_some_iff.mp hat).2
  complete := by
    intro p hp g u hu hus
    by_cases hlt : p < pos + w.length
    · exact ⟨_, List.mem_cons_self, hp, hlt⟩
    · obtain ⟨x, hx, hxp⟩ := h.complete p (Nat.le_of_not_lt hlt) g u hu hus
      exact ⟨x, List.mem_cons_of_mem _ hx, hxp⟩

/-- Where no hash begins there is no span. -/
theorem AreHashes.kept (h : AreHashes (pos + 1) s spans)
    (hs : s.drop pos = c :: t) (hat : hashAt? (c :: t) = none) :
    AreHashes pos s spans where
  after := fun x hx => Nat.le_of_succ_le (h.after x hx)
  increasing := h.increasing
  inside := h.inside
  family := h.family
  longest := h.longest
  complete := by
    intro p hp f w hw hws
    rcases Nat.eq_or_lt_of_le hp with rfl | hlt
    · rw [hs] at hws
      exact absurd hws (hashAt?_eq_none_iff.mp hat f w hw)
    · exact h.complete p hlt f w hw hws

/-- Counting characters down is dropping them. -/
theorem hashSpansFrom_eq_drop (pos n : Nat) (s : Text) :
    hashSpansFrom pos n s = hashSpansFrom (pos + n) 0 (s.drop n) := by
  induction n generalizing pos s with
  | zero => rfl
  | succ n ih =>
      cases s with
      | nil => rfl
      | cons c s =>
          rw [hashSpansFrom, ih, List.drop_succ_cons, Nat.add_assoc,
            Nat.add_comm 1 n]

theorem hashSpansFrom_append (pos : Nat)
    (h : hashAt? (w ++ t) = some (f, w.length)) :
    hashSpansFrom pos 0 (w ++ t)
      = ⟨f, pos, w.length⟩ :: hashSpansFrom (pos + w.length) 0 t := by
  obtain ⟨w', hw', t', heq, hlen⟩ := exists_of_hashAt? h
  obtain ⟨rfl, rfl⟩ := List.append_inj heq hlen.symm
  obtain ⟨u, rfl⟩ := exists_dollar_of_mem hw'
  show hashSpansFrom pos 0 ('$' :: (u ++ t)) = _
  rw [List.cons_append] at h
  rw [hashSpansFrom, h]
  show _ :: hashSpansFrom (pos + 1) u.length (u ++ t) = _
  rw [hashSpansFrom_eq_drop, List.drop_left, List.length_cons, Nat.add_assoc,
    Nat.add_comm 1]

theorem hashSpansFrom_cons (pos : Nat) (h : hashAt? (c :: t) = none) :
    hashSpansFrom pos 0 (c :: t) = hashSpansFrom (pos + 1) 0 t := by
  rw [hashSpansFrom, h]

/-- A place behind the beginning of a rest. -/
theorem drop_add_of_drop_eq (h : s.drop pos = w ++ t) :
    s.drop (pos + w.length) = t := by
  rw [← List.drop_drop, h, List.drop_left]

/-- The spans found from a place on are the hashes of the text from there
on. -/
theorem areHashes_hashSpansFrom (hs : s.drop pos = t) :
    AreHashes pos s (hashSpansFrom pos 0 t) := by
  induction t using walk generalizing pos with
  | nil => exact areHashes_nil hs
  | hash f w t hw hat ih =>
      rw [hashSpansFrom_append pos hat]
      exact (ih (drop_add_of_drop_eq hs)).hash hs hw hat
  | kept c t hat ih =>
      rw [hashSpansFrom_cons pos hat]
      exact (ih (drop_add_of_drop_eq (w := [c]) hs)).kept hs hat

/-- A character before the first span is kept. -/
theorem fill_kept (hs : s.drop pos = c :: t)
    (hspans : ∀ x ∈ spans, pos + 1 ≤ x.start) :
    fill s pos spans = c :: fill s (pos + 1) spans := by
  have hrest : s.drop (pos + 1) = t := drop_add_of_drop_eq (w := [c]) hs
  cases spans with
  | nil => rw [fill, fill, hs, hrest]
  | cons x spans =>
      obtain ⟨n, hn⟩ := Nat.exists_eq_add_of_le
        (hspans x List.mem_cons_self)
      have hleft : x.start - pos = n + 1 := by omega
      have hright : x.start - (pos + 1) = n := by omega
      rw [fill, fill, hs, hrest, hleft, hright]
      rfl

/-- Redaction puts a placeholder in the place of each span. -/
theorem fill_hashSpansFrom (hs : s.drop pos = t) :
    fill s pos (hashSpansFrom pos 0 t) = replaceHashes t := by
  induction t using walk generalizing pos with
  | nil => exact hs
  | hash f w t hw hat ih =>
      rw [hashSpansFrom_append pos hat, replaceHashes_append hat,
        ← ih (drop_add_of_drop_eq hs), fill, Nat.sub_self]
      rfl
  | kept c t hat ih =>
      have hrest : s.drop (pos + 1) = t := drop_add_of_drop_eq (w := [c]) hs
      rw [hashSpansFrom_cons pos hat, replaceHashes_cons hat,
        fill_kept hs (areHashes_hashSpansFrom hrest).after, ih hrest]

end Walk

/-- The hashes of a text, told exactly. The spans found are those of the
hashes of all families, each the longest where it begins, and no hash begins
outside them; what is found at a place is what backtracking through the
patterns finds there. Redacting the content of the users document puts a
placeholder in the place of each span and keeps all else; the content of any
other document is kept as a whole. -/
theorem hashSpans_exact (s : Text) :
    AreHashes 0 s (hashSpans s)
      ∧ (∀ t, hashAt? t = matchAt? t)
      ∧ redactContent (some usersDocument) s = fill s 0 (hashSpans s)
      ∧ ∀ document, document ≠ some usersDocument →
        redactContent document s = s := by
  refine ⟨areHashes_hashSpansFrom rfl, fun t => (matchAt?_eq t).symm, ?_,
    fun _ hdocument => if_neg hdocument⟩
  rw [redactContent, if_pos rfl]
  exact (fill_hashSpansFrom (List.drop_zero)).symm

-- ==================================================================== lines

/-- A word without a line feed ends before the line does. -/
theorem isPrefix_append_newline_iff (hw : '\n' ∉ w) :
    w <+: s ++ '\n' :: t ↔ w <+: s := by
  constructor
  · intro h
    rcases Nat.lt_or_ge s.length w.length with hlt | hle
    · -- a longer word would go on with the line feed
      have hline : s ++ ['\n'] <+: s ++ '\n' :: t := ⟨t, by simp⟩
      have hbefore : s ++ ['\n'] <+: w :=
        List.prefix_of_prefix_length_le hline h (by simp; omega)
      exact absurd (hbefore.subset (by simp)) hw
    · exact List.prefix_of_prefix_length_le h (List.prefix_append s _) hle
  · exact fun h => h.trans (List.prefix_append s _)

/-- What is found does not depend on what follows the line. -/
theorem hashAt?_append_newline (s t : Text) :
    hashAt? (s ++ '\n' :: t) = hashAt? s :=
  hashAt?_congr fun _ _ hw =>
    isPrefix_append_newline_iff (newline_notMem_of_mem hw)

/-- The lines of a text are redacted one by one. -/
theorem replaceHashes_append_newline (s t : Text) :
    replaceHashes (s ++ '\n' :: t)
      = replaceHashes s ++ '\n' :: replaceHashes t := by
  induction s using walk with
  | nil => exact replaceHashes_cons (hashAt?_cons_of_ne (by decide))
  | hash f w s hw hat ih =>
      have hfound : hashAt? (w ++ (s ++ '\n' :: t)) = some (f, w.length) := by
        rw [← List.append_assoc, hashAt?_append_newline, hat]
      rw [List.append_assoc, replaceHashes_append hfound, ih,
        replaceHashes_append hat, List.append_assoc]
  | kept c s hat ih =>
      have hnone : hashAt? (c :: (s ++ '\n' :: t)) = none :=
        (hashAt?_append_newline (c :: s) t).trans hat
      rw [List.cons_append, replaceHashes_cons hnone, ih,
        replaceHashes_cons hat, List.cons_append]

/-- A line feed keeps what is before it and what is behind it apart: a hash
that the one begins is not completed by the other, and none is
overlooked. -/
theorem redactContent_lines (s t : Text) :
    redactContent (some usersDocument) (s ++ '\n' :: t)
      = redactContent (some usersDocument) s
        ++ '\n' :: redactContent (some usersDocument) t := by
  simp only [redactContent, if_true]
  exact replaceHashes_append_newline s t

end AuditTrail.Redaction
