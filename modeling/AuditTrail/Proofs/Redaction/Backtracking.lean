/-
The patterns of the hash families, tried as a backtracking matcher tries
them.

# Patterns and what is tried

A `Pattern` is what stands between the parentheses of a group. `rests`
lists what is left of a text after each way to match it, in the order in
which the ways are tried: of two alternatives the first, and of a
repetition the longest. The ways taken together are the words of the
pattern's language (`mem_rests_iff`), and the language of each family's
pattern is the family's (`language_pattern`).

# The first way is the longest

A matcher stops at the first way that succeeds, which need not be the
longest. Here it is (`LongestFirst`): every part of a hash but the last is
closed by a character that cannot continue it, so at most one way to match
the part can be completed, and all that was tried before it comes to
nothing; the last part is a run and its padding, both taken greedily. So
backtracking finds what the scanner finds, which never goes back
(`matchAt?_eq`).
-/
import AuditTrail.Proofs.Redaction.Scan

namespace AuditTrail

open scoped Computability

namespace Redaction

-- ============================================================== patterns

/-- A pattern as it is written. -/
inductive Pattern where
  /-- A text as it stands. -/
  | text (t : Text)
  /-- One character of a class. -/
  | one (p : Char → Bool)
  /-- One pattern after the other. -/
  | both (a b : Pattern)
  /-- One of two patterns; the first is tried first. -/
  | either (a b : Pattern)
  /-- A pattern or nothing; the pattern is tried first. -/
  | perhaps (a : Pattern)
  /-- A pattern at least once; more often is tried first. -/
  | many (a : Pattern)

/-- What is left after a step taken any number of times, more often first;
the number bounds how often. -/
def again (step : Text → List Text) : Nat → Text → List Text
  | 0, s => [s]
  | n + 1, s => (step s).flatMap (again step n) ++ [s]

namespace Pattern

/-- What is left of a text after each way to match a pattern at its
beginning, in the order in which the ways are tried. -/
def rests : Pattern → Text → List Text
  | text t, s => (Text.after? t s).toList
  | one _, [] => []
  | one p, c :: s => if p c then [s] else []
  | both a b, s => (a.rests s).flatMap b.rests
  | either a b, s => a.rests s ++ b.rests s
  | perhaps a, s => a.rests s ++ [s]
  | many a, s => (a.rests s).flatMap (again a.rests s.length)

/-- The words of a pattern. -/
def language : Pattern → Language Char
  | text t => literal t
  | one p => oneOf p
  | both a b => a.language * b.language
  | either a b => a.language + b.language
  | perhaps a => optional a.language
  | many a => oneOrMore a.language

/-- Patterns one after the other. -/
def all : List Pattern → Pattern
  | [] => text []
  | [a] => a
  | a :: rest => both a (all rest)

/-- A pattern so many times. -/
def times : Nat → Pattern → Pattern
  | 0, _ => text []
  | n + 1, a => both a (times n a)

/-- A pattern at most so many times; more often is tried first. -/
def upTo : Nat → Pattern → Pattern
  | 0, _ => text []
  | n + 1, a => perhaps (both a (upTo n a))

/-- A run of decimal digits. -/
def number : Pattern := many (one Text.isDigit)

/-- A base64 run and its padding. -/
def base64 : Pattern :=
  both (many (one isBase64)) (upTo 2 (text ['=']))

/-- A parameter: its name, its value, perhaps a comma. -/
def parameter : Pattern :=
  all [one isSmall, text ['='], number, perhaps (text [','])]

end Pattern

end Redaction

open Redaction

/-- The pattern of a family. -/
def HashFamily.pattern : HashFamily → Pattern
  | .bcrypt =>
      .all [.text "$2".toList, .one isVersion, .text ['$'],
        .times 56 (.one (· != '\n'))]
  | .pbkdf2 =>
      .all [.text ['$'], .number, .text ['$'], .number, .text ['$'], .base64,
        .text ['$'], .base64]
  | .argon2 =>
      .all [.text "$argon2".toList,
        .either (.either (.text "id".toList) (.text ['i'])) (.text ['d']),
        .text "$v=".toList, .number, .text ['$'], .many .parameter,
        .text ['$'], .base64, .text ['$'], .base64]

namespace Redaction

variable {a b : Pattern} {f : HashFamily} {p : Char → Bool} {r s w : Text}

-- =========================================================== ways to match

/-- The ways to take a step again and again are the words of a
repetition. -/
theorem mem_again_iff {step : Text → List Text} {l : Language Char}
    (hstep : ∀ r s, r ∈ step s ↔ ∃ w ∈ l, s = w ++ r) {n : Nat}
    (hn : s.length ≤ n) : r ∈ again step n s ↔ ∃ w ∈ l∗, s = w ++ r := by
  constructor
  · intro h
    clear hn
    induction n generalizing s with
    | zero =>
        exact ⟨[], Language.nil_mem_kstar _, (List.mem_singleton.mp h).symm⟩
    | succ n ih =>
        rcases List.mem_append.mp h with h | h
        · obtain ⟨t, ht, hrest⟩ := List.mem_flatMap.mp h
          obtain ⟨u, hu, rfl⟩ := (hstep t s).mp ht
          obtain ⟨-, ⟨parts, rfl, hparts⟩, rfl⟩ := ih hrest
          refine ⟨(u :: parts).flatten, Language.join_mem_kstar ?_, by simp⟩
          exact List.forall_mem_cons.mpr ⟨hu, hparts⟩
        · exact ⟨[], Language.nil_mem_kstar _, (List.mem_singleton.mp h).symm⟩
  · -- parts that are empty can be left out, so the bound is never reached
    rintro ⟨w, hw, rfl⟩
    obtain ⟨parts, rfl, hparts⟩ :=
      Language.mem_kstar_iff_exists_nonempty.mp hw
    clear hw
    induction parts generalizing n with
    | nil => cases n <;> simp [again]
    | cons u parts ih =>
        obtain ⟨⟨hu, hne⟩, hparts⟩ := List.forall_mem_cons.mp hparts
        have hpos := List.length_pos_iff.mpr hne
        rw [List.flatten_cons, List.append_assoc, List.length_append] at hn
        obtain ⟨n, rfl⟩ := Nat.exists_eq_add_one_of_ne_zero
          (show n ≠ 0 by omega)
        refine List.mem_append_left _ (List.mem_flatMap.mpr
          ⟨parts.flatten ++ r, (hstep _ _).mpr ⟨u, hu, by simp⟩, ?_⟩)
        exact ih hparts (by omega)

/-- The ways to match a pattern are the words of its language that the text
begins with. -/
theorem mem_rests_iff : r ∈ a.rests s ↔ ∃ w ∈ a.language, s = w ++ r := by
  induction a generalizing r s with
  | text t =>
      rw [Pattern.rests, Option.mem_toList, Text.after?_eq_some_iff]
      exact ⟨fun h => ⟨t, rfl, h⟩, fun ⟨_, ht, h⟩ => ht ▸ h⟩
  | one p =>
      cases s with
      | nil =>
          refine iff_of_false List.not_mem_nil ?_
          rintro ⟨-, ⟨c, -, rfl⟩, h⟩
          cases h
      | cons c s =>
          rw [Pattern.rests]
          constructor
          · intro h
            split at h
            case isFalse => exact absurd h List.not_mem_nil
            case isTrue hc =>
              exact ⟨[c], ⟨c, hc, rfl⟩, by rw [List.mem_singleton.mp h]; rfl⟩
          · rintro ⟨-, ⟨d, hd, rfl⟩, h⟩
            obtain ⟨rfl, rfl⟩ := List.cons.inj h
            rw [if_pos hd]
            exact List.mem_singleton.mpr rfl
  | both a b iha ihb =>
      simp only [Pattern.rests, List.mem_flatMap, iha, ihb]
      constructor
      · rintro ⟨-, ⟨u, hu, rfl⟩, v, hv, rfl⟩
        exact ⟨u ++ v, Language.append_mem_mul hu hv, by simp⟩
      · rintro ⟨-, ⟨u, hu, v, hv, rfl⟩, rfl⟩
        exact ⟨v ++ r, ⟨u, hu, by simp⟩, v, hv, rfl⟩
  | either a b iha ihb =>
      simp only [Pattern.rests, List.mem_append, iha, ihb]
      constructor
      · rintro (⟨w, hw, h⟩ | ⟨w, hw, h⟩)
        · exact ⟨w, .inl hw, h⟩
        · exact ⟨w, .inr hw, h⟩
      · rintro ⟨w, hw | hw, h⟩
        · exact .inl ⟨w, hw, h⟩
        · exact .inr ⟨w, hw, h⟩
  | perhaps a ih =>
      simp only [Pattern.rests, List.mem_append, ih, List.mem_singleton]
      constructor
      · rintro (⟨w, hw, h⟩ | rfl)
        · exact ⟨w, .inr hw, h⟩
        · exact ⟨[], .inl rfl, rfl⟩
      · rintro ⟨w, rfl | hw, h⟩
        · exact .inr h.symm
        · exact .inl ⟨w, hw, h⟩
  | many a ih =>
      simp only [Pattern.rests, List.mem_flatMap]
      constructor
      · rintro ⟨t, ht, h⟩
        obtain ⟨u, hu, rfl⟩ := ih.mp ht
        obtain ⟨v, hv, rfl⟩ :=
          (mem_again_iff (fun _ _ => ih) (by simp)).mp h
        exact ⟨u ++ v, Language.append_mem_mul hu hv, by simp⟩
      · rintro ⟨-, ⟨u, hu, v, hv, rfl⟩, rfl⟩
        refine ⟨v ++ r, ih.mpr ⟨u, hu, by simp⟩, ?_⟩
        exact (mem_again_iff (fun _ _ => ih) (by simp)).mpr
          ⟨v, hv, rfl⟩

-- =============================================== languages of the patterns

theorem language_all (as : List Pattern) :
    (Pattern.all as).language = sequence (as.map Pattern.language) := by
  induction as with
  | nil => rfl
  | cons a as ih =>
      cases as with
      | nil => exact (sequence_singleton _).symm
      | cons b as =>
          rw [List.map_cons, sequence_cons, ← ih]
          rfl

theorem language_times (n : Nat) (a : Pattern) :
    (Pattern.times n a).language = a.language ^ n := by
  induction n with
  | zero => rfl
  | succ n ih => rw [pow_succ', ← ih]; rfl

theorem language_padding :
    (Pattern.upTo 2 (.text ['='])).language
      = optional (literal ['=']) * optional (literal ['=']) := by
  ext w
  rw [mem_padding]
  show w ∈ 1 + literal ['='] * (1 + literal ['='] * 1) ↔ _
  rw [mul_one]
  constructor
  · rintro (rfl | ⟨-, rfl, -, rfl | rfl, rfl⟩)
    · exact .inl rfl
    · exact .inr (.inl rfl)
    · exact .inr (.inr rfl)
  · rintro (rfl | rfl | rfl)
    · exact .inl rfl
    · exact .inr ⟨['='], rfl, [], .inl rfl, rfl⟩
    · exact .inr ⟨['='], rfl, ['='], .inr rfl, rfl⟩

theorem language_base64 : Pattern.base64.language = base64 := by
  show oneOrMore (oneOf isBase64) * _ = _
  rw [language_padding]
  rfl

theorem language_parameter : Pattern.parameter.language = parameter :=
  language_all _

/-- The words of a family's pattern are the family's hashes. -/
theorem language_pattern (f : HashFamily) :
    f.pattern.language = f.language := by
  cases f with
  | bcrypt =>
      refine (language_all _).trans ?_
      simp only [List.map_cons, List.map_nil, language_times]
      rfl
  | pbkdf2 =>
      refine (language_all _).trans ?_
      simp only [List.map_cons, List.map_nil, language_base64]
      rfl
  | argon2 =>
      refine (language_all _).trans ?_
      simp only [List.map_cons, List.map_nil, language_base64]
      show sequence [_, _, _, _, _, oneOrMore Pattern.parameter.language, _, _,
        _, _] = _
      rw [language_parameter]
      rfl

-- =========================================================== the first way

section Lists

variable {α β : Type} {l : List α} {g : α → List β}

/-- If only one element gives anything, it gives what comes first. -/
theorem head?_flatMap_of_unique {x : α} (hx : x ∈ l)
    (h : ∀ y ∈ l, g y ≠ [] → y = x) :
    (l.flatMap g).head? = (g x).head? := by
  induction l with
  | nil => exact absurd hx List.not_mem_nil
  | cons y l ih =>
      obtain ⟨hy, hl⟩ := List.forall_mem_cons.mp h
      rw [List.flatMap_cons]
      by_cases hgy : g y = []
      · rw [hgy, List.nil_append]
        rcases List.mem_cons.mp hx with rfl | hx
        · have hnone : l.flatMap g = [] :=
            List.flatMap_eq_nil_iff.mpr fun z hz => by
              by_contra hgz
              exact hgz (hl z hz hgz ▸ hgy)
          rw [hnone, hgy]
        · exact ih hx hl
      · rw [List.head?_append_of_ne_nil _ hgy, hy hgy]

/-- If every element gives something, the first gives what comes first. -/
theorem head?_flatMap_of_ne_nil (h : ∀ y, g y ≠ []) :
    (l.flatMap g).head? = l.head?.bind fun y => (g y).head? := by
  cases l with
  | nil => rfl
  | cons y l => exact List.head?_append_of_ne_nil _ (h y)

end Lists

/-- The way that is tried first leaves least. -/
def LongestFirst (a : Pattern) : Prop :=
  ∀ s r, (a.rests s).head? = some r →
    ∀ r' ∈ a.rests s, r.length ≤ r'.length

/-- What closes a pattern leaves one way to match it, whatever was tried
before. -/
theorem LongestFirst.both {follows : Text → Prop} {read : Text → Option Text}
    (ha : RecognisesBefore follows read a.language)
    (hclosed : ∀ w ∈ b.language, ∀ t, follows (w ++ t))
    (hb : LongestFirst b) : LongestFirst (.both a b) := by
  intro s r hr r' hr'
  have hread : ∀ t ∈ a.rests s, b.rests t ≠ [] → read s = some t := by
    intro t ht hne
    obtain ⟨w, hw, rfl⟩ := mem_rests_iff.mp ht
    obtain ⟨x, hx⟩ := List.exists_mem_of_ne_nil _ hne
    obtain ⟨v, hv, rfl⟩ := mem_rests_iff.mp hx
    exact ha.exact hw (hclosed v hv x)
  obtain ⟨t, ht, hr't⟩ := List.mem_flatMap.mp hr'
  have hreadt := hread t ht (List.ne_nil_of_mem hr't)
  have hfirst : ((Pattern.both a b).rests s).head? = (b.rests t).head? :=
    head?_flatMap_of_unique ht fun u hu hne =>
      Option.some.inj ((hread u hu hne).symm.trans hreadt)
  exact hb t r (hfirst.symm.trans hr) r' hr't

/-- Words of one length leave one rest. -/
theorem longestFirst_of_length {n : Nat}
    (h : ∀ w ∈ a.language, w.length = n) : LongestFirst a := by
  intro s r hr r' hr'
  obtain ⟨w, hw, rfl⟩ := mem_rests_iff.mp (List.mem_of_mem_head? hr)
  obtain ⟨w', hw', heq⟩ := mem_rests_iff.mp hr'
  have hlen := congrArg List.length heq
  rw [List.length_append, List.length_append, h w hw, h w' hw'] at hlen
  omega

/-- A reader that leaves least leaves what the first way leaves. -/
theorem head?_rests_eq {read : Text → Option Text} (ha : LongestFirst a)
    (hread : Recognises read a.language) (s : Text) :
    (a.rests s).head? = read s := by
  cases hs : read s with
  | none =>
      rw [List.head?_eq_none_iff, List.eq_nil_iff_forall_not_mem]
      intro r hr
      obtain ⟨w, hw, rfl⟩ := mem_rests_iff.mp hr
      obtain ⟨x, hx, -⟩ := hread.longest hw r
      rw [hs] at hx
      cases hx
  | some x =>
      have hx : x ∈ a.rests s := mem_rests_iff.mpr (hread.sound hs)
      obtain ⟨r, hr⟩ : ∃ r, (a.rests s).head? = some r :=
        Option.isSome_iff_exists.mp
          (List.isSome_head?.mpr (List.ne_nil_of_mem hx))
      -- neither leaves less than the other
      have hle := ha s r hr x hx
      obtain ⟨w, hw, rfl⟩ := mem_rests_iff.mp (List.mem_of_mem_head? hr)
      obtain ⟨y, hy, hyle⟩ := hread.longest hw r
      obtain rfl : x = y := Option.some.inj (hs.symm.trans hy)
      obtain ⟨w', hw', heq⟩ := mem_rests_iff.mp hx
      have hsame := List.append_inj' heq (Nat.le_antisymm hle hyle)
      rw [hr, hsame.2]

/-- If the first way leaves what such a reader leaves, it leaves least. -/
theorem longestFirst_of_head? {read : Text → Option Text}
    (hread : Recognises read a.language)
    (h : ∀ s, (a.rests s).head? = read s) : LongestFirst a := by
  intro s r hr r' hr'
  obtain ⟨w, hw, rfl⟩ := mem_rests_iff.mp hr'
  obtain ⟨x, hx, hle⟩ := hread.longest hw r'
  rw [h, hx] at hr
  obtain rfl : x = r := Option.some.inj hr
  exact hle

-- ========================================================= base64 fields

/-- A run is tried as a whole first. -/
theorem head?_again_one {n : Nat} (hn : s.length ≤ n) :
    (again (Pattern.one p).rests n s).head? = some (s.dropWhile p) := by
  induction n generalizing s with
  | zero =>
      rw [List.length_eq_zero_iff.mp (Nat.le_zero.mp hn)]
      rfl
  | succ n ih =>
      cases s with
      | nil => rfl
      | cons c s =>
          rw [again, Pattern.rests, List.dropWhile_cons]
          split
          case isTrue hc =>
            rw [List.flatMap_singleton, List.head?_append,
              ih (Nat.le_of_succ_le_succ hn)]
            rfl
          case isFalse hc => rfl

theorem head?_rests_run :
    ((Pattern.many (.one p)).rests s).head? = afterSome p s := by
  cases s with
  | nil => rfl
  | cons c s =>
      rw [Pattern.rests, Pattern.rests, afterSome]
      split
      case isTrue hc =>
        rw [List.flatMap_singleton]
        exact head?_again_one (by simp)
      case isFalse hc => rfl

/-- Padding at the beginning is tried as a whole first. -/
theorem head?_rests_padding (s : Text) :
    ((Pattern.upTo 2 (.text ['='])).rests s).head? = some (dropPadding s) := by
  have hnone : ∀ t : Text, (∀ u, t ≠ '=' :: u) →
      Text.after? ['='] t = none := by
    intro t ht
    cases t with
    | nil => rfl
    | cons c t => exact if_neg fun hc : '=' = c => ht t (hc ▸ rfl)
  unfold dropPadding
  split
  case h_1 => rfl
  case h_2 rest hrest =>
    have hpad : Text.after? ['='] ('=' :: rest) = some rest := rfl
    simp [Pattern.upTo, Pattern.rests, hpad,
      hnone rest fun u hu => hrest u (hu ▸ rfl)]
  case h_3 hs =>
    simp [Pattern.upTo, Pattern.rests, hnone s fun u hu => hs u hu]

theorem head?_rests_base64 (s : Text) :
    (Pattern.base64.rests s).head? = afterBase64 s := by
  have hpadding : ∀ t, (Pattern.upTo 2 (.text ['='])).rests t ≠ [] := by
    intro t ht
    have hfirst := head?_rests_padding t
    rw [ht] at hfirst
    cases hfirst
  show (List.flatMap _ _).head? = _
  rw [head?_flatMap_of_ne_nil hpadding, head?_rests_run, afterBase64]
  simp only [head?_rests_padding]
  exact (Option.map_eq_bind).symm

theorem longestFirst_base64 : LongestFirst .base64 := by
  refine longestFirst_of_head? ?_ head?_rests_base64
  rw [language_base64]
  exact afterBase64_recognises

-- ============================================================== families

/-- A salt, a dollar sign and a digest. -/
theorem longestFirst_saltAndDigest :
    LongestFirst (.all [.base64, .text ['$'], .base64]) := by
  have hsalt :
      RecognisesBefore AtDollar afterBase64 Pattern.base64.language := by
    rw [language_base64]
    exact afterBase64_recognisesBefore
  exact .both hsalt (fun _ hw t => atDollar_append hw t)
    (.both (afterChar_recognises '$') (fun _ _ _ => trivial)
      longestFirst_base64)

theorem longestFirst_pattern (f : HashFamily) : LongestFirst f.pattern := by
  have dollar := afterChar_recognises '$'
  cases f with
  | bcrypt =>
      refine longestFirst_of_length (n := 60) fun w hw => ?_
      rw [language_pattern] at hw
      obtain ⟨v, t, -, rfl, hlen, -⟩ := mem_bcrypt.mp hw
      simp only [List.length_cons, hlen]
  | pbkdf2 =>
      exact .both dollar (fun _ _ _ => trivial)
        (.both digits_recognises (fun _ hw t => atDollar_append hw t)
          (.both dollar (fun _ _ _ => trivial)
            (.both digits_recognises (fun _ hw t => atDollar_append hw t)
              (.both dollar (fun _ _ _ => trivial)
                longestFirst_saltAndDigest))))
  | argon2 =>
      have hparameters : RecognisesBefore AtDollar afterParameters
          (Pattern.many .parameter).language := by
        rw [Pattern.language, language_parameter]
        exact afterParameters_recognises
      exact .both (after?_recognises _) (fun _ _ _ => trivial)
        (.both afterVariant_recognises (fun _ hw t => atDollar_append hw t)
          (.both (after?_recognises _) (fun _ _ _ => trivial)
            (.both digits_recognises (fun _ hw t => atDollar_append hw t)
              (.both dollar (fun _ _ _ => trivial)
                (.both hparameters (fun _ hw t => atDollar_append hw t)
                  (.both dollar (fun _ _ _ => trivial)
                    longestFirst_saltAndDigest))))))

/-- What is tried first for a family is what the scanner finds. -/
theorem head?_rests_pattern (f : HashFamily) (s : Text) :
    (f.pattern.rests s).head? = afterHash f s := by
  refine head?_rests_eq (longestFirst_pattern f) ?_ s
  rw [language_pattern]
  exact afterHash_recognises f

/-- What the alternatives find at the beginning of a text: the families are
tried in order, each from the first of its ways on, and the first way that
succeeds is taken. -/
def matchAt? (s : Text) : Option (HashFamily × Nat) :=
  HashFamily.all.findSome? fun f =>
    (f.pattern.rests s).head?.map fun r => (f, s.length - r.length)

/-- Backtracking finds what the scanner finds. -/
theorem matchAt?_eq (s : Text) : matchAt? s = hashAt? s := by
  unfold matchAt? hashAt? hashLength?
  simp only [head?_rests_pattern, Option.map_map]
  rfl

end Redaction

end AuditTrail
