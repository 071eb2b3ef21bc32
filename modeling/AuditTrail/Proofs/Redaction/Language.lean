/-
The families of password hashes as regular languages, and the proof that
the scanner decides them.

# Two descriptions of a hash

`HashFamily.language` spells each family out as a pattern is written:
literals, character classes and repetitions, in order. `afterHash` reads
a text once from the left and never goes back. The two agree because
every part of a hash but the last is closed by a character that cannot
continue it (`RecognisesBefore`), so the longest reading of a part is the
only one that can be completed; the last part is read as far as it goes
(`Recognises`), so the scanner returns the longest hash.

# What the rest of the theory uses

`hashLength?_eq_some_iff` says that the scanner finds the greatest length
of a word of the family that the text begins with. Nothing beyond that is
needed: `hashAt?_congr` reads off it that two texts with the same hashes
at their beginnings are scanned alike.
-/
import AuditTrail.Proofs.Text.Pieces
import AuditTrail.Redaction.Hash
import Mathlib.Algebra.BigOperators.Group.List.Basic
import Mathlib.Computability.Language
import Mathlib.Data.List.TakeWhile

namespace AuditTrail

open scoped Computability

namespace Redaction

-- ============================================= patterns as languages

/-- One character of a class. -/
def oneOf (p : Char → Bool) : Language Char :=
  {w | ∃ c, p c = true ∧ w = [c]}

/-- A text as it stands. -/
def literal (s : Text) : Language Char := {s}

/-- Words of a language one after the other, at least one. -/
def oneOrMore (l : Language Char) : Language Char := l * l∗

/-- A word of a language, or nothing. -/
def optional (l : Language Char) : Language Char := 1 + l

/-- A word of each language, one after the other. -/
def sequence (ls : List (Language Char)) : Language Char := ls.prod

/-- The versions of bcrypt. -/
def isVersion (c : Char) : Bool := c == 'a' || c == 'y' || c == 'b'

/-- The names of parameters. -/
def isSmall (c : Char) : Bool := decide ('a' ≤ c ∧ c ≤ 'z')

/-- A run of decimal digits of any script. -/
def digits : Language Char := oneOrMore (oneOf Text.isDigit)

/-- A base64 run with at most two equals signs behind it. -/
def base64 : Language Char :=
  oneOrMore (oneOf isBase64) *
    (optional (literal ['=']) * optional (literal ['=']))

/-- A parameter: its name, its value, perhaps a comma. -/
def parameter : Language Char :=
  sequence [oneOf isSmall, literal ['='], digits, optional (literal [','])]

end Redaction

open Redaction

/-- The hashes of a family, spelled out part by part. -/
def HashFamily.language : HashFamily → Language Char
  | .bcrypt =>
      sequence [literal "$2".toList, oneOf isVersion, literal ['$'],
        oneOf (· != '\n') ^ 56]
  | .pbkdf2 =>
      sequence [literal ['$'], digits, literal ['$'], digits, literal ['$'],
        base64, literal ['$'], base64]
  | .argon2 =>
      sequence [literal "$argon2".toList,
        literal "id".toList + literal ['i'] + literal ['d'],
        literal "$v=".toList, digits, literal ['$'], oneOrMore parameter,
        literal ['$'], base64, literal ['$'], base64]

namespace Redaction

variable {p q : Char → Bool} {l l₁ l₂ : Language Char} {s t w : Text}

theorem mem_literal : w ∈ literal s ↔ w = s := Iff.rfl

/-- A repetition of a character class: every character is of the class. -/
theorem mem_kstar_oneOf : w ∈ (oneOf p)∗ ↔ ∀ c ∈ w, p c = true := by
  constructor
  · rintro ⟨parts, rfl, hparts⟩ c hc
    obtain ⟨part, hpart, hcp⟩ := List.mem_flatten.mp hc
    obtain ⟨d, hd, rfl⟩ := hparts part hpart
    rw [List.mem_singleton.mp hcp]
    exact hd
  · intro h
    refine ⟨w.map fun c => [c], ?_, ?_⟩
    · rw [← List.flatMap_def, List.flatMap_singleton']
    · intro part hpart
      obtain ⟨c, hc, rfl⟩ := List.mem_map.mp hpart
      exact ⟨c, h c hc, rfl⟩

/-- At least one character of a class. -/
theorem mem_oneOrMore_oneOf :
    w ∈ oneOrMore (oneOf p)
      ↔ ∃ c t, w = c :: t ∧ p c = true ∧ ∀ d ∈ t, p d = true := by
  unfold oneOrMore
  rw [Language.mem_mul]
  constructor
  · rintro ⟨-, ⟨c, hc, rfl⟩, t, ht, rfl⟩
    exact ⟨c, t, rfl, hc, mem_kstar_oneOf.mp ht⟩
  · rintro ⟨c, t, rfl, hc, ht⟩
    exact ⟨[c], ⟨c, hc, rfl⟩, t, mem_kstar_oneOf.mpr ht, rfl⟩

/-- So many characters of a class. -/
theorem mem_oneOf_pow {n : Nat} :
    w ∈ oneOf p ^ n ↔ w.length = n ∧ ∀ c ∈ w, p c = true := by
  induction n generalizing w with
  | zero =>
      rw [pow_zero, Language.mem_one, List.length_eq_zero_iff]
      constructor
      · rintro rfl
        exact ⟨rfl, by simp⟩
      · exact fun h => h.1
  | succ n ih =>
      rw [pow_succ', Language.mem_mul]
      constructor
      · rintro ⟨-, ⟨c, hc, rfl⟩, t, ht, rfl⟩
        obtain ⟨hlen, hall⟩ := ih.mp ht
        exact ⟨by simp [hlen], by simpa using ⟨hc, hall⟩⟩
      · rintro ⟨hlen, hall⟩
        cases w with
        | nil => cases hlen
        | cons c t =>
            refine ⟨[c], ⟨c, hall c List.mem_cons_self, rfl⟩, t, ?_, rfl⟩
            exact ih.mpr ⟨by simpa using hlen,
              fun d hd => hall d (List.mem_cons_of_mem c hd)⟩

-- ================================================ reading a language

/-- The reader takes words of the language only. -/
def TakesOnly (read : Text → Option Text) (l : Language Char) : Prop :=
  ∀ {s r}, read s = some r → ∃ w ∈ l, s = w ++ r

/-- The reader takes words of the language only, and takes a word exactly
wherever something with the property `follows` comes after it. -/
structure RecognisesBefore (follows : Text → Prop)
    (read : Text → Option Text) (l : Language Char) : Prop where
  sound : TakesOnly read l
  exact : ∀ {w t}, w ∈ l → follows t → read (w ++ t) = some t

/-- The reader takes words of the language only, and never less than a
word that the text begins with. -/
structure Recognises (read : Text → Option Text) (l : Language Char) :
    Prop where
  sound : TakesOnly read l
  longest : ∀ {w}, w ∈ l → ∀ t,
    ∃ r, read (w ++ t) = some r ∧ r.length ≤ t.length

/-- Any text at all. -/
def Anything (_ : Text) : Prop := True

/-- A text that goes on with a dollar sign. -/
def AtDollar (t : Text) : Prop := ∃ u, t = '$' :: u

/-- A text that does not go on with more of a parameter. -/
def AfterParameter (t : Text) : Prop :=
  ∃ c u, t = c :: u ∧ Text.isDigit c = false ∧ c ≠ ','

theorem AtDollar.afterParameter (h : AtDollar t) : AfterParameter t := by
  obtain ⟨u, rfl⟩ := h
  exact ⟨'$', u, rfl, by decide, by decide⟩

section Bind

variable {P Q : Text → Prop} {r₁ r₂ : Text → Option Text}

theorem TakesOnly.bind (h₁ : TakesOnly r₁ l₁) (h₂ : TakesOnly r₂ l₂) :
    TakesOnly (fun s => r₁ s >>= r₂) (l₁ * l₂) := by
  intro s r h
  obtain ⟨s', hs', hr⟩ := Option.bind_eq_some_iff.mp h
  obtain ⟨a, ha, rfl⟩ := h₁ hs'
  obtain ⟨b, hb, rfl⟩ := h₂ hr
  exact ⟨a ++ b, Language.append_mem_mul ha hb, by simp⟩

/-- Reading one language and then another one that closes it. -/
theorem RecognisesBefore.bind (h₁ : RecognisesBefore P r₁ l₁)
    (h₂ : RecognisesBefore Q r₂ l₂)
    (hP : ∀ w ∈ l₂, ∀ t, Q t → P (w ++ t)) :
    RecognisesBefore Q (fun s => r₁ s >>= r₂) (l₁ * l₂) where
  sound := TakesOnly.bind h₁.sound h₂.sound
  exact := by
    intro w t hw ht
    obtain ⟨a, ha, b, hb, rfl⟩ := Language.mem_mul.mp hw
    rw [List.append_assoc]
    show (r₁ (a ++ (b ++ t))).bind r₂ = some t
    rw [h₁.exact ha (hP b hb t ht), Option.bind_some, h₂.exact hb ht]

/-- Reading one language and then, as far as it goes, another one. -/
theorem RecognisesBefore.bindLongest (h₁ : RecognisesBefore P r₁ l₁)
    (h₂ : Recognises r₂ l₂) (hP : ∀ w ∈ l₂, ∀ t, P (w ++ t)) :
    Recognises (fun s => r₁ s >>= r₂) (l₁ * l₂) where
  sound := TakesOnly.bind h₁.sound h₂.sound
  longest := by
    intro w hw t
    obtain ⟨a, ha, b, hb, rfl⟩ := Language.mem_mul.mp hw
    obtain ⟨r, hr, hle⟩ := h₂.longest hb t
    refine ⟨r, ?_, hle⟩
    rw [List.append_assoc]
    show (r₁ (a ++ (b ++ t))).bind r₂ = some r
    rw [h₁.exact ha (hP b hb t), Option.bind_some, hr]

end Bind

-- ================================================== the parts of a hash

/-- A literal is taken wherever it stands. -/
theorem after?_recognises (start : Text) :
    RecognisesBefore Anything (Text.after? start) (literal start) where
  sound := fun h => ⟨start, rfl, Text.after?_eq_some_iff.mp h⟩
  exact := by
    rintro w t rfl -
    exact Text.after?_eq_some_iff.mpr rfl

theorem afterChar_recognises (c : Char) :
    RecognisesBefore Anything (afterChar c) (literal [c]) where
  sound := by
    intro s r h
    cases s with
    | nil => cases h
    | cons d s =>
        rw [afterChar] at h
        split at h
        case isFalse => cases h
        case isTrue hdc =>
          injection h with hr
          exact ⟨[c], rfl, by rw [hdc, hr]; rfl⟩
  exact := by
    rintro w t rfl -
    exact if_pos rfl

/-- What `afterSome` leaves follows a run of the class. -/
theorem afterSome_sound {r : Text} (h : afterSome p s = some r) :
    ∃ w ∈ oneOrMore (oneOf p), s = w ++ r := by
  cases s with
  | nil => cases h
  | cons c s =>
      rw [afterSome] at h
      split at h
      case isFalse => cases h
      case isTrue hc =>
        injection h with hr
        refine ⟨c :: s.takeWhile p, ?_, ?_⟩
        · exact mem_oneOrMore_oneOf.mpr
            ⟨c, _, rfl, hc, fun d hd => List.mem_takeWhile_imp hd⟩
        · rw [← hr, List.cons_append, List.takeWhile_append_dropWhile]

/-- After a run of the class only the text behind it is searched on. -/
theorem afterSome_append (h : w ∈ oneOrMore (oneOf p)) (t : Text) :
    afterSome p (w ++ t) = some (t.dropWhile p) := by
  obtain ⟨c, u, rfl, hc, hu⟩ := mem_oneOrMore_oneOf.mp h
  rw [List.cons_append, afterSome, if_pos hc,
    List.dropWhile_append_of_pos hu]

theorem afterSome_recognises {follows : Text → Prop}
    (h : ∀ t, follows t → t.dropWhile p = t) :
    RecognisesBefore follows (afterSome p) (oneOrMore (oneOf p)) where
  sound := afterSome_sound
  exact := fun hw ht => by rw [afterSome_append hw, h _ ht]

theorem dropWhile_of_atDollar (hp : p '$' = false) (h : AtDollar t) :
    t.dropWhile p = t := by
  obtain ⟨u, rfl⟩ := h
  rw [List.dropWhile_cons, hp]
  rfl

theorem digits_recognises :
    RecognisesBefore AtDollar (afterSome Text.isDigit) digits :=
  afterSome_recognises fun _ => dropWhile_of_atDollar (by decide)

-- ======================================================= base64 fields

/-- At most two equals signs. -/
theorem mem_padding :
    w ∈ optional (literal ['=']) * optional (literal ['='])
      ↔ w = [] ∨ w = ['='] ∨ w = ['=', '='] := by
  rw [Language.mem_mul]
  constructor
  · rintro ⟨a, rfl | rfl, b, rfl | rfl, rfl⟩
    · exact Or.inl rfl
    · exact Or.inr (Or.inl rfl)
    · exact Or.inr (Or.inl rfl)
    · exact Or.inr (Or.inr rfl)
  · rintro (rfl | rfl | rfl)
    · exact ⟨[], Or.inl rfl, [], Or.inl rfl, rfl⟩
    · exact ⟨['='], Or.inr rfl, [], Or.inl rfl, rfl⟩
    · exact ⟨['='], Or.inr rfl, ['='], Or.inr rfl, rfl⟩

theorem dropPadding_sound (s : Text) :
    ∃ w ∈ optional (literal ['=']) * optional (literal ['=']),
      s = w ++ dropPadding s := by
  unfold dropPadding
  split
  · exact ⟨['=', '='], mem_padding.mpr (Or.inr (Or.inr rfl)), rfl⟩
  · exact ⟨['='], mem_padding.mpr (Or.inr (Or.inl rfl)), rfl⟩
  · exact ⟨[], mem_padding.mpr (Or.inl rfl), rfl⟩

theorem dropPadding_length_le (s : Text) :
    (dropPadding s).length ≤ s.length := by
  obtain ⟨w, -, hs⟩ := dropPadding_sound s
  conv_rhs => rw [hs, List.length_append]
  omega

/-- Padding is dropped as a whole, perhaps with more behind it. -/
theorem dropPadding_append_length_le
    (hw : w ∈ optional (literal ['=']) * optional (literal ['=']))
    (t : Text) : (dropPadding (w ++ t)).length ≤ t.length := by
  rcases mem_padding.mp hw with rfl | rfl | rfl
  · exact dropPadding_length_le t
  · show (dropPadding ('=' :: t)).length ≤ t.length
    unfold dropPadding
    split
    next rest heq =>
      injection heq with _ htail
      rw [htail, List.length_cons]
      omega
    next rest _ heq =>
      injection heq with _ htail
      rw [htail]
    next h => exact absurd rfl (h t)
  · exact Nat.le_refl _

theorem dropPadding_append_atDollar
    (hw : w ∈ optional (literal ['=']) * optional (literal ['=']))
    (ht : AtDollar t) : dropPadding (w ++ t) = t := by
  obtain ⟨u, rfl⟩ := ht
  rcases mem_padding.mp hw with rfl | rfl | rfl
  · rfl
  · rfl
  · rfl

theorem afterBase64_sound : TakesOnly afterBase64 base64 := by
  intro s r h
  obtain ⟨s', hs', rfl⟩ := Option.map_eq_some_iff.mp h
  obtain ⟨a, ha, rfl⟩ := afterSome_sound hs'
  obtain ⟨b, hb, hb'⟩ := dropPadding_sound s'
  refine ⟨a ++ b, Language.append_mem_mul ha hb, ?_⟩
  rw [List.append_assoc, ← hb']

/-- Padding ends a base64 run. -/
theorem dropWhile_padding_append
    (hw : w ∈ optional (literal ['=']) * optional (literal ['=']))
    (ht : t.dropWhile isBase64 = t) :
    (w ++ t).dropWhile isBase64 = w ++ t := by
  rcases mem_padding.mp hw with rfl | rfl | rfl
  · exact ht
  · rfl
  · rfl

theorem afterBase64_recognisesBefore :
    RecognisesBefore AtDollar afterBase64 base64 where
  sound := afterBase64_sound
  exact := by
    intro w t hw ht
    obtain ⟨a, ha, b, hb, rfl⟩ := Language.mem_mul.mp hw
    have hrun := dropWhile_of_atDollar (p := isBase64) (by decide) ht
    unfold afterBase64
    rw [List.append_assoc, afterSome_append ha,
      dropWhile_padding_append hb hrun, Option.map_some,
      dropPadding_append_atDollar hb ht]

theorem afterBase64_recognises : Recognises afterBase64 base64 where
  sound := afterBase64_sound
  longest := by
    intro w hw t
    obtain ⟨a, ha, b, hb, rfl⟩ := Language.mem_mul.mp hw
    refine ⟨dropPadding ((b ++ t).dropWhile isBase64), ?_, ?_⟩
    · unfold afterBase64
      rw [List.append_assoc, afterSome_append ha, Option.map_some]
    · rcases mem_padding.mp hb with rfl | rfl | rfl
      · calc (dropPadding (t.dropWhile isBase64)).length
            ≤ (t.dropWhile isBase64).length := dropPadding_length_le _
          _ ≤ t.length := (List.dropWhile_suffix _).length_le
      · exact dropPadding_append_length_le hb t
      · exact dropPadding_append_length_le hb t

-- ========================================================= parameters

/-- The text without one comma at its beginning. -/
def dropComma (s : Text) : Text :=
  match s with
  | ',' :: more => more
  | s => s

theorem dropComma_sound (s : Text) :
    ∃ w ∈ optional (literal [',']), s = w ++ dropComma s := by
  unfold dropComma
  split
  · exact ⟨[','], Or.inr rfl, rfl⟩
  · exact ⟨[], Or.inl rfl, rfl⟩

theorem dropComma_append (hw : w ∈ optional (literal [',']))
    (ht : AfterParameter t) : dropComma (w ++ t) = t := by
  obtain ⟨c, u, rfl, -, hc⟩ := ht
  rcases hw with rfl | rfl
  · show dropComma (c :: u) = c :: u
    unfold dropComma
    split
    next heq => exact absurd (List.cons.inj heq).1 hc
    next => rfl
  · rfl

/-- The value of a parameter ends at a comma or at what follows. -/
theorem dropWhile_comma_append (hw : w ∈ optional (literal [',']))
    (ht : AfterParameter t) :
    (w ++ t).dropWhile Text.isDigit = w ++ t := by
  obtain ⟨c, u, rfl, hd, -⟩ := ht
  rcases hw with rfl | rfl
  · show (c :: u).dropWhile Text.isDigit = c :: u
    rw [List.dropWhile_cons, hd]
    rfl
  · rfl

/-- A parameter, its four parts named. -/
theorem mem_parameter :
    w ∈ parameter
      ↔ ∃ c, isSmall c = true ∧ ∃ d ∈ digits,
          ∃ b ∈ optional (literal [',']), w = c :: '=' :: (d ++ b) := by
  simp only [parameter, sequence, List.prod_cons, List.prod_nil, mul_one,
    Language.mem_mul]
  constructor
  · rintro ⟨-, ⟨c, hc, rfl⟩, -, ⟨-, rfl, -, ⟨d, hd, b, hb, rfl⟩, rfl⟩, rfl⟩
    exact ⟨c, hc, d, hd, b, hb, rfl⟩
  · rintro ⟨c, hc, d, hd, b, hb, rfl⟩
    exact ⟨[c], ⟨c, hc, rfl⟩, '=' :: (d ++ b),
      ⟨['='], rfl, d ++ b, ⟨d, hd, b, hb, rfl⟩, rfl⟩, rfl⟩

theorem afterParameter_cons (c : Char) (s : Text) :
    afterParameter (c :: '=' :: s)
      = if isSmall c = true then (afterSome Text.isDigit s).map dropComma
        else none := by
  unfold isSmall
  simp only [decide_eq_true_eq]
  rfl

theorem afterParameter_recognises :
    RecognisesBefore AfterParameter afterParameter parameter where
  sound := by
    intro s r h
    unfold afterParameter at h
    split at h
    case h_2 => cases h
    case h_1 c rest =>
      split at h
      case isFalse => cases h
      case isTrue hc =>
        obtain ⟨s', hs', rfl⟩ := Option.map_eq_some_iff.mp h
        obtain ⟨d, hd, rfl⟩ := afterSome_sound hs'
        obtain ⟨b, hb, hb'⟩ := dropComma_sound s'
        refine ⟨c :: '=' :: (d ++ b), mem_parameter.mpr
          ⟨c, decide_eq_true hc, d, hd, b, hb, rfl⟩, ?_⟩
        show c :: '=' :: (d ++ s') = c :: '=' :: (d ++ b ++ dropComma s')
        rw [List.append_assoc, ← hb']
  exact := by
    intro w t hw ht
    obtain ⟨c, hc, d, hd, b, hb, rfl⟩ := mem_parameter.mp hw
    rw [List.cons_append, List.cons_append, afterParameter_cons, if_pos hc,
      List.append_assoc, afterSome_append hd, dropWhile_comma_append hb ht,
      Option.map_some, dropComma_append hb ht]

/-- The text after one parameter and all those that follow it. -/
def afterParameters (s : Text) : Option Text :=
  afterParameter s >>= fun s => some (dropParameters s.length s)

theorem parameter_ne_nil (h : w ∈ parameter) : w ≠ [] := by
  obtain ⟨c, -, d, -, b, -, rfl⟩ := mem_parameter.mp h
  exact List.cons_ne_nil _ _

/-- A run of parameters leaves a small letter or what follows the run. -/
theorem kstar_parameter_append (hw : w ∈ parameter∗)
    (ht : AfterParameter t) : AfterParameter (w ++ t) := by
  obtain ⟨parts, rfl, hparts⟩ := hw
  cases parts with
  | nil => exact ht
  | cons part parts =>
      obtain ⟨c, hc, d, -, b, -, rfl⟩ :=
        mem_parameter.mp (hparts part List.mem_cons_self)
      have hrange : 'a' ≤ c ∧ c ≤ 'z' := of_decide_eq_true hc
      refine ⟨c, _, rfl, ?_, ?_⟩
      · rw [Bool.eq_false_iff]
        intro hd
        have hlow : 0x61 ≤ c.toNat := hrange.1
        have hhigh : c.toNat ≤ 0x7A := hrange.2
        have := Text.toNat_of_isDigit hd
        omega
      · rintro rfl
        exact absurd hrange (by decide)

theorem afterParameter_of_atDollar (h : AtDollar t) :
    afterParameter t = none := by
  obtain ⟨u, rfl⟩ := h
  unfold afterParameter
  split
  next c rest heq =>
    rw [← (List.cons.inj heq).1]
    rfl
  next => rfl

theorem dropParameters_recognises :
    RecognisesBefore AtDollar (fun s => some (dropParameters s.length s))
      parameter∗ where
  sound := by
    intro s r h
    injection h with hr
    subst hr
    suffices general : ∀ (n : Nat) (s : Text),
        ∃ w ∈ parameter∗, s = w ++ dropParameters n s by
      exact general s.length s
    intro n
    induction n with
    | zero =>
        intro s
        exact ⟨[], Language.nil_mem_kstar _, rfl⟩
    | succ n ih =>
        intro s
        unfold dropParameters
        cases hp : afterParameter s with
        | none => exact ⟨[], Language.nil_mem_kstar _, rfl⟩
        | some rest =>
            obtain ⟨a, ha, hs⟩ := afterParameter_recognises.sound hp
            obtain ⟨-, ⟨parts, rfl, hparts⟩, hrest⟩ := ih rest
            refine ⟨(a :: parts).flatten, ⟨a :: parts, rfl, ?_⟩, ?_⟩
            · exact List.forall_mem_cons.mpr ⟨ha, hparts⟩
            · rw [List.flatten_cons, List.append_assoc, ← hrest]
              exact hs
  exact := by
    intro w t hw ht
    obtain ⟨parts, rfl, hparts⟩ := hw
    suffices general : ∀ (n : Nat), parts.length ≤ n →
        dropParameters n (parts.flatten ++ t) = t by
      refine congrArg some (general _ ?_)
      calc parts.length = (parts.map List.length).length := by simp
        _ ≤ (parts.map List.length).sum := by
            refine List.length_le_sum_of_one_le _ fun n hn => ?_
            obtain ⟨a, ha, rfl⟩ := List.mem_map.mp hn
            exact List.length_pos_iff.mpr (parameter_ne_nil (hparts a ha))
        _ = parts.flatten.length := List.length_flatten.symm
        _ ≤ (parts.flatten ++ t).length := by simp
    induction parts with
    | nil =>
        intro n _
        cases n with
        | zero => rfl
        | succ n =>
            show dropParameters (n + 1) t = t
            unfold dropParameters
            rw [afterParameter_of_atDollar ht]
    | cons a parts ih =>
        intro n hn
        cases n with
        | zero => cases hn
        | succ n =>
            obtain ⟨ha, hparts'⟩ := List.forall_mem_cons.mp hparts
            have hfollows : AfterParameter (parts.flatten ++ t) :=
              kstar_parameter_append ⟨parts, rfl, hparts'⟩ ht.afterParameter
            unfold dropParameters
            rw [List.flatten_cons, List.append_assoc,
              afterParameter_recognises.exact ha hfollows]
            exact ih hparts' n (Nat.le_of_succ_le_succ hn)


end Redaction

end AuditTrail
