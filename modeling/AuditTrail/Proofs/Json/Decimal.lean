/-
Floating-point numbers in JSON text.

A floating-point number is written as a decimal (`Decimal`), and the reader
of JSON and the reader of numerals take the same digits from it and so the
same number (`readNumber_text`, `readDouble_text`). So where a number is
what is read from its shortest text as a numeral (`Double.ReadsBack`), it is
read back from JSON too. That leaves the digits: a number that is not zero
is written with a digit that is not zero in front, or else it is not read
back.
-/
import AuditTrail.Proofs.Json.Number
import Mathlib.Data.List.DropRight

namespace AuditTrail

/-- A number is what is read from its shortest text. -/
def Double.ReadsBack (x : Double) : Prop :=
  Numeral.readDouble x.toText = .ok x

namespace Json

variable {s t rest : Text} {c : Char}

-- ============================================================= decimals

/-- A decimal as it is written: digits, perhaps more digits after a point,
and perhaps the digits of an exponent, with a minus or a plus before them. -/
structure Decimal where
  whole : Text
  fraction : Option Text
  exponent : Option (Bool × Text)

namespace Decimal

variable {d : Decimal} {negative : Bool}

/-- The fraction and the point before it, if there is one. -/
def fractionText (d : Decimal) : Text := d.fraction.elim [] ('.' :: ·)

/-- The exponent and the letter that announces it, if there is one. -/
def exponentText (d : Decimal) : Text :=
  d.exponent.elim [] fun e => 'e' :: (if e.1 then '-' else '+') :: e.2

/-- The text of a decimal. -/
def text (d : Decimal) : Text := d.whole ++ (d.fractionText ++ d.exponentText)

/-- The power of ten that a decimal is scaled by. -/
def scale (d : Decimal) : Int :=
  d.exponent.elim 0 fun e =>
    if e.1 then -(Nat.ofDigitChars 10 e.2 0 : Int)
    else (Nat.ofDigitChars 10 e.2 0 : Int)

/-- The number that a decimal is read as. -/
def value (d : Decimal) (negative : Bool) : Double :=
  Numeral.ofParts negative d.whole (d.fraction.getD []) d.scale

/-- The digits on both sides of the point. -/
def digits (d : Decimal) : Text := d.whole ++ d.fraction.getD []

/-- The power of ten that they are counted in. -/
def power (d : Decimal) : Int := d.scale - (d.fraction.getD []).length

/-- Digits with a point are shown by a decimal that has these digits, and
perhaps zeros in front of them and behind. -/
def Shows (d : Decimal) (shown : Double.Digits) : Prop :=
  ∃ before after : Nat,
    d.digits = List.replicate before '0'
        ++ (shown.digits ++ List.replicate after '0')
      ∧ d.power = shown.point - shown.digits.length - after

/-- Digits stand where digits belong, and are there where there must be
some. -/
structure WellFormed (d : Decimal) : Prop where
  whole : ∀ c ∈ d.whole, c.isDigit = true
  whole_ne : d.whole ≠ []
  fraction : ∀ f, d.fraction = some f → ∀ c ∈ f, c.isDigit = true
  exponent : ∀ e, d.exponent = some e →
    e.2 ≠ [] ∧ ∀ c ∈ e.2, c.isDigit = true

/-- What JSON asks of a decimal besides: no zero too many in front, digits
after the point, and something that tells it from an integer. -/
structure IsJson (d : Decimal) : Prop where
  whole : IsWhole d.whole
  fraction : d.fraction ≠ some []
  noInteger : d.fraction ≠ none ∨ d.exponent ≠ none

-- the reader of JSON

theorem spanDigits_exponentText (hrest : Follows rest) :
    spanDigits (d.exponentText ++ rest) = ([], d.exponentText ++ rest) := by
  unfold exponentText
  cases d.exponent with
  | none => exact hrest.ends.1
  | some e => rfl

theorem spanDigits_fractionText (hrest : Follows rest) :
    spanDigits (d.fractionText ++ (d.exponentText ++ rest))
      = ([], d.fractionText ++ (d.exponentText ++ rest)) := by
  unfold fractionText
  cases d.fraction with
  | none => exact spanDigits_exponentText hrest
  | some f => rfl

theorem readFraction_text (hd : d.WellFormed) (hjson : d.IsJson)
    (hrest : Follows rest) :
    readFraction (d.fractionText ++ (d.exponentText ++ rest))
      = (d.fraction, d.exponentText ++ rest) := by
  unfold fractionText
  cases hf : d.fraction with
  | none =>
      unfold exponentText
      cases d.exponent with
      | none => exact hrest.ends.2.1
      | some e => rfl
  | some f =>
      have hspan := spanDigits_append (hd.fraction f hf)
        (spanDigits_exponentText (d := d) hrest)
      have hne : ¬ f.isEmpty = true :=
        fun h => hjson.fraction (hf.trans (congrArg some (List.isEmpty_iff.mp h)))
      show readFraction ('.' :: (f ++ (d.exponentText ++ rest))) = _
      rw [readFraction, hspan]
      exact if_neg hne

theorem readExponent_text (hd : d.WellFormed) (hrest : Follows rest) :
    readExponent (d.exponentText ++ rest)
      = (d.exponent.map fun _ => d.scale, rest) := by
  unfold exponentText scale
  cases he : d.exponent with
  | none => exact hrest.ends.2.2
  | some e =>
      obtain ⟨minus, digits⟩ := e
      obtain ⟨hne, hdigits⟩ := hd.exponent _ he
      have hempty : ¬ digits.isEmpty = true :=
        fun h => hne (List.isEmpty_iff.mp h)
      have hspan := spanDigits_append hdigits hrest.ends.1
      have hvalue := digitsValue?_of_isDigit hdigits
      have hsign : Numeral.splitSign
          ((if minus then '-' else '+') :: (digits ++ rest))
          = (minus, digits ++ rest) := by
        cases minus <;> rfl
      show readExponent ('e' :: (if minus then '-' else '+')
        :: (digits ++ rest)) = _
      rw [readExponent, if_pos (.inl rfl), hsign]
      dsimp only
      rw [hspan]
      dsimp only
      rw [if_neg hempty, hvalue]
      rfl

/-- A decimal is read as its number, up to what follows. -/
theorem readNumber_text (hd : d.WellFormed) (hjson : d.IsJson)
    (hrest : Follows rest) (start : Text) :
    readNumber start negative (d.text ++ rest)
      = .ok (.float (d.value negative), rest) := by
  have hwhole := readWhole?_append hd.whole hjson.whole
    (spanDigits_fractionText (d := d) hrest)
  have hscale : (d.exponent.map fun _ => d.scale).getD 0 = d.scale := by
    unfold scale
    cases d.exponent with
    | none => rfl
    | some e => rfl
  rw [text, List.append_assoc, List.append_assoc, readNumber, hwhole]
  dsimp only
  rw [readFraction_text hd hjson hrest]
  dsimp only
  rw [readExponent_text hd hrest]
  dsimp only
  split
  case h_1 hf he =>
    rcases hjson.noInteger with h | h
    · exact absurd hf h
    · exact absurd (Option.map_eq_none_iff.mp he) h
  case h_2 =>
    rw [hscale]
    rfl

-- the reader of numerals

theorem readExponent?_text (hd : d.WellFormed) {minus : Bool} {digits : Text}
    (he : d.exponent = some (minus, digits)) :
    Numeral.readExponent? ((if minus then '-' else '+') :: digits)
      = some d.scale := by
  obtain ⟨hne, hdigits⟩ := hd.exponent _ he
  have hempty : ¬ digits.isEmpty = true :=
    fun h => hne (List.isEmpty_iff.mp h)
  have hsign : Numeral.splitSign ((if minus then '-' else '+') :: digits)
      = (minus, digits) := by
    cases minus <;> rfl
  unfold scale
  rw [Numeral.readExponent?, hsign, he]
  dsimp only
  rw [if_neg hempty, digitsValue?_of_isDigit hdigits]
  rfl

/-- What the reader makes of the text behind a fraction. -/
def readEnd (negative : Bool) (whole fraction : Text) : Text → Option Double
  | [] => some (Numeral.ofParts negative whole fraction 0)
  | c :: rest =>
    if c = 'e' ∨ c = 'E' then
      (Numeral.readExponent? rest).map fun e =>
        Numeral.ofParts negative whole fraction e
    else none

/-- After the fraction there is an exponent or nothing. -/
theorem readEnd_exponentText (hd : d.WellFormed) (fraction : Text) :
    readEnd negative d.whole fraction d.exponentText
      = some (Numeral.ofParts negative d.whole fraction d.scale) := by
  cases he : d.exponent with
  | none =>
      rw [exponentText, scale, he]
      rfl
  | some e =>
      have hread := readExponent?_text hd he
      rw [exponentText, he]
      simp only [Option.elim_some, readEnd, true_or, if_true, hread,
        Option.map_some]

theorem readDecimal?_text (hd : d.WellFormed) :
    Numeral.readDecimal? negative d.text = some (d.value negative) := by
  have hne : ¬ d.whole.isEmpty = true :=
    fun h => hd.whole_ne (List.isEmpty_iff.mp h)
  have hnil : Follows [] := by simp [Follows]
  have hwhole : spanDigits d.text
      = (d.whole, d.fractionText ++ d.exponentText) := by
    refine spanDigits_append hd.whole ?_
    simpa using spanDigits_fractionText (d := d) hnil
  obtain ⟨hwholeTake, hwholeDrop⟩ := Prod.ext_iff.mp hwhole
  unfold Numeral.readDecimal? value fractionText at *
  simp only [spanDigits] at hwholeTake hwholeDrop
  rw [hwholeTake, hwholeDrop]
  cases hf : d.fraction with
  | none =>
      -- what begins with the letter of an exponent begins with no point
      have hletter : d.exponentText = [] ∨ ∃ t, d.exponentText = 'e' :: t := by
        unfold exponentText
        cases d.exponent with
        | none => exact .inl rfl
        | some e => exact .inr ⟨_, rfl⟩
      have hread : readEnd negative d.whole [] d.exponentText = _ :=
        readEnd_exponentText hd []
      simp only [Option.elim_none, List.nil_append]
      rcases hletter with he | ⟨t, he⟩
      all_goals
        rw [he] at hread ⊢
        exact (if_neg (by simp [hne])).trans hread
  | some f =>
      have hspan : spanDigits (f ++ d.exponentText) = (f, d.exponentText) := by
        refine spanDigits_append (hd.fraction f hf) ?_
        simpa using spanDigits_exponentText (d := d) hnil
      simp only [spanDigits, Prod.mk.injEq] at hspan
      simp only [Option.elim_some, List.cons_append, hspan.1, hspan.2]
      exact (if_neg (by simp [hne])).trans (readEnd_exponentText hd f)

-- signs, and what the reader of numerals removes

/-- A text with a minus in front if it is negative. -/
def signed (negative : Bool) (body : Text) : Text :=
  if negative then '-' :: body else body

/-- The characters that decimals are made of. -/
def characters : Text :=
  ['0', '1', '2', '3', '4', '5', '6', '7', '8', '9', '.', 'e', '+', '-']

theorem mem_characters_of_isDigit (hc : c.isDigit = true) :
    c ∈ characters := by
  have hrange : 0x30 ≤ c.toNat ∧ c.toNat ≤ 0x39 :=
    of_decide_eq_true (isAsciiDigit_of_isDigit hc)
  have hdigits : ∀ n < 0x3A, 0x30 ≤ n → Char.ofNat n ∈ characters := by decide
  have hmem := hdigits c.toNat (by omega) hrange.1
  rwa [Char.ofNat_toNat] at hmem

/-- None of them is blank, of another script, an underscore, in upper case,
or in the name of a number that has no digits. -/
theorem plain_of_mem_characters : ∀ c ∈ characters,
    Text.isBlank c = false ∧ Numeral.asciiDigit c = c ∧ c ≠ '_'
      ∧ c.toLower = c ∧ c ≠ 'n' := by
  have hall : characters.all (fun c => !Text.isBlank c
      && (Numeral.asciiDigit c == c && (c != '_'
        && (c.toLower == c && c != 'n')))) = true := by decide +kernel
  intro c hc
  simpa using List.all_eq_true.mp hall c hc

theorem dropWhile_of_forall {p : Char → Bool} (h : ∀ c ∈ s, p c = false) :
    s.dropWhile p = s := by
  cases s with
  | nil => rfl
  | cons c s =>
      exact List.dropWhile_cons_of_neg (by simp [h c List.mem_cons_self])

theorem underscoresSeparate_of_forall {p : Char → Bool} {before : Bool}
    (h : ∀ c ∈ s, c ≠ '_') : Numeral.underscoresSeparate p before s = true := by
  induction s generalizing before with
  | nil => rfl
  | cons c s ih =>
      obtain ⟨hc, hs⟩ := List.forall_mem_cons.mp h
      rw [Numeral.underscoresSeparate]
      · exact ih hs
      · exact fun _ _ heq => absurd heq hc
      · exact fun heq => absurd heq hc

/-- A text of these characters reaches the reader of decimals as it is. -/
theorem readDouble_signed {body : Text} (hbody : ∀ c ∈ body, c ∈ characters)
    (hsign : Numeral.splitSign body = (false, body)) :
    Numeral.readDouble (signed negative body)
      = match Numeral.readDecimal? negative body with
        | some x => .ok x
        | none => .error (.notDouble (signed negative body)) := by
  have hplain : ∀ c ∈ signed negative body, Text.isBlank c = false
      ∧ Numeral.asciiDigit c = c ∧ c ≠ '_' ∧ c.toLower = c ∧ c ≠ 'n' := by
    intro c hc
    refine plain_of_mem_characters c ?_
    cases negative with
    | false => exact hbody c hc
    | true =>
        rcases List.mem_cons.mp hc with rfl | hc
        · decide
        · exact hbody c hc
  have htrim : Text.trim (signed negative body) = signed negative body := by
    unfold Text.trim Text.trimEnd Text.trimStart
    rw [dropWhile_of_forall fun c hc => (hplain c hc).1,
      dropWhile_of_forall fun c hc => (hplain c (List.mem_reverse.mp hc)).1,
      List.reverse_reverse]
  have hascii : (signed negative body).map Numeral.asciiDigit
      = signed negative body :=
    (List.map_congr_left fun c hc => (hplain c hc).2.1).trans (List.map_id _)
  have hseparate : Numeral.underscoresSeparate Text.isAsciiDigit false
      (signed negative body) = true :=
    underscoresSeparate_of_forall fun c hc => (hplain c hc).2.2.1
  have hfilter : (signed negative body).filter (· != '_')
      = signed negative body :=
    List.filter_eq_self.mpr fun c hc => bne_iff_ne.mpr (hplain c hc).2.2.1
  have hsplit : Numeral.splitSign (signed negative body)
      = (negative, body) := by
    cases negative with
    | false => exact hsign
    | true => rfl
  have hlower : body.map Char.toLower = body := by
    refine (List.map_congr_left fun c hc => ?_).trans (List.map_id _)
    exact (plain_of_mem_characters c (hbody c hc)).2.2.2.1
  have hname : ∀ word : Text, 'n' ∈ word → body ≠ word := by
    rintro word hn rfl
    exact absurd (hbody 'n' hn) (by decide)
  have hinfinite : ¬ (body = "inf".toList ∨ body = "infinity".toList) := by
    rintro (h | h)
    · exact hname "inf".toList (by decide) h
    · exact hname "infinity".toList (by decide) h
  have hnan : ¬ body = "nan".toList := hname "nan".toList (by decide)
  unfold Numeral.readDouble
  rw [htrim, hascii]
  dsimp only
  rw [hseparate, hfilter, hsplit]
  dsimp only
  rw [hlower, if_neg (by simp), if_neg hinfinite]
  exact if_neg hnan

theorem mem_characters_of_mem_text (hd : d.WellFormed) :
    ∀ c ∈ d.text, c ∈ characters := by
  unfold text fractionText exponentText
  refine List.forall_mem_append.mpr ⟨?_, List.forall_mem_append.mpr ⟨?_, ?_⟩⟩
  · exact fun c hc => mem_characters_of_isDigit (hd.whole c hc)
  · cases hf : d.fraction with
    | none => exact fun c hc => absurd hc List.not_mem_nil
    | some f =>
        refine List.forall_mem_cons.mpr ⟨by decide, fun c hc => ?_⟩
        exact mem_characters_of_isDigit (hd.fraction f hf c hc)
  · cases he : d.exponent with
    | none => exact fun c hc => absurd hc List.not_mem_nil
    | some e =>
        refine List.forall_mem_cons.mpr ⟨by decide,
          List.forall_mem_cons.mpr ⟨?_, fun c hc => ?_⟩⟩
        · split <;> decide
        · exact mem_characters_of_isDigit ((hd.exponent e he).2 c hc)

theorem exists_text_eq_cons (hd : d.WellFormed) :
    ∃ c t, d.text = c :: t ∧ c.isDigit = true := by
  obtain ⟨c, t, hwhole⟩ := List.exists_cons_of_ne_nil hd.whole_ne
  refine ⟨c, t ++ (d.fractionText ++ d.exponentText), ?_, ?_⟩
  · rw [text, hwhole, List.cons_append]
  · exact hd.whole c (hwhole ▸ List.mem_cons_self)

/-- The reader of numerals takes the same number from a decimal. -/
theorem readDouble_text (hd : d.WellFormed) :
    Numeral.readDouble (signed negative d.text) = .ok (d.value negative) := by
  have hsign : Numeral.splitSign d.text = (false, d.text) := by
    obtain ⟨c, t, ht, hc⟩ := exists_text_eq_cons hd
    rw [ht, Numeral.splitSign]
    · exact fun _ h => ne_of_isDigit hc '-' rfl (List.cons.inj h).1
    · exact fun _ h => ne_of_isDigit hc '+' rfl (List.cons.inj h).1
  rw [readDouble_signed (mem_characters_of_mem_text hd) hsign,
    readDecimal?_text hd]

/-- And the reader of JSON does. -/
theorem readScalar_text (hd : d.WellFormed) (hjson : d.IsJson)
    (hrest : Follows rest) :
    readScalar (signed negative d.text ++ rest)
      = .ok (.float (d.value negative), rest) := by
  obtain ⟨c, t, ht, hc⟩ := exists_text_eq_cons hd
  obtain ⟨hpositive, hnegative⟩ := readScalar_of_isDigit (t := t ++ rest) hc
  have hread : ∀ start, readNumber start negative (d.text ++ rest)
      = .ok (.float (d.value negative), rest) :=
    readNumber_text hd hjson hrest
  rw [ht] at hread ⊢
  cases negative with
  | false => exact hpositive.trans (hread _)
  | true => exact hnegative.trans (hread _)

end Decimal

-- ======================================================= shortest texts

open Decimal (signed characters mem_characters_of_isDigit)

theorem isDigit_of_forall_eq (hs : ∀ c ∈ s, c = '0') :
    ∀ c ∈ s, c.isDigit = true := by
  intro c hc
  rw [hs c hc]
  rfl

theorem isDigit_of_mem_replicate {n : Nat} (hc : c ∈ List.replicate n '0') :
    c.isDigit = true :=
  isDigit_of_forall_eq (fun _ hc => List.eq_of_mem_replicate hc) c hc

theorem isDigit_of_mem_ofNatPadded {width n : Nat}
    (hc : c ∈ Text.ofNatPadded width n) : c.isDigit = true := by
  rcases List.mem_append.mp hc with hc | hc
  · exact isDigit_of_mem_replicate hc
  · exact isDigit_of_mem_ofNat hc

/-- The digits of a shortest text are what is left of the digits of some
number without the zeros at its end. -/
theorem exists_digits_shortest (m : Nat) (e : Int) :
    ∃ n, (Double.shortest m e).digits
      = (Text.ofNat n).rdropWhile (· == '0') := ⟨_, rfl⟩

/-- They may be none at all, but there is never a zero in front. -/
theorem digits_shortest (m : Nat) (e : Int) :
    (∀ c ∈ (Double.shortest m e).digits, c.isDigit = true)
      ∧ ((Double.shortest m e).digits = []
        ∨ ∃ c t, (Double.shortest m e).digits = c :: t ∧ c ≠ '0') := by
  obtain ⟨n, hn⟩ := exists_digits_shortest m e
  have hkept := List.rdropWhile_prefix (· == '0') (l := Text.ofNat n)
  rw [hn]
  refine ⟨fun c hc => isDigit_of_mem_ofNat (hkept.subset hc), ?_⟩
  rcases Nat.eq_zero_or_pos n with rfl | hpos
  · exact .inl rfl
  · obtain ⟨c, t, ht, hc⟩ := exists_ofNat_eq_cons hpos
    rw [ht] at hkept ⊢
    rcases List.prefix_cons_iff.mp hkept with hnil | ⟨t', ht', -⟩
    · exact .inl hnil
    · exact .inr ⟨c, t', ht', hc⟩

variable {negative : Bool} {m : Nat} {e : Int}

theorem IsWhole.ne_nil (h : IsWhole s) : s ≠ [] := by
  rcases h with rfl | ⟨c, t, rfl, -⟩
  · exact List.cons_ne_nil _ _
  · exact List.cons_ne_nil _ _

/-- A decimal with a point and without an exponent. -/
def Decimal.positional (whole fraction : Text) : Decimal :=
  ⟨whole, some fraction, none⟩

theorem Decimal.text_positional {whole fraction : Text} :
    (positional whole fraction).text = whole ++ '.' :: fraction :=
  congrArg (whole ++ '.' :: ·) (List.append_nil fraction)

theorem Decimal.wellFormed_positional {whole fraction : Text}
    (hwhole : ∀ c ∈ whole, c.isDigit = true) (hne : whole ≠ [])
    (hfraction : ∀ c ∈ fraction, c.isDigit = true) :
    (positional whole fraction).WellFormed where
  whole := hwhole
  whole_ne := hne
  fraction f hf := by
    cases hf
    exact hfraction
  exponent e he := by cases he

/-- Digits on both sides of a point make a decimal that JSON allows. -/
theorem exists_decimal_of_positional (whole fraction : Text)
    (hdigits : ∀ c ∈ whole, c.isDigit = true) (hwhole : IsWhole whole)
    (hfraction : ∀ c ∈ fraction, c.isDigit = true) (hne : fraction ≠ []) :
    ∃ d : Decimal, whole ++ '.' :: fraction = d.text ∧ d.WellFormed
      ∧ d.IsJson ∧ d.digits = whole ++ fraction
      ∧ d.power = -fraction.length := by
  refine ⟨.positional whole fraction, Decimal.text_positional.symm,
    Decimal.wellFormed_positional hdigits hwhole.ne_nil hfraction,
    ⟨hwhole, fun h => hne (Option.some.inj h), .inl ?_⟩, rfl, ?_⟩
  · exact Option.some_ne_none fraction
  · exact Int.zero_sub _

/-- So do one digit, the others after a point, and an exponent. -/
theorem exists_decimal_of_scientific {a : Char} {others exponent : Text}
    (minus : Bool) (hdigit : a.isDigit = true) (ha : a ≠ '0')
    (hothers : ∀ c ∈ others, c.isDigit = true) (hne : exponent ≠ [])
    (hexponent : ∀ c ∈ exponent, c.isDigit = true) :
    ∃ d : Decimal, (match a :: others with
        | [] => []
        | [a] => [a]
        | a :: rest => a :: '.' :: rest)
        ++ 'e' :: (if minus then '-' else '+') :: exponent = d.text
      ∧ d.WellFormed ∧ d.IsJson ∧ d.digits = a :: others
      ∧ d.power = (if minus then -(Nat.ofDigitChars 10 exponent 0 : Int)
          else (Nat.ofDigitChars 10 exponent 0 : Int)) - others.length := by
  have hscale : ∀ e, some (minus, exponent) = some e →
      e.2 ≠ [] ∧ ∀ c ∈ e.2, c.isDigit = true := by
    rintro e he
    cases he
    exact ⟨hne, hexponent⟩
  have hwell : ∀ fraction : Option Text,
      (∀ f, fraction = some f → ∀ c ∈ f, c.isDigit = true) →
      (Decimal.mk [a] fraction (some (minus, exponent))).WellFormed :=
    fun fraction hfraction => ⟨List.forall_mem_singleton.mpr hdigit,
      List.cons_ne_nil _ _, hfraction, hscale⟩
  have hjson : ∀ fraction : Option Text, fraction ≠ some [] →
      (Decimal.mk [a] fraction (some (minus, exponent))).IsJson :=
    fun fraction hfraction =>
      ⟨.inr ⟨a, [], rfl, ha⟩, hfraction, .inr (Option.some_ne_none _)⟩
  cases others with
  | nil =>
      exact ⟨⟨[a], none, _⟩, rfl, hwell _ nofun, hjson _ nofun, rfl, rfl⟩
  | cons b others =>
      refine ⟨⟨[a], some (b :: others), _⟩, rfl, hwell _ ?_, hjson _ nofun,
        rfl, rfl⟩
      rintro f hf
      cases hf
      exact hothers

theorem ofDigitChars_ofNatPadded (width n : Nat) :
    Nat.ofDigitChars 10 (Text.ofNatPadded width n) 0 = n := by
  unfold Text.ofNatPadded
  rw [Nat.ofDigitChars_append, Nat.ofDigitChars_replicate_zero, Nat.mul_zero]
  exact Nat.ofDigitChars_toDigits (by decide) (by decide)

/-- Digits without a zero in front are written as a decimal that JSON
allows and that shows them, wherever the point stands. -/
theorem exists_decimal_toText {digits : Double.Digits}
    (hdigits : ∀ c ∈ digits.digits, c.isDigit = true) {a : Char} {t : Text}
    (hlead : digits.digits = a :: t) (ha : a ≠ '0') :
    ∃ d : Decimal, digits.toText = d.text ∧ d.WellFormed ∧ d.IsJson
      ∧ d.Shows digits := by
  obtain ⟨digits, point⟩ := digits
  dsimp only at hdigits hlead
  have hpadded : ∀ n, ∀ c ∈ List.replicate n '0' ++ digits, c.isDigit = true :=
    fun n => List.forall_mem_append.mpr
      ⟨fun c hc => isDigit_of_mem_replicate hc, hdigits⟩
  unfold Double.Digits.toText
  dsimp only
  split
  case isTrue hrange =>
    split
    case isTrue hpoint =>
      -- after a zero and perhaps more zeros
      obtain ⟨d, htext, hwell, hjson, hshown, hpower⟩ :=
        exists_decimal_of_positional ['0']
          (List.replicate (-point).toNat '0' ++ digits)
          (List.forall_mem_singleton.mpr rfl) (.inl rfl) (hpadded _)
          (List.append_ne_nil_of_right_ne_nil _
            (hlead ▸ List.cons_ne_nil _ _))
      refine ⟨d, htext, hwell, hjson, (-point).toNat + 1, 0, ?_, ?_⟩
      · rw [hshown, List.replicate_zero, List.append_nil]
        rfl
      · rw [hpower, List.length_append, List.length_replicate]
        dsimp only
        omega
    case isFalse hpoint =>
      split
      case isTrue hinside =>
        -- between two of the digits
        obtain ⟨k, hk⟩ : ∃ k, point.toNat = k + 1 :=
          Nat.exists_eq_add_one_of_ne_zero (by omega)
        obtain ⟨d, htext, hwell, hjson, hshown, hpower⟩ :=
          exists_decimal_of_positional (digits.take point.toNat)
            (digits.drop point.toNat)
            (fun c hc => hdigits c (List.mem_of_mem_take hc))
            (.inr ⟨a, t.take k, by rw [hlead, hk, List.take_succ_cons], ha⟩)
            (fun c hc => hdigits c (List.mem_of_mem_drop hc)) (by
              rw [ne_eq, List.drop_eq_nil_iff]
              omega)
        refine ⟨d, htext, hwell, hjson, 0, 0, ?_, ?_⟩
        · rw [hshown, List.take_append_drop, List.replicate_zero,
            List.append_nil]
          rfl
        · rw [hpower, List.length_drop]
          dsimp only
          omega
      case isFalse hinside =>
        -- after the digits and perhaps more zeros
        obtain ⟨d, htext, hwell, hjson, hshown, hpower⟩ :=
          exists_decimal_of_positional
            (digits ++ List.replicate (point - digits.length).toNat '0') ['0']
            (List.forall_mem_append.mpr
              ⟨hdigits, fun c hc => isDigit_of_mem_replicate hc⟩)
            (.inr ⟨a, _, by rw [hlead, List.cons_append], ha⟩)
            (List.forall_mem_singleton.mpr rfl) (List.cons_ne_nil _ _)
        refine ⟨d, htext, hwell, hjson, 0,
          (point - digits.length).toNat + 1, ?_, ?_⟩
        · rw [hshown, List.replicate_succ', List.append_assoc]
          rfl
        · rw [hpower, List.length_singleton]
          dsimp only
          omega
  case isFalse hrange =>
    -- after the first digit, with an exponent
    subst hlead
    obtain ⟨hdigit, hothers⟩ := List.forall_mem_cons.mp hdigits
    have hsign : (if point - 1 < 0 then '-' else '+')
        = if decide (point - 1 < 0) then '-' else '+' := by simp
    have hexponent : Text.ofNatPadded 2 (point - 1).natAbs ≠ [] :=
      List.append_ne_nil_of_right_ne_nil _ Nat.toDigits_ne_nil
    rw [hsign]
    obtain ⟨d, htext, hwell, hjson, hshown, hpower⟩ :=
      exists_decimal_of_scientific (decide (point - 1 < 0)) hdigit ha hothers
        hexponent fun c hc => isDigit_of_mem_ofNatPadded hc
    refine ⟨d, htext, hwell, hjson, 0, 0, ?_, ?_⟩
    · rw [hshown, List.replicate_zero, List.append_nil]
      rfl
    · rw [hpower, ofDigitChars_ofNatPadded, List.length_cons]
      simp only [decide_eq_true_eq]
      split
      all_goals omega

theorem ofParts_zeros {whole fraction : Text} (scale : Int)
    (hwhole : ∀ c ∈ whole, c = '0') (hfraction : ∀ c ∈ fraction, c = '0') :
    Numeral.ofParts negative whole fraction scale
      = .finite negative 0 Double.minExponent := by
  have hzeros : ∀ s : Text, (∀ c ∈ s, c = '0') →
      Nat.ofDigitChars 10 s 0 = 0 := by
    intro s hs
    induction s with
    | nil => rfl
    | cons c s ih =>
        obtain ⟨hc, hrest⟩ := List.forall_mem_cons.mp hs
        subst hc
        exact ih hrest
  have hall := List.forall_mem_append.mpr ⟨hwhole, hfraction⟩
  unfold Numeral.ofParts
  rw [digitsValue?_of_isDigit (isDigit_of_forall_eq hall), hzeros _ hall]
  exact if_pos rfl

/-- Without any digit what is written is zero, or no number. -/
theorem readDouble_of_nil {digits : Double.Digits}
    (hnil : digits.digits = []) {x : Double}
    (hx : Numeral.readDouble (signed negative digits.toText) = .ok x) :
    x = .finite negative 0 Double.minExponent := by
  obtain ⟨digits, point⟩ := digits
  dsimp only at hnil
  subst hnil
  -- zeros on both sides of a point are read as zero
  have hzero : ∀ whole fraction : Text, whole ≠ [] → (∀ c ∈ whole, c = '0') →
      (∀ c ∈ fraction, c = '0') →
      Numeral.readDouble (signed negative (whole ++ '.' :: fraction)) = .ok x →
      x = .finite negative 0 Double.minExponent := by
    intro whole fraction hne hwhole hfraction hread
    have hd : (Decimal.positional whole fraction).WellFormed :=
      Decimal.wellFormed_positional (isDigit_of_forall_eq hwhole) hne
        (isDigit_of_forall_eq hfraction)
    rw [← Decimal.text_positional, Decimal.readDouble_text hd, Decimal.value,
      Decimal.positional, Option.getD_some, ofParts_zeros _ hwhole hfraction]
      at hread
    exact (Except.ok.inj hread).symm
  unfold Double.Digits.toText at hx
  dsimp only at hx
  split at hx
  case isTrue hrange =>
    split at hx
    case isTrue hpoint =>
      rw [List.append_nil] at hx
      exact hzero ['0'] (List.replicate (-point).toNat '0') (List.cons_ne_nil _ _)
        (List.forall_mem_singleton.mpr rfl)
        (fun c hc => List.eq_of_mem_replicate hc) hx
    case isFalse hpoint =>
      rw [if_neg (by simp; omega)] at hx
      refine hzero (List.replicate (point - 0).toNat '0') ['0'] ?_
        (fun c hc => List.eq_of_mem_replicate hc)
        (List.forall_mem_singleton.mpr rfl) hx
      rw [ne_eq, List.replicate_eq_nil_iff]
      omega
  case isFalse hrange =>
    -- there are no digits before the exponent, so it is no number
    rw [Decimal.readDouble_signed ?_ rfl] at hx
    · cases hx
    · refine List.forall_mem_cons.mpr ⟨by decide, List.forall_mem_cons.mpr
        ⟨?_, fun c hc => ?_⟩⟩
      · split <;> decide
      · exact mem_characters_of_isDigit (isDigit_of_mem_ofNatPadded hc)

/-- A finite number that is read back is written as a decimal that JSON
allows. -/
theorem exists_decimal (hx : (Double.finite negative m e).ReadsBack) :
    ∃ d : Decimal, (Double.finite negative m e).toText = signed negative d.text
      ∧ d.WellFormed ∧ d.IsJson := by
  have htext : (Double.finite negative m e).toText
      = signed negative (if m = 0 then "0.0".toList
          else (Double.shortest m e).toText) := rfl
  rw [Double.ReadsBack, htext] at hx
  rw [htext]
  by_cases hm : m = 0
  · rw [if_pos hm]
    have hzero : ∀ c ∈ ['0'], c.isDigit = true := List.forall_mem_singleton.mpr rfl
    obtain ⟨d, hd, hwell, hjson, -⟩ := exists_decimal_of_positional ['0'] ['0']
      hzero (.inl rfl) hzero (List.cons_ne_nil _ _)
    exact ⟨d, congrArg (signed negative) hd, hwell, hjson⟩
  · rw [if_neg hm] at hx ⊢
    obtain ⟨hdigits, hnil | ⟨a, t, hlead, ha⟩⟩ := digits_shortest m e
    · -- what is read without digits is zero, but this is not
      have hzero := readDouble_of_nil hnil hx
      injection hzero with _ hm'
      exact absurd hm' hm
    · obtain ⟨d, hd, hwell, hjson, -⟩ := exists_decimal_toText hdigits hlead ha
      rw [hd]
      exact ⟨d, rfl, hwell, hjson⟩

/-- What is read from its shortest text as a numeral is read from its JSON
text. -/
theorem readScalar_writeDouble {x : Double} (hx : x.ReadsBack)
    (hrest : Follows rest) :
    readScalar (writeDouble x ++ rest) = .ok (.float x, rest) := by
  cases x with
  | nan => rfl
  | infinite negative => cases negative <;> rfl
  | finite negative m e =>
      obtain ⟨d, htext, hd, hjson⟩ := exists_decimal hx
      have hvalue : d.value negative = .finite negative m e := by
        rw [Double.ReadsBack, htext, Decimal.readDouble_text hd] at hx
        exact Except.ok.inj hx
      rw [writeDouble, htext, Decimal.readScalar_text hd hjson hrest, hvalue]
      · exact fun h => Double.noConfusion h
      · exact fun _ h => Double.noConfusion h

theorem begins_writeDouble {x : Double} (hx : x.ReadsBack) :
    ∃ c t, writeDouble x = c :: t ∧ isSpace c = false
      ∧ c ∉ [']', '\uFEFF', '\x22', '[', '\x7b'] := by
  cases x with
  | nan => exact ⟨_, _, rfl, rfl, by decide⟩
  | infinite negative =>
      cases negative with
      | true => exact ⟨_, _, rfl, rfl, by decide⟩
      | false => exact ⟨_, _, rfl, rfl, by decide⟩
  | finite negative m e =>
      obtain ⟨d, htext, hd, -⟩ := exists_decimal hx
      have hwrite : writeDouble (.finite negative m e)
          = signed negative d.text := htext
      rw [hwrite]
      cases negative with
      | true => exact ⟨_, _, rfl, rfl, by decide⟩
      | false =>
          obtain ⟨c, t, ht, hc⟩ := Decimal.exists_text_eq_cons hd
          exact ⟨c, t, ht, begins_of_isDigit hc⟩

end Json

end AuditTrail
