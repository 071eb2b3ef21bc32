/-
Hashes inside JSON strings.

Redaction runs over JSON text and knows nothing of its strings and
escapes. It need not: as long as the 56 characters after the head of a
bcrypt hash stand for themselves (`BcryptComplete`), a text inside quotes
begins with the same hashes as the text itself, whatever follows the
closing quote (`hashAt?_escaped`). So the walk over the quoted text keeps
step with the walk over the text, and redaction commutes with quoting
(`replaceHashes_writeText`).
-/
import AuditTrail.Json.Writer
import AuditTrail.Proofs.Redaction.HashFree
import Mathlib.Data.List.Infix

namespace AuditTrail.Redaction

variable {f : HashFamily} {d s t w rest : Text} {c : Char}

-- ====================================================== escaped text

/-- Whether a character stands for itself in a JSON string: it is no quote,
no backslash and no control character. -/
def isPlain (c : Char) : Bool :=
  c != '\x22' && c != '\\' && decide (0x20 ≤ c.toNat)

/-- A text between the quotes of a JSON string. -/
def escaped (s : Text) : Text := s.flatMap (Json.escapedChar false)

theorem escaped_cons (c : Char) (s : Text) :
    escaped (c :: s) = Json.escapedChar false c ++ escaped s := rfl

theorem escaped_append (s t : Text) :
    escaped (s ++ t) = escaped s ++ escaped t := List.flatMap_append

theorem writeText_eq (s rest : Text) :
    Json.writeText false s ++ rest
      = '\x22' :: (escaped s ++ '\x22' :: rest) := by
  show '\x22' :: (escaped s ++ ['\x22']) ++ rest = _
  rw [List.cons_append, List.append_assoc]
  rfl

theorem escapedChar_of_isPlain (h : isPlain c = true) :
    Json.escapedChar false c = [c] := by
  have hparts : (c ≠ '\x22' ∧ c ≠ '\\') ∧ 0x20 ≤ c.toNat := by
    simpa [isPlain] using h
  obtain ⟨⟨hquote, hbackslash⟩, hlow⟩ := hparts
  have hcontrol : ∀ a : Char, a.toNat < 0x20 → c ≠ a := by
    rintro a ha rfl
    omega
  unfold Json.escapedChar
  rw [if_neg hquote, if_neg hbackslash, if_neg (hcontrol _ (by decide)),
    if_neg (hcontrol _ (by decide)), if_neg (hcontrol _ (by decide)),
    if_neg (hcontrol _ (by decide)), if_neg (hcontrol _ (by decide)),
    if_neg (Nat.not_lt.mpr hlow)]
  rfl

/-- The digits of numeric escapes. -/
def escapeDigits : Text := "0123456789abcdef".toList

/-- What stands behind the backslash of an escape. -/
def escapeLetters : Text := ['\x22', '\\', 'n', 'r', 't', 'f', 'b', 'u']

theorem mem_escapeDigits (width n : Nat) :
    ∀ a ∈ Text.hexPadded width n, a ∈ escapeDigits := by
  have hdigit : ∀ k < 16, Text.hexDigit k ∈ escapeDigits := by decide
  induction width generalizing n with
  | zero => exact fun _ h => absurd h List.not_mem_nil
  | succ width ih =>
      exact List.forall_mem_append.mpr ⟨ih _,
        List.forall_mem_singleton.mpr (hdigit _ (Nat.mod_lt _ (by decide)))⟩

/-- Any other character is escaped, by a letter and perhaps digits. -/
theorem exists_escape (h : isPlain c = false) :
    ∃ a u, Json.escapedChar false c = '\\' :: a :: u ∧ a ∈ escapeLetters
      ∧ ∀ b ∈ u, b ∈ escapeDigits := by
  by_cases hnamed : c ∈ ['\x22', '\\', '\n', '\r', '\t', '\x0C', '\x08']
  · simp only [List.mem_cons, List.not_mem_nil, or_false] at hnamed
    rcases hnamed with rfl | rfl | rfl | rfl | rfl | rfl | rfl
    all_goals
      exact ⟨_, _, rfl, by decide, fun _ h => absurd h List.not_mem_nil⟩
  · simp only [List.mem_cons, List.not_mem_nil, or_false, not_or] at hnamed
    obtain ⟨h1, h2, h3, h4, h5, h6, h7⟩ := hnamed
    have hlow : c.toNat < 0x20 := by
      simpa [isPlain, h1, h2] using h
    unfold Json.escapedChar
    rw [if_neg h1, if_neg h2, if_neg h3, if_neg h4, if_neg h5, if_neg h6,
      if_neg h7, if_pos hlow]
    exact ⟨_, _, rfl, by decide, mem_escapeDigits 4 c.toNat⟩

/-- Plain text is quoted as it is. -/
theorem escaped_of_isPlain (h : ∀ c ∈ s, isPlain c = true) :
    escaped s = s := by
  induction s with
  | nil => rfl
  | cons c s ih =>
      obtain ⟨hc, hs⟩ := List.forall_mem_cons.mp h
      rw [escaped_cons, escapedChar_of_isPlain hc, ih hs]
      rfl

/-- A quoted text begins with the same plain words as the text itself. -/
theorem isPrefix_escaped_iff (hw : ∀ c ∈ w, isPlain c = true) :
    w <+: escaped d ++ '\x22' :: rest ↔ w <+: d := by
  induction d generalizing w with
  | nil =>
      cases w with
      | nil => exact iff_of_true List.nil_prefix List.nil_prefix
      | cons a w =>
          refine iff_of_false (fun h => ?_) (fun h => ?_)
          · have ha : a = '\x22' := (List.cons_prefix_cons.mp h).1
            have hplain := hw a List.mem_cons_self
            rw [ha] at hplain
            exact absurd hplain (by decide)
          · exact absurd (List.prefix_nil.mp h) (List.cons_ne_nil _ _)
  | cons c d ih =>
      cases w with
      | nil => exact iff_of_true List.nil_prefix List.nil_prefix
      | cons a w =>
          obtain ⟨ha, hw'⟩ := List.forall_mem_cons.mp hw
          rw [escaped_cons]
          by_cases hc : isPlain c = true
          · rw [escapedChar_of_isPlain hc]
            show a :: w <+: c :: (escaped d ++ '\x22' :: rest) ↔ _
            rw [List.cons_prefix_cons, List.cons_prefix_cons, ih hw']
          · obtain ⟨b, u, hu, -⟩ := exists_escape (Bool.eq_false_iff.mpr hc)
            rw [hu]
            refine iff_of_false (fun h => ?_) (fun h => ?_)
            · have heq : a = '\\' := (List.cons_prefix_cons.mp h).1
              rw [heq] at ha
              exact absurd ha (by decide)
            · rw [(List.cons_prefix_cons.mp h).1] at ha
              exact hc ha

-- ================================================ hashes in quoted text

/-- After every head of a bcrypt hash stand 56 characters that need no
escape, in the text itself. -/
def BcryptComplete (s : Text) : Prop :=
  ∀ v t, isVersion v = true → '$' :: '2' :: v :: '$' :: t <:+ s →
    56 ≤ t.length ∧ ∀ c ∈ t.take 56, isPlain c = true

/-- The condition at the beginning of a text alone, so that it can be
checked. -/
def headComplete : Text → Bool
  | '$' :: '2' :: v :: '$' :: t =>
      !isVersion v || (decide (56 ≤ t.length) && (t.take 56).all isPlain)
  | _ => true

theorem bcryptComplete_iff :
    BcryptComplete s ↔ ∀ u ∈ s.tails, headComplete u = true := by
  constructor
  · intro hs u hu
    unfold headComplete
    split
    case h_2 => rfl
    case h_1 v t =>
      cases hv : isVersion v with
      | false => rfl
      | true =>
          obtain ⟨hlen, hplain⟩ := hs v t hv ((List.mem_tails _ s).mp hu)
          rw [decide_eq_true hlen, List.all_eq_true.mpr hplain]
          rfl
  · intro hs v t hv ht
    have hhead := hs _ ((List.mem_tails _ s).mpr ht)
    rw [headComplete, hv, Bool.not_true, Bool.false_or, Bool.and_eq_true,
      decide_eq_true_eq, List.all_eq_true] at hhead
    exact hhead

instance : DecidablePred BcryptComplete :=
  fun _ => decidable_of_iff _ bcryptComplete_iff.symm

theorem BcryptComplete.of_isSuffix (hd : BcryptComplete d) (h : s <:+ d) :
    BcryptComplete s :=
  fun v t hv ht => hd v t hv (ht.trans h)

theorem isPlain_of_isHashChar (h : isHashChar c = true) :
    isPlain c = true := by
  have hrange : 0x20 ≤ c.toNat ∧ c.toNat ≠ 0x22 ∧ c.toNat ≠ 0x5C := by
    have hle : ∀ a b : Char, a ≤ b → a.toNat ≤ b.toNat := fun _ _ h => h
    simp only [isHashChar, isBase64, Text.isAsciiDigit, Bool.or_eq_true,
      Bool.and_eq_true, beq_iff_eq, decide_eq_true_eq] at h
    rcases h with (((hdigit | hbase64) | rfl) | rfl) | rfl
    · have hnat := Text.toNat_of_isDigit hdigit
      omega
    · rcases hbase64 with (((hupper | hlower) | hdigit) | rfl) | rfl
      · have h1 := hle _ _ hupper.1
        have h2 := hle _ _ hupper.2
        simp only [Char.reduceToNat] at h1 h2
        omega
      · have h1 := hle _ _ hlower.1
        simp only [Char.reduceToNat] at h1
        omega
      · omega
      · decide
      · decide
    · decide
    · decide
    · decide
  obtain ⟨hlow, hquote, hbackslash⟩ := hrange
  have hne : ∀ a : Char, c.toNat ≠ a.toNat → c ≠ a := by
    rintro a ha rfl
    exact ha rfl
  simp [isPlain, hlow, hne '\x22' hquote, hne '\\' hbackslash]

theorem isPlain_of_isVersion {v : Char} (h : isVersion v = true) :
    ∀ c ∈ ['$', '2', v, '$'], isPlain c = true := by
  have hversion : isPlain v = true := by
    simp only [isVersion, Bool.or_eq_true, beq_iff_eq] at h
    rcases h with (rfl | rfl) | rfl
    · rfl
    · rfl
    · rfl
  simp only [List.forall_mem_cons]
  exact ⟨by decide, by decide, hversion, by decide,
    fun a ha => absurd ha List.not_mem_nil⟩

/-- Where a complete text begins with the head of a bcrypt hash, it begins
with a plain one. -/
theorem BcryptComplete.exists_plain (hd : BcryptComplete d) {v : Char}
    (hv : isVersion v = true) (h : ['$', '2', v, '$'] <+: d) :
    ∃ p, p <+: d ∧ p.length = 60 ∧ ∀ c ∈ p, isPlain c = true := by
  obtain ⟨t, rfl⟩ := h
  obtain ⟨hlen, hplain⟩ := hd v t hv (List.suffix_refl _)
  refine ⟨['$', '2', v, '$'] ++ t.take 56, ?_, ?_, ?_⟩
  · exact (List.prefix_append_right_inj _).mpr (List.take_prefix 56 t)
  · rw [List.length_append, List.length_take, Nat.min_eq_left hlen]
    rfl
  · exact List.forall_mem_append.mpr ⟨isPlain_of_isVersion hv, hplain⟩

/-- A hash at the beginning of a complete text is plain, be the text quoted
or not. -/
theorem isPlain_of_isPrefix (rest : Text) (hd : BcryptComplete d)
    (hw : w ∈ f.language) (h : w <+: d ∨ w <+: escaped d ++ '\x22' :: rest) :
    ∀ c ∈ w, isPlain c = true := by
  by_cases hf : f = .bcrypt
  · subst hf
    obtain ⟨v, t, hv, rfl, hlen, -⟩ := mem_bcrypt.mp hw
    have hhead : ['$', '2', v, '$'] <+: '$' :: '2' :: v :: '$' :: t := ⟨t, rfl⟩
    have hd' : ['$', '2', v, '$'] <+: d := by
      rcases h with h | h
      · exact hhead.trans h
      · exact (isPrefix_escaped_iff (isPlain_of_isVersion hv)).mp
          (hhead.trans h)
    obtain ⟨p, hp, hplen, hplain⟩ := hd.exists_plain hv hd'
    -- the plain hash and the other begin the same text and are as long
    have hlen' : ('$' :: '2' :: v :: '$' :: t).length = p.length := by
      simp [hlen, hplen]
    have hpre : '$' :: '2' :: v :: '$' :: t <+: p := by
      rcases h with h | h
      · exact List.prefix_of_prefix_length_le h hp (Nat.le_of_eq hlen')
      · exact List.prefix_of_prefix_length_le h
          ((isPrefix_escaped_iff hplain).mpr hp) (Nat.le_of_eq hlen')
    rw [hpre.eq_of_length hlen']
    exact hplain
  · exact fun c hc => isPlain_of_isHashChar (isHashChar_of_mem hf hw c hc)

/-- A complete text begins with the same hashes inside quotes, whatever
follows the closing one. -/
theorem hashAt?_escaped (hd : BcryptComplete d) (rest : Text) :
    hashAt? (escaped d ++ '\x22' :: rest) = hashAt? d := by
  refine hashAt?_congr fun f w hw => ⟨fun h => ?_, fun h => ?_⟩
  · exact (isPrefix_escaped_iff (isPlain_of_isPrefix rest hd hw (.inr h))).mp h
  · exact (isPrefix_escaped_iff (isPlain_of_isPrefix rest hd hw (.inl h))).mpr h

/-- Redaction commutes with the escapes of a string, up to its end. -/
theorem replaceHashes_escaped (hd : BcryptComplete d) (rest : Text) :
    replaceHashes (escaped d ++ '\x22' :: rest)
      = escaped (replaceHashes d) ++ '\x22' :: replaceHashes rest := by
  have hquote : replaceHashes ('\x22' :: rest) = '\x22' :: replaceHashes rest :=
    replaceHashes_cons (hashAt?_cons_of_ne (by decide))
  induction d using walk with
  | nil => exact hquote
  | hash f w s hw hat ih =>
      have hplain := isPlain_of_isPrefix rest hd hw
        (.inl (List.prefix_append w s))
      have hplaceholder : ∀ c ∈ hashPlaceholder, isPlain c = true :=
        List.all_eq_true.mp rfl
      have hat' := hashAt?_escaped hd rest
      rw [hat, escaped_append, escaped_of_isPlain hplain, List.append_assoc]
        at hat'
      rw [escaped_append, escaped_of_isPlain hplain, List.append_assoc,
        replaceHashes_append hat',
        ih (hd.of_isSuffix (List.suffix_append w s)),
        replaceHashes_append hat, escaped_append,
        escaped_of_isPlain hplaceholder, List.append_assoc]
  | kept c s hat ih =>
      have ih' := ih (hd.of_isSuffix (List.suffix_cons c s))
      rw [replaceHashes_cons hat, escaped_cons, escaped_cons,
        List.append_assoc, List.append_assoc]
      by_cases hc : isPlain c = true
      · have hat' := hashAt?_escaped hd rest
        rw [hat, escaped_cons, escapedChar_of_isPlain hc, List.append_assoc,
          List.singleton_append] at hat'
        rw [escapedChar_of_isPlain hc, List.singleton_append,
          List.singleton_append, replaceHashes_cons hat', ih']
      · obtain ⟨a, u, hu, ha, hdigits⟩ :=
          exists_escape (Bool.eq_false_iff.mpr hc)
        have hdollar : '$' ∉ '\\' :: a :: u := by
          rw [List.mem_cons, List.mem_cons, not_or, not_or]
          refine ⟨by decide, ?_, fun hmem => ?_⟩
          · rintro rfl
            exact absurd ha (by decide)
          · exact absurd (hdigits _ hmem) (by decide)
        rw [hu, replaceHashes_append_of_dollar_notMem hdollar, ih']

/-- Redaction commutes with quoting. -/
theorem replaceHashes_writeText (hd : BcryptComplete d) (rest : Text) :
    replaceHashes (Json.writeText false d ++ rest)
      = Json.writeText false (replaceHashes d) ++ replaceHashes rest := by
  rw [writeText_eq, writeText_eq,
    replaceHashes_cons (hashAt?_cons_of_ne (by decide)),
    replaceHashes_escaped hd]

end AuditTrail.Redaction
