/-
The scanner of each family decides its language: `afterHash_recognises`
puts the parts of `Language.lean` together in the order of the pattern.
From there on hashes are words, and the scanner's answer at the beginning
of a text depends on nothing but the words that the text begins with.

The end of the file collects what distinguishes the families for the
proofs that follow: every hash begins with a dollar sign and has eight
characters or more, and outside bcrypt it consists of a few plain
characters only.
-/
import AuditTrail.Proofs.Redaction.Language

namespace AuditTrail.Redaction

open scoped Computability

variable {f : HashFamily} {s t w : Text}

-- ===================================================== whole families

theorem sequence_cons (l : Language Char) (ls : List (Language Char)) :
    sequence (l :: ls) = l * sequence ls := by
  rw [sequence, List.prod_cons, sequence]

theorem sequence_singleton (l : Language Char) : sequence [l] = l := by
  rw [sequence, List.prod_singleton]

/-- A literal before something else decides how the whole goes on. -/
theorem exists_append_of_literal_mul {l : Language Char}
    (h : w ∈ literal s * l) : ∃ u, w = s ++ u := by
  obtain ⟨-, rfl, u, -, rfl⟩ := Language.mem_mul.mp h
  exact ⟨u, rfl⟩

/-- What begins with a dollar sign closes the part before it. -/
theorem atDollar_append {u : Text} {l : Language Char}
    (h : w ∈ literal ('$' :: u) * l) (t : Text) : AtDollar (w ++ t) := by
  obtain ⟨v, rfl⟩ := exists_append_of_literal_mul h
  exact ⟨u ++ v ++ t, rfl⟩

theorem afterBcrypt_cons (v : Char) (t : Text) :
    afterBcrypt ('$' :: '2' :: v :: '$' :: t)
      = if isVersion v = true then afterExactly (· != '\n') 56 t
        else none := by
  have hversion : (isVersion v = true) ↔ (v = 'a' ∨ v = 'y' ∨ v = 'b') := by
    simp [isVersion, or_assoc]
  by_cases hv : isVersion v = true
  · rw [if_pos hv]
    exact if_pos (hversion.mp hv)
  · rw [if_neg hv]
    exact if_neg fun h => hv (hversion.mpr h)

/-- A bcrypt hash, its parts named. -/
theorem mem_bcrypt :
    w ∈ HashFamily.language .bcrypt
      ↔ ∃ v t, isVersion v = true ∧ w = '$' :: '2' :: v :: '$' :: t
          ∧ t.length = 56 ∧ ∀ c ∈ t, c ≠ '\n' := by
  show w ∈ sequence _ ↔ _
  rw [sequence_cons, sequence_cons, sequence_cons, sequence_singleton]
  simp only [Language.mem_mul, mem_oneOf_pow]
  constructor
  · rintro ⟨-, rfl, -, ⟨-, ⟨v, hv, rfl⟩, -, ⟨-, rfl, t, ⟨hlen, hall⟩, rfl⟩,
      rfl⟩, rfl⟩
    exact ⟨v, t, hv, rfl, hlen, fun c hc => by simpa using hall c hc⟩
  · rintro ⟨v, t, hv, rfl, hlen, hall⟩
    exact ⟨['$', '2'], rfl, v :: '$' :: t, ⟨[v], ⟨v, hv, rfl⟩, '$' :: t,
      ⟨['$'], rfl, t, ⟨hlen, fun c hc => by simpa using hall c hc⟩, rfl⟩,
      rfl⟩, rfl⟩

/-- So many characters of a class are taken if they are there. -/
theorem afterExactly_eq_some_iff {p : Char → Bool} {n : Nat} {r : Text} :
    afterExactly p n s = some r
      ↔ ∃ w, s = w ++ r ∧ w.length = n ∧ ∀ c ∈ w, p c = true := by
  induction n generalizing s with
  | zero =>
      rw [afterExactly, Option.some.injEq]
      constructor
      · rintro rfl
        exact ⟨[], rfl, rfl, by simp⟩
      · rintro ⟨w, rfl, hlen, -⟩
        rw [List.length_eq_zero_iff.mp hlen, List.nil_append]
  | succ n ih =>
      cases s with
      | nil =>
          constructor
          · intro h
            cases h
          · rintro ⟨w, heq, hlen, -⟩
            rw [(List.append_eq_nil_iff.mp heq.symm).1] at hlen
            cases hlen
      | cons c s =>
          rw [afterExactly]
          constructor
          · intro h
            split at h
            case isFalse => cases h
            case isTrue hc =>
              obtain ⟨w, rfl, hlen, hall⟩ := ih.mp h
              exact ⟨c :: w, rfl, by simp [hlen], by simpa using ⟨hc, hall⟩⟩
          · rintro ⟨w, heq, hlen, hall⟩
            cases w with
            | nil => cases hlen
            | cons d w =>
                obtain ⟨rfl, rfl⟩ := List.cons.inj heq
                obtain ⟨hc, hall'⟩ := List.forall_mem_cons.mp hall
                rw [if_pos hc]
                exact ih.mpr ⟨w, rfl, by simpa using hlen, hall'⟩

theorem afterBcrypt_recognises :
    Recognises afterBcrypt (HashFamily.language .bcrypt) where
  sound := by
    intro s r h
    unfold afterBcrypt at h
    split at h
    case h_2 => cases h
    case h_1 v rest =>
      split at h
      case isFalse => cases h
      case isTrue hv =>
        obtain ⟨t, rfl, hlen, hall⟩ := afterExactly_eq_some_iff.mp h
        refine ⟨'$' :: '2' :: v :: '$' :: t, mem_bcrypt.mpr
          ⟨v, t, ?_, rfl, hlen, fun c hc => by simpa using hall c hc⟩, rfl⟩
        rcases hv with rfl | rfl | rfl
        · rfl
        · rfl
        · rfl
  longest := by
    intro w hw u
    obtain ⟨v, t, hv, rfl, hlen, hall⟩ := mem_bcrypt.mp hw
    refine ⟨u, ?_, Nat.le_refl _⟩
    show afterBcrypt ('$' :: '2' :: v :: '$' :: (t ++ u)) = some u
    rw [afterBcrypt_cons, if_pos hv]
    exact afterExactly_eq_some_iff.mpr
      ⟨t, rfl, hlen, fun c hc => by simpa using hall c hc⟩

/-- A salt, a dollar sign and a digest. -/
theorem afterSaltAndDigest_recognises :
    Recognises afterSaltAndDigest
      (sequence [base64, literal ['$'], base64]) := by
  rw [sequence_cons, sequence_cons, sequence_singleton]
  exact afterBase64_recognisesBefore.bindLongest
    ((afterChar_recognises '$').bindLongest afterBase64_recognises
      fun _ _ _ => trivial)
    fun _ hw t => atDollar_append hw t

theorem afterPbkdf2_recognises :
    Recognises afterPbkdf2 (HashFamily.language .pbkdf2) := by
  have dollar := afterChar_recognises '$'
  show Recognises _ (sequence _)
  rw [sequence_cons, sequence_cons, sequence_cons, sequence_cons,
    sequence_cons]
  exact dollar.bindLongest (digits_recognises.bindLongest
    (dollar.bindLongest (digits_recognises.bindLongest
      (dollar.bindLongest afterSaltAndDigest_recognises
        fun _ _ _ => trivial)
      fun _ hw t => atDollar_append hw t)
      fun _ _ _ => trivial)
    fun _ hw t => atDollar_append hw t)
    fun _ _ _ => trivial

/-- The name of a variant, which a dollar sign must close. -/
theorem afterVariant_recognises :
    RecognisesBefore AtDollar afterVariant
      (literal "id".toList + literal ['i'] + literal ['d']) where
  sound := by
    intro s r h
    unfold afterVariant at h
    split at h
    · injection h with hr
      exact ⟨['i', 'd'], Or.inl (Or.inl rfl), by rw [← hr]; rfl⟩
    · injection h with hr
      exact ⟨['i'], Or.inl (Or.inr rfl), by rw [← hr]; rfl⟩
    · injection h with hr
      exact ⟨['d'], Or.inr rfl, by rw [← hr]; rfl⟩
    · cases h
  exact := by
    rintro w t hw ⟨u, rfl⟩
    rcases hw with (rfl | rfl) | rfl
    · rfl
    · rfl
    · rfl

theorem afterParameters_recognises :
    RecognisesBefore AtDollar afterParameters (oneOrMore parameter) :=
  afterParameter_recognises.bind dropParameters_recognises
    fun _ hw _ ht => kstar_parameter_append hw ht.afterParameter

/-- The parameters of an argon2 hash are read in one step. -/
theorem afterArgon2_eq :
    afterArgon2 = fun s => Text.after? "$argon2".toList s >>= fun s =>
      afterVariant s >>= fun s => Text.after? "$v=".toList s >>= fun s =>
      afterSome Text.isDigit s >>= fun s => afterChar '$' s >>= fun s =>
      afterParameters s >>= fun s => afterChar '$' s >>= fun s =>
      afterSaltAndDigest s := by
  have fold : ∀ s : Text,
      (afterParameter s >>= fun s =>
        afterChar '$' (dropParameters s.length s) >>= afterSaltAndDigest)
      = afterParameters s >>= fun s =>
        afterChar '$' s >>= afterSaltAndDigest := by
    intro s
    unfold afterParameters
    cases afterParameter s with
    | none => rfl
    | some s => rfl
  unfold afterArgon2
  simp only [fold]

theorem afterArgon2_recognises :
    Recognises afterArgon2 (HashFamily.language .argon2) := by
  have dollar := afterChar_recognises '$'
  rw [afterArgon2_eq]
  show Recognises _ (sequence _)
  rw [sequence_cons, sequence_cons, sequence_cons, sequence_cons,
    sequence_cons, sequence_cons, sequence_cons]
  exact (after?_recognises _).bindLongest
    (afterVariant_recognises.bindLongest
      ((after?_recognises _).bindLongest
        (digits_recognises.bindLongest
          (dollar.bindLongest
            (afterParameters_recognises.bindLongest
              (dollar.bindLongest afterSaltAndDigest_recognises
                fun _ _ _ => trivial)
              fun _ hw t => atDollar_append hw t)
            fun _ _ _ => trivial)
          fun _ hw t => atDollar_append hw t)
        fun _ _ _ => trivial)
      fun _ hw t => atDollar_append hw t)
    fun _ _ _ => trivial

/-- The scanner of a family takes the longest hash of the family, and
nothing else. -/
theorem afterHash_recognises (f : HashFamily) :
    Recognises (afterHash f) f.language := by
  cases f with
  | bcrypt => exact afterBcrypt_recognises
  | pbkdf2 => exact afterPbkdf2_recognises
  | argon2 => exact afterArgon2_recognises

-- ============================================== hashes at the beginning

/-- The length found is the greatest length of a hash of the family that
the text begins with. -/
theorem hashLength?_eq_some_iff {n : Nat} :
    hashLength? f s = some n
      ↔ (∃ w ∈ f.language, w <+: s ∧ w.length = n)
        ∧ ∀ w ∈ f.language, w <+: s → w.length ≤ n := by
  have hf := afterHash_recognises f
  unfold hashLength?
  rw [Option.map_eq_some_iff]
  constructor
  · rintro ⟨r, hr, rfl⟩
    obtain ⟨w, hw, hs⟩ := hf.sound hr
    have hlen : s.length = w.length + r.length := by
      rw [hs, List.length_append]
    refine ⟨⟨w, hw, ⟨r, hs.symm⟩, by omega⟩, ?_⟩
    rintro w' hw' ⟨t, rfl⟩
    obtain ⟨r', hr', hle⟩ := hf.longest hw' t
    rw [hr] at hr'
    injection hr' with hrr
    subst hrr
    rw [List.length_append] at hlen ⊢
    omega
  · rintro ⟨⟨w, hw, ⟨t, rfl⟩, rfl⟩, hmax⟩
    obtain ⟨r, hr, hle⟩ := hf.longest hw t
    obtain ⟨w', hw', hs⟩ := hf.sound hr
    have hlen := congrArg List.length hs
    have := hmax w' hw' ⟨r, hs.symm⟩
    simp only [List.length_append] at hlen
    refine ⟨r, hr, ?_⟩
    rw [List.length_append]
    omega

/-- Nothing is found exactly where no hash begins. -/
theorem hashLength?_eq_none_iff :
    hashLength? f s = none ↔ ∀ w ∈ f.language, ¬ w <+: s := by
  have hf := afterHash_recognises f
  unfold hashLength?
  rw [Option.map_eq_none_iff]
  constructor
  · rintro h w hw ⟨t, rfl⟩
    obtain ⟨r, hr, -⟩ := hf.longest hw t
    rw [h] at hr
    cases hr
  · intro h
    cases hr : afterHash f s with
    | none => rfl
    | some r =>
        obtain ⟨w, hw, hs⟩ := hf.sound hr
        exact absurd ⟨r, hs.symm⟩ (h w hw)

/-- Two texts that begin with the same hashes are scanned alike. -/
theorem hashLength?_congr
    (h : ∀ w ∈ f.language, w <+: s ↔ w <+: t) :
    hashLength? f s = hashLength? f t := by
  cases hs : hashLength? f s with
  | none =>
      refine (hashLength?_eq_none_iff.mpr fun w hw hwt => ?_).symm
      exact hashLength?_eq_none_iff.mp hs w hw ((h w hw).mpr hwt)
  | some n =>
      obtain ⟨⟨w, hw, hws, hn⟩, hmax⟩ := hashLength?_eq_some_iff.mp hs
      refine (hashLength?_eq_some_iff.mpr ⟨⟨w, hw, ?_, hn⟩, ?_⟩).symm
      · exact (h w hw).mp hws
      · exact fun w' hw' hwt => hmax w' hw' ((h w' hw').mpr hwt)

theorem hashAt?_congr
    (h : ∀ f : HashFamily, ∀ w ∈ f.language, w <+: s ↔ w <+: t) :
    hashAt? s = hashAt? t := by
  unfold hashAt?
  congr 1
  funext f
  rw [hashLength?_congr (h f)]

theorem hashAt?_eq_none_iff :
    hashAt? s = none ↔ ∀ f : HashFamily, ∀ w ∈ f.language, ¬ w <+: s := by
  unfold hashAt?
  rw [List.findSome?_eq_none_iff]
  simp only [Option.map_eq_none_iff, hashLength?_eq_none_iff]
  constructor
  · intro h f
    refine h f ?_
    cases f with
    | bcrypt => exact List.mem_cons_self
    | pbkdf2 => exact List.mem_cons_of_mem _ List.mem_cons_self
    | argon2 =>
        exact List.mem_cons_of_mem _
          (List.mem_cons_of_mem _ List.mem_cons_self)
  · exact fun h f _ => h f

/-- The length found is that of a hash of the family found. -/
theorem hashLength?_of_hashAt? {n : Nat} (h : hashAt? s = some (f, n)) :
    hashLength? f s = some n := by
  obtain ⟨g, -, hg⟩ := List.exists_of_findSome?_eq_some h
  obtain ⟨m, hm, hgm⟩ := Option.map_eq_some_iff.mp hg
  obtain ⟨rfl, rfl⟩ := Prod.mk.inj hgm
  exact hm

/-- What is found is a hash of the family, cut off the beginning. -/
theorem exists_of_hashAt? {n : Nat} (h : hashAt? s = some (f, n)) :
    ∃ w ∈ f.language, ∃ t, s = w ++ t ∧ w.length = n := by
  obtain ⟨⟨w, hw, ⟨t, rfl⟩, hlen⟩, -⟩ :=
    hashLength?_eq_some_iff.mp (hashLength?_of_hashAt? h)
  exact ⟨w, hw, t, rfl, hlen⟩

-- ======================================================= what hashes are

/-- Every hash begins with a dollar sign. -/
theorem exists_dollar_of_mem (h : w ∈ f.language) : ∃ t, w = '$' :: t := by
  cases f with
  | bcrypt =>
      obtain ⟨v, t, -, rfl, -, -⟩ := mem_bcrypt.mp h
      exact ⟨_, rfl⟩
  | pbkdf2 =>
      have hseq : w ∈ sequence _ := h
      rw [sequence_cons] at hseq
      exact exists_append_of_literal_mul hseq
  | argon2 =>
      have hseq : w ∈ sequence _ := h
      rw [sequence_cons] at hseq
      obtain ⟨u, rfl⟩ := exists_append_of_literal_mul hseq
      exact ⟨_, rfl⟩

/-- Parts that are never empty leave no less than a character each. -/
theorem length_le_of_mem_sequence {ls : List (Language Char)}
    (hne : ∀ l ∈ ls, [] ∉ l) (h : w ∈ sequence ls) :
    ls.length ≤ w.length := by
  induction ls generalizing w with
  | nil => exact Nat.zero_le _
  | cons l ls ih =>
      obtain ⟨hl, hls⟩ := List.forall_mem_cons.mp hne
      rw [sequence_cons] at h
      obtain ⟨a, ha, b, hb, rfl⟩ := Language.mem_mul.mp h
      have hpos : a.length ≠ 0 := by
        intro h0
        rw [List.length_eq_zero_iff.mp h0] at ha
        exact hl ha
      have hrest := ih hls hb
      rw [List.length_append, List.length_cons]
      omega

theorem nil_notMem_literal (h : s ≠ []) : [] ∉ literal s :=
  fun hnil => h (mem_literal.mp hnil).symm

theorem nil_notMem_mul {l l' : Language Char} (h : [] ∉ l) :
    [] ∉ l * l' := by
  intro hmem
  obtain ⟨a, ha, b, -, hab⟩ := Language.mem_mul.mp hmem
  rw [(List.append_eq_nil_iff.mp hab).1] at ha
  exact h ha

theorem nil_notMem_digits : [] ∉ digits := by
  refine nil_notMem_mul ?_
  rintro ⟨c, -, hc⟩
  cases hc

theorem nil_notMem_base64 : [] ∉ base64 := by
  refine nil_notMem_mul (nil_notMem_mul ?_)
  rintro ⟨c, -, hc⟩
  cases hc

theorem nil_notMem_parameters : [] ∉ oneOrMore parameter :=
  nil_notMem_mul fun h => parameter_ne_nil h rfl

/-- No hash is shorter than the placeholder. -/
theorem length_of_mem_language (h : w ∈ f.language) : 8 ≤ w.length := by
  have dollar : [] ∉ literal ['$'] := nil_notMem_literal (by decide)
  have none_left : ∀ l ∈ ([] : List (Language Char)), [] ∉ l :=
    fun l hl => absurd hl List.not_mem_nil
  cases f with
  | bcrypt =>
      obtain ⟨v, t, -, rfl, hlen, -⟩ := mem_bcrypt.mp h
      simp only [List.length_cons, hlen]
      omega
  | pbkdf2 =>
      refine length_le_of_mem_sequence ?_ h
      simp only [List.forall_mem_cons]
      exact ⟨dollar, nil_notMem_digits, dollar, nil_notMem_digits, dollar,
        nil_notMem_base64, dollar, nil_notMem_base64, none_left⟩
  | argon2 =>
      refine Nat.le_trans (by decide) (length_le_of_mem_sequence ?_ h)
      have hvariant :
          [] ∉ literal "id".toList + literal ['i'] + literal ['d'] := by
        rintro ((hc | hc) | hc)
        · cases hc
        · cases hc
        · cases hc
      simp only [List.forall_mem_cons]
      exact ⟨nil_notMem_literal (by decide), hvariant,
        nil_notMem_literal (by decide), nil_notMem_digits, dollar,
        nil_notMem_parameters, dollar, nil_notMem_base64, dollar,
        nil_notMem_base64, none_left⟩

/-- The characters of hashes outside bcrypt. -/
def isHashChar (c : Char) : Bool :=
  Text.isDigit c || isBase64 c || c == '$' || c == '=' || c == ','

/-- All words of the language consist of characters of a class. -/
def Over (p : Char → Bool) (l : Language Char) : Prop :=
  ∀ w ∈ l, ∀ c ∈ w, p c = true

section Over

variable {p q : Char → Bool} {l l' : Language Char}

theorem over_literal (h : s.all p = true) : Over p (literal s) := by
  rintro w rfl c hc
  exact List.all_eq_true.mp h c hc

theorem over_oneOf (h : ∀ c, q c = true → p c = true) :
    Over p (oneOf q) := by
  rintro w ⟨c, hc, rfl⟩ d hd
  rw [List.mem_singleton.mp hd]
  exact h c hc

theorem Over.mul (h : Over p l) (h' : Over p l') : Over p (l * l') := by
  intro w hw c hc
  obtain ⟨a, ha, b, hb, rfl⟩ := Language.mem_mul.mp hw
  rcases List.mem_append.mp hc with hca | hcb
  · exact h a ha c hca
  · exact h' b hb c hcb

theorem Over.add (h : Over p l) (h' : Over p l') : Over p (l + l') := by
  rintro w (hw | hw)
  · exact h w hw
  · exact h' w hw

theorem Over.optional (h : Over p l) : Over p (optional l) := by
  rintro w (rfl | hw)
  · exact fun c hc => absurd hc List.not_mem_nil
  · exact h w hw

theorem Over.oneOrMore (h : Over p l) : Over p (oneOrMore l) := by
  refine h.mul ?_
  rintro w ⟨parts, rfl, hparts⟩ c hc
  obtain ⟨part, hpart, hcp⟩ := List.mem_flatten.mp hc
  exact h part (hparts part hpart) c hcp

theorem over_sequence {ls : List (Language Char)}
    (h : ∀ l ∈ ls, Over p l) : Over p (sequence ls) := by
  induction ls with
  | nil =>
      intro w hw c hc
      rw [(Language.mem_one w).mp hw] at hc
      exact absurd hc List.not_mem_nil
  | cons l ls ih =>
      obtain ⟨hl, hls⟩ := List.forall_mem_cons.mp h
      rw [sequence_cons]
      exact hl.mul (ih hls)

end Over

theorem over_digits : Over isHashChar digits :=
  (over_oneOf fun c hc => by simp [isHashChar, hc]).oneOrMore

theorem over_base64 : Over isHashChar base64 := by
  have equals : Over isHashChar (optional (literal ['='])) :=
    (over_literal (by decide)).optional
  refine Over.mul (over_oneOf fun c hc => ?_).oneOrMore (equals.mul equals)
  simp [isHashChar, hc]

theorem over_parameters : Over isHashChar (oneOrMore parameter) := by
  refine (over_sequence ?_).oneOrMore
  have hname : Over isHashChar (oneOf isSmall) := by
    refine over_oneOf fun c hc => ?_
    have hrange : 'a' ≤ c ∧ c ≤ 'z' := of_decide_eq_true hc
    simp [isHashChar, isBase64, hrange]
  simp only [List.forall_mem_cons]
  exact ⟨hname, over_literal (by decide), over_digits,
    (over_literal (by decide)).optional,
    fun l hl => absurd hl List.not_mem_nil⟩

/-- Outside bcrypt a hash consists of digits, base64 characters, dollar
signs, equals signs and commas. -/
theorem isHashChar_of_mem (hf : f ≠ .bcrypt) (h : w ∈ f.language) :
    ∀ c ∈ w, isHashChar c = true := by
  have dollar : Over isHashChar (literal ['$']) := over_literal (by decide)
  have none_left : ∀ l ∈ ([] : List (Language Char)), Over isHashChar l :=
    fun l hl => absurd hl List.not_mem_nil
  cases f with
  | bcrypt => exact absurd rfl hf
  | pbkdf2 =>
      refine over_sequence ?_ w h
      simp only [List.forall_mem_cons]
      exact ⟨dollar, over_digits, dollar, over_digits, dollar, over_base64,
        dollar, over_base64, none_left⟩
  | argon2 =>
      refine over_sequence ?_ w h
      simp only [List.forall_mem_cons]
      have hvariant : Over isHashChar
          (literal "id".toList + literal ['i'] + literal ['d']) :=
        ((over_literal (by decide)).add (over_literal (by decide))).add
          (over_literal (by decide))
      exact ⟨over_literal (by decide), hvariant, over_literal (by decide),
        over_digits, dollar, over_parameters, dollar, over_base64, dollar,
        over_base64, none_left⟩

/-- No hash reaches over the end of a line. -/
theorem newline_notMem_of_mem (h : w ∈ f.language) : '\n' ∉ w := by
  intro hn
  cases f with
  | bcrypt =>
      obtain ⟨v, t, hv, rfl, -, hall⟩ := mem_bcrypt.mp h
      rcases List.mem_cons.mp hn with hc | hn
      · cases hc
      rcases List.mem_cons.mp hn with hc | hn
      · cases hc
      rcases List.mem_cons.mp hn with rfl | hn
      · cases hv
      rcases List.mem_cons.mp hn with hc | hn
      · cases hc
      · exact hall _ hn rfl
  | pbkdf2 => exact absurd (isHashChar_of_mem (by decide) h _ hn) (by decide)
  | argon2 => exact absurd (isHashChar_of_mem (by decide) h _ hn) (by decide)

end AuditTrail.Redaction
