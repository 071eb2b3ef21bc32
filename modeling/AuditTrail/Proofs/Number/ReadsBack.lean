/-
Floating-point numbers are read back.

What is read from a decimal is the number nearest to its value
(`ofParts_eq_ofDecimal`): exponents out of any reach are cut short, but not
where it matters. A decimal has the value of the digits that it shows, and
the shortest digits of a number are rounded to it. So every number that
rounding leaves is what is read from its text (`readsBack_of_wellFormed`),
and everything that is read is such a number.
-/
import AuditTrail.Proofs.Json.Decimal
import AuditTrail.Proofs.Number.Shortest

namespace AuditTrail

open Double (ofDecimal)

variable {negative : Bool} {whole fraction : Text} {exponent : Int}

-- ============================================================== decimals

/-- Powers of ten out of reach are out of the range of finite numbers. -/
theorem two_zpow_le_ten_zpow (n : Nat) :
    (2 : ℚ) ^ (3 * n : Int) ≤ 10 ^ (n : Int) := by
  rw [zpow_mul, zpow_natCast, zpow_natCast]
  exact pow_le_pow_left₀ (by norm_num) (by norm_num) n

namespace Numeral

/-- What is read is the number nearest to the decimal, also where its power
of ten is out of reach. -/
theorem ofParts_eq_ofDecimal (negative : Bool) (whole fraction : Text)
    (exponent : Int) :
    ofParts negative whole fraction exponent
      = ofDecimal negative ((digitsValue? 10 (whole ++ fraction)).getD 0)
          (exponent - fraction.length) := by
  have hlt := Json.getD_digitsValue?_lt (le_refl (whole ++ fraction).length)
  unfold ofParts
  dsimp only
  generalize (digitsValue? 10 (whole ++ fraction)).getD 0 = d at *
  generalize (whole ++ fraction).length = reach at *
  generalize exponent - fraction.length = scale
  obtain ⟨a, b, hb, hab, hround⟩ := Double.exists_ofDecimal_eq d scale
  rw [hround]
  by_cases hd : d = 0
  · rw [if_pos hd]
    rw [hd, Nat.cast_zero, zero_mul, div_eq_zero_iff,
      or_iff_left (Nat.cast_ne_zero.mpr hb.ne'), Nat.cast_eq_zero] at hab
    rw [hab]
    rfl
  rw [if_neg hd]
  have hone : (1 : ℚ) ≤ d := Nat.one_le_cast.mpr (Nat.pos_of_ne_zero hd)
  by_cases hlarge : 400 < scale
  · rw [if_pos hlarge]
    refine (Double.ofRatio_of_le hb ?_).symm
    rw [hab]
    calc (2 : ℚ) ^ (Double.maxExponent + 53)
        ≤ 2 ^ (3 * (401 : Nat) : Int) :=
          zpow_le_zpow_right₀ one_le_two (by decide)
      _ ≤ 10 ^ ((401 : Nat) : Int) := two_zpow_le_ten_zpow 401
      _ ≤ 10 ^ scale := zpow_le_zpow_right₀ (by norm_num) (by omega)
      _ ≤ d * 10 ^ scale := le_mul_of_one_le_left (by positivity) hone
  rw [if_neg hlarge]
  by_cases hsmall : scale < -400 - reach
  · rw [if_pos hsmall]
    refine (Double.ofRatio_of_lt hb ?_).symm
    rw [hab]
    have hpow : (d : ℚ) < 10 ^ (reach : Int) := by
      rw [zpow_natCast]
      exact_mod_cast hlt
    calc (d : ℚ) * 10 ^ scale < 10 ^ (reach : Int) * 10 ^ scale :=
          mul_lt_mul_of_pos_right hpow (by positivity)
      _ = 10 ^ (reach + scale) := (zpow_add₀ (by norm_num) _ _).symm
      _ ≤ 10 ^ (-(401 : Nat) : Int) :=
          zpow_le_zpow_right₀ (by norm_num) (by omega)
      _ ≤ 2 ^ (-(3 * (401 : Nat)) : Int) := by
          rw [zpow_neg, zpow_neg]
          exact inv_anti₀ (by positivity) (two_zpow_le_ten_zpow 401)
      _ ≤ 2 ^ (Double.minExponent - 1) :=
          zpow_le_zpow_right₀ one_le_two (by decide)
  · rw [if_neg hsmall]

theorem wellFormed_ofParts (negative : Bool) (whole fraction : Text)
    (exponent : Int) :
    (ofParts negative whole fraction exponent).WellFormed := by
  rw [ofParts_eq_ofDecimal]
  exact Double.wellFormed_ofDecimal _ _ _

end Numeral

namespace Json.Decimal

variable {d : Decimal} {shown : Double.Digits}

/-- A decimal has the value of the digits that it shows. -/
theorem value_of_shows (hd : d.WellFormed) (hshown : d.Shows shown)
    (negative : Bool) :
    d.value negative = ofDecimal negative (Nat.ofDigitChars 10 shown.digits 0)
      (shown.point - shown.digits.length) := by
  obtain ⟨before, after, hdigits, hpower⟩ := hshown
  have hall : ∀ c ∈ d.digits, c.isDigit = true := by
    refine List.forall_mem_append.mpr ⟨hd.whole, fun c hc => ?_⟩
    cases hf : d.fraction with
    | none =>
        rw [hf] at hc
        exact absurd hc List.not_mem_nil
    | some f =>
        rw [hf] at hc
        exact hd.fraction f hf c hc
  have hnumber : Nat.ofDigitChars 10 d.digits 0
      = 10 ^ after * Nat.ofDigitChars 10 shown.digits 0 := by
    rw [hdigits, Nat.ofDigitChars_append, Nat.ofDigitChars_replicate_zero,
      Nat.mul_zero, Nat.ofDigitChars_append, Nat.ofDigitChars_replicate_zero]
  have hvalue : d.value negative
      = ofDecimal negative (Nat.ofDigitChars 10 d.digits 0) d.power := by
    unfold value
    rw [Numeral.ofParts_eq_ofDecimal,
      show Numeral.digitsValue? 10 (d.whole ++ d.fraction.getD []) = _ from
        digitsValue?_of_isDigit hall]
    rfl
  rw [hvalue]
  refine Double.ofDecimal_congr ?_
  rw [hnumber, hpower, Nat.cast_mul, Nat.cast_pow, Nat.cast_ofNat,
    ← zpow_natCast, zpow_sub₀ (by norm_num)]
  field_simp

end Json.Decimal

namespace Double

variable {m : Nat} {e : Int}

/-- The digits of a finite number have the value that is rounded to it, at
its point. -/
theorem ofDecimal_shortest (negative : Bool) (hfits : Fits m e)
    (hm : 0 < m) :
    Nat.ofDigitChars 10 (shortest m e).digits 0 ≠ 0 ∧
      ofDecimal negative (Nat.ofDigitChars 10 (shortest m e).digits 0)
          ((shortest m e).point - (shortest m e).digits.length)
        = .finite negative m e := by
  obtain ⟨d, s, hd, hround, hshortest⟩ := exists_shortest hfits hm
  rw [hshortest]
  dsimp only
  -- the digits of the decimal are those that are kept, and zeros
  obtain ⟨k, hk⟩ : ∃ k, Text.ofNat d
      = (Text.ofNat d).rdropWhile (· == '0') ++ List.replicate k '0' := by
    have hzeros : ∀ c ∈ (Text.ofNat d).rtakeWhile (· == '0'), c = '0' := by
      intro c hc
      have hzero := List.mem_rtakeWhile_imp hc
      exact beq_iff_eq.mp hzero
    refine ⟨((Text.ofNat d).rtakeWhile (· == '0')).length, ?_⟩
    rw [← List.eq_replicate_of_mem hzeros]
    exact List.rdropWhile_append_rtakeWhile.symm
  generalize (Text.ofNat d).rdropWhile (· == '0') = kept at *
  have hvalue : d = 10 ^ k * Nat.ofDigitChars 10 kept 0 := by
    have hofNat : Nat.ofDigitChars 10 (Text.ofNat d) 0 = d :=
      Nat.ofDigitChars_toDigits (by decide) (by decide)
    rw [hk, Nat.ofDigitChars_append, Nat.ofDigitChars_replicate_zero] at hofNat
    exact hofNat.symm
  refine ⟨fun hzero => ?_, ?_⟩
  · rw [hvalue, hzero] at hd
    exact absurd hd (Nat.lt_irrefl 0)
  · rw [← ofDecimal_sign hround]
    refine ofDecimal_congr ?_
    rw [hk, List.length_append, List.length_replicate]
    conv_rhs => rw [hvalue]
    rw [Nat.cast_mul, Nat.cast_pow, Nat.cast_ofNat, Nat.cast_add,
      show s + (kept.length + k : Int) - kept.length = k + s by omega,
      zpow_add₀ (by norm_num), zpow_natCast]
    ring

/-- Every finite number is read back. -/
theorem readsBack_of_fits (hfits : Fits m e) :
    (Double.finite negative m e).ReadsBack := by
  have htext : (Double.finite negative m e).toText
      = Json.Decimal.signed negative (if m = 0 then "0.0".toList
          else (shortest m e).toText) := rfl
  unfold ReadsBack
  rw [htext]
  rcases Nat.eq_zero_or_pos m with rfl | hm
  · obtain rfl := hfits.le.resolve_right (by decide)
    cases negative <;> rfl
  · obtain ⟨hne, hround⟩ := ofDecimal_shortest negative hfits hm
    obtain ⟨hdigits, hnil | ⟨c, t, hlead, hc⟩⟩ := Json.digits_shortest m e
    · rw [hnil] at hne
      exact absurd rfl hne
    · obtain ⟨d, hd, hwell, -, hshown⟩ :=
        Json.exists_decimal_toText hdigits hlead hc
      rw [if_neg hm.ne', hd, Json.Decimal.readDouble_text hwell,
        Json.Decimal.value_of_shows hwell hshown, hround]

/-- Everything that rounding leaves is read back. -/
theorem readsBack_of_wellFormed {x : Double} (hx : x.WellFormed) :
    x.ReadsBack := by
  cases x with
  | nan => rfl
  | infinite negative => cases negative <;> rfl
  | finite negative m e => exact readsBack_of_fits hx

end Double

end AuditTrail
