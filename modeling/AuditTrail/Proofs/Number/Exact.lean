/-
Results that need no rounding.

An integer of few enough bits over a power of two is a floating-point number
itself. A fraction of that value is rounded to it (`exists_ofRatio_exact`),
and so is a product that comes to it (`exists_mul_exact`).
-/
import AuditTrail.Proofs.Number.Rounding

namespace AuditTrail.Double

variable {negative : Bool} {num den n k m : Nat} {e : Int} {x y : Double}
  {q : ℚ}

/-- A finite number, by its sign and its size. -/
def Measures (x : Double) (negative : Bool) (q : ℚ) : Prop :=
  ∃ m e, x = .finite negative m e ∧ (m : ℚ) * 2 ^ e = q

/-- The power of such a number is no larger than that of its denominator, so
that its significand is an integer. -/
theorem ExponentOf.le_neg (h : ExponentOf q e) (hn : n < 2 ^ 53)
    (hk : minExponent ≤ -k) (hq : q = n * 2 ^ (-k : Int)) : e ≤ -k := by
  rcases h.le with hmin | hle
  · exact hmin.trans_le hk
  · have hsize : q < 2 ^ (-k + 53 : Int) := by
      rw [hq, zpow_add₀ two_ne_zero, mul_comm]
      refine mul_lt_mul_of_pos_left ?_ (by positivity)
      exact_mod_cast hn
    have hpow := hle.trans_lt hsize
    rw [zpow_lt_zpow_iff_right₀ one_lt_two] at hpow
    omega

theorem exists_ofRatio_exact (negative : Bool) (hden : 0 < den)
    (hn : n < 2 ^ 53) (hk : minExponent ≤ -k)
    (hq : (num / den : ℚ) = n * 2 ^ (-k : Int)) :
    (ofRatio negative num den).Measures negative (num / den) := by
  rcases Nat.eq_zero_or_pos num with rfl | hnum
  · refine ⟨0, minExponent, rfl, ?_⟩
    rw [Nat.cast_zero, zero_mul, zero_div]
  · obtain ⟨a, b, e, hb, he, hab, hround⟩ := exists_ofRatio_eq hnum hden
    have hpow : (0 : ℚ) < 2 ^ e := by positivity
    have hle := he.le_neg hn hk hq
    obtain ⟨j, hj⟩ : ∃ j : Nat, (-k : Int) = e + j := ⟨(-k - e).toNat, by omega⟩
    have hm : (num / den : ℚ) = (n * 2 ^ j : Nat) * 2 ^ e := by
      rw [hq, hj, zpow_add_nat, Nat.cast_mul, mul_assoc]
    have hab' : (a / b : ℚ) = (n * 2 ^ j : Nat) := by
      rw [hab, hm, mul_div_cancel_right₀ _ hpow.ne']
    have hquotient : roundQuotient a b = n * 2 ^ j := by
      refine roundQuotient_of_near hb ?_
      rw [hab', sub_self, abs_zero]
      exact one_half_pos
    rw [hm] at he
    have hfits : Fits (n * 2 ^ j) e := by
      refine ⟨?_, he.least, by unfold maxExponent; omega, he.le.imp_right ?_⟩
      · have hlt := he.lt
        rw [show e + 53 = e + (53 : Nat) from rfl, zpow_add_nat] at hlt
        exact_mod_cast lt_of_mul_lt_mul_right hlt hpow.le
      · intro hle
        rw [show e + 52 = e + (52 : Nat) from rfl, zpow_add_nat] at hle
        exact_mod_cast le_of_mul_le_mul_right hle hpow
    exact ⟨n * 2 ^ j, e, by rw [hround, hquotient, pack_of_fits hfits], hm.symm⟩

/-- The product of two numbers, where it needs no rounding. -/
theorem exists_mul_exact {negative' : Bool} {q' : ℚ}
    (hx : x.Measures negative q) (hy : y.Measures negative' q')
    (hn : n < 2 ^ 53) (hk : minExponent ≤ -k)
    (hq : q * q' = n * 2 ^ (-k : Int)) :
    (x.mul y).Measures (negative != negative') (q * q') := by
  obtain ⟨m, e, rfl, hm⟩ := hx
  obtain ⟨m', e', rfl, hm'⟩ := hy
  obtain ⟨num, den, hden, hvalue, hcases⟩ :=
    exists_fraction two_pos (m * m') (e + e')
  have hproduct : (num / den : ℚ) = q * q' := by
    rw [hvalue, Nat.cast_mul, Nat.cast_ofNat, zpow_add₀ two_ne_zero, ← hm,
      ← hm']
    ring
  have hmul : (finite negative m e).mul (finite negative' m' e')
      = ofRatio (negative != negative') num den :=
    hcases (ofRatio (negative != negative'))
  rw [hmul, ← hproduct]
  exact exists_ofRatio_exact _ hden hn hk (hproduct.trans hq)

/-- The fraction of a number, with the sign above. -/
theorem exists_fraction?_eq (hx : x.Measures negative q) :
    ∃ num den : Nat, 0 < den ∧ (num / den : ℚ) = q
      ∧ x.fraction? = some (if negative then -(num : Int) else num, den) := by
  obtain ⟨m, e, rfl, hm⟩ := hx
  obtain ⟨num, den, hden, hvalue, hcases⟩ := exists_fraction two_pos m e
  exact ⟨num, den, hden, hvalue.trans (by rw [Nat.cast_ofNat, hm]),
    hcases fun n d => some (if negative then -(n : Int) else n, d)⟩

end AuditTrail.Double
