/-
Times in seconds that are whole microseconds.

A floating-point number of seconds is split at the point. What stands behind
it is scaled to microseconds, and the scaled number is rounded. If the number
is exactly some microseconds then it is a multiple of one sixty-fourth, for
there are 64 times 15625 microseconds in a second and 15625 is odd; such
numbers need no rounding, and the instant is the one of these microseconds
(`ofSeconds_exact`).
-/
import AuditTrail.Calendar.Instant
import AuditTrail.Proofs.Number.Exact
import Mathlib.RingTheory.Coprime.Lemmas

namespace AuditTrail.Instant

open Double

variable {num u : Int} {den k : Nat} {x : Double}

/-- Only a finite number has a value, and the denominator of the value is a
power of two. -/
theorem exists_of_fraction? (hx : x.fraction? = some (num, den)) :
    ∃ negative m e t, x = .finite negative m e ∧ den = 2 ^ t := by
  cases x with
  | nan => cases hx
  | infinite => cases hx
  | finite negative m e =>
      unfold fraction? at hx
      dsimp only at hx
      split at hx
      · cases hx
        exact ⟨negative, m, e, 0, rfl, rfl⟩
      · cases hx
        exact ⟨negative, m, e, _, rfl, rfl⟩

/-- A number that is an integer is rounded to it. -/
theorem roundFraction_fraction? {negative : Bool} {n : Nat}
    (hx : x.Measures negative n) :
    ∃ num den, x.fraction? = some (num, den)
      ∧ roundFraction num den = if negative then -(n : Int) else n := by
  obtain ⟨num, den, hden, hvalue, hfraction⟩ := exists_fraction?_eq hx
  have hround : roundQuotient num den = n := by
    refine roundQuotient_of_near hden ?_
    rw [hvalue, sub_self, abs_zero]
    exact one_half_pos
  refine ⟨_, den, hfraction, ?_⟩
  unfold roundFraction
  cases negative with
  | false =>
      rw [if_neg Bool.false_ne_true, if_neg (by omega), Int.natAbs_natCast,
        hround, if_neg Bool.false_ne_true]
  | true =>
      rw [if_pos rfl, if_pos rfl, Int.natAbs_neg, Int.natAbs_natCast, hround]
      split
      case isTrue => rfl
      case isFalse hzero =>
        obtain rfl : num = 0 := by omega
        rw [← hround]
        simp [roundQuotient]

/-- Sixty-fourths of a second in microseconds. -/
theorem scaled_sixtyFourths (negative : Bool) (hden : 0 < den) {n : Nat}
    (hn : n * 64 = k * den) (hk : k < 64) :
    ((ofRatio negative n den).mul (ofInt 1000000)).Measures negative
      ((15625 * k : Nat) : ℚ) := by
  have hq : (n / den : ℚ) = k * 2 ^ (-(6 : Nat) : Int) := by
    have hcast : (n * 64 : ℚ) = k * den := by exact_mod_cast hn
    have hne : (den : ℚ) ≠ 0 := Nat.cast_ne_zero.mpr hden.ne'
    rw [zpow_neg, zpow_natCast]
    field_simp
    linarith
  have hpart := exists_ofRatio_exact negative hden (by omega) (by decide) hq
  have hmillion : (ofInt 1000000).Measures false (1000000 : Nat) := by
    have hvalue : ((1000000 : Nat) / (1 : Nat) : ℚ)
        = (1000000 : Nat) * 2 ^ (-(0 : Nat) : Int) := by
      norm_num
    have hexact := exists_ofRatio_exact false one_pos (by decide) (by decide)
      hvalue
    rwa [Nat.cast_one, div_one] at hexact
  have hscaled : (n / den : ℚ) * (1000000 : Nat)
      = (15625 * k : Nat) * 2 ^ (-(0 : Nat) : Int) := by
    rw [hq]
    norm_num
    ring
  have hproduct :=
    exists_mul_exact hpart hmillion (by omega) (by decide) hscaled
  rw [hscaled] at hproduct
  simpa using hproduct

/-- A part of a second that is whole microseconds is sixty-fourths. -/
theorem exists_sixtyFourths {part r : Int} {t : Nat}
    (h : part * 1000000 = r * (2 ^ t : Nat)) :
    ∃ k, r = 15625 * k ∧ part * 64 = k * (2 ^ t : Nat) := by
  have hcoprime : IsCoprime (15625 : Int) ((2 ^ t : Nat) : Int) := by
    rw [Nat.cast_pow, Nat.cast_ofNat]
    exact IsCoprime.pow_right ⟨1, -7812, rfl⟩
  have hdvd : (15625 : Int) ∣ r :=
    hcoprime.dvd_of_dvd_mul_right ⟨part * 64, by omega⟩
  obtain ⟨k, rfl⟩ := hdvd
  refine ⟨k, rfl, ?_⟩
  rw [mul_assoc] at h
  omega

/-- A part of a second that is exactly some microseconds is scaled to them. -/
theorem exists_scaled_exact {part r : Int} {t : Nat}
    (h : part * 1000000 = r * (2 ^ t : Nat)) (hbelow : part.natAbs < 2 ^ t) :
    r.natAbs < 1000000
      ∧ ∃ n d, ((ofRatio (decide (part < 0)) part.natAbs (2 ^ t)).mul
          (ofInt 1000000)).fraction? = some (n, d) ∧ roundFraction n d = r := by
  have hden : 0 < 2 ^ t := Nat.two_pow_pos t
  obtain ⟨k, rfl, hpart⟩ := exists_sixtyFourths h
  have hsize : part.natAbs * 64 = k.natAbs * 2 ^ t := by
    rw [← Int.natAbs_natCast (2 ^ t), ← Int.natAbs_mul, ← hpart,
      Int.natAbs_mul]
    rfl
  have hlt : k.natAbs < 64 := by
    refine Nat.lt_of_mul_lt_mul_right (a := 2 ^ t) ?_
    omega
  have hsign : part < 0 ↔ k < 0 := by
    have hpos : (0 : Int) < (2 ^ t : Nat) := Int.natCast_pos.mpr hden
    rw [← not_le, ← not_le, ← mul_nonneg_iff_of_pos_right (b := k) hpos,
      ← hpart]
    omega
  obtain ⟨n, d, hfraction, hround⟩ := roundFraction_fraction?
    (scaled_sixtyFourths (decide (part < 0)) hden hsize hlt)
  refine ⟨by omega, n, d, hfraction, ?_⟩
  rw [hround]
  simp only [decide_eq_true_eq, hsign]
  omega

/-- A number of seconds that is exactly some microseconds stands for their
instant. -/
theorem ofSeconds_exact (hx : x.fraction? = some (num, den))
    (hu : num * 1000000 = u * den) :
    ofSeconds x = ofWholeSeconds (u.fdiv 1000000) (u.fmod 1000000).toNat := by
  obtain ⟨negative, m, e, t, rfl, rfl⟩ := exists_of_fraction? hx
  have hsplit := Int.mul_tdiv_add_tmod num (2 ^ t : Nat)
  have hbelow : (num.tmod (2 ^ t : Nat)).natAbs < 2 ^ t := by
    rw [Int.natAbs_tmod, Int.natAbs_natCast]
    exact Nat.mod_lt _ (Nat.two_pow_pos t)
  unfold ofSeconds
  rw [hx]
  dsimp only
  generalize num.tdiv (2 ^ t : Nat) = whole at *
  generalize num.tmod (2 ^ t : Nat) = part at *
  -- the microseconds behind the point, with the sign of the number
  have hpart :
      part * 1000000 = (u - whole * 1000000) * (2 ^ t : Nat) := by
    rw [sub_mul, ← hu, ← hsplit]
    ring
  obtain ⟨hlt, n, d, hscaled, hmicros⟩ := exists_scaled_exact hpart hbelow
  have hmillion : (0 : Int) ≤ 1000000 := by decide
  simp only [hscaled, hmicros, Int.fdiv_eq_ediv_of_nonneg u hmillion,
    Int.fmod_eq_emod_of_nonneg u hmillion]
  rw [if_neg (by omega)]
  split
  case isTrue hneg =>
    congr 1
    · omega
    · omega
  case isFalse hpos =>
    congr 1
    · omega
    · omega

end AuditTrail.Instant
