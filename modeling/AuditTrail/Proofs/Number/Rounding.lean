/-
Rounding to the nearest floating-point number.

A fraction is rounded in two steps. Its size decides the power of two of the
significand (`ExponentOf`), and at that power the significand is the nearest
integer. Both depend on the number only and not on the fraction that it is
given as (`ofRatio_congr`), and a number that is near enough to a
floating-point number is rounded to it (`ofRatio_of_near`); near enough is
what sixteen digits and a half leave, at the borders between two powers too.
-/
import AuditTrail.Number.Double
import Mathlib.Algebra.Order.Field.Power
import Mathlib.Algebra.Order.Field.Rat
import Mathlib.Tactic.FieldSimp
import Mathlib.Tactic.Linarith
import Mathlib.Tactic.NormNum
import Mathlib.Tactic.Positivity
import Mathlib.Tactic.Ring

namespace AuditTrail.Double

variable {negative : Bool} {num den num' den' n m base : Nat} {e e' : Int}
  {q : ℚ}

-- ============================================================== powers

theorem zpow_of_nonneg (base : Nat) (he : 0 ≤ e) :
    (base : ℚ) ^ e = (Nat.pow base e.toNat : Nat) := by
  obtain ⟨n, rfl⟩ := Int.eq_ofNat_of_zero_le he
  rw [Int.toNat_natCast, zpow_natCast, Nat.pow_eq, Nat.cast_pow]

theorem zpow_of_neg (base : Nat) (he : ¬ 0 ≤ e) :
    (base : ℚ) ^ e = ((Nat.pow base (-e).toNat : Nat) : ℚ)⁻¹ := by
  rw [← zpow_of_nonneg base (by omega : 0 ≤ -e), zpow_neg, inv_inv]

theorem zpow_add_nat (e : Int) (k : Nat) :
    (2 : ℚ) ^ (e + k) = (2 ^ k : Nat) * 2 ^ e := by
  rw [zpow_add₀ two_ne_zero, zpow_natCast, mul_comm, Nat.cast_pow,
    Nat.cast_ofNat]

theorem num_pos (h : (0 : ℚ) < num / den) : 0 < num := by
  refine Nat.pos_of_ne_zero ?_
  rintro rfl
  rw [Nat.cast_zero, zero_div] at h
  exact lt_irrefl _ h

/-- A multiple of a power as a fraction. -/
theorem exists_fraction (hbase : 0 < base) (m : Nat) (e : Int) :
    ∃ num den : Nat, 0 < den ∧ (num : ℚ) / den = m * (base : ℚ) ^ e ∧
      ∀ {α : Type} (f : Nat → Nat → α),
        (if 0 ≤ e then f (m * Nat.pow base e.toNat) 1
          else f m (Nat.pow base (-e).toNat)) = f num den := by
  by_cases he : 0 ≤ e
  · refine ⟨m * Nat.pow base e.toNat, 1, one_pos, ?_, fun f => if_pos he⟩
    rw [zpow_of_nonneg base he, Nat.cast_one, div_one, Nat.cast_mul]
  · refine ⟨m, Nat.pow base (-e).toNat, Nat.pow_pos hbase, ?_,
      fun f => if_neg he⟩
    rw [zpow_of_neg base he, div_eq_mul_inv]

/-- A fraction scaled down by a power, whose factor stands below or above. -/
theorem exists_scaled (hbase : 0 < base) (hden : 0 < den) (num : Nat)
    (e : Int) :
    ∃ a b : Nat, 0 < b ∧ (a : ℚ) / b = num / den / (base : ℚ) ^ e ∧
      ∀ {α : Type} (f : Nat → Nat → α),
        (if 0 ≤ e then f num (den * Nat.pow base e.toNat)
          else f (num * Nat.pow base (-e).toNat) den) = f a b := by
  by_cases he : 0 ≤ e
  · refine ⟨num, den * Nat.pow base e.toNat,
      Nat.mul_pos hden (Nat.pow_pos hbase), ?_, fun f => if_pos he⟩
    rw [zpow_of_nonneg base he, Nat.cast_mul, div_div]
  · refine ⟨num * Nat.pow base (-e).toNat, den, hden, ?_, fun f => if_neg he⟩
    rw [zpow_of_neg base he, Nat.cast_mul, div_inv_eq_mul, div_mul_eq_mul_div]

/-- Whether a power is reached is decided so. -/
theorem reaches_iff (hbase : 0 < base) (hden : 0 < den) (num : Nat) (e : Int) :
    (if 0 ≤ e then decide (den * Nat.pow base e.toNat ≤ num)
      else decide (den ≤ num * Nat.pow base (-e).toNat)) = true ↔
      (base : ℚ) ^ e ≤ num / den := by
  obtain ⟨a, b, hb, hab, hscaled⟩ := exists_scaled hbase hden num e
  have hpow : (0 : ℚ) < (base : ℚ) ^ e := zpow_pos (Nat.cast_pos.mpr hbase) e
  rw [hscaled fun num den => decide (den ≤ num), decide_eq_true_eq,
    ← Nat.cast_le (α := ℚ), ← one_le_div (Nat.cast_pos.mpr hb), hab,
    one_le_div hpow]

-- ===================================================== nearest integers

/-- The rounded quotient is at most one half away. -/
theorem abs_roundQuotient_sub_le (hden : 0 < den) (num : Nat) :
    |(roundQuotient num den : ℚ) - num / den| ≤ 1 / 2 := by
  have hdiv := Nat.div_add_mod num den
  have hlt := Nat.mod_lt num hden
  have hbounds : 2 * num ≤ 2 * (den * roundQuotient num den) + den ∧
      2 * (den * roundQuotient num den) ≤ 2 * num + den := by
    unfold roundQuotient
    dsimp only
    split
    case isTrue h => omega
    case isFalse h =>
      split
      case isTrue h' =>
        rw [Nat.mul_add]
        omega
      case isFalse h' =>
        rcases Nat.mod_two_eq_zero_or_one (num / den) with heven | hodd
        · rw [heven, Nat.add_zero]
          omega
        · rw [hodd, Nat.mul_add]
          omega
  obtain ⟨hlow, hhigh⟩ := hbounds
  have hpos : (0 : ℚ) < den := Nat.cast_pos.mpr hden
  have hlow : (2 * num : ℚ) ≤ 2 * (den * roundQuotient num den) + den := by
    exact_mod_cast hlow
  have hhigh : (2 * (den * roundQuotient num den) : ℚ) ≤ 2 * num + den := by
    exact_mod_cast hhigh
  have heq : (roundQuotient num den : ℚ) - num / den
      = (den * roundQuotient num den - num) / den := by
    field_simp
  rw [heq, abs_div, abs_of_pos hpos, div_le_iff₀ hpos, abs_le]
  constructor
  · linarith
  · linarith

/-- What is nearer to an integer than one half is rounded to it. -/
theorem roundQuotient_of_near (hden : 0 < den)
    (hm : |(num / den : ℚ) - m| < 1 / 2) : roundQuotient num den = m := by
  have hround := abs_roundQuotient_sub_le hden num
  have hlt : |(roundQuotient num den : ℚ) - m| < 1 := by
    rw [abs_lt] at hm ⊢
    rw [abs_le] at hround
    constructor
    · linarith [hround.1, hm.1]
    · linarith [hround.2, hm.2]
  have hint : |(roundQuotient num den : Int) - m| < 1 := by exact_mod_cast hlt
  rw [Int.abs_lt_one_iff] at hint
  omega

theorem le_roundQuotient (hden : 0 < den) (hm : (m : ℚ) ≤ num / den) :
    m ≤ roundQuotient num den := by
  have hround := (abs_le.mp (abs_roundQuotient_sub_le hden num)).1
  have hlt : (m : ℚ) < (roundQuotient num den + 1 : Nat) := by
    push_cast
    linarith
  exact Nat.lt_succ_iff.mp (Nat.cast_lt.mp hlt)

theorem roundQuotient_le (hden : 0 < den) (hm : (num / den : ℚ) ≤ m) :
    roundQuotient num den ≤ m := by
  have hround := (abs_le.mp (abs_roundQuotient_sub_le hden num)).2
  have hlt : (roundQuotient num den : ℚ) < (m + 1 : Nat) := by
    push_cast
    linarith
  exact Nat.lt_succ_iff.mp (Nat.cast_lt.mp hlt)

theorem roundQuotient_mul (hn : 0 < n) (num den : Nat) :
    roundQuotient (n * num) (n * den) = roundQuotient num den := by
  have hlt {a b : Nat} : 2 * (n * a) < n * b ↔ 2 * a < b := by
    rw [Nat.mul_left_comm]
    exact Nat.mul_lt_mul_left hn
  have hgt {a b : Nat} : n * b < 2 * (n * a) ↔ b < 2 * a := by
    rw [Nat.mul_left_comm]
    exact Nat.mul_lt_mul_left hn
  unfold roundQuotient
  simp only [Nat.mul_div_mul_left _ _ hn, Nat.mul_mod_mul_left, hlt, hgt]

/-- The rounded quotient depends on the number only. -/
theorem roundQuotient_congr (hden : 0 < den) (hden' : 0 < den')
    (heq : (num / den : ℚ) = num' / den') :
    roundQuotient num den = roundQuotient num' den' := by
  have hne : (den : ℚ) ≠ 0 := Nat.cast_ne_zero.mpr hden.ne'
  have hne' : (den' : ℚ) ≠ 0 := Nat.cast_ne_zero.mpr hden'.ne'
  have hcross : num * den' = num' * den := by
    rw [div_eq_div_iff hne hne'] at heq
    exact_mod_cast heq
  calc roundQuotient num den
      = roundQuotient (den' * num) (den' * den) :=
        (roundQuotient_mul hden' num den).symm
    _ = roundQuotient (den * num') (den * den') := by
        rw [Nat.mul_comm den' num, hcross, Nat.mul_comm num',
          Nat.mul_comm den']
    _ = roundQuotient num' den' := roundQuotient_mul hden num' den'

-- ============================================================= exponents

/-- The power of two at which a number has a significand of 53 bits, or the
smallest power if it has fewer there. -/
structure ExponentOf (q : ℚ) (e : Int) : Prop where
  least : minExponent ≤ e
  lt : q < 2 ^ (e + 53)
  le : e = minExponent ∨ 2 ^ (e + 52) ≤ q

theorem ExponentOf.le_of (h : ExponentOf q e) (h' : ExponentOf q e') :
    e ≤ e' := by
  rcases h.le with hmin | hle
  · rw [hmin]
    exact h'.least
  · have hpow : (2 : ℚ) ^ (e + 52) < 2 ^ (e' + 53) := hle.trans_lt h'.lt
    rw [zpow_lt_zpow_iff_right₀ one_lt_two] at hpow
    omega

theorem ExponentOf.unique (h : ExponentOf q e) (h' : ExponentOf q e') :
    e = e' :=
  Int.le_antisymm (h.le_of h') (h'.le_of h)

/-- The difference of two logarithms is that of the quotient or one more. -/
theorem quotient_between (hnum : 0 < num) (hden : 0 < den) :
    (2 : ℚ) ^ ((Nat.log2 num : Int) - Nat.log2 den - 1) ≤ num / den ∧
      (num / den : ℚ) < 2 ^ ((Nat.log2 num : Int) - Nat.log2 den + 1) := by
  have hlow {k : Nat} (hk : 0 < k) : ((2 : ℚ) ^ (Nat.log2 k : Int)) ≤ k := by
    rw [zpow_natCast]
    exact_mod_cast Nat.log2_self_le hk.ne'
  have hhigh {k : Nat} : (k : ℚ) < (2 : ℚ) ^ ((Nat.log2 k : Int) + 1) := by
    have := @Nat.lt_log2_self k
    exact_mod_cast this
  have hpos : (0 : ℚ) < den := Nat.cast_pos.mpr hden
  constructor
  · rw [le_div_iff₀ hpos]
    calc (2 : ℚ) ^ ((Nat.log2 num : Int) - Nat.log2 den - 1) * den
        ≤ 2 ^ ((Nat.log2 num : Int) - Nat.log2 den - 1)
            * 2 ^ ((Nat.log2 den : Int) + 1) :=
          mul_le_mul_of_nonneg_left hhigh.le (by positivity)
      _ = 2 ^ (Nat.log2 num : Int) := by
          rw [← zpow_add₀ two_ne_zero]
          congr 1
          omega
      _ ≤ num := hlow hnum
  · rw [div_lt_iff₀ hpos]
    calc (num : ℚ) < 2 ^ ((Nat.log2 num : Int) + 1) := hhigh
      _ = 2 ^ ((Nat.log2 num : Int) - Nat.log2 den + 1)
            * 2 ^ (Nat.log2 den : Int) := by
          rw [← zpow_add₀ two_ne_zero]
          congr 1
          omega
      _ ≤ 2 ^ ((Nat.log2 num : Int) - Nat.log2 den + 1) * den :=
          mul_le_mul_of_nonneg_left (hlow hden) (by positivity)

theorem exponentOf_exponentFor (hnum : 0 < num) (hden : 0 < den) :
    ExponentOf (num / den) (exponentFor num den) := by
  obtain ⟨hlow, hhigh⟩ := quotient_between hnum hden
  unfold exponentFor
  dsimp only
  generalize (Nat.log2 num : Int) - Nat.log2 den = l at *
  have hreaches := reaches_iff two_pos hden num l
  rw [show l - 52 + 52 = l by omega]
  generalize (if 0 ≤ l then _ else _) = reaches at *
  -- the significand has its bits at this power
  obtain ⟨e, he, hle, hlt⟩ :
      ∃ e, (if reaches = true then l - 52 else l - 52 - 1) = e ∧
        (2 : ℚ) ^ (e + 52) ≤ num / den ∧
          (num / den : ℚ) < 2 ^ (e + 53) := by
    refine ⟨_, rfl, ?_⟩
    cases reaches with
    | true =>
        refine ⟨?_, ?_⟩
        · rw [if_pos rfl, show l - 52 + 52 = l by omega]
          exact hreaches.mp rfl
        · rwa [if_pos rfl, show l - 52 + 53 = l + 1 by omega]
    | false =>
        refine ⟨?_, ?_⟩
        · rwa [if_neg Bool.false_ne_true,
            show l - 52 - 1 + 52 = l - 1 by omega]
        · rw [if_neg Bool.false_ne_true,
            show l - 52 - 1 + 53 = l by omega]
          exact lt_of_not_ge fun h => Bool.false_ne_true (hreaches.mpr h)
  rw [he]
  split
  case isTrue hsmall =>
    refine ⟨le_rfl, hlt.trans_le ?_, .inl rfl⟩
    exact zpow_le_zpow_right₀ one_le_two (by omega)
  case isFalse hlarge =>
    exact ⟨Int.not_lt.mp hlarge, hlt, .inr hle⟩

-- ============================================================== rounding

/-- A number that is not zero is rounded at its power. -/
theorem exists_ofRatio_eq (hnum : 0 < num) (hden : 0 < den) :
    ∃ (a b : Nat) (e : Int), 0 < b ∧ ExponentOf (num / den) e ∧
      (a : ℚ) / b = num / den / 2 ^ e ∧
        ∀ negative, ofRatio negative num den
          = pack negative (roundQuotient a b) e := by
  obtain ⟨a, b, hb, hab, hscaled⟩ :=
    exists_scaled two_pos hden num (exponentFor num den)
  refine ⟨a, b, _, hb, exponentOf_exponentFor hnum hden, hab,
    fun negative => ?_⟩
  unfold ofRatio
  rw [if_neg hnum.ne']
  dsimp only
  rw [hscaled roundQuotient]

/-- The rounded number depends on the number only. -/
theorem ofRatio_congr (hden : 0 < den) (hden' : 0 < den')
    (heq : (num / den : ℚ) = num' / den') :
    ofRatio negative num den = ofRatio negative num' den' := by
  have hne : (den : ℚ) ≠ 0 := Nat.cast_ne_zero.mpr hden.ne'
  have hne' : (den' : ℚ) ≠ 0 := Nat.cast_ne_zero.mpr hden'.ne'
  rcases Nat.eq_zero_or_pos num with rfl | hnum
  · rw [Nat.cast_zero, zero_div, eq_comm, div_eq_zero_iff, or_iff_left hne',
      Nat.cast_eq_zero] at heq
    rw [heq]
    rfl
  · have hpos : (0 : ℚ) < num' / den' := by
      rw [← heq]
      positivity
    have hnum' : 0 < num' := num_pos hpos
    obtain ⟨a, b, e, hb, he, hab, hround⟩ := exists_ofRatio_eq hnum hden
    obtain ⟨a', b', e', hb', he', hab', hround'⟩ :=
      exists_ofRatio_eq hnum' hden'
    obtain rfl : e = e' := by
      rw [heq] at he
      exact he.unique he'
    rw [hround, hround', roundQuotient_congr hb hb' (by rw [hab, hab', heq])]

/-- The significand and the power of a finite number. -/
structure Fits (m : Nat) (e : Int) : Prop where
  lt : m < 2 ^ 53
  least : minExponent ≤ e
  most : e ≤ maxExponent
  le : e = minExponent ∨ 2 ^ 52 ≤ m

/-- A number as it is left by rounding. -/
def WellFormed : Double → Prop
  | .finite _ m e => Fits m e
  | _ => True

theorem wellFormed_pack (hm : m ≤ 2 ^ 53) (he : minExponent ≤ e)
    (hle : e = minExponent ∨ 2 ^ 52 ≤ m) : (pack negative m e).WellFormed := by
  unfold pack
  dsimp only
  by_cases hcarry : m = Nat.pow 2 precision
  · rw [if_pos hcarry]
    dsimp only
    split
    case isTrue => trivial
    case isFalse hmost =>
      exact ⟨by decide, by omega, Int.not_lt.mp hmost, .inr (by decide)⟩
  · rw [if_neg hcarry]
    dsimp only
    split
    case isTrue => trivial
    case isFalse hmost =>
      exact ⟨lt_of_le_of_ne hm hcarry, he, Int.not_lt.mp hmost, hle⟩

theorem wellFormed_ofRatio (negative : Bool) (num : Nat) (hden : 0 < den) :
    (ofRatio negative num den).WellFormed := by
  rcases Nat.eq_zero_or_pos num with rfl | hnum
  · exact ⟨by decide, le_rfl, by decide, .inl rfl⟩
  · obtain ⟨a, b, e, hb, he, hab, hround⟩ := exists_ofRatio_eq hnum hden
    have hpow : (0 : ℚ) < 2 ^ e := by positivity
    rw [hround]
    refine wellFormed_pack (roundQuotient_le hb ?_) he.least
      (he.le.imp_right fun hle => le_roundQuotient hb ?_)
    · rw [hab, div_le_iff₀ hpow]
      exact he.lt.le.trans_eq (zpow_add_nat e 53)
    · rw [hab, le_div_iff₀ hpow]
      exact (zpow_add_nat e 52).ge.trans hle

theorem pack_of_fits (hfits : Fits m e) :
    pack negative m e = .finite negative m e := by
  have hne : m ≠ Nat.pow 2 precision := hfits.lt.ne
  unfold pack
  rw [if_neg hne]
  exact if_neg (Int.not_lt.mpr hfits.most)

/-- A significand that is rounded up to one bit more gives the least one of
the next power. -/
theorem pack_carry (he : e ≤ maxExponent) :
    pack negative (2 ^ 53) (e - 1) = .finite negative (2 ^ 52) e := by
  have hbits : 2 ^ 53 = Nat.pow 2 precision := rfl
  unfold pack
  rw [if_pos hbits, Int.sub_add_cancel]
  exact if_neg (Int.not_lt.mpr he)

/-- A number with its bits at the power of a finite number is rounded to it
from less than half a unit in the last place. -/
theorem ofRatio_of_within (hfits : Fits m e) (hnum : 0 < num)
    (hden : 0 < den) (hq : (num / den : ℚ) = q * 2 ^ e) (hlt : q < 2 ^ 53)
    (hle : e = minExponent ∨ 2 ^ 52 ≤ q) (hnear : |q - m| < 1 / 2) :
    ofRatio negative num den = .finite negative m e := by
  have hu : (0 : ℚ) < 2 ^ e := by positivity
  obtain ⟨a, b, e', hb, he', hab, hround⟩ := exists_ofRatio_eq hnum hden
  rw [hq] at he' hab
  obtain rfl : e' = e := by
    refine he'.unique ⟨hfits.least, ?_, hle.imp_right fun hle => ?_⟩
    · rw [show (2 : ℚ) ^ (e + 53) = _ from zpow_add_nat e 53]
      exact mul_lt_mul_of_pos_right (by exact_mod_cast hlt) hu
    · rw [show (2 : ℚ) ^ (e + 52) = _ from zpow_add_nat e 52]
      exact mul_le_mul_of_nonneg_right (by exact_mod_cast hle) hu.le
  rw [mul_div_cancel_right₀ _ hu.ne'] at hab
  rw [hround, roundQuotient_of_near hb (by rwa [hab]), pack_of_fits hfits]

/-- Just below a power of two the bits are at the power before, and the unit
is half as large. From less than half of that a number is rounded to the power
of two. -/
theorem ofRatio_of_below (hleast : minExponent < e) (hmost : e ≤ maxExponent)
    (hnum : 0 < num) (hden : 0 < den) (hq : (num / den : ℚ) = q * 2 ^ e)
    (hlt : q < 2 ^ 52) (hnear : 2 ^ 52 - q < 1 / 4) :
    ofRatio negative num den = .finite negative (2 ^ 52) e := by
  have hu : (0 : ℚ) < 2 ^ e := by positivity
  have hhalf : (0 : ℚ) < 2 ^ (e - 1) := by positivity
  have hsplit : (2 : ℚ) ^ e = 2 * 2 ^ (e - 1) := by
    rw [zpow_sub_one₀ two_ne_zero]
    ring
  obtain ⟨a, b, e', hb, he', hab, hround⟩ := exists_ofRatio_eq hnum hden
  rw [hq] at he' hab
  obtain rfl : e' = e - 1 := by
    refine he'.unique ⟨Int.le_sub_one_of_lt hleast, ?_, .inr ?_⟩
    · rw [show e - 1 + 53 = e + 52 by omega,
        show (2 : ℚ) ^ (e + 52) = _ from zpow_add_nat e 52]
      exact mul_lt_mul_of_pos_right (by exact_mod_cast hlt) hu
    · rw [show e - 1 + 52 = e + 51 by omega,
        show (2 : ℚ) ^ (e + 51) = _ from zpow_add_nat e 51]
      refine mul_le_mul_of_nonneg_right ?_ hu.le
      push_cast
      linarith
  rw [hsplit, ← mul_assoc, mul_div_cancel_right₀ _ hhalf.ne'] at hab
  have hnear : |(a / b : ℚ) - (2 ^ 53 : Nat)| < 1 / 2 := by
    push_cast
    rw [hab, abs_lt]
    constructor
    · linarith
    · linarith
  rw [hround, roundQuotient_of_near hb hnear, pack_carry hmost]

/-- What is as near to a finite number as sixteen digits and a half leave it
is rounded to it. -/
theorem ofRatio_of_near (hfits : Fits m e) (hm : 0 < m) (hden : 0 < den)
    (hnear : |(num / den : ℚ) - m * 2 ^ e| * (2 * 10 ^ 16) ≤ m * 2 ^ e) :
    ofRatio negative num den = .finite negative m e := by
  have hu : (0 : ℚ) < 2 ^ e := by positivity
  -- in units of the last place
  obtain ⟨y, hy⟩ : ∃ y : ℚ, (num / den : ℚ) = y * 2 ^ e :=
    ⟨num / den / 2 ^ e, (div_mul_cancel₀ _ hu.ne').symm⟩
  have hnear : |y - m| ≤ m / (2 * 10 ^ 16) := by
    rw [hy, ← sub_mul, abs_mul, abs_of_pos hu] at hnear
    rw [le_div_iff₀ (by norm_num)]
    exact le_of_mul_le_mul_right (by linarith) hu
  obtain ⟨hlow, hhigh⟩ := abs_le.mp hnear
  have hone : (1 : ℚ) ≤ m := Nat.one_le_cast.mpr hm
  have hlt : (m : ℚ) + 1 ≤ 2 ^ 53 := by exact_mod_cast hfits.lt
  have hpos : (0 : ℚ) < num / den := by
    rw [hy]
    exact mul_pos (by linarith) hu
  have hnum : 0 < num := num_pos hpos
  by_cases hle : e = minExponent ∨ (2 : ℚ) ^ 52 ≤ y
  · refine ofRatio_of_within hfits hnum hden hy (by linarith) hle ?_
    exact hnear.trans_lt (by linarith)
  · obtain ⟨hmin, hbelow⟩ := not_or.mp hle
    have hbelow := not_le.mp hbelow
    obtain rfl : m = 2 ^ 52 := by
      refine Nat.le_antisymm (Nat.lt_succ_iff.mp ?_)
        (hfits.le.resolve_left hmin)
      by_contra hmore
      have hmore : (2 : ℚ) ^ 52 + 1 ≤ m := by
        exact_mod_cast Nat.not_lt.mp hmore
      linarith
    push_cast at hlow
    exact ofRatio_of_below (lt_of_le_of_ne hfits.least (Ne.symm hmin))
      hfits.most hnum hden hy hbelow (by linarith)

-- =============================================================== range

/-- What is below half the smallest number is rounded to zero. -/
theorem ofRatio_of_lt (hden : 0 < den)
    (hsmall : (num / den : ℚ) < 2 ^ (minExponent - 1)) :
    ofRatio negative num den = .finite negative 0 minExponent := by
  rcases Nat.eq_zero_or_pos num with rfl | hnum
  · rfl
  · obtain ⟨a, b, e, hb, he, hab, hround⟩ := exists_ofRatio_eq hnum hden
    obtain rfl : e = minExponent := by
      refine he.unique ⟨le_rfl, hsmall.trans ?_, .inl rfl⟩
      exact zpow_lt_zpow_right₀ one_lt_two (by decide)
    have hhalf : (2 : ℚ) ^ (minExponent - 1) = 1 / 2 * 2 ^ minExponent := by
      rw [zpow_sub_one₀ two_ne_zero]
      ring
    have hzero : roundQuotient a b = 0 := by
      refine roundQuotient_of_near hb ?_
      rw [hab, Nat.cast_zero, sub_zero, abs_of_nonneg (by positivity),
        div_lt_iff₀ (by positivity), ← hhalf]
      exact hsmall
    rw [hround, hzero]
    exact pack_of_fits ⟨by decide, le_rfl, by decide, .inl rfl⟩

/-- What is above all finite numbers is rounded to infinity. -/
theorem ofRatio_of_le (hden : 0 < den)
    (hlarge : (2 : ℚ) ^ (maxExponent + 53) ≤ num / den) :
    ofRatio negative num den = .infinite negative := by
  have hnum : 0 < num := num_pos (hlarge.trans_lt' (by positivity))
  obtain ⟨a, b, e, -, he, -, hround⟩ := exists_ofRatio_eq hnum hden
  have hmost : maxExponent < e := by
    have hpow := hlarge.trans_lt he.lt
    rw [zpow_lt_zpow_iff_right₀ one_lt_two] at hpow
    omega
  rw [hround]
  unfold pack
  by_cases hcarry : roundQuotient a b = Nat.pow 2 precision
  · rw [if_pos hcarry]
    exact if_pos (hmost.trans (Int.lt_succ e))
  · rw [if_neg hcarry]
    exact if_pos hmost

end AuditTrail.Double
