/-
The shortest decimal that reads back.

Decimals with more and more digits are tried until one of the two around a
number is rounded to it. Seventeen digits are always enough: the first of
them is not a zero (`pow_pointOf_le`), so the nearer of the two decimals is
near enough (`exists_neighbour`). The trials end before, with a decimal that
is rounded to the number (`exists_shortest`).
-/
import AuditTrail.Proofs.Number.Rounding
import Mathlib.Data.List.DropRight

namespace AuditTrail.Double

variable {negative : Bool} {num den d d' m count fuel : Nat}
  {e s s' point : Int}
  {x : Double}

-- ============================================================== decimals

theorem exists_ofDecimal_eq (d : Nat) (s : Int) :
    ∃ a b : Nat, 0 < b ∧ (a : ℚ) / b = d * 10 ^ s ∧
      ∀ negative, ofDecimal negative d s = ofRatio negative a b := by
  obtain ⟨a, b, hb, hab, hfraction⟩ :=
    exists_fraction (by decide : 0 < 10) d s
  exact ⟨a, b, hb, hab, fun negative => hfraction (ofRatio negative)⟩

/-- The number nearest to a decimal depends on its value only. -/
theorem ofDecimal_congr (heq : (d : ℚ) * 10 ^ s = d' * 10 ^ s') :
    ofDecimal negative d s = ofDecimal negative d' s' := by
  obtain ⟨a, b, hb, hab, hround⟩ := exists_ofDecimal_eq d s
  obtain ⟨a', b', hb', hab', hround'⟩ := exists_ofDecimal_eq d' s'
  rw [hround, hround']
  exact ofRatio_congr hb hb' (by rw [hab, hab', heq])

theorem wellFormed_ofDecimal (negative : Bool) (d : Nat) (s : Int) :
    (ofDecimal negative d s).WellFormed := by
  obtain ⟨a, b, hb, -, hround⟩ := exists_ofDecimal_eq d s
  rw [hround]
  exact wellFormed_ofRatio negative a hb

theorem pack_sign {e' : Int} (h : pack false m e = .finite false d e') :
    pack negative m e = .finite negative d e' := by
  unfold pack at h ⊢
  generalize (if m = Nat.pow 2 precision then _ else _) = p at h ⊢
  dsimp only at h ⊢
  split at h
  case isTrue => cases h
  case isFalse hrange =>
    cases h
    exact if_neg hrange

/-- A sign in front changes nothing else. -/
theorem ofDecimal_sign (h : ofDecimal false d s = .finite false m e) :
    ofDecimal negative d s = .finite negative m e := by
  obtain ⟨a, b, -, -, hround⟩ := exists_ofDecimal_eq d s
  rw [hround] at h ⊢
  unfold ofRatio at h ⊢
  split at h
  case isTrue hzero =>
    cases h
    exact if_pos hzero
  case isFalse hpos =>
    rw [if_neg hpos]
    exact pack_sign h

-- ================================================================ points

theorem below_iff (hden : 0 < den) (num : Nat) (point : Int) :
    (if 0 ≤ point then decide (num < den * Nat.pow 10 point.toNat)
      else decide (num * Nat.pow 10 (-point).toNat < den)) = true ↔
      (num / den : ℚ) < 10 ^ point := by
  obtain ⟨a, b, hb, hab, hscaled⟩ :=
    exists_scaled (by decide : 0 < 10) hden num point
  rw [Nat.cast_ofNat] at hab
  have hpow : (0 : ℚ) < 10 ^ point := by positivity
  rw [hscaled fun num den => decide (num < den), decide_eq_true_eq,
    ← Nat.cast_lt (α := ℚ), ← div_lt_one (Nat.cast_pos.mpr hb), hab,
    div_lt_one hpow]

/-- A power of ten is below a power of two if it is so for their `k`-th
powers, compared through powers of two that stand for powers of ten. -/
theorem ten_zpow_le {k c : Nat} {p l : Int} (hk : k ≠ 0)
    (hbase : ((10 : ℚ) ^ k) ^ p ≤ (2 ^ c) ^ p) (hle : c * p ≤ k * l) :
    (10 : ℚ) ^ p ≤ 2 ^ l := by
  rw [← pow_le_pow_iff_left₀ (by positivity) (by positivity) hk]
  calc ((10 : ℚ) ^ p) ^ k = (10 ^ k) ^ p := by
        rw [← zpow_natCast, ← zpow_natCast, zpow_comm]
    _ ≤ (2 ^ c) ^ p := hbase
    _ = 2 ^ (c * p) := by rw [zpow_mul, zpow_natCast]
    _ ≤ 2 ^ (k * l) := zpow_le_zpow_right₀ one_le_two hle
    _ = (2 ^ l) ^ k := by rw [mul_comm, zpow_mul, zpow_natCast]

/-- The power of ten that is guessed from a power of two is low enough, over
the range of finite numbers. -/
theorem guess_le {l : Int} (hlow : -1076 ≤ l) (hhigh : l ≤ 1024) :
    (10 : ℚ) ^ (l * 30103 / 100000 - 2) ≤ 2 ^ (l - 1) := by
  obtain ⟨p, hp⟩ : ∃ p, l * 30103 / 100000 - 2 = p := ⟨_, rfl⟩
  rw [hp]
  rcases Int.le_total 0 p with hsign | hsign
  · -- 59 / 196 is just below the logarithm of two
    have hbase : ((10 : ℚ) ^ 59) ^ p ≤ (2 ^ 196) ^ p :=
      zpow_le_zpow_left₀ hsign (by positivity) (by norm_num)
    exact ten_zpow_le (by decide) hbase (by omega)
  · -- 28 / 93 is just above it
    have hbase : ((2 : ℚ) ^ 93) ^ (-p) ≤ (10 ^ 28) ^ (-p) :=
      zpow_le_zpow_left₀ (by omega) (by positivity) (by norm_num)
    rw [zpow_neg, zpow_neg, inv_le_inv₀ (by positivity) (by positivity)]
      at hbase
    exact ten_zpow_le (by decide) hbase (by omega)

/-- The digits of a number begin at its point or before. -/
theorem pow_pointOf_le (hnum : 0 < num) (hden : 0 < den)
    (hlow : (2 : ℚ) ^ (-1075 : Int) ≤ num / den)
    (hhigh : (num / den : ℚ) < 2 ^ (1024 : Int)) :
    (10 : ℚ) ^ (pointOf num den - 1) ≤ num / den := by
  obtain ⟨hl, hl'⟩ := quotient_between hnum hden
  have hbelow := below_iff hden num
  unfold pointOf
  dsimp only
  generalize (Nat.log2 num : Int) - Nat.log2 den = l at *
  have hleast : -1076 ≤ l := by
    have hpow := hlow.trans_lt hl'
    rw [zpow_lt_zpow_iff_right₀ one_lt_two] at hpow
    omega
  have hmost : l ≤ 1024 := by
    have hpow := hl.trans_lt hhigh
    rw [zpow_lt_zpow_iff_right₀ one_lt_two] at hpow
    omega
  simp only [hbelow]
  split
  case isTrue =>
    rw [show l * 30103 / 100000 - 1 - 1 = l * 30103 / 100000 - 2 by omega]
    exact (guess_le hleast hmost).trans hl
  case isFalse h =>
    split
    case isTrue => exact not_lt.mp h
    case isFalse h =>
      split
      case isTrue =>
        rw [Int.add_sub_cancel]
        exact not_lt.mp h
      case isFalse h =>
        rw [show l * 30103 / 100000 + 2 - 1 = l * 30103 / 100000 + 1 by omega]
        exact not_lt.mp h

-- ============================================================== trials

theorem roundQuotient_cases (num den : Nat) :
    roundQuotient num den = num / den ∨
      roundQuotient num den = num / den + 1 := by
  unfold roundQuotient
  dsimp only
  split
  case isTrue => exact .inl rfl
  case isFalse =>
    split
    case isTrue => exact .inr rfl
    case isFalse =>
      rcases Nat.mod_two_eq_zero_or_one (num / den) with heven | hodd
      · rw [heven]
        exact .inl rfl
      · rw [hodd]
        exact .inr rfl

/-- The decimals around a number at some power of ten, told from the number
that is counted in that power. -/
theorem exists_neighbour?_eq (x : Double) (hden : 0 < den) (num : Nat)
    (s : Int) : ∃ a b : Nat, 0 < b ∧ (a : ℚ) / b = num / den / 10 ^ s ∧
      neighbour? x num den s =
        let lowReads := decide (0 < a / b) && ofDecimal false (a / b) s == x
        let highReads := ofDecimal false (a / b + 1) s == x
        if lowReads && highReads then some (roundQuotient a b)
        else if lowReads then some (a / b)
        else if highReads then some (a / b + 1)
        else none := by
  obtain ⟨a, b, hb, hab, hscaled⟩ :=
    exists_scaled (by decide : 0 < 10) hden num s
  rw [Nat.cast_ofNat] at hab
  refine ⟨a, b, hb, hab, ?_⟩
  unfold neighbour?
  rw [hscaled Prod.mk]

/-- Whichever of them is taken is rounded to the number. -/
theorem neighbour?_eq_some (hden : 0 < den)
    (h : neighbour? x num den s = some d) :
    0 < d ∧ ofDecimal false d s = x := by
  obtain ⟨a, b, -, -, heq⟩ := exists_neighbour?_eq x hden num s
  rw [heq] at h
  dsimp only at h
  split at h
  case isTrue hboth =>
    simp only [Bool.and_eq_true, decide_eq_true_eq, beq_iff_eq] at hboth
    obtain ⟨⟨hpos, hlow⟩, hhigh⟩ := hboth
    cases h
    rcases roundQuotient_cases a b with hround | hround
    · rw [hround]
      exact ⟨hpos, hlow⟩
    · rw [hround]
      exact ⟨Nat.succ_pos _, hhigh⟩
  case isFalse =>
    split at h
    case isTrue hlow =>
      simp only [Bool.and_eq_true, decide_eq_true_eq, beq_iff_eq] at hlow
      cases h
      exact hlow
    case isFalse =>
      split at h
      case isTrue hhigh =>
        cases h
        exact ⟨Nat.succ_pos _, beq_iff_eq.mp hhigh⟩
      case isFalse => cases h

/-- With seventeen digits one of them is near enough. -/
theorem exists_neighbour (hfits : Fits m e) (hm : 0 < m) (hden : 0 < den)
    (hvalue : (num / den : ℚ) = m * 2 ^ e)
    (hs : (10 : ℚ) ^ (s + 16) ≤ num / den) :
    ∃ d, neighbour? (.finite false m e) num den s = some d := by
  obtain ⟨a, b, hb, hab, heq⟩ :=
    exists_neighbour?_eq (.finite false m e) hden num s
  have hten : (0 : ℚ) < 10 ^ s := by positivity
  have hlarge : (10 : ℚ) ^ 16 ≤ a / b := by
    rw [hab, le_div_iff₀ hten, ← zpow_natCast, ← zpow_add₀ (by norm_num)]
    rwa [Int.add_comm]
  have hround := abs_roundQuotient_sub_le hb a
  have hvalue' : (a / b * 10 ^ s : ℚ) = m * 2 ^ e := by
    rw [hab, div_mul_cancel₀ _ hten.ne', hvalue]
  -- at most half a unit in the last place away
  have hreads : ofDecimal false (roundQuotient a b) s = .finite false m e := by
    obtain ⟨a', b', hb', hab', hofDecimal⟩ :=
      exists_ofDecimal_eq (roundQuotient a b) s
    rw [hofDecimal]
    refine ofRatio_of_near hfits hm hb' ?_
    rw [hab', ← hvalue', ← sub_mul, abs_mul, abs_of_pos hten]
    nlinarith
  have hpos : 0 < a / b := by
    have hle : (1 : ℚ) ≤ a / b := hlarge.trans' (by norm_num)
    rw [one_le_div (Nat.cast_pos.mpr hb)] at hle
    exact Nat.div_pos (Nat.cast_le.mp hle) hb
  have hone : (decide (0 < a / b)
        && ofDecimal false (a / b) s == .finite false m e) = true ∨
      (ofDecimal false (a / b + 1) s == .finite false m e) = true := by
    rcases roundQuotient_cases a b with hlow | hhigh
    · rw [hlow] at hreads
      exact .inl (by rw [decide_eq_true hpos, hreads, beq_self_eq_true]; rfl)
    · rw [hhigh] at hreads
      exact .inr (by rw [hreads, beq_self_eq_true])
  rw [heq]
  dsimp only
  split
  case isTrue => exact ⟨_, rfl⟩
  case isFalse =>
    split
    case isTrue => exact ⟨_, rfl⟩
    case isFalse hlow =>
      rw [if_pos (hone.resolve_left hlow)]
      exact ⟨_, rfl⟩

/-- Trials that may go on to seventeen digits end with a decimal that is
rounded to the number. -/
theorem shortestWithin_spec (hden : 0 < den)
    (hlast : ∃ d, neighbour? x num den (point - 17) = some d)
    (hcount : fuel + count = 18) (hfuel : 0 < fuel)
    (h : shortestWithin x num den point fuel count = (d, s)) :
    0 < d ∧ ofDecimal false d s = x := by
  induction fuel generalizing count with
  | zero => exact absurd hfuel (Nat.lt_irrefl 0)
  | succ fuel ih =>
      rw [shortestWithin] at h
      split at h
      case h_1 hd =>
        cases h
        exact neighbour?_eq_some hden hd
      case h_2 hnone =>
        rcases Nat.eq_zero_or_pos fuel with rfl | hmore
        · obtain rfl : count = 17 := by omega
          obtain ⟨d', hd'⟩ := hlast
          rw [Nat.cast_ofNat, hd'] at hnone
          cases hnone
        · exact ih (by omega) hmore h

theorem Fits.range (hfits : Fits m e) (hm : 0 < m) :
    (2 : ℚ) ^ (-1075 : Int) ≤ m * 2 ^ e ∧
      (m * 2 ^ e : ℚ) < 2 ^ (1024 : Int) := by
  have hpow : (0 : ℚ) < 2 ^ e := by positivity
  have hone : (1 : ℚ) ≤ m := Nat.one_le_cast.mpr hm
  have hleast : -1074 ≤ e := hfits.least
  have hmost : e ≤ 971 := hfits.most
  constructor
  · calc (2 : ℚ) ^ (-1075 : Int) ≤ 2 ^ e :=
          zpow_le_zpow_right₀ one_le_two (by omega)
      _ ≤ m * 2 ^ e := le_mul_of_one_le_left hpow.le hone
  · calc (m * 2 ^ e : ℚ) < (2 ^ 53 : Nat) * 2 ^ e :=
          mul_lt_mul_of_pos_right (Nat.cast_lt.mpr hfits.lt) hpow
      _ = 2 ^ (e + 53) := (zpow_add_nat e 53).symm
      _ ≤ 2 ^ (1024 : Int) := zpow_le_zpow_right₀ one_le_two (by omega)

/-- The digits of a finite number are those of a decimal that is rounded to
it, without the zeros at their end. -/
theorem exists_shortest (hfits : Fits m e) (hm : 0 < m) :
    ∃ d s, 0 < d ∧ ofDecimal false d s = .finite false m e ∧
      shortest m e = ⟨(Text.ofNat d).rdropWhile (· == '0'),
        s + (Text.ofNat d).length⟩ := by
  obtain ⟨num, den, hden, hvalue, hfraction⟩ := exists_fraction two_pos m e
  rw [Nat.cast_ofNat] at hvalue
  obtain ⟨hlow, hhigh⟩ := hfits.range hm
  rw [← hvalue] at hlow hhigh
  have hnum : 0 < num := num_pos (hlow.trans_lt' (by positivity))
  have hpoint := pow_pointOf_le hnum hden hlow hhigh
  have hlast := exists_neighbour hfits hm hden hvalue
    (s := pointOf num den - 17) (by
      rwa [show pointOf num den - 17 + 16 = pointOf num den - 1 by omega])
  obtain ⟨d, s, hwithin⟩ :
      ∃ d s, shortestWithin (.finite false m e) num den (pointOf num den) 17 1
        = (d, s) := ⟨_, _, rfl⟩
  obtain ⟨hd, hreads⟩ :=
    shortestWithin_spec hden hlast rfl (by decide) hwithin
  refine ⟨d, s, hd, hreads, ?_⟩
  unfold shortest
  rw [hfraction Prod.mk]
  dsimp only
  rw [hwithin]
  rfl

end AuditTrail.Double
