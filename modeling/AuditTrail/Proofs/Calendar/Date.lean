/-
Dates and day numbers are two names of the same days.

What a day number means is said by counting: the days of the years before,
the days of the months before, and the day of the month (`elapsed`). A date's
day number is this count from 1 January 1970 (`toDayNumber_eq_elapsed`), the
date of a day number is one of the calendar (`isProper_ofDayNumber`) and has
that day number (`toDayNumber_ofDayNumber`), and the earlier of two dates has
the smaller number (`toDayNumber_lt_iff`).

The computation counts from March, so that the leap day ends a year. An era
is four centuries of 36524 days and one day more, a century is 25 times four
years of 1461 days and one day less, four years are four times 365 days and
one day more (`exists_parts`). The year of an era is found by one division
after these days have been taken out again (`yearOfEra_eq`).
-/
import AuditTrail.Calendar.Date
import Mathlib.Algebra.BigOperators.Intervals
import Mathlib.Algebra.Order.BigOperators.Group.Finset
import Mathlib.Tactic.IntervalCases

namespace AuditTrail.Date

variable {d d' : Date} {n year doy : Int} {month m : Nat}

-- ============================================================== the calendar

/-- The days of a year. -/
def daysInYear (year : Int) : Nat := if isLeap year then 366 else 365

/-- The days from 1 January of year 1 to a date, year by year and month by
month. -/
def elapsed (d : Date) : Nat :=
  ∑ year ∈ Finset.Ico 1 d.year.toNat, daysInYear year
    + ∑ month ∈ Finset.Ico 1 d.month, daysInMonth d.year month + (d.day - 1)

/-- A date whose month is one of the twelve and whose day is one of the
month. -/
structure IsProper (d : Date) : Prop where
  month_pos : 1 ≤ d.month
  month_le : d.month ≤ 12
  day_pos : 1 ≤ d.day
  day_le : d.day ≤ daysInMonth d.year d.month

theorem check_eq_ok_iff :
    d.check = .ok () ↔ 1 ≤ d.year ∧ d.year ≤ 9999 ∧ d.IsProper := by
  unfold check
  constructor
  · intro hok
    split at hok
    · cases hok
    · split at hok
      · cases hok
      · split at hok
        · cases hok
        · exact ⟨by omega, by omega, by omega, by omega, by omega, by omega⟩
  · rintro ⟨hfirst, hlast, hmonth, hmonth', hday, hday'⟩
    rw [if_neg (by omega), if_neg (by omega), if_neg (by omega)]

theorem isLeap_iff (year : Int) :
    isLeap year = true ↔ year % 4 = 0 ∧ (year % 100 ≠ 0 ∨ year % 400 = 0) := by
  simp [isLeap]

theorem daysInMonth_le (year : Int) (month : Nat) :
    daysInMonth year month ≤ 31 := by
  unfold daysInMonth
  split
  · split <;> decide
  · decide
  · decide
  · decide
  · decide
  · decide

-- ======================================================= years from March on

/-- The days from 1 March of year 0 to 1 March of a year. -/
def marchStart (year : Int) : Int :=
  365 * year + year / 4 - year / 100 + year / 400

/-- The days from 1 March to the first day of a month counted from March. -/
def monthStart (monthFromMarch : Int) : Int := (153 * monthFromMarch + 2) / 5

theorem marchStart_eq (year : Int) :
    marchStart year = marchStart (year - 1) + daysInYear year := by
  have hleap := isLeap_iff year
  unfold marchStart daysInYear
  split
  case isTrue h =>
    have hdivides := hleap.mp h
    omega
  case isFalse h =>
    have hdivides := mt hleap.mpr h
    omega

/-- January and February belong to the year that began in March before. -/
theorem toDayNumber_eq (d : Date) :
    d.toDayNumber
      = (if d.month ≤ 2 then marchStart (d.year - 1) + monthStart (d.month + 9)
          else marchStart d.year + monthStart (d.month - 3))
        + d.day - 1 - epochOffset := by
  unfold toDayNumber marchStart monthStart epochOffset daysPerEra
  simp only [Int.fdiv_eq_ediv_of_nonneg _ (by decide : (0 : Int) ≤ 400)]
  split
  · omega
  · omega

-- ================================================================== counting

/-- The years before a year, from year 1 on. -/
theorem sum_daysInYear (n : Nat) :
    ((∑ year ∈ Finset.Ico 1 (n + 1), daysInYear year : Nat) : Int)
      = marchStart n := by
  induction n with
  | zero => rfl
  | succ n ih =>
      rw [Finset.sum_Ico_succ_top (Nat.le_add_left 1 n), Nat.cast_add, ih,
        marchStart_eq (n + 1 : Nat), Nat.cast_succ, add_sub_cancel_right]

/-- The lengths of the months from March to December. -/
theorem daysInMonth_of_march (year : Int) (hm : m < 10) :
    (daysInMonth year (m + 3) : Int) = monthStart (m + 1) - monthStart m := by
  interval_cases m <;> rfl

/-- The months of a year before one from March on. -/
theorem sum_daysInMonth_of_march (year : Int) (hm : m ≤ 10) :
    ((∑ month ∈ Finset.Ico 1 (m + 3), daysInMonth year month : Nat) : Int)
      = monthStart m + daysInYear year - 306 := by
  induction m with
  | zero =>
      show ((31 + (if isLeap year then 29 else 28) : Nat) : Int)
        = 0 + ((if isLeap year then 366 else 365 : Nat) : Int) - 306
      split <;> rfl
  | succ m ih =>
      rw [Nat.succ_add, Finset.sum_Ico_succ_top (Nat.le_add_left 1 (m + 2)),
        Nat.cast_add, ih (Nat.le_of_succ_le hm),
        daysInMonth_of_march year (Nat.lt_of_succ_le hm), Nat.cast_succ]
      omega

/-- The months of a year before a month. -/
theorem sum_daysInMonth (year : Int) (hpos : 1 ≤ month) (hle : month ≤ 12) :
    ((∑ m ∈ Finset.Ico 1 month, daysInMonth year m : Nat) : Int)
      = if month ≤ 2 then monthStart (month + 9) - 306
        else monthStart (month - 3) + daysInYear year - 306 := by
  split
  case isTrue hearly =>
    obtain rfl | rfl : month = 1 ∨ month = 2 := by omega
    · rfl
    · rfl
  case isFalse hlate =>
    obtain ⟨m, rfl⟩ : ∃ m, month = m + 3 := ⟨month - 3, by omega⟩
    rw [sum_daysInMonth_of_march year (by omega), Nat.cast_add, Nat.cast_ofNat,
      add_sub_cancel_right]

theorem sum_daysInMonth_all (year : Int) :
    ∑ m ∈ Finset.Ico 1 13, daysInMonth year m = daysInYear year := by
  have hall := sum_daysInMonth_of_march year (le_refl 10)
  rw [show monthStart (10 : Nat) = 306 from rfl, add_sub_cancel_left] at hall
  exact Nat.cast_injective hall

theorem elapsed_eq (hyear : 1 ≤ d.year) (hd : d.IsProper) :
    (d.elapsed : Int) = marchStart (d.year - 1)
      + (if d.month ≤ 2 then monthStart (d.month + 9) - 306
          else monthStart (d.month - 3) + daysInYear d.year - 306)
      + (d.day - 1) := by
  obtain ⟨n, hn⟩ : ∃ n : Nat, d.year = (n + 1 : Nat) :=
    ⟨(d.year - 1).toNat, by omega⟩
  have hday := hd.day_pos
  rw [elapsed, Nat.cast_add, Nat.cast_add,
    sum_daysInMonth _ hd.month_pos hd.month_le, Nat.cast_sub hday, hn,
    Int.toNat_natCast, sum_daysInYear, Nat.cast_succ, add_sub_cancel_right,
    Nat.cast_one]

/-- The first day of day numbers. -/
def epoch : Date := ⟨1970, 1, 1⟩

theorem elapsed_epoch : (epoch.elapsed : Int) = 719162 := by
  have hproper : epoch.IsProper := ⟨by decide, by decide, by decide, by decide⟩
  have helapsed := elapsed_eq (d := epoch) (by decide) hproper
  rw [helapsed]
  decide

/-- A day number is the count of the days since 1 January 1970. -/
theorem toDayNumber_eq_elapsed (hyear : 1 ≤ d.year) (hd : d.IsProper) :
    d.toDayNumber = (d.elapsed : Int) - epoch.elapsed := by
  rw [toDayNumber_eq, elapsed_epoch, elapsed_eq hyear hd, epochOffset]
  split
  · omega
  · rw [marchStart_eq d.year]
    omega

-- ======================================================= dates of day numbers

/-- The date of a day in a year that begins in March. -/
def ofMarch (year doy : Int) : Date :=
  let monthFromMarch := (5 * doy + 2) / 153
  let month :=
    if monthFromMarch < 10 then monthFromMarch + 3 else monthFromMarch - 9
  ⟨year + if month ≤ 2 then 1 else 0, month.toNat,
    (doy - monthStart monthFromMarch + 1).toNat⟩

/-- The days of an era are divided into centuries, four years and years; only
the last year of four, and that of the last four of a century in the last
century only, has a day more. -/
theorem exists_parts {doe : Int} (hpos : 0 ≤ doe) (hlt : doe < daysPerEra) :
    ∃ c q y doy : Int, (0 ≤ c ∧ c ≤ 3) ∧ (0 ≤ q ∧ q ≤ 24) ∧ (0 ≤ y ∧ y ≤ 3)
      ∧ (0 ≤ doy ∧ doy ≤ 365) ∧ (doy = 365 → y = 3 ∧ (q ≠ 24 ∨ c = 3))
      ∧ doe = 36524 * c + 1461 * q + 365 * y + doy := by
  unfold daysPerEra at hlt
  obtain ⟨c, hc, hcentury⟩ : ∃ c : Int, (0 ≤ c ∧ c ≤ 3)
      ∧ 0 ≤ doe - 36524 * c
      ∧ doe - 36524 * c < 36524 + if c = 3 then 1 else 0 := by
    by_cases hlast : doe = 146096
    · exact ⟨3, by omega⟩
    · exact ⟨doe / 36524, by omega⟩
  obtain ⟨q, hq, hfour⟩ : ∃ q : Int, (0 ≤ q ∧ q ≤ 24)
      ∧ 0 ≤ doe - 36524 * c - 1461 * q
      ∧ doe - 36524 * c - 1461 * q ≤ 1460 :=
    ⟨(doe - 36524 * c) / 1461, by omega⟩
  by_cases hlast : doe - 36524 * c - 1461 * q = 1460
  · exact ⟨c, q, 3, 365, by omega⟩
  · exact ⟨c, q, (doe - 36524 * c - 1461 * q) / 365,
      (doe - 36524 * c - 1461 * q) % 365, by omega⟩

/-- The days more are taken out, and what is left has years of 365 days. -/
theorem yearOfEra_eq {c q y doy doe : Int} (hc : 0 ≤ c ∧ c ≤ 3)
    (hq : 0 ≤ q ∧ q ≤ 24) (hy : 0 ≤ y ∧ y ≤ 3) (hdoy : 0 ≤ doy ∧ doy ≤ 365)
    (hlong : doy = 365 → y = 3 ∧ (q ≠ 24 ∨ c = 3))
    (hdoe : doe = 36524 * c + 1461 * q + 365 * y + doy) :
    (doe - doe / 1460 + doe / 36524 - doe / 146096) / 365
      = 100 * c + 4 * q + y := by
  have hcenturies : doe / 36524 - doe / 146096 = c := by
    by_cases hlast : doe = 146096
    · obtain rfl : c = 3 := by omega
      omega
    · have hbelow : 1461 * q + 365 * y + doy < 36524 := by omega
      have hcentury : doe / 36524 = c := by omega
      have hera : doe / 146096 = 0 := by omega
      omega
  have hfours : doe / 1460 = 25 * c + q ∨ doe / 1460 = 25 * c + q + 1 := by
    omega
  omega

/-- The years of an era before a year, counted by centuries and four years. -/
theorem marchStart_parts {c q y : Int} (era : Int) (hc : 0 ≤ c ∧ c ≤ 3)
    (hq : 0 ≤ q ∧ q ≤ 24) (hy : 0 ≤ y ∧ y ≤ 3) :
    365 * (100 * c + 4 * q + y) + (100 * c + 4 * q + y) / 4
        - (100 * c + 4 * q + y) / 100 = 36524 * c + 1461 * q + 365 * y
      ∧ marchStart (100 * c + 4 * q + y + era * 400)
        = era * daysPerEra + (36524 * c + 1461 * q + 365 * y) := by
  have hfour : (100 * c + 4 * q + y) / 4 = 25 * c + q := by omega
  have hcentury : (100 * c + 4 * q + y) / 100 = c := by omega
  have hfour' : (100 * c + 4 * q + y + era * 400) / 4
      = 25 * c + q + 100 * era := by
    omega
  have hcentury' : (100 * c + 4 * q + y + era * 400) / 100 = c + 4 * era := by
    omega
  have hera : (100 * c + 4 * q + y + era * 400) / 400 = era := by omega
  unfold marchStart daysPerEra
  rw [hfour, hcentury, hfour', hcentury', hera]
  constructor
  · omega
  · omega

/-- The last of four years ends with a leap day, but for the last one of a
century, unless it is that of an era. -/
theorem isLeap_parts {c q : Int} (era : Int) (hc : 0 ≤ c ∧ c ≤ 3)
    (hq : 0 ≤ q ∧ q ≤ 24) (h : q ≠ 24 ∨ c = 3) :
    isLeap (100 * c + 4 * q + 3 + era * 400 + 1) = true := by
  rw [isLeap_iff]
  refine ⟨by omega, ?_⟩
  rcases h with hq' | rfl
  · exact .inl (by omega)
  · by_cases hlast : q = 24
    · subst hlast
      exact .inr (by omega)
    · exact .inl (by omega)

/-- The date of a day number in its year from March on. The last day of a
long year is a leap day. -/
theorem exists_ofMarch (n : Int) :
    ∃ year doy, (0 ≤ doy ∧ doy ≤ 365)
      ∧ (doy = 365 → isLeap (year + 1) = true)
      ∧ n + epochOffset = marchStart year + doy
      ∧ ofDayNumber n = ofMarch year doy := by
  have hera := Int.mul_fdiv_add_fmod (n + epochOffset) daysPerEra
  have hpos := Int.fmod_nonneg_of_pos (n + epochOffset) (by decide : 0 < daysPerEra)
  have hlt := Int.fmod_lt_of_pos (n + epochOffset) (by decide : 0 < daysPerEra)
  generalize hdiv : (n + epochOffset).fdiv daysPerEra = era at hera
  generalize (n + epochOffset).fmod daysPerEra = doe at hera hpos hlt
  obtain ⟨c, q, y, doy, hc, hq, hy, hdoy, hlong, hdoe⟩ := exists_parts hpos hlt
  have hyear := yearOfEra_eq hc hq hy hdoy hlong hdoe
  obtain ⟨hstart, hstart'⟩ := marchStart_parts era hc hq hy
  have hshifted : n + epochOffset - era * daysPerEra = doe := by
    rw [← hera, Int.mul_comm, add_sub_cancel_left]
  refine ⟨100 * c + 4 * q + y + era * 400, doy, hdoy, fun h => ?_, ?_, ?_⟩
  · obtain ⟨rfl, hlast⟩ := hlong h
    exact isLeap_parts era hc hq hlast
  · rw [hstart', ← hera, hdoe, Int.mul_comm]
    exact (add_assoc _ _ _).symm
  · unfold ofDayNumber
    dsimp only
    rw [hdiv, hshifted, hyear, hstart, hdoe, add_sub_cancel_left]
    rfl

/-- January and February end a year that begins in March, and February takes
what is left of it. -/
theorem daysInMonth_of_january (hm : 10 ≤ m) (hlast : m ≤ 11)
    (hbelow : doy < monthStart (m + 1)) (hle : doy ≤ 365)
    (hlong : doy = 365 → isLeap year = true) :
    doy - monthStart m < daysInMonth year (m - 9) := by
  obtain rfl | rfl : m = 10 ∨ m = 11 := by omega
  · exact sub_lt_iff_lt_add'.mpr hbelow
  · show doy - 337 < ((if isLeap year then 29 else 28 : Nat) : Int)
    split
    · omega
    · have hshort : doy ≠ 365 := fun h => absurd (hlong h) ‹_›
      omega

/-- A day in a year from March on is one of a month. -/
theorem isProper_ofMarch (hpos : 0 ≤ doy) (hle : doy ≤ 365)
    (hlong : doy = 365 → isLeap (year + 1) = true) :
    (ofMarch year doy).IsProper ∧ (ofMarch year doy).toDayNumber
      = marchStart year + doy - epochOffset := by
  obtain ⟨m, hm⟩ : ∃ m : Nat, (5 * doy + 2) / 153 = m :=
    ⟨((5 * doy + 2) / 153).toNat, by omega⟩
  have hbetween : monthStart m ≤ doy ∧ doy < monthStart (m + 1) := by
    unfold monthStart
    omega
  obtain ⟨k, hk⟩ : ∃ k : Nat, doy - monthStart m + 1 = k :=
    ⟨(doy - monthStart m + 1).toNat, by omega⟩
  rw [toDayNumber_eq]
  by_cases hearly : m < 10
  · have heq : ofMarch year doy = ⟨year, m + 3, k⟩ := by
      unfold ofMarch
      dsimp only
      rw [hm, hk, if_pos (by omega : (m : Int) < 10),
        if_neg (by omega : ¬ (m : Int) + 3 ≤ 2), add_zero]
      rfl
    have hlength := daysInMonth_of_march year hearly
    have hmonth : m + 3 ≤ 12 := by omega
    have hday : 1 ≤ k := by omega
    have hday' : k ≤ daysInMonth year (m + 3) := by omega
    rw [heq]
    refine ⟨⟨Nat.le_add_left 1 (m + 2), hmonth, hday, hday'⟩, ?_⟩
    dsimp only
    rw [if_neg (by omega), Nat.cast_add, Nat.cast_ofNat, add_sub_cancel_right]
    omega
  · have hlast : m ≤ 11 := by omega
    have heq : ofMarch year doy = ⟨year + 1, m - 9, k⟩ := by
      unfold ofMarch
      dsimp only
      rw [hm, hk, if_neg (by omega : ¬ (m : Int) < 10),
        if_pos (by omega : (m : Int) - 9 ≤ 2)]
      congr 1
      omega
    have hlength := daysInMonth_of_january (Nat.not_lt.mp hearly) hlast
      hbetween.2 hle hlong
    have hmonth : 1 ≤ m - 9 := by omega
    have hmonth' : m - 9 ≤ 12 := by omega
    have hday : 1 ≤ k := by omega
    have hday' : k ≤ daysInMonth (year + 1) (m - 9) := by omega
    rw [heq]
    refine ⟨⟨hmonth, hmonth', hday, hday'⟩, ?_⟩
    dsimp only
    rw [if_pos (by omega), Nat.cast_sub (by omega), Nat.cast_ofNat,
      sub_add_cancel, add_sub_cancel_right]
    omega

theorem isProper_ofDayNumber (n : Int) : (ofDayNumber n).IsProper := by
  obtain ⟨year, doy, ⟨hpos, hle⟩, hlong, -, hdate⟩ := exists_ofMarch n
  rw [hdate]
  exact (isProper_ofMarch hpos hle hlong).1

theorem toDayNumber_ofDayNumber (n : Int) : (ofDayNumber n).toDayNumber = n := by
  obtain ⟨year, doy, ⟨hpos, hle⟩, hlong, hstart, hdate⟩ := exists_ofMarch n
  rw [hdate, (isProper_ofMarch hpos hle hlong).2, ← hstart,
    add_sub_cancel_right]

-- the leap day that ends an era
example : ofDayNumber 11016 = ⟨2000, 2, 29⟩ := by decide

/-- The days of a year, by those of the years from March on: 1 January is
the 307th day of the year that began in March before. -/
theorem toDayNumber_between (hd : d.IsProper) :
    marchStart (d.year - 1) + 306 ≤ d.toDayNumber + epochOffset
      ∧ d.toDayNumber + epochOffset < marchStart d.year + 306 := by
  obtain ⟨hmonth, hmonth', hday, hday'⟩ := hd
  have hyear := marchStart_eq d.year
  have hlong : 365 ≤ daysInYear d.year := by
    unfold daysInYear
    split <;> decide
  rw [toDayNumber_eq]
  split
  case isTrue hearly =>
    have hlength := daysInMonth_le d.year d.month
    unfold monthStart
    omega
  case isFalse hlate =>
    obtain ⟨m, hm⟩ : ∃ m, d.month = m + 3 := ⟨d.month - 3, by omega⟩
    have hlength := daysInMonth_of_march d.year (by omega : m < 10)
    rw [← hm] at hlength
    rw [hm, Nat.cast_add, Nat.cast_ofNat, add_sub_cancel_right]
    unfold monthStart at hlength ⊢
    omega

-- ================================================================= order

/-- Whether a date comes before another: by the year, then by the month, then
by the day. -/
def Before (d d' : Date) : Prop :=
  d.year < d'.year ∨ d.year = d'.year
    ∧ (d.month < d'.month ∨ d.month = d'.month ∧ d.day < d'.day)

theorem before_or_eq_or_before (d d' : Date) :
    d.Before d' ∨ d = d' ∨ d'.Before d := by
  obtain ⟨year, month, day⟩ := d
  obtain ⟨year', month', day'⟩ := d'
  simp only [Before, Date.mk.injEq]
  omega

theorem sum_Ico_mono (f : Nat → Nat) {a b : Nat} (h : a ≤ b) :
    ∑ i ∈ Finset.Ico 1 a, f i ≤ ∑ i ∈ Finset.Ico 1 b, f i :=
  Finset.sum_le_sum_of_subset (Finset.Ico_subset_Ico_right h)

/-- A day of a month comes before all later months. -/
theorem elapsed_lt_month (hd : d.IsProper) {later : Nat}
    (hlater : d.month < later) :
    ∑ m ∈ Finset.Ico 1 d.month, daysInMonth d.year m + (d.day - 1)
      < ∑ m ∈ Finset.Ico 1 later, daysInMonth d.year m := by
  have hmono := sum_Ico_mono (daysInMonth d.year) (Nat.succ_le_of_lt hlater)
  rw [Finset.sum_Ico_succ_top hd.month_pos] at hmono
  have hpos := hd.day_pos
  have hle := hd.day_le
  omega

/-- A day of a year comes before all later years. -/
theorem elapsed_lt_year (hyear : 1 ≤ d.year) (hd : d.IsProper)
    (hlater : d.year < d'.year) : d.elapsed < d'.elapsed := by
  have hwithin := elapsed_lt_month hd (Nat.lt_succ_of_le hd.month_le)
  rw [sum_daysInMonth_all] at hwithin
  have hmono := sum_Ico_mono (fun y => daysInYear y)
    (by omega : d.year.toNat + 1 ≤ d'.year.toNat)
  rw [Finset.sum_Ico_succ_top (by omega : 1 ≤ d.year.toNat),
    Int.toNat_of_nonneg (by omega)] at hmono
  unfold elapsed
  omega

theorem Before.elapsed_lt (hyear : 1 ≤ d.year) (hd : d.IsProper)
    (hd' : d'.IsProper) (h : d.Before d') : d.elapsed < d'.elapsed := by
  rcases h with h | ⟨hsame, h | ⟨hmonth, hday⟩⟩
  · exact elapsed_lt_year hyear hd h
  · have hmonths := elapsed_lt_month hd h
    unfold elapsed
    rw [← hsame]
    omega
  · have hpos := hd.day_pos
    have hpos' := hd'.day_pos
    unfold elapsed
    rw [← hsame, ← hmonth]
    omega

/-- Of two dates the earlier one has the smaller day number. -/
theorem toDayNumber_lt_iff (hyear : 1 ≤ d.year) (hyear' : 1 ≤ d'.year)
    (hd : d.IsProper) (hd' : d'.IsProper) :
    d.toDayNumber < d'.toDayNumber ↔ d.Before d' := by
  rw [toDayNumber_eq_elapsed hyear hd, toDayNumber_eq_elapsed hyear' hd']
  constructor
  · intro hlt
    rcases before_or_eq_or_before d d' with h | rfl | h
    · exact h
    · exact absurd hlt (lt_irrefl _)
    · have hgt := h.elapsed_lt hyear' hd' hd
      omega
  · intro h
    have hlt := h.elapsed_lt hyear hd hd'
    omega

end AuditTrail.Date
