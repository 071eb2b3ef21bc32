/-
Texts of instants.

An instant has a text if its year has four digits, which is what bounds the
instants (`inRange_iff`), and these are the instants of the dates of those
years (`hasDate_iff`). The text is laid out in fixed widths, so it is read
back as the numbers it was made of (`read?_laidOut`), which say the instant
but for the microseconds below a millisecond (`denotes_toText`); and texts are
in the order of their instants (`toText_lt_iff`), because a later date has a
larger day number and a later time of day more microseconds.
-/
import AuditTrail.Calendar.Instant
import AuditTrail.Proofs.Calendar.Date
import AuditTrail.Proofs.Text.Padded

namespace AuditTrail

theorem TimeOfDay.check_eq_ok_iff {t : TimeOfDay} :
    t.check = .ok () ↔ t.hour ≤ 23 ∧ t.minute ≤ 59 ∧ t.second ≤ 59 := by
  unfold check
  constructor
  · intro hok
    split at hok
    · cases hok
    · split at hok
      · cases hok
      · split at hok
        · cases hok
        · exact ⟨by omega, by omega, by omega⟩
  · rintro ⟨hhour, hminute, hsecond⟩
    rw [if_neg (by omega), if_neg (by omega), if_neg (by omega)]

namespace Instant

open Text

variable {i j : Instant} {u : Int}

-- ================================================================== parts

/-- An instant whose year has four digits. -/
def HasText (i : Instant) : Prop := 1 ≤ i.date.year ∧ i.date.year ≤ 9999

/-- The microseconds since midnight. -/
def micro (i : Instant) : Nat := (i.micros.fmod microsPerDay).toNat

theorem micros_eq (i : Instant) :
    i.micros = i.date.toDayNumber * 86400000000 + i.micro
      ∧ i.micro < 86400000000 := by
  have hsplit := Int.mul_fdiv_add_fmod i.micros microsPerDay
  have hpos := Int.fmod_nonneg_of_pos i.micros (by decide : 0 < microsPerDay)
  have hlt := Int.fmod_lt_of_pos i.micros (by decide : 0 < microsPerDay)
  unfold date micro
  rw [Date.toDayNumber_ofDayNumber]
  unfold microsPerDay at *
  omega

theorem isProper_date (i : Instant) : i.date.IsProper :=
  Date.isProper_ofDayNumber _

theorem inRange_iff_micros :
    i.inRange = true
      ↔ -62135596800000000 ≤ i.micros ∧ i.micros ≤ 253402300799999999 := by
  have hfirst : first.micros = -62135596800000000 := by decide
  have hlast : last.micros = 253402300799999999 := by decide
  unfold inRange
  rw [Bool.and_eq_true, decide_eq_true_eq, decide_eq_true_eq, hfirst, hlast]

theorem inRange_iff : i.inRange = true ↔ i.HasText := by
  obtain ⟨hmicros, hlt⟩ := i.micros_eq
  have hbetween := Date.toDayNumber_between i.isProper_date
  unfold Date.marchStart Date.epochOffset at hbetween
  rw [inRange_iff_micros]
  unfold HasText
  omega

/-- The instant of whole seconds and the microseconds beside them. -/
theorem ofWholeSeconds_exact (h : (Instant.mk u).HasText) :
    ofWholeSeconds (u.fdiv 1000000) (u.fmod 1000000).toNat = .ok ⟨u⟩ := by
  have hrange := inRange_iff_micros.mp (inRange_iff.mpr h)
  have hsplit := Int.mul_fdiv_add_fmod u 1000000
  have hpos := Int.fmod_nonneg_of_pos u (by decide : (0 : Int) < 1000000)
  have hlt := Int.fmod_lt_of_pos u (by decide : (0 : Int) < 1000000)
  have hu : u.fdiv 1000000 * 1000000 + (u.fmod 1000000).toNat = u := by omega
  obtain ⟨hyear, hyear'⟩ := h
  unfold ofWholeSeconds
  rw [hu]
  dsimp only at hrange ⊢
  rw [if_neg (by simp only [Nat.pow_eq]; omega),
    if_neg (by simp only [Nat.pow_eq]; omega), if_neg (by omega)]

-- ================================================================= layout

/-- How texts of instants are laid out: the width of each number, with what
stands behind it. -/
def stamp : List (Nat × Text) :=
  [(4, ['-']), (2, ['-']), (2, ['T']), (2, [':']), (2, [':']), (2, ['.']),
    (3, "+00:00".toList)]

/-- The numbers in the text of an instant. -/
def parts (i : Instant) : List Nat :=
  [i.date.year.toNat, i.date.month, i.date.day, i.timeOfDay.hour,
    i.timeOfDay.minute, i.timeOfDay.second, i.timeOfDay.micro / 1000]

theorem fitting_parts (h : i.HasText) : Fitting stamp i.parts := by
  obtain ⟨-, hlt⟩ := i.micros_eq
  obtain ⟨hyear, hyear'⟩ := h
  obtain ⟨-, hmonth, -, hday⟩ := i.isProper_date
  have hlength := Date.daysInMonth_le i.date.year i.date.month
  unfold micro at hlt
  simp only [Fitting, stamp, parts, List.forall₂_cons, timeOfDay,
    TimeOfDay.ofMicros, List.Forall₂.nil, and_true]
  omega

theorem toText_eq_laidOut (h : i.HasText) :
    i.toText = laidOut stamp i.parts := by
  have hfitting := fitting_parts h
  simp only [Fitting, stamp, parts, List.forall₂_cons] at hfitting
  obtain ⟨hyear, hmonth, hday, hhour, hminute, hsecond, hmilli, -⟩ := hfitting
  unfold toText Date.toText TimeOfDay.clockText
  dsimp only
  rw [ofNatPadded_eq (by decide) hyear, ofNatPadded_eq (by decide) hmonth,
    ofNatPadded_eq (by decide) hday, ofNatPadded_eq (by decide) hhour,
    ofNatPadded_eq (by decide) hminute, ofNatPadded_eq (by decide) hsecond,
    ofNatPadded_eq (by decide) hmilli]
  simp only [stamp, parts, laidOut, List.append_assoc, List.cons_append,
    List.nil_append, List.append_nil]

-- ================================================================ reading

theorem digit_digitChar : ∀ n < 10, (Nat.digitChar n).isDigit = true
    ∧ (Nat.digitChar n).toNat - 0x30 = n := by
  decide

theorem twoDigits?_digitChar (n : Nat) :
    DateTime.twoDigits? (Nat.digitChar (n / 10 % 10)) (Nat.digitChar (n % 10))
      = some (n % 100) := by
  obtain ⟨htens, htens'⟩ := digit_digitChar (n / 10 % 10) (by omega)
  obtain ⟨hones, hones'⟩ := digit_digitChar (n % 10) (by omega)
  unfold DateTime.twoDigits?
  rw [htens, htens', hones, hones', Bool.and_self, if_pos rfl]
  congr 1
  omega

theorem readFraction_milli {n : Nat} (hn : n < 1000) (rest : Text) :
    DateTime.readFraction ('.' :: (fixedDigits 3 n ++ '+' :: rest))
      = (n * 1000, '+' :: rest) := by
  obtain ⟨h, h'⟩ := digit_digitChar (n / 10 / 10 % 10) (by omega)
  obtain ⟨ht, ht'⟩ := digit_digitChar (n / 10 % 10) (by omega)
  obtain ⟨ho, ho'⟩ := digit_digitChar (n % 10) (by omega)
  have hplus : ('+' : Char).isDigit = false := by decide
  simp only [DateTime.readFraction, fixedDigits, List.nil_append,
    List.cons_append, List.takeWhile_cons, List.dropWhile_cons, h, ht, ho,
    hplus, if_true, Bool.false_eq_true, if_false, List.take_succ_cons,
    List.take_nil, List.foldl_cons, List.foldl_nil, h', ht', ho',
    List.length_cons, List.length_nil]
  have hscale : Nat.pow 10 (6 - (0 + 1 + 1 + 1)) = 1000 := by decide
  rw [hscale, Prod.mk.injEq]
  exact ⟨by omega, rfl⟩

/-- A text is read as the numbers that it lays out. -/
theorem read?_laidOut {year month day hour minute second milli : Nat}
    (h : Fitting stamp [year, month, day, hour, minute, second, milli]) :
    DateTime.read? (laidOut stamp [year, month, day, hour, minute, second, milli])
      = some ⟨⟨year, month, day⟩, ⟨hour, minute, second, milli * 1000⟩,
          some 0⟩ := by
  simp only [Fitting, stamp, List.forall₂_cons] at h
  obtain ⟨hyear, hmonth, hday, hhour, hminute, hsecond, hmilli, -⟩ := h
  have hfraction : DateTime.readFraction
      ('.' :: (fixedDigits 3 milli ++ "+00:00".toList))
      = (milli * 1000, "+00:00".toList) :=
    readFraction_milli hmilli "00:00".toList
  have hoffset : DateTime.readOffset? "+00:00".toList = some (some 0) := by
    decide
  have hyear' : year / 10 / 10 % 100 * 100 + year % 100 = year := by omega
  have hsmall {n : Nat} (hn : n < 10 ^ 2) : n % 100 = n :=
    Nat.mod_eq_of_lt hn
  simp only [stamp, laidOut, fixedDigits, List.nil_append, List.cons_append,
    List.append_nil, DateTime.read?, DateTime.readClock?, twoDigits?_digitChar,
    Option.bind_eq_bind, Option.bind_some, if_true, true_or] at hfraction ⊢
  simp only [hfraction, hoffset, Option.bind_some, hyear', hsmall hmonth,
    hsmall hday, hsmall hhour, hsmall hminute, hsmall hsecond]

-- ================================================================ meaning

/-- The microseconds from the beginning of 1970 to a date and a time of day,
day by day. -/
def elapsed (d : Date) (t : TimeOfDay) : Int :=
  ((d.elapsed : Int) - Date.epoch.elapsed) * 86400000000 + t.toMicros

/-- So many microseconds after the beginning of 1970 it is some time of some
day in the years 1 to 9999. -/
def HasDate (u : Int) : Prop :=
  ∃ (d : Date) (t : TimeOfDay), d.check = .ok () ∧ t.check = .ok ()
    ∧ t.micro < 1000000 ∧ elapsed d t = u

/-- A text denotes a time in milliseconds since the beginning of 1970: it is
read as a date of the calendar and a time of day, it says that they are in
universal time, and that time is these milliseconds after the beginning. -/
def Denotes (s : Text) (millis : Int) : Prop :=
  "+00:00".toList <:+ s
    ∧ ∃ (d : Date) (t : TimeOfDay), DateTime.read? s = some ⟨d, t, some 0⟩
      ∧ d.check = .ok () ∧ t.check = .ok () ∧ t.micro < 1000000
      ∧ elapsed d t = millis * 1000

theorem elapsed_eq {d : Date} (hd : d.check = .ok ()) (t : TimeOfDay) :
    elapsed d t = (ofParts d t).micros := by
  obtain ⟨hyear, -, hproper⟩ := Date.check_eq_ok_iff.mp hd
  unfold elapsed ofParts
  rw [Date.toDayNumber_eq_elapsed hyear hproper]
  rfl

/-- An instant falls on its date at its time of day. -/
theorem HasText.elapsed_date (h : i.HasText) :
    i.date.check = .ok () ∧ i.timeOfDay.check = .ok ()
      ∧ i.timeOfDay.micro < 1000000
      ∧ elapsed i.date i.timeOfDay = i.micros := by
  obtain ⟨hmicros, hlt⟩ := i.micros_eq
  have hcheck := Date.check_eq_ok_iff.mpr ⟨h.1, h.2, i.isProper_date⟩
  have hcount : i.timeOfDay = TimeOfDay.ofMicros i.micro := rfl
  rw [elapsed_eq hcheck, hcount, TimeOfDay.check_eq_ok_iff]
  unfold ofParts microsPerDay TimeOfDay.toMicros TimeOfDay.ofMicros
  dsimp only
  exact ⟨hcheck, by omega, by omega, by omega⟩

/-- The times that have a date are the instants that have a text. -/
theorem hasDate_iff : HasDate u ↔ (Instant.mk u).HasText := by
  constructor
  · rintro ⟨d, t, hd, ht, hmicro, rfl⟩
    obtain ⟨hyear, hyear', hproper⟩ := Date.check_eq_ok_iff.mp hd
    have hbetween := Date.toDayNumber_between hproper
    obtain ⟨hhour, hminute, hsecond⟩ := TimeOfDay.check_eq_ok_iff.mp ht
    rw [elapsed_eq hd, ← inRange_iff, inRange_iff_micros]
    unfold Date.marchStart Date.epochOffset at hbetween
    unfold ofParts microsPerDay TimeOfDay.toMicros
    dsimp only
    omega
  · intro h
    exact ⟨_, _, h.elapsed_date⟩

/-- The text of an instant denotes the instant, rounded down. -/
theorem denotes_toText (h : i.HasText) :
    Denotes i.toText (i.micros.fdiv 1000) := by
  refine ⟨List.suffix_append _ _, ⟨i.date.year.toNat, i.date.month, i.date.day⟩,
    ⟨i.timeOfDay.hour, i.timeOfDay.minute, i.timeOfDay.second,
      i.timeOfDay.micro / 1000 * 1000⟩, ?_, ?_⟩
  · rw [toText_eq_laidOut h]
    exact read?_laidOut (fitting_parts h)
  obtain ⟨hcheck, htime, hmicro, helapsed⟩ := h.elapsed_date
  have hdate :
      (⟨i.date.year.toNat, i.date.month, i.date.day⟩ : Date) = i.date := by
    rw [Int.toNat_of_nonneg (le_trans zero_le_one h.1)]
  rw [TimeOfDay.check_eq_ok_iff] at htime ⊢
  unfold elapsed TimeOfDay.toMicros at helapsed ⊢
  rw [hdate, Int.fdiv_eq_ediv_of_nonneg _ (by decide)]
  dsimp only
  exact ⟨hcheck, htime, by omega, by omega⟩

-- one microsecond before 1970 it is the last millisecond of 1969
example : toText ⟨-1⟩ = "1969-12-31T23:59:59.999+00:00".toList := by decide

-- ================================================================== order

/-- Numbers are compared as quotients, then as remainders. -/
theorem lt_iff_div_mod {k : Nat} (hk : 0 < k) (n m : Nat) :
    n < m ↔ n / k < m / k ∨ n / k = m / k ∧ n % k < m % k := by
  have hn := Nat.div_add_mod n k
  have hm := Nat.div_add_mod m k
  have hlt := Nat.mod_lt n hk
  have hlt' := Nat.mod_lt m hk
  rcases Nat.lt_trichotomy (n / k) (m / k) with h | h | h
  · have hstep := Nat.mul_le_mul_left k (Nat.succ_le_of_lt h)
    rw [Nat.mul_succ] at hstep
    omega
  · rw [h] at hn ⊢
    omega
  · have hstep := Nat.mul_le_mul_left k (Nat.succ_le_of_lt h)
    rw [Nat.mul_succ] at hstep
    omega

/-- The numbers in the text of a time of day. -/
def clockParts (t : TimeOfDay) : List Nat :=
  [t.hour, t.minute, t.second, t.micro / 1000]

/-- Times of day are compared as the milliseconds since midnight. -/
theorem clockParts_lt_iff (n m : Nat) :
    clockParts (.ofMicros n) < clockParts (.ofMicros m)
      ↔ n / 1000 < m / 1000 := by
  have hhour (n : Nat) : n / 3600000000 = n / 1000 / 3600000 := by omega
  have hminute (n : Nat) :
      n / 60000000 % 60 = n / 1000 % 3600000 / 60000 := by
    omega
  have hsecond (n : Nat) :
      n / 1000000 % 60 = n / 1000 % 3600000 % 60000 / 1000 := by
    omega
  have hmilli (n : Nat) :
      n % 1000000 / 1000 = n / 1000 % 3600000 % 60000 % 1000 := by
    omega
  rw [lt_iff_div_mod (by decide : 0 < 3600000) (n / 1000),
    lt_iff_div_mod (by decide : 0 < 60000) (n / 1000 % 3600000),
    lt_iff_div_mod (by decide : 0 < 1000) (n / 1000 % 3600000 % 60000)]
  simp only [clockParts, TimeOfDay.ofMicros, hhour, hminute, hsecond, hmilli,
    List.cons_lt_cons_iff, List.not_lt_nil, and_false, or_false]

/-- The numbers in two texts are compared as the dates, then as the
milliseconds since midnight. -/
theorem parts_lt_iff (hi : i.HasText) (hj : j.HasText) :
    i.parts < j.parts ↔ i.date.Before j.date
      ∨ i.date = j.date ∧ i.micro / 1000 < j.micro / 1000 := by
  obtain ⟨hyear, -⟩ := hi
  obtain ⟨hyear', -⟩ := hj
  have hsplit (i : Instant) : i.parts
      = [i.date.year.toNat, i.date.month, i.date.day]
        ++ clockParts (.ofMicros i.micro) :=
    rfl
  have hdate : i.date = j.date ↔ i.date.year = j.date.year
      ∧ i.date.month = j.date.month ∧ i.date.day = j.date.day := by
    rw [← Date.mk.injEq]
  have hlength : [i.date.year.toNat, i.date.month, i.date.day].length
      = [j.date.year.toNat, j.date.month, j.date.day].length :=
    rfl
  rw [hsplit, hsplit, append_lt_append_iff hlength, clockParts_lt_iff, hdate]
  simp only [Date.Before, List.cons_lt_cons_iff, List.not_lt_nil, and_false,
    or_false, List.cons.injEq, and_true]
  omega

/-- Texts of instants are in the order of the instants. -/
theorem toText_lt_iff (hi : i.HasText) (hj : j.HasText) :
    i.toText < j.toText ↔ i.micros.fdiv 1000 < j.micros.fdiv 1000 := by
  have hbefore :=
    Date.toDayNumber_lt_iff hi.1 hj.1 i.isProper_date j.isProper_date
  have hafter :=
    Date.toDayNumber_lt_iff hj.1 hi.1 j.isProper_date i.isProper_date
  obtain ⟨hmicros, hlt⟩ := i.micros_eq
  obtain ⟨hmicros', hlt'⟩ := j.micros_eq
  rw [toText_eq_laidOut hi, toText_eq_laidOut hj,
    laidOut_lt_iff (fitting_parts hi) (fitting_parts hj), parts_lt_iff hi hj,
    ← hbefore, Int.fdiv_eq_ediv_of_nonneg _ (by decide),
    Int.fdiv_eq_ediv_of_nonneg _ (by decide)]
  rcases Date.before_or_eq_or_before i.date j.date with h | h | h
  · have hdays := hbefore.mpr h
    omega
  · rw [h] at hmicros ⊢
    simp only [lt_irrefl, true_and, false_or]
    omega
  · have hdays := hafter.mpr h
    have hne : i.date ≠ j.date := fun h => by
      rw [h] at hdays
      exact lt_irrefl _ hdays
    simp only [hne, false_and, or_false]
    omega

end Instant

end AuditTrail
