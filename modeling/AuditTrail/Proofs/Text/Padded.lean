/-
Numbers of a fixed width.

A number that is padded with zeros has exactly as many digits as it may have
(`ofNatPadded_eq`), and texts of the same layout, numbers of the same widths
with the same texts behind them, are in the order of their numbers
(`laidOut_lt_iff`): the first number that differs decides.
-/
import AuditTrail.Text.Basic
import Mathlib.Data.List.Basic
import Mathlib.Tactic.Ring

namespace AuditTrail.Text

variable {width n m : Nat}

-- ================================================================== digits

/-- The last digits of a number, as many as the width says. -/
def fixedDigits : Nat → Nat → Text
  | 0, _ => []
  | width + 1, n => fixedDigits width (n / 10) ++ [Nat.digitChar (n % 10)]

theorem length_fixedDigits (width n : Nat) :
    (fixedDigits width n).length = width := by
  induction width generalizing n with
  | zero => rfl
  | succ width ih => rw [fixedDigits, List.length_append, ih]; rfl

theorem fixedDigits_zero (width : Nat) :
    fixedDigits width 0 = List.replicate width '0' := by
  induction width with
  | zero => rfl
  | succ width ih => rw [fixedDigits, ih, List.replicate_succ']; rfl

/-- A number that fits into its width is padded to it. -/
theorem ofNatPadded_eq (hwidth : 0 < width) (hn : n < 10 ^ width) :
    ofNatPadded width n = fixedDigits width n := by
  obtain ⟨width, rfl⟩ := Nat.exists_eq_succ_of_ne_zero (Nat.ne_of_gt hwidth)
  induction width generalizing n with
  | zero =>
      rw [Nat.succ_eq_add_one, Nat.zero_add, Nat.pow_one] at hn
      rw [ofNatPadded, ofNat, Nat.toDigits_of_lt_base hn, fixedDigits,
        Nat.mod_eq_of_lt hn]
      rfl
  | succ width ih =>
      by_cases hlt : n < 10
      · rw [fixedDigits, Nat.div_eq_of_lt hlt, fixedDigits_zero,
          Nat.mod_eq_of_lt hlt, ofNatPadded, ofNat,
          Nat.toDigits_of_lt_base hlt]
        rfl
      · have hn' : n / 10 < 10 ^ (width + 1) :=
          Nat.div_lt_of_lt_mul (by rwa [Nat.mul_comm, ← Nat.pow_succ])
        rw [fixedDigits, ← ih (Nat.succ_pos width) hn', ofNatPadded, ofNat,
          Nat.toDigits_of_base_le (by decide) (Nat.not_lt.mp hlt),
          List.length_append, List.length_singleton, Nat.succ_sub_succ,
          ← List.append_assoc]
        rfl

-- =================================================================== order

/-- Of lists whose beginnings are of one length the beginnings decide. -/
theorem append_lt_append_iff {α : Type} [LT α] {a a' b b' : List α}
    (h : a.length = a'.length) :
    a ++ b < a' ++ b' ↔ a < a' ∨ a = a' ∧ b < b' := by
  induction a generalizing a' with
  | nil =>
      rw [List.length_eq_zero_iff.mp h.symm]
      simp
  | cons c a ih =>
      cases a' with
      | nil => cases h
      | cons c' a' =>
          rw [List.cons_append, List.cons_append, List.cons_lt_cons_iff,
            List.cons_lt_cons_iff, ih (Nat.succ.inj h), List.cons.injEq]
          tauto

theorem digitChar_lt_iff :
    ∀ n < 10, ∀ m < 10, (Nat.digitChar n < Nat.digitChar m ↔ n < m)
      ∧ (Nat.digitChar n = Nat.digitChar m ↔ n = m) := by
  decide

/-- Digits of one width are in the order of their numbers, and tell them
apart. -/
theorem fixedDigits_lt_iff (hn : n < 10 ^ width) (hm : m < 10 ^ width) :
    (fixedDigits width n < fixedDigits width m ↔ n < m)
      ∧ (fixedDigits width n = fixedDigits width m ↔ n = m) := by
  induction width generalizing n m with
  | zero =>
      rw [Nat.lt_one_iff.mp hn, Nat.lt_one_iff.mp hm]
      simp
  | succ width ih =>
      rw [Nat.pow_succ, Nat.mul_comm] at hn hm
      obtain ⟨hlt, heq⟩ :=
        ih (Nat.div_lt_of_lt_mul hn) (Nat.div_lt_of_lt_mul hm)
      obtain ⟨hlt', heq'⟩ := digitChar_lt_iff _ (Nat.mod_lt n (by decide)) _
        (Nat.mod_lt m (by decide))
      have hlength : (fixedDigits width (n / 10)).length
          = (fixedDigits width (m / 10)).length := by
        rw [length_fixedDigits, length_fixedDigits]
      constructor
      · rw [fixedDigits, fixedDigits, append_lt_append_iff hlength, hlt, heq,
          List.cons_lt_cons_iff, hlt']
        simp only [List.lt_irrefl, and_false, or_false]
        omega
      · rw [fixedDigits, fixedDigits,
          List.append_eq_append_iff_of_size_eq_left hlength, heq,
          List.cons.injEq, heq', and_iff_left rfl]
        omega

/-- Numbers of fixed widths, each with a text behind it. -/
def laidOut : List (Nat × Text) → List Nat → Text
  | (width, behind) :: layout, n :: ns =>
      fixedDigits width n ++ (behind ++ laidOut layout ns)
  | _, _ => []

/-- There is a number for each place of a layout, and it fits. -/
def Fitting : List (Nat × Text) → List Nat → Prop :=
  List.Forall₂ fun place n => n < 10 ^ place.1

/-- Texts of one layout are in the order of their numbers. -/
theorem laidOut_lt_iff {layout : List (Nat × Text)} {ns ms : List Nat}
    (hns : Fitting layout ns) (hms : Fitting layout ms) :
    laidOut layout ns < laidOut layout ms ↔ ns < ms := by
  induction hns generalizing ms with
  | nil =>
      cases hms
      exact iff_of_false (List.lt_irrefl _) (List.lt_irrefl _)
  | @cons place n layout ns hn hns ih =>
      cases hms with
      | @cons _ m _ ms hm hms =>
          obtain ⟨hlt, heq⟩ := fixedDigits_lt_iff hn hm
          rw [laidOut, laidOut, append_lt_append_iff, hlt, heq,
            append_lt_append_iff rfl, ih hms, List.cons_lt_cons_iff]
          · simp only [List.lt_irrefl, false_or, true_and]
          · rw [length_fixedDigits, length_fixedDigits]

end AuditTrail.Text
