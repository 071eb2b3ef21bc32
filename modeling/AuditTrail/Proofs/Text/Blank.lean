/-
Texts without white space around them.

Trimming a text takes white space from its ends and nothing else
(`strips_trim`), so a text is left as it is exactly if it has none there
(`trim_eq_self_iff`), and nothing is left exactly of a text that is all white
space (`trim_eq_nil_iff`).
-/
import AuditTrail.Text.Blank

namespace AuditTrail.Text

variable {s t : Text}

/-- A text with no white space at either end. -/
structure IsTrimmed (s : Text) : Prop where
  first : ∀ c ∈ s.head?, isBlank c = false
  last : ∀ c ∈ s.getLast?, isBlank c = false

/-- One text is another without the white space around it. -/
def Strips (s t : Text) : Prop :=
  t.IsTrimmed ∧ ∃ before after, s = before ++ t ++ after
    ∧ before.isAllBlank = true ∧ after.isAllBlank = true

theorem head?_trimStart (s : Text) :
    ∀ c ∈ s.trimStart.head?, isBlank c = false := by
  intro c hc
  have hhead := List.head?_dropWhile_not isBlank s
  unfold trimStart at hc
  rw [Option.mem_def.mp hc] at hhead
  exact hhead

theorem getLast?_trimEnd (s : Text) :
    ∀ c ∈ s.trimEnd.getLast?, isBlank c = false := by
  intro c hc
  unfold trimEnd at hc
  rw [List.getLast?_reverse] at hc
  exact head?_trimStart s.reverse c hc

/-- What was taken from the beginning is white space. -/
theorem exists_trimStart (s : Text) :
    ∃ before, s = before ++ s.trimStart ∧ before.isAllBlank = true :=
  ⟨s.takeWhile isBlank, List.takeWhile_append_dropWhile.symm,
    List.all_takeWhile⟩

/-- What was taken from the end is white space. -/
theorem exists_trimEnd (s : Text) :
    ∃ after, s = s.trimEnd ++ after ∧ after.isAllBlank = true := by
  obtain ⟨before, hsplit, hblank⟩ := exists_trimStart s.reverse
  refine ⟨before.reverse, ?_, ?_⟩
  · rw [← List.reverse_inj, hsplit]
    simp [trimEnd, trimStart]
  · unfold isAllBlank at hblank ⊢
    rw [List.all_reverse, hblank]

/-- Taking white space from the end leaves the beginning. -/
theorem head?_trimEnd (h : ∀ c ∈ s.head?, isBlank c = false) :
    ∀ c ∈ s.trimEnd.head?, isBlank c = false := by
  intro c hc
  obtain ⟨after, hsplit, -⟩ := exists_trimEnd s
  refine h c ?_
  rw [hsplit, List.head?_append, Option.mem_def.mp hc]
  rfl

/-- Trimming takes the white space at the ends and nothing else. -/
theorem strips_trim (s : Text) : Strips s s.trim := by
  obtain ⟨before, hbefore, hblank⟩ := exists_trimStart s
  obtain ⟨after, hafter, hblank'⟩ := exists_trimEnd s.trimStart
  refine ⟨⟨head?_trimEnd (head?_trimStart s), getLast?_trimEnd _⟩,
    before, after, ?_, hblank, hblank'⟩
  unfold trim
  rw [List.append_assoc, ← hafter, ← hbefore]

theorem trimStart_eq_self (h : ∀ c ∈ s.head?, isBlank c = false) :
    s.trimStart = s := by
  cases s with
  | nil => rfl
  | cons c s => exact List.dropWhile_cons_of_neg (by simpa using h c rfl)

theorem trimEnd_eq_self (h : ∀ c ∈ s.getLast?, isBlank c = false) :
    s.trimEnd = s := by
  have hreverse : trimStart s.reverse = s.reverse :=
    trimStart_eq_self (by rwa [List.head?_reverse])
  unfold trimEnd
  rw [← trimStart, hreverse, List.reverse_reverse]

theorem trim_eq_self_iff : s.trim = s ↔ s.IsTrimmed := by
  constructor
  · intro h
    rw [← h]
    exact (strips_trim s).1
  · intro h
    unfold trim
    rw [trimStart_eq_self h.first, trimEnd_eq_self h.last]

theorem trim_eq_nil_iff : s.trim = [] ↔ s.isAllBlank = true := by
  obtain ⟨htrimmed, before, after, hsplit, hbefore, hafter⟩ := strips_trim s
  constructor
  · intro h
    rw [h, List.append_nil] at hsplit
    unfold isAllBlank at hbefore hafter ⊢
    rw [hsplit, List.all_append, hbefore, hafter, Bool.and_self]
  · intro hblank
    cases htrim : s.trim with
    | nil => rfl
    | cons c t =>
        have hc : c ∈ s := by
          rw [hsplit, htrim]
          simp
        have hfirst := htrimmed.first c (by rw [htrim]; rfl)
        rw [List.all_eq_true.mp hblank c hc] at hfirst
        cases hfirst

end AuditTrail.Text
