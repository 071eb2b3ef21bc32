/-
Texts taken apart.

A text that was joined from others is taken apart into them again, as long
as none of them holds what stands between them: into lines, where no
character of a part ends a line (`OneLine`, `lines_joinWith`), or at some
other character (`splitAt_joinWith`). Both are read from the left, so a part
is the first of whatever it stands in front of (`lines_append`). A text that
is not one line is cut at its first line end.
-/
import AuditTrail.Text.Lines

namespace AuditTrail.Text

variable {s t line : Text} {ss : List Text} {c sep : Char} {fresh : Bool}

-- ===================================================== beginnings and ends

/-- What stands after a beginning. -/
theorem after?_eq_some_iff {start rest : Text} :
    after? start s = some rest ↔ s = start ++ rest := by
  induction start generalizing s with
  | nil =>
      rw [after?, Option.some.injEq, List.nil_append]
  | cons a start ih =>
      cases s with
      | nil => simp [after?]
      | cons c s =>
          by_cases hac : a = c
          · subst hac
            simp only [after?, if_true, ih, List.cons_append,
              List.cons.injEq, true_and]
          · simp [after?, hac, Ne.symm hac]

/-- A text in front of others begins what they are joined to. -/
theorem exists_joinWith_eq_append (sep s : Text) (ss : List Text) :
    ∃ t, joinWith sep (s :: ss) = s ++ t := by
  cases ss with
  | nil => exact ⟨[], (List.append_nil s).symm⟩
  | cons t ss => exact ⟨_, List.append_assoc s sep _⟩

-- ================================================================== lines

/-- No character of a text ends a line. -/
def OneLine (s : Text) : Prop := ∀ c ∈ s, isLineEnd c = false

instance (s : Text) : Decidable (OneLine s) := List.decidableBAll _ s

/-- What belongs to a line is taken up into it. -/
theorem linesFrom_append (hs : OneLine s) :
    linesFrom line fresh (s ++ t)
      = linesFrom (s.reverse ++ line) (fresh && s.isEmpty) t := by
  induction s generalizing line fresh with
  | nil => rw [List.isEmpty_nil, Bool.and_true]; rfl
  | cons c s ih =>
      obtain ⟨hc, hs⟩ := List.forall_mem_cons.mp hs
      have hreturn : c ≠ '\r' := by
        rintro rfl
        cases hc
      rw [List.cons_append, linesFrom.eq_3 _ _ _ _ fun _ h => absurd h hreturn,
        hc, if_neg Bool.false_ne_true, ih hs, List.reverse_cons,
        List.append_assoc, Bool.false_and, List.isEmpty_cons, Bool.and_false]
      rfl

/-- A line ends at the first character that ends one. -/
theorem lines_append (hs : OneLine s) (hc : isLineEnd c = true)
    (hreturn : c ≠ '\r') : lines (s ++ c :: t) = s :: lines t := by
  unfold lines
  rw [linesFrom_append hs, linesFrom.eq_3 _ _ _ _ fun _ h => absurd h hreturn,
    if_pos hc, List.append_nil, List.reverse_reverse]

theorem lines_of_oneLine (hs : OneLine s) (hne : s ≠ []) : lines s = [s] := by
  have hlines : lines (s ++ []) = _ := linesFrom_append hs
  rw [List.append_nil, List.isEmpty_eq_false_iff.mpr hne, Bool.and_false,
    linesFrom.eq_1, if_neg Bool.false_ne_true, List.append_nil,
    List.reverse_reverse] at hlines
  exact hlines

theorem lines_joinWith_cons (hs : OneLine s) (hss : ss ≠ []) :
    lines (joinWith ['\n'] (s :: ss)) = s :: lines (joinWith ['\n'] ss) := by
  obtain ⟨t, ss, rfl⟩ := List.exists_cons_of_ne_nil hss
  rw [joinWith, List.append_assoc]
  · exact lines_append hs rfl (by decide)
  · exact List.cons_ne_nil _ _

/-- Texts that are one line each are the lines of what they were joined
to. -/
theorem lines_joinWith (hss : ∀ s ∈ ss, OneLine s ∧ s ≠ []) :
    lines (joinWith ['\n'] ss) = ss := by
  induction ss with
  | nil => rfl
  | cons s ss ih =>
      obtain ⟨⟨hline, hne⟩, hss⟩ := List.forall_mem_cons.mp hss
      cases ss with
      | nil => exact lines_of_oneLine hline hne
      | cons t ss =>
          rw [lines_joinWith_cons hline (List.cons_ne_nil _ _), ih hss]

/-- Any other text has a first line end. -/
theorem exists_first_end (hs : ¬ OneLine s) :
    ∃ p c q, s = p ++ c :: q ∧ OneLine p ∧ isLineEnd c = true := by
  induction s with
  | nil => exact absurd (fun _ h => absurd h List.not_mem_nil) hs
  | cons c s ih =>
      cases hc : isLineEnd c with
      | true =>
          exact ⟨[], c, s, rfl, fun _ h => absurd h List.not_mem_nil, hc⟩
      | false =>
          have hrest : ¬ OneLine s := fun h =>
            hs (List.forall_mem_cons.mpr ⟨hc, h⟩)
          obtain ⟨p, d, q, rfl, hp, hd⟩ := ih hrest
          exact ⟨c :: p, d, q, rfl, List.forall_mem_cons.mpr ⟨hc, hp⟩, hd⟩

-- ================================================================= pieces

/-- A text is cut at the first separator. -/
theorem cutFirst_append (hs : sep ∉ s) :
    cutFirst sep (s ++ sep :: t) = some (s, t) := by
  induction s with
  | nil => exact if_pos rfl
  | cons c s ih =>
      rw [List.mem_cons, not_or] at hs
      rw [List.cons_append, cutFirst, if_neg (Ne.symm hs.1), ih hs.2]
      rfl

/-- A text without a separator is not cut. -/
theorem cutFirst_of_notMem (hs : sep ∉ s) : cutFirst sep s = none := by
  induction s with
  | nil => rfl
  | cons c s ih =>
      rw [List.mem_cons, not_or] at hs
      rw [cutFirst, if_neg (Ne.symm hs.1), ih hs.2]
      rfl

/-- What belongs to a piece is taken up into it. -/
theorem cutInto_append (hs : sep ∉ s) (piece : Text) :
    cutInto (· == sep) piece (s ++ t)
      = cutInto (· == sep) (s.reverse ++ piece) t := by
  induction s generalizing piece with
  | nil => rfl
  | cons c s ih =>
      rw [List.mem_cons, not_or] at hs
      rw [List.cons_append, cutInto, beq_false_of_ne (Ne.symm hs.1),
        if_neg Bool.false_ne_true, ih hs.2, List.reverse_cons,
        List.append_assoc]
      rfl

/-- Texts without a separator are the pieces of what they were joined to,
if there is one at all. -/
theorem splitAt_joinWith (hss : ∀ s ∈ ss, sep ∉ s) (hne : ss ≠ []) :
    splitAt sep (joinWith [sep] ss) = ss := by
  unfold splitAt
  induction ss with
  | nil => exact absurd rfl hne
  | cons s ss ih =>
      obtain ⟨hs, hss⟩ := List.forall_mem_cons.mp hss
      cases ss with
      | nil =>
          have hpieces := cutInto_append (t := []) hs []
          rw [List.append_nil, List.append_nil, cutInto, List.reverse_reverse]
            at hpieces
          exact hpieces
      | cons t ss =>
          rw [joinWith, List.append_assoc, cutInto_append hs, List.append_nil,
            List.singleton_append, cutInto, beq_self_eq_true, if_pos rfl,
            List.reverse_reverse, ih hss (List.cons_ne_nil _ _)]
          exact List.cons_ne_nil _ _

/-- Pieces end at a separator, whatever stands before it. -/
theorem splitAt_append_cons :
    splitAt sep (s ++ sep :: t) = splitAt sep s ++ splitAt sep t := by
  have hcut (piece : Text) : cutInto (· == sep) piece (s ++ sep :: t)
      = cutInto (· == sep) piece s ++ cutInto (· == sep) [] t := by
    induction s generalizing piece with
    | nil =>
        rw [List.nil_append, cutInto, cutInto, if_pos (beq_self_eq_true sep)]
        rfl
    | cons c s ih =>
        rw [List.cons_append, cutInto, cutInto]
        split
        · rw [ih, List.cons_append]
        · exact ih (c :: piece)
  exact hcut []

/-- The pieces of joined texts are the pieces of each of them. -/
theorem splitAt_joinWith_eq_flatMap (hne : ss ≠ []) :
    splitAt sep (joinWith [sep] ss) = ss.flatMap (splitAt sep) := by
  induction ss with
  | nil => exact absurd rfl hne
  | cons s ss ih =>
      cases ss with
      | nil => exact (List.append_nil _).symm
      | cons t ss =>
          rw [joinWith, List.append_assoc, List.singleton_append,
            splitAt_append_cons, ih (List.cons_ne_nil _ _)]
          · rfl
          · exact List.cons_ne_nil _ _

/-- What is no separator stands in one of the pieces. -/
theorem mem_splitAt_iff (hc : c ≠ sep) :
    (∃ piece ∈ splitAt sep s, c ∈ piece) ↔ c ∈ s := by
  have hcut (start : Text) :
      (∃ piece ∈ cutInto (· == sep) start s, c ∈ piece)
        ↔ c ∈ start ∨ c ∈ s := by
    induction s generalizing start with
    | nil => simp [cutInto]
    | cons d s ih =>
        rw [cutInto]
        split
        case isTrue hd =>
          have hne : c ≠ d := fun h => hc (h.trans (beq_iff_eq.mp hd))
          simp [ih, hne]
        case isFalse =>
          rw [ih, List.mem_cons, List.mem_cons, or_assoc, or_left_comm]
  rw [splitAt, hcut, or_iff_right List.not_mem_nil]

/-- What stands in joined texts is of one of them or of a separator. -/
theorem mem_or_mem_of_mem_joinWith {sep : Text} (h : c ∈ joinWith sep ss) :
    c ∈ sep ∨ ∃ s ∈ ss, c ∈ s := by
  induction ss with
  | nil => cases h
  | cons s ss ih =>
      cases ss with
      | nil => exact .inr ⟨s, .head _, h⟩
      | cons t ss =>
          rw [joinWith, List.append_assoc, List.mem_append, List.mem_append] at h
          · rcases h with h | h | h
            · exact .inr ⟨s, .head _, h⟩
            · exact .inl h
            · exact (ih h).imp_right fun ⟨u, hu, hc⟩ => ⟨u, .tail _ hu, hc⟩
          · exact List.cons_ne_nil _ _

/-- There is one piece more than there are separators. -/
theorem length_splitAt : (splitAt sep s).length = s.count sep + 1 := by
  have hcut (piece : Text) :
      (cutInto (· == sep) piece s).length = s.count sep + 1 := by
    induction s generalizing piece with
    | nil => rfl
    | cons c s ih =>
        rw [cutInto, List.count_cons]
        split
        · rw [List.length_cons, ih]
        · rw [ih, Nat.add_zero]
  exact hcut []

theorem length_splitAt_joinWith (hne : ss ≠ []) :
    (splitAt sep (joinWith [sep] ss)).length
      = ss.length + ss.flatten.count sep := by
  rw [splitAt_joinWith_eq_flatMap hne]
  clear hne
  induction ss with
  | nil => rfl
  | cons s ss ih =>
      rw [List.flatMap_cons, List.length_append, ih, length_splitAt,
        List.flatten_cons, List.count_append, List.length_cons]
      omega

end AuditTrail.Text
