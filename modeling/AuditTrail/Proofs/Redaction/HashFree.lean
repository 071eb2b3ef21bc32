/-
Redacted text holds no hash.

# The walk

`replaceHashesFrom` counts down the characters of a hash that it has
replaced already. `walk` is the induction that forgets the counter: a
text is empty, or begins with a hash that is replaced as a whole, or
begins with a character that is kept because no hash begins there.

# Why no hash is left over and none arises

A hash outside bcrypt has no underscore, so in redacted text it lies
between two placeholders, where the text is the original's and was
scanned (`isPrefix_of_isPrefix_replaceHashes`). A bcrypt hash takes any 56
characters of a line, placeholders included, so it has to be counted: no
hash is shorter than the placeholder, hence redaction never lengthens
what is left of a line (`lineLength_replaceHashes_le`), and a window that
was too short before is too short after.
-/
import AuditTrail.Proofs.Redaction.Scan

namespace AuditTrail.Redaction

variable {f : HashFamily} {s t w : Text} {c : Char} {n : Nat}

-- ============================================================ the walk

/-- Counting characters down is dropping them. -/
theorem replaceHashesFrom_eq_drop (n : Nat) (s : Text) :
    replaceHashesFrom n s = replaceHashes (s.drop n) := by
  induction n generalizing s with
  | zero => rfl
  | succ n ih =>
      cases s with
      | nil => rfl
      | cons c s => exact ih s

theorem replaceHashes_nil : replaceHashes [] = [] := rfl

/-- A hash at the beginning is replaced as a whole. -/
theorem replaceHashes_append (h : hashAt? (w ++ s) = some (f, w.length)) :
    replaceHashes (w ++ s) = hashPlaceholder ++ replaceHashes s := by
  obtain ⟨w', hw', t, heq, hlen⟩ := exists_of_hashAt? h
  obtain ⟨rfl, rfl⟩ := List.append_inj heq hlen.symm
  obtain ⟨u, rfl⟩ := exists_dollar_of_mem hw'
  show replaceHashesFrom 0 ('$' :: (u ++ s)) = _
  rw [List.cons_append] at h
  rw [replaceHashesFrom, h]
  show hashPlaceholder ++ replaceHashesFrom u.length (u ++ s) = _
  rw [replaceHashesFrom_eq_drop, List.drop_left]

/-- A character at which no hash begins is kept. -/
theorem replaceHashes_cons (h : hashAt? (c :: s) = none) :
    replaceHashes (c :: s) = c :: replaceHashes s := by
  show replaceHashesFrom 0 (c :: s) = _
  rw [replaceHashesFrom, h]
  rfl

/-- No hash begins at a character that is no dollar sign. -/
theorem hashAt?_cons_of_ne (h : c ≠ '$') : hashAt? (c :: s) = none := by
  refine hashAt?_eq_none_iff.mpr fun f w hw hpre => ?_
  obtain ⟨t, rfl⟩ := exists_dollar_of_mem hw
  exact h (List.cons_prefix_cons.mp hpre).1.symm

/-- Text without a dollar sign is passed as it is, whatever follows. -/
theorem replaceHashes_append_of_dollar_notMem (h : '$' ∉ t) (s : Text) :
    replaceHashes (t ++ s) = t ++ replaceHashes s := by
  induction t with
  | nil => rfl
  | cons c t ih =>
      have hc : c ≠ '$' := fun hc => h (hc ▸ List.mem_cons_self)
      rw [List.cons_append, replaceHashes_cons (hashAt?_cons_of_ne hc),
        ih fun hmem => h (List.mem_cons_of_mem _ hmem)]
      rfl

/-- Induction along the walk over a text: a hash is passed as a whole,
any other character alone. -/
@[elab_as_elim]
theorem walk {motive : Text → Prop} (nil : motive [])
    (hash : ∀ f w s, w ∈ HashFamily.language f →
      hashAt? (w ++ s) = some (f, w.length) → motive s → motive (w ++ s))
    (kept : ∀ c s, hashAt? (c :: s) = none → motive s → motive (c :: s))
    (s : Text) : motive s := by
  induction hn : s.length using Nat.strong_induction_on generalizing s with
  | h n ih =>
    subst hn
    cases s with
    | nil => exact nil
    | cons c s =>
        cases hh : hashAt? (c :: s) with
        | none => exact kept c s hh (ih s.length (by simp) s rfl)
        | some found =>
            obtain ⟨f, n⟩ := found
            obtain ⟨w, hw, t, heq, rfl⟩ := exists_of_hashAt? hh
            have hlen := length_of_mem_language hw
            rw [heq] at hh ih ⊢
            refine hash f w t hw hh (ih t.length ?_ t rfl)
            rw [List.length_append]
            omega

-- ================================================== what stays of a line

/-- The number of characters before the end of the first line. -/
def lineLength (s : Text) : Nat := (s.takeWhile (· != '\n')).length

theorem lineLength_append (h : '\n' ∉ w) (s : Text) :
    lineLength (w ++ s) = w.length + lineLength s := by
  unfold lineLength
  rw [List.takeWhile_append_of_pos, List.length_append]
  intro c hc
  rw [bne_iff_ne]
  rintro rfl
  exact h hc

/-- As many characters as the first line has stand before its end. -/
theorem exists_append_of_le_lineLength (h : n ≤ lineLength s) :
    ∃ u t, s = u ++ t ∧ u.length = n ∧ '\n' ∉ u := by
  unfold lineLength at h
  refine ⟨(s.takeWhile (· != '\n')).take n,
    (s.takeWhile (· != '\n')).drop n ++ s.dropWhile (· != '\n'), ?_, ?_, ?_⟩
  · rw [← List.append_assoc, List.take_append_drop,
      List.takeWhile_append_dropWhile]
  · rw [List.length_take]
    omega
  · intro hmem
    have hline := List.mem_takeWhile_imp (List.mem_of_mem_take hmem)
    cases hline

theorem newline_notMem_hashPlaceholder : '\n' ∉ hashPlaceholder := by decide

/-- Redaction never lengthens the first line: the placeholder is no longer
than what it stands for. -/
theorem lineLength_replaceHashes_le (s : Text) :
    lineLength (replaceHashes s) ≤ lineLength s := by
  induction s using walk with
  | nil => exact Nat.le_refl _
  | hash f w s hw h ih =>
      have hlen : hashPlaceholder.length ≤ w.length :=
        length_of_mem_language hw
      rw [replaceHashes_append h, lineLength_append (newline_notMem_of_mem hw),
        lineLength_append newline_notMem_hashPlaceholder]
      exact Nat.add_le_add hlen ih
  | kept c s h ih =>
      rw [replaceHashes_cons h]
      by_cases hc : c = '\n'
      · subst hc
        exact Nat.le_refl _
      · have hnot : '\n' ∉ [c] := by
          rw [List.mem_singleton]
          exact fun h => hc h.symm
        have hcons := lineLength_append hnot
        simp only [List.singleton_append] at hcons
        rw [hcons, hcons]
        exact Nat.add_le_add_left ih _

-- ===================================================== no hash is left

/-- What redacted text begins with, up to the first placeholder, the text
itself begins with. -/
theorem isPrefix_of_isPrefix_replaceHashes (hw : '_' ∉ w)
    (h : w <+: replaceHashes s) : w <+: s := by
  induction s using walk generalizing w with
  | nil => exact h
  | hash f v s hv hat ih =>
      rw [replaceHashes_append hat] at h
      cases w with
      | nil => exact List.nil_prefix
      | cons d w =>
          obtain ⟨t, ht⟩ := h
          have hd : d = '_' := (List.cons.inj ht).1
          exact absurd List.mem_cons_self (hd ▸ hw)
  | kept c s hat ih =>
      rw [replaceHashes_cons hat] at h
      cases w with
      | nil => exact List.nil_prefix
      | cons d w =>
          obtain ⟨hd, hrest⟩ := List.cons_prefix_cons.mp h
          rw [hd]
          exact List.cons_prefix_cons.mpr
            ⟨rfl, ih (fun hmem => hw (List.mem_cons_of_mem _ hmem)) hrest⟩

/-- If redacted text begins with a hash, so does the text. -/
theorem exists_hash_of_isPrefix_replaceHashes (hw : w ∈ f.language)
    (h : w <+: replaceHashes s) : ∃ w' ∈ f.language, w' <+: s := by
  by_cases hf : f = .bcrypt
  · subst hf
    obtain ⟨v, t, hv, rfl, hlen, -⟩ := mem_bcrypt.mp hw
    have hhead : ['$', '2', v, '$'] <+: s := by
      refine isPrefix_of_isPrefix_replaceHashes ?_ (.trans ⟨t, rfl⟩ h)
      have hv' : v ≠ '_' := by
        rintro rfl
        cases hv
      simp [hv'.symm]
    -- the window of the redacted text is one of the text itself
    have hline : 60 ≤ lineLength s := by
      obtain ⟨r, hr⟩ := h
      calc 60 ≤ lineLength (replaceHashes s) := by
            rw [← hr, lineLength_append (newline_notMem_of_mem hw)]
            simp only [List.length_cons, hlen]
            omega
        _ ≤ lineLength s := lineLength_replaceHashes_le s
    obtain ⟨u, r, rfl, hu, hnl⟩ := exists_append_of_le_lineLength hline
    obtain ⟨t', rfl⟩ : ['$', '2', v, '$'] <+: u := by
      refine List.prefix_of_prefix_length_le hhead (List.prefix_append u r) ?_
      rw [hu]
      show 4 ≤ 60
      decide
    refine ⟨_, mem_bcrypt.mpr ⟨v, t', hv, rfl, ?_, ?_⟩, ⟨r, rfl⟩⟩
    · simpa using hu
    · rintro c hc rfl
      exact hnl (List.mem_append_right _ hc)
  · refine ⟨w, hw, isPrefix_of_isPrefix_replaceHashes ?_ h⟩
    intro hmem
    exact absurd (isHashChar_of_mem hf hw _ hmem) (by decide)

/-- No part of the text is a hash of any family. -/
def HashFree (s : Text) : Prop :=
  ∀ f : HashFamily, ∀ w ∈ f.language, ¬ w <:+: s

theorem hashFree_of_dollar_notMem (h : '$' ∉ s) : HashFree s := by
  rintro f w hw ⟨a, b, rfl⟩
  obtain ⟨t, rfl⟩ := exists_dollar_of_mem hw
  refine h (List.mem_append_left _ (List.mem_append_right _ ?_))
  exact List.mem_cons_self

/-- One character more is free of hashes if none begins with it. -/
theorem HashFree.cons (hs : HashFree s)
    (h : ∀ f : HashFamily, ∀ w ∈ f.language, ¬ w <+: c :: s) :
    HashFree (c :: s) := by
  intro f w hw hin
  rcases List.infix_cons_iff.mp hin with hpre | hin
  · exact h f w hw hpre
  · exact hs f w hw hin

/-- Text without a dollar sign adds no hash in front. -/
theorem HashFree.append_of_dollar_notMem (hs : HashFree s)
    (h : '$' ∉ t) : HashFree (t ++ s) := by
  induction t with
  | nil => exact hs
  | cons c t ih =>
      refine (ih fun hmem => h (List.mem_cons_of_mem _ hmem)).cons ?_
      intro f w hw hpre
      obtain ⟨u, rfl⟩ := exists_dollar_of_mem hw
      rw [(List.cons_prefix_cons.mp hpre).1] at h
      exact h List.mem_cons_self

/-- Redacted text holds no hash of any family. -/
theorem hashFree_replaceHashes (s : Text) : HashFree (replaceHashes s) := by
  induction s using walk with
  | nil => exact hashFree_of_dollar_notMem List.not_mem_nil
  | hash f w s hw h ih =>
      rw [replaceHashes_append h]
      exact ih.append_of_dollar_notMem (by decide)
  | kept c s h ih =>
      rw [replaceHashes_cons h]
      refine ih.cons fun f w hw hpre => ?_
      rw [← replaceHashes_cons h] at hpre
      obtain ⟨w', hw', hpre'⟩ := exists_hash_of_isPrefix_replaceHashes hw hpre
      exact hashAt?_eq_none_iff.mp h f w' hw' hpre'

/-- Text without hashes is left as it is. -/
theorem replaceHashes_of_hashFree (h : HashFree s) : replaceHashes s = s := by
  induction s using walk with
  | nil => rfl
  | hash f w s hw hat ih => exact absurd ⟨[], s, rfl⟩ (h f w hw)
  | kept c s hat ih =>
      rw [replaceHashes_cons hat, ih]
      rintro f w hw ⟨a, b, rfl⟩
      exact h f w hw ⟨c :: a, b, rfl⟩

end AuditTrail.Redaction
