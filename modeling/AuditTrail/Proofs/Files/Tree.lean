/-
What a name leads to.

A name whose last link is not followed leads no less far than one whose last
link is: to the same place, or to a link (`exists_locate_unfollowed`). So
whatever has content by some name has an entry by that name, which may be
that of a link (`exists_ownEntry`).
-/
import AuditTrail.Files.Tree
import AuditTrail.Proofs.Text.Pieces

namespace AuditTrail

-- ================================================================== paths

namespace Path

variable {s : Text} {c : Char}

/-- The names of a path hold what its text holds, but for the slashes. -/
theorem exists_mem_namesOf_iff (hslash : c ≠ '/') (hpoint : c ≠ '.') :
    (∃ name ∈ namesOf s, c ∈ name) ↔ c ∈ s := by
  rw [← Text.mem_splitAt_iff hslash]
  refine exists_congr fun name => ?_
  rw [namesOf, List.mem_filter, and_assoc]
  refine and_congr_right fun _ => and_iff_right_of_imp fun hc => ?_
  have hne : name ≠ [] := List.ne_nil_of_mem hc
  have hhere : name ≠ here := by
    rintro rfl
    exact hpoint (List.mem_singleton.mp hc)
  simp [hne, hhere]

theorem hasNull_ofText : (ofText s).hasNull = true ↔ '\x00' ∈ s := by
  rw [hasNull, List.any_eq_true, ← exists_mem_namesOf_iff (s := s)
    (by decide : '\x00' ≠ '/') (by decide)]
  simp only [ofText, List.contains_iff_mem]

/-- A path is written with its own characters, slashes and a point. -/
theorem null_notMem_toText (h : '\x00' ∉ s) : '\x00' ∉ (ofText s).toText := by
  unfold toText
  split
  case isTrue => decide
  case isFalse =>
    rw [List.mem_append, not_or]
    constructor
    · simp only [ofText, rootOf]
      split <;> decide
    · intro hmem
      rcases Text.mem_or_mem_of_mem_joinWith hmem with hsep | ⟨name, hname, hc⟩
      · exact absurd (List.mem_singleton.mp hsep) (by decide)
      · exact h ((exists_mem_namesOf_iff (by decide) (by decide)).mp
          ⟨name, hname, hc⟩)

end Path

-- ================================================================== places

namespace Tree

variable {t : Tree} {p q at' directory : Place} {names : List Text} {n : Nat}
  {octets : Bytes} {s : Text}

theorem contentAt_ok_iff :
    t.contentAt p = .ok octets ↔ t.item? p = some (.file octets) := by
  unfold Tree.contentAt
  cases t.item? p with
  | none => simp
  | some i => cases i <;> simp

/-- What is no directory has an entry. -/
theorem exists_entry {i : Item} (hitem : t.item? p = some i)
    (hi : i ≠ .directory) : ∃ e, t.entry? p = some e := by
  unfold item? at hitem
  split at hitem
  case isTrue => exact absurd (Option.some.inj hitem).symm hi
  case isFalse =>
    obtain ⟨e, he, -⟩ := Option.map_eq_some_iff.mp hitem
    exact ⟨e, he⟩

/-- Two places of which the second may be a link on the way to the first. -/
def Reaches (t : Tree) (q p : Place) : Prop :=
  q = p ∨ ∃ target, t.item? q = some (.link target)

/-- The last name is the only one at which following a link makes a
difference. -/
theorem exists_descend_unfollowed
    {enter enter' : Place → List Text → Except FileError Place}
    (henter : ∀ {start names p}, enter start names = .ok p →
      ∃ q, enter' start names = .ok q ∧ t.Reaches q p)
    (h : descend t true enter at' names = .ok p) :
    ∃ q, descend t false enter' at' names = .ok q ∧ t.Reaches q p := by
  induction names generalizing at' with
  | nil => exact ⟨p, h, .inl rfl⟩
  | cons name rest ih =>
      rw [descend] at h ⊢
      by_cases hhere : name = Path.here
      · rw [if_pos hhere] at h ⊢
        exact ih h
      rw [if_neg hhere] at h ⊢
      by_cases habove : name = Path.above
      · rw [if_pos habove] at h ⊢
        exact ih h
      rw [if_neg habove] at h ⊢
      by_cases hlong : nameLimit < (Utf8.encode name).length
      · rw [if_pos hlong] at h
        cases h
      rw [if_neg hlong] at h ⊢
      dsimp only at h ⊢
      generalize at' ++ [name] = place at *
      cases hitem : t.item? place with
      | none =>
          rw [hitem] at h
          cases h
      | some i =>
          rw [hitem] at h
          cases i with
          | directory => exact ih h
          | file _
          | lockedFile
          | lockedDirectory =>
              cases rest with
              | nil => exact ⟨p, h, .inl rfl⟩
              | cons next rest => cases h
          | link target =>
              cases rest with
              | nil => exact ⟨place, rfl, .inr ⟨target, hitem⟩⟩
              | cons next rest => exact henter h

theorem exists_follow_unfollowed
    (h : follow t true n at' names = .ok p) :
    ∃ q, follow t false n at' names = .ok q ∧ t.Reaches q p := by
  induction n generalizing at' names p with
  | zero =>
      refine exists_descend_unfollowed (fun hloop => ?_) h
      cases hloop
  | succ n ih => exact exists_descend_unfollowed ih h

theorem exists_locate_unfollowed (h : t.locate true directory s = .ok p) :
    ∃ q, t.locate false directory s = .ok q ∧ t.Reaches q p := by
  unfold locate at h ⊢
  by_cases hempty : s.isEmpty
  · rw [if_pos hempty] at h
    cases h
  rw [if_neg hempty] at h ⊢
  by_cases hlong : pathLimit ≤ (Utf8.encode s).length
  · rw [if_pos hlong] at h
    cases h
  rw [if_neg hlong] at h ⊢
  exact exists_follow_unfollowed h

/-- What has content by a name has an entry by that name. -/
theorem exists_ownEntry (h : t.locate true directory s = .ok p)
    (hfile : t.item? p = some (.file octets)) :
    ∃ q e, t.locate false directory s = .ok q ∧ t.entry? q = some e := by
  obtain ⟨q, hq, rfl | ⟨target, htarget⟩⟩ := exists_locate_unfollowed h
  · obtain ⟨e, he⟩ := exists_entry hfile nofun
    exact ⟨q, e, hq, he⟩
  · obtain ⟨e, he⟩ := exists_entry htarget nofun
    exact ⟨q, e, hq, he⟩

end Tree

end AuditTrail
