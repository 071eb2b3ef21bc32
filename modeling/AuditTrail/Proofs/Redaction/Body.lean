/-
Which bodies redaction replaces.

A body is replaced if it mentions a password and is sent to an endpoint that
administers accounts. The endpoints are told by the beginning of the path,
below one of two roots, and the path has to be one line from there on
(`isSensitivePath_iff`); the word may stand anywhere in the body
(`mentionsPassword_iff`).
-/
import AuditTrail.Proofs.Redaction.Language
import AuditTrail.Redaction.Body
import Mathlib.Data.List.Infix

namespace AuditTrail

theorem Text.hasPiece_iff {s piece : Text} :
    s.hasPiece piece = true ↔ piece <:+: s := by
  induction s with
  | nil => simp [hasPiece]
  | cons c rest ih =>
      rw [hasPiece, Bool.or_eq_true, List.isPrefixOf_iff_prefix,
        List.infix_cons_iff, ih]

namespace Redaction

variable {path tail out : Text}

-- =============================================================== paths

/-- A path begins with an endpoint that administers accounts, and `tail`
follows. -/
def BelowEndpoint (path tail : Text) : Prop :=
  ∃ root ∈ securityRoots, ∃ name ∈ accountEndpoints,
    path = root ++ name ++ tail

/-- The test of a path asks for an endpoint and for no line feed behind
it. -/
theorem isSensitivePath_iff :
    isSensitivePath path = true
      ↔ ∃ tail, BelowEndpoint path tail ∧ '\n' ∉ tail := by
  have hline : ∀ tail : Text,
      tail.all (· != '\n') = true ↔ '\n' ∉ tail := by
    intro tail
    rw [List.all_eq_true]
    exact ⟨fun h hmem => absurd rfl (bne_iff_ne.mp (h _ hmem)),
      fun h c hc => bne_iff_ne.mpr fun heq => h (heq ▸ hc)⟩
  unfold isSensitivePath
  rw [List.any_eq_true]
  constructor
  · rintro ⟨root, hroot, h⟩
    split at h
    case h_1 => cases h
    case h_2 rest hrest =>
      obtain ⟨name, hname, h⟩ := List.any_eq_true.mp h
      split at h
      case h_1 => cases h
      case h_2 tail htail =>
        refine ⟨tail, ⟨root, hroot, name, hname, ?_⟩, (hline tail).mp h⟩
        rw [Text.after?_eq_some_iff.mp hrest, Text.after?_eq_some_iff.mp htail,
          List.append_assoc]
  · rintro ⟨tail, ⟨root, hroot, name, hname, rfl⟩, htail⟩
    refine ⟨root, hroot, ?_⟩
    rw [List.append_assoc, Text.after?_eq_some_iff.mpr rfl]
    refine List.any_eq_true.mpr ⟨name, hname, ?_⟩
    rw [Text.after?_eq_some_iff.mpr rfl]
    exact (hline tail).mpr htail

/-- Below an endpoint a path is sensitive unless a line feed follows: the
beginnings have none, so that any of them leaves the same line feeds. -/
theorem BelowEndpoint.isSensitivePath_iff (h : BelowEndpoint path tail) :
    isSensitivePath path = true ↔ '\n' ∉ tail := by
  constructor
  · intro hsensitive hmem
    obtain ⟨rest, ⟨root, hroot, name, hname, heq⟩, hrest⟩ :=
      Redaction.isSensitivePath_iff.mp hsensitive
    have hlead : ∀ root ∈ securityRoots, '\n' ∉ root := by
      simp [securityRoots]
    have hend : ∀ name ∈ accountEndpoints, '\n' ∉ name := by
      simp [accountEndpoints]
    have hpath : '\n' ∈ path := by
      obtain ⟨_, -, _, -, rfl⟩ := h
      exact List.mem_append_right _ hmem
    rw [heq] at hpath
    rcases List.mem_append.mp hpath with hpath | hpath
    · rcases List.mem_append.mp hpath with hpath | hpath
      · exact hlead root hroot hpath
      · exact hend name hname hpath
    · exact hrest hpath
  · exact fun htail => Redaction.isSensitivePath_iff.mpr ⟨tail, h, htail⟩

-- ============================================================== bodies

theorem mentionsPassword_iff :
    mentionsPassword out = true ↔ sensitiveWord <:+: out :=
  Text.hasPiece_iff

theorem ne_nil_of_mentionsPassword (h : mentionsPassword out = true) :
    out ≠ [] := by
  rintro rfl
  cases h

/-- The placeholder does not mention one itself. -/
theorem ne_placeholder_of_mentionsPassword (h : mentionsPassword out = true) :
    out ≠ bodyPlaceholder := by
  rintro rfl
  have hletter : 'p' ∈ sensitiveWord := by decide
  have hmissing : 'p' ∉ bodyPlaceholder := by decide
  exact hmissing ((mentionsPassword_iff.mp h).subset hletter)

/-- What is recorded of a body that mentions a password. -/
theorem BelowEndpoint.redactBody_eq (h : BelowEndpoint path tail)
    (hmentions : mentionsPassword out = true) :
    redactBody (some path) out
      = if '\n' ∈ tail then out else bodyPlaceholder := by
  unfold redactBody
  rw [Option.any_some, hmentions, Bool.and_true]
  by_cases htail : '\n' ∈ tail
  · rw [if_pos htail, if_neg fun hsensitive =>
      h.isSensitivePath_iff.mp hsensitive htail]
  · rw [if_neg htail, if_pos (h.isSensitivePath_iff.mpr htail)]

end Redaction

end AuditTrail
