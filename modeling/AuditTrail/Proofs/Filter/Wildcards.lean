/-
Which names a filter excludes.

A parameter is masked if its name can be cut along one of the filter's
patterns, a header is dropped if its name can be cut along one with letters
taken as alike in case: the names are compared in lower case, and lower case
of plain letters changes neither what a star or a question mark takes nor
where the pieces end.
-/
import AuditTrail.Filter.Basic
import AuditTrail.Proofs.Text.Glob

namespace AuditTrail.Filter

open Glob (AlikeInCase Matches Takes)

variable {f : Filter} {name : Text}

/-- Every character of a text is one of the first 128. -/
def Ascii (s : Text) : Prop := ∀ c ∈ s, c.toNat < 0x80

instance (s : Text) : Decidable (Ascii s) := List.decidableBAll _ s

theorem excludesUrlParam_iff (h : ∀ p ∈ f.ignoreUrlParams, '[' ∉ p) :
    f.excludesUrlParam name = true
      ↔ ∃ p ∈ f.ignoreUrlParams, Matches Eq p name := by
  rw [excludesUrlParam, List.any_eq_true]
  exact exists_congr fun p => and_congr_right fun hp => Glob.covers_iff (h p hp)

theorem excludesHeader_iff (h : ∀ p ∈ f.ignoreHeaders, '[' ∉ p)
    (hpatterns : ∀ p ∈ f.ignoreHeaders, Ascii p) (hname : Ascii name) :
    f.excludesHeader name = true
      ↔ ∃ p ∈ f.ignoreHeaders, Matches AlikeInCase p name := by
  rw [excludesHeader, List.any_eq_true]
  refine exists_congr fun p => and_congr_right fun hp => ?_
  rw [Text.lower_of_ascii hname, Text.lower_of_ascii (hpatterns p hp)]
  exact Glob.covers_map_toLower_iff (h p hp)

/-- A filter whose patterns hold no brackets excludes exactly the names that
can be cut into consecutive pieces along one of its patterns: parameters as
they are written, headers whatever the case of their letters. -/
theorem excludes_iff (f : Filter) (name : Text)
    (hparams : ∀ p ∈ f.ignoreUrlParams, '[' ∉ p)
    (hheaders : ∀ p ∈ f.ignoreHeaders, '[' ∉ p) :
    (f.excludesUrlParam name = true
      ↔ ∃ p ∈ f.ignoreUrlParams, Matches Eq p name)
    ∧ ((∀ p ∈ f.ignoreHeaders, Ascii p) → Ascii name →
      (f.excludesHeader name = true
        ↔ ∃ p ∈ f.ignoreHeaders, Matches AlikeInCase p name)) :=
  ⟨excludesUrlParam_iff hparams, excludesHeader_iff hheaders⟩

/-- A pattern whose letters stand in a name at two places that overlap. -/
def overlapping : Filter :=
  ⟨true, true, ["*AAB?".toList], ["*aab?".toList]⟩

/-- The star takes one letter, although the two that follow it could have
been the pattern's, and the question mark takes a line feed. The header is
written in other case than its pattern. -/
theorem excludes_iff_overlapping :
    overlapping.excludesUrlParam "aaab\n".toList = true
      ∧ overlapping.excludesHeader "aAab\n".toList = true := by
  have hboth := excludes_iff overlapping
  refine ⟨(hboth _ (by decide) (by decide)).1.mpr ⟨_, .head _,
      [['a'], ['a'], ['a'], ['b'], ['\n']], ?_, rfl⟩,
    ((hboth _ (by decide) (by decide)).2 (by decide) (by decide)).mpr
      ⟨_, .head _, [['a'], ['A'], ['a'], ['b'], ['\n']], ?_, rfl⟩⟩
  · exact .cons (.star _) (.cons (.itself (by decide) (by decide) rfl)
      (.cons (.itself (by decide) (by decide) rfl)
        (.cons (.itself (by decide) (by decide) rfl) (.cons (.any _) .nil))))
  · exact .cons (.star _) (.cons (.itself (by decide) (by decide) rfl)
      (.cons (.itself (by decide) (by decide) rfl)
        (.cons (.itself (by decide) (by decide) rfl) (.cons (.any _) .nil))))

end AuditTrail.Filter
