/-
What the query of a record says, and what its text says.

Both are made from the same names and texts of fields (`strings`). The query
keeps all of them, and reading it gives them back; the text keeps those that
are not empty. So the text can be told from the query alone.
-/
import AuditTrail.Proofs.Results
import AuditTrail.Proofs.Text.Form
import AuditTrail.Record.Projection
import Mathlib.Data.List.Forall2

namespace AuditTrail.Projection

open Text.Form (readQuery)

variable {fields : Fields} {pairs : List (Text × Text)}

/-- A field, and its name with the text of its value; null has the empty
one. -/
def Shows (f : Text × Value) (p : Text × Text) : Prop :=
  p.1 = f.1 ∧ ∃ s, stringForm? f.2 = .ok s ∧ p.2 = s.getD []

/-- A line for each named text that is not empty. -/
def textOfPairs (pairs : List (Text × Text)) : Text :=
  Text.joinWith ['\n'] ((pairs.filter fun p => !p.2.isEmpty).map fun p =>
    p.1 ++ [':', ' '] ++ p.2)

/-- Where every value has a text, the fields have theirs, in order. -/
theorem exists_strings (h : ∀ f ∈ fields, ∃ s, stringForm? f.2 = .ok s) :
    ∃ pairs, strings fields = .ok pairs ∧ List.Forall₂ Shows fields pairs := by
  induction fields with
  | nil => exact ⟨[], rfl, .nil⟩
  | cons f fields ih =>
      obtain ⟨⟨s, hs⟩, hfields⟩ := List.forall_mem_cons.mp h
      obtain ⟨pairs, hpairs, hshows⟩ := ih hfields
      have hform : stringForm f.2 = .ok (s.getD []) := by
        rw [stringForm, hs]
        rfl
      refine ⟨(f.1, s.getD []) :: pairs, ?_, .cons ⟨rfl, s, hs, rfl⟩ hshows⟩
      rw [strings, hform, hpairs]
      rfl

/-- Where every value has a text, the query of some fields is read back as
their names and texts, all of them and in order, and the text of the fields
is the text of what is read. -/
theorem query_readBack (hne : fields ≠ [])
    (h : ∀ f ∈ fields, ∃ s, stringForm? f.2 = .ok s) :
    ∃ components pairs, query fields = .ok ('?' :: components)
      ∧ readQuery components = some pairs
      ∧ List.Forall₂ Shows fields pairs
      ∧ text fields = .ok (textOfPairs pairs) := by
  obtain ⟨pairs, hpairs, hshows⟩ := exists_strings h
  have hsome : pairs ≠ [] := by
    rintro rfl
    cases hshows
    exact hne rfl
  refine ⟨Text.Form.query pairs, pairs, ?_, Text.Form.readQuery_query hsome,
    hshows, ?_⟩
  · rw [query, hpairs]
    simp only [bind, Except.bind, Text.Form.flaw?_none]
    exact congrArg _ (if_neg (mt List.isEmpty_iff.mp hsome))
  · rw [text, hpairs]
    rfl

/-- Fields with separators in their names and values, an empty name, and
values that are missing, empty and nested. -/
def separatorFields : Fields :=
  [("a=b".toList, .text "1&2+3% 4".toList), ([], .text "é".toList),
    ("none".toList, .null), ("x".toList, .map [(.bool true, .list [.null])]),
    ("empty".toList, .text [])]

/-- What is read back of them. -/
def separatorPairs : List (Text × Text) :=
  [("a=b".toList, "1&2+3% 4".toList), ([], "é".toList), ("none".toList, []),
    ("x".toList, "\x7b\x22true\x22:[null]\x7d".toList), ("empty".toList, [])]

theorem query_readBack_separators :
    ∃ components, query separatorFields = .ok ('?' :: components)
      ∧ readQuery components = some separatorPairs
      ∧ text separatorFields = .ok (textOfPairs separatorPairs) := by
  have hforms : ∀ f ∈ separatorFields, ∃ s, stringForm? f.2 = .ok s := by
    simp only [separatorFields, List.forall_mem_cons]
    exact ⟨⟨_, rfl⟩, ⟨_, rfl⟩, ⟨_, rfl⟩, ⟨_, rfl⟩, ⟨_, rfl⟩,
      fun _ hf => absurd hf List.not_mem_nil⟩
  obtain ⟨components, pairs, hquery, hread, -, htext⟩ :=
    query_readBack (show separatorFields ≠ [] from List.cons_ne_nil _ _) hforms
  have hcomponents : (query separatorFields).toOption.bind
      (fun s => readQuery s.tail) = some separatorPairs := by decide
  rw [hquery] at hcomponents
  obtain rfl : pairs = separatorPairs :=
    Option.some.inj (hread.symm.trans hcomponents)
  exact ⟨components, hquery, hread, htext⟩

end AuditTrail.Projection
