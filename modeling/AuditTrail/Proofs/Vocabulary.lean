/-
The texts of the vocabulary: none is empty or longer than a line, and the
keys of the written record tell its fields apart.
-/
import AuditTrail.Vocabulary
import Mathlib.Data.List.Nodup

namespace AuditTrail

theorem Term.wire_ne_nil (t : Term) : t.wire ≠ [] := by
  cases t with
  | field x
  | category x
  | origin x
  | operation x
  | method x => cases x <;> exact mt String.toList_eq_nil_iff.mp (by simp)

theorem Field.mem_all (f : Field) : f ∈ Field.all := by
  cases f <;> decide

/-- The keys are told apart and looked through in one go. -/
theorem Field.wires : (Field.all.map Field.wire).Nodup
    ∧ ∀ s ∈ Field.all.map Field.wire, '\n' ∉ s := by decide +kernel

/-- Different fields have different keys. -/
theorem Field.wire_injective : Function.Injective Field.wire :=
  fun f g h => List.inj_on_of_nodup_map Field.wires.1 f.mem_all g.mem_all h

/-- Every text of the vocabulary is one line. -/
theorem Term.newline_notMem_wire (t : Term) : '\n' ∉ t.wire := by
  cases t with
  | field f => exact Field.wires.2 _ (List.mem_map_of_mem f.mem_all)
  | category x
  | origin x
  | operation x
  | method x => cases x <;> decide

end AuditTrail
