/-
What faults are caught as.

An object may raise what it likes: something that is not of the ordinary
kind, or something that raises again when it is to be put into words. A
fault that is none of an object's (`IsOwn`) is caught as its class says, is
of the ordinary kind, and has its message.
-/
import AuditTrail.Fault

namespace AuditTrail

/-- No class is outside of the ordinary kind. -/
theorem Objection.Kind.ofFamily_ne_beyond (family : Text) :
    Kind.ofFamily family ≠ .beyond := by
  unfold ofFamily
  repeat' split
  all_goals exact nofun

namespace Fault

variable {e : Fault}

/-- A fault that no object raises. -/
def IsOwn (e : Fault) : Prop :=
  e.raised = .told e.family (.ofFamily e.family) e.message

theorem IsOwn.isOrdinary (he : e.IsOwn) : e.isOrdinary = true := by
  unfold Fault.isOrdinary
  rw [he]
  exact bne_iff_ne.mpr (Objection.Kind.ofFamily_ne_beyond _)

theorem IsOwn.wording_eq (he : e.IsOwn) : e.wording = .ok e.message := by
  unfold wording
  rw [he]

end Fault

end AuditTrail
