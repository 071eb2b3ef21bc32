/-
Results that are there or a fault.

What is known of a result that is changed or used afterwards: where the whole
is there its parts are, and where one part fails the whole does.
-/
namespace AuditTrail

variable {ε α β : Type} {x : Except ε α} {a : α} {b : β}

-- ===================================================== results that are there

/-- A result that there is comes from success. -/
theorem eq_ok_of_toOption (h : x.toOption = some a) : x = .ok a := by
  cases x with
  | error e => cases h
  | ok b => rw [Option.some.inj h]

theorem exists_of_map_eq_ok {g : α → β} (h : x.map g = .ok b) :
    ∃ a, x = .ok a ∧ b = g a := by
  cases x with
  | error e => cases h
  | ok a =>
      cases h
      exact ⟨a, rfl, rfl⟩

theorem exists_of_bind_eq_ok {g : α → Except ε β} (h : x >>= g = .ok b) :
    ∃ a, x = .ok a ∧ g a = .ok b := by
  cases x with
  | error e => cases h
  | ok a => exact ⟨a, rfl, h⟩

/-- A result that is changed afterwards is there if it was there before. -/
theorem exists_map_iff (g : α → β) :
    (∃ b, x.map g = .ok b) ↔ ∃ a, x = .ok a := by
  cases x with
  | error e => exact ⟨fun ⟨_, h⟩ => (nomatch h), fun ⟨_, h⟩ => (nomatch h)⟩
  | ok a => exact ⟨fun _ => ⟨a, rfl⟩, fun _ => ⟨g a, rfl⟩⟩

/-- A result that is used afterwards is there if all that is used is. -/
theorem exists_bind_iff {p : Prop} {g : α → Except ε β}
    (hg : ∀ a, (∃ b, g a = .ok b) ↔ p) :
    (∃ b, x >>= g = .ok b) ↔ (∃ a, x = .ok a) ∧ p := by
  cases x with
  | error e =>
      exact ⟨fun ⟨_, h⟩ => (nomatch h), fun ⟨⟨_, h⟩, _⟩ => (nomatch h)⟩
  | ok a =>
      exact ⟨fun h => ⟨⟨a, rfl⟩, (hg a).mp h⟩, fun h => (hg a).mpr h.2⟩

-- ============================================================ results that fail

/-- A result that is used afterwards fails as it is made or as it is used. -/
theorem cases_of_bind_eq_error {e : ε} {g : α → Except ε β}
    (h : x >>= g = .error e) :
    x = .error e ∨ ∃ a, x = .ok a ∧ g a = .error e := by
  cases x with
  | error e' =>
      cases h
      exact .inl rfl
  | ok a => exact .inr ⟨a, rfl, h⟩

/-- A result that is changed afterwards fails as it did before. -/
theorem eq_error_of_map {e : ε} {g : α → β}
    (h : (x >>= fun a => .ok (g a)) = .error e) : x = .error e := by
  cases x with
  | error e' =>
      cases h
      rfl
  | ok a => cases h

end AuditTrail
