/-
Records as maps from fields to values: what a field holds after a write,
and properties of all values of a record.

`Every` is the shape of the invariants of records: it holds of a record as
soon as it holds of every write that the record was made by, so a run
keeps it if every operation of the run writes only what has the property.
-/
import AuditTrail.Proofs.Keyed
import AuditTrail.Record.Call

namespace AuditTrail.Record

/-- A machine without files and users, known to nobody. -/
def bareHost : Host :=
  ⟨.empty, [], [], [], [], [], fun _ => .unknown, []⟩

variable {p : Field → Value → Prop} {r : Record} {w : Write} {ws : List Write}
  {f : Field}

-- ======================================================== single writes

/-- What is found under a key is there. -/
theorem mem_of_lookup_eq_some {α β : Type} [BEq α] [LawfulBEq α]
    {l : List (α × β)} {k : α} {v : β} (h : l.lookup k = some v) :
    (k, v) ∈ l := by
  obtain ⟨l₁, l₂, rfl, -⟩ := List.lookup_eq_some_iff.mp h
  exact List.mem_append_right _ List.mem_cons_self

/-- Fields are entries under keys. -/
theorem putField_eq (f : Field) (v : Value) (fields : List (Field × Value)) :
    putField f v fields = Keyed.put f v fields := by
  induction fields with
  | nil => rfl
  | cons e rest ih => rw [putField, Keyed.put, ih]

theorem fields_putAll_eq (r : Record) (ws : List Write) :
    (r.putAll ws).fields = Keyed.putAll r.fields ws := by
  induction ws generalizing r with
  | nil => rfl
  | cons w ws ih =>
      have hfirst : (r.put w).fields = Keyed.put w.1 w.2 r.fields :=
        putField_eq w.1 w.2 r.fields
      exact (ih (r.put w)).trans (by rw [hfirst]; rfl)

/-- A write changes its own field only. -/
theorem get?_put (r : Record) (w : Write) (f : Field) :
    (r.put w).get? f = if w.1 = f then some w.2 else r.get? f := by
  show (putField w.1 w.2 r.fields).lookup f = _
  rw [putField_eq, Keyed.lookup_put]
  rfl

theorem putAll_cons (r : Record) (w : Write) (ws : List Write) :
    r.putAll (w :: ws) = (r.put w).putAll ws := rfl

theorem putAll_append (r : Record) (ws ws' : List Write) :
    r.putAll (ws ++ ws') = (r.putAll ws).putAll ws' :=
  List.foldl_append

/-- Writes to other fields leave a field as it is. -/
theorem get?_putAll_of_ne (h : ∀ w ∈ ws, w.1 ≠ f) :
    (r.putAll ws).get? f = r.get? f := by
  induction ws generalizing r with
  | nil => rfl
  | cons w ws ih =>
      obtain ⟨hw, hws⟩ := List.forall_mem_cons.mp h
      rw [putAll_cons, ih hws, get?_put, if_neg hw]

/-- A field holds what was written to it last. -/
theorem get?_putAll_append (h : ∀ w ∈ ws, w.1 ≠ f) (ws' : List Write)
    (v : Value) :
    (r.putAll (ws' ++ (f, v) :: ws)).get? f = some v := by
  rw [putAll_append, putAll_cons, get?_putAll_of_ne h, get?_put, if_pos rfl]

theorem get?_putAll_singleton (r : Record) (f : Field) (v : Value) :
    (r.putAll [(f, v)]).get? f = some v :=
  get?_putAll_append (fun _ hw => absurd hw List.not_mem_nil) [] v

/-- A field holds a value if nothing else is written to it, but that is. -/
theorem get?_putAll_of_forall {field : Field} {v : Value}
    (hsome : ∃ w ∈ ws, w.1 = field)
    (hall : ∀ w ∈ ws, w.1 = field → w.2 = v) :
    (r.putAll ws).get? field = some v := by
  induction ws generalizing r with
  | nil =>
      obtain ⟨w, hw, -⟩ := hsome
      cases hw
  | cons w ws ih =>
      obtain ⟨hw, hws⟩ := List.forall_mem_cons.mp hall
      rw [putAll_cons]
      by_cases hlater : ∃ w' ∈ ws, w'.1 = field
      · exact ih hlater hws
      · -- then it is this write, and it stays
        have hwf : w.1 = field := by
          obtain ⟨w', hw', hwf⟩ := hsome
          rcases List.mem_cons.mp hw' with rfl | hw'
          · exact hwf
          · exact absurd ⟨w', hw', hwf⟩ hlater
        rw [get?_putAll_of_ne fun w' hw' hwf' => hlater ⟨w', hw', hwf'⟩,
          get?_put, if_pos hwf, hw hwf]

-- ================================================ properties of a record

/-- Every field that is set holds a value with a property. -/
def Every (p : Field → Value → Prop) (r : Record) : Prop :=
  ∀ f v, r.get? f = some v → p f v

theorem every_empty : Every p ⟨[]⟩ := by
  intro f v h
  cases h

theorem Every.put (h : r.Every p) (hw : p w.1 w.2) : (r.put w).Every p := by
  intro f v hf
  rw [get?_put] at hf
  split at hf
  case isTrue hwf =>
    injection hf with hv
    rw [← hwf, ← hv]
    exact hw
  case isFalse => exact h f v hf

theorem Every.putAll (h : r.Every p) (hws : ∀ w ∈ ws, p w.1 w.2) :
    (r.putAll ws).Every p := by
  induction ws generalizing r with
  | nil => exact h
  | cons w ws ih =>
      obtain ⟨hw, hws'⟩ := List.forall_mem_cons.mp hws
      exact ih (h.put hw) hws'

-- ================================================================ runs

theorem run_cons (h : Host) (r : Record) (c : Call) (cs : List Call) :
    r.run h (c :: cs) = (r.apply h c).run h cs := rfl

/-- A property that every operation of a run keeps holds after the run. -/
theorem run_preserves {q : Record → Prop} {h : Host} {cs : List Call}
    (step : ∀ c ∈ cs, ∀ r, q r → q (r.apply h c)) (hr : q r) :
    q (r.run h cs) := by
  induction cs generalizing r with
  | nil => exact hr
  | cons c cs ih =>
      obtain ⟨hc, hcs⟩ := List.forall_mem_cons.mp step
      rw [run_cons]
      exact ih hcs (hc r hr)

/-- A field holds after a run what an operation of the run wrote last. -/
theorem get?_run_of_step {h : Host} {cs : List Call} {f : Field}
    (write : Call → Option Value)
    (step : ∀ c ∈ cs, ∀ r : Record,
      (r.apply h c).get? f = (write c).or (r.get? f)) :
    (r.run h cs).get? f = (cs.filterMap write).getLast?.or (r.get? f) := by
  induction cs generalizing r with
  | nil => rfl
  | cons c cs ih =>
      obtain ⟨hc, hcs⟩ := List.forall_mem_cons.mp step
      rw [run_cons, ih hcs, hc, List.filterMap_cons]
      cases write c with
      | none => rfl
      | some v =>
          rw [List.getLast?_cons]
          cases (cs.filterMap write).getLast? with
          | none => rfl
          | some w => rfl

end AuditTrail.Record
