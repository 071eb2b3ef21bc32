/-
Values that are there, and what a walk through them gives.

Asking whether a value is there gives what `truthy` says, unless an object
refuses to tell; then it does not count as present either
(`truth_eq_true_iff`). A value is walked through to the end, or an object
breaks the walk off, or there is no walk at all (`walkThrough_cases`). What
is there need not have items: an object may be present and have none
(`Hollow`), and nothing else may (`hollow_iff`).
-/
import AuditTrail.Proofs.Vocabulary
import AuditTrail.Value.Sequence

namespace AuditTrail.Value

variable {v : Value} {b : Bool} {o : Objection} {vs : List Value}

-- ============================================================== presence

/-- What refuses to tell whether it is there does not count as present. -/
theorem not_truthy_of_refused (h : v.absenceRefused? = some o) :
    v.truthy = false := by
  cases v with
  | agent c items =>
      rw [absenceRefused?] at h
      rw [truthy]
      cases hpresence : c.presence with
      | ok b =>
          rw [hpresence] at h
          cases h
      | error e => rfl
  | _ => cases h

theorem truth_eq_ok_iff :
    v.truth = .ok b ↔ v.absenceRefused? = none ∧ v.truthy = b := by
  unfold truth
  cases v.absenceRefused? with
  | none => rw [Except.ok.injEq, and_iff_right rfl]
  | some o => exact iff_of_false nofun fun h => nomatch h.1

/-- A value is there exactly if it says so. -/
theorem truth_eq_true_iff : v.truth = .ok true ↔ v.truthy = true := by
  rw [truth_eq_ok_iff, and_iff_right_of_imp fun htruthy => ?_]
  rw [Option.eq_none_iff_forall_ne_some]
  intro o ho
  rw [not_truthy_of_refused ho] at htruthy
  cases htruthy

/-- A text is present unless it is empty. -/
theorem truthy_text {s : Text} (h : s ≠ []) :
    (Value.text s).truthy = true := by
  cases s with
  | nil => exact absurd rfl h
  | cons c s => rfl

theorem truthy_map {entries : Entries} (h : entries ≠ []) :
    (Value.map entries).truthy = true := by
  cases entries with
  | nil => exact absurd rfl h
  | cons e rest => rfl

-- ================================================================== forms

/-- A value that can be written out is written in its plain form. -/
theorem eq_plain_of_plainText {s : Text} (h : v.plainText = .ok s) :
    s = v.plain := by
  unfold plainText at h
  split at h
  case h_1 => cases h
  case h_2 =>
    cases h
    rfl

-- ================================================================== walks

theorem walkThrough_of_items {α : Type} {use : List Value → Except Fault α}
    {otherwise : Fault} (h : v.items? = some vs) :
    v.walkThrough use otherwise = use vs := by
  rw [walkThrough, h]

/-- The three ends of a walk. -/
theorem walkThrough_cases {α : Type} (use : List Value → Except Fault α)
    (otherwise : Fault) (v : Value) :
    (∃ vs, v.items? = some vs ∧ v.walkThrough use otherwise = use vs)
      ∨ (∃ vs o, v.items? = none ∧ v.broken? = some (vs, o)
        ∧ v.walkThrough use otherwise
          = use vs >>= fun _ => .error (.refused o))
      ∨ v.items? = none ∧ v.broken? = none
        ∧ v.walkThrough use otherwise = .error otherwise := by
  cases hitems : v.items? with
  | some vs => exact .inl ⟨vs, rfl, walkThrough_of_items hitems⟩
  | none =>
      right
      cases hbroken : v.broken? with
      | some p =>
          refine .inl ⟨p.1, p.2, rfl, rfl, ?_⟩
          rw [walkThrough, hitems, hbroken]
      | none =>
          refine .inr ⟨rfl, rfl, ?_⟩
          rw [walkThrough, hitems, hbroken]

/-- The items that a walk comes to, whether it gets to the end or not. -/
def reached? (v : Value) : Option (List Value) :=
  v.items?.or (v.broken?.map (·.1))

/-- An item that is at fault is so before a walk is broken off. -/
theorem walkThrough_of_error {α : Type} {use : List Value → Except Fault α}
    {otherwise e : Fault} (h : v.reached? = some vs)
    (huse : use vs = .error e) : v.walkThrough use otherwise = .error e := by
  unfold reached? at h
  rcases walkThrough_cases use otherwise v with
    ⟨ws, hws, hwalk⟩ | ⟨ws, o, hnone, hbroken, hwalk⟩ | ⟨hnone, hbroken, -⟩
  · rw [hws, Option.some_or, Option.some.injEq] at h
    rw [hwalk, h, huse]
  · rw [hnone, hbroken] at h
    obtain rfl : ws = vs := Option.some.inj h
    rw [hwalk, huse]
    rfl
  · rw [hnone, hbroken] at h
    cases h

/-- A result of a walk is made of all items. -/
theorem exists_of_walkThrough_eq_ok {α : Type} {a : α}
    {use : List Value → Except Fault α} {otherwise : Fault}
    (h : v.walkThrough use otherwise = .ok a) :
    ∃ vs, v.items? = some vs ∧ use vs = .ok a := by
  rcases walkThrough_cases use otherwise v with
    ⟨vs, hvs, huse⟩ | ⟨vs, o, -, -, huse⟩ | ⟨-, -, huse⟩
  · exact ⟨vs, hvs, huse.symm.trans h⟩
  · rw [huse] at h
    cases hresult : use vs with
    | error e =>
        rw [hresult] at h
        cases h
    | ok b =>
        rw [hresult] at h
        cases h
  · rw [huse] at h
    cases h

theorem items_eq_ok_iff : v.items = .ok vs ↔ v.items? = some vs := by
  constructor
  · intro h
    obtain ⟨ws, hws, hok⟩ := exists_of_walkThrough_eq_ok h
    rw [hws, Except.ok.inj hok]
  · exact walkThrough_of_items

-- ============================================================ hollow objects

/-- An object that is there and has no items to walk through: one that says
that it is there, or one that says nothing of that. -/
inductive Hollow : Value → Prop
  | agent {c : Conduct} (hpresence : c.presence = .ok true)
      (hwalk : c.walk = .whole) : Hollow (.agent c [])
  | foreign {o : Foreign} (hwalk : o.walkable = true) : Hollow (.foreign o [])

/-- Nothing but such an object is there and has no items. -/
theorem hollow_of_items (hpresent : v.truthy = true)
    (hitems : v.items? = some []) : v.Hollow := by
  cases v with
  | list vs
  | tuple vs
  | set vs =>
      cases hitems
      cases hpresent
  | map entries
  | text s
  | bytes octets =>
      rw [List.map_eq_nil_iff.mp (Option.some.inj hitems)] at hpresent
      cases hpresent
  | term t =>
      exact absurd (List.map_eq_nil_iff.mp (Option.some.inj hitems))
        t.wire_ne_nil
  | foreign o parts =>
      change (if o.walkable then _ else none) = _ at hitems
      split at hitems
      case isFalse => cases hitems
      case isTrue hwalk =>
        obtain rfl := List.map_eq_nil_iff.mp (Option.some.inj hitems)
        exact .foreign hwalk
  | agent c items =>
      rw [truthy] at hpresent
      rw [items?] at hitems
      cases hwalk : c.walk with
      | whole =>
          rw [hwalk] at hitems
          cases hitems
          cases hpresence : c.presence with
          | ok b =>
              rw [hpresence] at hpresent
              exact .agent (hpresence.trans (congrArg _ hpresent)) hwalk
          | error e =>
              rw [hpresence] at hpresent
              cases hpresent
      | none
      | broken e =>
          rw [hwalk] at hitems
          cases hitems
  | null
  | bool b
  | int n
  | float x
  | date d
  | dateTime d
  | cycle e => cases hitems

theorem hollow_iff :
    v.Hollow ↔ v.truthy = true ∧ v.items? = some [] := by
  constructor
  · intro h
    cases h with
    | agent hpresence hwalk =>
        rw [truthy, items?, hpresence, hwalk]
        exact ⟨rfl, rfl⟩
    | foreign hwalk =>
        rw [truthy, items?, if_pos hwalk]
        exact ⟨rfl, rfl⟩
  · exact fun ⟨hpresent, hitems⟩ => hollow_of_items hpresent hitems

/-- An iterator over the items of a list, which has none left after one
walk. -/
def iterator (items : List Value) : Value :=
  let shown := "<list_iterator object at 0x7f0000000000>".toList
  .agent
    { family := "list_iterator".toList
      qualified := "list_iterator".toList
      hashable := true
      presence := .ok true
      walk := .whole
      once := true
      plain := .ok shown
      quoted := .ok shown } items

end AuditTrail.Value
