/-
Which values have JSON text.

Neither the layout nor the depth decides whether a value can be written,
but only whether plain forms may stand in for missing ones: `Writable` says
of the parts of a value what each of them must be. Writing succeeds exactly
on such values (`exists_writeAt_iff`), by recursion along with the writer.
-/
import AuditTrail.Json.Writer
import AuditTrail.Proofs.Results

namespace AuditTrail

namespace Json

variable {style : Style} {lenient : Bool}

-- ======================================================= writable values

/-- The values that can be keys of written maps. -/
inductive IsKey : Value → Prop
  | null : IsKey .null
  | bool {b : Bool} : IsKey (.bool b)
  | float {x : Double} : IsKey (.float x)
  | text {s : Text} : IsKey (.text s)
  | term {t : Term} : IsKey (.term t)
  | int {n : Int} (hn : Value.hasTooManyDigits n = false) : IsKey (.int n)

/-- The values that have a plain form only. -/
inductive PlainOnly : Value → Prop
  | bytes {octets : Bytes} : PlainOnly (.bytes octets)
  | set {items : List Value} : PlainOnly (.set items)
  | date {d : Date} : PlainOnly (.date d)
  | dateTime {d : DateTime} : PlainOnly (.dateTime d)
  | foreign {o : Foreign} {parts : Value.Entries} :
      PlainOnly (.foreign o parts)
  | agent {c : Conduct} {items : List Value} : PlainOnly (.agent c items)

/-- The values that can be written, by a writer that puts plain forms in
place of missing ones or by one that does not. -/
inductive Writable (lenient : Bool) : Value → Prop
  | null : Writable lenient .null
  | bool {b : Bool} : Writable lenient (.bool b)
  | int {n : Int} (hn : Value.hasTooManyDigits n = false) :
      Writable lenient (.int n)
  | float {x : Double} : Writable lenient (.float x)
  | text {s : Text} : Writable lenient (.text s)
  | term {t : Term} : Writable lenient (.term t)
  | list {items : List Value} (hitems : ∀ v ∈ items, Writable lenient v) :
      Writable lenient (.list items)
  | tuple {items : List Value} (hitems : ∀ v ∈ items, Writable lenient v) :
      Writable lenient (.tuple items)
  | map {entries : Value.Entries} (hkeys : ∀ e ∈ entries, IsKey e.1)
      (hvalues : ∀ e ∈ entries, Writable lenient e.2) :
      Writable lenient (.map entries)
  | plain {v : Value} (hlenient : lenient = true) (hv : PlainOnly v)
      (hshown : v.plainSilence? = none) : Writable lenient v

-- ===================================================== numbers and keys

theorem exists_writeInt_iff (n : Int) :
    (∃ s, writeInt n = .ok s) ↔ Value.hasTooManyDigits n = false := by
  unfold writeInt Value.hasTooManyDigits
  rw [decide_eq_false_iff_not]
  split
  case isTrue h => exact ⟨fun ⟨_, hs⟩ => (nomatch hs), fun hn => absurd h hn⟩
  case isFalse h => exact ⟨fun _ => h, fun _ => ⟨_, rfl⟩⟩

theorem exists_keyText_iff (style : Style) (v : Value) :
    (∃ s, keyText style v = .ok s) ↔ IsKey v := by
  constructor
  · rintro ⟨s, hs⟩
    cases v with
    | null => exact .null
    | bool b => exact .bool
    | float x => exact .float
    | text s => exact .text
    | term t => exact .term
    | int n => exact .int ((exists_writeInt_iff n).mp ⟨s, hs⟩)
    | _ => cases hs
  · intro hv
    cases hv with
    | null
    | bool
    | float
    | text
    | term => exact ⟨_, rfl⟩
    | int hn => exact (exists_writeInt_iff _).mpr hn

theorem writable_int_iff (n : Int) :
    Writable lenient (.int n) ↔ Value.hasTooManyDigits n = false := by
  refine ⟨fun h => ?_, .int⟩
  cases h with
  | int hn => exact hn
  | plain _ hv => cases hv

/-- A plain form has to be there. -/
theorem writable_iff_of_plainOnly {v : Value} (hv : PlainOnly v) :
    Writable true v ↔ v.plainSilence? = none := by
  refine ⟨fun h => ?_, .plain rfl hv⟩
  cases h with
  | plain _ _ hshown => exact hshown
  | _ => cases hv

/-- It stands in only if that is allowed. -/
theorem exists_writeOther_iff {v : Value} (hv : PlainOnly v) :
    (∃ s, writeOther style v = .ok s) ↔ Writable style.lenient v := by
  unfold writeOther
  cases hlenient : style.lenient with
  | false =>
      refine ⟨fun ⟨_, h⟩ => (nomatch h), fun h => ?_⟩
      cases h with
      | plain hlenient => cases hlenient
      | _ => cases hv
  | true =>
      rw [writable_iff_of_plainOnly hv]
      cases v.plainSilence? with
      | none => exact ⟨fun _ => rfl, fun _ => ⟨_, rfl⟩⟩
      | some s => exact ⟨fun ⟨_, h⟩ => (nomatch h), fun h => (nomatch h)⟩

-- ================================================================ values

mutual

/-- A value has JSON text exactly if it is writable. -/
theorem exists_writeAt_iff (style : Style) (depth : Nat) (v : Value) :
    (∃ s, writeAt style depth v = .ok s) ↔ Writable style.lenient v := by
  match v with
  | .null => exact ⟨fun _ => .null, fun _ => ⟨_, rfl⟩⟩
  | .bool b => exact ⟨fun _ => .bool, fun _ => ⟨_, rfl⟩⟩
  | .float x => exact ⟨fun _ => .float, fun _ => ⟨_, rfl⟩⟩
  | .text s => exact ⟨fun _ => .text, fun _ => ⟨_, rfl⟩⟩
  | .term t => exact ⟨fun _ => .term, fun _ => ⟨_, rfl⟩⟩
  | .int n => rw [writeAt, exists_writeInt_iff, writable_int_iff]
  | .list items =>
      rw [writeAt, exists_map_iff, exists_writeItems_iff]
      refine ⟨.list, fun h => ?_⟩
      cases h with
      | list hitems => exact hitems
      | plain _ hv => cases hv
  | .tuple items =>
      rw [writeAt, exists_map_iff, exists_writeItems_iff]
      refine ⟨.tuple, fun h => ?_⟩
      cases h with
      | tuple hitems => exact hitems
      | plain _ hv => cases hv
  | .map entries =>
      rw [writeAt, exists_map_iff, exists_writeEntries_iff]
      refine ⟨fun h => .map h.1 h.2, fun h => ?_⟩
      cases h with
      | map hkeys hvalues => exact ⟨hkeys, hvalues⟩
      | plain _ hv => cases hv
  | .cycle e =>
      refine ⟨fun ⟨_, h⟩ => (nomatch h), fun h => ?_⟩
      cases h with
      | plain _ hv => cases hv
  | .bytes octets => exact exists_writeOther_iff .bytes
  | .set items => exact exists_writeOther_iff .set
  | .date d => exact exists_writeOther_iff .date
  | .dateTime d => exact exists_writeOther_iff .dateTime
  | .foreign o parts => exact exists_writeOther_iff .foreign
  | .agent c items => exact exists_writeOther_iff .agent

theorem exists_writeItems_iff (style : Style) (depth : Nat)
    (items : List Value) :
    (∃ ss, writeItems style depth items = .ok ss)
      ↔ ∀ v ∈ items, Writable style.lenient v := by
  match items with
  | [] => exact ⟨fun _ _ hv => absurd hv List.not_mem_nil, fun _ => ⟨_, rfl⟩⟩
  | v :: rest =>
      rw [writeItems, List.forall_mem_cons, ← exists_writeAt_iff style depth v,
        ← exists_writeItems_iff style depth rest]
      exact exists_bind_iff fun _ => exists_map_iff _

theorem exists_writeEntries_iff (style : Style) (depth : Nat)
    (entries : List (Value × Value)) :
    (∃ ss, writeEntries style depth entries = .ok ss)
      ↔ (∀ e ∈ entries, IsKey e.1)
        ∧ ∀ e ∈ entries, Writable style.lenient e.2 := by
  match entries with
  | [] =>
      exact ⟨fun _ => ⟨fun _ he => absurd he List.not_mem_nil,
        fun _ he => absurd he List.not_mem_nil⟩, fun _ => ⟨_, rfl⟩⟩
  | (k, v) :: rest =>
      rw [writeEntries, List.forall_mem_cons, List.forall_mem_cons,
        ← exists_keyText_iff style k, ← exists_writeAt_iff style depth v,
        and_and_and_comm, ← exists_writeEntries_iff style depth rest,
        and_assoc]
      exact exists_bind_iff fun _ => exists_bind_iff fun _ => exists_map_iff _

end

theorem exists_write_iff (style : Style) (v : Value) :
    (∃ s, write style v = .ok s) ↔ Writable style.lenient v :=
  exists_writeAt_iff style 0 v

/-- Whoever may use plain forms can write all that the others can. -/
theorem Writable.toLenient {v : Value} (hv : Writable lenient v) :
    Writable true v := by
  induction hv with
  | null => exact .null
  | bool => exact .bool
  | int hn => exact .int hn
  | float => exact .float
  | text => exact .text
  | term => exact .term
  | list _ ih => exact .list ih
  | tuple _ ih => exact .tuple ih
  | map hkeys _ ih => exact .map hkeys ih
  | plain _ hv hshown => exact .plain rfl hv hshown

end Json

end AuditTrail
