/-
What every record satisfies, whatever was done to it.

`Holds` says of one field what its value may be: of the field's kind, in
the form that a task has, and not empty where absence is the only way to
say nothing. `Invariant` adds what relates a record to the node that it
was started for. One operation preserves it, since all that an operation
may write (`Call.Writes`) is fit to be held and none of it goes to a field
of the identity; hence a run does.

Lists of indices are left out of this. They are taken from whatever counts
as present, and an object may do so and have no items; the last value that
was put into such a field decides (`get?_run_eq_nil_iff`).
-/
import AuditTrail.Proofs.Record.NormalForm
import AuditTrail.Proofs.Value.Presence

namespace AuditTrail

-- ================================================================ values

/-- A text with something in it. -/
def Value.Nonempty (v : Value) : Prop := ∃ s, v.text? = some s ∧ s ≠ []

theorem Value.nonempty_of_text {v : Value}
    (hv : FieldKind.text.accepts v = true) (hpresent : v.truthy = true) :
    v.Nonempty := by
  cases v with
  | text s =>
      refine ⟨s, rfl, fun hs => ?_⟩
      rw [hs] at hpresent
      cases hpresent
  | term t => exact ⟨t.wire, rfl, t.wire_ne_nil⟩
  | _ => cases hv

namespace Record

-- ============================================================ one field

/-- The fields that are left out rather than empty. -/
def neverEmpty : List Field :=
  [.remoteAddress, .requestInitiatingUser, .requestEffectiveUser, .privilege,
    .exception, .restRequestPath, .transportRequestType, .transportAction, .id,
    .taskParentId, .requestBody, .complianceDiffContent]

/-- What a field of a record of some node may hold: a value of its kind
(no flag is an integer); a task begins with the node; and some fields are
never empty. -/
structure Holds (node : Value) (f : Field) (v : Value) : Prop where
  kind : f.kind.accepts v = true
  task : f = .taskId → ∃ id, v = .text (node.plain ++ ':' :: id)
  nonempty : f ∈ neverEmpty → v.Nonempty

theorem kind_of_neverEmpty {f : Field} (hf : f ∈ neverEmpty) :
    f.kind = .text := by
  revert f
  decide

/-- A value of a field that is no text is held if it is of the right
kind. -/
theorem Holds.of_kind {node : Value} {f : Field} {v : Value}
    (hf : f.kind ≠ .text) (hv : f.kind.accepts v = true) : Holds node f v where
  kind := hv
  task hf' := by
    rw [hf'] at hf
    exact absurd rfl hf
  nonempty hf' := absurd (kind_of_neverEmpty hf') hf

/-- All that an operation may write may be held. -/
theorem holds_of_writes {node : Value} {c : Call} {w : Write}
    (hw : c.Writes node w) : Holds node w.1 w.2 := by
  cases hw with
  | text _ hkind htask hv hpresent =>
      exact ⟨hkind ▸ hv, fun hf => absurd hf htask,
        fun _ => Value.nonempty_of_text hv hpresent⟩
  | @task id =>
      exact ⟨rfl, fun _ => ⟨id, rfl⟩,
        fun hf => absurd hf (by decide : Field.taskId ∉ neverEmpty)⟩
  | flag _ hkind => exact .of_kind (hkind ▸ by decide) (hkind ▸ rfl)
  | number _ hkind => exact .of_kind (hkind ▸ by decide) (hkind ▸ rfl)
  | member _ hkind ht => exact .of_kind hkind ht
  | files => exact .of_kind (f := .complianceFileInfos) (by decide) rfl
  | items _ hkind => exact .of_kind (hkind ▸ by decide) (hkind ▸ rfl)
  | transportHeaders =>
      exact .of_kind (f := .transportRequestHeaders) (by decide) rfl
  | headers => exact .of_kind (f := .restRequestHeaders) (by decide) rfl
  | params => exact .of_kind (f := .restRequestParams) (by decide) rfl

-- =========================================================== the record

/-- What holds of a record from its start on: no field is set twice, each
one holds what it may, the identity is as it was given, and so are the
origin and the layer. -/
structure Invariant (i : Identity) (origin layer : Value) (r : Record) :
    Prop where
  nodup : (r.fields.map (·.1)).Nodup
  holds : ∀ e ∈ r.fields, Holds i.cluster.nodeId e.1 e.2
  identity : ∀ w ∈ i.writes, r.get? w.1 = some w.2
  origin : r.HoldsOrigin .origin origin
  layer : r.HoldsOrigin .requestLayer layer

variable {i : Identity} {category origin layer : Value}
  {cluster : Option Cluster} {clock : DateTime} {h : Host} {r : Record}
  {f : Field}

theorem get?_apply_of_mem_startFields {c : Call} (hf : f ∈ startFields) :
    (r.apply h c).get? f = r.get? f :=
  get?_apply_of_notMem (notMem_fields_of_mem_startFields c f hf)

theorem mem_startFields_of_mem_writes {w : Write} (hw : w ∈ i.writes) :
    w.1 ∈ startFields := by
  have hall : ∀ w ∈ i.writes, w.1 ∈ startFields := by
    simp [Identity.writes, startFields]
  exact hall w hw

theorem Invariant.node (hr : r.Invariant i origin layer) :
    r.node = i.cluster.nodeId := by
  unfold Record.node
  rw [hr.identity (.nodeId, i.cluster.nodeId) (by simp [Identity.writes])]
  rfl

/-- An operation preserves the invariant. -/
theorem Invariant.apply (hr : r.Invariant i origin layer) (c : Call) :
    (r.apply h c).Invariant i origin layer where
  nodup := nodup_putAll hr.nodup
  holds e he := by
    rcases mem_of_mem_putAll he with he | he
    · -- a task is written under the node that the record holds by now
      rw [← hr.node]
      exact holds_of_writes (Call.outcome_writes h r.node c e he)
    · exact hr.holds e he
  identity w hw := by
    rw [get?_apply_of_mem_startFields (mem_startFields_of_mem_writes hw)]
    exact hr.identity w hw
  origin := by
    unfold HoldsOrigin
    rw [get?_apply_of_mem_startFields (by decide)]
    exact hr.origin
  layer := by
    unfold HoldsOrigin
    rw [get?_apply_of_mem_startFields (by decide)]
    exact hr.layer

/-- What a new record holds is none of the fields that an operation has
more to say about. -/
theorem Holds.of_mem_startFields {node v : Value} (hf : f ∈ startFields)
    (hv : f.kind.accepts v = true) : Holds node f v where
  kind := hv
  task hf' := absurd (hf' ▸ hf) (by decide)
  nonempty hf' := absurd hf'
    ((by decide : ∀ f ∈ startFields, f ∉ neverEmpty) f hf)

theorem exists_invariant_of_start
    (hr : start category cluster origin layer clock = .ok r) :
    ∃ i : Identity, i.Of category cluster clock
      ∧ r.Invariant i origin layer := by
  obtain ⟨i, hi, hidentity, horigin, hlayer⟩ := start_eq_ok hr
  obtain ⟨first, hfirst, rfl⟩ := exists_of_start hr
  refine ⟨i, hi, nodup_putAll (r := ⟨[]⟩) List.nodup_nil, fun e he => ?_,
    hidentity, horigin, hlayer⟩
  have he : e ∈ first := (mem_of_mem_putAll he).resolve_right List.not_mem_nil
  refine .of_mem_startFields (initial_fields first hfirst e he) ?_
  refine everyWrite_initial (p := fun w => w.1.kind.accepts w.2 = true)
    (fun j hj => hj.accepted) ?_ first hfirst e he
  simp [Field.kind, FieldKind.accepts]

-- ====================================================== lists of indices

/-- The fields that take the items of a value. -/
def listFields : List Field := [.indices, .resolvedIndices]

end Record

namespace Call

variable {c : Call} {f : Field} {v : Value} {h : Host} {node : Value}

/-- The value whose items an operation puts into a field: one that is there
and can be walked through. -/
def listed? (f : Field) (c : Call) : Option Value :=
  if f ∈ c.fields then
    c.sequence?.filter fun v => v.truthy && v.items?.isSome
  else none

/-- The list of a value's items. -/
def listOf (v : Value) : Value := .list (v.items?.getD [])

/-- What may write to such a field puts the items of a value there. -/
theorem exists_writeItems (hf : f ∈ Record.listFields) (hmem : f ∈ c.fields) :
    ∃ v, c.sequence? = some v
      ∧ ∀ h node, c.outcome h node = .of (writeItems f v) := by
  cases c with
  | indices v
  | resolvedIndices v =>
      obtain rfl := List.mem_singleton.mp hmem
      exact ⟨v, rfl, fun _ _ => rfl⟩
  | _ =>
      exfalso
      revert f
      simp [Record.listFields, fields]

theorem writes_writeItems (f : Field) (v : Value) :
    (Outcome.of (writeItems f v)).writes
      = if v.truthy && v.items?.isSome then [(f, listOf v)] else [] := by
  unfold writeItems
  cases hpresent : v.truthy with
  | true =>
      rw [ifPresent_of_truthy hpresent]
      cases hitems : v.items? with
      | some vs =>
          rw [Value.items_eq_ok_iff.mpr hitems, listOf, hitems]
          rfl
      | none =>
          cases hfault : v.items with
          | ok vs => cases hitems.symm.trans (Value.items_eq_ok_iff.mp hfault)
          | error e => rfl
  | false =>
      rw [ifPresent]
      cases hasked : v.truth with
      | error e => rfl
      | ok b =>
          rw [← (Value.truth_eq_ok_iff.mp hasked).2, hpresent]
          rfl

end Call

namespace Record

variable {category origin layer : Value} {cluster : Option Cluster}
  {clock : DateTime} {h : Host} {r : Record} {f : Field} {cs : List Call}

/-- An operation replaces the list if it puts one there. -/
theorem get?_apply_of_mem_listFields (hf : f ∈ listFields) (c : Call) :
    (r.apply h c).get? f
      = ((c.listed? f).map Call.listOf).or (r.get? f) := by
  by_cases hmem : f ∈ c.fields
  · obtain ⟨v, hv, houtcome⟩ := Call.exists_writeItems hf hmem
    unfold apply Call.listed?
    rw [houtcome, Call.writes_writeItems, if_pos hmem, hv, Option.filter_some]
    split
    · exact get?_putAll_singleton _ _ _
    · rfl
  · rw [get?_apply_of_notMem hmem, Call.listed?, if_neg hmem]
    rfl

/-- A new record has nothing besides the fields that it starts with. -/
theorem get?_of_start
    (hr : start category cluster origin layer clock = .ok r)
    (hf : f ∉ startFields) : r.get? f = none := by
  obtain ⟨first, hfirst, rfl⟩ := exists_of_start hr
  exact get?_putAll_of_ne (r := ⟨[]⟩) fun w hw hwf =>
    hf (hwf ▸ initial_fields first hfirst w hw)

/-- After a run such a field holds the items of the value that was put there
last. -/
theorem get?_run_of_mem_listFields
    (hr : start category cluster origin layer clock = .ok r)
    (hf : f ∈ listFields) :
    (r.run h cs).get? f
      = (cs.filterMap (Call.listed? f)).getLast?.map Call.listOf := by
  have hnew : r.get? f = none := get?_of_start hr fun hstart =>
    absurd hf ((by decide : ∀ f ∈ startFields, f ∉ listFields) f hstart)
  rw [get?_run_of_step (fun c => (c.listed? f).map Call.listOf)
    fun c _ r => get?_apply_of_mem_listFields hf c, hnew, Option.or_none,
    ← List.getLast?_map, List.map_filterMap]

/-- It is empty exactly if that value has no items. -/
theorem get?_run_eq_nil_iff
    (hr : start category cluster origin layer clock = .ok r)
    (hf : f ∈ listFields) :
    (r.run h cs).get? f = some (.list [])
      ↔ ∃ v, (cs.filterMap (Call.listed? f)).getLast? = some v
        ∧ v.Hollow := by
  rw [get?_run_of_mem_listFields hr hf, Option.map_eq_some_iff]
  refine exists_congr fun v => and_congr_right fun hlast => ?_
  obtain ⟨c, -, hc⟩ :=
    List.mem_filterMap.mp (List.mem_of_getLast? hlast)
  have hlisted : v.truthy = true ∧ v.items?.isSome = true := by
    unfold Call.listed? at hc
    split at hc
    case isFalse => cases hc
    case isTrue =>
      exact Bool.and_eq_true_iff.mp (Option.filter_eq_some_iff.mp hc).2
  obtain ⟨vs, hvs⟩ := Option.isSome_iff_exists.mp hlisted.2
  rw [Value.hollow_iff, and_iff_right hlisted.1, Call.listOf, hvs,
    Option.getD_some, Value.list.injEq, Option.some.injEq]

-- ==================================================================== runs

/-- Whatever is done to a record, it has no field twice; each field holds
a value of its kind; the identity of the node, the origin and the layer
are as they were given at its start; a task begins with the node's
identifier as it is written out; and no text or body is empty. A list of
indices is empty exactly if the last value it was taken from is an object
that counts as present and has no items. -/
theorem run_invariant
    (hr : start category cluster origin layer clock = .ok r) :
    ∃ i : Identity, i.Of category cluster clock
      ∧ ∀ (h : Host) (cs : List Call),
        (r.run h cs).Invariant i origin layer
        ∧ ∀ f ∈ listFields,
          (r.run h cs).get? f = some (.list [])
            ↔ ∃ v, (cs.filterMap (Call.listed? f)).getLast? = some v
              ∧ v.Hollow := by
  obtain ⟨i, hi, hinvariant⟩ := exists_invariant_of_start hr
  refine ⟨i, hi, fun h cs => ⟨?_, fun f hf => get?_run_eq_nil_iff hr hf⟩⟩
  exact run_preserves (fun c _ r hr => hr.apply c) hinvariant

/-- An address of the wrong type is refused, and nothing else is lost. -/
def refusedAddress : List Call :=
  [.remoteAddress (.int 5), .taskId (.text ['7']), .indices (.text ['a'])]

theorem run_invariant_refusedAddress :
    ∃ r i, login = .ok r
      ∧ i.cluster.nodeId = .text "n1".toList
      ∧ (r.run bareHost refusedAddress).Invariant i .null .null
      ∧ (r.run bareHost refusedAddress).fields.drop 8
        = [(.taskId, .text "n1:7".toList), (.indices, .list [.text ['a']])] := by
  have hr : login = .ok _ := rfl
  obtain ⟨i, hi, hinvariant⟩ := run_invariant hr
  refine ⟨_, i, hr, ?_, (hinvariant bareHost refusedAddress).1, rfl⟩
  exact congrArg Cluster.nodeId (Option.some.inj hi.cluster).symm

/-- A login on a node whose identifier is a member of the vocabulary, which
is written out with the name of its part of the vocabulary. -/
def memberLogin : Except Fault Record :=
  start (.term (.category .authenticated))
    (some ⟨.term (.origin .rest), .text "10.0.0.1".toList,
      .text "host-1".toList, .text "node-1".toList, .text "prod".toList⟩)
    .null .null ⟨⟨2024, 1, 2⟩, ⟨3, 4, 5, 678000⟩, none⟩

/-- A list of indices that is taken from an iterator at its end is empty, and
a task need not begin with the text of the node's identifier. -/
theorem run_emptyIndices_otherNode :
    (∃ r, login = .ok r
      ∧ (r.run bareHost [.indices (.iterator [])]).get? .indices
        = some (.list []))
    ∧ ∃ r v w node task, memberLogin = .ok r
      ∧ (r.run bareHost [.taskId (.text ['7'])]).get? .nodeId = some v
      ∧ v.text? = some node
      ∧ (r.run bareHost [.taskId (.text ['7'])]).get? .taskId = some w
      ∧ w.text? = some task
      ∧ ¬ (node ++ [':']) <+: task := by
  refine ⟨⟨_, rfl, rfl⟩, _, _, _, _, _, rfl, rfl, rfl, rfl, rfl, ?_⟩
  decide

end Record

end AuditTrail
