/-
What a run leaves behind.

An operation reads nothing of a record but the node's identifier, and no
operation writes that. So each operation of a run writes what it would
write to the new record (`outcome_run`), the run is one list of writes
(`run_eq_putAll`), and a list of writes has a normal form: the fields stand
in the order of their first writes (`fields_putAll`), each with the value
of its last write (`get?_putAll`). Which operations may change places, and
that an operation done twice is done once, are facts about such lists.
-/
import AuditTrail.Proofs.Record.Writes
import AuditTrail.Record.Reading
import Mathlib.Data.List.Lattice
import Mathlib.Data.List.Nodup

namespace AuditTrail.Record

variable {h : Host} {r s : Record} {w : Write} {ws ws' : List Write}
  {c : Call} {cs : List Call} {f : Field}

-- ====================================================== lists of writes

/-- A write to a field that is set leaves the order of fields alone; a
write to another one adds the field at the end. -/
theorem fields_put (r : Record) (w : Write) :
    (r.put w).fields.map (·.1)
      = if w.1 ∈ r.fields.map (·.1) then r.fields.map (·.1)
        else r.fields.map (·.1) ++ [w.1] := by
  show (putField w.1 w.2 r.fields).map (·.1) = _
  rw [putField_eq, Keyed.keys_put]

/-- Fields stand in the order of their first writes. -/
theorem fields_putAll (ws : List Write) :
    ((⟨[]⟩ : Record).putAll ws).fields.map (·.1)
      = (ws.map (·.1)).eraseDups := by
  rw [fields_putAll_eq, Keyed.keys_putAll]

/-- A field holds the value that was written to it last. -/
theorem get?_putAll (r : Record) (ws : List Write) (f : Field) :
    (r.putAll ws).get? f = (ws.reverse.lookup f).or (r.get? f) := by
  show (r.putAll ws).fields.lookup f = _
  rw [fields_putAll_eq, Keyed.lookup_putAll]
  rfl

theorem mem_fields_put :
    f ∈ (r.put w).fields.map (·.1) ↔ f = w.1 ∨ f ∈ r.fields.map (·.1) := by
  rw [fields_put]
  split
  case isTrue hw =>
    refine ⟨.inr, ?_⟩
    rintro (rfl | hf)
    · exact hw
    · exact hf
  case isFalse =>
    rw [List.mem_append, List.mem_singleton, or_comm]

theorem mem_fields_putAll :
    f ∈ (r.putAll ws).fields.map (·.1)
      ↔ f ∈ ws.map (·.1) ∨ f ∈ r.fields.map (·.1) := by
  induction ws generalizing r with
  | nil => exact ⟨.inr, fun h => h.resolve_left List.not_mem_nil⟩
  | cons w ws ih =>
      rw [putAll_cons, ih, mem_fields_put, List.map_cons, List.mem_cons]
      exact ⟨fun h => by tauto, fun h => by tauto⟩

/-- A record holds what it held or what was written to it. -/
theorem mem_of_mem_putAll {e : Field × Value} (he : e ∈ (r.putAll ws).fields) :
    e ∈ ws ∨ e ∈ r.fields := by
  have hput : ∀ (w : Write) (l : List (Field × Value)),
      e ∈ putField w.1 w.2 l → e = w ∨ e ∈ l := by
    intro w l he
    induction l with
    | nil => exact .inl (List.mem_singleton.mp he)
    | cons d l ih =>
        rw [putField] at he
        split at he
        case isTrue =>
          rcases List.mem_cons.mp he with he | he
          · exact .inl he
          · exact .inr (List.mem_cons_of_mem _ he)
        case isFalse =>
          rcases List.mem_cons.mp he with rfl | he
          · exact .inr List.mem_cons_self
          · exact (ih he).imp_right (List.mem_cons_of_mem _)
  induction ws generalizing r with
  | nil => exact .inr he
  | cons w ws ih =>
      rcases ih he with he | he
      · exact .inl (List.mem_cons_of_mem _ he)
      · rcases hput w r.fields he with rfl | he
        · exact .inl List.mem_cons_self
        · exact .inr he

theorem fields_putAll_of_mem (hws : ∀ w ∈ ws, w.1 ∈ r.fields.map (·.1)) :
    (r.putAll ws).fields.map (·.1) = r.fields.map (·.1) := by
  induction ws generalizing r with
  | nil => rfl
  | cons w ws ih =>
      obtain ⟨hw, hws'⟩ := List.forall_mem_cons.mp hws
      rw [putAll_cons, ih fun w' hw' => mem_fields_put.mpr (.inr (hws' w' hw')),
        fields_put, if_pos hw]

theorem nodup_put (hr : (r.fields.map (·.1)).Nodup) :
    ((r.put w).fields.map (·.1)).Nodup := by
  rw [fields_put]
  split
  case isTrue => exact hr
  case isFalse hw =>
    rw [← List.concat_eq_append]
    exact List.Nodup.concat hw hr

theorem nodup_putAll (hr : (r.fields.map (·.1)).Nodup) :
    ((r.putAll ws).fields.map (·.1)).Nodup := by
  induction ws generalizing r with
  | nil => exact hr
  | cons w ws ih => exact ih (nodup_put hr)

theorem lookup_eq_none_of_notMem {l : List (Field × Value)}
    (hf : f ∉ l.map (·.1)) : l.lookup f = none := by
  rw [List.lookup_eq_none_iff]
  intro e he
  exact bne_iff_ne.mpr fun h => hf (List.mem_map.mpr ⟨e, he, h.symm⟩)

/-- A list of distinct fields with values is given by their order and by
the value of each. -/
theorem eq_of_lookup {l m : List (Field × Value)}
    (hnodup : (l.map (·.1)).Nodup) (hfields : l.map (·.1) = m.map (·.1))
    (hget : ∀ f, l.lookup f = m.lookup f) : l = m := by
  induction l generalizing m with
  | nil => exact (List.map_eq_nil_iff.mp hfields.symm).symm
  | cons e l ih =>
      cases m with
      | nil => cases hfields
      | cons d m =>
          obtain ⟨f, v⟩ := e
          obtain ⟨f', v'⟩ := d
          rw [List.map_cons, List.map_cons, List.cons.injEq] at hfields
          obtain ⟨hname, hfields⟩ := hfields
          obtain rfl : f = f' := hname
          obtain ⟨hnot, hnodup⟩ := List.nodup_cons.mp hnodup
          have hvalue := hget f
          rw [List.lookup_cons, List.lookup_cons, beq_self_eq_true] at hvalue
          obtain rfl : v = v' := Option.some.inj hvalue
          -- the first entries hide nothing: their field is not set below
          have hrest : ∀ g, l.lookup g = m.lookup g := by
            intro g
            by_cases hg : g = f
            · rw [hg, lookup_eq_none_of_notMem hnot,
                lookup_eq_none_of_notMem (hfields ▸ hnot)]
            · have h := hget g
              rw [List.lookup_cons, List.lookup_cons, beq_false_of_ne hg] at h
              exact h
          rw [ih hnodup hfields hrest]

/-- A record is given by the order of its fields and their values. -/
theorem eq_of_get? (hnodup : (r.fields.map (·.1)).Nodup)
    (hfields : r.fields.map (·.1) = s.fields.map (·.1))
    (hget : ∀ f, r.get? f = s.get? f) : r = s :=
  congrArg Record.mk (eq_of_lookup hnodup hfields hget)

/-- The same writes once more change nothing. -/
theorem putAll_putAll (hr : (r.fields.map (·.1)).Nodup) :
    (r.putAll ws).putAll ws = r.putAll ws := by
  refine eq_of_get? (nodup_putAll (nodup_putAll hr)) ?_ fun f => ?_
  · refine fields_putAll_of_mem fun w hw => ?_
    exact mem_fields_putAll.mpr (.inl (List.mem_map_of_mem hw))
  · rw [get?_putAll, get?_putAll, ← Option.or_assoc, Option.or_self]

/-- Writes to different fields may change places, as far as values go. -/
theorem get?_putAll_comm
    (hdisjoint : (ws.map (·.1)).Disjoint (ws'.map (·.1))) :
    ((r.putAll ws).putAll ws').get? f = ((r.putAll ws').putAll ws).get? f := by
  -- the field is written on one side at most, so its last write is there
  have hset : ∀ ws : List Write, ∀ v, ws.reverse.lookup f = some v →
      f ∈ ws.map (·.1) := by
    intro ws v hv
    exact List.mem_map.mpr
      ⟨(f, v), List.mem_reverse.mp (mem_of_lookup_eq_some hv), rfl⟩
  simp only [get?_putAll]
  cases hw : ws.reverse.lookup f with
  | none => rfl
  | some v =>
      cases hw' : ws'.reverse.lookup f with
      | none => rfl
      | some v' => exact absurd (hset ws' v' hw') (hdisjoint (hset ws v hw))

-- ================================================================== runs

/-- What operations write to a record, each of them as if it were the
first one. -/
def writes (h : Host) (r : Record) (cs : List Call) : List Write :=
  cs.flatMap fun c => (c.outcome h r.node).writes

/-- An operation does after a run what it does before. -/
theorem outcome_run (h : Host) (r : Record) (cs : List Call) (c : Call) :
    c.outcome h (r.run h cs).node = c.outcome h r.node := by
  rw [node_run]

theorem run_append (h : Host) (r : Record) (cs cs' : List Call) :
    r.run h (cs ++ cs') = (r.run h cs).run h cs' :=
  List.foldl_append

theorem run_eq_putAll (h : Host) (r : Record) (cs : List Call) :
    r.run h cs = r.putAll (r.writes h cs) := by
  induction cs generalizing r with
  | nil => rfl
  | cons c cs ih =>
      rw [run_cons, ih, writes, node_apply]
      exact (putAll_append r _ _).symm

theorem nodup_run (hr : (r.fields.map (·.1)).Nodup) :
    ((r.run h cs).fields.map (·.1)).Nodup := by
  rw [run_eq_putAll]
  exact nodup_putAll hr

/-- What is written once holds its value. -/
theorem get?_putAll_of_mem (hws : (ws.map (·.1)).Nodup) (hw : w ∈ ws) :
    (r.putAll ws).get? w.1 = some w.2 := by
  obtain ⟨before, after, rfl⟩ := List.append_of_mem hw
  refine get?_putAll_append (fun w' hw' hname => ?_) before w.2
  rw [List.map_append, List.nodup_append] at hws
  obtain ⟨-, hafter, -⟩ := hws
  rw [List.map_cons, List.nodup_cons] at hafter
  exact hafter.1 (List.mem_map.mpr ⟨w', hw', hname⟩)

/-- Two operations in a row that write to different fields may change
places, as far as values go. -/
theorem get?_run_swap {a b : Call} (before after : List Call)
    (hdisjoint : ((a.outcome h r.node).writes.map (·.1)).Disjoint
      ((b.outcome h r.node).writes.map (·.1))) :
    (r.run h (before ++ b :: a :: after)).get? f
      = (r.run h (before ++ a :: b :: after)).get? f := by
  have hwrites : ∀ c d, r.writes h (before ++ c :: d :: after)
      = r.writes h before ++ ((c.outcome h r.node).writes
        ++ ((d.outcome h r.node).writes ++ r.writes h after)) := by
    intro c d
    rw [writes, List.flatMap_append, List.flatMap_cons, List.flatMap_cons]
    rfl
  simp only [run_eq_putAll, hwrites, putAll_append]
  rw [get?_putAll, get?_putAll _ (r.writes h after), get?_putAll_comm]
  exact hdisjoint.symm

/-- An operation that is done twice in a row is done once. -/
theorem run_repeat (hr : (r.fields.map (·.1)).Nodup)
    (before after : List Call) :
    r.run h (before ++ c :: c :: after) = r.run h (before ++ c :: after) := by
  have htwice : ∀ s : Record, (s.fields.map (·.1)).Nodup →
      (s.apply h c).apply h c = s.apply h c := by
    intro s hs
    unfold apply
    rw [show (s.putAll _).node = s.node from node_apply (c := c)]
    exact putAll_putAll hs
  rw [run_append, run_append, run_cons, run_cons, run_cons,
    htwice _ (nodup_run hr)]

-- ========================================================== a new record

variable {category origin layer : Value} {cluster : Option Cluster}
  {clock : DateTime}

theorem exists_of_start
    (hr : start category cluster origin layer clock = .ok r) :
    ∃ first, initial category cluster origin layer clock = .ok first
      ∧ r = putAll ⟨[]⟩ first :=
  exists_of_map_eq_ok hr

/-- An origin is written to its own field, at most once. -/
theorem fields_originWrite {v : Value} (hws : originWrite f v = .ok ws) :
    (ws.map (·.1)).Sublist [f] := by
  rcases originWrite_eq_ok hws with ⟨-, rfl⟩ | ⟨o, -, rfl⟩
  · exact List.nil_sublist _
  · exact List.Sublist.refl _

/-- No field of a new record is written twice. -/
theorem nodup_initial {first : List Write}
    (hfirst : initial category cluster origin layer clock = .ok first) :
    (first.map (·.1)).Nodup := by
  obtain ⟨i, os, ls, -, hos, hls, rfl⟩ := exists_of_initial hfirst
  have hall : ((i.writes ++ os ++ ls).map (·.1)).Sublist startFields := by
    rw [List.map_append, List.map_append]
    exact ((List.Sublist.refl _).append (fields_originWrite hos)).append
      (fields_originWrite hls)
  exact hall.nodup (by decide)

/-- What an optional origin leaves in its field. -/
def HoldsOrigin (r : Record) (f : Field) (v : Value) : Prop :=
  (v = .null ∧ r.get? f = none)
    ∨ ∃ o, originOf v = .ok o ∧ r.get? f = some (.term (.origin o))

/-- An origin that is written where nothing else is written to its field. -/
theorem holdsOrigin_putAll {before after : List Write} {v : Value}
    (hnodup : ((before ++ ws ++ after).map (·.1)).Nodup)
    (hws : originWrite f v = .ok ws)
    (hbefore : f ∉ before.map (·.1)) (hafter : f ∉ after.map (·.1)) :
    (putAll ⟨[]⟩ (before ++ ws ++ after)).HoldsOrigin f v := by
  rcases originWrite_eq_ok hws with ⟨hv, rfl⟩ | ⟨o, ho, rfl⟩
  · refine .inl ⟨hv, get?_putAll_of_ne fun w hw hname => ?_⟩
    rw [List.append_nil] at hw
    rcases List.mem_append.mp hw with hw | hw
    · exact hbefore (hname ▸ List.mem_map_of_mem hw)
    · exact hafter (hname ▸ List.mem_map_of_mem hw)
  · exact .inr ⟨o, ho, get?_putAll_of_mem (w := (f, _)) hnodup (by simp)⟩

/-- A new record holds the identity of the node, and the origin and the
layer if they were given. -/
theorem start_eq_ok
    (hr : start category cluster origin layer clock = .ok r) :
    ∃ i : Identity, i.Of category cluster clock
      ∧ (∀ w ∈ i.writes, r.get? w.1 = some w.2)
      ∧ r.HoldsOrigin .origin origin ∧ r.HoldsOrigin .requestLayer layer := by
  obtain ⟨first, hfirst, rfl⟩ := exists_of_start hr
  have hnodup := nodup_initial hfirst
  obtain ⟨i, os, ls, hi, hos, hls, rfl⟩ := exists_of_initial hfirst
  refine ⟨i, hi, fun w hw => ?_, ?_, ?_⟩
  · refine get?_putAll_of_mem hnodup ?_
    exact List.mem_append_left _ (List.mem_append_left _ hw)
  · refine holdsOrigin_putAll hnodup hos (by simp [Identity.writes]) ?_
    exact fun h => absurd ((fields_originWrite hls).subset h) (by decide)
  · rw [← List.append_nil (i.writes ++ os ++ ls)] at hnodup ⊢
    refine holdsOrigin_putAll hnodup hls ?_ (by simp)
    rw [List.map_append, List.mem_append, not_or]
    refine ⟨by simp [Identity.writes], fun h => ?_⟩
    exact absurd ((fields_originWrite hos).subset h) (by decide)

/-- A record is one of the node that it was started for. -/
theorem node_of_start
    (hr : start category cluster origin layer clock = .ok r) :
    ∃ c, cluster = some c ∧ r.node = c.nodeId := by
  obtain ⟨i, hi, hwrites, -⟩ := start_eq_ok hr
  refine ⟨i.cluster, hi.cluster, ?_⟩
  unfold node
  rw [hwrites (.nodeId, i.cluster.nodeId) (by simp [Identity.writes])]
  rfl

-- =========================================================== normal form

/-- A login on some node. -/
def login : Except Fault Record :=
  start (.term (.category .authenticated))
    (some ⟨.text "n1".toList, .text "10.0.0.1".toList, .text "host-1".toList,
      .text "node-1".toList, .text "prod".toList⟩)
    .null .null ⟨⟨2024, 1, 2⟩, ⟨3, 4, 5, 678000⟩, none⟩

/-- Two letters, one after the other. -/
def letters : Value := .iterator [.text ['a'], .text ['b']]

/-- A parameter that is an undefined number. -/
def undefinedParam : Call :=
  .params (.map [(.text ['x'], .float .nan)]) .absent

end AuditTrail.Record
