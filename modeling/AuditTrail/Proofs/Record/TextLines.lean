/-
The lines of a record's text.

A record's text has a line for each field that is not empty. Numbers, flags,
members of the vocabulary and the JSON texts of containers are one line each,
so that a field adds lines of its own only if it holds a text, which is shown
as it is: one for each line feed in it (`Value.lineFeeds`). Hence a reader
can tell the fields apart by lines exactly if no text in the record holds a
line feed (`run_textLines`).
-/
import AuditTrail.Proofs.Json.Parts
import AuditTrail.Proofs.Record.Invariant
import AuditTrail.Proofs.Record.Projections
import AuditTrail.Proofs.Text.Pieces

namespace AuditTrail

open Json (Writable)

/-- The line feeds that a value brings into a record's text. -/
def Value.lineFeeds : Value → Nat
  | .text s => s.count '\n'
  | _ => 0

namespace Projection

variable {fields : Fields} {f : Text × Value} {v : Value} {k : FieldKind}
  {s : Text}

/-- A field with its text, unless that is empty. -/
def line? (f : Text × Value) : Option Text :=
  match stringForm f.2 with
  | .ok (c :: s) => some (f.1 ++ [':', ' '] ++ c :: s)
  | _ => none

/-- The fields of a text that are not empty, in order. -/
def lines (fields : Fields) : List Text := fields.filterMap line?

/-- The line feeds that fields bring into a text. -/
def lineFeeds : Fields → Nat
  | [] => 0
  | f :: rest => f.2.lineFeeds + lineFeeds rest

theorem lineFeeds_eq_zero_iff :
    lineFeeds fields = 0 ↔ ∀ f ∈ fields, f.2.lineFeeds = 0 := by
  induction fields with
  | nil => exact iff_of_true rfl fun _ hf => absurd hf List.not_mem_nil
  | cons f rest ih =>
      rw [lineFeeds, Nat.add_eq_zero_iff, List.forall_mem_cons, ih]

theorem lines_eq_map {ss : List (Text × Text)}
    (h : strings fields = .ok ss) :
    lines fields = (ss.filter fun f => !f.2.isEmpty).map fun f =>
      f.1 ++ [':', ' '] ++ f.2 := by
  induction fields generalizing ss with
  | nil =>
      cases h
      rfl
  | cons f rest ih =>
      obtain ⟨form, hform, h⟩ := exists_of_bind_eq_ok h
      obtain ⟨more, hmore, h⟩ := exists_of_bind_eq_ok h
      cases h
      have hrest := ih hmore
      unfold lines at hrest ⊢
      rw [List.filterMap_cons, hrest]
      unfold line?
      rw [hform]
      cases form with
      | nil => rfl
      | cons c form => rfl

/-- A text is its lines, one below the other. -/
theorem text_eq_joinWith (h : text fields = .ok s) :
    s = Text.joinWith ['\n'] (lines fields) := by
  obtain ⟨ss, hss, h⟩ := exists_of_bind_eq_ok h
  cases h
  rw [lines_eq_map hss]

/-- The text of a container is one line. -/
theorem count_looseText {form : Option Text}
    (h : (match Json.write .loose v with
        | .ok s => .ok (some s)
        | .error e => .error (.jsonWriting e) : Except Fault (Option Text))
          = .ok form) : (form.getD []).count '\n' = 0 := by
  split at h
  case h_1 s hs =>
    cases h
    have hcontrol := Json.noControl_write rfl rfl hs
    exact List.count_eq_zero.mpr fun hmem =>
      absurd (hcontrol _ hmem) (by decide)
  case h_2 => cases h

/-- Only a text has line feeds, and they are its own. -/
theorem count_stringForm (hv : k.accepts v = true)
    (hs : stringForm v = .ok s) : s.count '\n' = v.lineFeeds := by
  obtain ⟨form, hform, rfl⟩ := exists_of_map_eq_ok hs
  cases v with
  | text s =>
      cases hform
      rfl
  | term t =>
      cases hform
      exact List.count_eq_zero.mpr t.newline_notMem_wire
  | bool b =>
      cases hform
      cases b <;> decide
  | int n =>
      obtain ⟨digits, hdigits, hform⟩ := exists_of_bind_eq_ok hform
      cases hform
      obtain rfl := Value.eq_plain_of_plainText hdigits
      have hscalar : '\n' ∉ Json.scalarCharacters := by decide
      exact List.count_eq_zero.mpr fun hmem =>
        hscalar (Json.isScalar_ofInt n _ hmem)
  | list items => exact count_looseText (v := .list items) hform
  | map entries => exact count_looseText (v := .map entries) hform
  | _ => cases k <;> cases hv

/-- A field's name is one line, and its value is of some kind. -/
def Plain (f : Text × Value) : Prop :=
  '\n' ∉ f.1 ∧ ∃ k : FieldKind, k.accepts f.2 = true

theorem count_line {line : Text} (hf : Plain f) (hline : line? f = some line) :
    line.count '\n' = f.2.lineFeeds := by
  obtain ⟨hname, k, hk⟩ := hf
  unfold line? at hline
  split at hline
  case h_1 c s hs =>
    cases hline
    have hseparator : List.count '\n' [':', ' '] = 0 := by decide
    rw [List.count_append, List.count_append, List.count_eq_zero.mpr hname,
      hseparator, ← count_stringForm hk hs, Nat.zero_add]
  case h_2 => cases hline

/-- A field that has no line has no line feeds. -/
theorem lineFeeds_of_line?_eq_none (hf : Plain f) (hs : stringForm f.2 = .ok s)
    (hline : line? f = none) : f.2.lineFeeds = 0 := by
  obtain ⟨-, k, hk⟩ := hf
  unfold line? at hline
  rw [hs] at hline
  cases s with
  | nil => exact (count_stringForm hk hs).symm
  | cons c s => cases hline

/-- The lines of fields have the line feeds of their values. -/
theorem count_lines (hfields : ∀ f ∈ fields, Plain f)
    (hforms : ∀ f ∈ fields, ∃ s, stringForm f.2 = .ok s) :
    (lines fields).flatten.count '\n' = lineFeeds fields := by
  induction fields with
  | nil => rfl
  | cons f rest ih =>
      obtain ⟨hf, hfields⟩ := List.forall_mem_cons.mp hfields
      obtain ⟨⟨s, hs⟩, hforms⟩ := List.forall_mem_cons.mp hforms
      have hrest := ih hfields hforms
      unfold lines at hrest ⊢
      rw [List.filterMap_cons, lineFeeds, ← hrest]
      cases hline : line? f with
      | none => rw [lineFeeds_of_line?_eq_none hf hs hline, Nat.zero_add]
      | some line =>
          rw [List.flatten_cons, List.count_append, count_line hf hline]

/-- A text has a line for each field that is not empty, and one more for each
line feed of a value. -/
theorem length_lines (hfields : ∀ f ∈ fields, Plain f)
    (hne : lines fields ≠ []) (h : text fields = .ok s) :
    (Text.splitAt '\n' s).length
      = (lines fields).length + lineFeeds fields := by
  have hforms : ∀ f ∈ fields, ∃ s, stringForm f.2 = .ok s := fun f hf =>
    (exists_stringForm_iff f.2).mpr ((exists_text_iff fields).mp ⟨s, h⟩ f hf)
  rw [text_eq_joinWith h, Text.length_splitAt_joinWith hne,
    count_lines hfields hforms]

/-- There is a text, and its lines are those of the fields, exactly if every
value has a text and none has line feeds. -/
theorem exists_splitAt_iff (hfields : ∀ f ∈ fields, Plain f)
    (hne : lines fields ≠ []) :
    (∃ s, text fields = .ok s ∧ Text.splitAt '\n' s = lines fields)
      ↔ ∀ f ∈ fields, Writable true f.2 ∧ f.2.lineFeeds = 0 := by
  constructor
  · rintro ⟨s, hs, hlines⟩
    have hlength := length_lines hfields hne hs
    rw [hlines] at hlength
    have hfeeds := lineFeeds_eq_zero_iff.mp (Nat.left_eq_add.mp hlength)
    exact fun f hf => ⟨(exists_text_iff fields).mp ⟨s, hs⟩ f hf, hfeeds f hf⟩
  · intro hall
    have hwritable : ∀ f ∈ fields, Writable true f.2 :=
      fun f hf => (hall f hf).1
    obtain ⟨s, hs⟩ := (exists_text_iff fields).mpr hwritable
    have hforms : ∀ f ∈ fields, ∃ s, stringForm f.2 = .ok s := fun f hf =>
      (exists_stringForm_iff f.2).mpr (hwritable f hf)
    have hnone := count_lines hfields hforms
    rw [lineFeeds_eq_zero_iff.mpr fun f hf => (hall f hf).2,
      List.count_eq_zero] at hnone
    refine ⟨s, hs, ?_⟩
    rw [text_eq_joinWith hs]
    exact Text.splitAt_joinWith (fun line hline hmem =>
      hnone (List.mem_flatten_of_mem hline hmem)) hne

end Projection

namespace Record

variable {category origin layer : Value} {cluster : Option Cluster}
  {clock : DateTime} {r : Record}

/-- A record's fields are written under names of one line each, with values
of their kinds. -/
theorem Invariant.plain {i : Identity} (hr : r.Invariant i origin layer) :
    ∀ f ∈ r.wireFields, Projection.Plain f := by
  refine List.forall_mem_map.mpr fun e he => ?_
  exact ⟨(Term.field e.1).newline_notMem_wire, _, (hr.holds e he).kind⟩

/-- At least the version of the format has a line. -/
theorem Invariant.lines_ne_nil {i : Identity}
    (hr : r.Invariant i origin layer) :
    Projection.lines r.wireFields ≠ [] := by
  have hversion : r.get? .formatVersion = some (.int formatVersion) :=
    hr.identity (.formatVersion, .int formatVersion) (.head _)
  have hline : (Projection.line?
      (Field.formatVersion.wire, .int formatVersion)).isSome = true := by
    decide +kernel
  obtain ⟨line, hline⟩ := Option.isSome_iff_exists.mp hline
  refine List.ne_nil_of_mem (List.mem_filterMap.mpr ⟨_, ?_, hline⟩)
  exact List.mem_map_of_mem (mem_of_lookup_eq_some hversion)

/-- Whatever is done to a record, its text is there with exactly one line for
each field that is not empty if and only if every value in it has a text and
no text among them holds a line feed. Each line feed of a text adds a line. -/
theorem run_textLines
    (hr : start category cluster origin layer clock = .ok r) (h : Host)
    (cs : List Call) :
    let fields := (r.run h cs).wireFields
    ((∃ s, Projection.text fields = .ok s
        ∧ Text.splitAt '\n' s = Projection.lines fields)
      ↔ ∀ e ∈ (r.run h cs).fields, Writable true e.2 ∧ e.2.lineFeeds = 0)
    ∧ ∀ s, Projection.text fields = .ok s →
      (Text.splitAt '\n' s).length
        = (Projection.lines fields).length + Projection.lineFeeds fields := by
  intro fields
  obtain ⟨i, -, hstart⟩ := exists_invariant_of_start hr
  have hrun : (r.run h cs).Invariant i origin layer :=
    run_preserves (fun c _ r hr => hr.apply c) hstart
  refine ⟨?_, fun s hs =>
    Projection.length_lines hrun.plain hrun.lines_ne_nil hs⟩
  rw [Projection.exists_splitAt_iff hrun.plain hrun.lines_ne_nil]
  exact List.forall_mem_map

/-- A user with a name of one line and a list of names of several. -/
def namedIndices : List Call :=
  [.effectiveUser (.text ['a']), .indices (.list [.text ['b', '\n', 'c']])]

/-- The list is one line, line feeds and all. -/
theorem run_textLines_namedIndices :
    ∃ r s, login = .ok r
      ∧ Projection.text (r.run bareHost namedIndices).wireFields = .ok s
      ∧ Text.splitAt '\n' s
        = Projection.lines (r.run bareHost namedIndices).wireFields := by
  obtain ⟨r, hr, hfeeds⟩ : ∃ r, login = .ok r
      ∧ ∀ e ∈ (r.run bareHost namedIndices).fields, e.2.lineFeeds = 0 :=
    ⟨_, rfl, by decide +kernel⟩
  have htyped : ∀ c ∈ namedIndices, c.WellTyped := by
    simp [namedIndices, Call.WellTyped, Value.items_eq_ok_iff, Value.items?,
      Value.IsText, Value.text?]
  have hwritable := (forall_wireFields_iff _).mp
    ((Projection.exists_text_iff _).mp
      (exists_projections_of_wellTyped hr bareHost htyped).1)
  obtain ⟨s, hs⟩ := (run_textLines hr bareHost namedIndices).1.mpr fun e he =>
    ⟨hwritable e he, hfeeds e he⟩
  exact ⟨r, s, hr, hs⟩

/-- A user whose name goes on below with what looks like another field. -/
def forgingUser : Call :=
  .effectiveUser (.text "alice\naudit_cluster_name: other".toList)

/-- A user's name with a line feed reads as a field of its own: the text has
a line more than there are fields. -/
theorem forged_line :
    ∃ r s, login = .ok r
      ∧ Projection.text (r.run bareHost [forgingUser]).wireFields = .ok s
      ∧ (Text.splitAt '\n' s).drop 8
        = ["audit_request_effective_user: alice".toList,
          "audit_cluster_name: other".toList]
      ∧ (Projection.lines (r.run bareHost [forgingUser]).wireFields).drop 8
        = ["audit_request_effective_user: alice\n".toList
            ++ "audit_cluster_name: other".toList] := by
  obtain ⟨r, hr, htext, hfields⟩ : ∃ r, login = .ok r
      ∧ ((Projection.text
            (r.run bareHost [forgingUser]).wireFields).toOption.map
          fun s => (Text.splitAt '\n' s).drop 8)
        = some ["audit_request_effective_user: alice".toList,
            "audit_cluster_name: other".toList]
      ∧ (Projection.lines (r.run bareHost [forgingUser]).wireFields).drop 8
        = ["audit_request_effective_user: alice\n".toList
            ++ "audit_cluster_name: other".toList] :=
    ⟨_, rfl, by decide +kernel, by decide +kernel⟩
  obtain ⟨s, hs, hlines⟩ := Option.map_eq_some_iff.mp htext
  exact ⟨r, s, hr, eq_ok_of_toOption hs, hlines, hfields⟩

end Record

end AuditTrail
