/-
Which records can be shown.

A record leaves the library as JSON, as text and as a query. All of them
show values through the JSON writer: text and query with plain forms in
place of missing ones, JSON without. So text and JSON are there exactly if
all values are writable in that way (`exists_text_iff`, `exists_json_iff`),
and a query exactly if the text is and none of its parts holds half of a
surrogate pair (`exists_query_iff`). Only JSON reports its failures under a
name of its own. Of the fields of a record seven hold what a caller hands
over as it is (`openFields`); whatever else a run writes has a text.
-/
import AuditTrail.Proofs.Json.Writable
import AuditTrail.Proofs.Record.RoundTrip
import AuditTrail.Proofs.Text.Form

namespace AuditTrail

open Json (Writable)

/-- What is read back was written. -/
theorem Json.Readable.writable {lenient : Bool} {n : Nat} {v : Value}
    (hv : Readable n v) : Writable lenient v := by
  induction hv with
  | null => exact .null
  | bool => exact .bool
  | int hi => exact .int (decide_eq_false (Nat.not_le.mpr hi))
  | float => exact .float
  | text => exact .text
  | term => exact .term
  | list _ ih => exact .list ih
  | map names hnames _ _ ih =>
      refine .map (fun e he => ?_) ih
      have hkey : e.1.text? ∈ names.map some := by
        rw [← hnames]
        exact List.mem_map_of_mem he
      obtain ⟨s, -, hs⟩ := List.mem_map.mp hkey
      generalize e.1 = k at hs
      cases k with
      | text s => exact .text
      | term t => exact .term
      | _ => cases hs

-- ===================================================== projections of fields

namespace Projection

/-- An object that was to be shown refused. -/
def IsRefusal (e : Fault) : Prop :=
  ∃ o, e = .refused o ∨ e = .jsonWriting (.refused o)

/-- The faults of the text of a value. -/
inductive FormFault : Fault → Prop
  | writing (e : Json.WriteError) : FormFault (.jsonWriting e)
  | silent (s : Value.Silence) : FormFault (.ofSilence s)

theorem FormFault.family_mem {e : Fault} (he : FormFault e) :
    e.family ∈ ["TypeError".toList, "ValueError".toList] ∨ IsRefusal e := by
  cases he with
  | silent s =>
      cases s with
      | digits => exact .inl (.tail _ (.head _))
      | refused o => exact .inr ⟨o, .inl rfl⟩
  | writing e =>
      cases e with
      | key family
      | value family => exact .inl (.head _)
      | circular
      | tooManyDigits => exact .inl (.tail _ (.head _))
      | refused o => exact .inr ⟨o, .inr rfl⟩

theorem exists_plainText_iff (v : Value) :
    (∃ s, v.plainText = .ok s) ↔ v.plainSilence? = none := by
  unfold Value.plainText
  cases v.plainSilence? with
  | some s => exact ⟨fun ⟨_, h⟩ => (nomatch h), fun h => (nomatch h)⟩
  | none => exact ⟨fun _ => rfl, fun _ => ⟨_, rfl⟩⟩

/-- The text of a container is its JSON text. -/
theorem exists_looseText_iff (v : Value) :
    (∃ s, (match Json.write .loose v with
        | .ok s => .ok (some s)
        | .error e => .error (.jsonWriting e) : Except Fault (Option Text))
          = .ok s) ↔ Writable true v := by
  refine Iff.trans ?_ (Json.exists_write_iff .loose v)
  cases Json.write .loose v with
  | error e => exact ⟨fun ⟨_, h⟩ => (nomatch h), fun ⟨_, h⟩ => (nomatch h)⟩
  | ok s => exact ⟨fun _ => ⟨s, rfl⟩, fun _ => ⟨_, rfl⟩⟩

/-- Any other value without a text of its own has its plain form. -/
theorem exists_plainForm_iff {v : Value} (hv : Json.PlainOnly v) :
    (∃ s, v.plainText.map some = .ok s) ↔ Writable true v := by
  rw [exists_map_iff, exists_plainText_iff,
    Json.writable_iff_of_plainOnly hv]

/-- A value has a text exactly if it is writable with plain forms. -/
theorem exists_stringForm_iff (v : Value) :
    (∃ s, stringForm v = .ok s) ↔ Writable true v := by
  refine Iff.trans (exists_map_iff _) ?_
  cases v with
  | null => exact ⟨fun _ => .null, fun _ => ⟨_, rfl⟩⟩
  | term t => exact ⟨fun _ => .term, fun _ => ⟨_, rfl⟩⟩
  | bool b => exact ⟨fun _ => .bool, fun _ => ⟨_, rfl⟩⟩
  | text s => exact ⟨fun _ => .text, fun _ => ⟨_, rfl⟩⟩
  | float x => exact ⟨fun _ => .float, fun _ => ⟨_, rfl⟩⟩
  | map entries => exact exists_looseText_iff (.map entries)
  | list items => exact exists_looseText_iff (.list items)
  | tuple items => exact exists_looseText_iff (.tuple items)
  | cycle e => exact exists_looseText_iff (.cycle e)
  | int n =>
      have hplain := exists_plainText_iff (.int n)
      have hdigits : (Value.int n).plainSilence? = none
          ↔ Value.hasTooManyDigits n = false := by
        rw [Value.plainSilence?, Value.silence?]
        · cases Value.hasTooManyDigits n with
          | true => exact ⟨fun h => (nomatch h), fun h => (nomatch h)⟩
          | false => exact iff_of_true rfl rfl
        · exact nofun
      rw [Json.writable_int_iff, ← hdigits, ← hplain]
      show (∃ s, (Value.int n).plainText >>= (fun t => .ok (some t)) = .ok s)
        ↔ _
      generalize (Value.int n).plainText = x
      exact exists_map_iff some
  | bytes octets => exact exists_plainForm_iff .bytes
  | set items => exact exists_plainForm_iff .set
  | date d => exact exists_plainForm_iff .date
  | dateTime d => exact exists_plainForm_iff .dateTime
  | foreign o parts => exact exists_plainForm_iff .foreign
  | agent c items => exact exists_plainForm_iff .agent

theorem formFault_of_plainText {v : Value} {e : Fault}
    (he : v.plainText = .error e) : FormFault e := by
  unfold Value.plainText at he
  split at he
  case h_1 s _ =>
    cases he
    exact .silent s
  case h_2 => cases he

theorem formFault_of_stringForm {v : Value} {e : Fault}
    (he : stringForm v = .error e) : FormFault e := by
  have hform : stringForm? v = .error e := eq_error_of_map he
  have hloose {w : Value}
      (hw : (match Json.write .loose w with
        | .ok s => .ok (some s)
        | .error e => .error (.jsonWriting e) : Except Fault (Option Text))
          = .error e) : FormFault e := by
    split at hw
    case h_1 => cases hw
    case h_2 =>
      cases hw
      exact .writing _
  unfold stringForm? at hform
  split at hform
  case h_1 => cases hform
  case h_2 => cases hform
  case h_3 => cases hform
  case h_4 => cases hform
  case h_5 => exact hloose hform
  case h_6 => exact hloose hform
  case h_7 => exact hloose hform
  case h_8 c => exact hloose (w := .cycle c) hform
  case h_9 => exact formFault_of_plainText (eq_error_of_map hform)

theorem formFault_of_strings {fields : Fields} {e : Fault}
    (he : strings fields = .error e) : FormFault e := by
  induction fields with
  | nil => cases he
  | cons f rest ih =>
      rw [strings] at he
      cases hf : stringForm f.2 with
      | error e' =>
          rw [hf] at he
          cases he
          exact formFault_of_stringForm hf
      | ok s =>
          rw [hf] at he
          exact ih (eq_error_of_map he)

theorem exists_strings_iff (fields : Fields) :
    (∃ ss, strings fields = .ok ss) ↔ ∀ f ∈ fields, Writable true f.2 := by
  induction fields with
  | nil => exact ⟨fun _ _ hf => absurd hf List.not_mem_nil, fun _ => ⟨_, rfl⟩⟩
  | cons f rest ih =>
      rw [strings, List.forall_mem_cons, ← exists_stringForm_iff f.2, ← ih]
      exact exists_bind_iff fun _ => exists_map_iff _

/-- Fields have a text exactly if all values have one. -/
theorem exists_text_iff (fields : Fields) :
    (∃ s, text fields = .ok s) ↔ ∀ f ∈ fields, Writable true f.2 :=
  (exists_map_iff _).trans (exists_strings_iff fields)

/-- No text of a field holds half of a surrogate pair. -/
def Whole (fields : Fields) (halves : Text → Utf8.Halves) : Prop :=
  ∀ pairs, strings fields = .ok pairs →
    ∀ p ∈ pairs, (halves p.1).Absent p.2

theorem whole_none (fields : Fields) : Whole fields fun _ => .none :=
  fun _ _ p _ => Utf8.Halves.absent_none p.2

/-- Where fields have texts they have a query, unless one of the texts is
torn. -/
theorem query_of_strings {fields : Fields} {pairs : List (Text × Text)}
    (h : strings fields = .ok pairs) (halves : Text → Utf8.Halves) :
    (Whole fields halves ∧ query fields halves
        = .ok (if pairs.isEmpty then [] else '?' :: Text.Form.query pairs))
      ∨ (¬ Whole fields halves
        ∧ ∃ flaw, query fields halves = .error (.encoding flaw)) := by
  have hwhole : Whole fields halves ↔ Text.Form.flaw? halves pairs = none := by
    rw [Text.Form.flaw?_eq_none_iff]
    refine ⟨fun hwhole => hwhole pairs h, fun habsent pairs' hpairs' => ?_⟩
    cases h.symm.trans hpairs'
    exact habsent
  rw [hwhole, query, h]
  cases hflaw : Text.Form.flaw? halves pairs with
  | none =>
      refine .inl ⟨rfl, ?_⟩
      simp only [bind, Except.bind, hflaw]
  | some flaw =>
      refine .inr ⟨Option.some_ne_none flaw, flaw, ?_⟩
      simp only [bind, Except.bind, hflaw]

/-- Fields have a query exactly if they have a text, all of it in
characters. -/
theorem exists_query_iff (fields : Fields) (halves : Text → Utf8.Halves) :
    (∃ s, query fields halves = .ok s)
      ↔ (∃ s, text fields = .ok s) ∧ Whole fields halves := by
  cases hstrings : strings fields with
  | error e =>
      have htext : text fields = .error e := by
        rw [text, hstrings]
        rfl
      have hquery : query fields halves = .error e := by
        rw [query, hstrings]
        rfl
      rw [htext, hquery]
      exact ⟨fun ⟨_, h⟩ => (nomatch h), fun ⟨⟨_, h⟩, _⟩ => (nomatch h)⟩
  | ok pairs =>
      have htext : ∃ s, text fields = .ok s := by
        rw [text, hstrings]
        exact ⟨_, rfl⟩
      rw [and_iff_right htext]
      rcases query_of_strings hstrings halves with
        ⟨hwhole, hquery⟩ | ⟨htorn, flaw, hquery⟩
      · exact iff_of_true ⟨_, hquery⟩ hwhole
      · rw [hquery]
        exact iff_of_false nofun htorn

/-- A query fails as the text does, or else at half of a pair. -/
theorem query_eq_error {fields : Fields} {halves : Text → Utf8.Halves}
    {e : Fault} (he : query fields halves = .error e) :
    text fields = .error e ∨ ∃ flaw, e = .encoding flaw := by
  cases hstrings : strings fields with
  | error f =>
      rw [query, hstrings] at he
      cases he
      rw [text, hstrings]
      exact .inl rfl
  | ok pairs =>
      rcases query_of_strings hstrings halves with
        ⟨-, hquery⟩ | ⟨-, flaw, hquery⟩
      · cases hquery.symm.trans he
      · exact .inr ⟨flaw, Except.error.inj (he.symm.trans hquery)⟩

theorem writable_toMap_iff {lenient : Bool} (fields : Fields) :
    Writable lenient (toMap fields)
      ↔ ∀ f ∈ fields, Writable lenient f.2 := by
  unfold toMap
  constructor
  · intro h
    cases h with
    | map _ hvalues => exact fun f hf => hvalues _ (List.mem_map_of_mem hf)
    | plain _ hv => cases hv
  · intro h
    refine .map (List.forall_mem_map.mpr fun _ _ => .text) ?_
    exact List.forall_mem_map.mpr h

/-- Fields have JSON text exactly if all values have. -/
theorem exists_json_iff (style : Json.Style) (fields : Fields) :
    (∃ s, json style fields = .ok s)
      ↔ ∀ f ∈ fields, Writable style.lenient f.2 := by
  rw [← writable_toMap_iff, ← Json.exists_write_iff]
  unfold json
  cases Json.write style (toMap fields) with
  | error e => exact ⟨fun ⟨_, h⟩ => (nomatch h), fun ⟨_, h⟩ => (nomatch h)⟩
  | ok s => exact ⟨fun _ => ⟨s, rfl⟩, fun _ => ⟨_, rfl⟩⟩

/-- What has JSON text has a text. -/
theorem exists_text_of_json {style : Json.Style} {fields : Fields}
    (hjson : ∃ s, json style fields = .ok s) : ∃ s, text fields = .ok s :=
  (exists_text_iff fields).mpr fun f hf =>
    ((exists_json_iff style fields).mp hjson f hf).toLenient

/-- Where JSON fails it says so under a name of its own. -/
theorem serialization_of_json {style : Json.Style} {fields : Fields}
    {e : Fault} (he : json style fields = .error e) :
    ∃ reason, e = .serialization reason := by
  unfold json at he
  split at he
  case h_1 => cases he
  case h_2 =>
    cases he
    exact ⟨_, rfl⟩

end Projection

-- ================================================================= records

/-- The fields that take what a caller hands over, or parts of it, without
a look at what it is made of. -/
def openFields : List Field :=
  [.complianceDocVersion, .shardId, .indices, .resolvedIndices,
    .transportRequestHeaders, .restRequestHeaders, .restRequestParams]

/-- A value of a kind that has no parts has a text. -/
theorem writable_of_accepts {k : FieldKind} {v : Value}
    (hk : k ∉ [FieldKind.integer, .sequence, .mapping])
    (hv : k.accepts v = true) : Writable true v := by
  cases v with
  | text s => exact .text
  | term t => exact .term
  | bool b => exact .bool
  | int n
  | list items
  | map entries =>
      cases k with
      | integer
      | sequence
      | mapping => exact absurd (by decide) hk
      | _ => cases hv
  | _ => cases k <;> cases hv

theorem writable_fingerprint (f : Fingerprint) : Writable true f.toValue := by
  refine .map ?_ ?_
  · simp [Json.IsKey.text]
  · simp [Writable.text]

/-- A number is written to an open field. -/
theorem mem_openFields_of_number {c : Call} {f : Field} {v : Value}
    (hv : c.number? = some v) (hf : f ∈ c.fields) : f ∈ openFields := by
  cases c with
  | docVersion _
  | shard _ =>
      rw [List.mem_singleton.mp hf]
      decide
  | _ => cases hv

/-- So is a list of items. -/
theorem mem_openFields_of_sequence {c : Call} {f : Field} {v : Value}
    (hv : c.sequence? = some v) (hf : f ∈ c.fields) : f ∈ openFields := by
  cases c with
  | indices _
  | resolvedIndices _ =>
      rw [List.mem_singleton.mp hf]
      decide
  | _ => cases hv

/-- What an operation writes to any other field has a text. -/
theorem writable_of_writes {node : Value} {c : Call} {w : Write}
    (hw : c.Writes node w) (hf : w.1 ∉ openFields) : Writable true w.2 := by
  cases hw with
  | text _ _ _ hv => exact writable_of_accepts (k := .text) (by decide) hv
  | task => exact .text
  | flag => exact .bool
  | member => exact .term
  | files =>
      exact .list (List.forall_mem_map.mpr fun f _ => writable_fingerprint f)
  | number hmem _ hn => exact absurd (mem_openFields_of_number hn hmem) hf
  | items hmem _ hv => exact absurd (mem_openFields_of_sequence hv hmem) hf
  | transportHeaders
  | headers
  | params => exact absurd (by simp [openFields]) hf

namespace Record

variable {category origin layer : Value} {cluster : Option Cluster}
  {clock : DateTime} {r : Record}

/-- All that a new record holds has a text. -/
theorem writable_initial :
    EveryWrite (fun w => Writable true w.2)
      (initial category cluster origin layer clock) := by
  refine everyWrite_initial (fun i hi => ?_) fun _ _ _ => .term
  have haccepted := hi.accepted
  simp only [Identity.writes, List.forall_mem_cons] at haccepted ⊢
  obtain ⟨-, -, -, haddress, hid, hhost, hnode, hcluster, -⟩ := haccepted
  have htext {v : Value} (hv : FieldKind.text.accepts v = true) :
      Writable true v := writable_of_accepts (by decide) hv
  exact ⟨.int (by decide +kernel), .term, .text, htext haddress, htext hid,
    htext hhost, htext hnode, htext hcluster,
    fun w hw => absurd hw List.not_mem_nil⟩

theorem writable_start
    (hr : start category cluster origin layer clock = .ok r) :
    ∀ e ∈ r.fields, Writable true e.2 := by
  obtain ⟨first, hfirst, rfl⟩ := exists_of_start hr
  intro e he
  exact writable_initial first hfirst e
    ((mem_of_mem_putAll he).resolve_right List.not_mem_nil)

/-- Whatever is done to a record, what its other fields hold has a text. -/
theorem writable_run
    (hr : start category cluster origin layer clock = .ok r) (h : Host)
    (cs : List Call) :
    ∀ e ∈ (r.run h cs).fields, e.1 ∉ openFields → Writable true e.2 := by
  refine run_preserves
    (q := fun r => ∀ e ∈ r.fields, e.1 ∉ openFields → Writable true e.2)
    (fun c _ r hr e he hopen => ?_) fun e he _ => writable_start hr e he
  rcases mem_of_mem_putAll he with he | he
  · exact writable_of_writes (Call.outcome_writes h r.node c e he) hopen
  · exact hr e he hopen

theorem forall_wireFields_iff {p : Value → Prop} (r : Record) :
    (∀ f ∈ r.wireFields, p f.2) ↔ ∀ e ∈ r.fields, p e.2 :=
  List.forall_mem_map

/-- A run leaves a record that can be written as text exactly if what its
open fields hold is writable with plain forms; if it is not, that is an
error of type or value, or an object refused to be shown. It can be written
as a query exactly if moreover none of its texts holds half of a surrogate
pair; if it cannot, the query fails as the text does, or else with an error
of encoding. JSON is there exactly if all fields are writable without plain
forms, in either layout, and otherwise fails under the name that it reports
its failures by. -/
theorem run_projections
    (hr : start category cluster origin layer clock = .ok r) (h : Host)
    (cs : List Call) :
    let fields := (r.run h cs).wireFields
    let shown := ∀ e ∈ (r.run h cs).fields, e.1 ∈ openFields →
      Writable true e.2
    let written := ∀ e ∈ (r.run h cs).fields, Writable false e.2
    ((∃ s, Projection.text fields = .ok s) ↔ shown)
      ∧ (∀ e, Projection.text fields = .error e →
        e.family ∈ ["TypeError".toList, "ValueError".toList]
          ∨ Projection.IsRefusal e)
      ∧ (∀ halves,
        ((∃ s, Projection.query fields halves = .ok s)
          ↔ shown ∧ Projection.Whole fields halves)
        ∧ ∀ e, Projection.query fields halves = .error e →
          Projection.text fields = .error e
            ∨ e.family = "UnicodeEncodeError".toList)
      ∧ ((∃ s, Projection.compactJson fields = .ok s) ↔ written)
      ∧ ((∃ s, Projection.prettyJson fields = .ok s) ↔ written)
      ∧ (∀ e, Projection.compactJson fields = .error e ∨
          Projection.prettyJson fields = .error e →
        ∃ reason, e = .serialization reason) := by
  intro fields shown written
  have hshown : (∀ f ∈ fields, Writable true f.2) ↔ shown := by
    refine (forall_wireFields_iff _).trans
      ⟨fun hall e he _ => hall e he, fun hopen e he => ?_⟩
    by_cases he' : e.1 ∈ openFields
    · exact hopen e he he'
    · exact writable_run hr h cs e he he'
  have hwritten : (∀ f ∈ fields, Writable false f.2) ↔ written :=
    forall_wireFields_iff _
  have htext : (∃ s, Projection.text fields = .ok s) ↔ shown :=
    (Projection.exists_text_iff _).trans hshown
  refine ⟨htext, fun e he => ?_, fun halves => ⟨?_, fun e he => ?_⟩,
    (Projection.exists_json_iff .compact _).trans hwritten,
    (Projection.exists_json_iff .pretty _).trans hwritten, fun e he => ?_⟩
  · have hstrings : Projection.strings fields = .error e := eq_error_of_map he
    exact (Projection.formFault_of_strings hstrings).family_mem
  · rw [Projection.exists_query_iff, htext]
  · rcases Projection.query_eq_error he with htext | ⟨flaw, rfl⟩
    · exact .inl htext
    · exact .inr rfl
  · exact he.elim Projection.serialization_of_json
      Projection.serialization_of_json

/-- With arguments of the declared types, and integers that are not too long,
nothing fails. -/
theorem exists_projections_of_wellTyped
    (hr : start category cluster origin layer clock = .ok r) (h : Host)
    {cs : List Call} (hcs : ∀ c ∈ cs, c.WellTyped) :
    (∃ s, Projection.text (r.run h cs).wireFields = .ok s)
      ∧ (∃ s, Projection.query (r.run h cs).wireFields = .ok s)
      ∧ (∃ s, Projection.compactJson (r.run h cs).wireFields = .ok s)
      ∧ ∃ s, Projection.prettyJson (r.run h cs).wireFields = .ok s := by
  have hwritable : ∀ f ∈ (r.run h cs).wireFields, Writable false f.2 :=
    (forall_wireFields_iff _).mpr fun e he =>
      (readable_run (n := 0) hr hcs e he).writable
  have hcompact := (Projection.exists_json_iff .compact _).mpr hwritable
  have htext := Projection.exists_text_of_json hcompact
  exact ⟨htext,
    (Projection.exists_query_iff _ _).mpr ⟨htext, Projection.whole_none _⟩,
    hcompact, (Projection.exists_json_iff .pretty _).mpr hwritable⟩

/-- A record with a document's version can be shown. -/
theorem run_projections_docVersion :
    ∃ r s, login = .ok r
      ∧ Projection.text (r.run bareHost [.docVersion (.int 7)]).wireFields
        = .ok s := by
  have hr : login = .ok _ := rfl
  obtain ⟨htext, -⟩ := run_projections hr bareHost [.docVersion (.int 7)]
  have hshown := htext.mpr fun e he _ => by
    have hmem : e ∈ [((.complianceDocVersion, .int 7) : Write)] ∨ e ∈ _ :=
      mem_of_mem_putAll he
    rcases hmem with he | he
    · rw [List.mem_singleton.mp he]
      exact .int (by decide +kernel)
    · exact writable_start hr e he
  obtain ⟨s, hs⟩ := hshown
  exact ⟨_, s, hr, hs⟩

/-- A transport header under a key that is no text. -/
def oddHeaders : Call :=
  .transportHeaders (.map [(.bytes [0x78], .text ['y'])]) (.bool false)

/-- A record with such a header cannot. -/
theorem run_not_shown :
    ¬ ∀ (category origin layer : Value) (cluster : Option Cluster)
        (clock : DateTime) (r : Record) (h : Host) (cs : List Call),
      start category cluster origin layer clock = .ok r →
      (∃ s, Projection.text (r.run h cs).wireFields = .ok s)
        ∧ ∃ s, Projection.query (r.run h cs).wireFields = .ok s := by
  intro hall
  have hr : login = .ok _ := rfl
  obtain ⟨htext, -⟩ := hall _ _ _ _ _ _ bareHost [oddHeaders] hr
  have hshown := (forall_wireFields_iff _).mp
    ((Projection.exists_text_iff _).mp htext)
  cases hshown
    (.transportRequestHeaders, .map [(.bytes [0x78], .text ['y'])])
    (List.mem_of_mem_drop (i := 8) (List.mem_singleton.mpr rfl)) with
  | map hkeys => cases hkeys _ (List.mem_singleton.mpr rfl)
  | plain _ hv => cases hv

end Record

end AuditTrail
