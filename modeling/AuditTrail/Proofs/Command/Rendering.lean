/-
What can be read off a printed record.

A record is printed in one of four layouts, and each of them is read in its
own way: JSON as a whole, a text line by line, a query component by
component (`Tells`). A list that a field holds is JSON in all of them, so
whatever the layout it is read back as the list that it is
(`exists_layOut`). In a text any field may hold line feeds, which look like
the ends of lines; only what stands in the last line cannot be mistaken, and
so a text is told of the field that was written last.

What is laid out is printed, unless half of a surrogate pair is in the way:
a query has no room for one, and the output may refuse it too (`Intact`).
-/
import AuditTrail.Command.Run
import AuditTrail.Proofs.Keyed
import AuditTrail.Proofs.Record.TextLines
import AuditTrail.Proofs.Record.TypedRequest
import AuditTrail.Proofs.Text.Form

namespace AuditTrail

open Json (Readable)

-- ======================================================== fields by their names

namespace Projection

variable {fields : Fields} {pairs : List (Text × Text)} {name s : Text}
  {v : Value}

/-- Among the texts of fields each field has its own. -/
theorem lookup_strings (h : strings fields = .ok pairs)
    (hv : fields.lookup name = some v) (hs : stringForm v = .ok s) :
    pairs.lookup name = some s := by
  induction fields generalizing pairs with
  | nil => cases hv
  | cons e rest ih =>
      obtain ⟨key, w⟩ := e
      obtain ⟨form, hform, h⟩ := exists_of_bind_eq_ok h
      obtain ⟨more, hmore, h⟩ := exists_of_bind_eq_ok h
      cases h
      rw [List.lookup_cons] at hv ⊢
      by_cases hname : name = key
      · subst hname
        simp only [beq_self_eq_true] at hv ⊢
        cases hv
        rw [hform] at hs
        exact congrArg some (Except.ok.inj hs)
      · simp only [beq_false_of_ne hname] at hv ⊢
        exact ih hmore hv

/-- The last line of a text is that of the last field, if it is one line. -/
theorem getLast?_splitAt {line : Text}
    (h : text (fields ++ [(name, v)]) = .ok s)
    (hline : line? (name, v) = some line) (hone : '\n' ∉ line) :
    (Text.splitAt '\n' s).getLast? = some line := by
  have hlines : lines (fields ++ [(name, v)]) = lines fields ++ [line] := by
    simp [lines, hline]
  have hsplit : Text.splitAt '\n' line = [line] :=
    Text.splitAt_joinWith (List.forall_mem_singleton.mpr hone)
      (List.cons_ne_nil line [])
  rw [text_eq_joinWith h, hlines,
    Text.splitAt_joinWith_eq_flatMap (List.append_ne_nil_of_right_ne_nil _
      (List.cons_ne_nil _ _)), List.flatMap_append, List.flatMap_cons, hsplit]
  simp

end Projection

namespace Record

variable {r : Record} {f : Field} {v : Value}

/-- Under its key in the written record a field has its value. -/
theorem lookup_wireFields (r : Record) (f : Field) :
    r.wireFields.lookup f.wire = r.get? f := by
  unfold wireFields get?
  induction r.fields with
  | nil => rfl
  | cons e rest ih =>
      rw [List.map_cons, List.lookup_cons, List.lookup_cons]
      by_cases hf : f = e.1
      · rw [hf, beq_self_eq_true, beq_self_eq_true]
      · rw [beq_false_of_ne hf,
          beq_false_of_ne (mt (Field.wire_injective ·) hf), ih]

/-- So it has in what is read of the record. -/
theorem lookupText_asWritten (hv : r.get? f = some v) :
    ∃ entries, r.asWritten = .map entries
      ∧ Value.lookupText entries f.wire = some (v.mapTexts id) := by
  refine ⟨Value.encode (Value.mapTexts id) r.wireFields, ?_, ?_⟩
  · unfold asWritten Value.encode wireFields
    rw [List.map_map]
    rfl
  · rw [Value.lookupText_encode, lookup_wireFields, hv, Option.map_some]

end Record

-- ==================================================================== layouts

namespace Command

/-- What a printed record tells under a name: what is found there in the JSON
that it is, in the JSON of its last line, or in that of a component. -/
def Tells (layout : Layout) (shown name : Text) (v : Value) : Prop :=
  match layout with
  | .json
  | .pretty =>
      ∃ entries, Json.read shown = .ok (.map entries)
        ∧ Value.lookupText entries name = some v
  | .text =>
      ∃ form, (Text.splitAt '\n' shown).getLast?
          = some (name ++ [':', ' '] ++ form)
        ∧ Json.read form = .ok v
  | .url =>
      ∃ components pairs form, shown = '?' :: components
        ∧ Text.Form.readQuery components = some pairs
        ∧ pairs.lookup name = some form ∧ Json.read form = .ok v

variable {r : Record} {f : Field} {front : List (Field × Value)}
  {items : List Value}

/-- In texts and queries a list is JSON on one line. -/
theorem exists_listForm (hitems : Readable Json.depthLimit (.list items)) :
    ∃ form, Projection.stringForm (.list items) = .ok form ∧ form ≠ []
      ∧ '\n' ∉ form
      ∧ Json.read form = .ok ((Value.list items).mapTexts id) := by
  obtain ⟨form, hwrite, hread, -⟩ := Json.read_write .loose hitems rfl
  refine ⟨form, ?_, ?_, fun hmem => ?_, hread⟩
  · rw [Projection.stringForm, Projection.stringForm?, hwrite]
    rfl
  · rintro rfl
    cases hread
  · exact absurd (Json.noControl_write rfl rfl hwrite _ hmem) (by decide)

/-- The fields of a record can be read as JSON. -/
theorem exists_readJson {style : Json.Style} (hstyle : style.ascii = false)
    (hnodup : (r.fields.map (·.1)).Nodup)
    (hreadable : ∀ e ∈ r.fields, Readable 989 e.2) :
    ∃ shown, Projection.json style r.wireFields = .ok shown
      ∧ Json.read shown = .ok r.asWritten := by
  have hmap : Readable Json.depthLimit (Projection.toMap r.wireFields) :=
    Record.readable_toMap hnodup hreadable
  obtain ⟨shown, hwrite, hread, -⟩ := Json.read_write style hmap hstyle
  rw [Record.mapTexts_toMap] at hread
  refine ⟨shown, ?_, hread⟩
  rw [Projection.json, hwrite]

/-- A record that ends in a list can be printed in every layout, and whatever
the layout it tells the list under the name of its field. -/
theorem exists_layOut (hfields : r.fields = front ++ [(f, .list items)])
    (hget : r.get? f = some (.list items))
    (hnodup : (r.fields.map (·.1)).Nodup)
    (hreadable : ∀ n, ∀ e ∈ r.fields, Readable (n + 2) e.2)
    (layout : Layout) :
    ∃ shown, layOut layout r .none = .ok shown
      ∧ Tells layout shown f.wire ((Value.list items).mapTexts id) := by
  obtain ⟨form, hform, hne, hone, hread⟩ :=
    exists_listForm (hreadable 988 _ (Record.mem_of_lookup_eq_some hget))
  have hwritable : ∀ e ∈ r.wireFields, Json.Writable true e.2 :=
    (Record.forall_wireFields_iff r).mpr fun e he =>
      (hreadable 0 e he).writable
  have hjson {style : Json.Style} (hstyle : style.ascii = false) :
      ∃ shown, Projection.json style r.wireFields = .ok shown
        ∧ ∃ entries, Json.read shown = .ok (.map entries)
          ∧ Value.lookupText entries f.wire
            = some ((Value.list items).mapTexts id) := by
    obtain ⟨shown, hshown, hread⟩ :=
      exists_readJson hstyle hnodup (hreadable 987)
    obtain ⟨entries, hentries, hlookup⟩ := Record.lookupText_asWritten hget
    exact ⟨shown, hshown, entries, hentries ▸ hread, hlookup⟩
  cases layout with
  | json => exact hjson rfl
  | pretty => exact hjson rfl
  | text =>
      obtain ⟨shown, hshown⟩ := (Projection.exists_text_iff _).mpr hwritable
      have hline : Projection.line? (f.wire, .list items)
          = some (f.wire ++ [':', ' '] ++ form) := by
        obtain ⟨c, rest, rfl⟩ := List.exists_cons_of_ne_nil hne
        rw [Projection.line?, hform]
      refine ⟨shown, hshown, form, ?_, hread⟩
      have hwire : r.wireFields
          = (⟨front⟩ : Record).wireFields ++ [(f.wire, .list items)] := by
        simp [Record.wireFields, hfields]
      rw [hwire] at hshown
      have hname : '\n' ∉ f.wire := (Term.field f).newline_notMem_wire
      exact Projection.getLast?_splitAt hshown hline (by simp [hname, hone])
  | url =>
      obtain ⟨pairs, hpairs⟩ := (Projection.exists_strings_iff _).mpr hwritable
      have hlookup : pairs.lookup f.wire = some form :=
        Projection.lookup_strings hpairs
          ((r.lookup_wireFields f).trans hget) hform
      have hsome : pairs ≠ [] := by
        rintro rfl
        cases hlookup
      refine ⟨'?' :: Text.Form.query pairs, ?_, _, pairs, form, rfl,
        Text.Form.readQuery_query hsome, hlookup, hread⟩
      rcases Projection.query_of_strings hpairs fun _ => .none with
        ⟨-, hquery⟩ | ⟨htorn, -⟩
      · rw [if_neg (mt List.isEmpty_iff.mp hsome)] at hquery
        exact hquery
      · exact absurd (Projection.whole_none _) htorn

-- =================================================================== printing

/-- A record that can be printed in some layout as far as its halves of
surrogate pairs go: a query has none of them, and the output none that it
refuses. -/
structure Intact (layout : Layout) (r : Record) (torn : Torn) : Prop where
  forms : layout = .url → Projection.Whole r.wireFields torn.forms
  shown : ∀ shown, layOut layout r .none = .ok shown →
    torn.shown.Absent shown

section Printing

variable {layout : Layout} {torn : Torn} {shown : Text}

/-- Halves of pairs make a difference to queries only. -/
theorem layOut_cases (h : layOut layout r .none = .ok shown) (torn : Torn) :
    ((layout = .url → Projection.Whole r.wireFields torn.forms)
        ∧ layOut layout r torn = .ok shown)
      ∨ (¬ (layout = .url → Projection.Whole r.wireFields torn.forms)
        ∧ ∃ flaw, layOut layout r torn = .error (.encoding flaw)) := by
  cases layout with
  | json
  | pretty
  | text => exact .inl ⟨nofun, h⟩
  | url =>
      obtain ⟨pairs, hpairs, -⟩ := exists_of_bind_eq_ok h
      rcases Projection.query_of_strings hpairs fun _ => .none with
        ⟨-, hplain⟩ | ⟨htorn, -⟩
      · rcases Projection.query_of_strings hpairs torn.forms with
          ⟨hwhole, hquery⟩ | ⟨htorn, hquery⟩
        · exact .inl ⟨fun _ => hwhole,
            hquery.trans (hplain.symm.trans h)⟩
        · exact .inr ⟨fun hwhole => htorn (hwhole rfl), hquery⟩
      · exact absurd (Projection.whole_none _) htorn

/-- What is laid out is printed if it is intact, and otherwise cannot be. -/
theorem render_cases (h : layOut layout r .none = .ok shown) (torn : Torn) :
    (Intact layout r torn ∧ render layout r torn = .ok shown)
      ∨ (¬ Intact layout r torn
        ∧ ∃ flaw, render layout r torn = .error (.encoding flaw)) := by
  rcases layOut_cases h torn with ⟨hforms, hok⟩ | ⟨htorn, flaw, herror⟩
  · rw [render, hok]
    cases hflaw : Utf8.encodeError? torn.shown shown with
    | none =>
        refine .inl ⟨⟨hforms, fun shown' h' => ?_⟩, ?_⟩
        · cases h.symm.trans h'
          exact Utf8.encodeError?_eq_none_iff.mp hflaw
        · simp only [bind, Except.bind, hflaw]
    | some flaw =>
        refine .inr ⟨fun hintact => ?_, flaw, ?_⟩
        · cases hflaw.symm.trans
            (Utf8.encodeError?_eq_none_iff.mpr (hintact.shown shown h))
        · simp only [bind, Except.bind, hflaw]
  · rw [render, herror]
    exact .inr ⟨fun hintact => htorn hintact.forms, flaw, rfl⟩

end Printing

end Command

end AuditTrail
