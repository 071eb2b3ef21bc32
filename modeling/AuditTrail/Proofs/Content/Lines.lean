/-
Content in JSON line by line.

JSON texts without line feeds and carriage returns, one a line, are
converted line by line exactly if each of them is one line
(`lines_cases`). Not every one is: content is taken apart at all
line ends of Unicode, and three of them, U+0085, U+2028 and U+2029, stand in
strings of JSON text as themselves. A text that holds one is cut inside a
string, what stands in front is not blank and is no JSON text
(`Json.read_cut`), and the whole content is refused. Texts that are
converted are written on one line of their own, without control characters,
so converting them again is the same with them in place of what they were
made from (`toJson_lines`); they may be refused then where escapes were
written as the line ends they stood for.
-/
import AuditTrail.Proofs.Content.Canonical
import AuditTrail.Proofs.Json.Cut

namespace AuditTrail.Content

variable {mediaType s t : Text} {ss ts : List Text}

/-- A media type of JSON texts, one a line. -/
def IsJsonLines (mediaType : Text) : Prop :=
  Format.ofMediaType? (baseMediaType mediaType) = some .jsonLines

instance (mediaType : Text) : Decidable (IsJsonLines mediaType) :=
  inferInstanceAs (Decidable (_ = _))

-- ============================================================== one text

/-- Text in JSON is converted by restating it. -/
theorem toJson_text_eq_ok_iff (hformat : IsJson mediaType) :
    toJson (.text s) (.text mediaType) = .ok t ↔ restate s = .ok t := by
  have htext : text (.text s) (baseMediaType mediaType) = .ok s := rfl
  have hformat : Format.ofMediaType? (baseMediaType mediaType) = _ := hformat
  simp only [toJson, baseOfValue_text, htext, hformat, bind, Except.bind]
  exact ofJson_eq_ok_iff

theorem toJson_text_eq (hformat : IsJsonLines mediaType) :
    toJson (.text s) (.text mediaType)
      = ofJsonLines (baseMediaType mediaType) s := by
  have htext : text (.text s) (baseMediaType mediaType) = .ok s := rfl
  have hformat : Format.ofMediaType? (baseMediaType mediaType) = _ := hformat
  simp only [toJson, baseOfValue_text, htext, hformat, bind, Except.bind]

/-- A text to be put on a line, and what it is restated as. -/
structure Restated (s t : Text) : Prop where
  newline : '\n' ∉ s
  carriage : '\r' ∉ s
  present : Text.isAllBlank s = false
  restate : restate s = .ok t

theorem Restated.ne_nil (h : Restated s t) : s ≠ [] := by
  rintro rfl
  cases h.present

/-- What a text is restated as is restated as itself. -/
theorem Restated.self (h : Restated s t) : Restated t t := by
  have hjson : IsJson "application/json".toList := by decide
  obtain ⟨v, -, hwrite, hread, hself⟩ :=
    toJson_self hjson ((toJson_text_eq_ok_iff hjson).mpr h.restate)
  have hcontrol := Json.noControl_write rfl rfl hwrite
  exact
    { newline := fun hmem => absurd (hcontrol _ hmem) (by decide)
      carriage := fun hmem => absurd (hcontrol _ hmem) (by decide)
      present := Json.not_isAllBlank_of_read hread
      restate := (toJson_text_eq_ok_iff hjson).mp hself }

-- ================================================================ lines

/-- The other line ends separate no parts of JSON text. -/
theorem foreign_of_isLineEnd {c : Char} (hc : Text.isLineEnd c = true)
    (hnewline : c ≠ '\n') (hcarriage : c ≠ '\r') : Json.Foreign c := by
  have hends : ∀ n ∈ [0xB, 0xC, 0x1C, 0x1D, 0x1E, 0x85, 0x2028, 0x2029],
      Text.isBlank (Char.ofNat n) = true
        ∧ Json.isSpace (Char.ofNat n) = false := by decide
  have hmem : c.toNat ∈ [0xB, 0xC, 0x1C, 0x1D, 0x1E, 0x85, 0x2028, 0x2029] := by
    have hnewline : c.toNat ≠ 0xA := fun h => hnewline (Char.toNat_inj.mp h)
    have hcarriage : c.toNat ≠ 0xD := fun h => hcarriage (Char.toNat_inj.mp h)
    simp only [Text.isLineEnd, Bool.or_eq_true, decide_eq_true_eq,
      beq_iff_eq] at hc
    simp only [List.mem_cons, List.not_mem_nil, or_false]
    omega
  obtain ⟨hblank, hspace⟩ := hends _ hmem
  rw [Char.ofNat_toNat] at hblank hspace
  exact Json.foreign_of_isBlank hblank hspace

/-- What the lines that are not blank are restated as. -/
def restateLines (s : Text) : Except Fault (List Text) :=
  ((Text.lines s).filter fun line => !Text.isAllBlank line).mapM restate

/-- Texts of one line each are restated one by one. -/
theorem restateLines_of_oneLine (h : List.Forall₂ Restated ss ts)
    (hlines : ∀ s ∈ ss, Text.OneLine s) :
    restateLines (Text.joinWith ['\n'] ss) = .ok ts := by
  have hsplit : Text.lines (Text.joinWith ['\n'] ss) = ss := by
    refine Text.lines_joinWith fun s hs => ⟨hlines s hs, ?_⟩
    clear hlines
    induction h with
    | nil => cases hs
    | cons hst _ ih =>
        rcases List.mem_cons.mp hs with rfl | hs
        · exact hst.ne_nil
        · exact ih hs
  unfold restateLines
  rw [hsplit]
  clear hsplit hlines
  induction h with
  | nil => rfl
  | cons hst _ ih =>
      rw [List.filter_cons_of_pos (by rw [hst.present]; rfl), List.mapM_cons,
        hst.restate, ih]
      rfl

/-- A text that is not one line is cut inside a string, in front of which
stands no JSON text. -/
theorem restateLines_of_not_oneLine (h : List.Forall₂ Restated ss ts)
    (hs : s ∈ ss) (hline : ¬ Text.OneLine s) :
    ∃ e, restateLines (Text.joinWith ['\n'] ss) = .error e := by
  unfold restateLines
  induction h with
  | nil => cases hs
  | @cons s₀ t₀ ss ts hst hrest ih =>
      by_cases hline₀ : Text.OneLine s₀
      · have hs : s ∈ ss := by
          rcases List.mem_cons.mp hs with rfl | hs
          · exact absurd hline₀ hline
          · exact hs
        obtain ⟨e, he⟩ := ih hs
        rw [Text.lines_joinWith_cons hline₀ (List.ne_nil_of_mem hs),
          List.filter_cons_of_pos (by rw [hst.present]; rfl), List.mapM_cons,
          hst.restate, he]
        exact ⟨e, rfl⟩
      · obtain ⟨p, c, q, rfl, hp, hc⟩ := Text.exists_first_end hline₀
        obtain ⟨u, hu⟩ := Text.exists_joinWith_eq_append ['\n'] (p ++ c :: q) ss
        obtain ⟨v, hread, -⟩ := restate_eq_ok_iff.mp hst.restate
        have hmem : c ∈ p ++ c :: q := by simp
        have hcarriage : c ≠ '\r' := fun h => hst.carriage (h ▸ hmem)
        have hforeign := foreign_of_isLineEnd hc
          (fun h => hst.newline (h ▸ hmem)) hcarriage
        obtain ⟨e, hcut⟩ := Json.read_cut hforeign hread
        have hrefused : restate p = .error (.jsonReading e) := by
          rw [restate, hcut]
        rw [hu, List.append_assoc, List.cons_append,
          Text.lines_append hp hc hcarriage, List.filter_cons_of_pos
            (by rw [Json.not_isAllBlank_of_read_append hforeign hread]; rfl),
          List.mapM_cons, hrefused]
        exact ⟨_, rfl⟩

-- =========================================================== conversion

/-- Texts, one a line, are converted to others, one a line. -/
def ConvertsLines (mediaType : Text) (ss ts : List Text) : Prop :=
  toJson (.text (Text.joinWith ['\n'] ss)) (.text mediaType)
    = .ok (Text.joinWith ['\n'] ts)

/-- Texts, one a line, are refused, with a reason. -/
def RefusesLines (mediaType : Text) (ss : List Text) : Prop :=
  ∃ reason, toJson (.text (Text.joinWith ['\n'] ss)) (.text mediaType)
    = .error (.conversion (some (baseMediaType mediaType))
      ("Invalid NDJSON content: ".toList ++ reason))

theorem convertsLines_of_oneLine (hformat : IsJsonLines mediaType)
    (h : List.Forall₂ Restated ss ts) (hlines : ∀ s ∈ ss, Text.OneLine s) :
    ConvertsLines mediaType ss ts := by
  have hrestate : ((Text.lines (Text.joinWith ['\n'] ss)).filter
      fun line => !Text.isAllBlank line).mapM restate = .ok ts :=
    restateLines_of_oneLine h hlines
  rw [ConvertsLines, toJson_text_eq hformat, ofJsonLines, hrestate]

theorem refusesLines_of_not_oneLine (hformat : IsJsonLines mediaType)
    (h : List.Forall₂ Restated ss ts) (hs : s ∈ ss)
    (hline : ¬ Text.OneLine s) : RefusesLines mediaType ss := by
  obtain ⟨e, he⟩ := restateLines_of_not_oneLine h hs hline
  refine ⟨e.message, ?_⟩
  rw [toJson_text_eq hformat, ofJsonLines, show (List.filter _ _).mapM restate
    = .error e from he]
  rfl

/-- Each of two outcomes that exclude each other comes exactly if its own
condition holds. -/
theorem lines_cases (hformat : IsJsonLines mediaType)
    (h : List.Forall₂ Restated ss ts) :
    (ConvertsLines mediaType ss ts ↔ ∀ s ∈ ss, Text.OneLine s)
      ∧ (RefusesLines mediaType ss ↔ ∃ s ∈ ss, ¬ Text.OneLine s) := by
  have hexclusive : ConvertsLines mediaType ss ts →
      ¬ RefusesLines mediaType ss := by
    rintro hconverts ⟨reason, hrefuses⟩
    cases hconverts.symm.trans hrefuses
  by_cases hlines : ∀ s ∈ ss, Text.OneLine s
  · have hconverts := convertsLines_of_oneLine hformat h hlines
    refine ⟨iff_of_true hconverts hlines,
      iff_of_false (hexclusive hconverts) ?_⟩
    rintro ⟨s, hs, hline⟩
    exact hline (hlines s hs)
  · obtain ⟨s, hs, hline⟩ : ∃ s ∈ ss, ¬ Text.OneLine s := by
      simpa using hlines
    have hrefuses := refusesLines_of_not_oneLine hformat h hs hline
    exact ⟨iff_of_false (fun hconverts => hexclusive hconverts hrefuses) hlines,
      iff_of_true hrefuses ⟨s, hs, hline⟩⟩

theorem restated_of_converted
    (hlines : ∀ s ∈ ss, '\n' ∉ s ∧ '\r' ∉ s ∧ Text.isAllBlank s = false)
    (hconverted : List.Forall₂ (fun s t => toJson (.text s)
      (.text "application/json".toList) = .ok t) ss ts) :
    List.Forall₂ Restated ss ts := by
  induction hconverted with
  | nil => exact .nil
  | cons hst _ ih =>
      obtain ⟨⟨hnewline, hcarriage, hpresent⟩, hlines⟩ :=
        List.forall_mem_cons.mp hlines
      exact .cons ⟨hnewline, hcarriage, hpresent,
        (toJson_text_eq_ok_iff (by decide)).mp hst⟩ (ih hlines)

theorem restated_self (h : List.Forall₂ Restated ss ts) :
    List.Forall₂ Restated ts ts := by
  induction h with
  | nil => exact .nil
  | cons hst _ ih => exact .cons hst.self ih

/-- JSON texts that are neither blank nor hold a line feed or a carriage
return, one a line, are converted to what each of them is converted to,
exactly if each is one line, and are refused otherwise. The same holds of
what they are converted to, which is to be converted to itself. -/
theorem toJson_lines (hformat : IsJsonLines mediaType)
    (hlines : ∀ s ∈ ss, '\n' ∉ s ∧ '\r' ∉ s ∧ Text.isAllBlank s = false)
    (hconverted : List.Forall₂ (fun s t => toJson (.text s)
      (.text "application/json".toList) = .ok t) ss ts) :
    ((ConvertsLines mediaType ss ts ↔ ∀ s ∈ ss, Text.OneLine s)
      ∧ (RefusesLines mediaType ss ↔ ∃ s ∈ ss, ¬ Text.OneLine s))
    ∧ (ConvertsLines mediaType ts ts ↔ ∀ t ∈ ts, Text.OneLine t)
      ∧ (RefusesLines mediaType ts ↔ ∃ t ∈ ts, ¬ Text.OneLine t) := by
  have hrestated := restated_of_converted hlines hconverted
  exact ⟨lines_cases hformat hrestated,
    lines_cases hformat (restated_self hrestated)⟩

/-- A word, and a string with a line end of Unicode as an escape. -/
def escapedEnd : List Text :=
  [" null".toList, "\x22a\\u2028b\x22".toList]

/-- The same, the line end as itself. -/
def writtenEnd : List Text :=
  ["null".toList, "\x22a\u2028b\x22".toList]

/-- They are converted once, but not again. -/
theorem toJson_lines_escapedEnd :
    ConvertsLines "application/x-ndjson".toList escapedEnd writtenEnd
      ∧ RefusesLines "application/x-ndjson".toList writtenEnd := by
  have hformat : IsJsonLines "application/x-ndjson".toList := by decide
  have hconverted : List.Forall₂ (fun s t => toJson (.text s)
      (.text "application/json".toList) = .ok t) escapedEnd writtenEnd :=
    .cons (eq_ok_of_toOption (by decide))
      (.cons (eq_ok_of_toOption (by decide +kernel)) .nil)
  obtain ⟨⟨hconverts, -⟩, -, hrefuses⟩ :=
    toJson_lines hformat (by decide) hconverted
  exact ⟨hconverts.mpr (by decide), hrefuses.mpr (by decide)⟩

/-- A string with such a line end as itself is not even converted once. -/
theorem writtenEnd_refused :
    ¬ ∀ ss ts : List Text,
      (∀ s ∈ ss, '\n' ∉ s ∧ '\r' ∉ s ∧ Text.isAllBlank s = false) →
      List.Forall₂ (fun s t => toJson (.text s)
        (.text "application/json".toList) = .ok t) ss ts →
      ConvertsLines "application/x-ndjson".toList ss ts
        ∧ ConvertsLines "application/x-ndjson".toList ts ts := by
  intro hall
  have hself : List.Forall₂ (fun s t => toJson (.text s)
      (.text "application/json".toList) = .ok t) writtenEnd writtenEnd :=
    .cons (eq_ok_of_toOption (by decide))
      (.cons (eq_ok_of_toOption (by decide)) .nil)
  have hlines : ∀ s ∈ writtenEnd,
      '\n' ∉ s ∧ '\r' ∉ s ∧ Text.isAllBlank s = false := by decide
  obtain ⟨hconverts, -⟩ := hall writtenEnd writtenEnd hlines hself
  have hformat : IsJsonLines "application/x-ndjson".toList := by decide
  obtain ⟨reason, hrefuses⟩ := refusesLines_of_not_oneLine hformat
    (restated_of_converted hlines hself) (.tail _ (.head _)) (by decide)
  cases hconverts.symm.trans hrefuses

end AuditTrail.Content
