/-
Redaction of a JSON document, text by text.

`RedactsTo` is the shape of the argument: redaction passes over a piece of
text and leaves another behind, whatever follows. Pieces without a dollar
sign stay, quoted texts are redacted inside their quotes
(`Quoted.lean`), and pieces one after the other are redacted one by one.
The induction over the document follows the writer.
-/
import AuditTrail.Proofs.Json.Parts
import AuditTrail.Proofs.Record.Bodies
import AuditTrail.Proofs.Redaction.Quoted
import AuditTrail.Proofs.Value.Texts

namespace AuditTrail

namespace Redaction

variable {s t u v : Text}

-- ========================================================= piece by piece

/-- Redaction passes over a text and leaves another behind, whatever
follows. -/
def RedactsTo (s t : Text) : Prop :=
  ∀ rest, replaceHashes (s ++ rest) = t ++ replaceHashes rest

theorem RedactsTo.eq (h : RedactsTo s t) : replaceHashes s = t := by
  have hnil := h []
  rw [List.append_nil, replaceHashes_nil, List.append_nil] at hnil
  exact hnil

theorem RedactsTo.append (hs : RedactsTo s t) (hu : RedactsTo u v) :
    RedactsTo (s ++ u) (t ++ v) := by
  intro rest
  rw [List.append_assoc, hs, hu, List.append_assoc]

theorem redactsTo_of_dollar_notMem (h : '$' ∉ s) : RedactsTo s s :=
  replaceHashes_append_of_dollar_notMem h

theorem redactsTo_writeText (h : BcryptComplete s) :
    RedactsTo (Json.writeText false s)
      (Json.writeText false (replaceHashes s)) :=
  replaceHashes_writeText h

/-- Names that the system itself gives stay as they are. -/
theorem redactsTo_writeText_of_dollar_notMem (h : '$' ∉ s) :
    RedactsTo (Json.writeText false s) (Json.writeText false s) := by
  have hcomplete : BcryptComplete s := fun v t _ ht =>
    absurd (ht.subset List.mem_cons_self) h
  have hsame : replaceHashes s = s :=
    (redactsTo_of_dollar_notMem h).eq
  have hwrite := redactsTo_writeText hcomplete
  rw [hsame] at hwrite
  exact hwrite

/-- Brackets and commas stay around what they enclose. -/
theorem encloses_redactsTo : Json.Encloses .compact .compact RedactsTo where
  nil := redactsTo_of_dollar_notMem List.not_mem_nil
  append := RedactsTo.append
  mark hc := redactsTo_of_dollar_notMem fun hmem =>
    absurd (List.mem_singleton.mp hmem ▸ hc) (by decide)
  margin _ _ := redactsTo_of_dollar_notMem List.not_mem_nil

/-- Numbers and words have no dollar sign. -/
theorem redactsTo_of_isScalar (h : Json.IsScalar s) : RedactsTo s s :=
  redactsTo_of_dollar_notMem fun hmem => absurd (h '$' hmem) (by decide)

theorem redactsTo_writeText_of_isScalar (h : Json.IsScalar s) :
    RedactsTo (Json.writeText false s) (Json.writeText false s) :=
  redactsTo_writeText_of_dollar_notMem fun hmem =>
    absurd (h '$' hmem) (by decide)

-- ============================================================ documents

/-- A key is redacted inside its quotes. -/
theorem keyText_mapTexts {k : Value}
    (h : Json.keyText .compact k = .ok s)
    (hk : ∀ s ∈ k.texts, BcryptComplete s) :
    ∃ t, Json.keyText .compact (k.mapTexts replaceHashes) = .ok t
      ∧ RedactsTo (Json.writeText false s) (Json.writeText false t) := by
  cases k with
  | text d =>
      cases h
      exact ⟨_, rfl, redactsTo_writeText (hk _ List.mem_cons_self)⟩
  | term m =>
      cases h
      exact ⟨_, rfl, redactsTo_writeText (hk _ List.mem_cons_self)⟩
  | float x =>
      cases h
      exact ⟨_, rfl,
        redactsTo_writeText_of_isScalar (Json.isScalar_writeDouble x)⟩
  | bool b =>
      cases h
      exact ⟨_, rfl, redactsTo_writeText_of_isScalar (Json.isScalar_bool b)⟩
  | null =>
      cases h
      exact ⟨_, rfl, redactsTo_writeText_of_isScalar (by decide)⟩
  | int n =>
      exact ⟨s, h,
        redactsTo_writeText_of_isScalar (Json.isScalar_of_writeInt h)⟩
  | _ => cases h

mutual

/-- A value is redacted text by text. -/
theorem writeAt_mapTexts (depth : Nat) (v : Value) {out : Text}
    (h : Json.writeAt .compact depth v = .ok out)
    (hv : ∀ s ∈ v.texts, BcryptComplete s) :
    ∃ out', Json.writeAt .compact depth (v.mapTexts replaceHashes) = .ok out'
      ∧ RedactsTo out out' := by
  cases v with
  | text s =>
      cases h
      exact ⟨_, rfl, redactsTo_writeText (hv _ List.mem_cons_self)⟩
  | term m =>
      cases h
      exact ⟨_, rfl, redactsTo_writeText (hv _ List.mem_cons_self)⟩
  | null =>
      cases h
      exact ⟨_, rfl, redactsTo_of_isScalar (by decide)⟩
  | bool b =>
      cases h
      exact ⟨_, rfl, redactsTo_of_isScalar (Json.isScalar_bool b)⟩
  | int n =>
      have hint : Json.writeInt n = .ok out := h
      exact ⟨out, h, redactsTo_of_isScalar (Json.isScalar_of_writeInt hint)⟩
  | float x =>
      cases h
      exact ⟨_, rfl, redactsTo_of_isScalar (Json.isScalar_writeDouble x)⟩
  | list items =>
      obtain ⟨outs, houts, rfl⟩ := exists_of_map_eq_ok h
      obtain ⟨outs', houts', hrel⟩ :=
        writeItems_mapTexts (depth + 1) items houts hv
      refine ⟨_, ?_, encloses_redactsTo.enclose depth depth (by decide)
        (by decide) hrel⟩
      exact congrArg (Except.map _) houts'
  | tuple items =>
      obtain ⟨outs, houts, rfl⟩ := exists_of_map_eq_ok h
      obtain ⟨outs', houts', hrel⟩ :=
        writeItems_mapTexts (depth + 1) items houts hv
      refine ⟨_, ?_, encloses_redactsTo.enclose depth depth (by decide)
        (by decide) hrel⟩
      exact congrArg (Except.map _) houts'
  | map entries =>
      obtain ⟨outs, houts, rfl⟩ := exists_of_map_eq_ok h
      obtain ⟨outs', houts', hrel⟩ :=
        writeEntries_mapTexts (depth + 1) entries houts hv
      refine ⟨_, ?_, encloses_redactsTo.enclose depth depth (by decide)
        (by decide) hrel⟩
      exact congrArg (Except.map _) houts'
  | _ => cases h
termination_by structural v

/-- Items are redacted one by one. -/
theorem writeItems_mapTexts (depth : Nat) (items : List Value)
    {outs : List Text} (h : Json.writeItems .compact depth items = .ok outs)
    (hv : ∀ s ∈ Value.itemTexts items, BcryptComplete s) :
    ∃ outs', Json.writeItems .compact depth
        (Value.mapItemTexts replaceHashes items) = .ok outs'
      ∧ List.Forall₂ RedactsTo outs outs' := by
  cases items with
  | nil =>
      cases h
      exact ⟨[], rfl, .nil⟩
  | cons v rest =>
      obtain ⟨hitem, hitems⟩ := List.forall_mem_append.mp hv
      obtain ⟨out, hout, h⟩ := exists_of_bind_eq_ok h
      obtain ⟨more, hmore, h⟩ := exists_of_bind_eq_ok h
      obtain ⟨out', hout', hrel⟩ := writeAt_mapTexts depth v hout hitem
      obtain ⟨more', hmore', hrels⟩ :=
        writeItems_mapTexts depth rest hmore hitems
      cases h
      refine ⟨out' :: more', ?_, .cons hrel hrels⟩
      show (Json.writeAt .compact depth (v.mapTexts replaceHashes) >>=
        fun item => Json.writeItems .compact depth
          (Value.mapItemTexts replaceHashes rest) >>=
        fun items => .ok (item :: items)) = _
      rw [hout', hmore']
      rfl
termination_by structural items

/-- Entries are redacted one by one, key and value. -/
theorem writeEntries_mapTexts (depth : Nat)
    (entries : List (Value × Value)) {outs : List Text}
    (h : Json.writeEntries .compact depth entries = .ok outs)
    (hv : ∀ s ∈ Value.entryTexts entries, BcryptComplete s) :
    ∃ outs', Json.writeEntries .compact depth
        (Value.mapEntryTexts replaceHashes entries) = .ok outs'
      ∧ List.Forall₂ RedactsTo outs outs' := by
  cases entries with
  | nil =>
      cases h
      exact ⟨[], rfl, .nil⟩
  | cons e rest =>
      obtain ⟨k, v⟩ := e
      obtain ⟨hk, hv⟩ := List.forall_mem_append.mp hv
      obtain ⟨hitem, hitems⟩ := List.forall_mem_append.mp hv
      obtain ⟨key, hkey, h⟩ := exists_of_bind_eq_ok h
      obtain ⟨out, hout, h⟩ := exists_of_bind_eq_ok h
      obtain ⟨more, hmore, h⟩ := exists_of_bind_eq_ok h
      obtain ⟨key', hkey', hkeyrel⟩ := keyText_mapTexts hkey hk
      obtain ⟨out', hout', hrel⟩ := writeAt_mapTexts depth v hout hitem
      obtain ⟨more', hmore', hrels⟩ :=
        writeEntries_mapTexts depth rest hmore hitems
      have hcolon : RedactsTo [':'] [':'] :=
        redactsTo_of_dollar_notMem (by decide)
      cases h
      refine ⟨(Json.writeText false key' ++ [':'] ++ out') :: more', ?_,
        .cons ((hkeyrel.append hcolon).append hrel) hrels⟩
      show (Json.keyText .compact (k.mapTexts replaceHashes) >>=
        fun key => Json.writeAt .compact depth (v.mapTexts replaceHashes) >>=
        fun item => Json.writeEntries .compact depth
          (Value.mapEntryTexts replaceHashes rest) >>=
        fun items => .ok ((Json.writeText false key ++ [':'] ++ item)
          :: items)) = _
      rw [hkey', hout', hmore']
      rfl
termination_by structural entries

end

/-- A document that has JSON text has one after redaction, and redaction of
the one text is the other. -/
theorem replaceHashes_write {v : Value} {out : Text}
    (h : Json.write .compact v = .ok out)
    (hv : ∀ s ∈ v.texts, BcryptComplete s) :
    ∃ out', Json.write .compact (v.mapTexts replaceHashes) = .ok out'
      ∧ replaceHashes out = out' := by
  obtain ⟨out', hout', hrel⟩ := writeAt_mapTexts 0 v h hv
  exact ⟨out', hout', hrel.eq⟩

end Redaction

open Redaction

-- =================================================== the recorded body

/-- The JSON text of a map begins with its bracket. -/
theorem exists_cons_of_write_map {entries : Value.Entries} {out : Text}
    (h : Json.write .compact (.map entries) = .ok out) :
    ∃ s, out = '\x7b' :: s := by
  obtain ⟨outs, -, rfl⟩ := exists_of_map_eq_ok h
  cases outs with
  | nil => exact ⟨_, rfl⟩
  | cons _ _ => exact ⟨_, rfl⟩

theorem mappingToJson_of_write {entries : Value.Entries} {out : Text}
    (h : Json.write .compact (.map entries) = .ok out) :
    Content.mappingToJson (.map entries) = .ok out := by
  have hdump : (Value.map entries).toEntries.bind
      (fun entries => Content.dump (.map entries)) = .ok out := by
    show Content.dump (.map entries) = _
    unfold Content.dump
    rw [h]
  unfold Content.mappingToJson
  rw [hdump]

/-- A mapping that has JSON text is recorded as that text, redacted. -/
theorem outcome_securityMapping {h : Host} {node document : Value}
    {entries : Value.Entries} {out : Text}
    (hdocument : document.text? = some usersDocument)
    (hentries : entries ≠ [])
    (hout : Json.write .compact (.map entries) = .ok out)
    (hpresent : replaceHashes out ≠ []) :
    (Call.securityMapping (.map entries) document).outcome h node
      = .of (.ok [(.requestBody, .text (replaceHashes out))]) := by
  have hne : out ≠ [] := by
    rintro rfl
    exact hpresent replaceHashes_nil
  have hbody : Call.writeSecurityBody (.ok out) document
      = .ok [(.requestBody, .text (replaceHashes out))] := by
    rw [Call.writeSecurityBody_ok hne, hdocument]
    rfl
  rw [Call.outcome, Call.ifPresent_of_truthy (Value.truthy_map hentries),
    mappingToJson_of_write hout, hbody]

/-- Redaction of the users document given as a mapping is redaction of its
keys and texts: the recorded body is the JSON text of the mapping with each
of them redacted by itself. -/
theorem body_of_securityMapping (h : Host) (r : Record) (document : Value)
    (entries : Value.Entries) (text : Text)
    (hdocument : document.text? = some usersDocument)
    (hentries : entries ≠ [])
    (htext : Json.write .compact (.map entries) = .ok text)
    (hcomplete : ∀ s ∈ (Value.map entries).texts, BcryptComplete s) :
    ∃ out, Json.write .compact ((Value.map entries).mapTexts
          (redactContent (some usersDocument))) = .ok out
      ∧ (r.apply h (.securityMapping (.map entries) document)).get?
          .requestBody = some (.text out) := by
  obtain ⟨out, hout, hredacted⟩ := replaceHashes_write htext hcomplete
  refine ⟨out, hout, ?_⟩
  obtain ⟨s, rfl⟩ := exists_cons_of_write_map hout
  show (r.putAll (Call.outcome h r.node _).writes).get? _ = _
  rw [outcome_securityMapping hdocument hentries htext
    (hredacted ▸ List.cons_ne_nil _ _), hredacted]
  show (r.put (.requestBody, _)).get? .requestBody = _
  rw [Record.get?_put, if_pos rfl]

/-- Two users; the name of one needs escapes and the other's holds a hash. -/
def twoUsers : Value.Entries :=
  [(.text ['a', '\x22', '\n'], .map [(.text "hash".toList,
      .text ("$2y$12$".toList ++ List.replicate 53 'x'))]),
    (.text "$1$2$ab$cd".toList, .list [.text "$2".toList, .int 3, .null])]

theorem body_of_securityMapping_twoUsers :
    (Record.apply Record.bareHost ⟨[]⟩
        (.securityMapping (.map twoUsers) (.text usersDocument))).get?
        .requestBody
      = some (.text ("\x7b\x22a\\\x22\\n\x22:\x7b\x22hash\x22:\x22__HASH__".toList
        ++ "\x22\x7d,\x22__HASH__\x22:[\x22$2\x22,3,null]\x7d".toList)) := by
  obtain ⟨text, htext⟩ := Option.isSome_iff_exists.mp
    (show (Json.write .compact (.map twoUsers)).toOption.isSome = true by
      decide +kernel)
  obtain ⟨out, hout, hbody⟩ := body_of_securityMapping
    Record.bareHost ⟨[]⟩ (.text usersDocument) twoUsers text
    rfl (List.cons_ne_nil _ _) (eq_ok_of_toOption htext) (by decide +kernel)
  have hresult : (Json.write .compact ((Value.map twoUsers).mapTexts
        (redactContent (some usersDocument)))).toOption
      = some ("\x7b\x22a\\\x22\\n\x22:\x7b\x22hash\x22:\x22__HASH__".toList
        ++ "\x22\x7d,\x22__HASH__\x22:[\x22$2\x22,3,null]\x7d".toList) := by
    decide +kernel
  rw [hout] at hresult
  rw [hbody, Option.some.inj hresult]

end AuditTrail
