/-
Records as JSON and back.

Operations with arguments of the declared types (`Call.WellTyped`) write
only what JSON text can carry (`readable_of_writes`): redaction drops
entries and replaces texts by texts, so maps with distinct text keys stay
such maps (`TextKeyed`). The keys of the record differ as well, so both
layouts of a record are read back as its fields, and the indented one is
restated as the compact one.
-/
import AuditTrail.Proofs.Json.ReadBack
import AuditTrail.Proofs.Record.NormalForm
import AuditTrail.Proofs.Redaction.Header
import AuditTrail.Proofs.Vocabulary
import AuditTrail.Record.Projection

namespace AuditTrail

open Json (Readable)

-- ====================================================== typed arguments

namespace Value

/-- An integer that has few enough digits to be written, if it is one. -/
def IsShort (v : Value) : Prop :=
  ∀ n, v = .int n → n.natAbs < Nat.pow 10 Numeral.digitLimit

end Value

/-- The arguments of an operation are of the declared types, as far as that
matters for what is written: integers are not too long, indices are texts,
headers are texts or lists of texts and parameters are texts, under keys
that are texts. -/
def Call.WellTyped : Call → Prop
  | .docVersion v => v.IsShort
  | .shard (.shard s) => s.id.IsShort
  | .indices v
  | .resolvedIndices v => ∀ vs, v.items = .ok vs → ∀ w ∈ vs, w.IsText
  | .transportHeaders v _ => v.IsMapOf Value.IsText
  | .params v _ => v.IsMapOf Value.IsText
  | .headers v _ _ => v.IsMapOf Value.IsHeader
  | .request (.request r) _ =>
      r.headers.IsMapOf Value.IsHeader ∧ r.params.IsMapOf Value.IsText
  | _ => True

-- ============================================================ text keys

namespace Value

variable {p q : Value → Prop} {entries kept : Entries} {v w : Value}

theorem readable_of_isText {n : Nat} (hv : v.IsText) : Readable n v := by
  cases v with
  | text s => exact .text
  | term t => exact .term
  | _ => cases hv

theorem readable_of_text {n : Nat} (hv : FieldKind.text.accepts v = true) :
    Readable n v := by
  cases v with
  | text s => exact .text
  | term t => exact .term
  | _ => cases hv

/-- Entries with the same keys are under text keys too. -/
theorem TextKeyed.of_keys (h : TextKeyed p entries)
    (hkeys : kept.map (·.1) = entries.map (·.1))
    (hvalues : ∀ e ∈ kept, q e.2) : TextKeyed q kept where
  keys e he := by
    have hmem : e.1 ∈ entries.map (·.1) := hkeys ▸ List.mem_map_of_mem he
    obtain ⟨d, hd, hde⟩ := List.mem_map.mp hmem
    exact hde ▸ h.keys d hd
  distinct := by
    have htexts := congrArg (List.map text?) hkeys
    rw [List.map_map, List.map_map] at htexts
    exact htexts ▸ h.distinct
  values := hvalues

theorem TextKeyed.sublist (h : TextKeyed p entries)
    (hkept : kept.Sublist entries) : TextKeyed p kept where
  keys e he := h.keys e (hkept.subset he)
  distinct := h.distinct.sublist (hkept.map _)
  values e he := h.values e (hkept.subset he)

theorem TextKeyed.mono (h : TextKeyed p entries) (hpq : ∀ v, p v → q v) :
    TextKeyed q entries :=
  h.of_keys rfl fun e he => hpq _ (h.values e he)

/-- A map with text keys is as readable as its values. -/
theorem TextKeyed.readable {n : Nat} (h : TextKeyed (Readable n) entries) :
    Readable (n + 1) (.map entries) := by
  have hnames : entries.map (·.1.text?)
      = (entries.map fun e => e.1.text?.getD []).map some := by
    rw [List.map_map]
    refine List.map_congr_left fun e he => ?_
    obtain ⟨s, hs⟩ := Option.isSome_iff_exists.mp (h.keys e he)
    rw [Function.comp_apply, hs]
    rfl
  exact .map _ hnames (.of_map _ (hnames ▸ h.distinct)) h.values

/-- Entries keep their keys when what stands under one of them is
replaced. -/
theorem put_of_lookupText {key : Text} (h : lookupText entries key = some w) :
    (put false entries (.text key) v).map (·.1) = entries.map (·.1)
      ∧ ∀ e ∈ put false entries (.text key) v, e.2 = v ∨ e ∈ entries := by
  induction entries with
  | nil => cases h
  | cons e rest ih =>
      rw [lookupText, lookup, List.find?_cons] at h
      rw [put]
      cases hsame : same false e.1 (.text key) with
      | true =>
          refine ⟨rfl, List.forall_mem_cons.mpr ⟨.inl rfl, fun d hd => ?_⟩⟩
          exact .inr (List.mem_cons_of_mem _ hd)
      | false =>
          rw [hsame] at h
          obtain ⟨hkeys, hvalues⟩ := ih h
          refine ⟨congrArg (e.1 :: ·) hkeys, ?_⟩
          refine List.forall_mem_cons.mpr ⟨.inr List.mem_cons_self, ?_⟩
          exact fun d hd => (hvalues d hd).imp_right (List.mem_cons_of_mem _)

end Value

theorem readable_fingerprint {n : Nat} (f : Fingerprint) :
    Readable (n + 1) f.toValue := by
  refine .map ["key".toList, "path".toList, "sha256".toList,
    "last_modified".toList] rfl (by decide +kernel) ?_
  simp only [List.forall_mem_cons]
  exact ⟨.text, .text, .text, .text, fun e he => absurd he List.not_mem_nil⟩

-- ========================================================== redaction

namespace Redaction

open Value (TextKeyed IsText IsHeader IsMapOf)

variable {entries kept : Value.Entries} {v : Value}

theorem sublist_of_rejectNames {test : Value → Except Fault Bool}
    {b : Text → Bool} (htest : Decides test b)
    (h : rejectNames test entries = .ok kept) : kept.Sublist entries := by
  rw [rejectNames_eq_ok htest h]
  exact List.filter_sublist

/-- A header has a list of texts for its value, whatever it was given as. -/
theorem exists_listedValue (hv : IsHeader v) :
    ∃ vs, listedValue v = .list vs ∧ ∀ w ∈ vs, w.IsText := by
  cases hv with
  | one hv =>
      obtain ⟨s, hs⟩ := Option.isSome_iff_exists.mp hv
      rw [listedValue, hs]
      exact ⟨[v], rfl, List.forall_mem_singleton.mpr hv⟩
  | several hvs => exact ⟨_, rfl, hvs⟩

theorem isText_ite {b : Prop} [Decidable b] {s : Text} (hv : v.IsText) :
    IsText (if b then .text s else v) := by
  split
  · exact rfl
  · exact hv

theorem textKeyed_of_restHeaders {n : Nat} {exclude : Bool}
    {g : Option Filter} (hv : v.IsMapOf IsHeader)
    (h : restHeaders v exclude g = .ok kept) :
    TextKeyed (Readable (n + 1)) kept := by
  rcases hv with rfl | ⟨entries, rfl, hentries⟩
  · cases h
  obtain ⟨_, hsame, h⟩ := exists_of_bind_eq_ok h
  cases hsame
  obtain ⟨listed, hlisted, h⟩ := exists_of_bind_eq_ok h
  obtain rfl := eq_listedHeaders_of_listValues hlisted
  have htyped : TextKeyed (Readable (n + 1)) (listedHeaders entries) := by
    refine hentries.of_keys List.map_map fun e he => ?_
    obtain ⟨d, hd, rfl⟩ := List.mem_map.mp he
    obtain ⟨vs, hvs, htexts⟩ := exists_listedValue (hentries.values d hd)
    show Readable (n + 1) (listedValue d.2)
    rw [hvs]
    exact .list fun w hw => Value.readable_of_isText (htexts w hw)
  -- what may be seen of the headers, before the filter
  obtain ⟨visible, hvisible, h⟩ : ∃ visible,
      TextKeyed (Readable (n + 1)) visible
        ∧ (g.elim (.ok visible) fun f => rejectNames (dropsHeader f) visible)
          = .ok kept := by
    cases exclude with
    | false => exact ⟨_, htyped, by cases g <;> exact h⟩
    | true =>
        obtain ⟨visible, hvisible, h⟩ := exists_of_bind_eq_ok h
        refine ⟨visible, htyped.sublist ?_, by cases g <;> exact h⟩
        exact sublist_of_rejectNames decides_namesAuthorization hvisible
  cases g with
  | none =>
      cases h
      exact hvisible
  | some f =>
      exact hvisible.sublist (sublist_of_rejectNames (decides_dropsHeader f) h)

theorem textKeyed_of_transportHeaders {exclude : Bool}
    (hv : v.IsMapOf IsText) (h : transportHeaders v exclude = .ok kept) :
    TextKeyed IsText kept := by
  rcases hv with rfl | ⟨entries, rfl, hentries⟩
  · cases exclude <;> cases h
  unfold transportHeaders at h
  split at h
  · refine hentries.sublist ?_
    exact sublist_of_rejectNames decides_namesAuthorization h
  · cases h
    exact hentries

theorem textKeyed_of_urlParams {g : Option Filter} (hv : v.IsMapOf IsText)
    (h : urlParams v g = .ok kept) : TextKeyed IsText kept := by
  rcases hv with rfl | ⟨entries, rfl, hentries⟩
  · cases h
  cases g with
  | none =>
      cases h
      exact hentries
  | some f =>
      obtain ⟨_, hmap, rfl⟩ := urlParams_eq_ok h
      cases hmap
      refine hentries.of_keys List.map_map fun e he => ?_
      obtain ⟨d, hd, rfl⟩ := List.mem_map.mp he
      exact isText_ite (hentries.values d hd)

/-- A text is recorded as itself or as another text. -/
theorem isText_of_bodyValue {path body : Value} (hbody : body.IsText)
    (h : bodyValue path body = .ok v) : v.IsText := by
  rw [bodyValue_eq_ok h]
  exact isText_ite hbody

end Redaction

namespace Call

open Value (TextKeyed IsText IsHeader IsMapOf)

theorem textKeyed_of_redactedParams {r : Request} {entries : Value.Entries}
    (hr : r.params.IsMapOf IsText) (h : redactedParams r = .ok entries) :
    TextKeyed IsText entries := by
  unfold redactedParams at h
  obtain ⟨given, hgiven, h⟩ := exists_of_bind_eq_ok h
  have hentries : TextKeyed IsText given := by
    rcases hr with hnull | ⟨entries, hmap, hentries⟩
    · rw [hnull] at hgiven
      cases hgiven
    · rw [hmap] at hgiven
      cases hgiven
      exact hentries
  split at h
  case h_1 =>
    cases h
    exact hentries
  case h_2 source hsource =>
    obtain ⟨present, -, h⟩ := exists_of_bind_eq_ok h
    cases present with
    | false =>
        cases h
        exact hentries
    | true =>
        obtain ⟨shown, hshown, h⟩ := exists_of_bind_eq_ok h
        cases h
        have hsourceText : source.IsText := by
          obtain ⟨e, he, rfl⟩ := Option.map_eq_some_iff.mp hsource
          exact hentries.values e (List.mem_of_find?_eq_some he)
        have hshownText := Redaction.isText_of_bodyValue hsourceText hshown
        obtain ⟨hkeys, hvalues⟩ := Value.put_of_lookupText hsource
        refine hentries.of_keys hkeys fun e he => ?_
        rcases hvalues e he with heq | he
        · exact heq ▸ hshownText
        · exact hentries.values e he

variable {c : Call} {v : Value}

namespace WellTyped

theorem number {n : Int} (hc : c.WellTyped)
    (hn : c.number? = some (.int n)) :
    n.natAbs < Nat.pow 10 Numeral.digitLimit := by
  cases c with
  | docVersion v => exact hc n (Option.some.inj hn)
  | shard a =>
      cases a with
      | shard s => exact hc n (Option.some.inj hn)
      | _ => cases hn
  | _ => cases hn

theorem items {vs : List Value} (hc : c.WellTyped)
    (hv : c.sequence? = some v) (hvs : v.items = .ok vs) :
    ∀ w ∈ vs, w.IsText := by
  cases c with
  | indices v'
  | resolvedIndices v' =>
      cases hv
      exact hc vs hvs
  | _ => cases hv

theorem headers (hc : c.WellTyped) (hv : c.headers? = some v) :
    v.IsMapOf IsHeader := by
  cases c with
  | headers v' exclude filter =>
      cases hv
      exact hc
  | request a filter =>
      cases a with
      | request r =>
          cases hv
          exact hc.1
      | _ => cases hv
  | _ => cases hv

theorem params (hc : c.WellTyped) (hv : c.params? = some v) :
    v.IsMapOf IsText := by
  cases c with
  | params v' filter =>
      cases hv
      exact hc
  | request a filter =>
      cases a with
      | request r =>
          obtain ⟨entries, hentries, rfl⟩ := Option.map_eq_some_iff.mp hv
          refine .inr ⟨entries, rfl, ?_⟩
          exact textKeyed_of_redactedParams hc.2 (eq_ok_of_toOption hentries)
      | _ => cases hv
  | _ => cases hv

end WellTyped

/-- All that such an operation may write can be read back. -/
theorem readable_of_writes {node : Value} {w : Write} {n : Nat}
    (hc : c.WellTyped) (hw : c.Writes node w) : Readable (n + 2) w.2 := by
  cases hw with
  | text _ _ _ hv => exact Value.readable_of_text hv
  | task => exact .text
  | flag => exact .bool
  | number _ _ hn => exact .int (hc.number hn)
  | member => exact .term
  | files =>
      refine .list fun v hv => ?_
      obtain ⟨f, -, rfl⟩ := List.mem_map.mp hv
      exact readable_fingerprint f
  | items _ _ hv _ hvs =>
      exact .list fun w hw => Value.readable_of_isText (hc.items hv hvs w hw)
  | transportHeaders hcall hkept =>
      subst hcall
      have htyped := Redaction.textKeyed_of_transportHeaders hc hkept
      exact (htyped.mono fun _ => Value.readable_of_isText).readable
  | headers _ hv hkept =>
      exact (Redaction.textKeyed_of_restHeaders (hc.headers hv) hkept).readable
  | params _ hv hkept =>
      have htyped := Redaction.textKeyed_of_urlParams (hc.params hv) hkept
      exact (htyped.mono fun _ => Value.readable_of_isText).readable

end Call

-- ================================================================ records

namespace Record

variable {category origin layer : Value} {cluster : Option Cluster}
  {clock : DateTime} {h : Host} {r : Record} {cs : List Call} {n : Nat}

/-- What a new record holds can be read back. -/
theorem readable_initial :
    EveryWrite (fun w => Readable n w.2)
      (initial category cluster origin layer clock) := by
  refine everyWrite_initial (fun i hi => ?_) fun _ _ _ => .term
  have hversion : ∀ k, 0 < k →
      AuditTrail.formatVersion.natAbs < Nat.pow 10 k := fun k hk =>
    Nat.lt_of_lt_of_le (by decide : 4 < 10 ^ 1)
      (Nat.pow_le_pow_right (by decide) hk)
  have haccepted := hi.accepted
  simp only [Identity.writes, List.forall_mem_cons] at haccepted ⊢
  obtain ⟨-, -, -, haddress, hid, hhost, hnode, hcluster, -⟩ := haccepted
  exact ⟨.int (hversion _ (by decide)), .term, .text,
    Value.readable_of_text haddress, Value.readable_of_text hid,
    Value.readable_of_text hhost, Value.readable_of_text hnode,
    Value.readable_of_text hcluster, fun w hw => absurd hw List.not_mem_nil⟩

/-- So can all that it holds after operations with typed arguments. -/
theorem readable_run
    (hr : start category cluster origin layer clock = .ok r)
    (hcs : ∀ c ∈ cs, c.WellTyped) :
    ∀ e ∈ (r.run h cs).fields, Readable (n + 2) e.2 := by
  obtain ⟨first, hfirst, rfl⟩ := exists_of_start hr
  refine run_preserves (q := fun r => ∀ e ∈ r.fields, Readable (n + 2) e.2)
    (fun c hc r hr e he => ?_) fun e he => ?_
  · rcases mem_of_mem_putAll he with he | he
    · exact Call.readable_of_writes (hcs c hc)
        (Call.outcome_writes h r.node c e he)
    · exact hr e he
  · exact readable_initial first hfirst e
      ((mem_of_mem_putAll he).resolve_right List.not_mem_nil)

/-- A record with such values is a map that can be read back. -/
theorem readable_toMap (hnodup : (r.fields.map (·.1)).Nodup)
    (hvalues : ∀ e ∈ r.fields, Readable n e.2) :
    Readable (n + 1) (Projection.toMap r.wireFields) := by
  have hnames : (r.fields.map (·.1.wire)).Nodup := by
    have hmap := hnodup.map Field.wire_injective
    rwa [List.map_map] at hmap
  refine .map _ ?_ hnames fun e he => ?_
  · simp [wireFields, Value.text?]
  · obtain ⟨w, hw, rfl⟩ := List.mem_map.mp he
    obtain ⟨f, hf, rfl⟩ := List.mem_map.mp hw
    exact hvalues f hf

/-- A record as it looks in writing: its fields in order, under their keys,
with the texts that stand for members of the vocabulary. -/
def asWritten (r : Record) : Value :=
  .map (r.fields.map fun e => (.text e.1.wire, e.2.mapTexts id))

theorem mapTexts_toMap (r : Record) :
    (Projection.toMap r.wireFields).mapTexts id = r.asWritten := by
  rw [Projection.toMap, Value.mapTexts, Value.mapEntryTexts_eq, wireFields,
    List.map_map, List.map_map]
  rfl

/-- A record made by operations with typed arguments can be written in both
layouts; either is read back as the record, field by field in the same
order; and the indented one, converted as JSON content, is the compact
one. -/
theorem json_roundTrip
    (hr : start category cluster origin layer clock = .ok r) (h : Host)
    (cs : List Call) (hcs : ∀ c ∈ cs, c.WellTyped) :
    ∃ compact pretty,
      Projection.compactJson (r.run h cs).wireFields = .ok compact
      ∧ Projection.prettyJson (r.run h cs).wireFields = .ok pretty
      ∧ Json.read compact = .ok (r.run h cs).asWritten
      ∧ Json.read pretty = .ok (r.run h cs).asWritten
      ∧ Content.toJson (.text pretty) (.text "application/json".toList)
        = .ok compact := by
  obtain ⟨first, hfirst, hstart⟩ := exists_of_start hr
  have hnodup : ((r.run h cs).fields.map (·.1)).Nodup := by
    rw [hstart]
    exact nodup_run (nodup_putAll (r := ⟨[]⟩) List.nodup_nil)
  -- the record and two levels more: far from where the reader gives up
  have hreadable : Readable Json.depthLimit
      (Projection.toMap (r.run h cs).wireFields) :=
    readable_toMap (n := 989) hnodup (readable_run hr hcs)
  obtain ⟨compact, hcompact, hreadCompact, -⟩ :=
    Json.read_write .compact hreadable rfl
  obtain ⟨pretty, hpretty, hreadPretty, -⟩ :=
    Json.read_write .pretty hreadable rfl
  rw [mapTexts_toMap] at hreadCompact hreadPretty
  have hbase : Content.baseOfValue (.text "application/json".toList)
      = .ok "application/json".toList := eq_ok_of_toOption (by decide +kernel)
  refine ⟨compact, pretty, ?_, ?_, hreadCompact, hreadPretty, ?_⟩
  · rw [Projection.compactJson, Projection.json, hcompact]
  · rw [Projection.prettyJson, Projection.json, hpretty]
  · exact Json.toJson_write hbase (by decide +kernel) hreadable rfl hpretty
      hcompact

/-- A header with one value, given as a text. -/
def acceptHeader : Call :=
  .headers (.map [(.text "Accept".toList, .text "text/html".toList)])
    (.bool false) .absent

/-- It comes back as a list of one. -/
theorem json_roundTrip_acceptHeader :
    ∃ r pretty entries, login = .ok r
      ∧ Projection.prettyJson (r.run bareHost [acceptHeader]).wireFields
        = .ok pretty
      ∧ Json.read pretty = .ok (.map entries)
      ∧ entries.drop 8 = [(.text "audit_rest_request_headers".toList,
        .map [(.text "Accept".toList, .list [.text "text/html".toList])])] := by
  have hr : login = .ok _ := rfl
  have htyped : acceptHeader.WellTyped := by
    refine .inr ⟨_, rfl, ⟨?_, List.nodup_singleton _, ?_⟩⟩
    · exact List.forall_mem_singleton.mpr rfl
    · exact List.forall_mem_singleton.mpr (.one rfl)
  obtain ⟨compact, pretty, -, hpretty, -, hread, -⟩ :=
    json_roundTrip hr bareHost [acceptHeader]
      (List.forall_mem_singleton.mpr htyped)
  exact ⟨_, pretty, _, hr, hpretty, hread, rfl⟩

end Record

end AuditTrail
