/-
Adding a whole request whose parts have the types that their class
declares.

Nothing about such a request can be refused (`exists_requestHead`,
`hasBody_of_wellTyped`), so its body is all that may go wrong, and that is
contained: the path, the headers, the parameters and the method are written
before the body is looked at, and they come out the same with bodies left
out of the record, since a filter has a say in the headers and parameters
only (`RequestHead.writes`). What becomes of the body is one of the three
endings of its conversion, a failure with a line in the log besides.
-/
import AuditTrail.Proofs.Record.Bodies
import AuditTrail.Proofs.Record.RoundTrip
import AuditTrail.Proofs.Record.TypedRequest

namespace AuditTrail

open Redaction
open Value (TextKeyed IsText IsOptionalText IsHeader)

-- ============================================================ requests

/-- The parts of a request are of the types that its class declares. -/
structure Request.WellTyped (r : Request) : Prop where
  path : r.path.IsOptionalText
  method : r.method = .null ∨ ∃ m, r.method = .term (.method m)
  headers : ∃ entries, r.headers = .map entries ∧ TextKeyed IsHeader entries
  params : ∃ entries, r.params = .map entries ∧ TextKeyed IsText entries
  content : r.content.IsOptionalText ∨ ∃ octets, r.content = .bytes octets
  mediaType : r.mediaType.IsText

/-- There is something to record as the body of a request: content, or a
parameter in its place that is not empty. -/
def Request.CarriesBody (r : Request) : Prop :=
  r.content.truthy = true
    ∨ ∃ entries source, r.params = .map entries
      ∧ Value.lookupText entries sourceParam = some source
      ∧ source.truthy = true

/-- The body of a request on its way into a record. -/
def Request.conversion (r : Request) : Conversion where
  result := do
    let (mediaType, raw) ← r.body
    Content.toJson (.bytes raw) mediaType
  shown := redactBody r.path.text?
  marker := fun _ => Call.bodyMarker

/-- What is reported of a conversion that ends so. -/
def BodyEnding.logs : BodyEnding → List LogEntry
  | recorded _ _
  | empty => []
  | marked e =>
      [⟨.error, .audit,
        "Error while generating request body for audit log: ".toList
          ++ e.message⟩]

/-- The same filter, but bodies are left out of the record. -/
def Filter.withoutBody (f : Filter) : Filter :=
  { f with logRequestBody := false }

/-- A body of a request is recorded under a filter. -/
structure Filter.RecordsBody (f : Filter) (r : Request) : Prop where
  logged : f.logRequestBody = true
  rest : r.isRest = true
  carried : r.CarriesBody

/-- A request handed over as a whole. -/
def Call.adding (r : Request) (f : Filter) : Call :=
  .request (.request r) (.given f)

/-- Adding a request contains what may go wrong with its body: there is no
fault; whatever is recorded besides the body is recorded the same with
bodies left out; and the body is recorded only where the filter has it so,
as one of the three endings of its conversion says, with nothing in the log
unless the conversion failed. -/
structure ContainsBody (h : Host) (r : Record) (q : Request) (f : Filter) :
    Prop where
  fault : ((Call.adding q f).outcome h r.node).fault = none
  others : ∀ field ≠ Field.requestBody,
    (r.apply h (.adding q f)).get? field
      = (r.apply h (.adding q f.withoutBody)).get? field
  leftOut : (r.apply h (.adding q f.withoutBody)).get? .requestBody
    = r.get? .requestBody
  absent : ¬ f.RecordsBody q →
    r.apply h (.adding q f) = r.apply h (.adding q f.withoutBody)
      ∧ ((Call.adding q f).outcome h r.node).logs = []
  ending : f.RecordsBody q →
    ∃! e : BodyEnding, e.result = q.conversion.result
      ∧ r.apply h (.adding q f)
        = (r.apply h (.adding q f.withoutBody)).putAll (e.writes q.conversion)
      ∧ ((Call.adding q f).outcome h r.node).logs = e.logs

-- ================================================================ heads

/-- The write of some entries, unless there were none to begin with. -/
def mapWrites (field : Field) (given shown : Value.Entries) : List Write :=
  if given.isEmpty then [] else [(field, .map shown)]

theorem eq_of_mem_mapWrites {field : Field} {given shown : Value.Entries}
    {w : Write} (hw : w ∈ mapWrites field given shown) : w.1 = field := by
  unfold mapWrites at hw
  split at hw
  case isTrue => cases hw
  case isFalse =>
    obtain rfl := List.mem_singleton.mp hw
    rfl

/-- The parts of a request that are recorded besides its body: the writes of
its path and its method, and the entries that a filter looks at. -/
structure RequestHead where
  path : List Write
  headers : Value.Entries
  params : Value.Entries
  method : List Write

/-- What is written of a head under a filter. -/
def RequestHead.writes (p : RequestHead) (f : Filter) : List Write :=
  p.path ++ (mapWrites .restRequestHeaders p.headers (f.shownHeaders p.headers)
    ++ (mapWrites .restRequestParams p.params (f.shownParams p.params)
      ++ p.method))

/-- The head of a request: it is what every filter has written of it. -/
structure RequestHead.IsOf (p : RequestHead) (q : Request) : Prop where
  path : ∀ w ∈ p.path, w.1 = .restRequestPath
  method : ∀ w ∈ p.method, w.1 = .restRequestMethod
  headers : q.headers.truthy = !p.headers.isEmpty
  params : q.params.truthy = !p.params.isEmpty
  written : ∀ f : Filter,
    Call.writeRequestHead q f = .of (.ok (p.writes f))

namespace Call

variable {q : Request} {f : Filter}

/-- A request whose parts have the declared types gives parameters. -/
theorem redactedParams_ok (hq : q.WellTyped) :
    ∃ entries, redactedParams q = .ok entries ∧ TextKeyed IsText entries := by
  obtain ⟨entries, hparams, htexts⟩ := hq.params
  obtain ⟨shown, hshown⟩ : ∃ shown, redactedParams q = .ok shown := by
    have hentries : q.params.toEntries = .ok entries := by
      rw [hparams]
      rfl
    simp only [redactedParams, hentries, bind, Except.bind]
    split
    case h_1 => exact ⟨_, rfl⟩
    case h_2 source hsource =>
      obtain ⟨e, he, rfl⟩ := Option.map_eq_some_iff.mp hsource
      have htext := htexts.values e (List.mem_of_find?_eq_some he)
      obtain ⟨s, hs⟩ := Option.isSome_iff_exists.mp htext
      rw [htext.truth_eq]
      cases e.2.truthy with
      | false => exact ⟨_, rfl⟩
      | true =>
          rw [bodyValue_of_text? hq.path hs]
          exact ⟨_, rfl⟩
  have hmap : q.params.IsMapOf IsText := .inr ⟨entries, hparams, htexts⟩
  exact ⟨shown, hshown, textKeyed_of_redactedParams hmap hshown⟩

/-- A parameter that is redacted was there before. -/
theorem isEmpty_of_redactedParams {given entries : Value.Entries}
    (hgiven : q.params = .map given) (h : redactedParams q = .ok entries) :
    entries.isEmpty = given.isEmpty := by
  unfold redactedParams at h
  rw [hgiven] at h
  cases given with
  | nil =>
      cases h
      rfl
  | cons e rest =>
      obtain ⟨given, hcons, h⟩ := exists_of_bind_eq_ok h
      cases hcons
      split at h
      case h_1 =>
        cases h
        rfl
      case h_2 =>
        obtain ⟨present, -, h⟩ := exists_of_bind_eq_ok h
        cases present with
        | false =>
            cases h
            rfl
        | true =>
            obtain ⟨shown, -, h⟩ := exists_of_bind_eq_ok h
            cases h
            rw [Value.put]
            split
            · rfl
            · rfl

theorem writePresent_path_ok {path : Value} (h : path.IsOptionalText) :
    ∃ ws, writePresent .restRequestPath path = .ok ws := by
  rcases h with rfl | hpath
  · exact ⟨[], rfl⟩
  · cases path with
    | text s =>
        cases s with
        | nil => exact ⟨[], rfl⟩
        | cons c s => exact ⟨_, rfl⟩
    | term t => exact ⟨_, rfl⟩
    | _ => cases hpath

theorem writeHeaders_map {entries : Value.Entries}
    (h : TextKeyed IsHeader entries) :
    writeHeaders (.map entries) f.excludeSensitiveHeaders (.given f)
      = .ok (mapWrites .restRequestHeaders entries
          (f.shownHeaders entries)) := by
  unfold writeHeaders mapWrites
  cases entries with
  | nil => rfl
  | cons e rest =>
      show (restHeaders _ _ _ >>= fun kept => _) = _
      rw [restHeaders_of_isHeader h.keys h.values]
      rfl

theorem writeParams_map {entries : Value.Entries}
    (h : TextKeyed IsText entries) :
    writeParams (.map entries) (.given f)
      = .ok (mapWrites .restRequestParams entries
          (f.shownParams entries)) := by
  unfold writeParams mapWrites
  cases entries with
  | nil => rfl
  | cons e rest =>
      show (urlParams _ _ >>= fun kept => _) = _
      rw [urlParams_of_isText h.keys]
      rfl

theorem writeMethod_ok {method : Value}
    (h : method = .null ∨ ∃ m, method = .term (.method m)) :
    ∃ ws, writeMethod method = .ok ws := by
  rcases h with rfl | ⟨m, rfl⟩
  · exact ⟨_, rfl⟩
  · unfold writeMethod
    dsimp only
    rw [TypedRequest.methodOf_method]
    exact ⟨_, rfl⟩

/-- With the declared types nothing but the body can fail: such a request
has a head. -/
theorem exists_requestHead (hq : q.WellTyped) :
    ∃ p : RequestHead, p.IsOf q := by
  obtain ⟨headers, hheaders, hkeyed⟩ := hq.headers
  obtain ⟨given, hgiven, -⟩ := hq.params
  obtain ⟨params, hparams, htexts⟩ := redactedParams_ok hq
  obtain ⟨path, hpath⟩ := writePresent_path_ok hq.path
  obtain ⟨method, hmethod⟩ := writeMethod_ok hq.method
  refine ⟨⟨path, headers, params, method⟩,
    { path := ?_, method := ?_, headers := ?_, params := ?_,
      written := fun f => ?_ }⟩
  · exact everyWrite_writePresent (p := (·.1 = .restRequestPath))
      (fun _ _ => rfl) path hpath
  · exact everyWrite_writeMethod (p := (·.1 = .restRequestMethod))
      (fun _ => rfl) method hmethod
  · rw [hheaders]
    rfl
  · rw [hgiven, isEmpty_of_redactedParams hgiven hparams]
    rfl
  · unfold writeRequestHead
    rw [hparams]
    dsimp only
    rw [hpath, hheaders, writeHeaders_map hkeyed, writeParams_map htexts,
      hmethod]
    rfl

-- =============================================================== bodies

/-- Whether there is content can be told. -/
theorem truth_content_of_wellTyped (hq : q.WellTyped) :
    q.content.truth = .ok q.content.truthy := by
  rcases hq.content with hcontent | ⟨octets, hcontent⟩
  · exact hcontent.truth_eq
  · rw [hcontent]
    rfl

/-- A parameter is a text if there is one. -/
theorem param_of_wellTyped (hq : q.WellTyped) (name : Text) :
    ∃ v, q.param name = .ok v ∧ v.IsOptionalText := by
  obtain ⟨entries, hparams, htexts⟩ := hq.params
  unfold Request.param
  rw [hparams]
  refine ⟨_, rfl, ?_⟩
  cases hfound : Value.lookupText entries name with
  | none => exact .inl rfl
  | some v =>
      obtain ⟨e, he, rfl⟩ := Option.map_eq_some_iff.mp hfound
      exact .inr (htexts.values e (List.mem_of_find?_eq_some he))

/-- Whether a request with the declared types has a body can be told. -/
theorem hasBody_of_wellTyped (hq : q.WellTyped) :
    ∃ b, q.hasBody = .ok b ∧ (b = true ↔ q.CarriesBody) := by
  obtain ⟨entries, hparams, htexts⟩ := hq.params
  unfold Request.hasBody Request.CarriesBody Request.param
  rw [hparams, truth_content_of_wellTyped hq]
  cases hpresent : q.content.truthy with
  | true => exact ⟨true, rfl, by simp⟩
  | false =>
      cases hsource : Value.lookupText entries Request.sourceParam with
      | none =>
          refine ⟨false, ?_, by simp [hsource]⟩
          simp [bind, Except.bind, hsource, Value.truth, Value.truthy,
            Value.absenceRefused?]
      | some source =>
          obtain ⟨e, he, rfl⟩ := Option.map_eq_some_iff.mp hsource
          have htext := htexts.values e (List.mem_of_find?_eq_some he)
          refine ⟨e.2.truthy, ?_, by simp [hsource]⟩
          simp [bind, Except.bind, hsource, htext.truth_eq]

/-- Content that is there is the body. -/
theorem body_of_content (hcontent : q.content.truthy = true) :
    q.body = match q.content.text? with
      | some s => .ok (q.mediaType, Utf8.encode s)
      | none => (Content.octets q.content).map fun raw => (q.mediaType, raw) := by
  unfold Request.body
  rw [Value.truth_eq_true_iff.mpr hcontent]
  show (match q.content.text? with | some s => _ | none => _) = _
  cases q.content.text? with
  | some s => rfl
  | none => cases Content.octets q.content <;> rfl

/-- The body of a request with the declared types comes with a text that is
its media type; where there is none, no object refused to give it. -/
theorem body_of_wellTyped (hq : q.WellTyped) :
    (∃ mediaType raw, q.body = .ok (mediaType, raw) ∧ mediaType.IsText)
      ∨ ∃ e, q.body = .error e ∧ e.IsOwn := by
  cases hcontent : q.content.truthy with
  | true =>
      rw [body_of_content hcontent]
      rcases hq.content with (hnull | htext) | ⟨octets, hoctets⟩
      · rw [hnull] at hcontent
        cases hcontent
      · obtain ⟨s, hs⟩ := Option.isSome_iff_exists.mp htext
        rw [hs]
        exact .inl ⟨_, _, rfl, hq.mediaType⟩
      · rw [hoctets]
        exact .inl ⟨_, _, rfl, hq.mediaType⟩
  | false =>
      obtain ⟨source, hsource, hsourceText⟩ :=
        param_of_wellTyped hq Request.sourceParam
      obtain ⟨type, htype, htypeText⟩ :=
        param_of_wellTyped hq Request.sourceTypeParam
      unfold Request.body
      rw [truth_content_of_wellTyped hq, hcontent, hsource, htype]
      simp only [bind, Except.bind, hsourceText.truth_eq, htypeText.truth_eq,
        Bool.false_eq_true, if_false]
      split
      case isFalse => exact .inr ⟨_, rfl, rfl⟩
      case isTrue hgiven =>
        split
        case isFalse => exact .inr ⟨_, rfl, rfl⟩
        case isTrue htyped =>
          -- parameters that are present are texts
          have hmediaType : type.IsText := htypeText.resolve_left fun hnull => by
            rw [hnull] at htyped
            cases htyped
          obtain ⟨s, hs⟩ := Option.isSome_iff_exists.mp
            (hsourceText.resolve_left fun hnull => by
              rw [hnull] at hgiven
              cases hgiven)
          rw [Request.encoded, hs]
          exact .inl ⟨_, _, rfl, hmediaType⟩

/-- What goes wrong with a body is raised by no object. -/
theorem isOwn_of_conversion (hq : q.WellTyped) {e : Fault}
    (h : q.conversion.result = .error e) : e.IsOwn := by
  unfold Request.conversion at h
  rcases body_of_wellTyped hq with ⟨mediaType, raw, hbody, htext⟩ | ⟨f, hbody, hf⟩
  · rw [hbody] at h
    exact Content.isOwn_of_toJson htext h
  · rw [hbody] at h
    cases h
    exact hf

/-- What is written and reported of a body is what the end of its conversion
says. -/
theorem writeRequestBody_result {e : BodyEnding} (hq : q.WellTyped)
    (he : e.result = q.conversion.result) :
    writeRequestBody q = ⟨e.writes q.conversion, none, e.logs⟩ := by
  -- the body is read and converted first, then redacted and written
  have hbody : redactedBody q = q.conversion.result >>= fun s =>
      writePresent .requestBody (.text (redactBody q.path.text? s)) := by
    unfold redactedBody Request.conversion
    cases q.body with
    | error e => rfl
    | ok pair =>
        dsimp only [bind, Except.bind]
        cases Content.toJson (.bytes pair.2) pair.1 with
        | error e => rfl
        | ok s =>
            dsimp only
            rw [bodyValue_text hq.path]
  unfold writeRequestBody
  rw [hbody, ← he]
  cases e with
  | recorded s hs =>
      have hne : ¬ (redactBody q.path.text? s).isEmpty = true :=
        mt List.isEmpty_iff.mp (redactBody_ne_nil hs)
      dsimp only [BodyEnding.result, bind, Except.bind]
      rw [writePresent_requestBody, if_neg hne]
      rfl
  | empty =>
      dsimp only [BodyEnding.result, bind, Except.bind]
      rw [redactBody_nil]
      rfl
  | marked e =>
      have hown : e.IsOwn := isOwn_of_conversion hq he.symm
      show (if e.isOrdinary then _ else _ : Outcome) = _
      rw [if_pos hown.isOrdinary]
      dsimp only
      rw [hown.wording_eq]
      rfl

/-- The outcome of adding a request with the declared types: its head, and
then its body if that is recorded. -/
theorem outcome_of_head (h : Host) (node : Value) (hq : q.WellTyped)
    {p : RequestHead} (hp : p.IsOf q) :
    (¬ f.RecordsBody q → (adding q f).outcome h node = .of (.ok (p.writes f)))
      ∧ (f.RecordsBody q → ∀ e : BodyEnding,
          e.result = q.conversion.result →
          (adding q f).outcome h node
            = ⟨p.writes f ++ e.writes q.conversion, none, e.logs⟩) := by
  obtain ⟨b, hb, hcarries⟩ := hasBody_of_wellTyped hq
  have hadding : (adding q f).outcome h node
      = (Outcome.of (.ok (p.writes f))).andThen
        (if f.logRequestBody && q.isRest then
          if b then writeRequestBody q else .nothing
        else .nothing) := by
    show writeRequest q f = _
    unfold writeRequest writeLoggedBody
    rw [hp.written, hb]
    cases b <;> rfl
  have hnothing : (Outcome.of (.ok (p.writes f))).andThen .nothing
      = .of (.ok (p.writes f)) := by
    unfold Outcome.andThen Outcome.nothing Outcome.of
    simp
  rw [hadding]
  refine ⟨fun hnot => ?_, fun hrecords e he => ?_⟩
  · split
    case isFalse => exact hnothing
    case isTrue hlogged =>
      rw [Bool.and_eq_true] at hlogged
      rw [if_neg fun hb => hnot ⟨hlogged.1, hlogged.2, hcarries.mp hb⟩]
      exact hnothing
  · obtain ⟨hlogged, hrest, hcarried⟩ := hrecords
    rw [hlogged, hrest, hcarries.mpr hcarried]
    show (Outcome.of (.ok (p.writes f))).andThen (writeRequestBody q) = _
    rw [writeRequestBody_result hq he]
    rfl

/-- With bodies left out of the record the head is the same. -/
theorem outcome_adding (h : Host) (node : Value) (hq : q.WellTyped) :
    ∃ ws, (∀ w ∈ ws, w.1 ∈ headFields)
      ∧ (adding q f.withoutBody).outcome h node = .of (.ok ws)
      ∧ (¬ f.RecordsBody q → (adding q f).outcome h node = .of (.ok ws))
      ∧ (f.RecordsBody q → ∀ e : BodyEnding,
          e.result = q.conversion.result →
          (adding q f).outcome h node
            = ⟨ws ++ e.writes q.conversion, none, e.logs⟩) := by
  obtain ⟨p, hp⟩ := exists_requestHead hq
  have hfields := every_writeRequestHead_headFields q f
  rw [hp.written] at hfields
  have hwithout : ¬ f.withoutBody.RecordsBody q :=
    fun hrecords => Bool.false_ne_true hrecords.logged
  exact ⟨p.writes f, hfields, (outcome_of_head h node hq hp).1 hwithout,
    outcome_of_head h node hq hp⟩

end Call

theorem BodyEnding.eq_requestBody_of_mem {e : BodyEnding} {x : Conversion}
    {w : Write} (hw : w ∈ e.writes x) : w.1 = .requestBody := by
  cases e with
  | recorded s hs
  | marked e =>
      obtain rfl := List.mem_singleton.mp hw
      rfl
  | empty => cases hw

section Added

variable {q : Request} {f : Filter} (hq : q.WellTyped) (h : Host) (r : Record)

include hq

/-- Where bodies are recorded, the record has of the body what the end of its
conversion says. -/
theorem Filter.RecordsBody.added (hrecords : f.RecordsBody q) {e : BodyEnding}
    (he : e.result = q.conversion.result) :
    (r.apply h (.adding q f)).get? .requestBody
        = (r.putAll (e.writes q.conversion)).get? .requestBody
      ∧ ((Call.adding q f).outcome h r.node).logs = e.logs := by
  obtain ⟨ws, hfields, -, -, hending⟩ :=
    Call.outcome_adding (f := f) h r.node hq
  have hhead : (r.putAll ws).get? .requestBody = r.get? .requestBody :=
    Record.get?_putAll_of_ne fun w hw heq =>
      absurd (heq ▸ hfields w hw) (by decide)
  unfold Record.apply
  rw [hending hrecords e he]
  refine ⟨?_, rfl⟩
  show (r.putAll (ws ++ e.writes q.conversion)).get? _ = _
  rw [Record.putAll_append]
  cases e with
  | recorded s hs
  | marked e =>
      exact (Record.get?_putAll_singleton _ _ _).trans
        (Record.get?_putAll_singleton _ _ _).symm
  | empty => exact hhead

/-- Where they are not, it has what it had. -/
theorem Filter.RecordsBody.not_added (hnot : ¬ f.RecordsBody q) :
    (r.apply h (.adding q f)).get? .requestBody = r.get? .requestBody
      ∧ ((Call.adding q f).outcome h r.node).logs = [] := by
  obtain ⟨ws, hfields, -, habsent, -⟩ :=
    Call.outcome_adding (f := f) h r.node hq
  unfold Record.apply
  rw [habsent hnot]
  exact ⟨Record.get?_putAll_of_ne fun w hw heq =>
    absurd (heq ▸ hfields w hw) (by decide), rfl⟩

end Added

/-- Whatever is wrong with the body of a request, adding the request records
all else as if bodies were left out, and says of the body what there is to
say. -/
theorem request_contained (h : Host) (r : Record) (f : Filter) {q : Request}
    (hq : q.WellTyped) : ContainsBody h r q f := by
  obtain ⟨ws, hfields, hwithout, habsent, hending⟩ :=
    Call.outcome_adding (f := f) h r.node hq
  have happly : r.apply h (.adding q f.withoutBody) = r.putAll ws := by
    unfold Record.apply
    rw [hwithout]
    rfl
  have hleftOut : (r.apply h (.adding q f.withoutBody)).get? .requestBody
      = r.get? .requestBody := by
    rw [happly]
    refine Record.get?_putAll_of_ne fun w hw heq => ?_
    exact absurd (heq ▸ hfields w hw) (by decide)
  by_cases hrecords : f.RecordsBody q
  case neg =>
    have hsame : r.apply h (.adding q f)
        = r.apply h (.adding q f.withoutBody) := by
      unfold Record.apply
      rw [habsent hrecords, hwithout]
    exact
      { fault := by
          rw [habsent hrecords]
          rfl
        others := fun field _ => by rw [hsame]
        leftOut := hleftOut
        absent := fun _ => ⟨hsame, by
          rw [habsent hrecords]
          rfl⟩
        ending := fun hyes => absurd hyes hrecords }
  case pos =>
    obtain ⟨e, he⟩ := BodyEnding.exists_result q.conversion.result
    have houtcome := hending hrecords e he
    have hbody : r.apply h (.adding q f)
        = (r.apply h (.adding q f.withoutBody)).putAll
            (e.writes q.conversion) := by
      rw [happly, ← Record.putAll_append]
      unfold Record.apply
      rw [houtcome]
    exact
      { fault := by rw [houtcome]
        others := fun field hfield => by
          rw [hbody]
          refine Record.get?_putAll_of_ne fun w hw => ?_
          rw [BodyEnding.eq_requestBody_of_mem hw]
          exact hfield.symm
        leftOut := hleftOut
        absent := fun hnot => absurd hrecords hnot
        ending := fun _ => by
          refine ⟨e, ⟨he, hbody, by rw [houtcome]⟩, fun e' he' => ?_⟩
          exact BodyEnding.result_injective (he'.1.trans he.symm) }

/-- A request whose body stands in a parameter and is no JSON. -/
def brokenSource : Request where
  isRest := true
  path := .text "/a".toList
  method := .term (.method .post)
  headers := .map [(.text "Accept".toList, .text "*/*".toList)]
  params := .map
    [(.text Request.sourceParam, .text "[1".toList),
      (.text Request.sourceTypeParam, .text "application/json".toList)]
  content := .null
  mediaType := .text "application/json".toList

/-- It is recorded with the marker in place of its body. -/
theorem request_contained_brokenSource :
    ∃ r, Record.login = .ok r
      ∧ brokenSource.WellTyped
      ∧ ContainsBody Record.bareHost r brokenSource .standard
      ∧ Filter.standard.RecordsBody brokenSource
      ∧ (r.apply Record.bareHost (.adding brokenSource .standard)).get?
          .requestBody = some (.text Call.bodyMarker) := by
  have htyped : brokenSource.WellTyped := by
    refine ⟨.inr rfl, .inr ⟨_, rfl⟩, ⟨_, rfl, ?_⟩, ⟨_, rfl, ?_⟩, .inl (.inl rfl),
      rfl⟩
    · exact ⟨by simp [IsText, Value.text?], by simp,
        List.forall_mem_singleton.mpr (.one rfl)⟩
    · exact ⟨by simp [IsText, Value.text?], by decide,
        by simp [IsText, Value.text?]⟩
  have hr : Record.login = .ok _ := rfl
  refine ⟨_, hr, htyped, request_contained _ _ _ htyped,
    ⟨rfl, rfl, .inr ⟨_, _, rfl, rfl, rfl⟩⟩, ?_⟩
  rfl

end AuditTrail
