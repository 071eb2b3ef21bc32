/-
The forms in which a request brings its body.

The same text may be content as a text or as its octets, or stand in a
parameter of a request without content. In each form the request hands over
the octets of the text, and they are decoded to the text again, so its
conversion is that of the text (`bodyConversion`). Content in the one form
or the other is recorded the same altogether. A body in a parameter is
recorded like content, but the parameter is recorded besides.
-/
import AuditTrail.Proofs.Record.RequestBody
import AuditTrail.Proofs.Text.Utf8

namespace AuditTrail

open Redaction

variable {q : Request} {f : Filter} {path : Value} {s m : Text}

/-- A text and its octets are converted to the same. -/
theorem Content.toJson_of_text? {content : Value} {s : Text}
    (hs : content.text? = some s) (mediaType : Value) :
    toJson content mediaType = toJson (.bytes (Utf8.encode s)) mediaType := by
  have htext : text content = text (.bytes (Utf8.encode s)) := by
    funext base
    unfold text
    rw [hs]
    simp only [Value.text?, octets, Utf8.decode_encode]
  unfold toJson
  rw [htext]

namespace Request

-- ================================================================ forms

/-- The request with a text for its content. -/
def withText (q : Request) (s m : Text) : Request :=
  { q with content := .text s, mediaType := .text m }

/-- The request with the octets of a text for its content. -/
def withOctets (q : Request) (s m : Text) : Request :=
  { q with content := .bytes (Utf8.encode s), mediaType := .text m }

/-- A request without content, with a text and its media type in the
parameters for them. -/
structure InParams (q : Request) (s m : Text) : Prop where
  noContent : q.content.truthy = false
  params : ∃ entries, q.params = .map entries
    ∧ Value.lookupText entries sourceParam = some (.text s)
    ∧ Value.lookupText entries sourceTypeParam = some (.text m)

/-- A text on its way into a record, as the body of a request for a path. -/
def bodyConversion (path : Value) (s m : Text) : Conversion where
  result := Content.toJson (.text s) (.text m)
  shown := redactBody path.text?
  marker := fun _ => Call.bodyMarker

-- ============================================================ conversion

/-- Content that is there is converted. -/
theorem conversion_of_content (hq : q.WellTyped)
    (hcontent : q.content.truthy = true) :
    q.conversion.result = Content.toJson q.content q.mediaType := by
  have hbody : ∀ raw, q.body = .ok (q.mediaType, raw) →
      q.conversion.result = Content.toJson (.bytes raw) q.mediaType := by
    intro raw hraw
    unfold conversion
    rw [hraw]
    rfl
  rcases hq.content with (hnull | htext) | ⟨octets, hoctets⟩
  · rw [hnull] at hcontent
    cases hcontent
  · obtain ⟨s, hs⟩ := Option.isSome_iff_exists.mp htext
    rw [Content.toJson_of_text? hs]
    refine hbody _ ?_
    rw [Call.body_of_content hcontent, hs]
  · rw [hoctets]
    refine hbody _ ?_
    rw [Call.body_of_content hcontent, hoctets]
    rfl

theorem wellTyped_withText (hq : q.WellTyped) : (q.withText s m).WellTyped :=
  { path := hq.path
    method := hq.method
    headers := hq.headers
    params := hq.params
    content := .inl (.inr rfl)
    mediaType := rfl }

/-- Beyond its result a conversion depends on the path only. -/
theorem conversion_ext
    (hresult : q.conversion.result = (bodyConversion path s m).result)
    (hpath : q.path = path) : q.conversion = bodyConversion path s m := by
  subst hpath
  exact congrArg (Conversion.mk · _ _) hresult

theorem conversion_withText (hq : q.WellTyped) (hs : s ≠ []) :
    (q.withText s m).conversion = bodyConversion q.path s m := by
  have hresult : (q.withText s m).conversion.result
      = (bodyConversion q.path s m).result :=
    conversion_of_content (wellTyped_withText hq) (Value.truthy_text hs)
  exact conversion_ext hresult rfl

/-- A body in a parameter has the conversion of its text. -/
theorem InParams.conversion_eq (hsource : q.InParams s m)
    (hq : q.WellTyped) (hs : s ≠ []) (hm : m ≠ []) (hpath : q.path = path) :
    q.conversion = bodyConversion path s m := by
  obtain ⟨entries, hparams, hfound, htype⟩ := hsource.params
  have hparam : ∀ name v, Value.lookupText entries name = some v →
      q.param name = .ok v := by
    intro name v hv
    unfold param
    rw [hparams]
    dsimp only
    rw [hv, Option.getD_some]
  have hbody : q.body = .ok (.text m, Utf8.encode s) := by
    have hencoded : encoded (.text s) = .ok (Utf8.encode s) := rfl
    have hsome : (Value.text s).truth = .ok true :=
      Value.truth_eq_true_iff.mpr (Value.truthy_text hs)
    have htyped : (Value.text m).truth = .ok true :=
      Value.truth_eq_true_iff.mpr (Value.truthy_text hm)
    unfold body
    rw [Call.truth_content_of_wellTyped hq, hsource.noContent,
      hparam _ _ hfound, hparam _ _ htype]
    simp only [bind, Except.bind, hsome, htyped, hencoded, if_true,
      Bool.false_eq_true, if_false]
  refine conversion_ext ?_ hpath
  have htext : (Value.text s).text? = some s := rfl
  unfold conversion bodyConversion
  rw [hbody, Content.toJson_of_text? htext]
  rfl

theorem InParams.carriesBody (hsource : q.InParams s m) (hs : s ≠ []) :
    q.CarriesBody := by
  obtain ⟨entries, hparams, hfound, -⟩ := hsource.params
  exact .inr ⟨entries, _, hparams, hfound, Value.truthy_text hs⟩

/-- Octets of a text are there if the text is. -/
theorem truth_withOctets :
    (q.withOctets s m).content.truth = (q.withText s m).content.truth := by
  cases s with
  | nil => rfl
  | cons c s =>
      have hne : Utf8.encode (c :: s) ≠ [] :=
        List.append_ne_nil_of_left_ne_nil (Utf8.encodeChar_ne_nil c) _
      show Except.ok (!(Utf8.encode (c :: s)).isEmpty) = .ok true
      rw [List.isEmpty_eq_false_iff.mpr hne]
      rfl

/-- Content as a text and as its octets is the same body. -/
theorem body_withOctets : (q.withOctets s m).body = (q.withText s m).body := by
  unfold body
  rw [truth_withOctets]
  rfl

theorem hasBody_withOctets :
    (q.withOctets s m).hasBody = (q.withText s m).hasBody := by
  unfold hasBody
  rw [truth_withOctets]
  rfl

end Request

-- ============================================================== records

/-- What adding a request does is the same for content as a text and as its
octets. -/
theorem Call.outcome_withOctets (h : Host) (node : Value) :
    (Call.adding (q.withOctets s m) f).outcome h node
      = (Call.adding (q.withText s m) f).outcome h node := by
  have hredacted : redactedBody (q.withOctets s m)
      = redactedBody (q.withText s m) := by
    unfold redactedBody
    rw [Request.body_withOctets]
    rfl
  have hwritten : writeRequestBody (q.withOctets s m)
      = writeRequestBody (q.withText s m) := by
    unfold writeRequestBody
    rw [hredacted]
  show writeRequest (q.withOctets s m) f = writeRequest (q.withText s m) f
  unfold writeRequest writeLoggedBody
  rw [Request.hasBody_withOctets, hwritten]
  rfl

/-- The same text as the content of a request, as its octets, and in a
parameter of a request for the same path that has no content: the first two
leave the same record, and the third leaves the same body, or the same
marker, and the same log. It is the body that the text itself is converted
to. -/
theorem body_forms (h : Host) (r : Record) (f : Filter) (q : Request)
    {s m : Text} (hs : s ≠ []) (hm : m ≠ []) :
    ((Call.adding (q.withOctets s m) f).outcome h r.node
        = (Call.adding (q.withText s m) f).outcome h r.node
      ∧ r.apply h (.adding (q.withOctets s m) f)
        = r.apply h (.adding (q.withText s m) f))
    ∧ ∀ q' : Request, q.WellTyped → q'.WellTyped → q'.path = q.path →
      q'.isRest = q.isRest → q'.InParams s m →
      ((r.apply h (.adding q' f)).get? .requestBody
          = (r.apply h (.adding (q.withText s m) f)).get? .requestBody
        ∧ ((Call.adding q' f).outcome h r.node).logs
          = ((Call.adding (q.withText s m) f).outcome h r.node).logs)
      ∧ (f.logRequestBody = true → q.isRest = true →
        ∃ e : BodyEnding, e.result = Content.toJson (.text s) (.text m)
          ∧ (r.apply h (.adding q' f)).get? .requestBody
            = (r.putAll (e.writes (Request.bodyConversion q.path s m))).get?
              .requestBody) := by
  have houtcome := Call.outcome_withOctets (q := q) (f := f) (s := s) (m := m)
    h r.node
  refine ⟨⟨houtcome, ?_⟩, fun q' hq hq' hpath hrest hsource => ?_⟩
  · unfold Record.apply
    rw [houtcome]
  have htext : (q.withText s m).WellTyped := Request.wellTyped_withText hq
  have hconversion : (q.withText s m).conversion = _ :=
    Request.conversion_withText hq hs
  have hconversion' := hsource.conversion_eq hq' hs hm hpath
  by_cases hrecords : f.logRequestBody = true ∧ q.isRest = true
  case neg =>
    have hnot : ¬ f.RecordsBody (q.withText s m) := fun hyes =>
      hrecords ⟨hyes.logged, hyes.rest⟩
    have hnot' : ¬ f.RecordsBody q' := fun hyes =>
      hrecords ⟨hyes.logged, hrest ▸ hyes.rest⟩
    obtain ⟨hbody, hlogs⟩ := Filter.RecordsBody.not_added htext h r hnot
    obtain ⟨hbody', hlogs'⟩ := Filter.RecordsBody.not_added hq' h r hnot'
    exact ⟨⟨hbody'.trans hbody.symm, hlogs'.trans hlogs.symm⟩,
      fun hlog hrest => absurd ⟨hlog, hrest⟩ hrecords⟩
  case pos =>
    have hyes : f.RecordsBody (q.withText s m) :=
      ⟨hrecords.1, hrecords.2, .inl (Value.truthy_text hs)⟩
    have hyes' : f.RecordsBody q' :=
      ⟨hrecords.1, hrest.trans hrecords.2, hsource.carriesBody hs⟩
    obtain ⟨e, he⟩ := BodyEnding.exists_result
      (Request.bodyConversion q.path s m).result
    obtain ⟨hbody, hlogs⟩ := hyes.added htext h r (hconversion ▸ he)
    obtain ⟨hbody', hlogs'⟩ := hyes'.added hq' h r (hconversion' ▸ he)
    rw [hconversion] at hbody
    rw [hconversion'] at hbody'
    exact ⟨⟨hbody'.trans hbody.symm, hlogs'.trans hlogs.symm⟩,
      fun _ _ => ⟨e, he, hbody'⟩⟩

/-- A search without a body. -/
def bareSearch : Request where
  isRest := true
  path := .text "/_search".toList
  method := .term (.method .get)
  headers := .map []
  params := .map []
  content := .null
  mediaType := .text "application/json".toList

/-- A search with some JSON in its parameters. -/
def searchByParam : Request :=
  { bareSearch with
    params := .map
      [(.text Request.sourceParam, .text " \x22é\x22".toList),
        (.text Request.sourceTypeParam, .text "text/json".toList)] }

/-- It is recorded like a search with the JSON for its content. -/
theorem body_forms_search :
    ∃ r, Record.login = .ok r
      ∧ (r.apply Record.bareHost (.adding searchByParam .standard)).get?
          .requestBody
        = (r.apply Record.bareHost (.adding (bareSearch.withText
            " \x22é\x22".toList "text/json".toList) .standard)).get?
          .requestBody
      ∧ (r.apply Record.bareHost (.adding searchByParam .standard)).get?
          .requestBody = some (.text "\x22é\x22".toList) := by
  have hbare : bareSearch.WellTyped :=
    ⟨.inr rfl, .inr ⟨_, rfl⟩, ⟨[], rfl, by simp, by simp, by simp⟩,
      ⟨[], rfl, by simp, by simp, by simp⟩, .inl (.inl rfl), rfl⟩
  have hparam : searchByParam.WellTyped := by
    refine ⟨.inr rfl, .inr ⟨_, rfl⟩, hbare.headers, ⟨_, rfl, ?_⟩,
      .inl (.inl rfl), rfl⟩
    exact ⟨by simp [Value.IsText, Value.text?], by decide,
      by simp [Value.IsText, Value.text?]⟩
  have hr : Record.login = .ok _ := rfl
  obtain ⟨-, hforms⟩ := body_forms (s := " \x22é\x22".toList)
    (m := "text/json".toList) Record.bareHost _ .standard bareSearch
    (by decide) (by decide)
  obtain ⟨⟨hbody, -⟩, hrecorded⟩ := hforms searchByParam hbare hparam rfl rfl
    ⟨rfl, _, rfl, rfl, rfl⟩
  obtain ⟨e, he, hvalue⟩ := hrecorded rfl rfl
  have hconverted : (Content.toJson (.text " \x22é\x22".toList)
      (.text "text/json".toList)).toOption = some "\x22é\x22".toList := by
    decide
  obtain rfl : e = .recorded "\x22é\x22".toList (by decide) :=
    BodyEnding.result_injective (he.trans (eq_ok_of_toOption hconverted))
  have hshown : redactBody bareSearch.path.text? "\x22é\x22".toList
      = "\x22é\x22".toList := by decide
  refine ⟨_, hr, hbody, hvalue.trans ?_⟩
  exact (Record.get?_putAll_singleton _ _ _).trans
    (congrArg (some ∘ Value.text) hshown)

end AuditTrail
