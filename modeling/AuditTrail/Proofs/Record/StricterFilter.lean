/-
What a request leaves in a record under a stricter filter.

A filter that drops what another one drops, masks what it masks and logs
bodies only where it does (`Filter.Stricter`) shows a part of what the other
one shows. The two runs are compared part by part: of the writes of a
request's head, those of its path and its method are the same under every
filter, and its headers and parameters are what the filter shows of the same
entries (`RequestHead`). A body is recorded as the end of its conversion has
it, in which the filter has no say, or not at all.
-/
import AuditTrail.Proofs.Record.RequestBody

namespace AuditTrail

open Redaction
open Value (IsText)

-- ============================================================== filters

/-- A filter excludes whatever another one does. -/
structure Filter.Stricter (g f : Filter) : Prop where
  credentials : f.excludeSensitiveHeaders = true →
    g.excludeSensitiveHeaders = true
  bodies : g.logRequestBody = true → f.logRequestBody = true
  headers : f.ignoreHeaders ⊆ g.ignoreHeaders
  params : f.ignoreUrlParams ⊆ g.ignoreUrlParams

/-- A parameter keeps its name, and its value is the same or masked. -/
structure MaskedMore (d e : Value × Value) : Prop where
  name : d.1 = e.1
  value : d.2 = e.2 ∨ d.2 = .text maskedParam

namespace Filter.Stricter

variable {f g : Filter} {name : Text} (h : g.Stricter f)

include h

/-- Its patterns are among those of the stricter filter, so what they cover is
covered there. -/
theorem excludesHeader (hf : f.excludesHeader name = true) :
    g.excludesHeader name = true := by
  obtain ⟨p, hp, hcovers⟩ := List.any_eq_true.mp hf
  exact List.any_eq_true.mpr ⟨p, h.headers hp, hcovers⟩

theorem excludesUrlParam (hf : f.excludesUrlParam name = true) :
    g.excludesUrlParam name = true := by
  obtain ⟨p, hp, hcovers⟩ := List.any_eq_true.mp hf
  exact List.any_eq_true.mpr ⟨p, h.params hp, hcovers⟩

theorem keepsHeader (hg : g.keepsHeader name = true) :
    f.keepsHeader name = true := by
  simp only [Filter.keepsHeader, Bool.and_eq_true, Bool.not_eq_true',
    Bool.and_eq_false_iff] at hg ⊢
  refine ⟨hg.1.imp_left ?_, ?_⟩
  · exact fun hnot => Bool.eq_false_of_not_eq_true fun hf =>
      Bool.false_ne_true (hnot.symm.trans (h.credentials hf))
  · exact Bool.eq_false_of_not_eq_true fun hf =>
      Bool.false_ne_true (hg.2.symm.trans (h.excludesHeader hf))

/-- Fewer headers are shown, in the same order and with the same values. -/
theorem shownHeaders (entries : Value.Entries) :
    (g.shownHeaders entries).Sublist (f.shownHeaders entries) := by
  refine List.monotone_filter_right _ fun e he => ?_
  cases hs : e.1.text? with
  | none => rfl
  | some s =>
      rw [hs] at he
      exact h.keepsHeader he

/-- As many parameters are shown, but more of them are masked. -/
theorem shownParams (entries : Value.Entries) :
    List.Forall₂ MaskedMore (g.shownParams entries)
      (f.shownParams entries) := by
  induction entries with
  | nil => exact .nil
  | cons e rest ih =>
      refine .cons ⟨rfl, ?_⟩ ih
      by_cases hg : e.1.text?.any g.excludesUrlParam = true
      · exact .inr (if_pos hg)
      · -- a name that the stricter filter lets pass, the other one does too
        refine .inl ((if_neg hg).trans (if_neg fun hf => hg ?_).symm)
        cases hs : e.1.text? with
        | none =>
            rw [hs] at hf
            cases hf
        | some s =>
            rw [hs] at hf
            exact h.excludesUrlParam hf

end Filter.Stricter

-- ================================================================ heads

namespace RequestHead

variable {p : RequestHead} {q : Request} {f : Filter} {r : Record}
  {field : Field}

theorem get?_putAll_mapWrites {given shown : Value.Entries} :
    (r.putAll (mapWrites field given shown)).get? field
      = if given.isEmpty then r.get? field else some (.map shown) := by
  unfold mapWrites
  split
  · rfl
  · exact Record.get?_putAll_singleton _ _ _

theorem get?_putAll_mapWrites_of_ne {given shown : Value.Entries}
    {other : Field} (h : other ≠ field) :
    (r.putAll (mapWrites other given shown)).get? field = r.get? field :=
  Record.get?_putAll_of_ne fun _ hw => eq_of_mem_mapWrites hw ▸ h

variable (hp : p.IsOf q)

include hp

theorem IsOf.get?_headers :
    (r.putAll (p.writes f)).get? .restRequestHeaders
      = if p.headers.isEmpty then r.get? .restRequestHeaders
        else some (.map (f.shownHeaders p.headers)) := by
  unfold writes
  rw [Record.putAll_append, Record.putAll_append, Record.putAll_append,
    Record.get?_putAll_of_ne fun w hw => hp.method w hw ▸ by decide,
    get?_putAll_mapWrites_of_ne (by decide), get?_putAll_mapWrites,
    Record.get?_putAll_of_ne fun w hw => hp.path w hw ▸ by decide]

theorem IsOf.get?_params :
    (r.putAll (p.writes f)).get? .restRequestParams
      = if p.params.isEmpty then r.get? .restRequestParams
        else some (.map (f.shownParams p.params)) := by
  unfold writes
  rw [Record.putAll_append, Record.putAll_append, Record.putAll_append,
    Record.get?_putAll_of_ne fun w hw => hp.method w hw ▸ by decide,
    get?_putAll_mapWrites, get?_putAll_mapWrites_of_ne (by decide),
    Record.get?_putAll_of_ne fun w hw => hp.path w hw ▸ by decide]

omit hp in
/-- A filter has a say in headers and parameters only. -/
theorem get?_writes_of_ne (hheaders : field ≠ .restRequestHeaders)
    (hparams : field ≠ .restRequestParams) :
    (r.putAll (p.writes f)).get? field
      = (r.putAll (p.path ++ p.method)).get? field := by
  unfold writes
  rw [Record.putAll_append, Record.putAll_append, Record.putAll_append,
    Record.putAll_append, Record.get?_putAll, Record.get?_putAll _ p.method,
    get?_putAll_mapWrites_of_ne hparams.symm,
    get?_putAll_mapWrites_of_ne hheaders.symm]

/-- What is recorded besides the body is the head. -/
theorem IsOf.get?_adding (hq : q.WellTyped) (h : Host)
    (hfield : field ≠ .requestBody) :
    (r.apply h (.adding q f)).get? field
      = (r.putAll (p.writes f)).get? field := by
  obtain ⟨habsent, hending⟩ :=
    Call.outcome_of_head (f := f) h r.node hq hp
  unfold Record.apply
  by_cases hrecords : f.RecordsBody q
  case neg =>
    rw [habsent hrecords]
    rfl
  case pos =>
    obtain ⟨e, he⟩ := BodyEnding.exists_result q.conversion.result
    rw [hending hrecords e he]
    show (r.putAll (p.writes f ++ e.writes q.conversion)).get? field = _
    rw [Record.putAll_append]
    exact Record.get?_putAll_of_ne fun w hw =>
      BodyEnding.eq_requestBody_of_mem hw ▸ hfield.symm

end RequestHead

-- ============================================================== records

/-- What two records hold in a field for entries of a request: what there was
before if the request has none, and two maps that are related otherwise. -/
def HoldMaps (rel : Value.Entries → Value.Entries → Prop) (given : Value)
    (field : Field) (before strict lax : Record) : Prop :=
  if given.truthy then
    ∃ d e, strict.get? field = some (.map d) ∧ lax.get? field = some (.map e)
      ∧ rel d e
  else
    strict.get? field = before.get? field ∧ lax.get? field = before.get? field

/-- Of a request that was added to a record, one of two records shows no more
than the other one: fewer headers in the same order, the same parameters
under the same names unless they are masked, the same body or none, and
everything else as the other one. -/
structure ShowsNoMore (q : Request) (before strict lax : Record) : Prop where
  headers : HoldMaps List.Sublist q.headers .restRequestHeaders before strict
    lax
  params : HoldMaps (List.Forall₂ MaskedMore) q.params .restRequestParams
    before strict lax
  body : strict.get? .requestBody = before.get? .requestBody
    ∨ strict.get? .requestBody = lax.get? .requestBody
  others : ∀ field ∉ [Field.restRequestHeaders, .restRequestParams,
    .requestBody], strict.get? field = lax.get? field

/-- Under a stricter filter a request shows no more in a record. -/
theorem stricter_showsNoMore (h : Host) (r : Record) {q : Request}
    {f g : Filter} (hq : q.WellTyped) (hstricter : g.Stricter f) :
    ShowsNoMore q r (r.apply h (.adding q g)) (r.apply h (.adding q f)) := by
  obtain ⟨p, hp⟩ := Call.exists_requestHead hq
  constructor
  case headers =>
    have hget := fun f : Filter =>
      (hp.get?_adding (r := r) (f := f) hq h (by decide)).trans hp.get?_headers
    unfold HoldMaps
    rw [hget g, hget f, hp.headers]
    cases p.headers.isEmpty with
    | true => exact ⟨rfl, rfl⟩
    | false => exact ⟨_, _, rfl, rfl, hstricter.shownHeaders p.headers⟩
  case params =>
    have hget := fun f : Filter =>
      (hp.get?_adding (r := r) (f := f) hq h (by decide)).trans hp.get?_params
    unfold HoldMaps
    rw [hget g, hget f, hp.params]
    cases p.params.isEmpty with
    | true => exact ⟨rfl, rfl⟩
    | false => exact ⟨_, _, rfl, rfl, hstricter.shownParams p.params⟩
  case body =>
    by_cases hrecords : g.RecordsBody q
    case neg => exact .inl (Filter.RecordsBody.not_added hq h r hrecords).1
    case pos =>
      -- the end of the conversion is the same under both filters
      have hlax : f.RecordsBody q :=
        { hrecords with logged := hstricter.bodies hrecords.logged }
      obtain ⟨e, he⟩ := BodyEnding.exists_result q.conversion.result
      exact .inr ((Filter.RecordsBody.added hq h r hrecords he).1.trans
        (Filter.RecordsBody.added hq h r hlax he).1.symm)
  case others =>
    intro field hfield
    simp only [List.mem_cons, List.not_mem_nil, or_false, not_or] at hfield
    obtain ⟨hheaders, hparams, hbody⟩ := hfield
    rw [hp.get?_adding hq h hbody, hp.get?_adding hq h hbody,
      RequestHead.get?_writes_of_ne hheaders hparams,
      RequestHead.get?_writes_of_ne hheaders hparams]

/-- A search with credentials in a header and a token in a parameter. -/
def tokenSearch : Request where
  isRest := true
  path := .text "/a".toList
  method := .term (.method .post)
  headers := .map
    [(.text "Authorization".toList, .text "Basic x".toList),
      (.text "Accept".toList, .text "*/*".toList)]
  params := .map
    [(.text "token".toList, .text "t".toList),
      (.text "pretty".toList, .text "true".toList)]
  content := .text "[true]".toList
  mediaType := .text "application/json".toList

/-- A filter that excludes what it can of such a request, and one that
excludes nothing. -/
def closeFilter : Filter := ⟨true, false, [], ["tok*".toList]⟩
def openFilter : Filter := ⟨false, true, [], []⟩

/-- The closer filter leaves one header of two, masks one parameter of two
and leaves the body out. -/
theorem stricter_showsNoMore_tokenSearch :
    ∃ r strict lax, Record.login = .ok r
      ∧ tokenSearch.WellTyped ∧ closeFilter.Stricter openFilter
      ∧ strict = r.apply Record.bareHost (.adding tokenSearch closeFilter)
      ∧ lax = r.apply Record.bareHost (.adding tokenSearch openFilter)
      ∧ ShowsNoMore tokenSearch r strict lax
      ∧ strict.get? .restRequestHeaders
        = some (.map [(.text "Accept".toList, .list [.text "*/*".toList])])
      ∧ strict.get? .restRequestParams
        = some (.map [(.text "token".toList, .text maskedParam),
          (.text "pretty".toList, .text "true".toList)])
      ∧ strict.get? .requestBody = none
      ∧ lax.get? .requestBody = some (.text "[true]".toList) := by
  have htyped : tokenSearch.WellTyped := by
    refine ⟨.inr rfl, .inr ⟨_, rfl⟩, ⟨_, rfl, ?_⟩, ⟨_, rfl, ?_⟩,
      .inl (.inr rfl), rfl⟩
    · exact ⟨by simp [IsText, Value.text?], by decide,
        List.forall_mem_cons.mpr
          ⟨.one rfl, List.forall_mem_singleton.mpr (.one rfl)⟩⟩
    · exact ⟨by simp [IsText, Value.text?], by decide,
        by simp [IsText, Value.text?]⟩
  have hstricter : closeFilter.Stricter openFilter :=
    ⟨fun _ => rfl, fun _ => rfl, List.nil_subset _, List.nil_subset _⟩
  have hr : Record.login = .ok _ := rfl
  refine ⟨_, _, _, hr, htyped, hstricter, rfl, rfl,
    stricter_showsNoMore _ _ htyped hstricter, ?_, ?_, ?_, ?_⟩
  · rfl
  · rfl
  · rfl
  · rfl

end AuditTrail
