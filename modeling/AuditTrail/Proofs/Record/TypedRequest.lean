/-
Requests whose parts have the types that their class declares, and what
is recorded of them.

Parts of a request may be of any type, and the operations answer for it
with faults. A caller who keeps to the declared types gets no fault: for a
`TypedRequest` the fallible steps collapse to a filter over the headers
(`restHeaders_encode`), a map over the parameters (`redactedParams_toRequest`,
`urlParams_encode`) and a body or a marker in its place
(`writeRequestBody_of_body`). `writes_writeRequest` puts them together as
the list of what is written.
-/
import AuditTrail.Proofs.Content.Ending
import AuditTrail.Proofs.Redaction.Header

namespace AuditTrail

open Redaction

-- ============================================================= the types

/-- A dictionary: entries in order, under names that differ. -/
structure Dict (α : Type) where
  entries : List (Text × α)
  nodup : (entries.map (·.1)).Nodup

/-- Content of a REST request. -/
inductive RawContent where
  | octets (bytes : Bytes)
  | text (s : Text)
  deriving DecidableEq

namespace RawContent

/-- The octets of content. -/
def bytes : RawContent → Bytes
  | .octets bytes => bytes
  | .text s => Utf8.encode s

/-- Whether there is nothing in the content. -/
def isEmpty : RawContent → Bool
  | .octets bytes => bytes.isEmpty
  | .text s => s.isEmpty

end RawContent

/-- A request whose parts have their declared types. -/
structure TypedRequest where
  isRest : Bool
  path : Option Text
  method : Option Method
  headers : Dict (List Text)
  params : Dict Text
  content : Option RawContent
  mediaType : Text

/-- A text that may be missing, as a value. -/
def Value.ofText? : Option Text → Value
  | none => .null
  | some s => .text s

/-- A list of texts as a value. -/
def Value.ofTexts (ss : List Text) : Value := .list (ss.map .text)

/-- Named entries as entries of a map. -/
def Value.encode {α : Type} (g : α → Value) (l : List (Text × α)) :
    Value.Entries :=
  l.map fun e => (.text e.1, g e.2)

namespace TypedRequest

/-- The request as callers hand it in. -/
def toRequest (t : TypedRequest) : Request where
  isRest := t.isRest
  path := Value.ofText? t.path
  method :=
    match t.method with
    | none => .null
    | some m => .term (.method m)
  headers := .map (Value.encode Value.ofTexts t.headers.entries)
  params := .map (Value.encode .text t.params.entries)
  content :=
    match t.content with
    | none => .null
    | some (.octets bytes) => .bytes bytes
    | some (.text s) => .text s
  mediaType := .text t.mediaType

end TypedRequest

-- ======================================================= typed entries

namespace Redaction

variable {α : Type} {g : α → Value} {l : List (Text × α)} {f : Filter}
  {k s : Text} {path : Option Text}

theorem isText_of_mem_encode {e : Value × Value} (he : e ∈ Value.encode g l) :
    e.1.IsText := by
  obtain ⟨d, -, rfl⟩ := List.mem_map.mp he
  rfl

/-- Headers are kept or dropped by their names alone. -/
theorem restHeaders_encode {l : List (Text × List Text)} :
    restHeaders (.map (Value.encode Value.ofTexts l))
        f.excludeSensitiveHeaders (some f)
      = .ok (Value.encode Value.ofTexts
          (l.filter fun e => f.keepsHeader e.1)) := by
  have hvalues : ∀ e ∈ Value.encode Value.ofTexts l, e.2.IsHeader := by
    intro e he
    obtain ⟨d, -, rfl⟩ := List.mem_map.mp he
    refine .several fun v hv => ?_
    obtain ⟨s, -, rfl⟩ := List.mem_map.mp hv
    rfl
  have hlisted : listedHeaders (Value.encode Value.ofTexts l)
      = Value.encode Value.ofTexts l := List.map_map
  rw [restHeaders_of_isHeader (fun e => isText_of_mem_encode) hvalues,
    Filter.shownHeaders, hlisted]
  exact congrArg Except.ok List.filter_map

/-- Masked parameters keep their names. -/
theorem urlParams_encode {l : List (Text × Text)} :
    urlParams (.map (Value.encode .text l)) (some f)
      = .ok (Value.encode .text (l.map fun e =>
          (e.1, if f.excludesUrlParam e.1 then maskedParam else e.2))) := by
  rw [urlParams_of_isText fun e => isText_of_mem_encode, Filter.shownParams]
  unfold Value.encode
  rw [List.map_map, List.map_map]
  refine congrArg Except.ok (List.map_congr_left fun e _ => ?_)
  show (Value.text e.1, if f.excludesUrlParam e.1 then Value.text maskedParam
    else Value.text e.2) = _
  rw [← apply_ite]
  rfl

theorem bodyValue_ofText? :
    bodyValue (Value.ofText? path) (.text s)
      = .ok (.text (redactBody path s)) := by
  cases path with
  | none => exact bodyValue_text (.inl rfl)
  | some p => exact bodyValue_text (.inr rfl)

end Redaction

/-- Entries stay as they are if their values do. -/
theorem map_value_eq_self {l : List (Text × Text)} {v : Text × Text → Text}
    (h : ∀ e ∈ l, v e = e.2) : l.map (fun e => (e.1, v e)) = l := by
  refine (List.map_congr_left fun e he => ?_).trans (List.map_id l)
  rw [h e he, id]

namespace Value

variable {α : Type} {g : α → Value} {l : List (Text × α)} {k : Text}

theorem truthy_map_encode :
    (Value.map (encode g l)).truthy = !l.isEmpty := by
  cases l with
  | nil => rfl
  | cons e l => rfl

theorem same_text (a b : Text) :
    same false (.text a) (.text b) = (a == b) :=
  same_ofText (.text a) b

/-- What stands under a name. -/
theorem lookupText_encode :
    lookupText (encode g l) k = (l.lookup k).map g := by
  induction l with
  | nil => rfl
  | cons e l ih =>
      unfold lookupText lookup at ih ⊢
      show Option.map _ (List.find? _ ((.text e.1, g e.2) :: encode g l)) = _
      rw [List.find?_cons, List.lookup_cons]
      show Option.map _ (match same false (.text e.1) (.text k) with
        | true => _ | false => _) = _
      rw [same_text]
      by_cases h : e.1 = k
      · rw [h, beq_self_eq_true]
        rfl
      · rw [beq_false_of_ne h, beq_false_of_ne (Ne.symm h)]
        exact ih

/-- Setting a name that is there changes what stands under it only. -/
theorem put_encode {l : List (Text × Text)} {v : Text}
    (hnodup : (l.map (·.1)).Nodup) (hk : k ∈ l.map (·.1)) :
    put false (encode .text l) (.text k) (.text v)
      = encode .text (l.map fun e => (e.1, if e.1 = k then v else e.2)) := by
  induction l with
  | nil => cases hk
  | cons e l ih =>
      obtain ⟨hnot, hnodup'⟩ := List.nodup_cons.mp hnodup
      show put false ((.text e.1, .text e.2) :: encode .text l) _ _ = _
      rw [put, same_text]
      by_cases h : e.1 = k
      · subst h
        -- the name does not come again, so the rest stays as it is
        have hrest : l.map (fun d => (d.1, if d.1 = e.1 then v else d.2))
            = l :=
          map_value_eq_self fun d hd =>
            if_neg fun h => hnot (List.mem_map.mpr ⟨d, hd, h⟩)
        rw [beq_self_eq_true, List.map_cons, hrest, if_pos rfl, if_pos rfl]
        rfl
      · rw [beq_false_of_ne h, List.map_cons, if_neg h]
        rcases List.mem_cons.mp hk with hk | hk
        · exact absurd hk.symm h
        · rw [if_neg (by decide), ih hnodup' hk]
          rfl

end Value

-- ====================================================== what is written

/-- An entry of a dictionary is found under its name. -/
theorem Dict.lookup_of_mem {α : Type} (d : Dict α) {e : Text × α}
    (he : e ∈ d.entries) : d.entries.lookup e.1 = some e.2 := by
  have hnodup := d.nodup
  revert he hnodup
  induction d.entries with
  | nil => exact fun he => absurd he List.not_mem_nil
  | cons a l ih =>
      intro he hnodup
      obtain ⟨hnot, hnodup'⟩ := List.nodup_cons.mp hnodup
      rw [List.lookup_cons]
      rcases List.mem_cons.mp he with rfl | he
      · rw [beq_self_eq_true]
      · have hne : e.1 ≠ a.1 :=
          fun h => hnot (List.mem_map.mpr ⟨e, he, h⟩)
        rw [beq_false_of_ne hne]
        exact ih he hnodup'

theorem Dict.ne_of_lookup_eq_none {α : Type} {d : Dict α} {k : Text}
    (h : d.entries.lookup k = none) {e : Text × α} (he : e ∈ d.entries) :
    e.1 ≠ k := by
  rintro rfl
  rw [d.lookup_of_mem he] at h
  cases h

theorem Dict.eq_of_lookup_eq_some {α : Type} {d : Dict α} {k : Text} {v : α}
    (h : d.entries.lookup k = some v) {e : Text × α} (he : e ∈ d.entries)
    (hk : e.1 = k) : e.2 = v := by
  subst hk
  rw [d.lookup_of_mem he] at h
  exact Option.some.inj h

namespace TypedRequest

variable {t : TypedRequest} {f : Filter}

/-- A parameter's value before masking: the one that carries a body is
redacted like a body. -/
def paramValue (t : TypedRequest) (e : Text × Text) : Text :=
  if e.1 = Request.sourceParam then redactBody t.path e.2 else e.2

theorem paramValue_of_eq {e : Text × Text}
    (h : e.1 = Request.sourceParam) :
    t.paramValue e = redactBody t.path e.2 := if_pos h

theorem paramValue_of_ne {e : Text × Text}
    (h : e.1 ≠ Request.sourceParam) : t.paramValue e = e.2 := if_neg h

/-- A parameter's value as it is recorded. -/
def shownParam (t : TypedRequest) (f : Filter) (e : Text × Text) : Text :=
  if f.excludesUrlParam e.1 then maskedParam else t.paramValue e

/-- The parameters are the request's; the one that carries a body is
redacted like a body. -/
theorem redactedParams_toRequest :
    Call.redactedParams t.toRequest
      = .ok (Value.encode .text
          (t.params.entries.map fun e => (e.1, t.paramValue e))) := by
  have hentries : t.toRequest.params.toEntries
      = .ok (Value.encode .text t.params.entries) := rfl
  unfold Call.redactedParams
  rw [hentries]
  dsimp only [bind, Except.bind]
  rw [Value.lookupText_encode]
  cases hs : t.params.entries.lookup Request.sourceParam with
  | none =>
      rw [map_value_eq_self fun e he =>
        paramValue_of_ne (Dict.ne_of_lookup_eq_none hs he)]
      rfl
  | some s =>
      cases s with
      | nil =>
          -- a missing body needs no redaction
          rw [map_value_eq_self fun e he => ?_]
          · rfl
          · by_cases h : e.1 = Request.sourceParam
            · rw [paramValue_of_eq h, Dict.eq_of_lookup_eq_some hs he h,
                redactBody_nil]
            · exact paramValue_of_ne h
      | cons c s =>
          show (bodyValue (Value.ofText? t.path) (.text (c :: s)) >>=
            fun shown => _) = _
          rw [bodyValue_ofText?]
          show Except.ok (Value.put false
            (Value.encode .text t.params.entries)
            (.text Request.sourceParam) (.text (redactBody t.path (c :: s))))
            = _
          rw [Value.put_encode t.params.nodup
            (List.mem_map.mpr ⟨_, Record.mem_of_lookup_eq_some hs, rfl⟩)]
          congr 2
          refine List.map_congr_left fun e he => ?_
          by_cases h : e.1 = Request.sourceParam
          · rw [if_pos h, paramValue_of_eq h,
              Dict.eq_of_lookup_eq_some hs he h]
          · rw [if_neg h, paramValue_of_ne h]

-- what is written, part by part

/-- The write of a path, if there is one. -/
def pathWrites (path : Option Text) : List Write :=
  if (Value.ofText? path).truthy then
    [(.restRequestPath, Value.ofText? path)]
  else []

/-- The write of some entries, unless there were none to begin with. -/
def entryWrites {α β : Type} (field : Field) (given : List α)
    (g : β → Value) (shown : List (Text × β)) : List Write :=
  if given.isEmpty then [] else [(field, .map (Value.encode g shown))]

/-- The write of a method, if there is one. -/
def methodWrites : Option Method → List Write
  | none => []
  | some m => [(.restRequestMethod, .term (.method m))]

/-- Everything that is written of a request but its body. -/
def headWrites (t : TypedRequest) (f : Filter) : List Write :=
  pathWrites t.path ++
    (entryWrites .restRequestHeaders t.headers.entries Value.ofTexts
        (t.headers.entries.filter fun e => f.keepsHeader e.1) ++
      (entryWrites .restRequestParams t.params.entries .text
          (t.params.entries.map fun e => (e.1, t.shownParam f e)) ++
        methodWrites t.method))

/-- What is written of a body, converted or not. -/
def bodyWrites (path : Option Text) (body : Except Fault Text) :
    List Write :=
  match body with
  | .ok s =>
      if (redactBody path s).isEmpty then []
      else [(.requestBody, .text (redactBody path s))]
  | .error _ => [(.requestBody, .text Call.bodyMarker)]

theorem writePresent_path :
    Call.writePresent .restRequestPath (Value.ofText? t.path)
      = .ok (pathWrites t.path) := by
  unfold pathWrites
  cases t.path with
  | none => rfl
  | some s =>
      cases s with
      | nil => rfl
      | cons c s => rfl

theorem writeHeaders_toRequest :
    Call.writeHeaders t.toRequest.headers f.excludeSensitiveHeaders (.given f)
      = .ok (entryWrites .restRequestHeaders t.headers.entries Value.ofTexts
          (t.headers.entries.filter fun e => f.keepsHeader e.1)) := by
  unfold entryWrites
  show Call.writeHeaders (.map (Value.encode _ t.headers.entries)) _ _ = _
  by_cases h : t.headers.entries.isEmpty = true
  · rw [if_pos h, List.isEmpty_iff.mp h]
    rfl
  · rw [if_neg h, Call.writeHeaders, Call.ifPresent_of_truthy]
    · show (restHeaders (.map (Value.encode _ t.headers.entries)) _ _ >>=
        fun kept => _) = _
      rw [restHeaders_encode]
      rfl
    · rw [Value.truthy_map_encode, Bool.eq_false_of_not_eq_true h]
      rfl

theorem writeParams_toRequest :
    Call.writeParams (.map (Value.encode .text
        (t.params.entries.map fun e => (e.1, t.paramValue e)))) (.given f)
      = .ok (entryWrites .restRequestParams t.params.entries .text
          (t.params.entries.map fun e => (e.1, t.shownParam f e))) := by
  unfold entryWrites
  by_cases h : t.params.entries.isEmpty = true
  · rw [if_pos h, List.isEmpty_iff.mp h]
    rfl
  · rw [if_neg h, Call.writeParams, Call.ifPresent_of_truthy]
    · show (urlParams _ _ >>= fun kept => _) = _
      rw [urlParams_encode, List.map_map]
      rfl
    · rw [Value.truthy_map_encode, List.isEmpty_map,
        Bool.eq_false_of_not_eq_true h]
      rfl

theorem methodOf_method (m : Method) :
    Record.methodOf (.term (.method m)) = .ok m := by
  cases m <;> rfl

theorem writeMethod_toRequest :
    Call.writeMethod t.toRequest.method = .ok (methodWrites t.method) := by
  unfold toRequest
  cases t.method with
  | none => rfl
  | some m =>
      show (Record.methodOf (.term (.method m)) >>= fun m => _) = _
      rw [methodOf_method]
      rfl

/-- With the declared types nothing but the body can fail. -/
theorem writeRequestHead_toRequest :
    Call.writeRequestHead t.toRequest f = .of (.ok (t.headWrites f)) := by
  unfold Call.writeRequestHead
  rw [redactedParams_toRequest]
  show (Outcome.of (Call.writePresent .restRequestPath
    (Value.ofText? t.path))).andThen _ = _
  rw [writePresent_path, writeHeaders_toRequest, writeParams_toRequest,
    writeMethod_toRequest]
  rfl

/-- A body that can be read is written as the record shows it; one that
cannot has a reason that no object gave. -/
theorem writeRequestBody_of_body {mediaType : Text} {raw : Bytes}
    (hbody : t.toRequest.body = .ok (.text mediaType, raw)) :
    (Call.writeRequestBody t.toRequest).writes
      = bodyWrites t.path (Content.toJson (.bytes raw) (.text mediaType)) := by
  have hredacted : Call.redactedBody t.toRequest
      = (Content.toJson (.bytes raw) (.text mediaType)).map fun s =>
          bodyWrites t.path (.ok s) := by
    unfold Call.redactedBody
    rw [hbody]
    show (Content.toJson (.bytes raw) (.text mediaType) >>= fun body => _) = _
    cases Content.toJson (.bytes raw) (.text mediaType) with
    | error e => rfl
    | ok s =>
        show (bodyValue (Value.ofText? t.path) (.text s) >>= fun v => _) = _
        rw [bodyValue_ofText?]
        show Call.writePresent _ (.text (redactBody t.path s))
          = .ok (bodyWrites t.path (.ok s))
        unfold bodyWrites
        dsimp only
        cases redactBody t.path s with
        | nil => rfl
        | cons c s => rfl
  unfold Call.writeRequestBody
  rw [hredacted]
  cases hjson : Content.toJson (.bytes raw) (.text mediaType) with
  | ok s => rfl
  | error e =>
      have hown := Content.isOwn_of_toJson rfl hjson
      show (if e.isOrdinary then _ else _ : Outcome).writes = _
      rw [if_pos hown.isOrdinary]
      dsimp only
      rw [hown.wording_eq]
      rfl

/-- A body that mentions a password leaves nothing but the placeholder. -/
theorem bodyWrites_of_mentionsPassword {path : Option Text} {s : Text}
    (hpath : path.any isSensitivePath = true)
    (hs : mentionsPassword s = true) :
    bodyWrites path (.ok s) = [(.requestBody, .text bodyPlaceholder)] := by
  have hredacted : redactBody path s = bodyPlaceholder := by
    unfold redactBody
    rw [hpath, hs]
    rfl
  show (if (redactBody path s).isEmpty then []
    else [(Field.requestBody, Value.text (redactBody path s))]) = _
  rw [hredacted]
  rfl

/-- What a request is written as: its parts, and its body if the filter lets
bodies be recorded and a REST request has one. -/
theorem writes_writeRequest :
    (Call.writeRequest t.toRequest f).writes
      = t.headWrites f ++
        (if f.logRequestBody && t.isRest then
          match t.toRequest.hasBody with
          | .ok true => (Call.writeRequestBody t.toRequest).writes
          | _ => []
        else []) := by
  unfold Call.writeRequest
  rw [writeRequestHead_toRequest]
  show t.headWrites f ++ (if f.logRequestBody && t.isRest then _
    else _ : Outcome).writes = _
  congr 1
  rw [apply_ite Outcome.writes]
  congr 1
  cases t.toRequest.hasBody with
  | error e => rfl
  | ok b =>
      cases b with
      | true => rfl
      | false => rfl

-- where the body comes from

/-- Content that is not empty. -/
def content? (t : TypedRequest) : Option RawContent :=
  t.content.filter fun c => !c.isEmpty

theorem truth_content :
    t.toRequest.content.truth = .ok t.content?.isSome := by
  unfold toRequest content?
  cases t.content with
  | none => rfl
  | some c =>
      cases c with
      | octets bytes => cases bytes <;> rfl
      | text s => cases s <;> rfl

theorem param_toRequest (name : Text) :
    t.toRequest.param name
      = .ok (Value.ofText? (t.params.entries.lookup name)) := by
  show Except.ok ((Value.lookupText (Value.encode .text t.params.entries)
    name).getD .null) = _
  rw [Value.lookupText_encode]
  cases t.params.entries.lookup name with
  | none => rfl
  | some s => rfl

/-- Content comes before a body in a parameter. -/
theorem body_of_content {c : RawContent} (hc : t.content? = some c) :
    t.toRequest.hasBody = .ok true
      ∧ t.toRequest.body = .ok (.text t.mediaType, c.bytes) := by
  have hpresent : t.toRequest.content.truth = .ok true := by
    rw [truth_content, hc]
    rfl
  unfold Request.hasBody Request.body
  rw [hpresent]
  refine ⟨rfl, ?_⟩
  have hcontent : t.content = some c := (Option.filter_eq_some_iff.mp hc).1
  unfold toRequest
  rw [hcontent]
  cases c with
  | octets bytes => rfl
  | text s => rfl

/-- Without content the body is the parameter that carries one. -/
theorem body_of_source {source mediaType : Text} (hc : t.content? = none)
    (hs : t.params.entries.lookup Request.sourceParam = some source)
    (hsource : source ≠ [])
    (hm : t.params.entries.lookup Request.sourceTypeParam = some mediaType)
    (hmediaType : mediaType ≠ []) :
    t.toRequest.hasBody = .ok true
      ∧ t.toRequest.body = .ok (.text mediaType, Utf8.encode source) := by
  have habsent : t.toRequest.content.truth = .ok false := by
    rw [truth_content, hc]
    rfl
  have hpresent : ∀ s : Text, s ≠ [] →
      (Value.ofText? (some s)).truth = .ok true :=
    fun s h => Value.truth_eq_true_iff.mpr (Value.truthy_text h)
  unfold Request.hasBody Request.body
  rw [habsent, param_toRequest, param_toRequest, hs, hm]
  refine ⟨hpresent source hsource, ?_⟩
  show (do
    if ← (Value.ofText? (some source)).truth then
      if ← (Value.ofText? (some mediaType)).truth then _ else _ else _) = _
  rw [hpresent source hsource, hpresent mediaType hmediaType]
  rfl

end TypedRequest

end AuditTrail
