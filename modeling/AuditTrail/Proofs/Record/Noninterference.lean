/-
What a record keeps secret of a request.

Two requests that differ in dropped headers, in the values of masked
parameters, in bodies that are hidden or in bodies that cannot be read
(`Alike`) leave the same record behind. The two runs are compared part by
part on the writes of `TypedRequest.headWrites` and
`TypedRequest.bodyWrites`: what a part writes is a function of what the
filter lets through.
-/
import AuditTrail.Proofs.Record.TypedRequest
import Mathlib.Data.List.Forall2

namespace AuditTrail

open Redaction

namespace TypedRequest

variable {f : Filter} {a b t : TypedRequest}

-- ====================================================== like requests

/-- What the content of a request is converted to, if there is content. -/
def converted (t : TypedRequest) : Option (Except Fault Text) :=
  t.content?.map fun c =>
    Content.toJson (.bytes c.bytes) (.text t.mediaType)

/-- Whether two requests have content that is recorded in the same way. -/
inductive LikeContent (a b : TypedRequest) : Prop
  | same (present : a.content?.isSome) (content : a.content = b.content)
      (mediaType : a.mediaType = b.mediaType)
  | hidden {s t : Text} (sensitive : a.path.any isSensitivePath = true)
      (left : a.converted = some (.ok s)) (right : b.converted = some (.ok t))
      (mentions : mentionsPassword s = true)
      (mentions' : mentionsPassword t = true)
  | unreadable {e e' : Fault} (left : a.converted = some (.error e))
      (right : b.converted = some (.error e'))

/-- Whether two requests differ in what a filter lets nobody see only. -/
structure Alike (f : Filter) (a b : TypedRequest) : Prop where
  isRest : a.isRest = b.isRest
  path : a.path = b.path
  method : a.method = b.method
  someHeaders : a.headers.entries.isEmpty = b.headers.entries.isEmpty
  headers : (a.headers.entries.filter fun e => f.keepsHeader e.1)
    = b.headers.entries.filter fun e => f.keepsHeader e.1
  params : List.Forall₂ (fun d e =>
      d.1 = e.1 ∧ (f.excludesUrlParam d.1 = true ∨ d.2 = e.2))
    a.params.entries b.params.entries
  body : f.logRequestBody = false ∨ a.isRest = false ∨ LikeContent a b

-- ========================================================= part by part

/-- What is shown of a parameter does not depend on a masked value. -/
theorem shownParam_congr (hpath : a.path = b.path) {d e : Text × Text}
    (hname : d.1 = e.1)
    (hvalue : f.excludesUrlParam d.1 = true ∨ d.2 = e.2) :
    a.shownParam f d = b.shownParam f e := by
  unfold shownParam
  rcases hvalue with hmasked | hsame
  · rw [if_pos hmasked, ← hname, if_pos hmasked]
  · unfold paramValue
    rw [hname, hsame, hpath]

/-- So the shown parameters agree, and there are none on one side only. -/
theorem shownParams_congr (hpath : a.path = b.path)
    {l l' : List (Text × Text)}
    (h : List.Forall₂ (fun d e =>
      d.1 = e.1 ∧ (f.excludesUrlParam d.1 = true ∨ d.2 = e.2)) l l') :
    l.isEmpty = l'.isEmpty
      ∧ l.map (fun e => (e.1, a.shownParam f e))
        = l'.map fun e => (e.1, b.shownParam f e) := by
  induction h with
  | nil => exact ⟨rfl, rfl⟩
  | cons hd _ ih =>
      refine ⟨rfl, ?_⟩
      rw [List.map_cons, List.map_cons, ih.2, shownParam_congr hpath hd.1 hd.2,
        hd.1]

theorem headWrites_congr (h : Alike f a b) :
    a.headWrites f = b.headWrites f := by
  obtain ⟨hsome, hparams⟩ := shownParams_congr h.path h.params
  unfold headWrites entryWrites
  rw [h.path, h.method, h.someHeaders, h.headers, hsome, hparams]

/-- Content that there is decides alone what is written of a body. -/
theorem writes_of_converted {x : Except Fault Text}
    (hx : t.converted = some x) :
    t.toRequest.hasBody = .ok true
      ∧ (Call.writeRequestBody t.toRequest).writes = bodyWrites t.path x := by
  obtain ⟨c, hc, rfl⟩ := Option.map_eq_some_iff.mp hx
  obtain ⟨hhas, hbody⟩ := body_of_content hc
  exact ⟨hhas, writeRequestBody_of_body hbody⟩

/-- Like content is written alike, and there is content on both sides. -/
theorem LikeContent.writes (hpath : a.path = b.path) (h : LikeContent a b) :
    a.toRequest.hasBody = .ok true ∧ b.toRequest.hasBody = .ok true
      ∧ (Call.writeRequestBody a.toRequest).writes
        = (Call.writeRequestBody b.toRequest).writes := by
  obtain ⟨x, y, hx, hy, hxy⟩ : ∃ x y, a.converted = some x
      ∧ b.converted = some y ∧ bodyWrites a.path x = bodyWrites b.path y := by
    cases h with
    | same present content mediaType =>
        obtain ⟨c, hc⟩ := Option.isSome_iff_exists.mp present
        have hb : b.converted = a.converted := by
          unfold converted content?
          rw [content, mediaType]
        have ha : a.converted = some _ := congrArg _ hc
        exact ⟨_, _, ha, hb.trans ha, by rw [hpath]⟩
    | hidden sensitive left right mentions mentions' =>
        refine ⟨_, _, left, right, ?_⟩
        rw [bodyWrites_of_mentionsPassword sensitive mentions,
          bodyWrites_of_mentionsPassword (hpath ▸ sensitive) mentions']
    | unreadable left right => exact ⟨_, _, left, right, rfl⟩
  obtain ⟨hasA, writesA⟩ := writes_of_converted hx
  obtain ⟨hasB, writesB⟩ := writes_of_converted hy
  exact ⟨hasA, hasB, by rw [writesA, writesB, hxy]⟩

end TypedRequest

-- ================================================== the same record

/-- Requests that differ only in what a filter lets nobody see leave the
same record behind: dropped headers, masked parameters, hidden bodies and
bodies that cannot be read leave no trace. -/
theorem record_of_alike (h : Host) (f : Filter) (r : Record)
    (a b : TypedRequest) (halike : TypedRequest.Alike f a b) :
    r.apply h (.request (.request a.toRequest) (.given f))
      = r.apply h (.request (.request b.toRequest) (.given f)) := by
  show r.putAll (Call.writeRequest a.toRequest f).writes
    = r.putAll (Call.writeRequest b.toRequest f).writes
  congr 1
  rw [TypedRequest.writes_writeRequest, TypedRequest.writes_writeRequest,
    TypedRequest.headWrites_congr halike]
  congr 1
  rcases halike.body with hlog | hrest | hcontent
  · rw [hlog]
    rfl
  · rw [← halike.isRest, hrest, Bool.and_false]
    rfl
  · obtain ⟨hasA, hasB, hwrites⟩ := hcontent.writes halike.path
    rw [hasA, hasB, hwrites, halike.isRest]

theorem TypedRequest.converted_eq_ok {t : TypedRequest} {s : Text}
    (h : t.converted.bind Except.toOption = some s) :
    t.converted = some (.ok s) := by
  obtain ⟨x, hx, hs⟩ := Option.bind_eq_some_iff.mp h
  rw [hx, eq_ok_of_toOption hs]

/-- A change of an account's password, with credentials and a token. -/
def passwordChange (credentials : List Text) (token password : Text) :
    TypedRequest where
  isRest := true
  path := some "/_plugins/_security/api/account".toList
  method := some .put
  headers :=
    ⟨[("Authorization".toList, credentials), ("Host".toList, ["h".toList])],
      by simp⟩
  params := ⟨[("token".toList, token), ("pretty".toList, [])], by simp⟩
  content := some (.text ("\x7b\x22password\x22:\x22".toList ++ password
    ++ "\x22\x7d".toList))
  mediaType := Request.defaultMediaType

theorem record_of_alike_passwordChange :
    Record.apply Record.bareHost ⟨[]⟩
        (.request (.request (passwordChange [['a']] ['1'] ['x']).toRequest)
          (.given ⟨true, true, [], ["token".toList]⟩))
      = Record.apply Record.bareHost ⟨[]⟩
        (.request (.request (passwordChange [] ['2'] ['y', 'z']).toRequest)
          (.given ⟨true, true, [], ["token".toList]⟩)) := by
  refine record_of_alike _ _ _ _ _ ?_
  refine ⟨rfl, rfl, rfl, rfl, by decide +kernel, ?_, ?_⟩
  · exact .cons ⟨rfl, .inl (by decide +kernel)⟩ (.cons ⟨rfl, .inr rfl⟩ .nil)
  · refine .inr (.inr (.hidden
      (s := "\x7b\x22password\x22:\x22x\x22\x7d".toList)
      (t := "\x7b\x22password\x22:\x22yz\x22\x7d".toList)
      ?_ ?_ ?_ ?_ ?_))
    · decide +kernel
    · exact TypedRequest.converted_eq_ok (by decide +kernel)
    · exact TypedRequest.converted_eq_ok (by decide +kernel)
    · decide +kernel
    · decide +kernel

end AuditTrail
