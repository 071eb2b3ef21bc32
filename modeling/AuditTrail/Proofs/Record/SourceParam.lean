/-
The body that a parameter carries is recorded twice: as the body of the
request and, under its own name, among the parameters.

Both copies go through the same redaction, but not in the same form. The
body is converted to JSON text first, so that every spelling of a key is
one; the parameter is searched as it came. Where the word appears only after
conversion (an escaped letter is enough), the body is hidden and the
parameter shows what it hid. The two copies agree exactly if the word stands
in the parameter as it came, or the filter masks it.
-/
import AuditTrail.Proofs.Record.TypedRequest
import AuditTrail.Proofs.Redaction.Body

namespace AuditTrail

open Redaction

-- ============================================ conversion by format alone

namespace Content

/-- What a text of some format is converted to, if it can be. -/
def Format.convert? (s : Text) : Format → Option Text
  | .json => (restate s).toOption
  | .yaml => (Yaml.read s).toOption.bind fun v => (dump v).toOption
  | .jsonLines =>
      (((Text.lines s).filter fun line => !Text.isAllBlank line).mapM
        restate).toOption.map (Text.joinWith ['\n'])

variable {base s out : Text} {raw : Bytes} {mediaType : Value}

theorem ofJson_eq_ok (h : ofJson base s = .ok out) :
    Format.json.convert? s = some out := by
  unfold ofJson at h
  split at h
  case h_1 heq =>
    cases h
    exact congrArg Except.toOption heq
  case h_2 => cases h

theorem ofJsonLines_eq_ok (h : ofJsonLines base s = .ok out) :
    Format.jsonLines.convert? s = some out := by
  unfold ofJsonLines at h
  split at h
  case h_1 outs heq =>
    cases h
    exact congrArg (fun x => (Except.toOption x).map (Text.joinWith ['\n'])) heq
  case h_2 => cases h

theorem ofYaml_eq_ok (h : ofYaml base s = .ok out) :
    Format.yaml.convert? s = some out := by
  -- a fault of any kind stays one, whatever it is reported as
  have hfault : ∀ {b : Prop} [Decidable b] {e : Fault} {reason : Text},
      (if b then refuse base reason e.message else .error e)
        ≠ (.ok out : Except Fault Text) := by
    intro b _ e reason heq
    split at heq
    · cases heq
    · cases heq
  unfold ofYaml at h
  dsimp only at h
  split at h
  case h_1 => exact absurd h hfault
  case h_2 => cases h
  case h_3 v heq =>
    split at h
    case h_2 => exact absurd h hfault
    case h_1 out' hdump =>
      cases h
      show (Yaml.read s).toOption.bind (fun v => (dump v).toOption) = _
      rw [heq]
      exact congrArg Except.toOption hdump

/-- The media type has no part in a conversion but the format. -/
theorem toJson_eq_ok (hraw : Utf8.decode raw = .ok s)
    (h : toJson (.bytes raw) mediaType = .ok out) :
    ∃ fmt : Format, fmt.convert? s = some out := by
  have htext : ∀ base, text (.bytes raw) base = .ok s := by
    intro base
    unfold text
    dsimp only [Value.text?, octets]
    rw [hraw]
  obtain ⟨base, -, h⟩ := exists_of_bind_eq_ok h
  obtain ⟨s', hs', h⟩ := exists_of_bind_eq_ok h
  rw [htext] at hs'
  cases hs'
  split at h
  · exact ⟨.json, ofJson_eq_ok h⟩
  · exact ⟨.yaml, ofYaml_eq_ok h⟩
  · exact ⟨.jsonLines, ofJsonLines_eq_ok h⟩
  · obtain ⟨_, -, h⟩ := exists_of_bind_eq_ok h
    cases h

end Content

-- ===================================================== the two copies

/-- What a record holds of the parameter that carries a body. -/
def Record.source? (r : Record) : Option Value :=
  match r.get? .restRequestParams with
  | some (.map entries) => Value.lookupText entries Request.sourceParam
  | _ => none

/-- Whether an operation hides the body of a request. -/
def Call.HidesBody (h : Host) (node : Value) (c : Call) : Prop :=
  (.requestBody, .text bodyPlaceholder) ∈ (c.outcome h node).writes

namespace TypedRequest

variable {h : Host} {f : Filter} {r : Record} {t : TypedRequest}
  {source mediaType out : Text}

/-- Whether a request without content has its body in a parameter, on a path
that leads to an endpoint that administers accounts. -/
structure HasSource (t : TypedRequest) (source mediaType : Text) : Prop where
  isRest : t.isRest = true
  sensitive : t.path.any isSensitivePath = true
  noContent : t.content? = none
  found : t.params.entries.lookup Request.sourceParam = some source
  nonempty : source ≠ []
  typeFound : t.params.entries.lookup Request.sourceTypeParam
    = some mediaType
  typeNonempty : mediaType ≠ []

/-- What is shown under a name is what is shown of what stands there. -/
theorem lookup_map_value {l : List (Text × Text)} {k v : Text}
    (g : Text × Text → Text) (hl : l.lookup k = some v) :
    (l.map fun e => (e.1, g e)).lookup k = some (g (k, v)) := by
  obtain ⟨l₁, l₂, rfl, hnot⟩ := List.lookup_eq_some_iff.mp hl
  refine List.lookup_eq_some_iff.mpr ⟨l₁.map fun e => (e.1, g e),
    l₂.map fun e => (e.1, g e), ?_, ?_⟩
  · rw [List.map_append, List.map_cons]
  · intro e he
    obtain ⟨d, hd, rfl⟩ := List.mem_map.mp he
    exact hnot d hd

/-- No part of a request after the parameters is recorded with them. -/
theorem params_notMem_rest (t : TypedRequest) (f : Filter) :
    ∀ w ∈ methodWrites t.method ++
      (if f.logRequestBody && t.isRest then
        match t.toRequest.hasBody with
        | .ok true => (Call.writeRequestBody t.toRequest).writes
        | _ => []
      else []), w.1 ≠ .restRequestParams := by
  refine List.forall_mem_append.mpr ⟨?_, ?_⟩
  · cases t.method with
    | none => exact fun w hw => absurd hw List.not_mem_nil
    | some m => exact List.forall_mem_singleton.mpr (by simp)
  · have hbody : ∀ w ∈ (Call.writeRequestBody t.toRequest).writes,
        w.1 ≠ .restRequestParams :=
      Call.every_writeRequestBody fun v _ _ => by simp
    split
    case isFalse => exact fun w hw => absurd hw List.not_mem_nil
    case isTrue =>
      split
      · exact hbody
      · exact fun w hw => absurd hw List.not_mem_nil

/-- A parameter that stands in a request stands in the record, masked,
redacted or as it is. -/
theorem source?_apply
    (hs : t.params.entries.lookup Request.sourceParam = some source) :
    (r.apply h (.request (.request t.toRequest) (.given f))).source?
      = some (.text (t.shownParam f (Request.sourceParam, source))) := by
  have hparams : t.params.entries.isEmpty = false := by
    cases hl : t.params.entries with
    | nil =>
        rw [hl] at hs
        cases hs
    | cons e l => rfl
  have hget : (r.apply h (.request (.request t.toRequest) (.given f))).get?
      .restRequestParams
      = some (.map (Value.encode .text
          (t.params.entries.map fun e => (e.1, t.shownParam f e)))) := by
    show (r.putAll (Call.writeRequest t.toRequest f).writes).get? _ = _
    rw [writes_writeRequest, headWrites]
    unfold entryWrites
    rw [hparams, if_neg Bool.false_ne_true, List.append_assoc,
      List.append_assoc, List.append_assoc, List.singleton_append,
      ← List.append_assoc]
    exact Record.get?_putAll_append (params_notMem_rest t f) _ _
  unfold Record.source?
  rw [hget]
  show Value.lookupText (Value.encode .text _) _ = _
  rw [Value.lookupText_encode, lookup_map_value _ hs]
  rfl

/-- The placeholder stands for a body that was converted. -/
theorem exists_of_mem_bodyWrites {path : Option Text}
    {x : Except Fault Text}
    (hx : (.requestBody, .text bodyPlaceholder) ∈ bodyWrites path x) :
    ∃ out, x = .ok out ∧ redactBody path out = bodyPlaceholder := by
  unfold bodyWrites at hx
  split at hx
  case h_1 out =>
    split at hx
    case isTrue => cases hx
    case isFalse =>
      refine ⟨out, rfl, ?_⟩
      have heq := List.mem_singleton.mp hx
      injection heq with _ hvalue
      injection hvalue with htext
      exact htext.symm
  case h_2 =>
    have heq := List.mem_singleton.mp hx
    injection heq with _ hvalue
    injection hvalue with htext
    exact absurd htext (by decide)

/-- A body that is hidden came out of a conversion. -/
theorem HasSource.exists_of_hidesBody (hs : t.HasSource source mediaType)
    (hhidden : (Call.request (.request t.toRequest) (.given f)).HidesBody h
      r.node) :
    ∃ out, Content.toJson (.bytes (Utf8.encode source)) (.text mediaType)
        = .ok out
      ∧ redactBody t.path out = bodyPlaceholder := by
  have hhead : ∀ w ∈ t.headWrites f, w.1 ≠ .requestBody := by
    have hwrites : (Call.writeRequestHead t.toRequest f).Every
        fun w => w.1 ≠ .requestBody := by
      refine Call.every_writeRequestHead ?_ ?_ ?_ ?_
      all_goals intros; simp
    rw [writeRequestHead_toRequest] at hwrites
    exact hwrites
  obtain ⟨hhas, hbody⟩ := body_of_source hs.noContent hs.found hs.nonempty
    hs.typeFound hs.typeNonempty
  change _ ∈ (Call.writeRequest t.toRequest f).writes at hhidden
  rw [writes_writeRequest, hhas] at hhidden
  rcases List.mem_append.mp hhidden with hmem | hmem
  · exact absurd rfl (hhead _ hmem)
  · split at hmem
    case isFalse => cases hmem
    case isTrue =>
      refine exists_of_mem_bodyWrites ?_
      rw [← writeRequestBody_of_body hbody]
      exact hmem

/-- A body that mentions a password once it is converted is hidden, if
bodies are recorded at all. -/
theorem HasSource.hidesBody (hs : t.HasSource source mediaType)
    (hlog : f.logRequestBody = true)
    (hout : Content.toJson (.bytes (Utf8.encode source)) (.text mediaType)
      = .ok out) (hmentions : mentionsPassword out = true) :
    (Call.request (.request t.toRequest) (.given f)).HidesBody h r.node := by
  obtain ⟨hhas, hbody⟩ := body_of_source hs.noContent hs.found hs.nonempty
    hs.typeFound hs.typeNonempty
  show _ ∈ (Call.writeRequest t.toRequest f).writes
  rw [writes_writeRequest, hhas, hlog, hs.isRest]
  refine List.mem_append_right _ ?_
  show _ ∈ (Call.writeRequestBody t.toRequest).writes
  rw [writeRequestBody_of_body hbody, hout,
    bodyWrites_of_mentionsPassword hs.sensitive hmentions]
  exact List.mem_singleton_self _

/-- The texts that stand in place of others mention no password themselves,
in whatever format they are read. -/
theorem redactBody_ne_placeholder
    (hsource : source ∈ [maskedParam, bodyPlaceholder])
    {path : Option Text} {mediaType : Value}
    (hout : Content.toJson (.bytes (Utf8.encode source)) mediaType = .ok out) :
    redactBody path out ≠ bodyPlaceholder := by
  have hplain : ∀ s ∈ [maskedParam, bodyPlaceholder],
      (Utf8.decode (Utf8.encode s)).toOption = some s
      ∧ ∀ fmt : Content.Format, (fmt.convert? s).all (fun out =>
          !mentionsPassword out && out != bodyPlaceholder) = true := by
    simp only [List.forall_mem_cons]
    refine ⟨⟨by decide +kernel, fun fmt => ?_⟩,
      ⟨by decide +kernel, fun fmt => ?_⟩, by simp⟩
    · cases fmt <;> decide +kernel
    · cases fmt <;> decide +kernel
  obtain ⟨hdecode, hformats⟩ := hplain source hsource
  obtain ⟨fmt, hfmt⟩ := Content.toJson_eq_ok (eq_ok_of_toOption hdecode) hout
  have hall := hformats fmt
  rw [hfmt, Option.all_some, Bool.and_eq_true, Bool.not_eq_true', bne_iff_ne]
    at hall
  unfold redactBody
  rw [hall.1, Bool.and_false]
  exact hall.2

end TypedRequest

-- ====================================================== their agreement

/-- Where the body is hidden, the parameter is recorded masked, redacted or
as it came; it hides what the body hides exactly if the filter masks it or
the word stands in it as it came. -/
theorem source_hidden_iff (h : Host) (f : Filter) (r : Record)
    (t : TypedRequest) (source mediaType : Text)
    (hs : t.HasSource source mediaType)
    (hhidden : (Call.request (.request t.toRequest) (.given f)).HidesBody h
      r.node) :
    (r.apply h (.request (.request t.toRequest) (.given f))).source?
        = some (.text (if f.excludesUrlParam Request.sourceParam then
            maskedParam
          else if mentionsPassword source then bodyPlaceholder
          else source))
      ∧ (((r.apply h (.request (.request t.toRequest) (.given f))).source?
              = some (.text bodyPlaceholder)
            ∨ (r.apply h (.request (.request t.toRequest) (.given f))).source?
              = some (.text maskedParam))
          ↔ f.excludesUrlParam Request.sourceParam = true
            ∨ mentionsPassword source = true) := by
  have hshown : t.shownParam f (Request.sourceParam, source)
      = if f.excludesUrlParam Request.sourceParam then maskedParam
        else if mentionsPassword source then bodyPlaceholder
        else source := by
    unfold TypedRequest.shownParam
    rw [TypedRequest.paramValue_of_eq rfl]
    unfold redactBody
    rw [hs.sensitive, Bool.true_and]
  rw [TypedRequest.source?_apply hs.found, hshown]
  refine ⟨rfl, ?_⟩
  by_cases hmasked : f.excludesUrlParam Request.sourceParam = true
  · rw [if_pos hmasked]
    exact ⟨fun _ => .inl hmasked, fun _ => .inr rfl⟩
  by_cases hmentions : mentionsPassword source = true
  · rw [if_neg hmasked, if_pos hmentions]
    exact ⟨fun _ => .inr hmentions, fun _ => .inl rfl⟩
  rw [if_neg hmasked, if_neg hmentions]
  -- the parameter is recorded as it came, and is neither of the two texts
  obtain ⟨out, hout, hredacted⟩ := hs.exists_of_hidesBody hhidden
  have hplain : source ∉ [maskedParam, bodyPlaceholder] := fun hmem =>
    TypedRequest.redactBody_ne_placeholder hmem hout hredacted
  refine iff_of_false ?_ (not_or.mpr ⟨hmasked, hmentions⟩)
  rintro (heq | heq)
  · cases heq
    exact hplain (List.mem_cons_of_mem _ (List.mem_singleton_self _))
  · cases heq
    exact hplain List.mem_cons_self

/-- A new password in JSON text, under a key with some spelling. -/
def passwordUnder (key : Text) : Text :=
  "\x7b\x22".toList ++ key ++ "\x22:\x22x\x22\x7d".toList

/-- A request that has it in a parameter. -/
def passwordInSource (key : Text) : TypedRequest where
  isRest := true
  path := some "/_plugins/_security/api/internalusers/alice".toList
  method := none
  headers := ⟨[], List.nodup_nil⟩
  params :=
    ⟨[("source".toList, passwordUnder key),
      ("source_content_type".toList, "application/json".toList)], by simp⟩
  content := none
  mediaType := Request.defaultMediaType

theorem hasSource_passwordInSource (key : Text) :
    (passwordInSource key).HasSource (passwordUnder key)
      "application/json".toList where
  isRest := rfl
  sensitive := by
    unfold passwordInSource
    rw [Option.any_some]
    decide +kernel
  noContent := rfl
  found := rfl
  nonempty := List.cons_ne_nil _ _
  typeFound := rfl
  typeNonempty := List.cons_ne_nil _ _

/-- The spellings of the key that stand for the word. -/
def passwordKeys : List Text := ["password".toList, "pass\\u0077ord".toList]

/-- Either spelling is converted to the same. -/
theorem toJson_passwordUnder {key : Text} (hkey : key ∈ passwordKeys) :
    Content.toJson (.bytes (Utf8.encode (passwordUnder key)))
        (.text "application/json".toList)
      = .ok (passwordUnder "password".toList) := by
  have hout : ∀ key ∈ passwordKeys,
      (Content.toJson (.bytes (Utf8.encode (passwordUnder key)))
        (.text "application/json".toList)).toOption
        = some (passwordUnder "password".toList) := by
    decide +kernel
  exact eq_ok_of_toOption (hout key hkey)

theorem mentionsPassword_passwordUnder :
    mentionsPassword (passwordUnder "password".toList) = true :=
  mentionsPassword_iff.mpr ⟨"\x7b\x22".toList, "\x22:\x22x\x22\x7d".toList, rfl⟩

/-- Both spellings of the key hide the body. -/
theorem hidesBody_passwordInSource {key : Text}
    (hkey : key ∈ passwordKeys) :
    (Call.request (.request (passwordInSource key).toRequest)
        (.given .standard)).HidesBody
      Record.bareHost (Record.node ⟨[]⟩) :=
  (hasSource_passwordInSource key).hidesBody (f := .standard) rfl
    (toJson_passwordUnder hkey) mentionsPassword_passwordUnder

/-- Spelled as it is, the word is found in both copies. -/
theorem source_hidden_iff_passwordInSource :
    (Record.apply Record.bareHost ⟨[]⟩
      (.request (.request (passwordInSource "password".toList).toRequest)
        (.given .standard))).source? = some (.text bodyPlaceholder) := by
  obtain ⟨hsource, -⟩ := source_hidden_iff _ .standard _ _ _ _
    (hasSource_passwordInSource "password".toList)
    (hidesBody_passwordInSource List.mem_cons_self)
  rw [hsource, if_neg (by decide +kernel), if_pos (by decide +kernel)]

/-- With an escaped letter the word is in the body, which is hidden, and not
in the parameter, which is recorded as it came. -/
theorem source_shown :
    ¬ ∀ (h : Host) (f : Filter) (r : Record) (t : TypedRequest)
        (source mediaType : Text),
      t.HasSource source mediaType → f.logRequestBody = true →
      (Call.request (.request t.toRequest) (.given f)).HidesBody h r.node →
      (r.apply h (.request (.request t.toRequest) (.given f))).source?
          = some (.text bodyPlaceholder)
        ∨ (r.apply h (.request (.request t.toRequest) (.given f))).source?
          = some (.text maskedParam) := by
  intro hall
  have hs := hasSource_passwordInSource "pass\\u0077ord".toList
  have hshown := hall _ _ _ _ _ _ hs rfl (hidesBody_passwordInSource
    (List.mem_cons_of_mem _ (List.mem_singleton_self _)))
  rw [TypedRequest.source?_apply hs.found] at hshown
  simp only [Option.some.injEq, Value.text.injEq] at hshown
  revert hshown
  decide +kernel

end AuditTrail
