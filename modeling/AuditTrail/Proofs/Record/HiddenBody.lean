/-
Bodies sent to the endpoints that administer accounts.

Such a body is recorded as the placeholder if it mentions a password once
it is converted. Whatever follows the endpoint in the path is meant to be
covered; but the test reads the path as one line. A path that goes on after
a line feed is taken for one that leads elsewhere, and the body is recorded
with the password in it. Content that mentions a password is never empty, so
it is what the record is made from (`conversion_of_mentions`).
-/
import AuditTrail.Proofs.Record.BodyForms
import AuditTrail.Proofs.Record.SourceParam

namespace AuditTrail

open Redaction

namespace Request

variable {q : Request} {out : Text}

-- ============================================================= content

/-- Nothing that empty content is converted to mentions a password. -/
theorem truthy_of_mentions (hq : q.WellTyped)
    (hout : Content.toJson q.content q.mediaType = .ok out)
    (hmentions : mentionsPassword out = true) : q.content.truthy = true := by
  have hempty : Content.toJson (.bytes []) q.mediaType ≠ .ok out := by
    intro h
    obtain ⟨fmt, hfmt⟩ := Content.toJson_eq_ok (s := []) rfl h
    have hnone : ∀ fmt : Content.Format,
        (fmt.convert? []).all (fun out => !mentionsPassword out) = true := by
      intro fmt
      cases fmt <;> decide +kernel
    have hall := hnone fmt
    rw [hfmt, Option.all_some, hmentions] at hall
    cases hall
  rcases hq.content with (hnull | htext) | ⟨octets, hoctets⟩
  · -- nothing at all is neither text nor octets
    rw [hnull] at hout
    obtain ⟨base, -, hout⟩ := exists_of_bind_eq_ok hout
    obtain ⟨s, hs, -⟩ := exists_of_bind_eq_ok hout
    cases hs
  · obtain ⟨s, hs⟩ := Option.isSome_iff_exists.mp htext
    rw [Content.toJson_of_text? hs] at hout
    cases hcontent : q.content with
    | text s' =>
        refine Value.truthy_text ?_
        rintro rfl
        rw [hcontent] at hs
        cases hs
        exact hempty hout
    | term t => rfl
    | _ =>
        rw [hcontent] at hs
        cases hs
  · rw [hoctets] at hout ⊢
    cases octets with
    | nil => exact absurd hout hempty
    | cons b rest => rfl

/-- So content that mentions a password is what the record is made from. -/
theorem conversion_of_mentions (hq : q.WellTyped)
    (hout : Content.toJson q.content q.mediaType = .ok out)
    (hmentions : mentionsPassword out = true) :
    q.CarriesBody ∧ q.conversion.result = .ok out := by
  have hcontent := truthy_of_mentions hq hout hmentions
  exact ⟨.inl hcontent, (conversion_of_content hq hcontent).trans hout⟩

end Request

-- ============================================================== record

/-- A body that was converted is recorded as redaction shows it. -/
theorem Filter.RecordsBody.get?_requestBody {f : Filter} {q : Request}
    {out : Text} (hrecords : f.RecordsBody q) (hq : q.WellTyped)
    (hout : q.conversion.result = .ok out) (hne : out ≠ []) (h : Host)
    (r : Record) :
    (r.apply h (.adding q f)).get? .requestBody
      = some (.text (redactBody q.path.text? out)) := by
  obtain ⟨hbody, -⟩ :=
    hrecords.added hq h r (e := .recorded out hne) hout.symm
  rw [hbody]
  exact Record.get?_putAll_singleton _ _ _

/-- A body that mentions a password and is sent below an endpoint that
administers accounts is recorded as the placeholder exactly if the path is
one line; otherwise it is recorded as it was converted. -/
theorem body_hidden_iff (h : Host) (r : Record) (f : Filter) {q : Request}
    {path tail out : Text} (hq : q.WellTyped) (hrest : q.isRest = true)
    (hlog : f.logRequestBody = true) (hpath : q.path.text? = some path)
    (hbelow : BelowEndpoint path tail)
    (hout : Content.toJson q.content q.mediaType = .ok out)
    (hmentions : mentionsPassword out = true) :
    (r.apply h (.adding q f)).get? .requestBody
        = some (.text (if '\n' ∈ tail then out else bodyPlaceholder))
      ∧ ((r.apply h (.adding q f)).get? .requestBody
          = some (.text bodyPlaceholder) ↔ '\n' ∉ tail) := by
  obtain ⟨hcarries, hresult⟩ :=
    Request.conversion_of_mentions hq hout hmentions
  have hrecorded := Filter.RecordsBody.get?_requestBody
    ⟨hlog, hrest, hcarries⟩ hq hresult (ne_nil_of_mentionsPassword hmentions)
    h r
  rw [hpath, hbelow.redactBody_eq hmentions] at hrecorded
  refine ⟨hrecorded, ?_⟩
  rw [hrecorded]
  by_cases htail : '\n' ∈ tail
  · simp [htail, ne_placeholder_of_mentionsPassword hmentions]
  · simp [htail]

/-- A path below the endpoint of one's own account. -/
def belowAccount (tail : Text) : Text :=
  "/_plugins/_security/api/account".toList ++ tail

theorem belowEndpoint_belowAccount (tail : Text) :
    BelowEndpoint (belowAccount tail) tail :=
  ⟨_, List.mem_cons_of_mem _ List.mem_cons_self, _, List.mem_cons_self, rfl⟩

/-- A new password for an account. -/
def passwordBelow (tail : Text) : Request where
  isRest := true
  path := .text (belowAccount tail)
  method := .term (.method .put)
  headers := .map []
  params := .map []
  content := .text (passwordUnder "password".toList)
  mediaType := .text "application/json".toList

theorem wellTyped_passwordBelow (tail : Text) :
    (passwordBelow tail).WellTyped where
  path := .inr rfl
  method := .inr ⟨_, rfl⟩
  headers := ⟨[], rfl, by simp, by simp, by simp⟩
  params := ⟨[], rfl, by simp, by simp, by simp⟩
  content := .inl (.inr rfl)
  mediaType := rfl

/-- Its content is converted to what it is. -/
theorem toJson_passwordBelow (tail : Text) :
    Content.toJson (passwordBelow tail).content (passwordBelow tail).mediaType
      = .ok (passwordUnder "password".toList) :=
  (Content.toJson_of_text? rfl _).trans
    (toJson_passwordUnder List.mem_cons_self)

/-- On one line the password is hidden. -/
theorem body_hidden_iff_details :
    (Record.apply Record.bareHost ⟨[]⟩
        (.adding (passwordBelow "/details".toList) .standard)).get?
      .requestBody = some (.text bodyPlaceholder) := by
  obtain ⟨-, hhidden⟩ := body_hidden_iff Record.bareHost ⟨[]⟩ .standard
    (wellTyped_passwordBelow "/details".toList) rfl rfl
    (show (passwordBelow "/details".toList).path.text?
      = some (belowAccount "/details".toList) from rfl)
    (belowEndpoint_belowAccount _) (toJson_passwordBelow _)
    mentionsPassword_passwordUnder
  exact hhidden.mpr (by simp)

/-- After a line feed it is recorded. -/
theorem body_shown :
    ¬ ∀ (h : Host) (r : Record) (f : Filter) (q : Request)
        (path tail out : Text),
      q.WellTyped → q.isRest = true → f.logRequestBody = true →
      q.path.text? = some path → BelowEndpoint path tail →
      Content.toJson q.content q.mediaType = .ok out →
      mentionsPassword out = true →
      (r.apply h (.adding q f)).get? .requestBody
        = some (.text bodyPlaceholder) := by
  intro hall
  have hhidden := hall Record.bareHost ⟨[]⟩ .standard (passwordBelow ['\n'])
    (belowAccount ['\n']) ['\n'] _ (wellTyped_passwordBelow _) rfl rfl rfl
    (belowEndpoint_belowAccount _) (toJson_passwordBelow _)
    mentionsPassword_passwordUnder
  have hconverted := Request.conversion_of_mentions
    (wellTyped_passwordBelow ['\n']) (toJson_passwordBelow _)
    mentionsPassword_passwordUnder
  have hshown := Filter.RecordsBody.get?_requestBody (f := .standard)
    ⟨rfl, rfl, hconverted.1⟩ (wellTyped_passwordBelow ['\n']) hconverted.2
    (List.cons_ne_nil _ _) Record.bareHost ⟨[]⟩
  rw [hhidden, show (passwordBelow ['\n']).path.text?
      = some (belowAccount ['\n']) from rfl,
    (belowEndpoint_belowAccount ['\n']).redactBody_eq
      mentionsPassword_passwordUnder, if_pos List.mem_cons_self] at hshown
  exact ne_placeholder_of_mentionsPassword mentionsPassword_passwordUnder
    (Value.text.inj (Option.some.inj hshown)).symm

end AuditTrail
