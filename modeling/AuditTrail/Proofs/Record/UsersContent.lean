/-
No password hash reaches a record through the users document.

Four operations record content of the security configuration: its text, a
pair of media type and content, a mapping, and a difference. What they
write for the users document is redacted text or the note that the content
could not be converted (`every_outcome_of_isUsersContent`); neither holds a
hash. If the body and the difference come from no other operation, they
stay free of hashes for the whole life of the record
(`contentFree_run`).
-/
import AuditTrail.Proofs.Record.Writes
import AuditTrail.Proofs.Redaction.HashFree

namespace AuditTrail

open Redaction

variable {h : Host} {node : Value} {c : Call} {cs : List Call} {r : Record}
  {content document diff v : Value}

-- ============================================= redacted content by itself

namespace Redaction

/-- Content of the users document is redacted, unless it is missing. -/
theorem contentValue_of_users (hd : document.text? = some usersDocument)
    (hv : contentValue content document = .ok v) :
    v = .null ∨ ∃ s, v = .text (replaceHashes s) := by
  unfold contentValue at hv
  split at hv
  case h_1 =>
    cases hv
    exact .inl rfl
  case h_2 =>
    rw [if_pos hd] at hv
    cases hs : searchedText content with
    | error e =>
        rw [hs] at hv
        cases hv
    | ok s =>
        rw [hs] at hv
        cases hv
        exact .inr ⟨s, rfl⟩

end Redaction

/-- A value is text in which no hash stands. -/
def Value.HashFree (v : Value) : Prop :=
  ∃ s, v = .text s ∧ Redaction.HashFree s

/-- Redacted content that is present is text without hashes. -/
theorem hashFree_of_contentValue
    (hd : document.text? = some usersDocument)
    (hv : contentValue content document = .ok v)
    (hpresent : v.truthy = true) : v.HashFree := by
  rcases contentValue_of_users hd hv with rfl | ⟨s, rfl⟩
  · cases hpresent
  · exact ⟨_, rfl, hashFree_replaceHashes s⟩

theorem hashFree_conversionMarker :
    (Value.text Call.conversionMarker).HashFree :=
  ⟨_, rfl, hashFree_of_dollar_notMem (by decide)⟩

-- ========================================================= one operation

/-- The fields that hold content of documents. -/
def contentFields : List Field := [.requestBody, .complianceDiffContent]

/-- If a field holds content, the value is text without hashes. -/
def ContentFree (f : Field) (v : Value) : Prop :=
  f ∈ contentFields → v.HashFree

namespace Call

/-- Whether an operation records content of the users document. -/
def IsUsersContent : Call → Prop
  | .securityText _ document | .securityPair _ document
  | .securityMapping _ document | .securityWriteDiff _ document =>
      document.text? = some usersDocument
  | _ => False

/-- Whether an operation, on a record of some node, writes to a field that
holds content. -/
def WritesContent (h : Host) (node : Value) (c : Call) : Prop :=
  ∃ w ∈ (c.outcome h node).writes, w.1 ∈ contentFields

/-- Whether an operation writes content of the users document or no content
at all. -/
def OnlyUsersContent (h : Host) (node : Value) (c : Call) : Prop :=
  c.WritesContent h node → c.IsUsersContent

theorem every_outcome_of_isUsersContent (hc : c.IsUsersContent) :
    (c.outcome h node).Every fun w => ContentFree w.1 w.2 := by
  have hbody : ∀ source document : Value,
      document.text? = some usersDocument →
      EveryWrite (fun w => ContentFree w.1 w.2)
        (writeSecurityText source document) := by
    intro source document hd
    refine everyWrite_writeSecurityText fun v hv _ hpresent _ => ?_
    exact hashFree_of_contentValue hd hv hpresent
  have hconverted : ∀ (x : Except Fault Text) (document : Value),
      document.text? = some usersDocument →
      EveryWrite (fun w => ContentFree w.1 w.2)
        (writeSecurityBody x document) := by
    intro x document hd
    refine everyWrite_writeSecurityBody
      (fun _ => hashFree_conversionMarker) fun s v hv _ hpresent _ => ?_
    exact hashFree_of_contentValue hd hv hpresent
  cases c with
  | securityText source document => exact (hbody source document hc).outcome
  | securityPair content document =>
      simp only [outcome]
      split
      · exact Outcome.every_of_nil rfl
      · exact EveryWrite.outcome (hconverted _ document hc)
  | securityMapping mapping document =>
      refine EveryWrite.outcome (everyWrite_ifPresent fun _ => ?_)
      exact hconverted _ document hc
  | securityWriteDiff diff document =>
      refine EveryWrite.outcome (EveryWrite.bind fun v hv => ?_)
      refine everyWrite_writeDifference (fun _ hpresent _ => ?_) fun b hb => ?_
      · exact hashFree_of_contentValue hc hv hpresent
      · exact absurd hb (by simp [contentFields])
  | _ => exact hc.elim

/-- An operation that writes no content but the users document's keeps the
content fields free of hashes. -/
theorem OnlyUsersContent.every_outcome (hc : c.OnlyUsersContent h node) :
    (c.outcome h node).Every fun w => ContentFree w.1 w.2 := by
  intro w hw hf
  exact every_outcome_of_isUsersContent (hc ⟨w, hw, hf⟩) w hw hf

end Call

-- ================================================================== runs

namespace Record

/-- A run of such operations keeps the content fields free of hashes; which
operations they are is decided by the node alone, and that never changes. -/
theorem contentFree_run (hr : r.Every ContentFree)
    (hcs : ∀ c ∈ cs, c.OnlyUsersContent h r.node) :
    (r.run h cs).Every ContentFree := by
  generalize hnode : r.node = node at hcs
  refine (run_preserves (q := fun r => r.node = node ∧ r.Every ContentFree)
    (fun c hc r hr => ⟨?_, ?_⟩) ⟨hnode, hr⟩).2
  · rw [node_apply, hr.1]
  · refine hr.2.putAll ?_
    rw [hr.1]
    exact (hcs c hc).every_outcome

/-- A new record holds no content. -/
theorem contentFree_start {category origin layer : Value}
    {cluster : Option Cluster} {clock : DateTime}
    (hr : start category cluster origin layer clock = .ok r) :
    r.Every ContentFree := by
  refine every_start (fun ws hws w hw hf => ?_) hr
  have hstart : w.1 ∈ startFields := initial_fields ws hws w hw
  rcases List.mem_cons.mp hf with h | hf
  · rw [h] at hstart
    exact absurd hstart (by decide)
  · rw [List.mem_singleton.mp hf] at hstart
    exact absurd hstart (by decide)

end Record

/-- Redacted content of the users document holds no hash, so redacting it
again changes nothing; and a record whose content fields were written by
the operations on the security configuration alone, with the users
document, holds no hash in either field, whatever else was recorded and
whether or not the content could be converted. -/
theorem users_content_hashFree :
    (∀ s, Redaction.HashFree (redactContent (some usersDocument) s))
    ∧ (∀ s, redactContent (some usersDocument)
          (redactContent (some usersDocument) s)
        = redactContent (some usersDocument) s)
    ∧ ∀ (h : Host) (category : Value) (cluster : Option Cluster)
        (origin layer : Value) (clock : DateTime) (r : Record)
        (cs : List Call),
      Record.start category cluster origin layer clock = .ok r →
      (∀ c ∈ cs, c.OnlyUsersContent h r.node) →
      ∀ f ∈ contentFields, ∀ v, (r.run h cs).get? f = some v →
        v.HashFree := by
  refine ⟨hashFree_replaceHashes, fun s => ?_, ?_⟩
  · exact replaceHashes_of_hashFree (hashFree_replaceHashes s)
  · intro h category cluster origin layer clock r cs hr hcs f hf v hv
    exact Record.contentFree_run (Record.contentFree_start hr) hcs f v hv hf

/-- A body that cannot be converted, a flag, and a body with a hash. -/
def usersExport : List Call :=
  [.securityPair (.list [.text ['x'], .text ['y']]) (.text usersDocument),
    .isAdminDn (.bool true),
    .securityText (.text ("\x7b\x22hash\x22:\x22$2y$12$".toList
      ++ List.replicate 53 'x' ++ "\x22\x7d".toList)) (.text usersDocument)]

theorem users_content_hashFree_usersExport :
    ∃ r, Record.start (.term (.category .complianceInternalConfigWrite))
        (some ⟨.text ['n'], .text ['a'], .text ['h'], .text ['n'],
          .text ['c']⟩) .null .null ⟨⟨2024, 1, 31⟩, ⟨12, 0, 0, 0⟩, none⟩
        = .ok r
      ∧ (r.run Record.bareHost usersExport).get?
          .requestBody
        = some (.text "\x7b\x22hash\x22:\x22__HASH__\x22\x7d".toList)
      ∧ ∀ v, (r.run Record.bareHost usersExport).get?
          .requestBody = some v → v.HashFree := by
  have hr : Record.start (.term (.category .complianceInternalConfigWrite))
      (some ⟨.text ['n'], .text ['a'], .text ['h'], .text ['n'],
        .text ['c']⟩) .null .null ⟨⟨2024, 1, 31⟩, ⟨12, 0, 0, 0⟩, none⟩
      = .ok _ := rfl
  refine ⟨_, hr, rfl, users_content_hashFree.2.2 _ _ _ _ _ _ _ _ hr ?_ _
    List.mem_cons_self⟩
  show ∀ c ∈ usersExport, _
  unfold usersExport
  simp only [List.forall_mem_cons]
  refine ⟨fun _ => rfl, ?_, fun _ => rfl, fun c hc => absurd hc (by simp)⟩
  rintro ⟨w, hw, hf⟩
  have hflag := Call.outcome_fields _ _ _ w hw
  rw [List.mem_singleton.mp hflag] at hf
  exact absurd hf (by decide)

end AuditTrail
