/-
One document through every channel for bodies.

A document can be handed over as a mapping, as its JSON text, or as the
octets of that text with their media type. The mapping is written as the
text; the octets are read as the text, and the text as what it was written
from, which is written the same again (`pairToJson_jsonPair`). So every
channel has the same text to record, and from there on nothing tells them
apart.
-/
import AuditTrail.Proofs.Json.ReadBack
import AuditTrail.Proofs.Record.Bodies
import AuditTrail.Proofs.Record.Document
import AuditTrail.Proofs.Text.Utf8

namespace AuditTrail

open Redaction
open Json (Readable)

namespace Call

/-- JSON text as its media type and its octets. -/
def jsonPair (t : Text) : Value :=
  .tuple [.text "application/json".toList, .bytes (Utf8.encode t)]

/-- The channels for a document of the security configuration. -/
def securityChannels (entries : Value.Entries) (t : Text) (document : Value) :
    List Call :=
  [.securityMapping (.map entries) document, .securityText (.text t) document,
    .securityPair (jsonPair t) document]

/-- The channels for a document of any kind. -/
def plainChannels (entries : Value.Entries) (t : Text) : List Call :=
  [.bodyMapping (.map entries), .bodyText (.text t), .bodyPair (jsonPair t)]

/-- An operation succeeds and writes one value, nothing else. -/
structure Puts (c : Call) (h : Host) (r : Record) (w : Write) : Prop where
  fault : (c.outcome h r.node).fault = none
  apply : r.apply h c = r.put w

variable {c : Call} {h : Host} {r : Record} {w : Write} {t : Text}
  {document : Value} {entries : Value.Entries}

theorem puts_of_outcome (hc : c.outcome h r.node = .of (.ok [w])) :
    c.Puts h r w where
  fault := by
    rw [hc]
    rfl
  apply := by
    unfold Record.apply
    rw [hc]
    rfl

/-- The octets of a text that was written are read and written as that
text. -/
theorem pairToJson_jsonPair (hv : Readable Json.depthLimit (.map entries))
    (hwrite : Json.write .compact (.map entries) = .ok t) :
    pairToJson (jsonPair t) = .ok t := by
  obtain ⟨t', hwrite', hread, hagain⟩ := Json.read_write .compact hv rfl
  obtain rfl : t = t' := Except.ok.inj (hwrite.symm.trans hwrite')
  have hbase : Content.baseOfValue (.text "application/json".toList)
      = .ok "application/json".toList := eq_ok_of_toOption (by decide +kernel)
  have htext : Content.text (.bytes (Utf8.encode t)) "application/json".toList
      = .ok t := by
    unfold Content.text
    simp only [Value.text?, Content.octets, Utf8.decode_encode]
  have hpair : (jsonPair t).pair = .ok (.text "application/json".toList,
      .bytes (Utf8.encode t)) := rfl
  rw [pairToJson, hpair]
  exact Json.toJson_of_read hbase (by decide +kernel) htext hread hagain

end Call

/-- A document leaves the same record behind whether it is added as a
mapping, as the JSON text of the mapping, or as the octets of that text with
the media type of JSON; with redaction and without it. -/
theorem channels_agree {entries : Value.Entries} (hentries : entries ≠ [])
    (hv : Readable Json.depthLimit (.map entries)) :
    ∃ t, Content.mappingToJson (.map entries) = .ok t
      ∧ ∀ (h : Host) (r : Record) (document : Value),
        (∀ c ∈ Call.securityChannels entries t document,
          c.Puts h r
            (.requestBody, .text (redactContent document.text? t)))
        ∧ ∀ c ∈ Call.plainChannels entries t,
          c.Puts h r (.requestBody, .text t) := by
  obtain ⟨t, hwrite, -, -⟩ := Json.read_write .compact hv rfl
  have ht : t ≠ [] := by
    obtain ⟨s, rfl⟩ := exists_cons_of_write_map hwrite
    exact List.cons_ne_nil _ s
  have hmapping := mappingToJson_of_write hwrite
  have hpair := Call.pairToJson_jsonPair hv hwrite
  have htruthy := Value.truthy_map hentries
  refine ⟨t, hmapping, fun h r document => ⟨?_, ?_⟩⟩
  · have hbody : Call.writeSecurityBody (.ok t) document = _ :=
      Call.writeSecurityBody_ok ht
    simp only [Call.securityChannels, List.forall_mem_cons]
    refine ⟨Call.puts_of_outcome ?_, Call.puts_of_outcome ?_,
      Call.puts_of_outcome ?_, fun c hc => absurd hc List.not_mem_nil⟩
    · rw [Call.outcome, Call.ifPresent_of_truthy htruthy, hmapping, hbody]
    · exact congrArg Outcome.of hbody
    · show Outcome.of (Call.writeSecurityBody (Call.pairToJson _) _) = _
      rw [hpair, hbody]
  · have hbody := Call.writePresent_ok ht
    simp only [Call.plainChannels, List.forall_mem_cons]
    refine ⟨Call.puts_of_outcome ?_, Call.puts_of_outcome ?_,
      Call.puts_of_outcome ?_, fun c hc => absurd hc List.not_mem_nil⟩
    · rw [Call.outcome, Call.ifPresent_of_truthy htruthy, hmapping]
      exact congrArg Outcome.of hbody
    · exact congrArg Outcome.of hbody
    · show Outcome.of (Call.writeBody (Call.pairToJson _)) = _
      rw [hpair]
      exact congrArg Outcome.of hbody

/-- A document with a number that is no integer, a letter beyond ASCII and a
map inside. -/
def nestedDocument : Value.Entries :=
  [(.text "gr\u00f6sse".toList,
      .list [.float (.finite false 7205759403792794 (-56)), .int (-3), .null]),
    (.text "roles".toList, .map [(.text ['a', '\n'], .bool true)])]

theorem readable_nestedDocument :
    Readable Json.depthLimit (.map nestedDocument) := by
  have hnumber : (Double.finite false 7205759403792794 (-56)).ReadsBack := rfl
  have hitems : ∀ v ∈ [Value.float (.finite false 7205759403792794 (-56)),
      .int (-3), .null], Readable 988 v := by
    simp only [List.forall_mem_cons]
    exact ⟨.float hnumber, .int (by decide +kernel), .null,
      fun v hv => absurd hv List.not_mem_nil⟩
  have hroles : Readable 989 (.map [(.text ['a', '\n'], .bool true)]) :=
    .map [['a', '\n']] rfl (List.nodup_singleton _)
      (List.forall_mem_singleton.mpr .bool)
  refine .map ["gr\u00f6sse".toList, "roles".toList] rfl (by decide +kernel) ?_
  exact List.forall_mem_cons.mpr ⟨.list hitems,
    List.forall_mem_singleton.mpr hroles⟩

/-- The text of the document. -/
def nestedText : Text :=
  "\x7b\x22gr\u00f6sse\x22:[0.1,-3,null],".toList
    ++ "\x22roles\x22:\x7b\x22a\\n\x22:true\x7d\x7d".toList

/-- It is recorded from all three channels. -/
theorem channels_agree_nestedDocument :
    ∃ r, Record.login = .ok r
      ∧ Content.mappingToJson (.map nestedDocument) = .ok nestedText
      ∧ ∀ c ∈ Call.plainChannels nestedDocument nestedText,
        c.Puts Record.bareHost r (.requestBody, .text nestedText) := by
  have hr : Record.login = .ok _ := rfl
  have hne : nestedDocument ≠ [] := List.cons_ne_nil _ _
  obtain ⟨t, ht, hchannels⟩ := channels_agree hne readable_nestedDocument
  have htext : (Content.mappingToJson (.map nestedDocument)).toOption
      = some nestedText := by
    decide +kernel
  obtain rfl : t = nestedText := by
    rw [ht] at htext
    exact Option.some.inj htext
  exact ⟨_, hr, ht, (hchannels Record.bareHost _ .null).2⟩

end AuditTrail
