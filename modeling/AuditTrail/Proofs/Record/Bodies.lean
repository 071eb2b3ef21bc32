/-
Bodies that are converted before they are recorded.

Whatever is handed over, converting it comes to one of three ends
(`BodyEnding`): a text that is recorded, an empty text that is not, or a
failure that is recorded as a marker. The operations that convert a body
write what the end of their conversion says and raise nothing themselves
(`Contains`): a text is of the body's kind, so that it is never refused,
and redaction neither fails on a text nor empties it. What an object raises
may still get out, where a mapping does not tell whether it is there, where
a reason cannot be put into words, and where a handler catches only faults
of the ordinary kind; no fault of the library's own does
(`reasonEscape?_of_isOwn`).
-/
import AuditTrail.Proofs.Faults
import AuditTrail.Proofs.Record.Atomicity

namespace AuditTrail

open Redaction

-- ================================================== redaction of a text

namespace Redaction

/-- Redaction leaves something of every text. -/
theorem replaceHashes_ne_nil {s : Text} (hs : s ≠ []) :
    replaceHashes s ≠ [] := by
  obtain ⟨c, rest, rfl⟩ := List.exists_cons_of_ne_nil hs
  unfold replaceHashes
  rw [replaceHashesFrom]
  split
  · exact List.append_ne_nil_of_left_ne_nil (by decide) _
  · exact List.cons_ne_nil _ _

theorem redactContent_ne_nil {document : Option Text} {s : Text}
    (hs : s ≠ []) : redactContent document s ≠ [] := by
  unfold redactContent
  split
  · exact replaceHashes_ne_nil hs
  · exact hs

/-- A text is redacted for any document whatsoever. -/
theorem contentValue_text (s : Text) (document : Value) :
    contentValue (.text s) document
      = .ok (.text (redactContent document.text? s)) := by
  show (if document.text? = some usersDocument then _ else _) = _
  unfold redactContent
  split
  · rfl
  · rfl

end Redaction

-- ============================================================== endings

/-- A body on its way into a record: what converting it gives, how the text
is recorded, and what is recorded instead of a body that has none. -/
structure Conversion where
  result : Except Fault Text
  shown : Text → Text
  marker : Fault → Text

/-- How the conversion of a body ends. -/
inductive BodyEnding where
  | recorded (s : Text) (hs : s ≠ [])
  | empty
  | marked (e : Fault)

namespace BodyEnding

/-- The result of a conversion that ends so. -/
def result : BodyEnding → Except Fault Text
  | recorded s _ => .ok s
  | empty => .ok []
  | marked e => .error e

/-- What is written at the end of a conversion. -/
def writes (x : Conversion) : BodyEnding → List Write
  | recorded s _ => [(.requestBody, .text (x.shown s))]
  | empty => []
  | marked e => [(.requestBody, .text (x.marker e))]

/-- A conversion ends in one way only. -/
theorem result_injective : Function.Injective result := by
  intro a b h
  cases a with
  | recorded s hs =>
      cases b with
      | recorded t ht =>
          cases h
          rfl
      | empty =>
          cases h
          exact absurd rfl hs
      | marked e => cases h
  | empty =>
      cases b with
      | recorded t ht =>
          cases h
          exact absurd rfl ht
      | empty => rfl
      | marked e => cases h
  | marked e =>
      cases b with
      | recorded t ht => cases h
      | empty => cases h
      | marked e' =>
          cases h
          rfl

/-- And every conversion ends in some way. -/
theorem exists_result (x : Except Fault Text) :
    ∃ e : BodyEnding, e.result = x := by
  match x with
  | .error e => exact ⟨.marked e, rfl⟩
  | .ok [] => exact ⟨.empty, rfl⟩
  | .ok (c :: s) => exact ⟨.recorded (c :: s) (List.cons_ne_nil c s), rfl⟩

end BodyEnding

-- =========================================================== operations

/-- What gets out of a handler of ordinary faults. -/
def Fault.escape? (e : Fault) : Option Fault :=
  if e.isOrdinary then none else some e

/-- What gets out of a handler of ordinary faults that states the reason. -/
def Fault.reasonEscape? (e : Fault) : Option Fault :=
  if e.isOrdinary then
    match e.wording with
    | .ok _ => none
    | .error instead => some instead
  else some e

/-- An operation that converts a body, if one is present, contains what may
go wrong, as far as its handler does: nothing happens if there is no body;
otherwise the conversion ends in exactly one of the three ways, and the
operation has no fault and writes what that way says, unless the conversion
fails and something gets out, which is then all that happens. -/
structure Contains (h : Host) (r : Record) (c : Call)
    (present : Except Fault Bool) (x : Conversion)
    (escape? : Fault → Option Fault) : Prop where
  refused : ∀ e, present = .error e → c.outcome h r.node = ⟨[], some e, []⟩
  absent : present = .ok false → c.outcome h r.node = .nothing
  ending : present = .ok true →
    (∀ e, x.result = .error e → escape? e = none) →
    (c.outcome h r.node).fault = none
      ∧ ∃! e : BodyEnding,
        e.result = x.result ∧ r.apply h c = r.putAll (e.writes x)
  escaped : present = .ok true → ∀ e instead, x.result = .error e →
    escape? e = some instead → c.outcome h r.node = ⟨[], some instead, []⟩

/-- What a record says of a body that cannot be converted, with the
reason. -/
def Call.reasonMarker (e : Fault) : Text :=
  conversionMarker ++ " because of ".toList ++ e.family ++ ": ".toList
    ++ e.message

namespace Fault

variable {e : Fault}

theorem reasonEscape?_of_isOwn (he : e.IsOwn) : e.reasonEscape? = none := by
  rw [reasonEscape?, if_pos he.isOrdinary, he.wording_eq]

/-- The words for a fault are its message. -/
theorem eq_message_of_wording {m : Text} (h : e.wording = .ok m) :
    m = e.message := by
  cases e with
  | refused o =>
      cases o with
      | told => exact (Except.ok.inj h).symm
      | untold => cases h
  | jsonWriting e =>
      cases e with
      | refused o =>
          cases o with
          | told => exact (Except.ok.inj h).symm
          | untold => cases h
      | _ => exact (Except.ok.inj h).symm
  | _ => exact (Except.ok.inj h).symm

end Fault

namespace Call

variable {h : Host} {r : Record} {c : Call} {x : Conversion}
  {document : Value} {escape? : Fault → Option Fault}

/-- A text is never refused as a body; an empty one is left out. -/
theorem writePresent_requestBody (s : Text) :
    writePresent .requestBody (.text s)
      = .ok (if s.isEmpty then [] else [(.requestBody, .text s)]) := by
  cases s with
  | nil => rfl
  | cons c s => rfl

theorem writePresent_ok {s : Text} (hs : s ≠ []) :
    writePresent .requestBody (.text s) = .ok [(.requestBody, .text s)] :=
  (writePresent_requestBody s).trans
    (congrArg Except.ok (if_neg (mt List.isEmpty_iff.mp hs)))

/-- The operation does what some writer says: it writes at the end of a
conversion what is due, or lets out what gets out. -/
structure Follows (w : Except Fault (List Write)) (x : Conversion)
    (escape? : Fault → Option Fault) : Prop where
  writes : (∀ e, x.result = .error e → escape? e = none) →
    ∀ e : BodyEnding, e.result = x.result → w = .ok (e.writes x)
  escapes : ∀ e instead, x.result = .error e → escape? e = some instead →
    w = .error instead

/-- So it contains what may go wrong, if it looks whether there is a body
first. -/
theorem Follows.contains {w : Except Fault (List Write)}
    (hw : Follows w x escape?) {present : Except Fault Bool}
    (houtcome : c.outcome h r.node
      = .of (present >>= fun b => if b then w else .ok [])) :
    Contains h r c present x escape? where
  refused e he := by
    rw [houtcome, he]
    rfl
  absent habsent := by
    rw [houtcome, habsent]
    rfl
  ending hpresent hcaught := by
    rw [hpresent] at houtcome
    obtain ⟨e, he⟩ := BodyEnding.exists_result x.result
    have hwrites : c.outcome h r.node = .of (.ok (e.writes x)) := by
      rw [← hw.writes hcaught e he]
      exact houtcome
    refine ⟨by rw [hwrites]; rfl, e, ⟨he, ?_⟩, fun e' he' => ?_⟩
    · unfold Record.apply
      rw [hwrites]
      rfl
    · exact BodyEnding.result_injective (he'.1.trans he.symm)
  escaped hpresent e instead he hinstead := by
    rw [houtcome, hpresent]
    exact congrArg Outcome.of (hw.escapes e instead he hinstead)

theorem bodyOrReason_of_caught {e : Fault} (he : e.reasonEscape? = none) :
    bodyOrReason (.error e) = .ok (reasonMarker e) := by
  unfold Fault.reasonEscape? at he
  unfold bodyOrReason
  split at he
  case isFalse => cases he
  case isTrue hordinary =>
    cases hwording : e.wording with
    | error instead =>
        rw [hwording] at he
        cases he
    | ok m =>
        dsimp only
        rw [if_pos hordinary, hwording, Fault.eq_message_of_wording hwording]
        rfl

theorem bodyOrReason_of_escape {e instead : Fault}
    (he : e.reasonEscape? = some instead) :
    bodyOrReason (.error e) = .error instead := by
  unfold Fault.reasonEscape? at he
  unfold bodyOrReason
  split at he
  case isFalse hordinary =>
    dsimp only
    rw [if_neg hordinary, Option.some.inj he]
  case isTrue hordinary =>
    dsimp only
    rw [if_pos hordinary]
    cases hwording : e.wording with
    | error i =>
        rw [hwording] at he
        cases he
        rfl
    | ok m =>
        rw [hwording] at he
        cases he

/-- The marker makes up for a reason that may be empty. -/
theorem reasonMarker_ne_nil (e : Fault) : reasonMarker e ≠ [] := by
  unfold reasonMarker
  rw [List.append_assoc, List.append_assoc, List.append_assoc]
  exact List.append_ne_nil_of_left_ne_nil (by decide) _

/-- A body is written as converted, or with the reason why it was not. -/
theorem follows_writeBody (x : Except Fault Text) :
    Follows (writeBody x) ⟨x, id, reasonMarker⟩ Fault.reasonEscape? where
  writes hcaught e he := by
    obtain rfl : e.result = x := he
    cases e with
    | recorded s hs => exact writePresent_ok hs
    | empty => rfl
    | marked e =>
        show (bodyOrReason (.error e) >>= fun s =>
          writePresent .requestBody (.text s)) = _
        rw [bodyOrReason_of_caught (hcaught e rfl)]
        exact writePresent_ok (reasonMarker_ne_nil e)
  escapes e instead he hinstead := by
    obtain rfl : x = .error e := he
    show (bodyOrReason (.error e) >>= fun s =>
      writePresent .requestBody (.text s)) = _
    rw [bodyOrReason_of_escape hinstead]
    rfl

/-- A text that is not empty is recorded, redacted or as it is. -/
theorem writeSecurityBody_ok {s : Text} (hs : s ≠ []) :
    writeSecurityBody (.ok s) document
      = .ok [(.requestBody, .text (redactContent document.text? s))] := by
  show writeSecurityText (.text s) document = _
  unfold writeSecurityText
  rw [ifPresent_of_truthy (Value.truthy_text hs), contentValue_text]
  exact writePresent_ok (redactContent_ne_nil hs)

/-- A body of the security configuration is written as converted and then
redacted, or with no reason at all. -/
theorem follows_writeSecurityBody (x : Except Fault Text) (document : Value) :
    Follows (writeSecurityBody x document)
      ⟨x, redactContent document.text?, fun _ => conversionMarker⟩
      Fault.escape? where
  writes hcaught e he := by
    obtain rfl : e.result = x := he
    cases e with
    | recorded s hs => exact writeSecurityBody_ok hs
    | empty => rfl
    | marked e =>
        have he : (if e.isOrdinary then none else some e) = none :=
          hcaught e rfl
        show (if e.isOrdinary then _ else _) = _
        split at he
        case isTrue hordinary => exact if_pos hordinary
        case isFalse => cases he
  escapes e instead he hinstead := by
    obtain rfl : x = .error e := he
    change (if e.isOrdinary then none else some e) = _ at hinstead
    split at hinstead
    case isTrue => cases hinstead
    case isFalse hordinary =>
      cases hinstead
      exact if_neg hordinary

end Call

/-- Whether a body is given as a pair. -/
def Value.isGiven (v : Value) : Bool :=
  match v with
  | .null => false
  | _ => true

end AuditTrail
