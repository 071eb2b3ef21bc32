/-
The canonical form of content in JSON.

Content in JSON is read and written again, and what was written is read as
the same value and so written the same. The text is therefore a name of the
value: two pieces of content have the same text exactly if they say the same
(`toJson_canonical`), with the same members in the same order. White space,
escapes and the spelling of numbers are no part of a value; the order of
members is, and so are the sign of a zero and whether a number is an
integer.
-/
import AuditTrail.Proofs.Content.Ending
import AuditTrail.Proofs.Json.Parsed
import AuditTrail.Proofs.Results

namespace AuditTrail.Content

variable {content content' : Value} {mediaType mediaType' t t' : Text}

/-- A media type of JSON. -/
def IsJson (mediaType : Text) : Prop :=
  Format.ofMediaType? (baseMediaType mediaType) = some .json

instance (mediaType : Text) : Decidable (IsJson mediaType) :=
  inferInstanceAs (Decidable (_ = _))

/-- The value that content in JSON says. -/
def jsonValue? (content : Value) (mediaType : Text) : Option Value :=
  (text content (baseMediaType mediaType)).toOption.bind fun s =>
    (Json.read s).toOption

/-- A JSON text is restated as the text of the value that it says. -/
theorem restate_eq_ok_iff {s : Text} :
    restate s = .ok t
      ↔ ∃ v, Json.read s = .ok v ∧ Json.write .compact v = .ok t := by
  unfold restate dump
  cases Json.read s with
  | error e => exact ⟨fun h => (nomatch h), fun ⟨_, h, _⟩ => (nomatch h)⟩
  | ok v =>
      dsimp only
      constructor
      case mp =>
        intro h
        refine ⟨v, rfl, ?_⟩
        split at h
        case h_1 out hout => rw [hout, Except.ok.inj h]
        case h_2 => cases h
      case mpr =>
        rintro ⟨_, hv, h⟩
        cases hv
        rw [h]

theorem ofJson_eq_ok_iff {base s : Text} :
    ofJson base s = .ok t ↔ restate s = .ok t := by
  unfold ofJson
  cases restate s with
  | ok out => exact Iff.rfl
  | error e =>
      constructor
      all_goals
        intro h
        cases h

/-- What is converted says some value, and the text is that of the value. -/
theorem exists_of_toJson (hformat : IsJson mediaType)
    (ht : toJson content (.text mediaType) = .ok t) :
    ∃ v, jsonValue? content mediaType = some v ∧
      Json.Parsed Json.depthLimit v ∧ Json.write .compact v = .ok t := by
  obtain ⟨base, hbase, ht⟩ := exists_of_bind_eq_ok ht
  rw [baseOfValue_text] at hbase
  cases hbase
  obtain ⟨s, hs, ht⟩ := exists_of_bind_eq_ok ht
  rw [show Format.ofMediaType? _ = _ from hformat] at ht
  dsimp only at ht
  obtain ⟨v, hread, hwrite⟩ :=
    restate_eq_ok_iff.mp (ofJson_eq_ok_iff.mp ht)
  refine ⟨v, ?_, Json.parsed_of_read hread, hwrite⟩
  unfold jsonValue?
  rw [hs]
  exact congrArg Except.toOption hread

/-- What is converted is converted to the text of its value, and that text
says the same and is converted to itself. -/
theorem toJson_self (hformat : IsJson mediaType)
    (ht : toJson content (.text mediaType) = .ok t) :
    ∃ v, jsonValue? content mediaType = some v ∧
      Json.write .compact v = .ok t ∧ Json.read t = .ok v ∧
        toJson (.text t) (.text "application/json".toList) = .ok t := by
  obtain ⟨v, hv, hparsed, hwrite⟩ := exists_of_toJson hformat ht
  obtain ⟨_, hout, hread, -⟩ := Json.read_write .compact hparsed.readable rfl
  cases hwrite.symm.trans hout
  rw [hparsed.mapTexts_eq] at hread
  exact ⟨v, hv, hwrite, hread, Json.toJson_of_read rfl rfl rfl hread hwrite⟩

/-- What content in JSON is converted to is converted to itself. Two pieces
of content are converted to the same exactly if they say the same. -/
theorem toJson_canonical (hformat : IsJson mediaType)
    (hformat' : IsJson mediaType')
    (ht : toJson content (.text mediaType) = .ok t)
    (ht' : toJson content' (.text mediaType') = .ok t') :
    toJson (.text t) (.text "application/json".toList) = .ok t ∧
      ∃ v v', jsonValue? content mediaType = some v ∧
        jsonValue? content' mediaType' = some v' ∧ (t = t' ↔ v = v') := by
  obtain ⟨v, hv, hwrite, hread, hself⟩ := toJson_self hformat ht
  obtain ⟨v', hv', hwrite', hread', -⟩ := toJson_self hformat' ht'
  refine ⟨hself, v, v', hv, hv', fun heq => ?_, fun heq => ?_⟩
  · subst heq
    exact Except.ok.inj (hread.symm.trans hread')
  · subst heq
    exact Except.ok.inj (hwrite.symm.trans hwrite')

/-- An object with a name that occurs twice, spelled at length. -/
def spelledAtLength : Text :=
  "\x7b \x22a\x22: 1, \x22\\u0062\x22: [0.10, \x22\\/\x22], ".toList ++
    "\x22a\x22: -0.0 \x7d".toList

/-- The same object, spelled otherwise. -/
def spelledShortly : Text :=
  "\x7b\x22a\x22:-0e3,\x22b\x22:[1e-1,\x22/\x22]\x7d".toList

/-- Both are converted to the same, so they say the same. -/
theorem toJson_canonical_spelled :
    ∃ v, jsonValue? (.text spelledAtLength) "text/json".toList = some v ∧
      jsonValue? (.text spelledShortly)
        "application/problem+json; v=1".toList = some v := by
  have hlong : (toJson (.text spelledAtLength)
      (.text "text/json".toList)).toOption
      = some "\x7b\x22a\x22:-0.0,\x22b\x22:[0.1,\x22/\x22]\x7d".toList := by
    decide +kernel
  have hshort : (toJson (.text spelledShortly)
      (.text "application/problem+json; v=1".toList)).toOption
      = some "\x7b\x22a\x22:-0.0,\x22b\x22:[0.1,\x22/\x22]\x7d".toList := by
    decide +kernel
  obtain ⟨-, v, v', hv, hv', heq⟩ := toJson_canonical (by decide) (by decide)
    (eq_ok_of_toOption hlong) (eq_ok_of_toOption hshort)
  rw [heq.mp rfl] at hv
  exact ⟨v', hv, hv'⟩

end AuditTrail.Content
