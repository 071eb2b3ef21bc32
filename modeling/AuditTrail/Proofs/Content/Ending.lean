/-
How a conversion ends.

Content is converted, or it is refused with a reason (`Contained`). Content
in JSON never ends otherwise, whatever it holds: its reader and its writer
have few faults, and all of them are caught. Two parts of the way catch less
than there is. Numbers, and items that are numbers, are taken for octets
without a look at their size, and an object that is walked through for its
octets may raise what it likes (`text_cases`); and of the faults that
reading YAML ends in, those of some classes pass through (`ofYaml_cases`).
What gets out there (`Escapes`) is all that gets out.
-/
import AuditTrail.Content.Conversion
import AuditTrail.Proofs.Faults
import AuditTrail.Proofs.Json.Layout
import AuditTrail.Proofs.Results
import AuditTrail.Proofs.Value.Presence
import AuditTrail.Proofs.Yaml.Faults

namespace AuditTrail.Content

variable {content : Value} {base s : Text} {n : Int} {items : List Value}
  {e : Fault}

/-- The two ways in which a conversion is meant to end. -/
inductive Contained : Except Fault Text → Prop where
  | converted (s : Text) : Contained (.ok s)
  | refused (base : Option Text) (reason : Text) :
    Contained (.error (.conversion base reason))

/-- Whether a result is one of these. -/
def isContained : Except Fault Text → Bool
  | .ok _ | .error (.conversion _ _) => true
  | .error _ => false

theorem isContained_iff {x : Except Fault Text} :
    isContained x = true ↔ Contained x := by
  constructor
  case mp =>
    unfold isContained
    split
    case h_1 => exact fun _ => .converted _
    case h_2 => exact fun _ => .refused _ _
    case h_3 => exact fun h => absurd h Bool.false_ne_true
  case mpr =>
    intro h
    cases h <;> rfl

instance (x : Except Fault Text) : Decidable (Contained x) :=
  decidable_of_iff _ isContained_iff

-- ============================================================== octets

/-- The faults of a number that is taken for a number of octets. -/
inductive CountFault (n : Int) : Fault → Prop where
  | tooLarge (hn : (countLimit : Int) ≤ n) : CountFault n .hugeCount
  | tooSmall (hn : n < -(countLimit : Int)) : CountFault n .hugeCount
  | negative (hlow : -(countLimit : Int) ≤ n) (hn : n < 0) :
    CountFault n .negativeCount
  | tooMany (hn : (sizeLimit : Int) ≤ n) (hhigh : n < (countLimit : Int)) :
    CountFault n .tooManyOctets
  | noMemory (hn : (memoryLimit : Int) ≤ n) (hhigh : n < (sizeLimit : Int)) :
    CountFault n .noMemory

theorem limits : memoryLimit < sizeLimit ∧ sizeLimit < countLimit := by
  decide

theorem zeros_cases (n : Int) :
    (∃ octets, zeros n = .ok octets) ∨ ∃ e, CountFault n e := by
  by_cases hhigh : (countLimit : Int) ≤ n
  · exact .inr ⟨_, .tooLarge hhigh⟩
  by_cases hlow : n < -(countLimit : Int)
  · exact .inr ⟨_, .tooSmall hlow⟩
  by_cases hnegative : n < 0
  · exact .inr ⟨_, .negative (Int.not_lt.mp hlow) hnegative⟩
  by_cases hsize : (sizeLimit : Int) ≤ n
  · exact .inr ⟨_, .tooMany hsize (Int.not_le.mp hhigh)⟩
  by_cases hmemory : (memoryLimit : Int) ≤ n
  · exact .inr ⟨_, .noMemory hmemory (Int.not_le.mp hsize)⟩
  · unfold zeros
    rw [if_neg (not_or.mpr ⟨hhigh, hlow⟩), if_neg hnegative, if_neg hsize,
      if_neg hmemory]
    exact .inl ⟨_, rfl⟩

theorem CountFault.zeros_eq (he : CountFault n e) : zeros n = .error e := by
  obtain ⟨hmemory, hsize⟩ := limits
  unfold zeros
  cases he with
  | tooLarge hn => rw [if_pos (.inl hn)]
  | tooSmall hn => rw [if_pos (.inr hn)]
  | negative hlow hn => rw [if_neg (by omega), if_pos hn]
  | tooMany hn hhigh =>
      rw [if_neg (by omega), if_neg (by omega), if_pos hn]
  | noMemory hn hhigh =>
      rw [if_neg (by omega), if_neg (by omega), if_neg (by omega), if_pos hn]

/-- The first item that is no octet is a number all the same. -/
inductive OutOfRange : List Value → Prop where
  | here {v : Value} {n : Int} {rest : List Value} (hv : v.int? = some n)
      (hn : n < 0 ∨ 256 ≤ n) : OutOfRange (v :: rest)
  | later {v : Value} {b : UInt8} {rest : List Value} (hv : octet v = .ok b)
      (hrest : OutOfRange rest) : OutOfRange (v :: rest)

theorem octet_cases (v : Value) :
    (∃ b, octet v = .ok b) ∨ (∃ t, octet v = .error (.notInteger t)) ∨
      ∃ n, v.int? = some n ∧ (n < 0 ∨ 256 ≤ n) := by
  unfold octet
  cases hv : v.int? with
  | none => exact .inr (.inl ⟨_, rfl⟩)
  | some n =>
      dsimp only
      by_cases hn : 0 ≤ n ∧ n < 256
      · rw [if_pos hn]
        exact .inl ⟨_, rfl⟩
      · exact .inr (.inr ⟨n, rfl, by omega⟩)

theorem items_cases (items : List Value) :
    (∃ octets, items.mapM octet = .ok octets) ∨
      (∃ t, items.mapM octet = .error (.notInteger t)) ∨
        OutOfRange items := by
  induction items with
  | nil => exact .inl ⟨[], rfl⟩
  | cons v rest ih =>
      rw [List.mapM_cons]
      rcases octet_cases v with ⟨b, hv⟩ | ⟨t, hv⟩ | ⟨n, hv, hn⟩
      · rw [hv]
        rcases ih with ⟨octets, hrest⟩ | ⟨t, hrest⟩ | hrest
        · rw [hrest]
          exact .inl ⟨_, rfl⟩
        · rw [hrest]
          exact .inr (.inl ⟨t, rfl⟩)
        · exact .inr (.inr (.later hv hrest))
      · rw [hv]
        exact .inr (.inl ⟨t, rfl⟩)
      · exact .inr (.inr (.here hv hn))

theorem OutOfRange.mapM_eq (h : OutOfRange items) :
    items.mapM octet = .error .byteRange := by
  induction h with
  | @here v n rest hv hn =>
      have hoctet : octet v = .error .byteRange := by
        unfold octet
        rw [hv]
        exact if_neg (by omega)
      rw [List.mapM_cons, hoctet]
      rfl
  | later hv _ ih =>
      rw [List.mapM_cons, hv, ih]
      rfl

/-- Neither characters nor octets are numbers out of range. -/
theorem OutOfRange.not_of_items (h : OutOfRange items)
    (hitems : ∀ v ∈ items, ∀ n, v.int? = some n → 0 ≤ n ∧ n < 256) :
    False := by
  induction h with
  | here hv hn =>
      have := hitems _ List.mem_cons_self _ hv
      omega
  | later _ _ ih => exact ih fun v hv => hitems v (List.mem_cons_of_mem _ hv)

/-- The faults of content that is no text and no octets, and not seen to be
neither. -/
inductive OctetFault (content : Value) : Fault → Prop where
  | count {n : Int} {e : Fault} (hcontent : content.int? = some n)
      (he : CountFault n e) : OctetFault content e
  | item {items : List Value} (hcontent : content.reached? = some items)
      (hitems : OutOfRange items) : OctetFault content .byteRange

/-- Content breaks off the walk through it, after items that are all
octets, and raises something. -/
def Breaks (content : Value) (o : Objection) : Prop :=
  ∃ items octets, content.items? = none ∧ content.broken? = some (items, o)
    ∧ items.mapM octet = .ok octets

theorem Breaks.octets_eq {o : Objection} (ho : Breaks content o) :
    octets content = .error (.refused o) := by
  obtain ⟨items, bytes, hnone, hbroken, hitems⟩ := ho
  cases content with
  | agent c vs =>
      show Value.walkThrough _ (List.mapM octet) _ = _
      rw [Value.walkThrough, hnone, hbroken]
      show (items.mapM octet >>= fun _ => _) = _
      rw [hitems]
      rfl
  | _ => cases hbroken

theorem octets_cases (content : Value) :
    (∃ octets, Content.octets content = .ok octets) ∨
      (∃ t, Content.octets content = .error (.notInteger t)) ∨
      (∃ t, Content.octets content = .error (.notBytes t)) ∨
      (∃ o, Breaks content o) ∨
        ∃ e, OctetFault content e := by
  have hzeros {n} (hn : content.int? = some n) :
      (∃ octets, zeros n = .ok octets) ∨ ∃ e, OctetFault content e :=
    (zeros_cases n).imp_right fun ⟨e, he⟩ => ⟨e, .count hn he⟩
  unfold octets
  split
  case h_1 => exact .inl ⟨_, rfl⟩
  case h_2
  | h_3 =>
      rcases hzeros rfl with hoctets | hfault
      · exact .inl hoctets
      · exact .inr (.inr (.inr (.inr hfault)))
  case h_4 =>
    rcases Value.walkThrough_cases (List.mapM octet)
      (.notBytes content.qualifiedFamily) content with
      ⟨items, hitems, hwalk⟩ | ⟨items, o, hnone, hbroken, hwalk⟩ | ⟨-, -, hwalk⟩
    · have hreached : content.reached? = some items := by
        rw [Value.reached?, hitems, Option.some_or]
      rw [hwalk]
      rcases items_cases items with hoctets | hinteger | hrange
      · exact .inl hoctets
      · exact .inr (.inl hinteger)
      · exact .inr (.inr (.inr (.inr ⟨_, .item hreached hrange⟩)))
    · have hreached : content.reached? = some items := by
        rw [Value.reached?, hnone, hbroken]
        rfl
      rw [hwalk]
      rcases items_cases items with ⟨octets, hoctets⟩ | ⟨t, hinteger⟩ | hrange
      · exact .inr (.inr (.inr (.inl
          ⟨o, items, octets, hnone, hbroken, hoctets⟩)))
      · rw [hinteger]
        exact .inr (.inl ⟨t, rfl⟩)
      · exact .inr (.inr (.inr (.inr ⟨_, .item hreached hrange⟩)))
    · exact .inr (.inr (.inl ⟨_, hwalk⟩))

theorem OctetFault.octets_eq (he : OctetFault content e) :
    octets content = .error e := by
  cases he with
  | count hcontent he =>
      cases content with
      | int n
      | bool b =>
          cases hcontent
          exact he.zeros_eq
      | _ => cases hcontent
  | item hcontent hitems =>
      unfold octets
      split
      case h_1 octets =>
        cases hcontent
        refine (hitems.not_of_items fun v hv n hn => ?_).elim
        obtain ⟨b, -, rfl⟩ := List.mem_map.mp hv
        cases hn
        have := b.toNat_lt
        omega
      case h_2 => cases hcontent
      case h_3 => cases hcontent
      case h_4 => exact Value.walkThrough_of_error hcontent hitems.mapM_eq

/-- No text has such a fault. -/
theorem OctetFault.text?_eq (he : OctetFault content e) :
    content.text? = none := by
  have hcharacters (s : Text) : ¬ OutOfRange (Value.characterItems s) := by
    refine fun h => h.not_of_items fun v hv n hn => ?_
    obtain ⟨c, -, rfl⟩ := List.mem_map.mp hv
    cases hn
  cases he with
  | count hcontent =>
      cases content with
      | int _
      | bool _ => rfl
      | _ => cases hcontent
  | item hcontent hitems =>
      cases content with
      | text s
      | term t =>
          cases hcontent
          exact absurd hitems (hcharacters _)
      | _ => rfl

/-- The faults of content that breaks off the walk through it: what it
raises, if that is no way to say that it makes no octets or no text; and
what it raises when such a reason is asked for in words. -/
inductive WalkFault (content : Value) : Fault → Prop where
  | raised {o : Objection} (ho : Breaks content o)
      (hheading : heading? (.refused o) = none) :
      WalkFault content (.refused o)
  | untold {family : Text} {kind : Objection.Kind} {instead : Objection}
      {heading : Text} (ho : Breaks content (.untold family kind instead))
      (hheading : heading? (.refused (.untold family kind instead))
        = some heading) : WalkFault content (.refused instead)

theorem Breaks.text?_eq {o : Objection} (ho : Breaks content o) :
    content.text? = none := by
  obtain ⟨_, _, -, hbroken, -⟩ := ho
  cases content with
  | agent c items => rfl
  | _ => cases hbroken

theorem WalkFault.text_eq (he : WalkFault content e) (base : Text) :
    text content base = .error e := by
  unfold text
  cases he with
  | raised ho hheading =>
      rw [ho.text?_eq]
      simp only [ho.octets_eq, hheading]
  | untold ho hheading =>
      rw [ho.text?_eq]
      simp only [ho.octets_eq, hheading]
      rfl

theorem Breaks.text_cases {o : Objection} (ho : Breaks content o)
    (base : Text) :
    (∃ reason, text content base = .error (.conversion (some base) reason)) ∨
      ∃ e, WalkFault content e := by
  cases hheading : heading? (.refused o) with
  | none => exact .inr ⟨_, .raised ho hheading⟩
  | some heading =>
      cases o with
      | untold family kind instead => exact .inr ⟨_, .untold ho hheading⟩
      | told family kind message =>
          refine .inl ⟨heading ++ message, ?_⟩
          unfold text
          rw [ho.text?_eq]
          simp only [ho.octets_eq, hheading]
          rfl

theorem text_cases (content : Value) (base : Text) :
    (∃ s, text content base = .ok s) ∨
      (∃ reason, text content base = .error (.conversion (some base) reason)) ∨
      (∃ e, WalkFault content e) ∨
        ∃ e, OctetFault content e := by
  cases hs : content.text? with
  | some s =>
      refine .inl ⟨s, ?_⟩
      rw [text, hs]
  | none =>
      rcases octets_cases content with
        ⟨octets, ho⟩ | ⟨t, ho⟩ | ⟨t, ho⟩ | ⟨o, ho⟩ | hfault
      · simp only [text, hs, ho]
        cases Utf8.decode octets with
        | ok s => exact .inl ⟨s, rfl⟩
        | error e => exact .inr (.inl ⟨_, rfl⟩)
      · simp only [text, hs, ho]
        exact .inr (.inl ⟨_, rfl⟩)
      · simp only [text, hs, ho]
        exact .inr (.inl ⟨_, rfl⟩)
      · exact .inr ((ho.text_cases base).imp_right .inl)
      · exact .inr (.inr (.inr hfault))

theorem OctetFault.text_eq (he : OctetFault content e) (base : Text) :
    text content base = .error e := by
  unfold text
  rw [he.text?_eq]
  simp only [he.octets_eq]
  cases he with
  | count _ he => cases he <;> rfl
  | item => rfl

-- ============================================================= formats

/-- Content in JSON is contained, whatever it holds. -/
theorem contained_ofJson (base s : Text) : Contained (ofJson base s) := by
  unfold ofJson
  split
  · exact .converted _
  · exact .refused _ _

theorem contained_ofJsonLines (base s : Text) :
    Contained (ofJsonLines base s) := by
  unfold ofJsonLines
  split
  · exact .converted _
  · exact .refused _ _

/-- Only what reading ends in gets out of content in YAML: whatever was read
is written, or refused. -/
theorem ofYaml_cases (base s : Text) :
    Contained (ofYaml base s) ∨
      ∃ e, Yaml.read s = .error (.fault e) ∧ isValueFault e = false := by
  have hrefused {e : Fault} (he : isValueFault e = true) (heading : Text) :
      Contained (if isValueFault e then refuse base heading e.message
        else .error e) := by
    rw [if_pos he]
    exact .refused _ _
  unfold ofYaml
  dsimp only
  split
  case h_1 e hread =>
    cases he : isValueFault e with
    | true => exact .inl (he ▸ hrefused he _)
    | false => exact .inr ⟨e, hread, he⟩
  case h_2 => exact .inl (.refused _ _)
  case h_3 v _ =>
    unfold dump
    split
    case h_1 => exact .inl (.converted _)
    case h_2 e he =>
      split at he
      case h_1 => cases he
      case h_2 f hwrite =>
        cases he
        refine .inl (hrefused ?_ _)
        cases f with
        | refused e => exact absurd hwrite (Json.write_ne_refused rfl v e)
        | _ => rfl

theorem ofYaml_of_fault (hread : Yaml.read s = .error (.fault e))
    (he : isValueFault e = false) : ofYaml base s = .error e := by
  unfold ofYaml
  rw [hread]
  exact if_neg (by rw [he]; exact Bool.false_ne_true)

-- ============================================================ conversion

/-- The faults that a conversion ends in although they are no refusals. -/
inductive Escapes (content : Value) (base : Text) : Fault → Prop where
  | octets {e : Fault} (he : OctetFault content e) : Escapes content base e
  | walk {e : Fault} (he : WalkFault content e) : Escapes content base e
  /-- The content is YAML, and reading it ends in a fault without a place,
  of none of the classes that are reported. -/
  | document {s : Text} {e : Fault} (htext : text content base = .ok s)
      (hformat : Format.ofMediaType? base = some .yaml)
      (hread : Yaml.read s = .error (.fault e))
      (he : isValueFault e = false) : Escapes content base e

/-- The classes of these faults. -/
def escapingFamilies : List Text :=
  ["ValueError".toList, "OverflowError".toList, "MemoryError".toList,
   "IndexError".toList, "KeyError".toList, "AttributeError".toList]

theorem OctetFault.family_mem (he : OctetFault content e) :
    e.family ∈ escapingFamilies := by
  cases he with
  | item => exact .head _
  | count _ he =>
      cases he with
      | negative => exact .head _
      | tooLarge
      | tooSmall
      | tooMany => exact .tail _ (.head _)
      | noMemory => exact .tail _ (.tail _ (.head _))

/-- A fault without a place is of one of them, or it is reported. -/
theorem family_mem_of_unplaced (he : Yaml.Unplaced e)
    (hreported : isValueFault e = false) : e.family ∈ escapingFamilies := by
  cases he with
  | negativeCharacter
  | integerTooLarge => exact .tail _ (.head _)
  | emptyText => exact .tail _ (.tail _ (.tail _ (.head _)))
  | noTruthValue _ =>
      exact .tail _ (.tail _ (.tail _ (.tail _ (.head _))))
  | noDate =>
      exact .tail _ (.tail _ (.tail _ (.tail _ (.tail _ (.head _)))))
  | date e =>
      cases e with
      | outOfRange => exact .tail _ (.head _)
      | _ => exact .head _
  | hugeCharacter
  | numeral _
  | offsetRange _ => exact .head _
  | nestedTooDeeply
  | noScalar => exact absurd hreported (by decide)

/-- What is raised is of one of these classes, unless the content raises it
itself. -/
theorem Escapes.family_mem (he : Escapes content base e) :
    e.family ∈ escapingFamilies ∨ WalkFault content e := by
  cases he with
  | octets he => exact .inl he.family_mem
  | walk he => exact .inr he
  | document _ _ hread he =>
      exact .inl (family_mem_of_unplaced (Yaml.read_unplaced hread) he)

theorem baseOfValue_text (m : Text) :
    baseOfValue (.text m) = .ok (baseMediaType m) := by
  cases m <;> rfl

theorem Escapes.toJson_eq {m : Text}
    (he : Escapes content (baseMediaType m) e) :
    toJson content (.text m) = .error e := by
  unfold toJson
  rw [baseOfValue_text]
  cases he with
  | octets he =>
      simp only [he.text_eq, bind, Except.bind]
  | walk he =>
      simp only [he.text_eq, bind, Except.bind]
  | document htext hformat hread he =>
      simp only [htext, hformat, ofYaml_of_fault hread he, bind, Except.bind]

theorem toJson_cases (content : Value) (m : Text) :
    Contained (toJson content (.text m)) ∨
      ∃ e, Escapes content (baseMediaType m) e := by
  unfold toJson
  rw [baseOfValue_text]
  rcases text_cases content (baseMediaType m) with
    ⟨s, hs⟩ | ⟨reason, hs⟩ | ⟨e, he⟩ | ⟨e, he⟩
  · simp only [hs, bind, Except.bind]
    split
    case h_1 => exact .inl (contained_ofJson _ _)
    case h_2 hformat =>
      refine (ofYaml_cases _ _).imp_right fun ⟨e, hread, he⟩ => ?_
      exact ⟨e, .document hs hformat hread he⟩
    case h_3 => exact .inl (contained_ofJsonLines _ _)
    case h_4 => exact .inl (.refused _ _)
  · simp only [hs, bind, Except.bind]
    exact .inl (.refused _ _)
  · exact .inr ⟨e, .walk he⟩
  · exact .inr ⟨e, .octets he⟩

theorem isOwn_of_unplaced (he : Yaml.Unplaced e) : e.IsOwn := by
  cases he with
  | date e => cases e <;> rfl
  | _ => rfl

theorem OctetFault.isOwn (he : OctetFault content e) : e.IsOwn := by
  cases he with
  | item => rfl
  | count _ he => cases he <;> rfl

theorem Contained.isOwn {x : Except Fault Text} (hx : Contained x)
    (h : x = .error e) : e.IsOwn := by
  subst h
  cases hx
  rfl

theorem isOwn_of_ofYaml (h : ofYaml base s = .error e) : e.IsOwn := by
  rcases ofYaml_cases base s with hcontained | ⟨e', hread, he'⟩
  · exact hcontained.isOwn h
  · rw [ofYaml_of_fault hread he'] at h
    cases h
    exact isOwn_of_unplaced (Yaml.read_unplaced hread)

/-- Octets raise nothing themselves. -/
theorem isOwn_of_text {raw : Bytes} (h : text (.bytes raw) base = .error e) :
    e.IsOwn := by
  rcases text_cases (.bytes raw) base with
    ⟨s, hs⟩ | ⟨reason, hs⟩ | ⟨e', he'⟩ | ⟨e', he'⟩
  · rw [hs] at h
    cases h
  · rw [hs] at h
    cases h
    rfl
  · cases he' with
    | raised ho
    | untold ho =>
        obtain ⟨_, _, -, hbroken, -⟩ := ho
        cases hbroken
  · rw [he'.text_eq] at h
    cases h
    exact he'.isOwn

/-- So a conversion of octets ends in faults of its own. -/
theorem isOwn_of_toJson {raw : Bytes} {mediaType : Value}
    (hm : mediaType.text?.isSome = true)
    (h : toJson (.bytes raw) mediaType = .error e) : e.IsOwn := by
  have hquoted : mediaType.quotedText = .ok mediaType.quoted := by
    cases mediaType with
    | text s
    | term t => rfl
    | _ => cases hm
  rcases cases_of_bind_eq_error h with hbase | ⟨base, -, h⟩
  · cases mediaType with
    | text m =>
        rw [baseOfValue_text] at hbase
        cases hbase
    | term t =>
        cases hbase
    | _ => cases hm
  rcases cases_of_bind_eq_error h with htext | ⟨s, -, h⟩
  · exact isOwn_of_text htext
  split at h
  · exact (contained_ofJson base s).isOwn h
  · exact isOwn_of_ofYaml h
  · exact (contained_ofJsonLines base s).isOwn h
  · rw [hquoted] at h
    cases h
    rfl

/-- Content of a media type is converted or refused exactly if none of these
faults escapes. One that does is what the conversion ends in. -/
theorem toJson_ending (content : Value) (mediaType : Text) :
    (Contained (toJson content (.text mediaType)) ↔
      ∀ e, ¬ Escapes content (baseMediaType mediaType) e) ∧
      ∀ e, Escapes content (baseMediaType mediaType) e →
        toJson content (.text mediaType) = .error e ∧
          (e.family ∈ escapingFamilies ∨ WalkFault content e) := by
  refine ⟨⟨fun hcontained e he => ?_, fun hnone => ?_⟩, fun e he => ?_⟩
  · rw [he.toJson_eq] at hcontained
    cases hcontained with
    | refused base reason =>
        rcases he.family_mem with hfamily | hwalk
        · have hfamily : "ContentConversionError".toList ∈ escapingFamilies :=
            hfamily
          exact absurd hfamily (by decide)
        · cases hwalk
  · refine (toJson_cases content mediaType).resolve_right ?_
    rintro ⟨e, he⟩
    exact hnone e he
  · exact ⟨he.toJson_eq, he.family_mem⟩

/-- A word that is tagged as a truth value and is none gets out. -/
theorem toJson_escapes :
    ¬ ∀ (content : Value) (mediaType : Text),
      Contained (toJson content (.text mediaType)) := by
  intro hall
  have hcontained := hall (.text "!!bool x".toList) "application/yaml".toList
  exact absurd hcontained (by decide +kernel)

end AuditTrail.Content
