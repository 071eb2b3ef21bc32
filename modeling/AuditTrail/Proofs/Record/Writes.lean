/-
What the operations on a record may write.

`EveryWrite` and `Outcome.Every` say that all writes of a result have a
property; they pass through binds, alternatives and sequences of
outcomes, so what an operation writes is told once, by the few writers
that all operations are built of: `Call.Writes` lists all the writes that
an operation can make, and whatever holds of these holds of the outcome
(`outcome_writes`). The first use is the frame: an operation writes to its
own fields (`Call.fields`) and to no others, hence never to the node's
identifier, which is all that an operation reads of a record (`node_run`).
Likewise `exists_of_initial` tells what a new record is made of.
-/
import AuditTrail.Proofs.Record.Fields
import AuditTrail.Proofs.Results
import AuditTrail.Proofs.Value.Presence

namespace AuditTrail

-- ============================================================== reports

namespace Raised

/-- What states an exception is not empty: there is always a last line. -/
theorem statement_ne_nil {head : Headline} {lines : List Text}
    (h : statement head = .ok lines) : lines.flatMap (place 0) ≠ [] := by
  obtain ⟨s, -, rfl⟩ := exists_of_map_eq_ok h
  have hlast : s.last ++ ['\n'] ∈ s.lines :=
    List.mem_append_right _ (List.mem_singleton.mpr rfl)
  intro hnil
  have hempty : place 0 (s.last ++ ['\n']) = [] :=
    List.flatMap_eq_nil_iff.mp hnil _ (List.mem_append_left _ hlast)
  exact List.append_ne_nil_of_right_ne_nil _ (List.cons_ne_nil _ _) hempty

/-- The members of a group are shown below a title. -/
theorem membersText_ne_nil {depth count index : Nat} {r : Raised}
    {rest : List Raised} {s : Text}
    (h : membersText depth count index (r :: rest) = .ok s) : s ≠ [] := by
  have htitle : ∀ first title, memberTitle depth first title ≠ [] := by
    intro first title
    unfold memberTitle
    simp
  rw [membersText] at h
  split at h
  case isTrue =>
    cases h
    simp [htitle]
  case isFalse =>
    obtain ⟨⟨own, drawn⟩, -, h⟩ := exists_of_bind_eq_ok h
    obtain ⟨more, -, h⟩ := exists_of_bind_eq_ok h
    cases h
    simp [htitle]

/-- The report of an exception is never empty. -/
theorem report_ne_nil {r : Raised} {s : Text} (h : r.report = .ok s) :
    s ≠ [] := by
  obtain ⟨whole, hwhole, rfl⟩ := exists_of_map_eq_ok h
  obtain ⟨head, cause, context, silent, members⟩ := r
  unfold textAt at hwhole
  extract_lets depth own at hwhole
  -- whatever led to the exception, its own part is not empty
  have hown : ∀ before, own before = .ok whole → whole.1 ≠ [] := by
    intro before h
    cases members with
    | nil =>
        obtain ⟨lines, hlines, h⟩ := exists_of_bind_eq_ok h
        cases h
        exact List.append_ne_nil_of_right_ne_nil _ (statement_ne_nil hlines)
    | cons first rest =>
        obtain ⟨lines, -, h⟩ := exists_of_bind_eq_ok h
        obtain ⟨inner, hinner, h⟩ := exists_of_bind_eq_ok h
        cases h
        refine List.append_ne_nil_of_right_ne_nil _ ?_
        exact List.append_ne_nil_of_right_ne_nil _ (membersText_ne_nil hinner)
  clear_value own
  split at hwhole
  case h_1 =>
    obtain ⟨_, -, h⟩ := exists_of_bind_eq_ok hwhole
    exact hown _ h
  case h_2 =>
    split at hwhole
    case isTrue => exact hown _ hwhole
    case isFalse =>
      obtain ⟨_, -, h⟩ := exists_of_bind_eq_ok hwhole
      exact hown _ h
  case h_3 => exact hown _ hwhole

end Raised

variable {p : Write → Prop} {h : Host} {node : Value}

/-- All writes of a result have a property. -/
def EveryWrite (p : Write → Prop) (x : Except Fault (List Write)) : Prop :=
  ∀ ws, x = .ok ws → ∀ w ∈ ws, p w

/-- All writes of an outcome have a property. -/
def Outcome.Every (p : Write → Prop) (o : Outcome) : Prop :=
  ∀ w ∈ o.writes, p w

-- ==================================================== results of writing

theorem everyWrite_error (e : Fault) : EveryWrite p (.error e) := by
  intro ws h
  cases h

theorem everyWrite_nil : EveryWrite p (.ok []) := by
  intro ws h
  cases h
  exact fun w hw => absurd hw List.not_mem_nil

theorem everyWrite_singleton {w : Write} (hw : p w) :
    EveryWrite p (.ok [w]) := by
  intro ws h
  cases h
  intro w' hw'
  rw [List.mem_singleton.mp hw']
  exact hw

/-- What is written after a step has the property if it has it for every
result of the step. -/
theorem EveryWrite.bind {α : Type} {x : Except Fault α}
    {k : α → Except Fault (List Write)}
    (hk : ∀ a, x = .ok a → EveryWrite p (k a)) : EveryWrite p (x >>= k) := by
  cases x with
  | error e => exact everyWrite_error e
  | ok a => exact hk a rfl

theorem EveryWrite.ite {b : Prop} [Decidable b]
    {x y : Except Fault (List Write)} (hx : EveryWrite p x)
    (hy : EveryWrite p y) : EveryWrite p (if b then x else y) := by
  split
  · exact hx
  · exact hy

theorem EveryWrite.outcome {x : Except Fault (List Write)}
    (hx : EveryWrite p x) : (Outcome.of x).Every p := by
  cases x with
  | error e => exact fun w hw => absurd hw List.not_mem_nil
  | ok ws => exact hx ws rfl

theorem Outcome.every_of_nil {o : Outcome} (h : o.writes = []) :
    o.Every p := by
  intro w hw
  rw [h] at hw
  exact absurd hw List.not_mem_nil

theorem Outcome.Every.ite {b : Prop} [Decidable b] {x y : Outcome}
    (hx : x.Every p) (hy : y.Every p) :
    Outcome.Every p (if b then x else y) := by
  split
  · exact hx
  · exact hy

theorem Outcome.Every.andThen {a b : Outcome} (ha : a.Every p)
    (hb : b.Every p) : (a.andThen b).Every p := by
  unfold Outcome.andThen
  split
  · exact ha
  · intro w hw
    rcases List.mem_append.mp hw with hw | hw
    · exact ha w hw
    · exact hb w hw

/-- The two ways in which a write to a field comes about: the value is of
the field's kind, or it is refused. -/
theorem Write.of_eq_ok {f : Field} {v : Value} {w : Write}
    (h : Write.of f v = .ok w) : w = (f, v) ∧ f.kind.accepts v = true := by
  unfold Write.of at h
  split at h
  case isTrue hk =>
    injection h with hw
    exact ⟨hw.symm, hk⟩
  case isFalse => cases h

namespace Call

theorem everyWrite_write {f : Field} {v : Value}
    (hp : f.kind.accepts v = true → p (f, v)) : EveryWrite p (write f v) := by
  refine EveryWrite.bind fun w hw => ?_
  obtain ⟨rfl, hk⟩ := Write.of_eq_ok hw
  exact everyWrite_singleton (hp hk)

theorem ifPresent_of_truthy {v : Value} {x : Except Fault (List Write)}
    (hv : v.truthy = true) : ifPresent v x = x := by
  rw [ifPresent, Value.truth_eq_true_iff.mpr hv]
  rfl

theorem ifPresent_of_absent {v : Value} {x : Except Fault (List Write)}
    (hv : v.truth = .ok false) : ifPresent v x = .ok [] := by
  rw [ifPresent, hv]
  rfl

theorem everyWrite_ifPresent {v : Value} {x : Except Fault (List Write)}
    (hx : v.truthy = true → EveryWrite p x) :
    EveryWrite p (ifPresent v x) := by
  refine EveryWrite.bind fun b hb => ?_
  cases b with
  | true => exact hx (Value.truth_eq_true_iff.mp hb)
  | false => exact everyWrite_nil

theorem everyWrite_writePresent {f : Field} {v : Value}
    (hp : f.kind.accepts v = true → v.truthy = true → p (f, v)) :
    EveryWrite p (writePresent f v) :=
  everyWrite_ifPresent fun hv => everyWrite_write fun hk => hp hk hv

-- ============================================================== writers

theorem everyWrite_writeBody {x : Except Fault Text}
    (hp : ∀ v, FieldKind.text.accepts v = true → v.truthy = true →
      p (.requestBody, v)) :
    EveryWrite p (writeBody x) :=
  EveryWrite.bind fun _ _ => everyWrite_writePresent (hp _)

/-- A security body is what redaction makes of the source, if that is
present. -/
theorem everyWrite_writeSecurityText {source document : Value}
    (hp : ∀ v, Redaction.contentValue source document = .ok v →
      FieldKind.text.accepts v = true → v.truthy = true →
      p (.requestBody, v)) :
    EveryWrite p (writeSecurityText source document) :=
  everyWrite_ifPresent fun _ =>
    EveryWrite.bind fun v hv => everyWrite_writePresent (hp v hv)

theorem everyWrite_writeSecurityBody {x : Except Fault Text}
    {document : Value} (hmarker : p (.requestBody, .text conversionMarker))
    (hp : ∀ s v, Redaction.contentValue (.text s) document = .ok v →
      FieldKind.text.accepts v = true → v.truthy = true →
      p (.requestBody, v)) :
    EveryWrite p (writeSecurityBody x document) := by
  cases x with
  | error e =>
      exact .ite (everyWrite_singleton hmarker) (everyWrite_error e)
  | ok s => exact everyWrite_writeSecurityText (hp s)

theorem everyWrite_writeDifference {diff : Value}
    (hcontent : FieldKind.text.accepts diff = true → diff.truthy = true →
      p (.complianceDiffContent, diff))
    (hnoop : ∀ b, p (.complianceDiffIsNoop, .bool b)) :
    EveryWrite p (writeDifference diff) := by
  unfold writeDifference
  split
  case h_1 => exact everyWrite_nil
  case h_2 =>
    refine EveryWrite.bind fun b hb => ?_
    cases b with
    | false => exact everyWrite_singleton (hnoop true)
    | true =>
        refine EveryWrite.bind fun w hw => ?_
        obtain ⟨rfl, hk⟩ := Write.of_eq_ok hw
        intro ws hws
        cases hws
        exact List.forall_mem_cons.mpr
          ⟨hcontent hk (Value.truth_eq_true_iff.mp hb),
            List.forall_mem_singleton.mpr (hnoop false)⟩

theorem every_writeFiles {paths : Value}
    (hp : ∀ prints : List Fingerprint,
      p (.complianceFileInfos, .list (prints.map Fingerprint.toValue))) :
    (writeFiles h paths).Every p := by
  unfold writeFiles
  split
  case h_1 | h_2 => exact Outcome.every_of_nil rfl
  case h_3 =>
    split
    · exact Outcome.every_of_nil rfl
    · exact List.forall_mem_singleton.mpr (hp _)

theorem everyWrite_writeItems {f : Field} {v : Value}
    (hp : ∀ vs, v.truthy = true → v.items = .ok vs → p (f, .list vs)) :
    EveryWrite p (writeItems f v) :=
  everyWrite_ifPresent fun htruthy =>
    EveryWrite.bind fun vs hvs => everyWrite_singleton (hp vs htruthy hvs)

theorem everyWrite_writeHeaders {headers : Value} {exclude : Bool}
    {filter : FilterChoice}
    (hp : ∀ g kept, Redaction.restHeaders headers exclude g = .ok kept →
      p (.restRequestHeaders, .map kept)) :
    EveryWrite p (writeHeaders headers exclude filter) := by
  refine everyWrite_ifPresent fun _ => ?_
  cases filter with
  | absent
  | given f =>
      exact EveryWrite.bind fun kept hkept =>
        everyWrite_singleton (hp _ kept hkept)
  | other family =>
      refine EveryWrite.bind fun visible hvisible => ?_
      split
      case isTrue hempty =>
        rw [List.isEmpty_iff.mp hempty] at hvisible
        exact everyWrite_singleton (hp none [] hvisible)
      case isFalse => exact everyWrite_error _

/-- Where it is not told whether the authorization is left out, nothing is
written. -/
theorem everyWrite_writeHeadersUnless {headers exclude : Value}
    {filter : FilterChoice}
    (hp : ∀ exclude g kept,
      Redaction.restHeaders headers exclude g = .ok kept →
      p (.restRequestHeaders, .map kept)) :
    EveryWrite p (writeHeadersUnless headers exclude filter) := by
  unfold writeHeadersUnless
  split
  case h_1 => exact everyWrite_writeHeaders (hp _)
  case h_2 =>
    refine everyWrite_ifPresent fun _ => ?_
    exact EveryWrite.bind fun _ _ => everyWrite_error _

theorem everyWrite_writeTransportHeaders {headers exclude : Value}
    (hp : ∀ kept,
      Redaction.transportHeaders headers exclude.truthy = .ok kept →
      p (.transportRequestHeaders, .map kept)) :
    EveryWrite p (writeTransportHeaders headers exclude) := by
  refine everyWrite_ifPresent fun _ => EveryWrite.bind fun b hb => ?_
  refine EveryWrite.bind fun kept hkept => everyWrite_singleton ?_
  rw [← (Value.truth_eq_ok_iff.mp hb).2] at hkept
  exact hp kept hkept

theorem everyWrite_writeParams {params : Value} {filter : FilterChoice}
    (hp : ∀ g kept, Redaction.urlParams params g = .ok kept →
      p (.restRequestParams, .map kept)) :
    EveryWrite p (writeParams params filter) := by
  refine everyWrite_ifPresent fun _ => ?_
  cases filter with
  | absent
  | given f =>
      exact EveryWrite.bind fun kept hkept =>
        everyWrite_singleton (hp _ kept hkept)
  | other family =>
      refine EveryWrite.bind fun visible hvisible => ?_
      split
      case isTrue hempty =>
        rw [List.isEmpty_iff.mp hempty] at hvisible
        exact everyWrite_singleton (hp none [] hvisible)
      case isFalse => exact everyWrite_error _

theorem everyWrite_writeMethod {method : Value}
    (hp : ∀ m, p (.restRequestMethod, .term (.method m))) :
    EveryWrite p (writeMethod method) := by
  unfold writeMethod
  split
  · exact everyWrite_nil
  · exact EveryWrite.bind fun m _ => everyWrite_singleton (hp m)

theorem everyWrite_redactedBody {r : Request}
    (hp : ∀ v, FieldKind.text.accepts v = true → v.truthy = true →
      p (.requestBody, v)) :
    EveryWrite p (redactedBody r) := by
  unfold redactedBody
  refine EveryWrite.bind fun _ _ => ?_
  refine EveryWrite.bind fun _ _ => ?_
  exact EveryWrite.bind fun v _ => everyWrite_writePresent (hp v)

theorem every_writeRequestBody {r : Request}
    (hp : ∀ v, FieldKind.text.accepts v = true → v.truthy = true →
      p (.requestBody, v)) :
    (writeRequestBody r).Every p := by
  have hmarked : p (.requestBody, .text bodyMarker) := hp _ rfl (by decide)
  unfold writeRequestBody
  split
  case h_1 ws hws => exact everyWrite_redactedBody hp ws hws
  case h_2 =>
    refine Outcome.Every.ite ?_ (Outcome.every_of_nil rfl)
    dsimp only
    split
    · exact List.forall_mem_singleton.mpr hmarked
    · exact List.forall_mem_singleton.mpr hmarked

theorem every_writeLoggedBody {r : Request} {f : Filter}
    (hbody : ∀ v, FieldKind.text.accepts v = true → v.truthy = true →
      p (.requestBody, v)) :
    (writeLoggedBody r f).Every p := by
  refine Outcome.Every.ite ?_ (Outcome.every_of_nil rfl)
  split
  · exact Outcome.every_of_nil rfl
  · exact every_writeRequestBody hbody
  · exact Outcome.every_of_nil rfl

section Request

variable {r : Request}
  (hpath : ∀ v, FieldKind.text.accepts v = true → v.truthy = true →
    p (.restRequestPath, v))
  (hheaders : ∀ exclude g kept,
    Redaction.restHeaders r.headers exclude g = .ok kept →
    p (.restRequestHeaders, .map kept))
  (hparams : ∀ entries g kept, redactedParams r = .ok entries →
    Redaction.urlParams (.map entries) g = .ok kept →
    p (.restRequestParams, .map kept))
  (hmethod : ∀ m, p (.restRequestMethod, .term (.method m)))

include hpath hheaders hparams hmethod

theorem every_writeRequestHead {f : Filter} :
    (writeRequestHead r f).Every p := by
  unfold writeRequestHead
  split
  case h_1 => exact Outcome.every_of_nil rfl
  case h_2 entries hentries =>
    refine Outcome.Every.andThen ?_ (Outcome.Every.andThen ?_
      (Outcome.Every.andThen ?_ ?_))
    · exact EveryWrite.outcome (everyWrite_writePresent (hpath _))
    · exact (everyWrite_writeHeaders (hheaders _)).outcome
    · exact (everyWrite_writeParams fun g kept =>
        hparams entries g kept hentries).outcome
    · exact (everyWrite_writeMethod hmethod).outcome

theorem every_writeRequest {f : Filter}
    (hbody : ∀ v, FieldKind.text.accepts v = true → v.truthy = true →
      p (.requestBody, v)) :
    (writeRequest r f).Every p :=
  Outcome.Every.andThen
    (every_writeRequestHead hpath hheaders hparams hmethod)
    (every_writeLoggedBody hbody)

end Request

theorem every_writeRequestUnfiltered {r : Request} {family : Text}
    (hpath : ∀ v, FieldKind.text.accepts v = true → v.truthy = true →
      p (.restRequestPath, v)) :
    (writeRequestUnfiltered r family).Every p := by
  unfold writeRequestUnfiltered
  split
  · exact Outcome.every_of_nil rfl
  · refine Outcome.Every.andThen ?_ (Outcome.every_of_nil rfl)
    exact EveryWrite.outcome (everyWrite_writePresent (hpath _))

-- ================================================= what operations write

/-- The fields that an operation may write to. -/
def fields : Call → List Field
  | .remoteAddress _ => [.remoteAddress]
  | .isAdminDn _ => [.isAdminDn]
  | .initiatingUser _ => [.requestInitiatingUser]
  | .effectiveUser _ => [.requestEffectiveUser]
  | .privilege _ => [.privilege]
  | .exception _ => [.exception]
  | .writeDiff _ | .securityWriteDiff _ _ =>
      [.complianceDiffContent, .complianceDiffIsNoop]
  | .operation _ => [.complianceOperation]
  | .docVersion _ => [.complianceDocVersion]
  | .fileInfos _ => [.complianceFileInfos]
  | .bodyPair _ | .bodyMapping _ | .bodyText _ | .securityText _ _
  | .securityPair _ _ | .securityMapping _ _ => [.requestBody]
  | .requestType _ => [.transportRequestType]
  | .action _ => [.transportAction]
  | .documentId _ => [.id]
  | .indices _ => [.indices]
  | .resolvedIndices _ => [.resolvedIndices]
  | .taskId _ => [.taskId]
  | .parentTaskId _ => [.taskParentId]
  | .shard _ => [.shardId]
  | .transportHeaders _ _ => [.transportRequestHeaders]
  | .path _ => [.restRequestPath]
  | .method _ => [.restRequestMethod]
  | .params _ _ => [.restRequestParams]
  | .headers _ _ _ => [.restRequestHeaders]
  | .request _ _ =>
      [.restRequestPath, .restRequestHeaders, .restRequestParams,
        .restRequestMethod, .requestBody]

/-- The value that an operation takes a number from. -/
def number? : Call → Option Value
  | .docVersion v => some v
  | .shard (.shard s) => some s.id
  | _ => none

/-- The value that an operation takes a list of items from. -/
def sequence? : Call → Option Value
  | .indices v | .resolvedIndices v => some v
  | _ => none

/-- The value that an operation takes REST headers from. -/
def headers? : Call → Option Value
  | .headers v _ _ => some v
  | .request (.request r) _ => some r.headers
  | _ => none

/-- The value that an operation takes parameters from: those of a request
are redacted like bodies first. -/
def params? : Call → Option Value
  | .params v _ => some v
  | .request (.request r) _ => (redactedParams r).toOption.map .map
  | _ => none

/-- What an operation may write, on a record of some node: to each of its
fields values of one shape, made of its arguments. -/
inductive Writes (node : Value) (c : Call) : Write → Prop
  | text {f : Field} {v : Value} (hf : f ∈ c.fields) (hkind : f.kind = .text)
      (htask : f ≠ .taskId) (hv : FieldKind.text.accepts v = true)
      (hpresent : v.truthy = true) : Writes node c (f, v)
  | task {id : Text} (hf : .taskId ∈ c.fields) :
      Writes node c (.taskId, .text (node.plain ++ ':' :: id))
  | flag {f : Field} {b : Bool} (hf : f ∈ c.fields) (hkind : f.kind = .flag) :
      Writes node c (f, .bool b)
  | number {f : Field} {n : Int} (hf : f ∈ c.fields)
      (hkind : f.kind = .integer) (hn : c.number? = some (.int n)) :
      Writes node c (f, .int n)
  | member {f : Field} {t : Term} (hf : f ∈ c.fields) (hkind : f.kind ≠ .text)
      (ht : f.kind.accepts (.term t) = true) : Writes node c (f, .term t)
  | files {prints : List Fingerprint} (hf : .complianceFileInfos ∈ c.fields) :
      Writes node c
        (.complianceFileInfos, .list (prints.map Fingerprint.toValue))
  | items {f : Field} {v : Value} {vs : List Value} (hf : f ∈ c.fields)
      (hkind : f.kind = .sequence) (hv : c.sequence? = some v)
      (hpresent : v.truthy = true) (hvs : v.items = .ok vs) :
      Writes node c (f, .list vs)
  | transportHeaders {v exclude : Value} {kept : Value.Entries}
      (hc : c = .transportHeaders v exclude)
      (hkept : Redaction.transportHeaders v exclude.truthy = .ok kept) :
      Writes node c (.transportRequestHeaders, .map kept)
  | headers {v : Value} {exclude : Bool} {g : Option Filter}
      {kept : Value.Entries} (hf : .restRequestHeaders ∈ c.fields)
      (hv : c.headers? = some v)
      (hkept : Redaction.restHeaders v exclude g = .ok kept) :
      Writes node c (.restRequestHeaders, .map kept)
  | params {v : Value} {g : Option Filter} {kept : Value.Entries}
      (hf : .restRequestParams ∈ c.fields) (hv : c.params? = some v)
      (hkept : Redaction.urlParams v g = .ok kept) :
      Writes node c (.restRequestParams, .map kept)

/-- Where a value of another type is refused, nothing is written. -/
theorem every_refused {b : Prop} [Decidable b] {e : Fault} :
    Outcome.Every p (if b then .nothing else ⟨[], some e, []⟩) := by
  split
  · exact Outcome.every_of_nil rfl
  · exact Outcome.every_of_nil rfl

/-- A value of an integer field is an integer. -/
theorem exists_of_accepts_integer {v : Value}
    (hv : FieldKind.integer.accepts v = true) : ∃ n, v = .int n := by
  cases v with
  | int n => exact ⟨n, rfl⟩
  | _ => cases hv

/-- A value of a flag is true or false. -/
theorem exists_of_accepts_flag {v : Value}
    (hv : FieldKind.flag.accepts v = true) : ∃ b, v = .bool b := by
  cases v with
  | bool b => exact ⟨b, rfl⟩
  | _ => cases hv

section Groups

variable {c : Call} {f : Field} {v document : Value} {x : Except Fault Text}

/-- A text that is present. -/
theorem text_writes (hf : f ∈ c.fields) (hkind : f.kind = .text)
    (htask : f ≠ .taskId) :
    (Outcome.of (writePresent f v)).Every (c.Writes node) := by
  refine EveryWrite.outcome (everyWrite_writePresent fun hv => ?_)
  exact .text hf hkind htask (hkind ▸ hv)

/-- A number. -/
theorem number_writes (hf : f ∈ c.fields) (hkind : f.kind = .integer)
    (hn : c.number? = some v) :
    (Outcome.of (write f v)).Every (c.Writes node) := by
  refine EveryWrite.outcome (everyWrite_write fun hv => ?_)
  obtain ⟨n, rfl⟩ := exists_of_accepts_integer (hkind ▸ hv)
  exact .number hf hkind hn

/-- The items of a value. -/
theorem items_writes (hf : f ∈ c.fields) (hkind : f.kind = .sequence)
    (hv : c.sequence? = some v) :
    (Outcome.of (writeItems f v)).Every (c.Writes node) :=
  (everyWrite_writeItems fun _ => .items hf hkind hv).outcome

/-- The report of an exception. -/
theorem exception_writes (e : Raised) :
    ((Call.exception (.exception e)).outcome h node).Every
      ((Call.exception (.exception e)).Writes node) := by
  refine EveryWrite.outcome (EveryWrite.bind fun s hs => ?_)
  refine everyWrite_write fun hv => ?_
  exact .text List.mem_cons_self rfl (by decide) hv
    (Value.truthy_text (Raised.report_ne_nil hs))

/-- A difference. -/
theorem difference_writes
    (hc : c.fields = [.complianceDiffContent, .complianceDiffIsNoop]) :
    EveryWrite (c.Writes node) (writeDifference v) := by
  refine everyWrite_writeDifference ?_ fun _ => .flag (by simp [hc]) rfl
  exact .text (by simp [hc]) rfl (by decide)

/-- A converted body. -/
theorem body_writes (hf : .requestBody ∈ c.fields) :
    EveryWrite (c.Writes node) (writeBody x) :=
  everyWrite_writeBody fun _ => .text hf rfl (by decide)

/-- A body of the security configuration. -/
theorem securityText_writes (hf : .requestBody ∈ c.fields) :
    EveryWrite (c.Writes node) (writeSecurityText v document) :=
  everyWrite_writeSecurityText fun _ _ => .text hf rfl (by decide)

theorem securityBody_writes (hf : .requestBody ∈ c.fields) :
    EveryWrite (c.Writes node) (writeSecurityBody x document) := by
  refine everyWrite_writeSecurityBody ?_ ?_
  · exact .text hf rfl (by decide) rfl (by decide)
  · exact fun _ _ _ => .text hf rfl (by decide)

/-- A task, whatever it is. -/
theorem task_writes (v : Value) :
    ((Call.taskId v).outcome h node).Every ((Call.taskId v).Writes node) := by
  refine EveryWrite.outcome (EveryWrite.bind fun n hn => ?_)
  refine EveryWrite.bind fun _ _ => ?_
  rw [Value.eq_plain_of_plainText hn]
  exact everyWrite_write fun _ => .task List.mem_cons_self

/-- A whole request. -/
theorem request_writes (r : Request) (filter : FilterChoice) :
    ((Call.request (.request r) filter).outcome h node).Every
      ((Call.request (.request r) filter).Writes node) := by
  have hpath : ∀ v, FieldKind.text.accepts v = true → v.truthy = true →
      Writes node (.request (.request r) filter) (.restRequestPath, v) :=
    fun _ => .text List.mem_cons_self rfl (by decide)
  have hrequest : ∀ f, (writeRequest r f).Every
      (Writes node (.request (.request r) filter)) := by
    intro f
    refine every_writeRequest hpath ?_ ?_ ?_ ?_
    · exact fun _ _ _ hkept => .headers (by simp [fields]) rfl hkept
    · intro entries g kept hentries hkept
      refine .params (by simp [fields]) ?_ hkept
      show (redactedParams r).toOption.map _ = _
      rw [hentries]
      rfl
    · exact fun _ => .member (by simp [fields]) (by decide) rfl
    · exact fun _ => .text (by simp [fields]) rfl (by decide)
  cases filter with
  | absent => exact hrequest _
  | given f => exact hrequest f
  | other family => exact every_writeRequestUnfiltered hpath

end Groups

/-- An operation writes nothing else. All that is said below of operations
follows from this by cases on the write. -/
theorem outcome_writes (h : Host) (node : Value) (c : Call) :
    (c.outcome h node).Every (c.Writes node) := by
  cases c with
  | remoteAddress v
  | initiatingUser v
  | effectiveUser v
  | privilege v
  | bodyText v
  | requestType v
  | action v
  | documentId v
  | parentTaskId v
  | path v => exact text_writes List.mem_cons_self rfl (by decide)
  | isAdminDn v =>
      refine EveryWrite.outcome (everyWrite_write fun hv => ?_)
      obtain ⟨b, rfl⟩ := exists_of_accepts_flag hv
      exact .flag List.mem_cons_self rfl
  | docVersion v => exact number_writes List.mem_cons_self rfl rfl
  | exception a =>
      cases a with
      | exception e => exact exception_writes e
      | _ => exact every_refused
  | writeDiff v => exact (difference_writes rfl).outcome
  | securityWriteDiff v document =>
      exact (EveryWrite.bind fun _ _ => difference_writes rfl).outcome
  | operation v =>
      simp only [outcome]
      split
      · exact Outcome.every_of_nil rfl
      · refine EveryWrite.outcome (EveryWrite.bind fun _ _ => ?_)
        exact everyWrite_singleton
          (.member List.mem_cons_self (by decide) rfl)
  | fileInfos v => exact every_writeFiles fun _ => .files List.mem_cons_self
  | bodyPair v =>
      simp only [outcome]
      split
      · exact Outcome.every_of_nil rfl
      · exact (body_writes List.mem_cons_self).outcome
  | bodyMapping v =>
      refine EveryWrite.outcome (everyWrite_ifPresent fun _ => ?_)
      exact body_writes List.mem_cons_self
  | securityText v document =>
      exact (securityText_writes List.mem_cons_self).outcome
  | securityPair v document =>
      simp only [outcome]
      split
      · exact Outcome.every_of_nil rfl
      · exact (securityBody_writes List.mem_cons_self).outcome
  | securityMapping v document =>
      refine EveryWrite.outcome (everyWrite_ifPresent fun _ => ?_)
      exact securityBody_writes List.mem_cons_self
  | indices v
  | resolvedIndices v => exact items_writes List.mem_cons_self rfl rfl
  | taskId v => exact task_writes v
  | shard a =>
      cases a with
      | shard s => exact number_writes List.mem_cons_self rfl rfl
      | _ => exact every_refused
  | transportHeaders v exclude =>
      refine EveryWrite.outcome (everyWrite_writeTransportHeaders fun _ => ?_)
      exact .transportHeaders rfl
  | method v =>
      refine EveryWrite.outcome (everyWrite_writeMethod fun _ => ?_)
      exact .member List.mem_cons_self (by decide) rfl
  | params v filter =>
      refine EveryWrite.outcome (everyWrite_writeParams fun _ _ => ?_)
      exact .params List.mem_cons_self rfl
  | headers v exclude filter =>
      refine EveryWrite.outcome (everyWrite_writeHeadersUnless fun _ _ _ => ?_)
      exact .headers List.mem_cons_self rfl
  | request a filter =>
      cases a with
      | request r => exact request_writes r filter
      | _ => exact every_refused

-- ================================================================ frame

/-- An operation writes to its own fields only. -/
theorem outcome_fields (h : Host) (node : Value) (c : Call) :
    (c.outcome h node).Every fun w => w.1 ∈ c.fields := by
  intro w hw
  cases outcome_writes h node c w hw with
  | transportHeaders hc =>
      rw [hc]
      exact List.mem_cons_self
  | text hf | task hf | flag hf | number hf | member hf | files hf
  | items hf | headers hf | params hf => exact hf

end Call

namespace Record

variable {r : Record} {c : Call} {cs : List Call}

/-- The fields that a new record may hold. -/
def startFields : List Field :=
  [.formatVersion, .category, .utcTimestamp, .nodeHostAddress, .nodeId,
    .nodeHostName, .nodeName, .clusterName, .origin, .requestLayer]

/-- No operation writes to what a record was started with. -/
theorem notMem_fields_of_mem_startFields (c : Call) :
    ∀ f ∈ startFields, f ∉ c.fields := by
  cases c <;> simp [startFields, Call.fields]

/-- An operation leaves the other fields as they are. -/
theorem get?_apply_of_notMem {f : Field} (hf : f ∉ c.fields) :
    (r.apply h c).get? f = r.get? f := by
  refine get?_putAll_of_ne fun w hw hwf => hf ?_
  rw [← hwf]
  exact Call.outcome_fields h r.node c w hw

/-- A record stays one of its node. -/
theorem node_apply : (r.apply h c).node = r.node := by
  unfold node
  rw [get?_apply_of_notMem
    (notMem_fields_of_mem_startFields c .nodeId (by decide))]

theorem node_run : (r.run h cs).node = r.node := by
  induction cs generalizing r with
  | nil => rfl
  | cons c cs ih => rw [run_cons, ih, node_apply]

-- ======================================================== a new record

variable {category origin layer : Value} {cluster : Option Cluster}
  {clock : DateTime}

/-- What the first eight fields of a record are made of: the category of
the event, the identity of the node and the time. -/
structure Identity where
  category : Category
  cluster : Cluster
  time : Instant

/-- The first eight fields of a record. -/
def Identity.writes (i : Identity) : List Write :=
  [(.formatVersion, .int AuditTrail.formatVersion),
    (.category, .term (.category i.category)),
    (.utcTimestamp, .text i.time.toText),
    (.nodeHostAddress, i.cluster.hostAddress),
    (.nodeId, i.cluster.nodeId),
    (.nodeHostName, i.cluster.hostName),
    (.nodeName, i.cluster.nodeName),
    (.clusterName, i.cluster.clusterName)]

/-- What a record is made of is what it is asked for, if that is of the
right kinds. -/
structure Identity.Of (i : Identity) (category : Value)
    (cluster : Option Cluster) (clock : DateTime) : Prop where
  category : categoryOf category = .ok i.category
  cluster : cluster = some i.cluster
  time : clock.toInstant? = .ok i.time
  accepted : ∀ w ∈ i.writes, w.1.kind.accepts w.2 = true

/-- A new record begins with the first eight fields; the origin and the
layer follow. -/
theorem exists_of_initial {ws : List Write}
    (h : initial category cluster origin layer clock = .ok ws) :
    ∃ (i : Identity) (os ls : List Write), i.Of category cluster clock
      ∧ originWrite .origin origin = .ok os
      ∧ originWrite .requestLayer layer = .ok ls
      ∧ ws = i.writes ++ os ++ ls := by
  unfold initial at h
  split at h
  case h_1 => cases h
  case h_2 => cases h
  case h_3 category' c _ =>
    cases htime : clock.toInstant? with
    | error e =>
        rw [htime] at h
        cases h
    | ok now =>
        rw [htime] at h
        obtain ⟨_, hnow, h⟩ := exists_of_bind_eq_ok h
        cases hnow
        obtain ⟨kind, hkind, h⟩ := exists_of_bind_eq_ok h
        obtain ⟨address, haddress, h⟩ := exists_of_bind_eq_ok h
        obtain ⟨id, hid, h⟩ := exists_of_bind_eq_ok h
        obtain ⟨hostName, hhost, h⟩ := exists_of_bind_eq_ok h
        obtain ⟨nodeName, hnode, h⟩ := exists_of_bind_eq_ok h
        obtain ⟨clusterName, hcluster, h⟩ := exists_of_bind_eq_ok h
        obtain ⟨os, hos, h⟩ := exists_of_bind_eq_ok h
        obtain ⟨ls, hls, h⟩ := exists_of_bind_eq_ok h
        cases h
        obtain ⟨rfl, kaddress⟩ := Write.of_eq_ok haddress
        obtain ⟨rfl, kid⟩ := Write.of_eq_ok hid
        obtain ⟨rfl, khost⟩ := Write.of_eq_ok hhost
        obtain ⟨rfl, knode⟩ := Write.of_eq_ok hnode
        obtain ⟨rfl, kcluster⟩ := Write.of_eq_ok hcluster
        refine ⟨⟨kind, c, now⟩, os, ls, ⟨hkind, rfl, htime, ?_⟩, hos, hls, rfl⟩
        simp only [Identity.writes, List.forall_mem_cons]
        exact ⟨rfl, rfl, rfl, kaddress, kid, khost, knode, kcluster,
          fun w hw => absurd hw List.not_mem_nil⟩

/-- An origin is written if one is given that is known. -/
theorem originWrite_eq_ok {f : Field} {v : Value} {ws : List Write}
    (h : originWrite f v = .ok ws) :
    (v = .null ∧ ws = [])
      ∨ ∃ o, originOf v = .ok o ∧ ws = [(f, .term (.origin o))] := by
  unfold originWrite at h
  split at h
  case h_1 =>
    cases h
    exact .inl ⟨rfl, rfl⟩
  case h_2 =>
    obtain ⟨o, ho, h⟩ := exists_of_bind_eq_ok h
    cases h
    exact .inr ⟨o, ho, rfl⟩

/-- What holds of the identity of the node and of any origin holds of all
that a new record is made of. -/
theorem everyWrite_initial {p : Write → Prop}
    (hidentity : ∀ i : Identity, i.Of category cluster clock →
      ∀ w ∈ i.writes, p w)
    (horigin : ∀ f ∈ [Field.origin, .requestLayer],
      ∀ o, p (f, .term (.origin o))) :
    EveryWrite p (initial category cluster origin layer clock) := by
  intro ws hws
  obtain ⟨i, os, ls, hi, hos, hls, rfl⟩ := exists_of_initial hws
  have hgiven : ∀ f ∈ [Field.origin, .requestLayer], ∀ v ws,
      originWrite f v = .ok ws → ∀ w ∈ ws, p w := by
    intro f hf v ws hws
    rcases originWrite_eq_ok hws with ⟨-, rfl⟩ | ⟨o, -, rfl⟩
    · exact fun w hw => absurd hw List.not_mem_nil
    · exact List.forall_mem_singleton.mpr (horigin f hf o)
  exact List.forall_mem_append.mpr ⟨List.forall_mem_append.mpr
    ⟨hidentity i hi, hgiven _ (by decide) _ _ hos⟩,
    hgiven _ (by decide) _ _ hls⟩

theorem initial_fields :
    EveryWrite (fun w => w.1 ∈ startFields)
      (initial category cluster origin layer clock) :=
  everyWrite_initial (fun i _ => by simp [Identity.writes, startFields])
    (by simp [startFields])

/-- What holds of all writes of a new record holds of the record. -/
theorem every_start {q : Field → Value → Prop}
    (hq : EveryWrite (fun w => q w.1 w.2)
      (initial category cluster origin layer clock))
    (hr : start category cluster origin layer clock = .ok r) : r.Every q := by
  unfold start at hr
  cases hx : initial category cluster origin layer clock with
  | error e =>
      rw [hx] at hr
      cases hr
  | ok ws =>
      rw [hx] at hr
      cases hr
      exact every_empty.putAll (hq ws hx)

end Record

end AuditTrail
