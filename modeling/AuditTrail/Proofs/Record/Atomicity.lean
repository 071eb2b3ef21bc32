/-
What an operation leaves alone.

An operation touches its own fields only: the rest of the record keeps its
values and its order (`without_putAll`). Input that is absent touches
nothing (`writes_of_isAbsent`), and neither does an operation that fails:
values are converted and checked before the first of them is written
(`atomic_outcome`). Two operations are different. A whole request is
written part by part, so one that fails may have written its head. The body
comes last, and one that cannot be read is recorded as such before the
reason is reported; where that reason cannot be put into words, the report
fails after the write (`writes_of_fault`). And a task is recorded whatever
it is, so that there is no absent task.
-/
import AuditTrail.Proofs.Record.NormalForm

namespace AuditTrail

-- ============================================================== absence

/-- Whether an operation is given nothing that it could record: no value at
all, or an empty one where it takes that for none. -/
def Call.IsAbsent : Call → Prop
  | .remoteAddress v
  | .initiatingUser v
  | .effectiveUser v
  | .privilege v
  | .fileInfos v
  | .bodyMapping v
  | .bodyText v
  | .securityText v _
  | .securityMapping v _
  | .requestType v
  | .action v
  | .documentId v
  | .indices v
  | .resolvedIndices v
  | .parentTaskId v
  | .transportHeaders v _
  | .path v
  | .params v _
  | .headers v _ _ => v.truth = .ok false
  | .isAdminDn v
  | .writeDiff v
  | .securityWriteDiff v _
  | .operation v
  | .docVersion v
  | .bodyPair v
  | .securityPair v _
  | .method v => v = .null
  | .exception a
  | .shard a
  | .request a _ => a = .absent
  | .taskId _ => False

-- ============================================================== failure

/-- Nothing is written where there is a fault. -/
def Outcome.Atomic (o : Outcome) : Prop :=
  o.fault.isSome = true → o.writes = []

theorem Outcome.atomic_of (x : Except Fault (List Write)) :
    (Outcome.of x).Atomic := by
  cases x with
  | error e => exact fun _ => rfl
  | ok ws => exact fun h => absurd h Bool.false_ne_true

theorem Outcome.atomic_of_nil {o : Outcome} (h : o.writes = []) : o.Atomic :=
  fun _ => h

/-- What is written before a fault comes from the first outcome, unless
that one has none; then the second one has it. -/
theorem Outcome.every_andThen_of_fault {p : Write → Prop} {a b : Outcome}
    (ha : a.Every p) (hb : b.fault.isSome = true → b.Every p)
    (h : (a.andThen b).fault.isSome = true) : (a.andThen b).Every p := by
  unfold andThen at h ⊢
  split at h
  · exact ha
  · intro w hw
    rcases List.mem_append.mp hw with hw | hw
    · exact ha w hw
    · exact hb h w hw

namespace Call

variable {h : Host} {node : Value} {c : Call}

/-- Every operation looks at its input before anything else. -/
theorem writes_of_isAbsent (hc : c.IsAbsent) :
    (c.outcome h node).writes = [] := by
  cases c with
  | remoteAddress v
  | initiatingUser v
  | effectiveUser v
  | privilege v
  | bodyText v
  | requestType v
  | action v
  | documentId v
  | parentTaskId v
  | path v =>
      rw [outcome, writePresent, ifPresent_of_absent hc]
      rfl
  | fileInfos v =>
      have hv : v.truth = .ok false := hc
      rw [outcome, writeFiles, hv]
      rfl
  | bodyMapping v
  | securityMapping v document =>
      rw [outcome, ifPresent_of_absent hc]
      rfl
  | securityText v document =>
      rw [outcome, writeSecurityText, ifPresent_of_absent hc]
      rfl
  | indices v
  | resolvedIndices v =>
      rw [outcome, writeItems, ifPresent_of_absent hc]
      rfl
  | transportHeaders v exclude =>
      rw [outcome, writeTransportHeaders, ifPresent_of_absent hc]
      rfl
  | params v filter =>
      rw [outcome, writeParams, ifPresent_of_absent hc]
      rfl
  | headers v exclude filter =>
      rw [outcome, writeHeadersUnless]
      split
      · rw [writeHeaders, ifPresent_of_absent hc]
        rfl
      · rw [ifPresent_of_absent hc]
        rfl
  | isAdminDn v
  | writeDiff v
  | securityWriteDiff v document
  | operation v
  | docVersion v
  | bodyPair v
  | securityPair v document
  | method v =>
      obtain rfl : v = .null := hc
      rfl
  | exception a
  | shard a
  | request a filter =>
      obtain rfl : a = .absent := hc
      rfl
  | taskId v => exact hc.elim

-- =============================================================== failure

/-- The fields that adding a request writes before its body. -/
def headFields : List Field :=
  [.restRequestPath, .restRequestHeaders, .restRequestParams,
    .restRequestMethod]

/-- Values are converted and checked before they are written. -/
theorem atomic_outcome (h : Host) (node : Value) (c : Call)
    (hc : ∀ a filter, c ≠ .request a filter) : (c.outcome h node).Atomic := by
  have hrefused : ∀ {b : Prop} [Decidable b] {e : Fault},
      Outcome.Atomic (if b then .nothing else ⟨[], some e, []⟩) := by
    intro b _ e
    split
    · exact Outcome.atomic_of_nil rfl
    · exact Outcome.atomic_of_nil rfl
  cases c with
  | exception a =>
      cases a with
      | exception e => exact Outcome.atomic_of _
      | _ => exact hrefused
  | shard a =>
      cases a with
      | shard s => exact Outcome.atomic_of _
      | _ => exact hrefused
  | operation v
  | bodyPair v
  | securityPair v document =>
      simp only [outcome]
      split
      · exact Outcome.atomic_of_nil rfl
      · exact Outcome.atomic_of _
  | fileInfos v =>
      -- the only warnings, and they come with a write and no fault
      simp only [outcome, writeFiles]
      split
      case h_1
      | h_2 => exact Outcome.atomic_of_nil rfl
      case h_3 =>
        split
        · exact Outcome.atomic_of_nil rfl
        · exact fun h => absurd h Bool.false_ne_true
  | request a filter => exact absurd rfl (hc a filter)
  | _ => exact Outcome.atomic_of _

/-- The body of a request cannot be read, and the reason cannot be put into
words. -/
def Unspeakable (q : Request) : Prop :=
  ∃ e instead, redactedBody q = .error e ∧ e.isOrdinary = true
    ∧ e.wording = .error instead

/-- Only a report that cannot be put into words fails after a write, that of
the marker. -/
theorem writes_writeRequestBody_of_fault {q : Request}
    (hfault : (writeRequestBody q).fault.isSome = true) :
    (writeRequestBody q).Every fun w =>
      w = (.requestBody, .text bodyMarker) ∧ Unspeakable q := by
  unfold writeRequestBody at hfault ⊢
  split
  case h_1 ws hws =>
    rw [hws] at hfault
    cases hfault
  case h_2 e he =>
    split
    case isFalse => exact Outcome.every_of_nil rfl
    case isTrue hordinary =>
      cases hwording : e.wording with
      | ok message =>
          simp only [he, if_pos hordinary, hwording] at hfault
          cases hfault
      | error instead =>
          exact List.forall_mem_singleton.mpr
            ⟨rfl, e, instead, he, hordinary, hwording⟩

theorem writes_writeLoggedBody_of_fault {q : Request} {f : Filter}
    (hfault : (writeLoggedBody q f).fault.isSome = true) :
    (writeLoggedBody q f).Every fun w =>
      w = (.requestBody, .text bodyMarker) ∧ Unspeakable q := by
  unfold writeLoggedBody at hfault ⊢
  by_cases hlogged : (f.logRequestBody && q.isRest) = true
  · rw [if_pos hlogged] at hfault ⊢
    split
    case h_1
    | h_3 => exact Outcome.every_of_nil rfl
    case h_2 hbody =>
      rw [hbody] at hfault
      exact writes_writeRequestBody_of_fault hfault
  · rw [if_neg hlogged]
    exact Outcome.every_of_nil rfl

theorem every_writeRequestHead_headFields (r : Request) (f : Filter) :
    (writeRequestHead r f).Every fun w => w.1 ∈ headFields := by
  refine every_writeRequestHead ?_ ?_ ?_ ?_
  · exact fun _ _ _ => by simp [headFields]
  · exact fun _ _ _ _ => by simp [headFields]
  · exact fun _ _ _ _ _ => by simp [headFields]
  · exact fun _ => by simp [headFields]

/-- A request that fails may have written its head, and of its body at most
that it cannot be read. -/
theorem writes_of_fault {q : Request} {filter : FilterChoice}
    (hfault : (outcome h node (.request (.request q) filter)).fault.isSome
      = true) :
    (outcome h node (.request (.request q) filter)).Every fun w =>
      w.1 ∈ headFields ∨ w = (.requestBody, .text bodyMarker)
        ∧ Unspeakable q := by
  have hrequest : ∀ f, (writeRequest q f).fault.isSome = true →
      (writeRequest q f).Every fun w =>
        w.1 ∈ headFields ∨ w = (.requestBody, .text bodyMarker)
          ∧ Unspeakable q := by
    intro f hfault
    -- either the head has the fault, or the body
    refine Outcome.every_andThen_of_fault (fun w hw => .inl ?_)
      (fun hfault w hw => .inr ?_) hfault
    · exact every_writeRequestHead_headFields q f w hw
    · exact writes_writeLoggedBody_of_fault hfault w hw
  cases filter with
  | absent => exact hrequest _ hfault
  | given f => exact hrequest f hfault
  | other family =>
      refine every_writeRequestUnfiltered fun _ _ _ => .inl ?_
      simp [headFields]

end Call

namespace Record

variable {h : Host} {r : Record} {c : Call} {ws : List Write}
  {fs : List Field}

-- ============================================================== records

/-- A record without some of its fields, the others as they stand. -/
def without (r : Record) (fs : List Field) : Record :=
  ⟨r.fields.filter fun e => e.1 ∉ fs⟩

theorem without_put {w : Write} (hw : w.1 ∈ fs) :
    (r.put w).without fs = r.without fs := by
  obtain ⟨f, v⟩ := w
  obtain ⟨l⟩ := r
  refine congrArg Record.mk ?_
  show (putField f v l).filter _ = l.filter _
  induction l with
  | nil => simp [putField, hw]
  | cons e l ih =>
      rw [putField]
      split
      case isTrue he => simp [he, hw]
      case isFalse => rw [List.filter_cons, List.filter_cons, ih]

/-- Writes to some fields leave the rest of a record as it stands. -/
theorem without_putAll (hws : ∀ w ∈ ws, w.1 ∈ fs) :
    (r.putAll ws).without fs = r.without fs := by
  induction ws generalizing r with
  | nil => rfl
  | cons w ws ih =>
      obtain ⟨hw, hws'⟩ := List.forall_mem_cons.mp hws
      rw [putAll_cons, ih hws', without_put hw]

theorem apply_of_writes_eq_nil (hws : (c.outcome h r.node).writes = []) :
    r.apply h c = r := by
  unfold apply
  rw [hws]
  rfl

/-- A task is recorded whatever it is. -/
theorem get?_apply_taskId {n : Text} {v : Value} (hn : r.node = .text n)
    (hv : v.plainSilence? = none) :
    (r.apply h (.taskId v)).get? .taskId
      = some (.text (n ++ ':' :: v.plain)) := by
  have hwrites : (Call.outcome h r.node (.taskId v)).writes
      = [(.taskId, .text (n ++ ':' :: v.plain))] := by
    rw [hn, Call.outcome, Value.plainText, Value.plainText, hv]
    rfl
  unfold apply
  rw [hwrites]
  show (r.put _).get? .taskId = _
  rw [get?_put, if_pos rfl]

/-- What a failing operation leaves of a record: all of it but the head of a
request, or that and the marker of a body which cannot be read, for a reason
that cannot be put into words. -/
inductive Spared (h : Host) (r : Record) (c : Call) : Prop
  | body (hrest : (r.apply h c).without Call.headFields
      = r.without Call.headFields)
  | marked (q : Request) (filter : FilterChoice)
      (hc : c = .request (.request q) filter) (hq : Call.Unspeakable q)
      (hmarker : (r.apply h c).get? .requestBody
        = some (.text Call.bodyMarker))
      (hrest : (r.apply h c).without (.requestBody :: Call.headFields)
        = r.without (.requestBody :: Call.headFields))

theorem spared_of_request {q : Request} {filter : FilterChoice}
    (hfault : (Call.outcome h r.node (.request (.request q) filter)).fault.isSome
      = true) : r.Spared h (.request (.request q) filter) := by
  have hwrites := Call.writes_of_fault hfault
  by_cases hbody : ∃ w ∈ (Call.outcome h r.node
      (.request (.request q) filter)).writes, w.1 = .requestBody
  · obtain ⟨w, hw, hwf⟩ := hbody
    have hmarker : ∀ w ∈ (Call.outcome h r.node
        (.request (.request q) filter)).writes, w.1 = .requestBody →
        w = (.requestBody, .text Call.bodyMarker) ∧ Call.Unspeakable q := by
      intro w hw hwf
      refine (hwrites w hw).resolve_left fun hhead => ?_
      rw [hwf] at hhead
      exact absurd hhead (by decide)
    refine .marked q filter rfl (hmarker w hw hwf).2 ?_ ?_
    · exact get?_putAll_of_forall ⟨w, hw, hwf⟩ fun w hw hwf =>
        congrArg Prod.snd (hmarker w hw hwf).1
    · refine without_putAll fun w hw => ?_
      rcases hwrites w hw with hhead | ⟨rfl, -⟩
      · exact List.mem_cons_of_mem _ hhead
      · exact List.mem_cons_self
  · refine .body (without_putAll fun w hw => ?_)
    refine (hwrites w hw).resolve_right fun hmarked => hbody ⟨w, hw, ?_⟩
    rw [hmarked.1]

/-- What an operation leaves alone: the fields that are not its own, with
their values and in their order; all of the record where its input is
absent, for a task is never absent; and all of it where it fails, but for
the head of a request and the marker of a body whose flaw cannot be told. -/
theorem apply_atomic (h : Host) (r : Record) (c : Call) :
    (r.apply h c).without c.fields = r.without c.fields
      ∧ (c.IsAbsent → r.apply h c = r)
      ∧ ((c.outcome h r.node).fault.isSome = true →
        (∀ a filter, c ≠ .request a filter) → r.apply h c = r)
      ∧ ((c.outcome h r.node).fault.isSome = true → r.Spared h c)
      ∧ ∀ n v, c = .taskId v → r.node = .text n → v.plainSilence? = none →
        (r.apply h c).get? .taskId = some (.text (n ++ ':' :: v.plain)) := by
  have hatomic : (∀ a filter, c ≠ .request a filter) →
      (c.outcome h r.node).fault.isSome = true → r.apply h c = r := by
    intro hc hfault
    exact apply_of_writes_eq_nil (Call.atomic_outcome h r.node c hc hfault)
  refine ⟨?_, ?_, fun hfault hc => hatomic hc hfault, fun hfault => ?_, ?_⟩
  · exact without_putAll (Call.outcome_fields h r.node c)
  · exact fun hc => apply_of_writes_eq_nil (Call.writes_of_isAbsent hc)
  · by_cases hc : ∀ a filter, c ≠ .request a filter
    · exact .body (by rw [hatomic hc hfault])
    · simp only [not_forall, not_not] at hc
      obtain ⟨a, filter, rfl⟩ := hc
      cases a with
      | request q => exact spared_of_request hfault
      | _ => exact .body (without_putAll Call.every_refused)
  · rintro n v rfl hn hv
    exact get?_apply_taskId hn hv

/-- A request with a path and a body, but without a method that is known. -/
def oddMethod : Call :=
  .request (.request
    { isRest := true
      path := .text "/a".toList
      method := .text "FETCH".toList
      headers := .map []
      params := .map []
      content := .text ['1']
      mediaType := .text "application/json".toList }) .absent

/-- It fails after its path was written, and leaves no body behind. -/
theorem apply_atomic_oddMethod :
    ∃ r, login = .ok r
      ∧ (r.apply bareHost oddMethod).get? .restRequestPath
        = some (.text "/a".toList)
      ∧ r.Spared bareHost oddMethod
      ∧ (r.apply bareHost oddMethod).get? .requestBody = none := by
  have hr : login = .ok _ := rfl
  obtain ⟨-, -, -, hspared, -⟩ := apply_atomic bareHost _ oddMethod
  exact ⟨_, hr, rfl, hspared rfl, rfl⟩

/-- An iterator that raises something on the first step, which raises again
when it is to be put into words. -/
def wordlessMap : Value :=
  .agent
    { family := "map".toList
      qualified := "map".toList
      hashable := true
      presence := .ok true
      walk := .broken (.untold "KeyError".toList .other
        (.told "ValueError".toList .value
          Json.WriteError.tooManyDigits.message))
      once := true
      plain := .ok "<map object>".toList
      quoted := .ok "<map object>".toList } []

/-- With such content a request fails after its body was marked. -/
example : ∃ r, login = .ok r
    ∧ (Call.outcome bareHost r.node (.request (.request
        { isRest := true
          path := .null
          method := .null
          headers := .map []
          params := .map []
          content := wordlessMap
          mediaType := .text "application/json".toList }) .absent)).writes
      = [(.requestBody, .text Call.bodyMarker)] :=
  ⟨_, rfl, rfl⟩

/-- No task at all is recorded like any other. -/
theorem null_task_recorded :
    ∃ r, login = .ok r ∧ r.get? .taskId = none
      ∧ (r.apply bareHost (.taskId .null)).get? .taskId
        = some (.text "n1:None".toList) :=
  ⟨_, rfl, rfl, rfl⟩

end Record

end AuditTrail
