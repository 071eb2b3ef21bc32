/-
What a record says of the difference that a write made.

An operation states a change and what it consists of, or that nothing has
changed, or nothing at all (`Call.difference?`). Redaction takes hashes out
of a change but never all of it, so a change stays one. Two fields are kept
of it: the flag is that of the last difference that was stated, and the
content is that of the last change (`run_differences`). A statement that
nothing has changed leaves the content of an earlier change in its place, so
the two agree unless it comes after one.
-/
import AuditTrail.Proofs.Record.Bodies
import AuditTrail.Proofs.Record.Invariant
import AuditTrail.Proofs.Value.Typed

namespace AuditTrail

open Redaction

-- ========================================================== differences

/-- What an operation states of a write. -/
inductive Difference where
  | change (content : Value)
  | noop

namespace Difference

/-- The flag of a difference. -/
def isNoop : Difference → Bool
  | change _ => false
  | noop => true

/-- What a change consists of. -/
def content? : Difference → Option Value
  | change v => some v
  | noop => none

/-- The difference that is stated by a value: a change, shown as another
value, if there is something in it. -/
def of (given shown : Value) : Option Difference :=
  match given with
  | .null => none
  | v => some (if v.truthy then change shown else noop)

/-- What is written of a difference. -/
def writes : Option Difference → List Write
  | none => []
  | some (change v) =>
      [(.complianceDiffContent, v), (.complianceDiffIsNoop, .bool false)]
  | some noop => [(.complianceDiffIsNoop, .bool true)]

end Difference

/-- A change of some document as it is recorded. -/
def shownChange (v document : Value) : Value :=
  match v.text? with
  | some s =>
      if document.text? = some usersDocument then .text (replaceHashes s)
      else v
  | none => v

/-- The difference that an operation states, if it states one. -/
def Call.difference? : Call → Option Difference
  | .writeDiff v => Difference.of v v
  | .securityWriteDiff v document => Difference.of v (shownChange v document)
  | _ => none

/-- A difference that an operation states is a text, if there is one. -/
def Call.StatesText : Call → Prop
  | .writeDiff v | .securityWriteDiff v _ => v.IsOptionalText
  | _ => True

-- =============================================================== writes

namespace Call

variable {v document : Value}

/-- The text of a difference is never refused by its redaction. -/
theorem contentValue_of_isOptionalText (hv : v.IsOptionalText) :
    contentValue v document = .ok (shownChange v document) := by
  rcases hv with rfl | hv
  · rfl
  · cases v with
    | text s
    | term t =>
        show (if document.text? = some usersDocument then _ else _)
          = Except.ok (if document.text? = some usersDocument then _ else _)
        exact (apply_ite Except.ok _ _ _).symm
    | _ => cases hv

theorem writeDifference_text (s : Text) :
    writeDifference (.text s)
      = .ok (Difference.writes (Difference.of (.text s) (.text s))) := by
  cases s with
  | nil => rfl
  | cons c s => rfl

theorem writeDifference_of_isOptionalText (hv : v.IsOptionalText) :
    writeDifference v = .ok (Difference.writes (Difference.of v v)) := by
  rcases hv with rfl | hv
  · rfl
  · cases v with
    | text s => exact writeDifference_text s
    | term t => rfl
    | _ => cases hv

/-- A change without its hashes is still one, and what is none gets none. -/
theorem of_replaceHashes {s : Text} (hs : v.text? = some s) :
    Difference.of (.text (replaceHashes s)) (.text (replaceHashes s))
      = Difference.of v (.text (replaceHashes s)) := by
  have hchange : s ≠ [] →
      Difference.of (.text (replaceHashes s)) (.text (replaceHashes s))
        = some (.change (.text (replaceHashes s))) := by
    intro hne
    exact congrArg some (if_pos (Value.truthy_text (replaceHashes_ne_nil hne)))
  cases v with
  | text s =>
      cases hs
      cases s with
      | nil => rfl
      | cons c s => exact hchange (List.cons_ne_nil c s)
  | term t =>
      cases hs
      exact hchange t.wire_ne_nil
  | _ => cases hs

theorem writeDifference_shownChange (hv : v.IsOptionalText) :
    writeDifference (shownChange v document)
      = .ok (Difference.writes (Difference.of v (shownChange v document))) := by
  unfold shownChange
  cases hs : v.text? with
  | none => exact writeDifference_of_isOptionalText hv
  | some s =>
      dsimp only
      split
      case isFalse => exact writeDifference_of_isOptionalText hv
      case isTrue => rw [writeDifference_text, of_replaceHashes hs]

end Call

namespace Record

variable {c : Call} {cs : List Call} {h : Host} {r : Record} {f : Field}

/-- Of the difference, an operation writes the one that it states. -/
theorem get?_apply_difference (hc : c.StatesText)
    (hf : f = .complianceDiffContent ∨ f = .complianceDiffIsNoop) :
    (r.apply h c).get? f
      = (r.putAll (Difference.writes c.difference?)).get? f := by
  unfold apply
  cases c with
  | writeDiff v =>
      show (r.putAll (Outcome.of (Call.writeDifference v)).writes).get? f = _
      rw [Call.writeDifference_of_isOptionalText hc]
      rfl
  | securityWriteDiff v document =>
      show (r.putAll (Outcome.of (contentValue v document >>= fun w =>
        Call.writeDifference w)).writes).get? f = _
      rw [Call.contentValue_of_isOptionalText hc]
      show (r.putAll (Outcome.of
        (Call.writeDifference (shownChange v document))).writes).get? f = _
      rw [Call.writeDifference_shownChange hc]
      rfl
  | _ =>
      -- no other operation writes to either of the two fields
      refine get?_apply_of_notMem ?_
      rcases hf with rfl | rfl <;> simp [Call.fields]

/-- Every difference that is stated sets the flag anew. -/
theorem get?_apply_noop (hc : c.StatesText) :
    (r.apply h c).get? .complianceDiffIsNoop
      = (c.difference?.map fun d => Value.bool d.isNoop).or
          (r.get? .complianceDiffIsNoop) := by
  rw [get?_apply_difference hc (.inr rfl), get?_putAll]
  cases c.difference? with
  | none => rfl
  | some d =>
      cases d with
      | change v => rfl
      | noop => rfl

/-- Only a change sets the content anew. -/
theorem get?_apply_content (hc : c.StatesText) :
    (r.apply h c).get? .complianceDiffContent
      = (c.difference?.bind Difference.content?).or
          (r.get? .complianceDiffContent) := by
  rw [get?_apply_difference hc (.inl rfl), get?_putAll]
  cases c.difference? with
  | none => rfl
  | some d =>
      cases d with
      | change v => rfl
      | noop => rfl

-- ================================================================= runs

/-- There is content of a difference exactly if it is marked as a change. -/
def ConsistentDifference (r : Record) : Prop :=
  (r.get? .complianceDiffContent).isSome = true
    ↔ r.get? .complianceDiffIsNoop = some (.bool false)

/-- The differences that operations state, in order. -/
def differences (cs : List Call) : List Difference :=
  cs.filterMap Call.difference?

theorem isSome_content_iff {ds : List Difference} :
    (ds.filterMap Difference.content?).getLast?.isSome = true
      ↔ ¬ ∀ d ∈ ds, d = .noop := by
  rw [List.getLast?_isSome, ne_eq, List.filterMap_eq_nil_iff]
  refine not_congr (forall₂_congr fun d _ => ?_)
  cases d with
  | change v => exact iff_of_false (Option.some_ne_none v) nofun
  | noop => exact iff_of_true rfl rfl

theorem flag_eq_false_iff {o : Option Difference} :
    o.map (fun d => Value.bool d.isNoop) = some (.bool false)
      ↔ ∃ v, o = some (.change v) := by
  cases o with
  | none => exact iff_of_false nofun nofun
  | some d =>
      cases d with
      | change v => exact iff_of_true rfl ⟨v, rfl⟩
      | noop => exact iff_of_false nofun nofun

/-- A new record holds nothing but what it starts with. -/
theorem get?_start_of_notMem {category origin layer : Value}
    {cluster : Option Cluster} {clock : DateTime}
    (hr : start category cluster origin layer clock = .ok r)
    (hf : f ∉ startFields) : r.get? f = none := by
  have hfields : r.Every fun g _ => g ∈ startFields :=
    every_start initial_fields hr
  cases hget : r.get? f with
  | none => rfl
  | some v => exact absurd (hfields f v hget) hf

/-- The flag is that of the last difference, the content that of the last
change. They agree exactly if the last difference is a change or there is no
change at all. -/
theorem run_differences {category origin layer : Value}
    {cluster : Option Cluster} {clock : DateTime}
    (hr : start category cluster origin layer clock = .ok r)
    (h : Host) (cs : List Call) (hcs : ∀ c ∈ cs, c.StatesText) :
    (r.run h cs).get? .complianceDiffIsNoop
        = (differences cs).getLast?.map (fun d => .bool d.isNoop)
      ∧ (r.run h cs).get? .complianceDiffContent
        = ((differences cs).filterMap Difference.content?).getLast?
      ∧ ((r.run h cs).ConsistentDifference
        ↔ (∃ v, (differences cs).getLast? = some (.change v))
          ∨ ∀ d ∈ differences cs, d = .noop) := by
  have hnoop : (r.run h cs).get? .complianceDiffIsNoop
      = (differences cs).getLast?.map fun d => .bool d.isNoop := by
    rw [get?_run_of_step _ fun c hc r => get?_apply_noop (hcs c hc),
      get?_start_of_notMem hr (by decide), Option.or_none, ← List.getLast?_map,
      differences, List.map_filterMap]
  have hcontent : (r.run h cs).get? .complianceDiffContent
      = ((differences cs).filterMap Difference.content?).getLast? := by
    rw [get?_run_of_step _ fun c hc r => get?_apply_content (hcs c hc),
      get?_start_of_notMem hr (by decide), Option.or_none, differences,
      List.filterMap_filterMap]
  refine ⟨hnoop, hcontent, ?_⟩
  unfold ConsistentDifference
  rw [hnoop, hcontent, isSome_content_iff, flag_eq_false_iff]
  -- a last difference that is a change is a change among them
  have hlast : (∃ v, (differences cs).getLast? = some (.change v)) →
      ¬ ∀ d ∈ differences cs, d = .noop := by
    rintro ⟨v, hv⟩ hall
    cases hall _ (List.mem_of_getLast? hv)
  tauto

/-- That nothing has changed is stated first, and then a change. -/
def changedAfterAll : List Call :=
  [.writeDiff (.text []), .effectiveUser (.text ['a']),
    .securityWriteDiff (.text ['x']) (.text usersDocument), .writeDiff .null]

/-- An empty difference before a change does no harm, and a missing one says
nothing. -/
theorem run_differences_changedAfterAll :
    ∃ r, login = .ok r
      ∧ (∀ c ∈ changedAfterAll, c.StatesText)
      ∧ (r.run bareHost changedAfterAll).ConsistentDifference
      ∧ (r.run bareHost changedAfterAll).get? .complianceDiffContent
        = some (.text ['x']) := by
  have hr : login = .ok _ := rfl
  have htexts : ∀ c ∈ changedAfterAll, c.StatesText := by
    simp [changedAfterAll, Call.StatesText, Value.IsOptionalText, Value.IsText,
      Value.text?]
  obtain ⟨-, hcontent, hconsistent⟩ :=
    run_differences hr bareHost changedAfterAll htexts
  exact ⟨_, hr, htexts, hconsistent.mpr (.inl ⟨_, rfl⟩), hcontent⟩

/-- A difference that turns out to be empty is marked as none, and the change
stated before it is still there. -/
theorem emptied_difference :
    ∃ r, login = .ok r
      ∧ ¬ (r.run bareHost [.writeDiff (.text ['x']),
          .writeDiff (.text [])]).ConsistentDifference
      ∧ (r.run bareHost [.writeDiff (.text ['x']),
          .writeDiff (.text [])]).fields.drop 8
        = [(.complianceDiffContent, .text ['x']),
          (.complianceDiffIsNoop, .bool true)] := by
  refine ⟨_, rfl, ?_, rfl⟩
  intro hconsistent
  cases hconsistent.mp rfl

end Record

end AuditTrail
