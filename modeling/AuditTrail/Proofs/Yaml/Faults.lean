/-
The faults that reading a document may end in.

Reading text, or the options in a file, fails with a complaint, which has a
place, with a fault of the document's text, or, for a file, where its octets
are no text. The last lemmas of this module say so of the readers as a
whole: `read_unplaced` of content, `readOptions_fault` of files.
-/
import AuditTrail.Proofs.Yaml.Nodes
import AuditTrail.Proofs.Yaml.Tokens
import AuditTrail.Yaml.Reader

namespace AuditTrail.Yaml

-- ========================================================= texts of scalars

namespace Scalar

theorem ofNumeral_orderly {α : Type} (r : Except Numeral.Error α) :
    Orderly (ofNumeral r) := by
  match r with
  | .ok _ => trivial
  | .error e => exact .numeral e

theorem ofDate_orderly {α : Type} (r : Except Date.Error α) :
    Orderly (ofDate r) := by
  match r with
  | .ok _ => trivial
  | .error e => exact .date e

theorem splitNumber_orderly (s : Text) : Orderly (splitNumber s) := by
  unfold splitNumber
  split
  · exact .emptyText
  · trivial

theorem readInt_orderly (s : Text) : Orderly (readInt s) := by
  refine (splitNumber_orderly s).then fun a _ => ?_
  dsimp only
  split
  case h_1 => exact .emptyText
  case h_2 => exact ofNumeral_orderly _
  case h_3 => exact ofNumeral_orderly _
  case h_4 => trivial
  case h_5 => exact ofNumeral_orderly _
  case h_6 => exact .ite (ofNumeral_orderly _) (ofNumeral_orderly _)

theorem addSixtieths_orderly (base : Nat) (sum : Double)
    (parts : List Double) : Orderly (addSixtieths base sum parts) := by
  induction parts generalizing base sum with
  | nil => trivial
  | cons part rest ih =>
      unfold addSixtieths
      split
      · exact .integerTooLarge
      · exact ih _ _

theorem readFloat_orderly (s : Text) : Orderly (readFloat s) := by
  refine (splitNumber_orderly _).then fun a _ => ?_
  refine .ite trivial (.ite trivial (.ite ?_ ?_))
  · refine (ofNumeral_orderly _).then fun _ _ => ?_
    exact (addSixtieths_orderly _ _ _).then fun _ _ => trivial
  · exact (ofNumeral_orderly _).then fun _ _ => trivial

theorem readBool_orderly (s : Text) : Orderly (readBool s) := by
  unfold readBool
  split
  · trivial
  · exact .noTruthValue _

theorem readBinary_orderly (place : Mark) (s : Text) :
    Orderly (readBinary place s) := by
  unfold readBinary
  split
  · trivial
  · split
    · trivial
    · trivial

theorem readTimestamp_orderly (s : Text) : Orderly (readTimestamp s) := by
  unfold readTimestamp
  dsimp only
  -- the parts are only looked at by the calendar
  generalize (if isDateOrTime s = true then s else Tag.dropFinalBreak s) = s
  refine .ite .noDate ?_
  generalize shortNumber (s.drop 5) = month
  generalize shortNumber (month.2.drop 1) = day
  split
  case h_1 => exact (ofDate_orderly _).then fun _ _ => trivial
  case h_2 rest _ =>
    generalize shortNumber ((rest.drop 1).dropWhile fun c =>
      c == ' ' || c == '\t') = hour
    generalize shortNumber (hour.2.drop 1) = minute
    generalize shortNumber (minute.2.drop 1) = second
    generalize fraction second.2 = micro
    suffices checked : Orderly _ from by
      split
      · exact Within.ite (.offsetRange _) checked
      · exact checked
    refine (ofDate_orderly _).then fun _ _ => ?_
    exact (ofDate_orderly _).then fun _ _ => trivial

end Scalar

-- ======================================================== scalars and merges

namespace Nodes

theorem scalarText_orderly (ns : Nodes) (fuel id : Nat) :
    Orderly (ns.scalarText fuel id) := by
  induction fuel generalizing id with
  | zero => exact .nestedTooDeeply
  | succ fuel ih =>
      unfold scalarText
      dsimp only
      split
      case h_1 => trivial
      case h_2 => trivial
      case h_3 =>
        split
        · exact ih _
        · trivial

theorem scalarValue_orderly (ns : Nodes) (id : Nat) :
    Orderly (ns.scalarValue id) := by
  have htext := ns.scalarText_orderly (ns.size + 1) id
  unfold scalarValue
  dsimp only
  split
  case h_1 => exact htext.then fun _ _ => trivial
  case h_2 =>
    exact htext.then fun _ _ =>
      (Scalar.readBool_orderly _).then fun _ _ => trivial
  case h_3 =>
    exact htext.then fun _ _ =>
      (Scalar.readInt_orderly _).then fun _ _ => trivial
  case h_4 =>
    exact htext.then fun _ _ =>
      (Scalar.readFloat_orderly _).then fun _ _ => trivial
  case h_5 =>
    exact htext.then fun _ _ =>
      (Scalar.readBinary_orderly _ _).then fun _ _ => trivial
  case h_6 =>
    refine htext.then fun _ _ => ?_
    split
    · exact Scalar.readTimestamp_orderly _
    · exact .noScalar
  case h_7 => exact htext.then fun _ _ => trivial
  case h_8 => trivial

/-- The three walks of merging with so many steps to go. -/
structure MergesOrderly (fuel : Nat) : Prop where
  flatten (id : Nat) (ns : Nodes) : Orderly (flatten fuel id ns)
  flattenFrom (id index : Nat) (merged : List (Nat × Nat)) (ns : Nodes) :
    Orderly (flattenFrom fuel id index merged ns)
  flattenItems (start : Mark) (items : List Nat) (acc : List (Nat × Nat))
    (ns : Nodes) : Orderly (flattenItems fuel start items acc ns)

theorem mergesOrderly (fuel : Nat) : MergesOrderly fuel := by
  induction fuel with
  | zero =>
      exact ⟨fun _ _ => trivial, fun _ _ _ _ => trivial,
        fun _ _ _ _ => trivial⟩
  | succ fuel ih =>
      refine ⟨?flatten, ?flattenFrom, ?flattenItems⟩
      case flatten =>
        intro id ns
        exact ih.flattenFrom _ _ _ _
      case flattenFrom =>
        intro id index merged ns
        unfold flattenFrom
        dsimp only
        split
        case h_1 => trivial
        case h_2 =>
          split
          case h_1 =>
            split
            · exact (ih.flatten _ _).then fun _ _ => ih.flattenFrom _ _ _ _
            · exact (ih.flattenItems _ _ _ _).then fun _ _ =>
                ih.flattenFrom _ _ _ _
            · trivial
          case h_2 => exact ih.flattenFrom _ _ _ _
          case h_3 => exact ih.flattenFrom _ _ _ _
      case flattenItems =>
        intro start items acc ns
        cases items with
        | nil => trivial
        | cons item rest =>
            unfold flattenItems
            split
            · exact (ih.flatten _ _).then fun _ _ => ih.flattenItems _ _ _ _
            · trivial

end Nodes

-- ================================================================= surveys

namespace Survey

theorem meet_orderly (s : Survey) (id : Nat) : Orderly (s.meet id) := by
  refine .ite (.ite trivial trivial) (.ite trivial ?_)
  exact (Nodes.scalarValue_orderly _ _).then fun _ _ => trivial

theorem meetAll_orderly (s : Survey) (ids : List Nat) :
    Orderly (s.meetAll ids) := by
  induction ids generalizing s with
  | nil => trivial
  | cons id rest ih => exact (s.meet_orderly id).then fun _ _ => ih _

theorem meetEntries_orderly (start : Mark) (s : Survey)
    (es : List (Nat × Nat)) : Orderly (meetEntries start s es) := by
  induction es generalizing s with
  | nil => trivial
  | cons e rest ih =>
      refine (s.meet_orderly _).then fun t _ => .ite trivial ?_
      exact (t.meet_orderly _).then fun _ _ => ih _

theorem meetPairs_orderly (context : Text) (start : Mark) (s : Survey)
    (ids : List Nat) : Orderly (meetPairs context start s ids) := by
  induction ids generalizing s with
  | nil => trivial
  | cons id rest ih =>
      unfold meetPairs
      dsimp only
      split
      · exact (s.meet_orderly _).then fun t _ =>
          (t.meet_orderly _).then fun _ _ => ih _
      · trivial
      · trivial

theorem visit_orderly (s : Survey) (id : Nat) : Orderly (s.visit id) := by
  unfold visit
  dsimp only
  split
  case h_1 =>
    split
    · exact meetPairs_orderly _ _ _ _
    · trivial
  case h_2 =>
    split
    · exact meetPairs_orderly _ _ _ _
    · trivial
  case h_3 =>
    split
    · exact meetAll_orderly _ _
    · trivial
  case h_4 =>
    split
    · exact ((Nodes.mergesOrderly _).flatten _ _).then fun _ _ =>
        meetEntries_orderly _ _ _
    · trivial

theorem visitAll_orderly (fuel : Nat) (s : Survey) :
    Orderly (visitAll fuel s) := by
  induction fuel generalizing s with
  | zero => trivial
  | succ fuel ih =>
      unfold visitAll
      split
      · trivial
      · exact (visit_orderly _ _).then fun _ _ => ih _

end Survey

theorem Document.survey_orderly (d : Document) : Orderly d.survey :=
  (Survey.meet_orderly _ _).then fun _ _ => Survey.visitAll_orderly _ _

theorem survey_foreseen (input : Input) :
    Within (Foreseen input.beyond) (fun _ => True) (survey input) := by
  unfold survey
  have hnodes := Document.ofTokens_within (.inl .nestedTooDeeply)
    (tokens input).1 fun e he => tokens_failure input (e := e) he
  refine hnodes.then fun d _ => ?_
  split
  · exact ((Document.survey_orderly _).foreseen _).then fun _ _ => trivial
  · trivial

-- ================================================================== readers

/-- A text has nothing beyond it. -/
theorem ofText_within (s : Text) :
    Within (fun _ => False) (fun input => input.beyond = none)
      (Input.ofText s) := by
  unfold Input.ofText
  split
  · trivial
  · exact rfl

/-- Reading a text as a document. -/
theorem read_unplaced {s : Text} {e : Fault}
    (he : read s = .error (.fault e)) : Unplaced e := by
  have hread : Orderly (read s) := by
    refine ((ofText_within s).imp (fun _ => False.elim) fun _ => id).then
      fun input hinput => ?_
    refine ((survey_foreseen input).imp (fun f hf => ?_) fun _ => id).then
      fun found _ => ?_
    · exact hf.resolve_right (by simp [hinput])
    · split
      · trivial
      · trivial
  exact hread.of_fault he

/-- The fault of a file whose octets are no text. -/
def Undecodable (d : Delivery) (e : Fault) : Prop :=
  ∃ u, d.error = some u ∧ e = .decoding u

/-- Beyond the first portions of a file there may be octets that are no
text. -/
theorem extend_beyond {d : Delivery} {e : Fault} (text : Text)
    (portions : List Text)
    (he : (Input.extend text d.error portions).beyond = some (.fault e)) :
    Undecodable d e := by
  induction portions generalizing text with
  | nil =>
      simp only [Input.extend, Option.map_eq_some_iff] at he
      obtain ⟨u, hu, heq⟩ := he
      cases heq
      exact ⟨u, hu, rfl⟩
  | cons portion rest ih =>
      unfold Input.extend at he
      split at he
      · cases he
      · exact ih _ he

theorem ofDelivery_within (d : Delivery) :
    Within (Undecodable d)
      (fun input => ∀ e, input.beyond = some (.fault e) → Undecodable d e)
      (Input.ofDelivery d) := by
  unfold Input.ofDelivery
  split
  case h_1 =>
    refine ((ofText_within _).imp (fun _ => False.elim) fun _ => id).then
      fun _ _ => ?_
    exact fun e he => extend_beyond _ _ he
  case h_2 hu _ => exact ⟨_, hu, rfl⟩
  case h_3 =>
    refine (ofText_within _).imp (fun _ => False.elim) fun input hinput => ?_
    intro e he
    rw [hinput] at he
    cases he

/-- Reading the options in a file. -/
theorem readOptions_fault {d : Delivery} {e : Fault}
    (he : readOptions d = .error (.fault e)) :
    Unplaced e ∨ Undecodable d e := by
  have hread : Within (fun e => Unplaced e ∨ Undecodable d e)
      (fun _ => True) (readOptions d) := by
    refine ((ofDelivery_within d).imp (fun _ => .inr) fun _ => id).then
      fun input hinput => ?_
    refine ((survey_foreseen input).imp (fun f hf => ?_) fun _ => id).then
      fun found _ => ?_
    · exact hf.imp_right (hinput f)
    · split
      · trivial
      · split
        · trivial
        · trivial
        · trivial
  exact hread.of_fault he

end AuditTrail.Yaml
