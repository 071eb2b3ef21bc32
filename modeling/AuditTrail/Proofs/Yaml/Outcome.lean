/-
How reading a document may end.

A flaw of a document's form is a complaint and has a place. A few faults
have none (`Unplaced`): an escape that is no character's number, a scalar
whose text makes no value of its kind, nesting that goes too deep. A reader
is orderly if it fails in no other way, and `Within` says so of a reader
together with what it returns: it passes through a bind by
`Within.then`, so that each reader needs one lemma, from those of the
readers that it calls.
-/
import AuditTrail.Yaml.Token.Scalar

namespace AuditTrail.Yaml

-- ==================================================== faults without place

/-- The faults without a place that the text of a document leads to. -/
inductive Unplaced : Fault → Prop where
  | negativeCharacter : Unplaced .negativeCharacter
  | hugeCharacter : Unplaced .hugeCharacter
  | nestedTooDeeply : Unplaced .nestedTooDeeply
  /-- A number without a first character. -/
  | emptyText : Unplaced .emptyText
  | numeral (e : Numeral.Error) : Unplaced (.numeral e)
  /-- A number in sixtieths with too many parts. -/
  | integerTooLarge : Unplaced .integerTooLarge
  | noTruthValue (quoted : Text) : Unplaced (.missingKey quoted)
  | noDate :
    Unplaced (.missingAttribute "NoneType".toList "groupdict".toList)
  | date (e : Date.Error) : Unplaced (.date e)
  | offsetRange (quoted : Text) : Unplaced (.offsetRange quoted)
  /-- A date whose text stands under a key of a mapping. -/
  | noScalar : Unplaced (.notMatchable "list".toList)

/-- The classes of these faults. -/
def unplacedFamilies : List Text :=
  ["ValueError".toList, "OverflowError".toList, "RecursionError".toList,
   "IndexError".toList, "KeyError".toList, "AttributeError".toList,
   "TypeError".toList]

theorem Unplaced.family_mem {e : Fault} (he : Unplaced e) :
    e.family ∈ unplacedFamilies := by
  cases he with
  | hugeCharacter
  | numeral _
  | offsetRange _ => exact .head _
  | negativeCharacter
  | integerTooLarge => exact .tail _ (.head _)
  | nestedTooDeeply => exact .tail _ (.tail _ (.head _))
  | emptyText => exact .tail _ (.tail _ (.tail _ (.head _)))
  | noTruthValue _ => exact .tail _ (.tail _ (.tail _ (.tail _ (.head _))))
  | noDate =>
      exact .tail _ (.tail _ (.tail _ (.tail _ (.tail _ (.head _)))))
  | noScalar =>
      exact .tail _
        (.tail _ (.tail _ (.tail _ (.tail _ (.tail _ (.head _))))))
  | date e =>
      cases e with
      | outOfRange => exact .tail _ (.head _)
      | _ => exact .head _

-- ================================================================ outcomes

section
variable {α β : Type} {P P' : Fault → Prop} {Q Q' : α → Prop}

/-- A result is one of some results, a failure with a place, or one of some
faults. -/
def Within (P : Fault → Prop) (Q : α → Prop) : Result α → Prop
  | .ok a => Q a
  | .error (.fault e) => P e
  | .error (.character ..) => True
  | .error (.complaint _) => True

theorem Within.imp {x : Result α} (hx : Within P Q x) (hP : ∀ e, P e → P' e)
    (hQ : ∀ a, Q a → Q' a) : Within P' Q' x := by
  match x, hx with
  | .ok a, h => exact hQ a h
  | .error (.fault e), h => exact hP e h
  | .error (.character _ _), _ => trivial
  | .error (.complaint _), _ => trivial

theorem Within.then {R : β → Prop} {x : Result α} {f : α → Result β}
    (hx : Within P Q x) (hf : ∀ a, Q a → Within P R (f a)) :
    Within P R (x >>= f) := by
  match x, hx with
  | .ok a, h => exact hf a h
  | .error (.fault e), h => exact h
  | .error (.character _ _), _ => trivial
  | .error (.complaint _), _ => trivial

theorem Within.ite {c : Prop} [Decidable c] {x y : Result α}
    (hx : Within P Q x) (hy : Within P Q y) :
    Within P Q (if c then x else y) := by
  split
  · exact hx
  · exact hy

/-- What a failure that is no complaint comes to. -/
theorem Within.of_fault {x : Result α} {e : Fault} (hx : Within P Q x)
    (he : x = .error (.fault e)) : P e := by
  subst he
  exact hx

end

/-- A reader fails with a place or with an unplaced fault. -/
abbrev Orderly {α : Type} (x : Result α) : Prop :=
  Within Unplaced (fun _ => True) x

-- ========================================================== quoted scalars

theorem escapedCharacter_orderly (n : Nat) : Orderly (escapedCharacter n) :=
  .ite .negativeCharacter (.ite .hugeCharacter (.ite trivial trivial))

theorem quotedBreaks_orderly (start : Mark) (fuel : Nat) (s : Cells) :
    Orderly (quotedBreaks start fuel s) := by
  induction fuel generalizing s with
  | zero => trivial
  | succ fuel ih =>
      unfold quotedBreaks
      refine .ite trivial (.ite ?_ trivial)
      exact (ih _).then fun _ _ => trivial

theorem quotedSolid_orderly (double : Bool) (start : Mark) (fuel : Nat)
    (s : Cells) : Orderly (quotedSolid double start fuel s) := by
  induction fuel generalizing s with
  | zero => trivial
  | succ fuel ih =>
      unfold quotedSolid
      refine .ite ((ih _).then fun _ _ => trivial) <|
        .ite ((ih _).then fun _ _ => trivial) (.ite ?escape trivial)
      case escape =>
        split
        case h_1 => exact (ih _).then fun _ _ => trivial
        case h_2 =>
          dsimp only
          split
          · trivial
          · exact (escapedCharacter_orderly _).then fun _ _ =>
              (ih _).then fun _ _ => trivial
        case h_3 =>
          refine .ite ?_ trivial
          exact (quotedBreaks_orderly _ _ _).then fun _ _ =>
            (ih _).then fun _ _ => trivial

theorem quotedSpace_orderly (start : Mark) (bound : Nat) (s : Cells) :
    Orderly (quotedSpace start bound s) := by
  unfold quotedSpace
  refine .ite trivial (.ite ?_ trivial)
  exact (quotedBreaks_orderly _ _ _).then fun _ _ => trivial

theorem quotedRest_orderly (double : Bool) (start : Mark) (fuel : Nat)
    (s : Cells) : Orderly (quotedRest double start fuel s) := by
  induction fuel generalizing s with
  | zero => trivial
  | succ fuel ih =>
      unfold quotedRest
      refine (quotedSolid_orderly double start (fuel + 1) s).then fun _ _ => ?_
      refine .ite trivial ?_
      refine (quotedSpace_orderly start fuel _).then fun _ _ => ?_
      exact (ih _).then fun _ _ => trivial

theorem quotedScalar_orderly (double : Bool) (bound : Nat) (s : Cells) :
    Orderly (quotedScalar double bound s) :=
  quotedRest_orderly double _ bound _

-- =========================================================== block scalars

theorem indentIndicator_orderly (start : Mark) (s : Cells) :
    Orderly (indentIndicator start s) :=
  .ite (.ite trivial trivial) trivial

theorem blockHead_orderly (start : Mark) (s : Cells) :
    Orderly (blockHead start s) := by
  unfold blockHead
  split
  case h_1 =>
    refine (indentIndicator_orderly _ _).then fun _ _ => ?_
    exact .ite trivial trivial
  case h_2 =>
    refine (indentIndicator_orderly _ _).then fun a _ => ?_
    obtain ⟨indent, s⟩ := a
    dsimp only
    split
    · exact .ite trivial trivial
    · exact .ite trivial trivial

theorem skipRestOfLine_orderly (context : Text) (start : Mark) (s : Cells) :
    Orderly (skipRestOfLine context start s) :=
  .ite trivial trivial

theorem blockScalar_orderly (folded : Bool) (parent : Int) (bound : Nat)
    (s : Cells) : Orderly (blockScalar folded parent bound s) := by
  unfold blockScalar
  refine (blockHead_orderly _ _).then fun _ _ => ?_
  exact (skipRestOfLine_orderly _ _ _).then fun _ _ => trivial

end AuditTrail.Yaml
