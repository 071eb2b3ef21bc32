/-
How reading the tokens of a document may end.

A step of the lexer fails with a place or with an unplaced fault, and never
touches what stands beyond the text (`Lexer.Keeps`). Where a step looks
beyond the text it meets what stands there instead (`Lexer.within`), so the
failure that stands behind the tokens is an unplaced fault or the one from
beyond the text (`Foreseen`).
-/
import AuditTrail.Proofs.Yaml.Outcome
import AuditTrail.Yaml.Token.Lexer

namespace AuditTrail.Yaml

/-- The faults that a reader comes to which meets some failure beyond its
text. -/
def Foreseen (beyond : Option Failure) (e : Fault) : Prop :=
  Unplaced e ∨ beyond = some (.fault e)

theorem Within.foreseen {α : Type} {Q : α → Prop} {x : Result α}
    (hx : Within Unplaced Q x) (beyond : Option Failure) :
    Within (Foreseen beyond) Q x :=
  hx.imp (fun _ => .inl) fun _ => id

namespace Lexer

-- ============================================= directives, names and tags

theorem versionNumber_orderly (begin : Mark) (s : Cells) :
    Orderly (versionNumber begin s) :=
  .ite trivial (.ite (.numeral _) trivial)

theorem tagHandle_orderly (thing : Text) (begin : Mark) (s : Cells) :
    Orderly (tagHandle thing begin s) :=
  .ite trivial (.ite trivial (.ite trivial trivial))

theorem uriOctets_orderly (thing : Text) (begin : Mark) (fuel : Nat)
    (s : Cells) : Orderly (uriOctets thing begin fuel s) := by
  induction fuel generalizing s with
  | zero => trivial
  | succ fuel ih =>
      unfold uriOctets
      refine .ite trivial ?_
      dsimp only
      split
      · trivial
      · exact (ih _).then fun _ _ => trivial

theorem uriPieces_orderly (thing : Text) (begin : Mark) (fuel : Nat)
    (s : Cells) : Orderly (uriPieces thing begin fuel s) := by
  induction fuel generalizing s with
  | zero => trivial
  | succ fuel ih =>
      unfold uriPieces
      refine .ite ?_ trivial
      refine (uriOctets_orderly _ _ _ _).then fun _ _ => ?_
      dsimp only
      split
      · exact (ih _).then fun _ _ => trivial
      · trivial

theorem tagUri_orderly (thing : Text) (begin : Mark) (s : Cells) :
    Orderly (tagUri thing begin s) :=
  .ite (uriPieces_orderly _ _ _ _) trivial

theorem directive_orderly (s : Cells) : Orderly (directive s) := by
  unfold directive
  refine .ite trivial (.ite trivial ?_)
  have final (kind : TokenKind) (rest : Cells) : Orderly (do
      let stop := Cells.mark rest
      let rest ←
        skipRestOfLine "while scanning a directive".toList (Cells.mark s) rest
      .ok ((⟨kind, Cells.mark s, stop⟩ : Token), rest)) :=
    (skipRestOfLine_orderly _ _ _).then fun _ _ => trivial
  refine .ite ?version (.ite ?tag (final _ _))
  case version =>
    refine (versionNumber_orderly _ _).then fun _ _ => .ite trivial ?_
    refine (versionNumber_orderly _ _).then fun _ _ => ?_
    exact .ite (final _ _) trivial
  case tag =>
    refine (tagHandle_orderly _ _ _).then fun _ _ => .ite trivial ?_
    refine (tagUri_orderly _ _ _).then fun _ _ => ?_
    exact .ite (final _ _) trivial

theorem referenceName_orderly (thing : Text) (s : Cells) :
    Orderly (referenceName thing s) :=
  .ite trivial (.ite trivial trivial)

theorem tag_orderly (s : Cells) : Orderly (tag s) := by
  unfold tag
  refine .ite ?verbatim (.ite (.ite trivial trivial) ?named)
  case verbatim =>
    refine (tagUri_orderly _ _ _).then fun _ _ => ?_
    exact .ite (.ite trivial trivial) trivial
  case named =>
    refine .ite ?_ ?_
    · refine (tagHandle_orderly _ _ _).then fun _ _ => ?_
      exact (tagUri_orderly _ _ _).then fun _ _ => .ite trivial trivial
    · exact (tagUri_orderly _ _ _).then fun _ _ => .ite trivial trivial

-- ============================================================ single steps

/-- A step from `l` fails with a place or with an unplaced fault, and leaves
what stands beyond the text. -/
def Keeps (l : Lexer) (x : Result Lexer) : Prop :=
  Within Unplaced (fun next => next.beyond = l.beyond) x

theorem Keeps.ite {l : Lexer} {c : Prop} [Decidable c] {x y : Result Lexer}
    (hx : l.Keeps x) (hy : l.Keeps y) : l.Keeps (if c then x else y) :=
  Within.ite hx hy

variable (l : Lexer)

@[simp]
theorem beyond_indicator (kind : TokenKind) (n : Nat) :
    (l.indicator kind n).beyond = l.beyond := rfl

@[simp]
theorem beyond_insertAt (index : Nat) (t : Token) :
    (l.insertAt index t).beyond = l.beyond := rfl

@[simp]
theorem beyond_unwind (column : Int) : (l.unwind column).beyond = l.beyond := by
  unfold unwind
  split
  · rfl
  · rfl

@[simp]
theorem beyond_indentTo (column : Int) :
    (l.indentTo column).1.beyond = l.beyond := by
  unfold indentTo
  split
  · rfl
  · rfl

@[simp]
theorem beyond_openBlock (kind : TokenKind) :
    (l.openBlock kind).beyond = l.beyond := by
  unfold openBlock
  dsimp only
  split
  · exact l.beyond_indentTo _
  · exact l.beyond_indentTo _

theorem dropStale_keeps : l.Keeps l.dropStale := by
  unfold dropStale
  split
  · trivial
  · exact rfl

theorem dropKey_keeps : l.Keeps l.dropKey := by
  unfold dropKey
  split
  · exact .ite trivial rfl
  · exact rfl

theorem saveKey_keeps : l.Keeps l.saveKey :=
  .ite (l.dropKey_keeps.then fun _ hm => hm) rfl

theorem leaveBlocks_keeps : l.Keeps l.leaveBlocks :=
  (dropKey_keeps _).then fun _ hm => hm.trans (l.beyond_unwind _)

theorem openFlow_keeps (kind : TokenKind) : l.Keeps (l.openFlow kind) :=
  l.saveKey_keeps.then fun _ hm => hm

theorem closeFlow_keeps (kind : TokenKind) : l.Keeps (l.closeFlow kind) :=
  l.dropKey_keeps.then fun _ hm => hm

variable {l} in
/-- The end that the three indicators of blocks have in common. -/
theorem indicator_keeps {m : Lexer} (hm : m.beyond = l.beyond) (allow : Bool)
    (kind : TokenKind) :
    l.Keeps (do
      let m ← { m with allowKey := allow }.dropKey
      .ok (m.indicator kind 1)) :=
  (dropKey_keeps _).then fun _ hn => hn.trans hm

theorem blockEntry_keeps : l.Keeps l.blockEntry :=
  .ite (indicator_keeps rfl _ _)
    (.ite trivial (indicator_keeps (l.beyond_openBlock _) _ _))

theorem keyIndicator_keeps : l.Keeps l.keyIndicator :=
  .ite (indicator_keeps rfl _ _)
    (.ite trivial (indicator_keeps (l.beyond_openBlock _) _ _))

theorem valueIndicator_keeps : l.Keeps l.valueIndicator := by
  unfold valueIndicator
  dsimp only
  split
  case h_1 =>
    show Lexer.beyond _ = _
    simp only [beyond_indicator]
    split
    · split
      · simp
      · simp
    · split
      · simp
      · simp
  case h_2 =>
    exact .ite (indicator_keeps rfl _ _)
      (.ite trivial (indicator_keeps (l.beyond_openBlock _) _ _))

theorem pushContent_keeps {read : Cells → Result (Token × Cells)}
    (hread : ∀ s, Orderly (read s)) : l.Keeps (l.pushContent read) := by
  refine l.saveKey_keeps.then fun m hm => ?_
  exact (hread _).then fun _ _ => hm

theorem reference_orderly (thing : Text) (kind : Text → TokenKind)
    (s : Cells) : Orderly (reference thing kind s) :=
  (referenceName_orderly thing s).then fun _ _ => trivial

theorem quotedToken_orderly (double : Bool) (bound : Nat) (s : Cells) :
    Orderly (quotedToken double bound s) :=
  (quotedScalar_orderly double bound s).then fun _ _ => trivial

theorem pushBlockScalar_keeps (folded : Bool) :
    l.Keeps (l.pushBlockScalar folded) := by
  refine (dropKey_keeps _).then fun m hm => ?_
  exact (blockScalar_orderly _ _ _ _).then fun _ _ => hm

theorem pushPlainScalar_keeps : l.Keeps l.pushPlainScalar :=
  l.saveKey_keeps.then fun _ hm => hm

theorem pushToken_keeps : l.Keeps l.pushToken := by
  unfold pushToken
  dsimp only
  refine .ite ?directive <| .ite ?divider <| .ite ?divider' ?_
  case directive =>
    refine l.leaveBlocks_keeps.then fun m hm => ?_
    exact (directive_orderly _).then fun _ _ => hm
  case divider => exact l.leaveBlocks_keeps.then fun _ hm => hm
  case divider' => exact l.leaveBlocks_keeps.then fun _ hm => hm
  -- flow brackets and the comma between their items
  refine .ite (l.openFlow_keeps _) <| .ite (l.openFlow_keeps _) <|
    .ite (l.closeFlow_keeps _) <| .ite (l.closeFlow_keeps _) <|
    .ite (indicator_keeps rfl _ _) ?_
  refine .ite l.blockEntry_keeps <| .ite l.keyIndicator_keeps <|
    .ite l.valueIndicator_keeps ?_
  refine .ite (l.pushContent_keeps (reference_orderly _ _)) <|
    .ite (l.pushContent_keeps (reference_orderly _ _)) <|
    .ite (l.pushContent_keeps tag_orderly) ?_
  refine .ite (l.pushBlockScalar_keeps _) <|
    .ite (l.pushBlockScalar_keeps _) <|
    .ite (l.pushContent_keeps (quotedToken_orderly _ _)) <|
    .ite (l.pushContent_keeps (quotedToken_orderly _ _)) ?_
  exact .ite l.pushPlainScalar_keeps trivial

theorem finish_keeps : l.Keeps l.finish :=
  (dropKey_keeps _).then fun _ hm => hm.trans (l.beyond_unwind _)

-- ================================================================ whole runs

/-- A step with what it may meet beyond the text. -/
theorem within_foreseen (ahead : Lexer → Nat) {x : Result Lexer}
    (hx : l.Keeps x) :
    Within (Foreseen l.beyond) (fun next : Lexer => next.beyond = l.beyond)
      (l.within ahead x) := by
  have hkept := hx.foreseen l.beyond
  have hmet {f : Failure} (hf : l.beyond = some f) :
      Within (Foreseen l.beyond) (fun next : Lexer => next.beyond = l.beyond)
        (.error f) := by
    match f with
    | .fault e => exact .inr hf
    | .complaint _ => trivial
    | .character _ _ => trivial
  unfold within
  split
  case h_1 => exact hkept
  case h_2 hf => exact .ite (hmet hf) hkept
  case h_3 hf => exact .ite (hmet hf) trivial
  case h_4 => exact hkept

theorem step_foreseen :
    Within (Foreseen l.beyond) (fun next => next.1.beyond = l.beyond)
      l.step := by
  unfold step
  refine (l.within_foreseen _ (x := .ok l.advance) rfl).then fun m hm => ?_
  refine (m.dropStale_keeps.foreseen _).then fun n hn => ?_
  have hbeyond : (n.unwind n.column).beyond = l.beyond :=
    (n.beyond_unwind _).trans (hn.trans hm)
  dsimp only
  generalize n.unwind n.column = u at hbeyond ⊢
  rw [← hbeyond]
  refine .ite ?_ ?_
  · exact (u.finish_keeps.foreseen _).then fun _ h => h
  · exact (u.within_foreseen _ u.pushToken_keeps).then fun _ h => h

theorem run_failure (fuel taken : Nat) (l : Lexer) {e : Fault}
    (he : (run fuel taken l).2 = some (.fault e)) : Foreseen l.beyond e := by
  induction fuel generalizing taken l with
  | zero => cases he
  | succ fuel ih =>
      have hfresh := l.dropStale_keeps
      unfold run at he
      match hm : l.dropStale with
      | .error f =>
          rw [hm] at he hfresh
          cases he
          exact .inl hfresh
      | .ok m =>
          rw [hm] at he hfresh
          have hbeyond : m.beyond = l.beyond := hfresh
          rw [← hbeyond]
          have hstep := m.step_foreseen
          match hs : m.step with
          | .error f =>
              simp only [hs] at he hstep
              cases he
              exact hstep
          | .ok (next, true) =>
              simp only [hs] at he
              cases he
          | .ok (next, false) =>
              simp only [hs] at he hstep
              have hnext : next.beyond = m.beyond := hstep
              rw [← hnext]
              exact ih _ _ he

end Lexer

/-- The failure behind the tokens of an input. -/
theorem tokens_failure (input : Input) {e : Fault}
    (he : (tokens input).2 = some (.fault e)) : Foreseen input.beyond e :=
  Lexer.run_failure _ _ _ he

end AuditTrail.Yaml
