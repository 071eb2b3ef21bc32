/-
How building the nodes of a document may end.

A step of building takes tokens and adds nodes. It fails with a complaint
about a token, with the failure that stands behind the tokens, or where
collections lie too deep inside one another, and it never changes what
stands behind the tokens (`Carries`). The rules that build nodes call each
other with one step less to go, so that all of them are shown to be such
steps at once (`NodesCarry`).
-/
import AuditTrail.Proofs.Yaml.Outcome
import AuditTrail.Yaml.Node

namespace AuditTrail.Yaml.Document

variable {P : Fault → Prop} {α β : Type}

-- =================================================================== steps

/-- A step of building ends in one of some faults, if the failure behind the
tokens is one of them, and leaves that failure as it is. -/
def Carries (P : Fault → Prop) (x : Build α) : Prop :=
  ∀ b : Builder, (∀ e, b.failure = some (.fault e) → P e) →
    Within P (fun p => p.2.failure = b.failure) (x.run b)

namespace Carries

theorem pure (a : α) : Carries P (pure a : Build α) := fun _ _ => rfl

theorem bind {x : Build α} {f : α → Build β} (hx : Carries P x)
    (hf : ∀ a, Carries P (f a)) : Carries P (x >>= f) := by
  intro b hb
  rw [StateT.run_bind]
  refine (hx b hb).then fun p hp => ?_
  have hbehind : ∀ e, p.2.failure = some (.fault e) → P e := by
    rw [hp]
    exact hb
  exact (hf p.1 p.2 hbehind).imp (fun _ h => h) fun _ h => h.trans hp

theorem get : Carries P (get : Build Builder) := fun _ _ => rfl

theorem modify {f : Builder → Builder}
    (hf : ∀ b, (f b).failure = b.failure) :
    Carries P (modify f : Build PUnit) :=
  fun b _ => hf b

theorem fail (context : Text) (start : Mark) (problem : Text)
    (place : Mark) :
    Carries P (refuse (fail context start problem place) : Build α) :=
  fun _ _ => trivial

theorem failAt (problem : Text) (place : Mark) :
    Carries P (refuse (failAt problem place) : Build α) :=
  fun _ _ => trivial

theorem ite {c : Prop} [Decidable c] {x y : Build α} (hx : Carries P x)
    (hy : Carries P y) : Carries P (if c then x else y) := by
  split
  · exact hx
  · exact hy

end Carries

-- ================================================== tokens and single nodes

theorem carries_peek : Carries P peek := by
  rintro ⟨tokens, failure, nodes, anchors, handles, depth⟩ hb
  match tokens, failure with
  | _ :: _, _ => exact rfl
  | [], some (.fault e) => exact hb e rfl
  | [], some (.complaint _) => trivial
  | [], some (.character _ _) => trivial
  | [], none => exact rfl

theorem carries_take : Carries P take :=
  carries_peek.bind fun t => (Carries.modify fun _ => rfl).bind fun _ => .pure t

theorem carries_nextIs (kinds : List TokenKind) : Carries P (nextIs kinds) :=
  carries_peek.bind fun _ => .pure _

theorem carries_add (n : Node) : Carries P (add n) := fun _ _ => rfl

/-- The one fault that building adds to those of the tokens. -/
theorem carries_enter (hdeep : P .nestedTooDeeply) : Carries P enter := by
  intro b _
  show Within P _
    (StateT.run (if depthLimit ≤ b.depth then _ else _ : Build Unit) b)
  split
  · exact hdeep
  · exact rfl

theorem carries_leave : Carries P leave := .modify fun _ => rfl

theorem carries_setBody (id : Nat) (body : NodeBody) :
    Carries P (setBody id body) := .modify fun _ => rfl

theorem carries_addEmpty (place : Mark) : Carries P (addEmpty place) :=
  carries_add _

theorem carries_expandTag (start place : Mark) (handle : Option Text)
    (suffix : Text) : Carries P (expandTag start place handle suffix) := by
  unfold expandTag
  split
  · exact .pure _
  · refine Carries.get.bind fun b => ?_
    split
    · exact .pure _
    · exact .fail _ _ _ _

theorem carries_properties : Carries P properties := by
  unfold properties
  refine carries_peek.bind fun t => ?_
  split
  case h_1 =>
    refine carries_take.bind fun _ => carries_peek.bind fun next => ?_
    split
    · refine carries_take.bind fun _ => ?_
      exact (carries_expandTag _ _ _ _).bind fun _ => .pure _
    · exact .pure _
  case h_2 =>
    refine carries_take.bind fun _ => carries_peek.bind fun next => ?_
    split
    · refine carries_take.bind fun _ => ?_
      exact (carries_expandTag _ _ _ _).bind fun _ => .pure _
    · exact (carries_expandTag _ _ _ _).bind fun _ => .pure _
  case h_3 => exact .pure _

theorem carries_checkAnchor (anchor : Option Text) (place : Mark) :
    Carries P (checkAnchor anchor place) := by
  unfold checkAnchor
  refine Carries.get.bind fun b => ?_
  split
  · exact .fail _ _ _ _
  · exact .pure _

theorem carries_addNamed (anchor : Option Text) (n : Node) :
    Carries P (addNamed anchor n) := by
  cases anchor with
  | none => exact fun _ _ => rfl
  | some name => exact fun _ _ => rfl

theorem carries_unexpected (context : Text) (start : Mark)
    (expected : Text) :
    Carries P (unexpected context start expected : Build α) :=
  carries_peek.bind fun _ => .fail _ _ _ _

theorem carries_content (fuel : Nat) (block : Bool) (p : Properties)
    (start : Mark) (next : Token) :
    Carries P (content fuel block p start next) := by
  cases fuel with
  | zero => exact .pure _
  | succ fuel =>
      unfold content
      refine .ite ?_ (.fail _ _ _ _)
      exact (carries_checkAnchor _ _).bind fun _ => carries_addNamed _ _

-- ================================================== nodes inside each other

/-- All rules that build nodes with so many steps to go. -/
structure NodesCarry (P : Fault → Prop) (fuel : Nat) : Prop where
  node (block indentless : Bool) : Carries P (node fuel block indentless)
  blockItems (start : Mark) (acc : List Nat) :
    Carries P (blockItems fuel start acc)
  indentlessItems (acc : List Nat) : Carries P (indentlessItems fuel acc)
  blockPart (t : Token) : Carries P (blockPart fuel t)
  blockEntries (start : Mark) (acc : List (Nat × Nat)) :
    Carries P (blockEntries fuel start acc)
  blockValue : Carries P (blockValue fuel)
  flowItems (start : Mark) (isFirst : Bool) (acc : List Nat) :
    Carries P (flowItems fuel start isFirst acc)
  flowValue (ends : List TokenKind) : Carries P (flowValue fuel ends)
  flowEntries (start : Mark) (isFirst : Bool) (acc : List (Nat × Nat)) :
    Carries P (flowEntries fuel start isFirst acc)

section
variable {fuel : Nat} (ih : NodesCarry P fuel)
include ih

theorem carries_node (hdeep : P .nestedTooDeeply)
    (block indentless : Bool) :
    Carries P (node (fuel + 1) block indentless) := by
  unfold node
  refine carries_peek.bind fun t => ?_
  split
  case h_1 =>
    refine carries_take.bind fun _ => Carries.get.bind fun b => ?_
    split
    · exact .pure _
    · exact .failAt _ _
  case h_2 =>
    refine carries_properties.bind fun p => carries_peek.bind fun next => ?_
    have opened (standard : Tag) (body : NodeBody) : Carries P (do
        enter
        checkAnchor p.anchor (p.start.getD next.start)
        addNamed p.anchor
          ⟨collectionTag p.tag standard, body, p.start.getD next.start⟩) :=
      (carries_enter hdeep).bind fun _ =>
        (carries_checkAnchor _ _).bind fun _ => carries_addNamed _ _
    have closed (id : Nat) (body : NodeBody) : Carries P (do
        setBody id body
        leave
        pure id) :=
      (carries_setBody _ _).bind fun _ => carries_leave.bind fun _ => .pure _
    dsimp only
    split
    case h_1 =>
      refine .ite ?_ (carries_content _ _ _ _ _)
      exact (opened _ _).bind fun _ =>
        (ih.indentlessItems _).bind fun _ => closed _ _
    case h_2 =>
      refine carries_take.bind fun _ => ?_
      exact (carries_checkAnchor _ _).bind fun _ => carries_addNamed _ _
    case h_3 =>
      exact (opened _ _).bind fun _ => carries_take.bind fun _ =>
        (ih.flowItems _ _ _).bind fun _ => closed _ _
    case h_4 =>
      exact (opened _ _).bind fun _ => carries_take.bind fun _ =>
        (ih.flowEntries _ _ _).bind fun _ => closed _ _
    case h_5 =>
      refine .ite ?_ (carries_content _ _ _ _ _)
      exact (opened _ _).bind fun _ => carries_take.bind fun _ =>
        (ih.blockItems _ _).bind fun _ => closed _ _
    case h_6 =>
      refine .ite ?_ (carries_content _ _ _ _ _)
      exact (opened _ _).bind fun _ => carries_take.bind fun _ =>
        (ih.blockEntries _ _).bind fun _ => closed _ _
    case h_7 => exact carries_content _ _ _ _ _

theorem carries_blockItems (start : Mark) (acc : List Nat) :
    Carries P (blockItems (fuel + 1) start acc) := by
  unfold blockItems
  refine carries_peek.bind fun t => ?_
  split
  case h_1 =>
    refine carries_take.bind fun _ => (carries_nextIs _).bind fun _ => ?_
    refine .ite ?_ ?_
    · exact (carries_addEmpty _).bind fun _ => ih.blockItems _ _
    · exact (ih.node _ _).bind fun _ => ih.blockItems _ _
  case h_2 => exact carries_take.bind fun _ => .pure _
  case h_3 => exact carries_unexpected _ _ _

theorem carries_indentlessItems (acc : List Nat) :
    Carries P (indentlessItems (fuel + 1) acc) := by
  unfold indentlessItems
  refine carries_peek.bind fun t => ?_
  split
  case h_1 =>
    refine carries_take.bind fun _ => (carries_nextIs _).bind fun _ => ?_
    refine .ite ?_ ?_
    · exact (carries_addEmpty _).bind fun _ => ih.indentlessItems _
    · exact (ih.node _ _).bind fun _ => ih.indentlessItems _
  case h_2 => exact .pure _

theorem carries_blockPart (t : Token) :
    Carries P (blockPart (fuel + 1) t) :=
  (carries_nextIs _).bind fun _ => .ite (carries_addEmpty _) (ih.node _ _)

theorem carries_blockEntries (start : Mark) (acc : List (Nat × Nat)) :
    Carries P (blockEntries (fuel + 1) start acc) := by
  unfold blockEntries
  refine carries_peek.bind fun t => ?_
  split
  case h_1 =>
    exact carries_take.bind fun _ => (ih.blockPart _).bind fun _ =>
      ih.blockValue.bind fun _ => ih.blockEntries _ _
  case h_2 => exact carries_take.bind fun _ => .pure _
  case h_3 => exact carries_unexpected _ _ _

theorem carries_blockValue : Carries P (blockValue (fuel + 1)) := by
  unfold blockValue
  refine carries_peek.bind fun t => ?_
  split
  · exact carries_take.bind fun _ => ih.blockPart _
  · exact carries_addEmpty _

theorem carries_flowItems (start : Mark) (isFirst : Bool)
    (acc : List Nat) :
    Carries P (flowItems (fuel + 1) start isFirst acc) := by
  unfold flowItems
  refine carries_peek.bind fun t =>
    .ite (carries_take.bind fun _ => .pure _) ?_
  -- what follows the comma is the same as what follows the bracket
  suffices item : Carries P _ from
    .ite (.ite (carries_take.bind fun _ => item)
      ((carries_unexpected _ _ _).bind fun _ => item)) item
  refine carries_peek.bind fun t => ?_
  split
  case h_1 =>
    refine (carries_add _).bind fun id => carries_take.bind fun _ =>
      (carries_nextIs _).bind fun _ => ?_
    suffices value : ∀ key : Nat, Carries P _ from
      .ite ((carries_addEmpty _).bind value) ((ih.node _ _).bind value)
    intro key
    exact (ih.flowValue _).bind fun _ => (carries_setBody _ _).bind fun _ =>
      ih.flowItems _ _ _
  case h_2 => exact carries_take.bind fun _ => .pure _
  case h_3 => exact (ih.node _ _).bind fun _ => ih.flowItems _ _ _

theorem carries_flowValue (ends : List TokenKind) :
    Carries P (flowValue (fuel + 1) ends) := by
  unfold flowValue
  refine carries_peek.bind fun t => ?_
  split
  · exact carries_take.bind fun _ => (carries_nextIs _).bind fun _ =>
      .ite (carries_addEmpty _) (ih.node _ _)
  · exact carries_addEmpty _

theorem carries_flowEntries (start : Mark) (isFirst : Bool)
    (acc : List (Nat × Nat)) :
    Carries P (flowEntries (fuel + 1) start isFirst acc) := by
  unfold flowEntries
  refine carries_peek.bind fun t =>
    .ite (carries_take.bind fun _ => .pure _) ?_
  suffices entry : Carries P _ from
    .ite (.ite (carries_take.bind fun _ => entry)
      ((carries_unexpected _ _ _).bind fun _ => entry)) entry
  refine carries_peek.bind fun t => ?_
  split
  case h_1 =>
    refine carries_take.bind fun _ => (carries_nextIs _).bind fun _ => ?_
    suffices value : ∀ key : Nat, Carries P _ from
      .ite ((carries_addEmpty _).bind value) ((ih.node _ _).bind value)
    intro key
    exact (ih.flowValue _).bind fun _ => ih.flowEntries _ _ _
  case h_2 => exact carries_take.bind fun _ => .pure _
  case h_3 =>
    exact (ih.node _ _).bind fun _ => carries_peek.bind fun _ =>
      (carries_addEmpty _).bind fun _ => ih.flowEntries _ _ _

end

theorem nodesCarry (hdeep : P .nestedTooDeeply) (fuel : Nat) :
    NodesCarry P fuel := by
  induction fuel with
  | zero =>
      exact
        { node := fun _ _ => .pure _
          blockItems := fun _ _ => .pure _
          indentlessItems := fun _ => .pure _
          blockPart := fun _ => .pure _
          blockEntries := fun _ _ => .pure _
          blockValue := .pure _
          flowItems := fun _ _ _ => .pure _
          flowValue := fun _ => .pure _
          flowEntries := fun _ _ _ => .pure _ }
  | succ fuel ih =>
      exact
        { node := carries_node ih hdeep
          blockItems := carries_blockItems ih
          indentlessItems := carries_indentlessItems ih
          blockPart := carries_blockPart ih
          blockEntries := carries_blockEntries ih
          blockValue := carries_blockValue ih
          flowItems := carries_flowItems ih
          flowValue := carries_flowValue ih
          flowEntries := carries_flowEntries ih }

-- =============================================================== documents

theorem carries_directives (fuel : Nat) (version : Bool)
    (handles : List (Text × Text)) :
    Carries P (directives fuel version handles) := by
  induction fuel generalizing version handles with
  | zero => exact .pure _
  | succ fuel ih =>
      unfold directives
      refine carries_peek.bind fun t => ?_
      split
      case h_1 =>
        refine .ite (.failAt _ _) (.ite (.failAt _ _) ?_)
        exact carries_take.bind fun _ => ih _ _
      case h_2 =>
        split
        · exact .failAt _ _
        · exact carries_take.bind fun _ => ih _ _
      case h_3 => exact carries_take.bind fun _ => ih _ _
      case h_4 => exact .pure _

theorem carries_nextDirective : Carries P nextDirective := by
  unfold nextDirective
  refine carries_peek.bind fun t => ?_
  split
  · exact .pure _
  · exact .pure _
  · exact .pure _
  · exact .pure _

theorem carries_skipDocumentEnds (fuel : Nat) :
    Carries P (skipDocumentEnds fuel) := by
  induction fuel with
  | zero => exact .pure _
  | succ fuel ih =>
      exact (carries_nextIs _).bind fun _ =>
        .ite (carries_take.bind fun _ => ih) (.pure _)

theorem carries_openDocument (fuel : Nat) :
    Carries P (openDocument fuel) := by
  unfold openDocument
  refine (carries_skipDocumentEnds _).bind fun _ =>
    carries_peek.bind fun t => .ite (.pure _) ?_
  refine (carries_directives _ _ _).bind fun handles => ?_
  refine .bind (.modify fun _ => rfl) fun _ => carries_peek.bind fun next => ?_
  exact .ite (carries_take.bind fun _ => .pure _) (.failAt _ _)

theorem carries_explicitRoot (hdeep : P .nestedTooDeeply) (fuel : Nat) :
    Carries P (explicitRoot fuel) := by
  refine carries_peek.bind fun t => carries_nextDirective.bind fun _ => ?_
  refine (carries_nextIs _).bind fun _ => .ite (carries_addEmpty _) ?_
  exact (nodesCarry hdeep fuel).node _ _

theorem carries_single (hdeep : P .nestedTooDeeply) (fuel : Nat) :
    Carries P (single fuel) := by
  unfold single
  refine carries_take.bind fun _ => carries_nextDirective.bind fun _ =>
    (carries_nextIs _).bind fun _ => ?_
  suffices rest : ∀ root : Option Nat, Carries P _ from
    .ite (.bind (.modify fun _ => rfl) fun _ =>
        ((nodesCarry hdeep fuel).node _ _).bind fun _ =>
          (Carries.pure _).bind rest)
      ((carries_openDocument _).bind fun place => by
        split
        · exact (carries_explicitRoot hdeep _).bind fun _ =>
            (Carries.pure _).bind rest
        · exact (Carries.pure _).bind rest)
  intro root
  split
  · exact .pure _
  · refine (carries_nextIs _).bind fun _ => ?_
    suffices close : Carries P _ from
      .ite (carries_take.bind fun _ => close) close
    refine (carries_openDocument _).bind fun place => ?_
    split
    · exact .pure _
    · exact Carries.get.bind fun _ => .fail _ _ _ _

/-- Building the document of some tokens. -/
theorem ofTokens_within (hdeep : P .nestedTooDeeply) (tokens : List Token)
    {failure : Option Failure} (hbehind : ∀ e, failure = some (.fault e) → P e) :
    Within P (fun _ => True) (ofTokens tokens failure) := by
  have hrun := carries_single hdeep (4 * tokens.length + 8)
    ⟨tokens, failure, #[], [], standardHandles, 0⟩ hbehind
  exact hrun.then fun _ _ => trivial

end AuditTrail.Yaml.Document
