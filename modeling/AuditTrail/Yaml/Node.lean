/-
The nodes of a YAML document. A node is known by its number, so that an alias is the number of the
node that it stands for, also inside that node. `Document.ofTokens` builds the nodes of the one
document that a sequence of tokens may hold, and complains about the first token that fits no
rule.
-/
import AuditTrail.Yaml.Error
import AuditTrail.Yaml.Tag
import AuditTrail.Yaml.Token

namespace AuditTrail.Yaml

/-- What a node consists of. -/
inductive NodeBody where
  | scalar (text : Text)
  | sequence (items : List Nat)
  | mapping (entries : List (Nat × Nat))
  deriving DecidableEq, Repr, Inhabited

/-- The name of a kind of node in complaints. -/
def NodeBody.label : NodeBody → Text
  | .scalar _ => "scalar".toList
  | .sequence _ => "sequence".toList
  | .mapping _ => "mapping".toList

/-- A node: its tag, what it consists of, and where it begins. -/
structure Node where
  tag : Tag
  body : NodeBody
  start : Mark
  deriving DecidableEq, Repr, Inhabited

/-- The nodes of a document by number, and the number of its root. -/
structure Document where
  nodes : Array Node
  root : Nat

namespace Document

/-- What is known while the nodes of a document are built. -/
structure Builder where
  tokens : List Token
  /-- What happens where the tokens end. -/
  failure : Option Failure
  nodes : Array Node
  anchors : List (Text × Nat)
  /-- The beginnings that tag handles stand for. -/
  handles : List (Text × Text)
  /-- How many collections stand around the next token. -/
  depth : Nat

/-- A step of building. -/
abbrev Build (α : Type) := StateT Builder (Except Failure) α

/-- Refuses with a complaint. -/
def refuse {α : Type} (r : Result α) : Build α := StateT.lift r

/-- The next token. -/
def peek : Build Token := do
  let b ← get
  match b.tokens, b.failure with
  | t :: _, _ => pure t
  | [], some e => throw e
  | [], none => pure default

/-- The next token, taken away. -/
def take : Build Token := do
  let t ← peek
  modify fun b => { b with tokens := b.tokens.drop 1 }
  pure t

/-- Whether the next token is of one of some kinds. -/
def nextIs (kinds : List TokenKind) : Build Bool := do
  let t ← peek
  pure (kinds.contains t.kind)

/-- The number of a new node. -/
def add (n : Node) : Build Nat := do
  let b ← get
  set { b with nodes := b.nodes.push n }
  pure b.nodes.size

/-- The most collections that may stand around a token. -/
def depthLimit : Nat := 480

/-- Goes into a collection, unless it lies too deep. -/
def enter : Build Unit := do
  let b ← get
  if depthLimit ≤ b.depth then throw (.fault .nestedTooDeeply)
  set { b with depth := b.depth + 1 }

/-- Goes out of a collection. -/
def leave : Build Unit := modify fun b => { b with depth := b.depth - 1 }

/-- Gives a node its parts. -/
def setBody (id : Nat) (body : NodeBody) : Build Unit :=
  modify fun b =>
    { b with nodes := b.nodes.modify id fun n => { n with body := body } }

/-- A scalar without text. -/
def addEmpty (place : Mark) : Build Nat := add ⟨Tag.ofPlain [], .scalar [], place⟩

/-- What stands before the content of a node: its anchor, its tag, and where it begins. -/
structure Properties where
  anchor : Option Text
  tag : Option Text
  start : Option Mark

/-- The text of a tag, whose handle must be known. -/
def expandTag (start place : Mark) (handle : Option Text) (suffix : Text) : Build Text := do
  match handle with
  | none => pure suffix
  | some h =>
    match (← get).handles.lookup h with
    | some lead => pure (lead ++ suffix)
    | none =>
      refuse (fail "while parsing a node".toList start
        ("found undefined tag handle ".toList ++ Text.quoted h) place)

/-- Reads the anchor and the tag of a node, in either order. -/
def properties : Build Properties := do
  let t ← peek
  match t.kind with
  | .anchor name => do
    let _ ← take
    let next ← peek
    match next.kind with
    | .tag handle suffix => do
      let _ ← take
      let tag ← expandTag t.start next.start handle suffix
      pure ⟨some name, some tag, some t.start⟩
    | _ => pure ⟨some name, none, some t.start⟩
  | .tag handle suffix => do
    let _ ← take
    let next ← peek
    match next.kind with
    | .anchor name => do
      let _ ← take
      let tag ← expandTag t.start t.start handle suffix
      pure ⟨some name, some tag, some t.start⟩
    | _ => do
      let tag ← expandTag t.start t.start handle suffix
      pure ⟨none, some tag, some t.start⟩
  | _ => pure ⟨none, none, none⟩

/-- Refuses an anchor that is in use. -/
def checkAnchor (anchor : Option Text) (place : Mark) : Build Unit := do
  let b ← get
  match anchor.bind fun name => (b.anchors.lookup name).map fun id => (name, id) with
  | some (name, id) =>
    refuse (fail
      ("found duplicate anchor ".toList ++ Text.quoted name ++ "; first occurrence".toList)
      (b.nodes.getD id default).start "second occurrence".toList place)
  | none => pure ()

/-- The number of a new node that an anchor may name. -/
def addNamed (anchor : Option Text) (n : Node) : Build Nat := do
  let id ← add n
  match anchor with
  | some name => modify fun b => { b with anchors := (name, id) :: b.anchors }
  | none => pure ()
  pure id

/-- The tag of a collection: the one written, unless it is missing or only an exclamation mark. -/
def collectionTag (written : Option Text) (standard : Tag) : Tag :=
  match written with
  | none => standard
  | some ['!'] => standard
  | some s => Tag.ofText s

/-- The tag of a scalar: a plain one without a tag, and any whose tag is only an exclamation mark,
gets one from its text. -/
def scalarTag (written : Option Text) (plain : Bool) (text : Text) : Tag :=
  match written with
  | none => if plain then Tag.ofPlain text else .str
  | some ['!'] => Tag.ofPlain text
  | some s => Tag.ofText s

/-- The complaint about a token that cannot follow in a collection. -/
def unexpected {α : Type} (context : Text) (start : Mark) (expected : Text) : Build α := do
  let t ← peek
  refuse (fail context start (expected ++ t.shown) t.start)

mutual

/-- Builds a node. The number bounds the steps; `block` says whether block collections may stand
here, `indentless` whether a sequence may stand here that is not indented. -/
def node : Nat → Bool → Bool → Build Nat
  | 0, _, _ => pure 0
  | fuel + 1, block, indentless => do
    let t ← peek
    match t.kind with
    | .alias name => do
      let _ ← take
      match (← get).anchors.lookup name with
      | some id => pure id
      | none => refuse (failAt ("found undefined alias ".toList ++ Text.quoted name) t.start)
    | _ => do
      let p ← properties
      let next ← peek
      let start := p.start.getD next.start
      let opened (standard : Tag) (body : NodeBody) : Build Nat := do
        enter
        checkAnchor p.anchor start
        addNamed p.anchor ⟨collectionTag p.tag standard, body, start⟩
      let closed (id : Nat) (body : NodeBody) : Build Nat := do
        setBody id body
        leave
        pure id
      match next.kind with
      | .blockEntry =>
        if indentless then do
          let id ← opened .seq (.sequence [])
          let items ← indentlessItems fuel []
          closed id (.sequence items)
        else content fuel block p start next
      | .scalar text plain => do
        let _ ← take
        checkAnchor p.anchor start
        addNamed p.anchor ⟨scalarTag p.tag plain text, .scalar text, start⟩
      | .flowSequenceStart => do
        let id ← opened .seq (.sequence [])
        let _ ← take
        let items ← flowItems fuel next.start true []
        closed id (.sequence items)
      | .flowMappingStart => do
        let id ← opened .map (.mapping [])
        let _ ← take
        let entries ← flowEntries fuel next.start true []
        closed id (.mapping entries)
      | .blockSequenceStart =>
        if block then do
          let id ← opened .seq (.sequence [])
          let _ ← take
          let items ← blockItems fuel next.start []
          closed id (.sequence items)
        else content fuel block p start next
      | .blockMappingStart =>
        if block then do
          let id ← opened .map (.mapping [])
          let _ ← take
          let entries ← blockEntries fuel next.start []
          closed id (.mapping entries)
        else content fuel block p start next
      | _ => content fuel block p start next

/-- Builds a node that has no content of its own: an empty scalar if it has an anchor or a tag. -/
def content : Nat → Bool → Properties → Mark → Token → Build Nat
  | 0, _, _, _, _ => pure 0
  | _ + 1, block, p, start, next =>
    if p.anchor.isSome || p.tag.isSome then do
      checkAnchor p.anchor start
      addNamed p.anchor ⟨scalarTag p.tag (p.tag.isNone) [], .scalar [], start⟩
    else
      refuse (fail
        (if block then "while parsing a block node".toList
          else "while parsing a flow node".toList)
        start ("expected the node content, but found ".toList ++ next.shown) next.start)

/-- Builds the items of a block sequence; `acc` holds those before, reversed. -/
def blockItems : Nat → Mark → List Nat → Build (List Nat)
  | 0, _, acc => pure acc.reverse
  | fuel + 1, start, acc => do
    let t ← peek
    match t.kind with
    | .blockEntry => do
      let _ ← take
      if ← nextIs [.blockEntry, .blockEnd] then
        let id ← addEmpty t.stop
        blockItems fuel start (id :: acc)
      else
        let id ← node fuel true false
        blockItems fuel start (id :: acc)
    | .blockEnd => do
      let _ ← take
      pure acc.reverse
    | _ =>
      unexpected "while parsing a block collection".toList start
        "expected <block end>, but found ".toList

/-- Builds the items of a sequence that is not indented. -/
def indentlessItems : Nat → List Nat → Build (List Nat)
  | 0, acc => pure acc.reverse
  | fuel + 1, acc => do
    let t ← peek
    match t.kind with
    | .blockEntry => do
      let _ ← take
      if ← nextIs [.blockEntry, .key, .value, .blockEnd] then
        let id ← addEmpty t.stop
        indentlessItems fuel (id :: acc)
      else
        let id ← node fuel true false
        indentlessItems fuel (id :: acc)
    | _ => pure acc.reverse

/-- Builds the key after a key's indicator or the value after a value's, in a block mapping. -/
def blockPart : Nat → Token → Build Nat
  | 0, _ => pure 0
  | fuel + 1, t => do
    if ← nextIs [.key, .value, .blockEnd] then addEmpty t.stop else node fuel true true

/-- Builds the entries of a block mapping. -/
def blockEntries : Nat → Mark → List (Nat × Nat) → Build (List (Nat × Nat))
  | 0, _, acc => pure acc.reverse
  | fuel + 1, start, acc => do
    let t ← peek
    match t.kind with
    | .key => do
      let _ ← take
      let key ← blockPart fuel t
      let value ← blockValue fuel
      blockEntries fuel start ((key, value) :: acc)
    | .blockEnd => do
      let _ ← take
      pure acc.reverse
    | _ =>
      unexpected "while parsing a block mapping".toList start
        "expected <block end>, but found ".toList

/-- Builds the value of an entry of a block mapping. -/
def blockValue : Nat → Build Nat
  | 0 => pure 0
  | fuel + 1 => do
    let t ← peek
    match t.kind with
    | .value => do
      let _ ← take
      blockPart fuel t
    | _ => addEmpty t.start

/-- Builds the items of a flow sequence. -/
def flowItems : Nat → Mark → Bool → List Nat → Build (List Nat)
  | 0, _, _, acc => pure acc.reverse
  | fuel + 1, start, isFirst, acc => do
    let t ← peek
    if t.kind == .flowSequenceEnd then
      let _ ← take
      pure acc.reverse
    else
      if !isFirst then
        if t.kind == .flowEntry then
          let _ ← take
        else
          unexpected "while parsing a flow sequence".toList start
            "expected ',' or ']', but got ".toList
      let t ← peek
      match t.kind with
      | .key => do
        let id ← add ⟨.map, .mapping [], t.start⟩
        let _ ← take
        let key ←
          if ← nextIs [.value, .flowEntry, .flowSequenceEnd] then addEmpty t.stop
          else node fuel false false
        let value ← flowValue fuel [.flowEntry, .flowSequenceEnd]
        setBody id (.mapping [(key, value)])
        flowItems fuel start false (id :: acc)
      | .flowSequenceEnd => do
        let _ ← take
        pure acc.reverse
      | _ => do
        let id ← node fuel false false
        flowItems fuel start false (id :: acc)

/-- Builds the value of an entry inside flow brackets; `ends` are the tokens that end an entry. -/
def flowValue : Nat → List TokenKind → Build Nat
  | 0, _ => pure 0
  | fuel + 1, ends => do
    let t ← peek
    match t.kind with
    | .value => do
      let _ ← take
      if ← nextIs ends then addEmpty t.stop else node fuel false false
    | _ => addEmpty t.start

/-- Builds the entries of a flow mapping. -/
def flowEntries : Nat → Mark → Bool → List (Nat × Nat) → Build (List (Nat × Nat))
  | 0, _, _, acc => pure acc.reverse
  | fuel + 1, start, isFirst, acc => do
    let t ← peek
    if t.kind == .flowMappingEnd then
      let _ ← take
      pure acc.reverse
    else
      if !isFirst then
        if t.kind == .flowEntry then
          let _ ← take
        else
          unexpected "while parsing a flow mapping".toList start
            "expected ',' or '\x7d', but got ".toList
      let t ← peek
      match t.kind with
      | .key => do
        let _ ← take
        let key ←
          if ← nextIs [.value, .flowEntry, .flowMappingEnd] then addEmpty t.stop
          else node fuel false false
        let value ← flowValue fuel [.flowEntry, .flowMappingEnd]
        flowEntries fuel start false ((key, value) :: acc)
      | .flowMappingEnd => do
        let _ ← take
        pure acc.reverse
      | _ => do
        let key ← node fuel false false
        let next ← peek
        let value ← addEmpty next.start
        flowEntries fuel start false ((key, value) :: acc)

end

-- ==================================================== documents

/-- The tag handles that are known without a directive. -/
def standardHandles : List (Text × Text) := [(['!'], ['!']), (['!', '!'], Tag.standardLead)]

/-- Reads the directives before a document; `version` says whether one of them gave a version. -/
def directives : Nat → Bool → List (Text × Text) → Build (List (Text × Text))
  | 0, _, handles => pure handles
  | fuel + 1, version, handles => do
    let t ← peek
    match t.kind with
    | .yamlDirective major _ =>
      if version then refuse (failAt "found duplicate YAML directive".toList t.start)
      else if major != 1 then
        refuse (failAt
          "found incompatible YAML document (version 1.* is required)".toList t.start)
      else do
        let _ ← take
        directives fuel true handles
    | .tagDirective handle lead =>
      match handles.lookup handle with
      | some _ =>
        refuse (failAt ("duplicate tag handle ".toList ++ Text.quoted handle) t.start)
      | none => do
        let _ ← take
        directives fuel version ((handle, lead) :: handles)
    | .otherDirective => do
      let _ ← take
      directives fuel version handles
    | _ => pure handles

/-- The kind of the next token, with the contents of directives left out. -/
def nextDirective : Build Bool := do
  let t ← peek
  match t.kind with
  | .yamlDirective .. | .tagDirective .. | .otherDirective => pure true
  | _ => pure false

/-- Skips the markers that end documents. -/
def skipDocumentEnds : Nat → Build Unit
  | 0 => pure ()
  | fuel + 1 => do
    if ← nextIs [.documentEnd] then
      let _ ← take
      skipDocumentEnds fuel
    else pure ()

/-- Reads the directives and the marker at the beginning of a document, if there is a document;
where it begins is returned. -/
def openDocument (fuel : Nat) : Build (Option Mark) := do
  skipDocumentEnds fuel
  let t ← peek
  if t.kind == .streamEnd then pure none
  else
    let handles ← directives fuel false []
    let missing := standardHandles.filter fun p => (handles.lookup p.1).isNone
    modify fun b => { b with handles := handles ++ missing }
    let next ← peek
    if next.kind == .documentStart then
      let _ ← take
      pure (some t.start)
    else
      refuse (failAt ("expected '<document start>', but found ".toList ++ next.shown) next.start)

/-- Builds the root of a document that began with a marker. -/
def explicitRoot (fuel : Nat) : Build Nat := do
  let t ← peek
  if (← nextDirective) || (← nextIs [.documentStart, .documentEnd, .streamEnd]) then
    addEmpty t.start
  else node fuel true false

/-- Builds the one document of a stream, if there is one. -/
def single (fuel : Nat) : Build (Option Nat) := do
  let _ ← take
  let implicit :=
    !((← nextDirective) || (← nextIs [.documentStart, .streamEnd]))
  let root ←
    if implicit then do
      modify fun b => { b with handles := standardHandles }
      let id ← node fuel true false
      pure (some id)
    else do
      match ← openDocument fuel with
      | some _ => do
        let id ← explicitRoot fuel
        pure (some id)
      | none => pure none
  match root with
  | none => pure none
  | some id => do
    if ← nextIs [.documentEnd] then
      let _ ← take
    match ← openDocument fuel with
    | none => pure (some id)
    | some place =>
      let start := ((← get).nodes.getD id default).start
      refuse (fail "expected a single document in the stream".toList start
        "but found another document".toList place)

/-- The document of some tokens, or nothing if they hold none. -/
def ofTokens (tokens : List Token) (failure : Option Failure) : Result (Option Document) := do
  let begin : Builder := ⟨tokens, failure, #[], [], standardHandles, 0⟩
  let (root, b) ← (single (4 * tokens.length + 8)).run begin
  .ok (root.map fun id => ⟨b.nodes, id⟩)

end Document

end AuditTrail.Yaml
