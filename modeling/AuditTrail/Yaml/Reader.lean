/-
YAML text read as a value. The nodes of the document are surveyed first, collection by collection
in the order in which they are met, so that the first node without a value is the one complained
about; on the way the mappings get the entries of those that they merge. Then the value is put
together, with a mark at every place where a collection stands inside itself. Where such a place
is depends on where one begins, so that the parts of a document are also seen each for itself.
-/
import AuditTrail.Value.Sequence
import AuditTrail.Value.SetOrder
import AuditTrail.Yaml.Scalar
import AuditTrail.Yaml.Token.Lexer

namespace AuditTrail.Yaml

/-- The nodes of a document. -/
abbrev Nodes := Array Node

namespace Nodes

/-- The node with some number. -/
def node (ns : Nodes) (id : Nat) : Node := ns.getD id default

/-- The entries of a node that is a mapping. -/
def entries (ns : Nodes) (id : Nat) : List (Nat × Nat) :=
  match (ns.node id).body with
  | .mapping es => es
  | _ => []

/-- The nodes after a mapping got other entries. -/
def setEntries (ns : Nodes) (id : Nat) (es : List (Nat × Nat)) : Nodes :=
  ns.modify id fun n => { n with body := .mapping es }

-- ==================================================== scalars

/-- The text of a node that stands for a scalar. A mapping stands for the scalar under the key that
says so, which may lead round to the mapping itself. The number bounds the steps. -/
def scalarText (ns : Nodes) : Nat → Nat → Result Text
  | 0, _ => .error (.fault .nestedTooDeeply)
  | fuel + 1, id =>
    let n := ns.node id
    let refuse : Result Text :=
      failAt ("expected a scalar node, but found ".toList ++ n.body.label) n.start
    match n.body with
    | .scalar s => .ok s
    | .sequence _ => refuse
    | .mapping es =>
      match es.find? fun e => (ns.node e.1).tag == .value with
      | some e => ns.scalarText fuel e.2
      | none => refuse

/-- The value of a node whose tag is one of a scalar. -/
def scalarValue (ns : Nodes) (id : Nat) : Result Value := do
  let n := ns.node id
  let text := ns.scalarText (ns.size + 1) id
  match n.tag with
  | .null => do
    let _ ← text
    .ok .null
  | .bool => do .ok (.bool (← Scalar.readBool (← text)))
  | .int => do .ok (.int (← Scalar.readInt (← text)))
  | .float => do .ok (.float (← Scalar.readFloat (← text)))
  | .binary => do .ok (.bytes (← Scalar.readBinary n.start (← text)))
  | .timestamp => do
    let _ ← text
    match n.body with
    | .scalar s => Scalar.readTimestamp s
    | _ => .error (.fault (.notMatchable "list".toList))
  | .str => do .ok (.text (← text))
  | t =>
    failAt ("could not determine a constructor for the tag ".toList ++ Text.quoted t.toText)
      n.start

/-- Whether a tag is one of a collection. -/
def isCollection : Tag → Bool
  | .omap | .pairs | .set | .seq | .map => true
  | _ => false

-- ==================================================== merging

/-- The complaint about something that is merged and is no mapping. -/
def badMerge {α : Type} (start : Mark) (expected : Text) (n : Node) : Result α :=
  fail "while constructing a mapping".toList start
    ("expected ".toList ++ expected ++ " for merging, but found ".toList ++ n.body.label)
    n.start

mutual

/-- The nodes after the entries that a mapping merges were put in front of its own. -/
def flatten : Nat → Nat → Nodes → Result Nodes
  | 0, _, ns => .ok ns
  | fuel + 1, id, ns => flattenFrom fuel id 0 [] ns

/-- Looks at the entries of a mapping from one on; `merged` are the entries merged so far. -/
def flattenFrom : Nat → Nat → Nat → List (Nat × Nat) → Nodes → Result Nodes
  | 0, _, _, _, ns => .ok ns
  | fuel + 1, id, index, merged, ns =>
    let es := ns.entries id
    match es[index]? with
    | none => .ok (if merged.isEmpty then ns else ns.setEntries id (merged ++ es))
    | some (key, value) =>
      match (ns.node key).tag with
      | .merge => do
        let ns := ns.setEntries id (es.eraseIdx index)
        match (ns.node value).body with
        | .mapping _ => do
          let ns ← flatten fuel value ns
          flattenFrom fuel id index (merged ++ ns.entries value) ns
        | .sequence items => do
          let (more, ns) ← flattenItems fuel (ns.node id).start items [] ns
          flattenFrom fuel id index (merged ++ more) ns
        | .scalar _ =>
          badMerge (ns.node id).start "a mapping or list of mappings".toList (ns.node value)
      | .value =>
        let ns := ns.modify key fun n => { n with tag := .str }
        flattenFrom fuel id (index + 1) merged ns
      | _ => flattenFrom fuel id (index + 1) merged ns

/-- The entries of several mappings that are merged together, those of the last one first. -/
def flattenItems :
    Nat → Mark → List Nat → List (Nat × Nat) → Nodes → Result (List (Nat × Nat) × Nodes)
  | 0, _, _, acc, ns => .ok (acc, ns)
  | _, _, [], acc, ns => .ok (acc, ns)
  | fuel + 1, start, item :: rest, acc, ns => do
    match (ns.node item).body with
    | .mapping _ => do
      let ns ← flatten fuel item ns
      flattenItems fuel start rest (ns.entries item ++ acc) ns
    | _ => badMerge start "a mapping".toList (ns.node item)

end

/-- The most steps that merging can take. -/
def mergeBound (ns : Nodes) : Nat :=
  let entries := ns.foldl
    (fun n node =>
      match node.body with
      | .mapping es => n + es.length + 1
      | .sequence items => n + items.length + 1
      | .scalar _ => n + 1) 0
  4 * entries * (entries + 1)

-- ==================================================== survey

end Nodes

/-- What a survey has found: the nodes, the values of the scalars met so far, the collections met so
far, and those of them whose parts were not looked at yet. -/
structure Survey where
  nodes : Nodes
  scalars : Array (Option Value)
  met : List Nat
  waiting : List Nat

namespace Survey

/-- A survey that has met nothing yet. -/
def start (ns : Nodes) : Survey := ⟨ns, Array.replicate ns.size none, [], []⟩

/-- The value of a scalar that was met. -/
def scalar (s : Survey) (id : Nat) : Value := (s.scalars.getD id none).getD .null

/-- Meets a node: a scalar must have a value, which it keeps even if a merge changes a tag later; a
collection is put at the end of those waiting. -/
def meet (s : Survey) (id : Nat) : Result Survey :=
  if Nodes.isCollection (s.nodes.node id).tag then
    if s.met.contains id then .ok s
    else .ok { s with met := id :: s.met, waiting := s.waiting ++ [id] }
  else if (s.scalars.getD id none).isSome then .ok s
  else do
    let v ← s.nodes.scalarValue id
    .ok { s with scalars := s.scalars.setIfInBounds id (some v) }

/-- Meets the items of a sequence. -/
def meetAll (s : Survey) : List Nat → Result Survey
  | [] => .ok s
  | id :: rest => do meetAll (← meet s id) rest

/-- Meets the entries of a mapping; a collection is no key. -/
def meetEntries (start : Mark) (s : Survey) : List (Nat × Nat) → Result Survey
  | [] => .ok s
  | (key, value) :: rest => do
    let s ← meet s key
    let k := s.nodes.node key
    if Nodes.isCollection k.tag then
      fail "while constructing a mapping".toList start "found unhashable key".toList k.start
    else
      let s ← meet s value
      meetEntries start s rest

/-- Meets the single entries of the mappings that an ordered map or a list of pairs consists of. -/
def meetPairs (context : Text) (start : Mark) (s : Survey) : List Nat → Result Survey
  | [] => .ok s
  | id :: rest => do
    let n := s.nodes.node id
    match n.body with
    | .mapping [(key, value)] => do
      let s ← meet s key
      let s ← meet s value
      meetPairs context start s rest
    | .mapping es =>
      fail context start
        ("expected a single mapping item, but found ".toList ++ Text.ofNat es.length ++
          " items".toList) n.start
    | body =>
      fail context start
        ("expected a mapping of length 1, but found ".toList ++ body.label) n.start

/-- Looks at the parts of a collection. -/
def visit (s : Survey) (id : Nat) : Result Survey := do
  let n := s.nodes.node id
  let pairs (context : Text) : Result Survey :=
    match n.body with
    | .sequence items => meetPairs context n.start s items
    | body => fail context n.start ("expected a sequence, but found ".toList ++ body.label) n.start
  match n.tag with
  | .omap => pairs "while constructing an ordered map".toList
  | .pairs => pairs "while constructing pairs".toList
  | .seq =>
    match n.body with
    | .sequence items => meetAll s items
    | body => failAt ("expected a sequence node, but found ".toList ++ body.label) n.start
  | _ =>
    match n.body with
    | .mapping _ => do
      let nodes ← Nodes.flatten s.nodes.mergeBound id s.nodes
      meetEntries n.start { s with nodes := nodes } (nodes.entries id)
    | body => failAt ("expected a mapping node, but found ".toList ++ body.label) n.start

/-- Looks at the parts of every waiting collection; the number bounds the collections. -/
def visitAll : Nat → Survey → Result Survey
  | 0, s => .ok s
  | fuel + 1, s =>
    match s.waiting with
    | [] => .ok s
    | id :: rest => do visitAll fuel (← visit { s with waiting := rest } id)

-- ==================================================== values

/-- Whether the text of a scalar is the word for an undefined number, all of which are one
object. -/
def isNanWord (s : Survey) (id : Nat) : Bool :=
  match (s.nodes.scalarText (s.nodes.size + 1) id).bind fun t =>
      Scalar.splitNumber (Text.lower t) with
  | .ok (_, digits) => digits == ".nan".toList
  | .error _ => false

/-- Whether two scalars are one key. -/
def sameKey (s : Survey) (a b : Nat) : Bool :=
  match s.scalar a, s.scalar b with
  | .float .nan, .float .nan => a == b || (s.isNanWord a && s.isNanWord b)
  | v, w => Value.same false v w

/-- The entries of a mapping, each key once: it keeps its first place and form, and gets the value
that is given last. -/
def entry (s : Survey) (e : Nat × Nat) : List (Nat × Nat) → List (Nat × Nat)
  | [] => [e]
  | d :: rest => if s.sameKey d.1 e.1 then (d.1, e.2) :: rest else d :: entry s e rest

/-- The entries of a mapping, each key once. -/
def entries (s : Survey) (es : List (Nat × Nat)) : List (Nat × Nat) :=
  es.foldl (fun acc e => s.entry e acc) []

/-- Something that holds other parts of a document: a collection, or what becomes of an item of an
ordered map or a list of pairs, known by its place there. -/
inductive Holder where
  | collection (id : Nat)
  | pair (id index : Nat)
  deriving DecidableEq

/-- The brackets of a collection. -/
def enclosure : Tag → Enclosure
  | .map => .map
  | _ => .list

mutual

/-- The value of a node; `path` holds what it stands inside. The number bounds how deep the parts
of the document are nested. -/
def valueOf (s : Survey) : Nat → List Holder → Nat → Value
  | 0, _, _ => .null
  | fuel + 1, path, id =>
    let n := s.nodes.node id
    if !Nodes.isCollection n.tag then s.scalar id
    else if path.contains (.collection id) then .cycle (enclosure n.tag)
    else
      let path := .collection id :: path
      match n.tag, n.body with
      | .set, .mapping es =>
        let members := (s.entries es).map fun e => s.scalar e.1
        .set ((Value.SetOrder.sort? members).getD members)
      | .seq, .sequence items => .list (items.map fun item => s.valueOf fuel path item)
      | _, .sequence items =>
        .list (items.zipIdx.map fun item => s.pairOf fuel path id item.2 item.1)
      | _, .mapping es =>
        .map ((s.entries es).map fun e => (s.scalar e.1, s.valueOf fuel path e.2))
      | _, .scalar _ => .null

/-- The pair that an item of the collection `id` becomes. -/
def pairOf (s : Survey) : Nat → List Holder → Nat → Nat → Nat → Value
  | 0, _, _, _, _ => .null
  | fuel + 1, path, id, index, item =>
    if path.contains (.pair id index) then .cycle .tuple
    else
      let path := .pair id index :: path
      .tuple ((s.nodes.entries item).flatMap fun e =>
        [s.valueOf fuel path e.1, s.valueOf fuel path e.2])

end

/-- The most parts that can stand inside one another before one of them comes again. -/
def depth (s : Survey) : Nat := 2 * s.nodes.size + 2

/-- The value of a node by itself. -/
def value (s : Survey) (id : Nat) : Value := s.valueOf s.depth [] id

/-- The value of a node with its items, each by itself. -/
def unfolded (s : Survey) (id : Nat) : Value.Unfolded :=
  let n := s.nodes.node id
  let items : List Value :=
    match n.tag, n.body with
    | .seq, .sequence items => items.map s.value
    | .omap, .sequence items | .pairs, .sequence items =>
      items.zipIdx.map fun item => s.pairOf s.depth [] id item.2 item.1
    | _, _ => (s.value id).elements
  ⟨s.value id, items⟩

/-- The entries of a node that is a mapping, each value with its items. -/
def options? (s : Survey) (id : Nat) : Option (List (Value × Value.Unfolded)) :=
  let n := s.nodes.node id
  match n.tag, n.body with
  | .map, .mapping es => some ((s.entries es).map fun e => (s.scalar e.1, s.unfolded e.2))
  | _, _ => none

end Survey

-- ==================================================== documents

/-- The survey of a document. -/
def Document.survey (d : Document) : Result Survey := do
  let first ← Survey.meet (.start d.nodes) d.root
  Survey.visitAll (d.nodes.size + 1) first

/-- The survey of the document of an input and the number of its root, if there is a document. -/
def survey (input : Input) : Result (Option (Survey × Nat)) := do
  let (tokens, failure) := tokens input
  match ← Document.ofTokens tokens failure with
  | some d => .ok (some (← d.survey, d.root))
  | none => .ok none

/-- Reads a text as a document; one without any content is null. -/
def read (source : Text) : Result Value := do
  match ← survey (← Input.ofText source) with
  | some (s, root) => .ok (s.value root)
  | none => .ok .null

/-- What a file of options holds. -/
inductive Options where
  /-- Options by name. -/
  | given (entries : List (Value × Value.Unfolded))
  /-- A document that is no mapping. -/
  | malformed

/-- Reads the options in a file; a document without content holds none. -/
def readOptions (d : Delivery) : Result Options := do
  match ← survey (← Input.ofDelivery d) with
  | none => .ok (.given [])
  | some (s, root) =>
    match s.options? root, s.value root with
    | some entries, _ => .ok (.given entries)
    | none, .null => .ok (.given [])
    | none, _ => .ok .malformed

end AuditTrail.Yaml
