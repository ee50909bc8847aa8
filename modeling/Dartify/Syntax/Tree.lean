import Dartify.Json.Parser
import Dartify.Syntax.Payload.Decode
import Dartify.Syntax.Payload.Encode

/-!
# Syntax trees

A tree is a table of nodes.  A front end adds children before parents: `Tree.add` puts a node behind
the others and makes it the parent of its children.  A child that is added later is not linked, and
a child with several parents keeps the last one.

A node added without a place in the source text gets one.  A childless node takes the next free
offsets, as many as its text has bytes and at least one, and leaves one free after them.  Any other
node reaches from the first start to the last end of its children.

Walks along parent links and through dotted names take a budget that the table's size bounds, so
that they are total on tables whose links run in a circle.
-/

namespace Dartify

/-- A node of a tree. -/
structure Node where
  /-- What the node is. -/
  payload : Payload
  /-- The offset at which it starts. -/
  pos : Nat
  /-- The offset at which it ends. -/
  stop : Nat
  /-- The node it belongs to, `none` for a root. -/
  parent : Option NodeId
  deriving DecidableEq, Repr

/-- A table of nodes. -/
structure Tree where
  /-- The nodes; a handle is a place in this table. -/
  nodes : Array Node := #[]
  /-- The source text, when the front end kept it. -/
  sourceText : Option String := none
  /-- The next free offset for nodes without a place of their own. -/
  cursor : Nat := 0
  deriving DecidableEq, Repr

namespace Tree

/-- A tree without nodes. -/
def empty : Tree := {}

/-- A tree without nodes that keeps a source text. -/
def ofSource (text : String) : Tree := { sourceText := some text }

/-- The number of nodes. -/
def size (tree : Tree) : Nat := tree.nodes.size

/-- The node of a handle. -/
def get? (tree : Tree) (node : NodeId) : Option Node := tree.nodes[node]?

/-! ## Adding nodes -/

/-- Makes `parent` the parent of a node, if there is such a node. -/
def link (parent : NodeId) (nodes : Array Node) (child : NodeId) : Array Node :=
  nodes.modify child fun node => { node with parent := some parent }

/-- Adds a node at a place in the source text. -/
def addAt (tree : Tree) (payload : Payload) (pos stop : Nat) : Tree :=
  { tree with
    nodes := (payload.children.foldl (link tree.size) tree.nodes).push ⟨payload, pos, stop, none⟩
    cursor := max tree.cursor (stop + 1) }

/-- The least number of a list, or `default` for an empty one. -/
def leastOr (default : Nat) : List Nat → Nat
  | [] => default
  | n :: rest => rest.foldl min n

/-- The greatest number of a list, or `default` for an empty one. -/
def greatestOr (default : Nat) : List Nat → Nat
  | [] => default
  | n :: rest => rest.foldl max n

/-- The place of a node that is added without one: its start and its end. -/
def spanOf (tree : Tree) (payload : Payload) : Nat × Nat :=
  if payload.children.isEmpty then
    (tree.cursor, tree.cursor + max 1 payload.leafText.utf8ByteSize)
  else
    let children := payload.children.filterMap tree.get?
    let pos := leastOr tree.cursor (children.map Node.pos)
    (pos, greatestOr pos (children.map Node.stop))

/-- Adds a node and finds its place in the source text. -/
def add (tree : Tree) (payload : Payload) : Tree :=
  tree.addAt payload (tree.spanOf payload).1 (tree.spanOf payload).2

/-! ## Parents and ancestors -/

/-- The parent of a node. -/
def parent? (tree : Tree) (node : NodeId) : Option NodeId :=
  (tree.get? node).bind Node.parent

/-- The nodes met from a link on, following parent links for at most `budget` steps. -/
def climb (tree : Tree) : Nat → Option NodeId → List (NodeId × Node)
  | 0, _ => []
  | _ + 1, none => []
  | budget + 1, some node =>
    match tree.get? node with
    | none => []
    | some found => (node, found) :: climb tree budget found.parent

/-- The ancestors of a node, the innermost first. -/
def ancestors (tree : Tree) (node : NodeId) : List (NodeId × Node) :=
  tree.climb tree.size (tree.parent? node)

/-- Whether an ancestor of a node has a payload that satisfies `test`. -/
def hasAncestor (tree : Tree) (node : NodeId) (test : Payload → Bool) : Bool :=
  (tree.ancestors node).any fun ancestor => test ancestor.2.payload

/-! ## Names -/

/-- The text of an identifier. -/
def identifierText? (tree : Tree) (node : NodeId) : Option String :=
  match tree.get? node with
  | some ⟨.name (.identifier text), _, _, _⟩ => some text
  | _ => none

/-- The dotted text of a name whose left parts are nested at most `budget` deep. -/
def dottedText? (tree : Tree) : Nat → NodeId → Option String
  | 0, _ => none
  | budget + 1, node =>
    match tree.get? node with
    | some ⟨.name (.identifier text), _, _, _⟩ => some text
    | some ⟨.name (.qualified left right), _, _, _⟩ => do
      let front ← dottedText? tree budget left
      let last ← tree.identifierText? right
      return front ++ "." ++ last
    | _ => none

/-- The dotted text of an identifier or a qualified name. -/
def entityText? (tree : Tree) (node : NodeId) : Option String :=
  tree.dottedText? tree.size node

/-! ## Constant contexts -/

/-- The callee of a call. -/
def callee? : Payload → Option NodeId
  | .expr (.call expression _ _) => some expression
  | _ => none

/-- Whether a payload is a decorator. -/
def isDecorator : Payload → Bool
  | .decl (.decorator _) => true
  | _ => false

/-- Whether the nearest call around a node is a call of `CONST_EXPR`. -/
def inConstExpr (tree : Tree) (node : NodeId) : Bool :=
  match (tree.ancestors node).findSome? fun ancestor => callee? ancestor.2.payload with
  | some callee => tree.identifierText? callee == some "CONST_EXPR"
  | none => false

/-- Whether a node stands in a decorator or in a call of `CONST_EXPR`. -/
def inConstContext (tree : Tree) (node : NodeId) : Bool :=
  tree.hasAncestor node isDecorator || tree.inConstExpr node

end Tree

/-! ## Trees as JSON -/

/-- The JSON of a handle that may be absent. -/
def encodeLink : Option NodeId → Json
  | none => .null
  | some node => .nat node

/-- The JSON of a node. -/
def Node.encode (layout : Layout) (node : Node) : Json :=
  layout.record
    [("data", node.payload.encode layout), ("pos", .nat node.pos), ("end", .nat node.stop),
      ("parent", encodeLink node.parent)]

/-- Reads a node. -/
def Node.decode? (reading : Reading) (value : Json) : Option Node := do
  match ← Json.record? ["data", "pos", "end", "parent"] value with
  | [payload, pos, stop, parent] =>
    return ⟨← Json.required (Payload.decode? reading) payload, ← Json.required Json.word? pos,
      ← Json.required Json.word? stop, ← Json.optional Json.word? parent⟩
  | _ => none

namespace Tree

/-- The JSON of a source text that may be absent. -/
def encodeSource : Option String → Json
  | none => .null
  | some text => .text text

/-- The JSON of a tree. -/
def encode (layout : Layout) (tree : Tree) : Json :=
  layout.record
    [("nodes", .list (tree.nodes.toList.map (Node.encode layout))),
      ("source_text", encodeSource tree.sourceText), ("cursor", .nat tree.cursor)]

/-- Reads a tree.  The source text and the cursor may be left out. -/
def decode? (reading : Reading) (value : Json) : Option Tree := do
  match ← Json.fields? ["nodes", "source_text", "cursor"] 1 value with
  | [nodes, sourceText, cursor] =>
    return ⟨(← Json.required (Json.list? (Node.decode? reading)) nodes).toArray,
      ← Json.optional Json.text? sourceText, ← Json.defaulted 0 Json.word? cursor⟩
  | _ => none

/-- Reads a tree from JSON text, in which the fields of forms may be lists. -/
def parse? (text : String) : Option Tree :=
  (Json.parse? text).bind (decode? .lenient)

end Tree

end Dartify
