import Dartify.Defect
import Dartify.Diagnostic
import Dartify.Idiom.Catalog
import Dartify.Syntax.Tree

/-!
# Plans

What is written for a node depends on the tree, the resolver and the catalog, and not on what was
written before.  So it is first laid down as a *plan*: a list of directives that write text, walk a
child, make a diagnostic or stop the run.  A plan visits no node itself; carrying it out is the
matter of a run.

This module has the directives, the pieces that many plans share, and the context in which plans
are made.
-/

namespace Dartify

/-- One step in writing a node. -/
inductive Directive where
  /-- Writes a token, set apart by a space. -/
  | token (word : String)
  /-- Writes a text directly behind what is there. -/
  | glue (text : String)
  /-- Makes the next token attach. -/
  | attach
  /-- Writes a node in its place. -/
  | child (node : NodeId)
  /-- Makes a diagnostic at a node. -/
  | complain (node : NodeId) (cause : Complaint)
  /-- Stops the run. -/
  | abort (defect : Defect)
  deriving DecidableEq, Repr

/-- The directives for a node, in order. -/
abbrev Plan := List Directive

/-- What plans are made from. -/
structure Context where
  /-- The tree. -/
  tree : Tree
  /-- The answers of a front end, when library idioms are looked up. -/
  resolver : Option Resolver
  /-- The idioms. -/
  catalog : Catalog
  /-- The folder that declaring files are made relative to. -/
  basePath : Option String

/-- Whether a payload is a block of statements. -/
def Payload.isBlock : Payload → Bool
  | .stmt (.block _) => true
  | _ => false

namespace Plan

/-- Writes nodes one after the other. -/
def each (nodes : List NodeId) : Plan :=
  nodes.map Directive.child

/-- Writes a node, if there is one. -/
def maybe (node : Option NodeId) : Plan :=
  each node.toList

/-- Writes nodes with a token between each two. -/
def separated (separator : String) : List NodeId → Plan
  | [] => []
  | first :: rest =>
    .child first :: rest.flatMap fun node => [.token separator, .child node]

/-- Writes nodes with commas between them. -/
def commas (nodes : List NodeId) : Plan :=
  separated "," nodes

/-- Writes type arguments between angle brackets, and nothing when there are none. -/
def typeArguments (nodes : List NodeId) : Plan :=
  if nodes.isEmpty then [] else .token "<" :: (commas nodes ++ [.token ">"])

/-- Writes a token when a condition holds. -/
def tokenIf (condition : Bool) (word : String) : Plan :=
  if condition then [.token word] else []

/-- Writes a token and a node, if there is one. -/
def led (word : String) : Option NodeId → Plan
  | none => []
  | some node => [.token word, .child node]

/-- Goes on according to what a node is, and stops when there is no such node. -/
def withPayload (context : Context) (node : NodeId) (plan : Payload → Plan) : Plan :=
  match context.tree.get? node with
  | some found => plan found.payload
  | none => [.abort (.missing node)]

/-- Stops because a node is not what its place takes. -/
def unexpected (context : Context) (expected : String) (node : NodeId) : Plan :=
  match context.tree.get? node with
  | some found => [.abort (.unexpected expected found.payload.kind found.pos)]
  | none => [.abort (.missing node)]

/-- Writes an arrow unless a block follows, then the body. -/
def arrowBody (context : Context) (body : NodeId) : Plan :=
  withPayload context body fun payload => tokenIf (!payload.isBlock) "=>" ++ [.child body]

end Plan

end Dartify
