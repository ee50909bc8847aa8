import Dartify.Plan.Basic

/-!
# Extra imports

The imports that the type references of a tree need.  The tree is walked from a root, each node
before its children.  A target is listed where it is first needed.  The walk stops at the first
handle without a node.
-/

namespace Dartify.Import

/-- The import that a node needs, if it is a reference to a listed type. -/
def target? (context : Context) : Payload → Option String
  | .type (.reference name _) =>
    (context.tree.entityText? name).bind fun text => context.catalog.imports.lookup text
  | _ => none

/-- Adds a target to a list that does not have it yet. -/
def listed (targets : List String) : Option String → List String
  | none => targets
  | some target => if target ∈ targets then targets else targets ++ [target]

/-- Adds the targets needed below a node, for nodes nested at most `budget` deep. -/
def collect (context : Context) : Nat → List String → NodeId → Except Defect (List String)
  | 0, _, _ => .error .exhausted
  | budget + 1, targets, node =>
    match context.tree.get? node with
    | none => .error (.missing node)
    | some found =>
      found.payload.children.foldlM (collect context budget)
        (listed targets (target? context found.payload))

/-- The targets needed below a node, in the order of their first use. -/
def needed (context : Context) (root : NodeId) : Except Defect (List String) :=
  if context.catalog.imports.isEmpty then .ok []
  else collect context (context.tree.size + 1) [] root

/-- An import directive. -/
def directive (target : String) : String :=
  "import \"" ++ target ++ "\";"

end Dartify.Import
