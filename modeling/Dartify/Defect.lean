import Dartify.Syntax.Payload

/-!
# Defects

What can be wrong with a tree so that a run has to stop.
-/

namespace Dartify

/-- A defect of a tree. -/
inductive Defect where
  /-- A childless node that no stage claims. -/
  | unhandled (kind : String) (pos : Nat)
  /-- A handle without a node. -/
  | missing (node : NodeId)
  /-- A node of a kind that its place does not take. -/
  | unexpected (expected found : String) (pos : Nat)
  /-- Nodes nested deeper than the tree has nodes: its handles run in a circle. -/
  | exhausted
  deriving DecidableEq, Repr

/-- The wording of a defect. -/
def Defect.message : Defect → String
  | .unhandled kind pos => "unhandled node kind " ++ kind ++ " at offset " ++ toString pos
  | .missing node => "node index " ++ toString node ++ " is not in the arena"
  | .unexpected expected found pos =>
    "expected " ++ expected ++ " at offset " ++ toString pos ++ ", found " ++ found
  | .exhausted => "nodes are nested in a circle"

end Dartify
