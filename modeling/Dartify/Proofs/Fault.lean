import Dartify.Proofs.Chain
import Dartify.Proofs.Demand

/-!
# Faults of trees

A `Fault` is what a tree must have wrong with it for a defect to be reported: a handle that leads
out of the table, a node in a place that does not take it, or a childless node that no stage
claims. It speaks of the tree and the chain alone, and of nodes that the root reaches.
-/

namespace Dartify

/-! ## Places that take only some nodes -/

namespace Payload

/-- Whether a payload is the declaration of one variable. -/
def isVariable : Payload → Bool
  | .decl (.variableDecl _ _ _) => true
  | _ => false

/-- Whether a payload is an identifier. -/
def isIdentifier : Payload → Bool
  | .name (.identifier _) => true
  | _ => false

/-- Whether a payload is a string. -/
def isString : Payload → Bool
  | .literal (.string _) => true
  | _ => false

/-- The module specifier of an import. -/
def specifier? : Payload → Option NodeId
  | .decl (.importDecl _ specifier) => some specifier
  | .decl (.importEquals _ specifier) => some specifier
  | _ => none

end Payload

namespace Tree

/-- The parent link of a node leads to a class whose name is an identifier. -/
def InNamedClass (tree : Tree) (node : NodeId) : Prop :=
  ∃ parent decorators isAbstract name typeParameters heritage members text,
    tree.parent? node = some parent ∧
    tree.payload? parent =
      some (.decl (.classDecl decorators isAbstract name typeParameters heritage members)) ∧
    tree.identifierText? name = some text

/-- A node with this payload stands where `root` reaches, in a place that takes only what is
`expected`. -/
inductive Misplaced (tree : Tree) (root : NodeId) : String → NodeId → Payload → Prop where
  /-- A list of variables has another member. -/
  | listed {owner node : NodeId} {kind : VariableKind} {declarations : List NodeId}
      {payload : Payload} (reached : tree.Reaches root owner)
      (list : tree.payload? owner = some (.decl (.variableList kind declarations)))
      (member : node ∈ declarations) (other : payload.isVariable = false) :
      Misplaced tree root "VariableDeclaration" node payload
  /-- A catch clause has another binding. -/
  | caught {owner node body : NodeId} {payload : Payload} (reached : tree.Reaches root owner)
      (clause : tree.payload? owner = some (.stmt (.catchClause node body)))
      (other : payload.isVariable = false) :
      Misplaced tree root "VariableDeclaration" node payload
  /-- The binding of a catch clause has another name. -/
  | caughtName {owner binding body node : NodeId} {type initializer : Option NodeId}
      {payload : Payload} (reached : tree.Reaches root owner)
      (clause : tree.payload? owner = some (.stmt (.catchClause binding body)))
      (bound : tree.payload? binding = some (.decl (.variableDecl node type initializer)))
      (other : payload.isIdentifier = false) : Misplaced tree root "Identifier" node payload
  /-- An import has another specifier. -/
  | specified {owner node : NodeId} {payload imported : Payload}
      (reached : tree.Reaches root owner) (present : tree.payload? owner = some imported)
      (specifier : imported.specifier? = some node) (other : payload.isString = false) :
      Misplaced tree root "StringLiteral" node payload
  /-- A constructor has no class to be named for. -/
  | unnamed {node : NodeId} {parameters : List NodeId} {body : Option NodeId}
      (outside : ¬tree.InNamedClass node) :
      Misplaced tree root "ClassDeclaration member" node (.decl (.constructorDecl parameters body))

end Tree

/-- What is wrong with a tree that a chain of built-in stages reports a defect for. -/
inductive Fault (tree : Tree) (categories : List Category) (root : NodeId) : Defect → Prop where
  /-- The root, or a handle of a node that it reaches, leads out of the table. -/
  | missing {node : NodeId} (absent : tree.get? node = none)
      (named : node = root ∨ ∃ owner, tree.Reaches root owner ∧ tree.ChildStep owner node) :
      Fault tree categories root (.missing node)
  /-- A node stands in a place that does not take it. -/
  | unexpected {node : NodeId} {found : Node} {expected : String}
      (reached : tree.Reaches root node) (present : tree.get? node = some found)
      (misplaced : tree.Misplaced root expected node found.payload) :
      Fault tree categories root (.unexpected expected found.payload.kind found.pos)
  /-- A childless node, which is no source file, has a category that is not in the chain. -/
  | unhandled {node : NodeId} {found : Node} (reached : tree.Reaches root node)
      (present : tree.get? node = some found) (childless : found.payload.children = [])
      (content : Run.isSourceFile found.payload = false)
      (unclaimed : ∀ category ∈ categories, found.payload.category? ≠ some category) :
      Fault tree categories root (.unhandled found.payload.kind found.pos)

namespace Tree.Misplaced

/-- What is misplaced below a node is misplaced below all that reach it. -/
theorem mono {tree : Tree} {root start node : NodeId} {expected : String} {payload : Payload}
    (reaches : tree.Reaches root start) (misplaced : tree.Misplaced start expected node payload) :
    tree.Misplaced root expected node payload := by
  cases misplaced with
  | listed reached list member other => exact .listed (reaches.trans reached) list member other
  | caught reached clause other => exact .caught (reaches.trans reached) clause other
  | caughtName reached clause bound other =>
    exact .caughtName (reaches.trans reached) clause bound other
  | specified reached present specifier other =>
    exact .specified (reaches.trans reached) present specifier other
  | unnamed outside => exact .unnamed outside

end Tree.Misplaced

namespace Fault

variable {tree : Tree} {categories : List Category}

/-- A fault below a node is a fault below all that reach it. -/
theorem mono {root start : NodeId} {defect : Defect} (reaches : tree.Reaches root start)
    (fault : Fault tree categories start defect) : Fault tree categories root defect := by
  cases fault with
  | missing absent named =>
    refine .missing absent ?_
    rcases named with same | ⟨owner, reached, one⟩
    · subst same
      rcases Relation.ReflTransGen.cases_tail reaches with same | ⟨owner, reached, one⟩
      · exact .inl same
      · exact .inr ⟨owner, reached, one⟩
    · exact .inr ⟨owner, reaches.trans reached, one⟩
  | unexpected reached present misplaced =>
    exact .unexpected (reaches.trans reached) present (misplaced.mono reaches)
  | unhandled reached present childless content unclaimed =>
    exact .unhandled (reaches.trans reached) present childless content unclaimed

/-- A missing node that is reached is a fault. -/
theorem missing_of_reaches {root node : NodeId} (reaches : tree.Reaches root node)
    (absent : tree.get? node = none) : Fault tree categories root (.missing node) :=
  (Fault.missing absent (.inl rfl)).mono reaches

end Fault

end Dartify
