import Dartify.Output
import Dartify.Plan.Decl
import Dartify.Plan.Expr
import Dartify.Plan.Import
import Dartify.Plan.Literal
import Dartify.Plan.Stmt
import Dartify.Plan.TypeExpr

/-!
# Runs

A run walks a tree and writes its text.  Every node is offered to a chain of *stages*.  The first
stage that claims it writes it.  A node that none claims is passed through: its children are walked
in order.  A childless node that none claims is a defect, except for an empty source file.

Five stages are built in, one for each category of payloads.  Each gives a plan for the nodes of
its category and declines all others.  Other stages may do anything a run can do, and may keep a
state of their own beside it, of type `σ`.

The walk takes a budget for the nesting of nodes.  On a tree without circles every walk that a plan
makes is into a strict descendant, so one more than there are nodes is enough.  A whole run has that
much once more for each stage of its chain, so that every stage can start one walk at a node of its
choice, also inside the walk that another one started.

A defect ends a run, and the state at that point stays: what was written, the diagnostics, and the
state of the stages.
-/

namespace Dartify

/-- The state of a run. -/
structure RunState (σ : Type) where
  /-- The text written so far. -/
  output : Output := {}
  /-- The diagnostics made so far. -/
  report : Report
  /-- The extra imports written so far. -/
  imports : List String := []
  /-- The state that stages keep. -/
  user : σ

/-- A computation within a run, which a defect may end. -/
abbrev Run (σ : Type) := ExceptT Defect (StateM (RunState σ))

namespace Run

variable {σ : Type}

/-- Changes the text written so far. -/
def write (change : Output → Output) : Run σ Unit :=
  modify fun state => { state with output := change state.output }

/-- Makes a diagnostic at a node. -/
def report (context : Context) (node : NodeId) (kind : DiagnosticKind) (message : String) :
    Run σ Unit :=
  match context.tree.get? node with
  | none => throw (.missing node)
  | some found =>
    modify fun state =>
      { state with report := state.report.add found.pos found.stop kind message }

/-- Carries out a directive.  `walk` is what walking a node means. -/
def direct (context : Context) (walk : NodeId → Run σ Unit) : Directive → Run σ Unit
  | .token word => write (·.token word)
  | .glue text => write (·.glue text)
  | .attach => write (·.attach)
  | .child node => walk node
  | .complain node cause => report context node cause.kind cause.message
  | .abort defect => throw defect

/-- Carries out a plan. -/
def perform (context : Context) (walk : NodeId → Run σ Unit) : Plan → Run σ Unit
  | [] => pure ()
  | directive :: rest => do
    direct context walk directive
    perform context walk rest
termination_by structural plan => plan

/-- Writes the import of a target that was not written before. -/
def writeImport (target : String) : Run σ Unit := do
  let state ← get
  if target ∈ state.imports then pure ()
  else
    set { state with
      imports := state.imports ++ [target]
      output := state.output.token (Import.directive target) }

/-- Writes the imports of several targets. -/
def writeImportsOf : List String → Run σ Unit
  | [] => pure ()
  | target :: rest => do
    writeImport target
    writeImportsOf rest
termination_by structural targets => targets

/-- Writes the extra imports that are needed below a node. -/
def writeImports (context : Context) (root : NodeId) : Run σ Unit :=
  match Import.needed context root with
  | .error defect => throw defect
  | .ok targets => writeImportsOf targets

end Run

/-! ## Stages -/

/-- A stage of the chain.  `attempt` tells whether the stage claims a node; it gets what walking a
node means, the handle of the node and the node. -/
structure Stage (σ : Type) where
  /-- The name of the stage. -/
  name : String
  /-- Offers a node to the stage. -/
  attempt : Context → (NodeId → Run σ Unit) → NodeId → Node → Run σ Bool

/-- A category of nodes with a built-in stage. -/
inductive Category where
  | literals | expressions | statements | types | declarations
  deriving DecidableEq, Repr

namespace Category

/-- The categories, in the order of the standard chain. -/
def all : List Category := [literals, expressions, statements, types, declarations]

/-- The name of a category. -/
def name : Category → String
  | literals => "literals"
  | expressions => "expressions"
  | statements => "statements"
  | types => "types"
  | declarations => "declarations"

/-- The category with a name. -/
def ofName? (name : String) : Option Category :=
  all.find? fun category => category.name == name

/-- The plan of a node of the category, `none` for other nodes. -/
def plan? (context : Context) (node : NodeId) : Category → Payload → Option Plan
  | literals, .literal form => some (form.plan context node)
  | expressions, .expr form => some (form.plan context node)
  | statements, .stmt form => some (form.plan context)
  | types, .name form => some form.plan
  | types, .type form => some (form.plan context node)
  | declarations, .decl form => some (form.plan context node)
  | _, _ => none

/-- The built-in stage of a category. -/
def stage (σ : Type) (category : Category) : Stage σ where
  name := category.name
  attempt context walk node found :=
    match category.plan? context node found.payload with
    | some plan => do
      Run.perform context walk plan
      return true
    | none => return false

end Category

/-! ## The walk -/

namespace Run

variable {σ : Type}

/-- Offers a node to stages in order until one claims it. -/
def offer (context : Context) (walk : NodeId → Run σ Unit) (node : NodeId) (found : Node) :
    List (Stage σ) → Run σ Bool
  | [] => return false
  | stage :: rest => do
    if ← stage.attempt context walk node found then return true
    else offer context walk node found rest
termination_by structural stages => stages

/-- Walks nodes in order. -/
def walkEach (walk : NodeId → Run σ Unit) : List NodeId → Run σ Unit
  | [] => pure ()
  | node :: rest => do
    walk node
    walkEach walk rest
termination_by structural nodes => nodes

/-- Whether a payload is a source file. -/
def isSourceFile : Payload → Bool
  | .sourceFile _ _ => true
  | _ => false

/-- Passes through a node that no stage claims. -/
def passThrough (walk : NodeId → Run σ Unit) (found : Node) : Run σ Unit :=
  if found.payload.children.isEmpty && !isSourceFile found.payload then
    throw (.unhandled found.payload.kind found.pos)
  else walkEach walk found.payload.children

/-- Walks a node, where nodes may be nested `budget` deep. -/
def walkWithin (context : Context) (stages : List (Stage σ)) : Nat → NodeId → Run σ Unit
  | 0, _ => throw .exhausted
  | budget + 1, node =>
    match context.tree.get? node with
    | none => throw (.missing node)
    | some found => do
      if ← offer context (walkWithin context stages budget) node found stages then pure ()
      else passThrough (walkWithin context stages budget) found

/-- The budget of a run with so many stages. -/
def budget (stageCount : Nat) (tree : Tree) : Nat := (stageCount + 1) * (tree.size + 1)

/-- Walks a node. -/
def walk (context : Context) (stages : List (Stage σ)) (node : NodeId) : Run σ Unit :=
  walkWithin context stages (budget stages.length context.tree) node

end Run

end Dartify
