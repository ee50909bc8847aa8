import Dartify.Plan.Decl
import Dartify.Plan.Expr
import Dartify.Plan.Literal
import Dartify.Plan.Stmt
import Dartify.Plan.TypeExpr

/-!
# What plans contain

Most facts about plans say of every node that a plan walks, of every complaint and of every defect
in it, that it is of some kind, and when a plan may attach its next token or glue a text.  A
`Demand` says what is asked of each of the five; tokens always meet it.  A plan meets a demand when
all its directives do, and the pieces that plans share meet it when their nodes do.  The `simp`
lemmas of this module reduce a plan's demand to its handles, form by form.
-/

namespace Dartify

/-- What is asked of the directives of a plan. -/
structure Demand where
  /-- Of the nodes that are walked. -/
  child : NodeId → Prop
  /-- Of the complaints that are made at nodes. -/
  complain : NodeId → Complaint → Prop
  /-- Of the defects that stop the run. -/
  abort : Defect → Prop
  /-- Of attaching the next token. -/
  attach : Prop
  /-- Of texts that are glued. -/
  glue : String → Prop := fun _ => True

variable {demand : Demand} {context : Context}

/-- A directive is as a demand asks. -/
def Directive.Meets (demand : Demand) : Directive → Prop
  | .token _ => True
  | .glue text => demand.glue text
  | .attach => demand.attach
  | .child node => demand.child node
  | .complain node cause => demand.complain node cause
  | .abort defect => demand.abort defect

@[simp] theorem Directive.meets_token {word : String} : (Directive.token word).Meets demand :=
  trivial

@[simp] theorem Directive.meets_glue {text : String} :
    (Directive.glue text).Meets demand ↔ demand.glue text := Iff.rfl

@[simp] theorem Directive.meets_attach : Directive.attach.Meets demand ↔ demand.attach := Iff.rfl

@[simp] theorem Directive.meets_child {node : NodeId} :
    (Directive.child node).Meets demand ↔ demand.child node := Iff.rfl

@[simp] theorem Directive.meets_complain {node : NodeId} {cause : Complaint} :
    (Directive.complain node cause).Meets demand ↔ demand.complain node cause := Iff.rfl

@[simp] theorem Directive.meets_abort {defect : Defect} :
    (Directive.abort defect).Meets demand ↔ demand.abort defect := Iff.rfl

namespace Plan

/-- All directives of a plan are as a demand asks. -/
def Meets (demand : Demand) (plan : Plan) : Prop :=
  ∀ directive ∈ plan, directive.Meets demand

@[simp] theorem meets_nil : Meets demand [] := by
  intro directive member
  cases member

@[simp] theorem meets_cons {directive : Directive} {rest : Plan} :
    Meets demand (directive :: rest) ↔ directive.Meets demand ∧ Meets demand rest :=
  List.forall_mem_cons

@[simp] theorem meets_append {first second : Plan} :
    Meets demand (first ++ second) ↔ Meets demand first ∧ Meets demand second :=
  List.forall_mem_append

@[simp] theorem meets_each {nodes : List NodeId} :
    Meets demand (each nodes) ↔ ∀ node ∈ nodes, demand.child node :=
  List.forall_mem_map

@[simp] theorem meets_maybe {node : Option NodeId} :
    Meets demand (maybe node) ↔ ∀ found ∈ node, demand.child found := by
  simp [maybe]

@[simp] theorem meets_flatMap {nodes : List NodeId} {piece : NodeId → Plan} :
    Meets demand (nodes.flatMap piece) ↔ ∀ node ∈ nodes, Meets demand (piece node) :=
  List.forall_mem_flatMap

@[simp] theorem meets_separated {separator : String} {nodes : List NodeId} :
    Meets demand (separated separator nodes) ↔ ∀ node ∈ nodes, demand.child node := by
  cases nodes with
  | nil => simp [separated]
  | cons first rest => simp [separated]

@[simp] theorem meets_commas {nodes : List NodeId} :
    Meets demand (commas nodes) ↔ ∀ node ∈ nodes, demand.child node :=
  meets_separated

@[simp] theorem meets_typeArguments {nodes : List NodeId} :
    Meets demand (typeArguments nodes) ↔ ∀ node ∈ nodes, demand.child node := by
  unfold typeArguments
  cases nodes with
  | nil => simp
  | cons first rest => simp

@[simp] theorem meets_tokenIf {condition : Bool} {word : String} :
    Meets demand (tokenIf condition word) := by
  unfold tokenIf
  split <;> simp

@[simp] theorem meets_led {word : String} {node : Option NodeId} :
    Meets demand (led word node) ↔ ∀ found ∈ node, demand.child found := by
  cases node with
  | none => simp [led]
  | some node => simp [led]

theorem meets_withPayload {node : NodeId} {plan : Payload → Plan}
    (missing : context.tree.get? node = none → demand.abort (.missing node))
    (present : ∀ found, context.tree.get? node = some found → Meets demand (plan found.payload)) :
    Meets demand (withPayload context node plan) := by
  unfold withPayload
  cases found : context.tree.get? node with
  | none => simpa using missing found
  | some node' => exact present node' found

theorem meets_unexpected {expected : String} {node : NodeId}
    (missing : context.tree.get? node = none → demand.abort (.missing node))
    (present : ∀ found, context.tree.get? node = some found →
      demand.abort (.unexpected expected found.payload.kind found.pos)) :
    Meets demand (unexpected context expected node) := by
  unfold unexpected
  cases found : context.tree.get? node with
  | none => simpa using missing found
  | some node' => simpa using present node' found

theorem meets_arrowBody {body : NodeId}
    (missing : context.tree.get? body = none → demand.abort (.missing body))
    (child : demand.child body) : Meets demand (arrowBody context body) :=
  meets_withPayload missing fun _ _ => by simpa using child

@[simp] theorem meets_namedCall {name : String} {arguments : List NodeId} :
    Meets demand (namedCall name arguments) ↔ ∀ node ∈ arguments, demand.child node := by
  simp [namedCall]

@[simp] theorem meets_methodCall {name : String} {arguments : List NodeId} :
    Meets demand (methodCall name arguments) ↔ ∀ node ∈ arguments, demand.child node := by
  simp [methodCall]

@[simp] theorem meets_receiverCall {site : CallSite} {name : String} {arguments : List NodeId} :
    Meets demand (receiverCall site name arguments) ↔
      (∀ node ∈ site.receiver, demand.child node) ∧ ∀ node ∈ arguments, demand.child node := by
  simp [receiverCall]

@[simp] theorem meets_tooFew {site : CallSite} {callee : String} {count : Nat} :
    Meets demand (tooFew site callee count) ↔
      demand.complain site.node (.missingArguments callee count) := by
  simp [tooFew]

end Plan

end Dartify
