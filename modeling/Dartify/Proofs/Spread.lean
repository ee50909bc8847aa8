import Dartify.Proofs.ProperTree
import Dartify.Proofs.Recognition
import Dartify.Proofs.Visits

/-!
# How plans spread

What the plan of a node walks is a front below the node: each place is walked once, or left out.
There are three exceptions.  A call of `Map.delete` and a shorthand property whose name is no
identifier write operands twice (`Context.Doubled`).  A list of one annotated variable walks the
annotation, which lies below the variable that it walks as well.  And a construct without a Dart
form is complained about by its own plan, which then does nothing else, or by that of the
enumeration that it is a member of (`Tree.Answers`).

`Context.Spreads` lists these cases, and `Context.spreads_planAt` says that there are no others.
-/

namespace Dartify

open Plan

/-! ## Walked nodes of the pieces -/

namespace Plan

@[simp] theorem walked_nil : walked [] = [] := rfl

@[simp] theorem walked_token (word : String) (rest : Plan) :
    walked (.token word :: rest) = rest.walked := rfl

@[simp] theorem walked_glue (text : String) (rest : Plan) :
    walked (.glue text :: rest) = rest.walked := rfl

@[simp] theorem walked_attach (rest : Plan) : walked (.attach :: rest) = rest.walked := rfl

@[simp] theorem walked_child (node : NodeId) (rest : Plan) :
    walked (.child node :: rest) = node :: rest.walked := rfl

@[simp] theorem walked_complain (node : NodeId) (cause : Complaint) (rest : Plan) :
    walked (.complain node cause :: rest) = rest.walked := rfl

@[simp] theorem walked_abort (defect : Defect) (rest : Plan) :
    walked (.abort defect :: rest) = rest.walked := rfl

@[simp] theorem walked_append (first second : Plan) :
    walked (first ++ second) = first.walked ++ second.walked :=
  List.filterMap_append

@[simp] theorem walked_each (nodes : List NodeId) : (each nodes).walked = nodes := by
  induction nodes with
  | nil => rfl
  | cons node rest ih => exact congrArg (node :: ·) ih

@[simp] theorem walked_maybe (node : Option NodeId) : (maybe node).walked = node.toList :=
  walked_each _

/-- Pieces that each walk their own node walk the nodes in order. -/
theorem walked_flatMap {piece : NodeId → Plan} (each : ∀ node, (piece node).walked = [node])
    (nodes : List NodeId) : walked (nodes.flatMap piece) = nodes := by
  induction nodes with
  | nil => rfl
  | cons node rest ih => rw [List.flatMap_cons, walked_append, each, ih, List.singleton_append]

@[simp] theorem walked_separated (separator : String) (nodes : List NodeId) :
    (separated separator nodes).walked = nodes := by
  cases nodes with
  | nil => rfl
  | cons first rest =>
    exact congrArg (first :: ·) (walked_flatMap (fun _ => rfl) rest)

@[simp] theorem walked_commas (nodes : List NodeId) : (commas nodes).walked = nodes :=
  walked_separated "," nodes

@[simp] theorem walked_typeArguments (nodes : List NodeId) :
    (typeArguments nodes).walked = nodes := by
  cases nodes with
  | nil => rfl
  | cons first rest => simp [typeArguments]

@[simp] theorem walked_tokenIf (condition : Bool) (word : String) :
    (tokenIf condition word).walked = [] := by
  cases condition <;> rfl

@[simp] theorem walked_led (word : String) (node : Option NodeId) :
    (led word node).walked = node.toList := by
  cases node <;> rfl

@[simp] theorem walked_namedCall (name : String) (arguments : List NodeId) :
    (namedCall name arguments).walked = arguments := by
  simp [namedCall]

@[simp] theorem walked_methodCall (name : String) (arguments : List NodeId) :
    (methodCall name arguments).walked = arguments := by
  simp [methodCall]

@[simp] theorem walked_receiverCall (site : CallSite) (name : String) (arguments : List NodeId) :
    (receiverCall site name arguments).walked = site.receiver.toList ++ arguments := by
  simp [receiverCall]

@[simp] theorem walked_bodyPlan (body : Option NodeId) : (bodyPlan body).walked = body.toList := by
  cases body <;> rfl

@[simp] theorem walked_typeOrVarPlan (type : Option NodeId) :
    (typeOrVarPlan type).walked = type.toList := by
  cases type <;> rfl

@[simp] theorem walked_unexpected (context : Context) (expected : String) (node : NodeId) :
    (unexpected context expected node).walked = [] := by
  unfold unexpected
  split <;> rfl

end Plan

/-! ## The cases -/

/-- An operand that the Dart form of its node writes twice. -/
inductive Context.Doubled (context : Context) : NodeId → Prop where
  /-- The receiver or an argument of `Map.delete`, which looks for the key before it removes it. -/
  | deleted {call operand : NodeId} {site : CallSite}
      (here : context.IdiomAt call site .mapDelete)
      (member : operand ∈ site.receiver.toList ++ site.arguments) : Doubled context operand
  /-- The name of a shorthand property, which is the key and the value. -/
  | shorthand {property name : NodeId}
      (held : context.tree.payload? property = some (.literal (.shorthandProperty name)))
      (unnamed : context.tree.identifierText? name = none) : Doubled context name

/-- Whether a payload is a member of an enumeration. -/
def Payload.isEnumMember : Payload → Bool
  | .decl (.enumMember _ _) => true
  | _ => false

/-- `owner` is the node whose plan complains when `node` has no Dart form: the node itself, or the
enumeration that it is a member of. -/
inductive Tree.Answers (tree : Tree) : NodeId → NodeId → Prop where
  /-- A node answers for itself. -/
  | own {node : NodeId} {payload : Payload} (held : tree.payload? node = some payload)
      (single : payload.isEnumMember = false) : Answers tree node node
  /-- An enumeration answers for its members. -/
  | member {owner name node : NodeId} {members : List NodeId} {payload : Payload}
      (enumeration : tree.payload? owner = some (.decl (.enumDecl name members)))
      (among : node ∈ members) (held : tree.payload? node = some payload)
      (single : payload.isEnumMember = true) : Answers tree owner node

/-- A plan makes no complaint about a construct without a Dart form. -/
def Demand.accepting : Demand where
  child _ := True
  complain _ cause := cause.kind ≠ .unsupportedConstruct
  abort _ := True
  attach := True

/-- What the plan of a node can walk and reject. -/
inductive Context.Spreads (context : Context) (node : NodeId) (plan : Plan) : Prop where
  /-- The plan is one complaint about a construct without a Dart form. -/
  | rejecting {other : NodeId} {cause : Complaint} (only : plan = [.complain other cause])
      (answers : context.tree.Answers node other)
  /-- The plan walks a front. -/
  | apart (accepts : Meets .accepting plan) (front : context.tree.Front node plan.walked)
  /-- The plan walks a front of doubled operands, at most twice. -/
  | doubled {operands : List NodeId} (accepts : Meets .accepting plan)
      (front : context.tree.Front node operands)
      (twice : plan.walked.Subperm (operands ++ operands))
      (marked : ∀ operand ∈ operands, context.Doubled operand)
  /-- The plan walks the annotation of the only variable of a list, and the variable. -/
  | annotated {kind : VariableKind} {declaration name type : NodeId} {initializer : Option NodeId}
      (accepts : Meets .accepting plan) (both : plan.walked = [type, declaration])
      (list : context.tree.payload? node = some (.decl (.variableList kind [declaration])))
      (held : context.tree.payload? declaration =
        some (.decl (.variableDecl name (some type) initializer)))

variable {context : Context} {node : NodeId} {payload : Payload} {plan : Plan}

@[simp] theorem Demand.accepting_child {node : NodeId} : Demand.accepting.child node := trivial

@[simp] theorem Demand.accepting_abort {defect : Defect} : Demand.accepting.abort defect := trivial

@[simp] theorem Demand.accepting_attach : Demand.accepting.attach := trivial

@[simp] theorem Demand.accepting_glue {text : String} : Demand.accepting.glue text := trivial

@[simp] theorem Demand.accepting_complain {node : NodeId} {cause : Complaint} :
    Demand.accepting.complain node cause ↔ cause.kind ≠ .unsupportedConstruct := Iff.rfl

/-- A plan makes no complaint about a construct without a Dart form, and walks no node more often
than a list has it. -/
structure Plan.Slim (nodes : List NodeId) (plan : Plan) : Prop where
  accepts : Meets .accepting plan
  most : ∀ child, plan.walked.count child ≤ nodes.count child

namespace Plan.Slim

variable {nodes others : List NodeId} {second : Plan}

theorem append (one : Slim nodes plan) (two : Slim others second) :
    Slim (nodes ++ others) (plan ++ second) := by
  refine ⟨meets_append.mpr ⟨one.accepts, two.accepts⟩, fun child => ?_⟩
  rw [walked_append, List.count_append, List.count_append]
  exact Nat.add_le_add (one.most child) (two.most child)

theorem mono (slim : Slim nodes plan) (most : ∀ child, nodes.count child ≤ others.count child) :
    Slim others plan :=
  ⟨slim.accepts, fun child => Nat.le_trans (slim.most child) (most child)⟩

/-- A plan that stops walks nothing. -/
theorem of_withPayload {other : NodeId} {choice : Payload → Plan}
    (each : ∀ inner, context.tree.payload? other = some inner → Slim nodes (choice inner)) :
    Slim nodes (withPayload context other choice) := by
  unfold withPayload
  split
  · rename_i found present
    exact each found.payload (Tree.payload?_of_get? present)
  · exact ⟨by simp, by simp⟩

theorem of_unexpected (expected : String) (other : NodeId) :
    Slim nodes (unexpected context expected other) := by
  refine ⟨meets_unexpected (fun _ => trivial) fun _ _ => trivial, fun child => ?_⟩
  simp

end Plan.Slim

namespace Context.Spreads

/-- A plan that is slim for a front walks a front. -/
theorem of_front {nodes : List NodeId} (front : context.tree.Front node nodes)
    (slim : Slim nodes plan) : context.Spreads node plan :=
  .apart slim.accepts (.sub front (List.subperm_ext_iff.mpr fun child _ => slim.most child))

theorem of_children (held : context.tree.payload? node = some payload)
    (slim : Slim payload.children plan) : context.Spreads node plan :=
  .of_front (.children held) slim

/-- A plan that stops at a missing node walks nothing. -/
theorem of_absent (held : context.tree.payload? node = some payload) {other : NodeId}
    (absent : context.tree.payload? other = none) (choice : Payload → Plan) :
    context.Spreads node (withPayload context other choice) := by
  refine .of_children held (.of_withPayload fun inner found => ?_)
  rw [absent] at found
  cases found

/-- A plan rejects nothing, or does nothing else. -/
theorem accepts_or_rejects (spreads : context.Spreads node plan) :
    Meets .accepting plan ∨
      ∃ other cause, plan = [.complain other cause] ∧ context.tree.Answers node other := by
  cases spreads with
  | rejecting only answers => exact .inr ⟨_, _, only, answers⟩
  | apart accepts _ => exact .inl accepts
  | doubled accepts _ _ _ => exact .inl accepts
  | annotated accepts _ _ _ => exact .inl accepts

end Context.Spreads

/-! ## Names and types -/

theorem slim_typeName (name : NodeId) : Slim [name] (typeName context name) := by
  refine .of_withPayload fun inner _ => ?_
  split
  · simp only
    split
    · split
      · rename_i failed
        exact ⟨by simp [Context.kind_of_lookup failed], by simp⟩
      · split
        · exact ⟨by simp, by simp⟩
        · exact ⟨by simp, by simp⟩
    · exact ⟨by simp, by simp⟩
  · exact ⟨by simp, by simp⟩

theorem slim_typeArguments (nodes : List NodeId) : Slim nodes (typeArguments nodes) :=
  ⟨by simp, by simp⟩

theorem slim_arrowBody (body : NodeId) : Slim [body] (arrowBody context body) :=
  .of_withPayload fun _ _ => ⟨by simp, by simp⟩

theorem slim_appliedPlan (expression : NodeId) :
    Slim [expression] (appliedPlan context expression) := by
  refine .of_withPayload fun inner _ => ?_
  split
  · exact slim_typeName expression
  · exact ⟨by simp, by simp⟩

theorem Name.spreads_plan {form : Name} (held : context.tree.payload? node = some (.name form)) :
    context.Spreads node form.plan := by
  refine .of_children held ?_
  cases form with
  | _ => exact ⟨by simp [Name.plan], by simp [Name.plan, Payload.children, Name.children]⟩

theorem TypeExpr.spreads_plan {form : TypeExpr}
    (held : context.tree.payload? node = some (.type form)) :
    context.Spreads node (form.plan context node) := by
  cases form with
  | reference name arguments =>
    exact .of_children held ((slim_typeName name).append (slim_typeArguments arguments))
  | applied expression arguments =>
    exact .of_children held ((slim_appliedPlan expression).append (slim_typeArguments arguments))
  | function typeParameters parameters result => exact .rejecting rfl (.own held rfl)
  | _ =>
    refine .of_children held ⟨by simp [TypeExpr.plan], fun child => ?_⟩
    simp [TypeExpr.plan, Payload.children, TypeExpr.children]

/-! ## Literals and statements -/

theorem slim_propertyKeyPlan (name : NodeId) : Slim [name] (propertyKeyPlan context name) := by
  unfold propertyKeyPlan
  split
  · exact ⟨by simp, by simp⟩
  · exact ⟨by simp, by simp⟩

theorem Literal.spreads_plan {form : Literal}
    (held : context.tree.payload? node = some (.literal form)) :
    context.Spreads node (form.plan context node) := by
  cases form with
  | property name initializer =>
    have value : Slim [initializer] [.token ":", .child initializer] := ⟨by simp, by simp⟩
    exact .of_children held ((slim_propertyKeyPlan name).append value)
  | shorthandProperty name =>
    have value : Slim [name] [.token ":", .child name] := ⟨by simp, by simp⟩
    have both : Slim [name, name] ((Literal.shorthandProperty name).plan context node) :=
      (slim_propertyKeyPlan name).append value
    cases named : context.tree.identifierText? name with
    | some text =>
      refine .of_children held ⟨both.accepts, fun child => ?_⟩
      simp [Literal.plan, propertyKeyPlan, named, Payload.children, Literal.children]
    | none =>
      refine .doubled both.accepts (.children held)
        (List.subperm_ext_iff.mpr fun child _ => both.most child) ?_
      intro operand member
      rw [List.mem_singleton.mp member]
      exact .shorthand held named
  | _ =>
    refine .of_children held ⟨by simp [Literal.plan, bracketedPlan], fun child => ?_⟩
    simp [Literal.plan, bracketedPlan, Payload.children, Literal.children]

theorem spreads_catchPlan {binding body : NodeId}
    (held : context.tree.payload? node = some (.stmt (.catchClause binding body))) :
    context.Spreads node (catchPlan context binding body) := by
  cases present : context.tree.payload? binding with
  | none => exact .of_absent held present _
  | some bound =>
    -- the binding is not walked itself, but its parts are
    have front := Tree.Front.expand (.children held) present
    refine .of_front front (.of_withPayload fun inner found => ?_)
    cases present.symm.trans found
    split
    · split
      · refine ⟨by simp [catchBindingPlan], fun child => ?_⟩
        simp only [catchBindingPlan, walked_append, walked_led, walked_token, walked_child,
          walked_glue, walked_nil, Payload.children, Decl.children, List.count_append,
          List.count_cons, List.count_nil]
        omega
      · exact .of_unexpected _ _
    · exact .of_unexpected _ _

theorem Stmt.spreads_plan {form : Stmt} (held : context.tree.payload? node = some (.stmt form)) :
    context.Spreads node (form.plan context) := by
  cases form with
  | catchClause binding body => exact spreads_catchPlan held
  | _ =>
    refine .of_children held ⟨by simp [Stmt.plan, eachLoopPlan, jumpPlan], fun child => ?_⟩
    simp [Stmt.plan, eachLoopPlan, jumpPlan, Payload.children, Stmt.children]

/-! ## Calls and expressions -/

/-- The receiver, the type arguments and the arguments of a call are on a front.  The receiver is
found where the callee is replaced by its parts. -/
theorem Context.IdiomAt.front {call : NodeId} {site : CallSite} {idiom : CallIdiom}
    (here : context.IdiomAt call site idiom) :
    context.tree.Front call
      (site.receiver.toList ++ (site.typeArguments ++ site.arguments)) := by
  obtain ⟨-, resolver, payload, calleeNode, calleePayload, callee, key, -, held, parts, inner,
    named, receiver, -⟩ := here
  have whole : context.tree.Front call (calleeNode :: (site.typeArguments ++ site.arguments)) := by
    rw [← children_of_callParts? parts]
    exact .children held
  rw [receiver]
  unfold callee? at named
  split at named
  · cases named
    exact .sub whole (List.sublist_cons_self _ _).subperm
  · obtain ⟨text, -, rfl⟩ := Option.map_eq_some_iff.mp named
    refine .sub (.expand whole inner) (List.Sublist.subperm ?_)
    simp [Payload.children, Expr.children]
  · cases named

section

variable {site : CallSite}

@[simp] theorem walked_unshiftPlan :
    (unshiftPlan site).walked = site.receiver.toList ++ site.arguments := by
  unfold unshiftPlan
  split
  · rename_i single listed
    simp [listed]
  · simp

theorem slim_unshiftPlan : Slim (site.receiver.toList ++ site.arguments) (unshiftPlan site) := by
  refine ⟨?_, by simp⟩
  unfold unshiftPlan
  split <;> simp

@[simp] theorem walked_concatPlan :
    (concatPlan context site).walked = site.receiver.toList ++ site.arguments := by
  have each : ∀ argument, (concatArgumentPlan context argument).walked = [argument] := by
    intro argument
    unfold concatArgumentPlan
    split <;> rfl
  simp [concatPlan, walked_flatMap each]

theorem slim_concatPlan :
    Slim (site.receiver.toList ++ site.arguments) (concatPlan context site) := by
  have accepts : ∀ argument, Meets .accepting (concatArgumentPlan context argument) := by
    intro argument
    unfold concatArgumentPlan
    split <;> simp [Complaint.kind]
  exact ⟨by simp [concatPlan, accepts], by simp⟩

theorem slim_reducePlan : Slim (site.receiver.toList ++ site.arguments) (reducePlan site) := by
  unfold reducePlan
  split
  · exact ⟨by simp [Complaint.kind], by simp [tooFew]⟩
  · rename_i callback listed
    exact ⟨by simp, by simp [listed]⟩
  · rename_i callback initial rest listed
    refine ⟨by simp, fun child => ?_⟩
    simp only [walked_receiverCall, listed, List.count_append, List.count_cons, List.count_nil]
    omega

theorem slim_constMapPlan : Slim site.typeArguments (constMapPlan site) := by
  unfold constMapPlan
  split
  · exact ⟨by simp, by simp⟩
  · exact ⟨by simp [Complaint.kind], by simp⟩

theorem slim_forEachFunctionPlan {parameters : List NodeId} {body : NodeId} {bodyPlan : Plan}
    (slim : Slim [body] bodyPlan) :
    Slim (site.receiver.toList ++ (parameters ++ [body]))
      (forEachFunctionPlan site parameters bodyPlan) := by
  unfold forEachFunctionPlan
  split
  · refine ⟨by simp [slim.accepts], fun child => ?_⟩
    have inside := slim.most child
    simp only [walked_append, walked_maybe, walked_token, walked_child, walked_nil,
      List.count_append, List.count_cons, List.count_nil] at inside ⊢
    omega
  · exact ⟨by simp [Complaint.kind], by simp⟩

/-- The callback of `Map.forEach` is written as it stands, or its parameters and its body are
written in its place. -/
theorem spreads_forEachPlan {callback : NodeId} {rest : List NodeId}
    (held : context.tree.payload? node = some payload)
    (operands : context.tree.Front node (callback :: (site.receiver.toList ++ rest))) :
    context.Spreads node (forEachPlan context site callback) := by
  cases present : context.tree.payload? callback with
  | none => exact .of_absent held present _
  | some inner =>
    obtain ⟨found, stored, rfl⟩ := Tree.payload?_eq_some.mp present
    have parts := Tree.Front.expand operands present
    simp only [forEachPlan, withPayload, stored]
    split
    · rename_i name parameters result body same
      rw [same] at parts
      have slim : Slim [body] [.child body] := ⟨by simp, by simp⟩
      refine .of_front parts ((slim_forEachFunctionPlan slim).mono fun child => ?_)
      simp only [Payload.children, Decl.children, List.count_append, List.count_cons,
        List.count_nil]
      omega
    · rename_i parameters result body same
      rw [same] at parts
      refine .of_front parts ((slim_forEachFunctionPlan (slim_arrowBody body)).mono fun child => ?_)
      simp only [Payload.children, Decl.children, List.count_append, List.count_cons,
        List.count_nil]
      omega
    · refine .of_front operands ⟨by simp, fun child => ?_⟩
      simp only [walked_append, walked_maybe, walked_token, walked_child, walked_nil,
        List.count_append, List.count_cons, List.count_nil]
      omega

theorem spreads_forwardRefPlan {argument : NodeId} {rest : List NodeId}
    (held : context.tree.payload? node = some payload)
    (operands : context.tree.Front node (argument :: rest)) :
    context.Spreads node (forwardRefPlan context site argument) := by
  cases present : context.tree.payload? argument with
  | none => exact .of_absent held present _
  | some inner =>
    refine .of_front (.expand operands present) (.of_withPayload fun other found => ?_)
    cases present.symm.trans found
    split
    · refine ⟨by simp, fun child => ?_⟩
      simp only [walked_child, walked_nil, Payload.children, Decl.children, List.count_append,
        List.count_cons, List.count_nil]
      omega
    · exact ⟨by simp [Complaint.kind], by simp⟩

/-- An idiom walks a front, apart from `Map.delete`. -/
theorem CallIdiom.spreads_plan? {idiom : CallIdiom}
    (held : context.tree.payload? node = some payload) (here : context.IdiomAt node site idiom)
    (planned : idiom.plan? context site = some plan) : context.Spreads node plan := by
  have operands : context.tree.Front node (site.receiver.toList ++ site.arguments) :=
    .sub here.front (List.Sublist.subperm (by simp))
  cases idiom with
  | mapDelete =>
    cases planned
    refine .doubled (by simp [mapDeletePlan]) operands
      (List.Sublist.subperm (by simp [mapDeletePlan])) ?_
    intro operand member
    exact .deleted here member
  | arrayUnshift => cases planned; exact .of_front operands slim_unshiftPlan
  | arrayConcat => cases planned; exact .of_front operands slim_concatPlan
  | arrayReduce => cases planned; exact .of_front operands slim_reducePlan
  | mapForEach =>
    simp only [CallIdiom.plan?] at planned
    split at planned
    · rename_i callback rest listed
      cases planned
      rw [listed] at operands
      exact spreads_forEachPlan held (.sub operands List.perm_middle.symm.subperm)
    · cases planned
      exact .of_front operands ⟨by simp [Complaint.kind], by simp [tooFew]⟩
  | forwardRef =>
    simp only [CallIdiom.plan?] at planned
    split at planned
    · rename_i argument rest listed
      cases planned
      rw [listed] at operands
      exact spreads_forwardRefPlan held (.sub operands (List.sublist_append_right _ _).subperm)
    · cases planned
      exact .of_front operands ⟨by simp [Complaint.kind], by simp [tooFew]⟩
  | constMapConstructor =>
    simp only [CallIdiom.plan?] at planned
    split at planned
    · cases planned
      exact .of_front (.sub here.front (List.Sublist.subperm (by simp))) slim_constMapPlan
    · cases planned
  | arrayJoin | arrayIsArray =>
    simp only [CallIdiom.plan?] at planned
    split at planned <;>
    · cases planned
      exact .of_front operands ⟨by simp [Complaint.kind], by simp [tooFew]⟩
  | arrayFind | mapSet | mapGet =>
    simp only [CallIdiom.plan?] at planned
    split at planned <;>
    · rename_i listed
      cases planned
      refine .of_front operands ⟨by simp [Complaint.kind], fun child => ?_⟩
      simp only [tooFew, listed, walked_append, walked_maybe, walked_token, walked_child,
        walked_complain, walked_nil, List.count_append, List.count_cons, List.count_nil]
      omega
  | _ =>
    cases planned
    refine .of_front operands ⟨by simp, fun child => ?_⟩
    simp [List.count_append]

end

/-- A call is written as it stands, or as its idiom says, or not at all. -/
theorem spreads_recognizeCall (held : context.tree.payload? node = some payload)
    {asItStands : Plan} (stands : Slim payload.children asItStands) :
    context.Spreads node (ofRecognition asItStands (context.recognizeCall node)) := by
  have outcome := Context.callOutcome held
  generalize context.recognizeCall node = result at outcome
  cases outcome with
  | notHandled => exact .of_children held stands
  | missing _ _ _ => exact .of_children held ⟨by simp [ofRecognition], by simp [ofRecognition]⟩
  | unresolved _ asked =>
    exact .of_children held ⟨by simp [ofRecognition, asked], by simp [ofRecognition]⟩
  | recognized here planned => exact CallIdiom.spreads_plan? held here planned

theorem spreads_accessPlan {expression name : NodeId}
    (held : context.tree.payload? node = some (.expr (.propertyAccess expression name))) :
    context.Spreads node (accessPlan context node expression name) := by
  refine .of_children held ?_
  unfold accessPlan
  split
  · exact ⟨by simp, by simp [Payload.children, Expr.children, List.count_cons]⟩
  · have outcome := Context.accessOutcome held
    generalize context.recognizeProperty node = result at outcome
    cases outcome with
    | notHandled =>
      exact ⟨by simp [ofRecognition], by simp [ofRecognition, Payload.children, Expr.children]⟩
    | unresolved _ asked => exact ⟨by simp [ofRecognition, asked], by simp [ofRecognition]⟩
    | recognized idiom =>
      cases idiom
      exact ⟨by simp [ofRecognition, PropertyIdiom.plan],
        by simp [ofRecognition, PropertyIdiom.plan, Payload.children, Expr.children,
          List.count_cons]⟩

/-- A type with a qualifier on the right of `instanceof` is replaced by its two parts. -/
theorem spreads_instanceOf {left right : NodeId}
    (held : context.tree.payload? node = some (.expr (.binary left .instanceOf right))) :
    context.Spreads node (.child left :: .token "is" :: testedTypePlan context right) := by
  have lead : ∀ {nodes : List NodeId} {rest : Plan}, Slim nodes rest →
      Slim (nodes ++ [left]) (.child left :: .token "is" :: rest) := by
    intro nodes rest slim
    refine ⟨by simp [slim.accepts], fun child => ?_⟩
    have inside := slim.most child
    simp only [walked_child, walked_token, List.count_append, List.count_cons, List.count_nil]
    omega
  have swapped : context.tree.Front node [right, left] :=
    .sub (.children held) (List.Perm.swap _ _ _).subperm
  cases present : context.tree.get? right with
  | none =>
    simp only [testedTypePlan, withPayload, present]
    have stopped : Slim [right] [.abort (.missing right)] := ⟨by simp, by simp⟩
    exact .of_front swapped (lead stopped)
  | some found =>
    have parts := Tree.Front.expand swapped (Tree.payload?_of_get? present)
    simp only [testedTypePlan, withPayload, present]
    split
    · exact .of_front swapped (lead (slim_typeName right))
    · rename_i expression name same
      rw [same] at parts
      have qualifier : Slim [expression] [.child expression, .token "."] := ⟨by simp, by simp⟩
      exact .of_front parts (lead (qualifier.append (slim_typeName name)))
    · have whole : Slim [right] [.child right] := ⟨by simp, by simp⟩
      exact .of_front swapped (lead whole)

theorem Expr.spreads_plan {form : Expr} (held : context.tree.payload? node = some (.expr form)) :
    context.Spreads node (form.plan context node) := by
  cases form with
  | binary left operator right =>
    cases operator with
    | instanceOf => exact spreads_instanceOf held
    | within => exact .rejecting rfl (.own held rfl)
    | _ =>
      exact .of_children held ⟨by simp [Expr.plan, binaryPlan, identicalPlan],
        by simp [Expr.plan, binaryPlan, identicalPlan, Payload.children, Expr.children]⟩
  | delete _ | void _ | typeOf _ => exact .rejecting rfl (.own held rfl)
  | propertyAccess expression name => exact spreads_accessPlan held
  | call expression typeArgs arguments =>
    exact spreads_recognizeCall held ⟨by simp, by simp [Payload.children, Expr.children]⟩
  | construct expression typeArgs arguments =>
    exact spreads_recognizeCall held ⟨by simp, by simp [Payload.children, Expr.children]⟩
  | typeAssertion type expression =>
    refine .of_children held ⟨by simp [Expr.plan], fun child => ?_⟩
    simp only [Expr.plan, walked_token, walked_child, walked_nil, Payload.children, Expr.children,
      List.count_cons, List.count_nil]
    omega
  | _ =>
    exact .of_children held ⟨by simp [Expr.plan],
      by simp [Expr.plan, Payload.children, Expr.children]⟩

/-! ## Declarations -/

theorem slim_parametersFrom (isFirst isOpen : Bool) (parameters : List NodeId) :
    Slim parameters (parametersFrom context isFirst isOpen parameters) := by
  induction parameters generalizing isFirst isOpen with
  | nil => exact ⟨by simp [parametersFrom], by simp [parametersFrom]⟩
  | cons parameter rest ih =>
    have comma : Slim [] (tokenIf (!isFirst) ",") := ⟨by simp, by simp⟩
    refine comma.append (.of_withPayload fun inner _ => ?_)
    have opening : Slim [parameter]
        (tokenIf (inner.isOptionalParameter && !isOpen) "[" ++ [.child parameter]) :=
      ⟨by simp, by simp⟩
    simpa using opening.append (ih false (isOpen || inner.isOptionalParameter && !isOpen))

theorem slim_parametersPlan (parameters : List NodeId) :
    Slim parameters (parametersPlan context parameters) := by
  have inner := @slim_parametersFrom context true false parameters
  exact ⟨by simp [parametersPlan, inner.accepts], by simpa [parametersPlan] using inner.most⟩

theorem slim_libraryPlan (specifier : NodeId) : Slim [] (libraryPlan context specifier) := by
  refine .of_withPayload fun inner _ => ?_
  split
  · exact ⟨by simp, by simp⟩
  · exact .of_unexpected _ _

theorem spreads_variableListPlan {kind : VariableKind} {declarations : List NodeId}
    (held : context.tree.payload? node = some (.decl (.variableList kind declarations))) :
    context.Spreads node (variableListPlan context node kind declarations) := by
  unfold variableListPlan
  split
  · rename_i stopped found
    obtain ⟨declaration, -, rfl, -⟩ := annotations_error found
    exact .of_children held (.of_unexpected _ _)
  · rename_i types collected
    split
    · exact .rejecting rfl (.own held rfl)
    · rename_i single
      have unannotated : types.head?.join = none → Slim declarations
          (variableLeadPlan kind types.head?.join ++ commas declarations) := by
        intro none
        exact ⟨by simp [variableLeadPlan, none], by simp [variableLeadPlan, none]⟩
      cases annotations_ok collected with
      | nil => exact .of_children held (unannotated rfl)
      | @cons declaration type rest types bound others =>
        obtain ⟨name, initializer, declared⟩ := bound
        cases type with
        | none => exact .of_children held (unannotated rfl)
        | some type =>
          -- an annotated variable is the only one
          cases others with
          | cons _ _ => simp at single
          | nil =>
            refine .annotated ?_ ?_ held declared
            · simp [variableLeadPlan]
            · simp [variableLeadPlan]

theorem spreads_enumPlan {name : NodeId} {members : List NodeId}
    (held : context.tree.payload? node = some (.decl (.enumDecl name members))) :
    context.Spreads node (enumPlan context name members) := by
  unfold enumPlan
  split
  · rename_i fault found
    obtain ⟨member, among, ⟨rfl, -⟩ | ⟨rfl, label, initializer, initialized⟩⟩ :=
      memberFault?_eq_some found
    · exact .of_children held ⟨by simp, by simp⟩
    · exact .rejecting rfl (.member held among initialized rfl)
  · exact .of_children held ⟨by simp, by simp [Payload.children, Decl.children]⟩

theorem Decl.spreads_plan {form : Decl} (held : context.tree.payload? node = some (.decl form)) :
    context.Spreads node (form.plan context node) := by
  cases form with
  | variableList kind declarations => exact spreads_variableListPlan held
  | enumDecl name members => exact spreads_enumPlan held
  | namespaceDecl name body => exact .rejecting rfl (.own held rfl)
  | importSpecifier propertyName name =>
    simp only [Decl.plan]
    split
    · exact .rejecting rfl (.own held rfl)
    · refine .of_children held ((slim_typeName name).mono fun child => ?_)
      simp [Payload.children, Decl.children]
  | importDecl namedImports specifier =>
    have library := @slim_libraryPlan context specifier
    refine .of_children held ⟨?_, fun child => ?_⟩
    · simp only [Decl.plan]
      split <;> simp [library.accepts]
    · have inside := library.most child
      simp only [Decl.plan, walked_token, walked_append, walked_nil, Payload.children,
        Decl.children, List.count_append, List.count_cons, List.count_nil] at inside ⊢
      split
      · simp only [walked_nil, List.count_nil]
        omega
      · simp only [walked_token, walked_commas]
        omega
  | importEquals name specifier =>
    have library := @slim_libraryPlan context specifier
    have named := @slim_typeName context name
    refine .of_children held ⟨by simp [Decl.plan, library.accepts, named.accepts], fun child => ?_⟩
    have inside := library.most child
    have shown := named.most child
    simp only [Decl.plan, walked_token, walked_append, walked_nil, Payload.children, Decl.children,
      List.count_append, List.count_cons, List.count_nil] at inside shown ⊢
    omega
  | arrow parameters result body =>
    have inner := (@slim_parametersPlan context parameters).append (@slim_arrowBody context body)
    refine .of_children held (inner.mono fun child => ?_)
    simp only [Payload.children, Decl.children, List.count_append]
    omega
  | constructorDecl parameters body =>
    have inner := @slim_parametersPlan context parameters
    refine .of_children held ?_
    simp only [Decl.plan, constructorPlan]
    split
    · exact ⟨by simp [inner.accepts], fun child => by
        simpa [Payload.children, Decl.children] using inner.most child⟩
    · exact .of_unexpected _ _
  | function name typeParameters parameters result body
  | functionExpr name parameters result body
  | method decorators isStatic name parameters result body
  | methodSignature name parameters result =>
    have inner := @slim_parametersPlan context parameters
    refine .of_children held ⟨by simp [Decl.plan, inner.accepts], fun child => ?_⟩
    have inside := inner.most child
    simp only [Decl.plan, walked_append, walked_each, walked_maybe, walked_token, walked_child,
      walked_tokenIf, walked_typeArguments, walked_bodyPlan, walked_nil, Payload.children,
      Decl.children, List.count_append, List.count_cons, List.count_nil]
    omega
  | _ =>
    refine .of_children held ⟨by simp [Decl.plan, classBodyPlan], fun child => ?_⟩
    simp only [Decl.plan, classBodyPlan, walked_append, walked_each, walked_maybe, walked_led,
      walked_token, walked_child, walked_tokenIf, walked_typeArguments, walked_commas,
      walked_typeOrVarPlan, walked_nil, Payload.children, Decl.children, List.count_append,
      List.count_cons, List.count_nil]
    omega

/-- The plan of every node spreads in one of the four ways. -/
theorem Context.spreads_planAt (categories : List Category) {found : Node}
    (present : context.tree.get? node = some found) :
    context.Spreads node (context.planAt categories node found) := by
  have held := Tree.payload?_of_get? present
  rcases context.planAt_cases categories node found with ⟨passed, -⟩ | ⟨category, -, planned⟩
  · rw [passed, passPlan]
    split
    · exact .of_children held ⟨by simp, by simp⟩
    · exact .of_children held ⟨by simp, by simp⟩
  · generalize context.planAt categories node found = plan at planned
    unfold Category.plan? at planned
    split at planned <;> cases planned
    all_goals rename_i form same; rw [same] at held
    · exact form.spreads_plan held
    · exact form.spreads_plan held
    · exact form.spreads_plan held
    · exact form.spreads_plan held
    · exact form.spreads_plan held
    · exact form.spreads_plan held

end Dartify
