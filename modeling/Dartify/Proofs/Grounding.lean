import Dartify.Proofs.Fault
import Dartify.Proofs.Recognition
import Mathlib.Data.List.Forall2

/-!
# Plans are grounded

The plan of a node walks only what lies below the node, complains only about what the node reaches,
and stops only at a fault (`Context.planAt_grounded`).  It glues nothing but the pieces of templates
and the mark of a stack trace.  Without a resolver it complains about nothing but constructs that
have no Dart form.

Most plans are grounded because they name children only.  Those that reach further down look at a
child first: the binding of a catch clause, the right side of `instanceof`, the variables of a list,
and the functions that `forEach` and `forwardRef` are called with.
-/

namespace Dartify

open Plan

/-- What is asked of the plan of a node. -/
def Demand.grounded (context : Context) (categories : List Category) (node : NodeId) :
    Demand where
  child other := context.tree.Below node other
  complain other cause := context.tree.Reaches node other ∧
    (context.resolver = none → cause.kind = .unsupportedConstruct)
  abort defect := Fault context.tree categories node defect
  attach := ∃ expression literal,
    context.tree.payload? node = some (.literal (.templateSpan expression literal))
  glue text := text = "_stack" ∨ ∃ form, context.tree.payload? node = some (.literal form)

variable {context : Context} {categories : List Category} {node : NodeId}

namespace Demand

@[simp] theorem grounded_child {other : NodeId} :
    (grounded context categories node).child other ↔ context.tree.Below node other := Iff.rfl

@[simp] theorem grounded_complain {other : NodeId} {cause : Complaint} :
    (grounded context categories node).complain other cause ↔ context.tree.Reaches node other ∧
      (context.resolver = none → cause.kind = .unsupportedConstruct) := Iff.rfl

@[simp] theorem grounded_abort {defect : Defect} :
    (grounded context categories node).abort defect ↔
      Fault context.tree categories node defect := Iff.rfl

@[simp] theorem grounded_attach :
    (grounded context categories node).attach ↔ ∃ expression literal,
      context.tree.payload? node = some (.literal (.templateSpan expression literal)) := Iff.rfl

@[simp] theorem grounded_glue {text : String} :
    (grounded context categories node).glue text ↔ text = "_stack" ∨
      ∃ form, context.tree.payload? node = some (.literal form) := Iff.rfl

end Demand

namespace Complaint

@[simp] theorem kind_operator {spelling : String} :
    (operator spelling).kind = .unsupportedConstruct := rfl

@[simp] theorem kind_construct {name : String} :
    (construct name).kind = .unsupportedConstruct := rfl

@[simp] theorem kind_inlineFunctionType : inlineFunctionType.kind = .unsupportedConstruct := rfl

end Complaint

/-- A plan walks what lies below a node, and stops only at its faults. -/
abbrev Plan.Grounded (context : Context) (categories : List Category) (node : NodeId)
    (plan : Plan) : Prop :=
  Meets (.grounded context categories node) plan

@[simp] theorem Tree.reaches_self {tree : Tree} {node : NodeId} : tree.Reaches node node :=
  Relation.ReflTransGen.refl

namespace Plan

/-! ## Shared pieces -/

theorem grounded_withPayload {other : NodeId} {plan : Payload → Plan}
    (below : context.tree.Below node other)
    (present : ∀ payload, context.tree.payload? other = some payload →
      Grounded context categories node (plan payload)) :
    Grounded context categories node (withPayload context other plan) :=
  meets_withPayload (fun absent => .missing_of_reaches below.reaches absent)
    fun _ found => present _ (Tree.payload?_of_get? found)

theorem grounded_unexpected {other : NodeId} {expected : String}
    (reached : context.tree.Reaches node other)
    (misplaced : ∀ payload, context.tree.payload? other = some payload →
      context.tree.Misplaced node expected other payload) :
    Grounded context categories node (unexpected context expected other) :=
  meets_unexpected (fun absent => .missing_of_reaches reached absent)
    fun _ found => .unexpected reached found (misplaced _ (Tree.payload?_of_get? found))

theorem grounded_arrowBody {body : NodeId} (below : context.tree.Below node body) :
    Grounded context categories node (arrowBody context body) :=
  meets_arrowBody (fun absent => .missing_of_reaches below.reaches absent) below

theorem grounded_typeName {name : NodeId} (below : context.tree.Below node name) :
    Grounded context categories node (typeName context name) := by
  refine grounded_withPayload below fun payload _ => ?_
  split
  · simp only
    split
    · split
      · simp_all [below.reaches]
      · split
        · simp
        · simpa using below
    · simpa using below
  · simpa using below

end Plan

/-! ## Literals, statements and types -/

theorem Literal.grounded_plan {form : Literal}
    (present : context.tree.payload? node = some (.literal form)) :
    Grounded context categories node (form.plan context node) := by
  have below : ∀ child ∈ form.children, context.tree.Below node child :=
    fun child member => Tree.below_of_mem present member
  have key : ∀ name, context.tree.Below node name →
      Grounded context categories node (propertyKeyPlan context name) := by
    intro name under
    unfold propertyKeyPlan
    split
    · simp
    · simpa using under
  cases form with
  | numeric | string | regExp | plainTemplate | templateHead | boolean | null | thisRef =>
    simp [Literal.plan]
  | templateMiddle | templateTail => simp [Literal.plan, present]
  | template head spans => simpa [Literal.plan, Literal.children] using below
  | templateSpan expression literal =>
    simpa [Literal.plan, Literal.children, present] using below
  | array items | object items => simpa [Literal.plan, Literal.children, bracketedPlan] using below
  | property name initializer =>
    have nameBelow := below name (by simp [Literal.children])
    have initializerBelow := below initializer (by simp [Literal.children])
    simpa [Literal.plan] using ⟨key name nameBelow, initializerBelow⟩
  | shorthandProperty name =>
    have nameBelow := below name (by simp [Literal.children])
    simpa [Literal.plan] using ⟨key name nameBelow, nameBelow⟩

/-- The name and the annotation of the binding of a catch clause lie below the clause. -/
theorem grounded_catchPlan {binding body : NodeId}
    (present : context.tree.payload? node = some (.stmt (.catchClause binding body))) :
    Grounded context categories node (catchPlan context binding body) := by
  have bindingBelow : context.tree.Below node binding :=
    Tree.below_of_mem present (by simp [Payload.children, Stmt.children])
  have bodyBelow : context.tree.Below node body :=
    Tree.below_of_mem present (by simp [Payload.children, Stmt.children])
  refine grounded_withPayload bindingBelow fun payload bound => ?_
  split
  · rename_i name type initializer
    have nameBelow : context.tree.Below node name :=
      bindingBelow.tail_mem bound (by simp [Payload.children, Decl.children])
    split
    · have typeBelow : ∀ found ∈ type, context.tree.Below node found := by
        intro found member
        refine bindingBelow.tail_mem bound ?_
        simp_all [Payload.children, Decl.children]
      simpa [catchBindingPlan] using ⟨typeBelow, nameBelow, bodyBelow⟩
    · rename_i unnamed
      refine grounded_unexpected nameBelow.reaches fun payload named => ?_
      refine .caughtName Tree.reaches_self present bound ?_
      obtain ⟨⟨found, pos, stop, parent⟩, held, rfl⟩ := Tree.payload?_eq_some.mp named
      simp only [Tree.identifierText?, held] at unnamed
      unfold Payload.isIdentifier
      split <;> simp_all
  · rename_i other
    refine grounded_unexpected bindingBelow.reaches fun payload' bound' => ?_
    refine .caught Tree.reaches_self present ?_
    cases bound.symm.trans bound'
    unfold Payload.isVariable
    split <;> simp_all

theorem Stmt.grounded_plan {form : Stmt}
    (present : context.tree.payload? node = some (.stmt form)) :
    Grounded context categories node (form.plan context) := by
  have below : ∀ child ∈ form.children, context.tree.Below node child :=
    fun child member => Tree.below_of_mem present member
  cases form with
  | catchClause binding body => exact grounded_catchPlan present
  | _ => simp_all [Stmt.plan, Stmt.children, eachLoopPlan, jumpPlan]

theorem Name.grounded_plan {form : Name}
    (present : context.tree.payload? node = some (.name form)) :
    Grounded context categories node form.plan := by
  have below : ∀ child ∈ form.children, context.tree.Below node child :=
    fun child member => Tree.below_of_mem present member
  cases form with
  | identifier text => simp [Name.plan]
  | qualified left right => simpa [Name.plan, Name.children] using below

theorem TypeExpr.grounded_plan {form : TypeExpr}
    (present : context.tree.payload? node = some (.type form)) :
    Grounded context categories node (form.plan context node) := by
  have below : ∀ child ∈ form.children, context.tree.Below node child :=
    fun child member => Tree.below_of_mem present member
  cases form with
  | reference name arguments =>
    have named : Grounded context categories node (typeName context name) :=
      grounded_typeName (below name (by simp [children]))
    simp_all [plan, children]
  | applied expression arguments =>
    have applied : Grounded context categories node (appliedPlan context expression) := by
      refine grounded_withPayload (below expression (by simp [children])) fun payload _ => ?_
      split
      · exact grounded_typeName (below expression (by simp [children]))
      · simp_all [children]
    simp_all [plan, children]
  | _ => simp_all [plan, children]

/-! ## Calls and expressions -/

/-- A call site is one of `node`: all its parts lie below.  There is one only with a resolver. -/
structure CallSite.Within (context : Context) (node : NodeId) (site : CallSite) : Prop where
  /-- There is a resolver. -/
  resolved : context.resolver ≠ none
  /-- The site is the node. -/
  node_eq : site.node = node
  /-- The receiver lies below. -/
  receiver : ∀ child ∈ site.receiver, context.tree.Below node child
  /-- The type arguments lie below. -/
  typeArguments : ∀ child ∈ site.typeArguments, context.tree.Below node child
  /-- The arguments lie below. -/
  arguments : ∀ child ∈ site.arguments, context.tree.Below node child

section

variable {site : CallSite}

theorem grounded_unshiftPlan (within : site.Within context node) :
    Grounded context categories node (unshiftPlan site) := by
  unfold unshiftPlan
  split
  · simp_all [within.receiver, within.arguments]
  · simp_all [within.receiver, within.arguments]

theorem grounded_concatPlan (within : site.Within context node) :
    Grounded context categories node (concatPlan context site) := by
  have argument : ∀ child ∈ site.arguments,
      Grounded context categories node (concatArgumentPlan context child) := by
    intro child member
    have below := within.arguments child member
    unfold concatArgumentPlan
    split
    · simpa using below
    · simpa [within.resolved] using ⟨below.reaches, below⟩
  simpa [concatPlan] using ⟨within.receiver, argument⟩

theorem grounded_reducePlan (within : site.Within context node) :
    Grounded context categories node (reducePlan site) := by
  have below := within.arguments
  unfold reducePlan
  split
  · simp [within.node_eq, within.resolved]
  · simp_all [within.receiver]
  · simp_all [within.receiver]

/-- The parameters and the body of a callback lie below the call. -/
theorem grounded_forEachPlan {callback : NodeId} (within : site.Within context node)
    (below : context.tree.Below node callback) :
    Grounded context categories node (forEachPlan context site callback) := by
  have function : ∀ parameters body, (∀ child ∈ parameters, context.tree.Below node child) →
      Grounded context categories node body →
      Grounded context categories node (forEachFunctionPlan site parameters body) := by
    intro parameters body under inner
    unfold forEachFunctionPlan
    split
    · simp_all [within.receiver]
    · simp [within.node_eq, within.resolved]
  refine grounded_withPayload below fun payload present => ?_
  split
  · apply function
    · intro child member
      exact below.tail_mem present (by simp [Payload.children, Decl.children, member])
    · simpa using below.tail_mem present (by simp [Payload.children, Decl.children])
  · apply function
    · intro child member
      exact below.tail_mem present (by simp [Payload.children, Decl.children, member])
    · exact grounded_arrowBody
        (below.tail_mem present (by simp [Payload.children, Decl.children]))
  · simpa using ⟨within.receiver, below⟩

theorem grounded_forwardRefPlan {argument : NodeId} (within : site.Within context node)
    (below : context.tree.Below node argument) :
    Grounded context categories node (forwardRefPlan context site argument) := by
  refine grounded_withPayload below fun payload present => ?_
  split
  · simpa using below.tail_mem present (by simp [Payload.children, Decl.children])
  · simp [within.node_eq, within.resolved]

theorem grounded_constMapPlan (within : site.Within context node) :
    Grounded context categories node (constMapPlan site) := by
  unfold constMapPlan
  split
  · simpa using within.typeArguments
  · simpa [within.node_eq, within.resolved] using within.typeArguments

/-- The plan of an idiom is grounded at its call. -/
theorem CallIdiom.grounded_plan? {idiom : CallIdiom} {plan : Plan}
    (within : site.Within context node) (planned : idiom.plan? context site = some plan) :
    Grounded context categories node plan := by
  have below := within.arguments
  have receiver := within.receiver
  have here := within.node_eq
  have resolved := within.resolved
  cases idiom with
  | arrayUnshift => cases planned; exact grounded_unshiftPlan within
  | arrayConcat => cases planned; exact grounded_concatPlan within
  | arrayReduce => cases planned; exact grounded_reducePlan within
  | mapForEach =>
    simp only [CallIdiom.plan?] at planned
    split at planned
    · cases planned
      exact grounded_forEachPlan within (below _ (by simp_all))
    · cases planned
      simp [here, resolved]
  | forwardRef =>
    simp only [CallIdiom.plan?] at planned
    split at planned
    · cases planned
      exact grounded_forwardRefPlan within (below _ (by simp_all))
    · cases planned
      simp [here, resolved]
  | constMapConstructor =>
    simp only [CallIdiom.plan?] at planned
    split at planned
    · cases planned
      exact grounded_constMapPlan within
    · cases planned
  | arrayJoin | arrayIsArray | arrayFind | mapSet | mapGet =>
    simp only [CallIdiom.plan?] at planned
    split at planned
    · cases planned
      simp_all
    · cases planned
      simp_all
  | arraySlice | arraySplice =>
    cases planned
    simp_all [or_imp]
  | _ =>
    cases planned
    simp_all [mapDeletePlan]

end

/-- The parts of a call with an idiom lie below the call. -/
theorem Context.IdiomAt.within {site : CallSite} {idiom : CallIdiom}
    (here : context.IdiomAt node site idiom) : site.Within context node := by
  obtain ⟨same, resolver, payload, calleeNode, calleePayload, callee, key, resolved, present, parts,
    calleePresent, named, receiver, -⟩ := here
  have below : ∀ child ∈ calleeNode :: (site.typeArguments ++ site.arguments),
      context.tree.Below node child := by
    intro child member
    rw [← children_of_callParts? parts] at member
    exact Tree.below_of_mem present member
  refine ⟨by simp [resolved], same, fun child received => ?_, fun child member => ?_,
    fun child member => ?_⟩
  · -- only a property access has a receiver, and that is a child of the callee
    rw [receiver] at received
    unfold callee? at named
    split at named
    · cases named
      cases received
    · obtain ⟨text, _, rfl⟩ := Option.map_eq_some_iff.mp named
      cases received
      exact (below calleeNode (by simp)).tail_mem calleePresent
        (by simp [Payload.children, Expr.children])
    · cases named
  · exact below child (by simp [member])
  · exact below child (by simp [member])

/-- A call or a construction is grounded, whether an idiom is recognized or not. -/
theorem grounded_recognizeCall {payload : Payload} {asItStands : Plan}
    (present : context.tree.payload? node = some payload)
    (stands : Grounded context categories node asItStands) :
    Grounded context categories node
      (ofRecognition asItStands (context.recognizeCall node)) := by
  have outcome := Context.callOutcome present
  generalize context.recognizeCall node = result at outcome
  cases outcome with
  | notHandled => exact stands
  | missing held parts absent =>
    have calleeBelow := Tree.below_of_mem held
      (by rw [Context.children_of_callParts? parts]; exact List.mem_cons_self ..)
    simpa [ofRecognition] using Fault.missing_of_reaches calleeBelow.reaches absent
  | unresolved resolved _ => simp [ofRecognition, resolved]
  | recognized here planned => exact CallIdiom.grounded_plan? here.within planned

/-- A property access is grounded, whether an idiom is recognized or not. -/
theorem grounded_accessPlan {expression name : NodeId}
    (present : context.tree.payload? node = some (.expr (.propertyAccess expression name))) :
    Grounded context categories node (accessPlan context node expression name) := by
  have expressionBelow : context.tree.Below node expression :=
    Tree.below_of_mem present (by simp [Payload.children, Expr.children])
  have nameBelow : context.tree.Below node name :=
    Tree.below_of_mem present (by simp [Payload.children, Expr.children])
  unfold accessPlan
  split
  · simpa using expressionBelow
  · have outcome := Context.accessOutcome present
    generalize context.recognizeProperty node = result at outcome
    cases outcome with
    | notHandled => simpa [ofRecognition] using ⟨expressionBelow, nameBelow⟩
    | unresolved resolved _ => simp [ofRecognition, resolved]
    | recognized idiom =>
      cases idiom
      simpa [ofRecognition, PropertyIdiom.plan] using expressionBelow

/-- The right side of `instanceof` lies below the test, and so do its two parts when it is a
property access. -/
theorem grounded_testedTypePlan {right : NodeId} (below : context.tree.Below node right) :
    Grounded context categories node (testedTypePlan context right) := by
  refine grounded_withPayload below fun payload present => ?_
  split
  · exact grounded_typeName below
  · rename_i expression name
    have expressionBelow : context.tree.Below node expression :=
      below.tail_mem present (by simp [Payload.children, Expr.children])
    have nameBelow : context.tree.Below node name :=
      below.tail_mem present (by simp [Payload.children, Expr.children])
    simpa using ⟨expressionBelow, grounded_typeName nameBelow⟩
  · simpa using below

theorem grounded_binaryPlan {left right : NodeId} {operator : BinaryOperator}
    (leftBelow : context.tree.Below node left) (rightBelow : context.tree.Below node right) :
    Grounded context categories node (binaryPlan context node left operator right) := by
  unfold binaryPlan
  split
  · simpa [identicalPlan] using ⟨leftBelow, rightBelow⟩
  · simpa [identicalPlan] using ⟨leftBelow, rightBelow⟩
  · simpa using ⟨leftBelow, grounded_testedTypePlan rightBelow⟩
  · simp [operatorPlan]
  · simpa using ⟨leftBelow, rightBelow⟩

theorem Expr.grounded_plan {form : Expr}
    (present : context.tree.payload? node = some (.expr form)) :
    Grounded context categories node (form.plan context node) := by
  have below : ∀ child ∈ form.children, context.tree.Below node child :=
    fun child member => Tree.below_of_mem present member
  cases form with
  | binary left operator right =>
    exact grounded_binaryPlan (below left (by simp [children])) (below right (by simp [children]))
  | propertyAccess expression name => exact grounded_accessPlan present
  | call expression typeArguments arguments =>
    refine grounded_recognizeCall present ?_
    simp_all [children, or_imp]
  | construct expression typeArguments arguments =>
    refine grounded_recognizeCall present ?_
    simp_all [children, or_imp]
  | delete | void | typeOf => simp [plan, operatorPlan]
  | superRef => simp [plan]
  | prefixUnary | postfixUnary | parenthesized | conditional | elementAccess | typeAssertion =>
    simp_all [plan, children]

/-! ## Declarations -/

/-- The annotations of a list are collected when all its members are variables. -/
theorem annotations_ok {declarations : List NodeId} {types : List (Option NodeId)}
    (collected : annotations context declarations = .ok types) :
    List.Forall₂ (fun declaration type => ∃ name initializer,
      context.tree.payload? declaration = some (.decl (.variableDecl name type initializer)))
      declarations types := by
  induction declarations generalizing types with
  | nil =>
    cases collected
    exact .nil
  | cons declaration rest ih =>
    simp only [annotations] at collected
    split at collected
    · rename_i name type initializer held
      cases others : annotations context rest with
      | error stopped =>
        rw [others] at collected
        cases collected
      | ok later =>
        rw [others] at collected
        cases collected
        exact .cons ⟨name, initializer, held⟩ (ih others)
    · cases collected

/-- The collection of annotations stops at the first member that is no variable. -/
theorem annotations_error {declarations : List NodeId} {stopped : Plan}
    (failed : annotations context declarations = .error stopped) :
    ∃ declaration ∈ declarations,
      stopped = unexpected context "VariableDeclaration" declaration ∧
      ∀ payload, context.tree.payload? declaration = some payload →
        payload.isVariable = false := by
  induction declarations with
  | nil => cases failed
  | cons declaration rest ih =>
    simp only [annotations] at failed
    split at failed
    · cases others : annotations context rest with
      | error later =>
        rw [others] at failed
        cases failed
        obtain ⟨found, member, stops⟩ := ih others
        exact ⟨found, List.mem_cons_of_mem _ member, stops⟩
      | ok types =>
        rw [others] at failed
        cases failed
    · rename_i other
      cases failed
      refine ⟨declaration, List.mem_cons_self .., rfl, fun payload held => ?_⟩
      unfold Payload.isVariable
      split
      · exact absurd held (other _ _ _)
      · rfl

theorem grounded_variableListPlan {kind : VariableKind} {declarations : List NodeId}
    (present : context.tree.payload? node = some (.decl (.variableList kind declarations))) :
    Grounded context categories node (variableListPlan context node kind declarations) := by
  have below : ∀ child ∈ declarations, context.tree.Below node child :=
    fun child member => Tree.below_of_mem present member
  unfold variableListPlan
  split
  · rename_i stopped failed
    obtain ⟨declaration, member, rfl, other⟩ := annotations_error failed
    exact grounded_unexpected (below declaration member).reaches
      fun payload held => .listed Tree.reaches_self present member (other payload held)
  · rename_i types collected
    split
    · simp [constructPlan]
    · have lead : Grounded context categories node (variableLeadPlan kind types.head?.join) := by
        unfold variableLeadPlan
        split
        · rename_i type first
          -- the first annotation belongs to the first variable
          cases annotations_ok collected with
          | nil => cases first
          | cons declared _ =>
            obtain ⟨name, initializer, held⟩ := declared
            have typeBelow : context.tree.Below node type := by
              refine (below _ (List.mem_cons_self ..)).tail_mem held ?_
              simp_all [Payload.children, Decl.children]
            simpa using typeBelow
        · simp
      simpa using ⟨lead, below⟩

theorem grounded_parametersFrom {parameters : List NodeId} (isFirst isOpen : Bool)
    (below : ∀ child ∈ parameters, context.tree.Below node child) :
    Grounded context categories node (parametersFrom context isFirst isOpen parameters) := by
  induction parameters generalizing isFirst isOpen with
  | nil => simp [parametersFrom]
  | cons parameter rest ih =>
    have here := below parameter (by simp)
    simp only [parametersFrom]
    refine meets_append.mpr ⟨meets_tokenIf, grounded_withPayload here fun payload _ => ?_⟩
    have later := ih false (isOpen || (payload.isOptionalParameter && !isOpen))
      fun child member => below child (by simp [member])
    simpa using ⟨here, later⟩

theorem grounded_parametersPlan {parameters : List NodeId}
    (below : ∀ child ∈ parameters, context.tree.Below node child) :
    Grounded context categories node (parametersPlan context parameters) := by
  simpa [parametersPlan] using grounded_parametersFrom true false below

@[simp] theorem Plan.meets_bodyPlan {demand : Demand} {body : Option NodeId} :
    Meets demand (bodyPlan body) ↔ ∀ found ∈ body, demand.child found := by
  cases body <;> simp [bodyPlan]

@[simp] theorem Plan.meets_typeOrVarPlan {demand : Demand} {type : Option NodeId} :
    Meets demand (typeOrVarPlan type) ↔ ∀ found ∈ type, demand.child found := by
  cases type <;> simp [typeOrVarPlan]

theorem className?_of_inNamedClass (inside : context.tree.InNamedClass node) :
    ∃ name, className? context node = some name := by
  obtain ⟨parent, decorators, isAbstract, nameNode, typeParameters, heritage, members, name,
    link, held, named⟩ := inside
  obtain ⟨found, held, same⟩ := Tree.payload?_eq_some.mp held
  refine ⟨name, ?_⟩
  simp [className?, Context.parentPayload?, link, held, same, named]

theorem grounded_constructorPlan {parameters : List NodeId} {body : Option NodeId}
    (present : context.tree.payload? node = some (.decl (.constructorDecl parameters body))) :
    Grounded context categories node (constructorPlan context node parameters body) := by
  have below : ∀ child ∈ parameters ++ body.toList, context.tree.Below node child :=
    fun child member => Tree.below_of_mem present member
  unfold constructorPlan
  split
  · have listed : Grounded context categories node (parametersPlan context parameters) :=
      grounded_parametersPlan fun child member => below child (by simp [member])
    simpa using ⟨listed, fun found member => below found (by simp_all)⟩
  · rename_i unnamed
    refine grounded_unexpected Tree.reaches_self fun payload held => ?_
    cases present.symm.trans held
    refine .unnamed fun inside => ?_
    obtain ⟨name, named⟩ := className?_of_inNamedClass inside
    cases unnamed.symm.trans named

/-- What stops the plan of an enumeration is a missing or an initialized member. -/
theorem memberFault?_eq_some {members : List NodeId} {fault : Plan}
    (stopped : memberFault? context members = some fault) :
    ∃ member ∈ members,
      (fault = [.abort (.missing member)] ∧ context.tree.get? member = none) ∨
      (fault = constructPlan member "enum initializers" ∧ ∃ name initializer,
        context.tree.payload? member = some (.decl (.enumMember name (some initializer)))) := by
  induction members with
  | nil => cases stopped
  | cons member rest ih =>
    simp only [memberFault?] at stopped
    split at stopped
    · rename_i absent
      cases stopped
      exact ⟨member, List.mem_cons_self .., .inl ⟨rfl, by simpa using absent⟩⟩
    · rename_i name initializer held
      cases stopped
      exact ⟨member, List.mem_cons_self .., .inr ⟨rfl, name, initializer, held⟩⟩
    · obtain ⟨other, inRest, fault⟩ := ih stopped
      exact ⟨other, List.mem_cons_of_mem _ inRest, fault⟩

theorem grounded_enumPlan {name : NodeId} {members : List NodeId}
    (present : context.tree.payload? node = some (.decl (.enumDecl name members))) :
    Grounded context categories node (enumPlan context name members) := by
  have below : ∀ child ∈ name :: members, context.tree.Below node child :=
    fun child member => Tree.below_of_mem present member
  unfold enumPlan
  split
  · rename_i fault stopped
    obtain ⟨member, inList, ⟨rfl, absent⟩ | ⟨rfl, _⟩⟩ := memberFault?_eq_some stopped
    · simpa using Fault.missing_of_reaches (below member (by simp [inList])).reaches absent
    · simpa [constructPlan] using (below member (by simp [inList])).reaches
  · simpa using below

theorem grounded_libraryPlan {specifier : NodeId} {payload : Payload}
    (present : context.tree.payload? node = some payload)
    (specified : payload.specifier? = some specifier)
    (below : context.tree.Below node specifier) :
    Grounded context categories node (libraryPlan context specifier) := by
  refine grounded_withPayload below fun found held => ?_
  split
  · simp
  · rename_i other
    refine grounded_unexpected below.reaches fun found' held' => ?_
    cases held.symm.trans held'
    refine .specified Tree.reaches_self present specified ?_
    unfold Payload.isString
    split
    · exact absurd rfl (other _)
    · rfl

theorem Decl.grounded_plan {form : Decl}
    (present : context.tree.payload? node = some (.decl form)) :
    Grounded context categories node (form.plan context node) := by
  have below : ∀ child ∈ form.children, context.tree.Below node child :=
    fun child member => Tree.below_of_mem present member
  have listed : ∀ parameters : List NodeId, (∀ child ∈ parameters, child ∈ form.children) →
      Grounded context categories node (parametersPlan context parameters) :=
    fun parameters part =>
      grounded_parametersPlan fun child member => below child (part child member)
  cases form with
  | variableList kind declarations => exact grounded_variableListPlan present
  | constructorDecl parameters body => exact grounded_constructorPlan present
  | enumDecl name members => exact grounded_enumPlan present
  | arrow parameters result body =>
    have inner : Grounded context categories node (arrowBody context body) :=
      grounded_arrowBody (below body (by simp [children]))
    simpa [plan] using ⟨listed parameters (by simp_all [children]), inner⟩
  | importDecl namedImports specifier =>
    have library : Grounded context categories node (libraryPlan context specifier) :=
      grounded_libraryPlan present rfl (below specifier (by simp [children]))
    cases namedImports with
    | nil => simpa [plan] using library
    | cons first rest => simp_all [plan, children]
  | importSpecifier propertyName name =>
    cases propertyName with
    | none => simpa [plan] using grounded_typeName (below name (by simp [children]))
    | some renamed => simp [plan, constructPlan]
  | importEquals name specifier =>
    have library : Grounded context categories node (libraryPlan context specifier) :=
      grounded_libraryPlan present rfl (below specifier (by simp [children]))
    have named : Grounded context categories node (typeName context name) :=
      grounded_typeName (below name (by simp [children]))
    simpa [plan] using ⟨library, named⟩
  | function name typeParameters parameters result body =>
    have inner := listed parameters (by simp_all [children])
    simp_all [plan, children]
  | functionExpr name parameters result body =>
    have inner := listed parameters (by simp_all [children])
    simp_all [plan, children]
  | method decorators isStatic name parameters result body =>
    have inner := listed parameters (by simp_all [children])
    simp_all [plan, children, or_imp]
  | methodSignature name parameters result =>
    have inner := listed parameters (by simp_all [children])
    simp_all [plan, children]
  | _ => simp_all [plan, children, classBodyPlan, constructPlan, or_imp]

/-! ## All nodes -/

/-- The plan of a category at a node is grounded there. -/
theorem Category.grounded_plan? {category : Category} {payload : Payload} {plan : Plan}
    (present : context.tree.payload? node = some payload)
    (planned : category.plan? context node payload = some plan) :
    Grounded context categories node plan := by
  unfold Category.plan? at planned
  split at planned
  · cases planned
    exact Literal.grounded_plan present
  · cases planned
    exact Expr.grounded_plan present
  · cases planned
    exact Stmt.grounded_plan present
  · cases planned
    exact Name.grounded_plan present
  · cases planned
    exact TypeExpr.grounded_plan present
  · cases planned
    exact Decl.grounded_plan present
  · cases planned

/-- A plan walks what lies below its node, complains about what the node reaches, and stops only at
a fault. -/
theorem Context.planAt_grounded (context : Context) (categories : List Category) {found : Node}
    (present : context.tree.get? node = some found) :
    Grounded context categories node (context.planAt categories node found) := by
  have held := Tree.payload?_of_get? present
  rcases context.planAt_cases categories node found with ⟨passed, unclaimed⟩ | ⟨_, _, planned⟩
  · rw [passed, passPlan]
    split
    · rename_i leaf
      simp only [Bool.and_eq_true, List.isEmpty_iff, Bool.not_eq_true'] at leaf
      simpa using Fault.unhandled Tree.reaches_self present leaf.1 leaf.2 unclaimed
    · simpa using fun child member => Tree.below_of_mem held member
  · exact Category.grounded_plan? held planned

/-- A node that a plan walks lies below the node of the plan. -/
theorem Context.below_of_planAt {found : Node} {child : NodeId}
    (present : context.tree.get? node = some found)
    (walked : .child child ∈ context.planAt categories node found) :
    context.tree.Below node child :=
  context.planAt_grounded categories present _ walked

end Dartify
