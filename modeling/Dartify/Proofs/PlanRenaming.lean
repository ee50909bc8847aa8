import Dartify.Proofs.Candidates
import Dartify.Proofs.Recognition
import Dartify.Proofs.Renaming

/-!
# Plans at other places

Where the nodes of a tree stand in another one under other numbers, with their handles and links
renamed, the plans are renamed too (`Context.Renumbers.planAt_eq`).  A plan learns about a tree only
by following handles and links, and about a resolver only by asking for the symbols at nodes that it
came to.  So this is shown function by function, each from those that it calls.

What has to be known about the two contexts is collected in `Context.Renumbers`.  A handle that
leads nowhere is renamed to one that leads nowhere (`Tree.Embeds`), so that most of the functions
need not ask whether a node is there.
-/

namespace Dartify

open Plan

/-! ## Trees inside trees -/

/-- Every handle has a place in another tree: that of the same node with its handles and its link
renamed, or that of no node. -/
def Tree.Embeds (place : NodeId → NodeId) (tree other : Tree) : Prop :=
  ∀ node, other.get? (place node) = (tree.get? node).map (Node.rename place)

namespace Tree.Embeds

variable {place : NodeId → NodeId} {tree other : Tree} (embeds : tree.Embeds place other)

include embeds

theorem payload?_eq (node : NodeId) :
    other.payload? (place node) = (tree.payload? node).map (Payload.rename place) := by
  rw [payload?, payload?, embeds node, Option.map_map, Option.map_map]
  rfl

theorem parent?_eq (node : NodeId) :
    other.parent? (place node) = (tree.parent? node).map place := by
  rw [parent?, parent?, embeds node]
  cases tree.get? node <;> rfl

theorem identifierText?_eq (node : NodeId) :
    other.identifierText? (place node) = tree.identifierText? node := by
  rw [identifierText?, identifierText?, embeds node]
  cases tree.get? node with
  | none => rfl
  | some found =>
    obtain ⟨payload, pos, stop, parent⟩ := found
    cases payload with
    | name form => cases form <;> rfl
    | _ => rfl

theorem dottedText?_eq (budget : Nat) (node : NodeId) :
    other.dottedText? budget (place node) = tree.dottedText? budget node := by
  induction budget generalizing node with
  | zero => rfl
  | succ budget ih =>
    rw [dottedText?, dottedText?, embeds node]
    cases tree.get? node with
    | none => rfl
    | some found =>
      obtain ⟨payload, pos, stop, parent⟩ := found
      cases payload with
      | name form =>
        cases form with
        | identifier text => rfl
        | qualified left right =>
          show (do
            let front ← other.dottedText? budget (place left)
            let last ← other.identifierText? (place right)
            return front ++ "." ++ last) = _
          rw [ih, embeds.identifierText?_eq]
      | _ => rfl

/-- Climbs with the same budget meet the same nodes at their places. -/
theorem climb_eq (budget : Nat) (link : Option NodeId) :
    other.climb budget (link.map place) =
      (tree.climb budget link).map fun entry => (place entry.1, entry.2.rename place) := by
  induction budget generalizing link with
  | zero => rfl
  | succ budget ih =>
    cases link with
    | none => rfl
    | some node =>
      rw [Option.map_some, climb, climb, embeds node]
      cases tree.get? node with
      | none => rfl
      | some found => exact congrArg _ (ih found.parent)

end Tree.Embeds

/-! ## Contexts -/

/-- A context is another one with its tree at other places: no question about a node has another
answer there. -/
structure Context.Renumbers (place : NodeId → NodeId) (one two : Context) : Prop where
  /-- The nodes are the same. -/
  nodes : one.tree.Embeds place two.tree
  /-- Every handle leads to a node. -/
  present : ∀ {node : NodeId} {payload : Payload}, one.tree.payload? node = some payload →
    ∀ child ∈ payload.children, ∃ found, one.tree.get? child = some found
  /-- The ancestors are the same. -/
  ancestors : ∀ node, two.tree.ancestors (place node) =
    (one.tree.ancestors node).map fun entry => (place entry.1, entry.2.rename place)
  /-- Dotted names are the same. -/
  entityText? : ∀ node, two.tree.entityText? (place node) = one.tree.entityText? node
  /-- The idioms are the same. -/
  catalog : two.catalog = one.catalog
  /-- Names have the same keys, or lack them for the same reason. -/
  lookup : one.resolver = none ∧ two.resolver = none ∨
    ∃ resolver resolver', one.resolver = some resolver ∧ two.resolver = some resolver' ∧
      ∀ {node : NodeId} {found : Node}, one.tree.get? node = some found → ∀ name,
        two.lookup resolver' name (place node) = one.lookup resolver name node
  /-- Expressions have the same types. -/
  isNamedType : ∀ {node : NodeId} {found : Node}, one.tree.get? node = some found →
    ∀ modulePath name,
      two.isNamedType (place node) modulePath name = one.isNamedType node modulePath name

namespace Context.Renumbers

variable {place : NodeId → NodeId} {one two : Context} (renumbers : one.Renumbers place two)

include renumbers

theorem hasAncestor_eq {test : Payload → Bool}
    (same : ∀ payload : Payload, test (payload.rename place) = test payload) (node : NodeId) :
    two.tree.hasAncestor (place node) test = one.tree.hasAncestor node test := by
  rw [Tree.hasAncestor, Tree.hasAncestor, renumbers.ancestors, List.any_map]
  congr 1
  funext entry
  exact same entry.2.payload

theorem inConstExpr_eq (node : NodeId) :
    two.tree.inConstExpr (place node) = one.tree.inConstExpr node := by
  have nearest : ∀ entries : List (NodeId × Node),
      (entries.map fun entry => (place entry.1, entry.2.rename place)).findSome?
          (fun entry => Tree.callee? entry.2.payload) =
        (entries.findSome? fun entry => Tree.callee? entry.2.payload).map place := by
    intro entries
    rw [List.findSome?_map, List.map_findSome?]
    exact congrArg (List.findSome? · entries)
      (funext fun entry => Tree.callee?_rename place entry.2.payload)
  rw [Tree.inConstExpr, Tree.inConstExpr, renumbers.ancestors, nearest]
  cases (one.tree.ancestors node).findSome? fun entry => Tree.callee? entry.2.payload with
  | none => rfl
  | some callee => exact congrArg (· == some "CONST_EXPR") (renumbers.nodes.identifierText?_eq _)

theorem inConstContext_eq (node : NodeId) :
    two.tree.inConstContext (place node) = one.tree.inConstContext node := by
  rw [Tree.inConstContext, Tree.inConstContext,
    renumbers.hasAncestor_eq (Tree.isDecorator_rename place), renumbers.inConstExpr_eq]

/-! ## Plans -/

/-- A plan that goes by what a node is is renamed when its cases are. -/
theorem withPayload_eq {node : NodeId} {plan plan' : Payload → Plan}
    (same : ∀ found, one.tree.get? node = some found →
      plan' (found.payload.rename place) = (plan found.payload).rename place) :
    withPayload two (place node) plan' = (withPayload one node plan).rename place := by
  rw [withPayload, withPayload, renumbers.nodes node]
  cases present : one.tree.get? node with
  | none => rfl
  | some found => exact same found present

theorem unexpected_eq (expected : String) (node : NodeId) :
    unexpected two expected (place node) = (unexpected one expected node).rename place := by
  rw [unexpected, unexpected, renumbers.nodes node]
  cases one.tree.get? node with
  | none => rfl
  | some found => simp [Node.rename, Directive.rename, Defect.rename]

theorem arrowBody_eq (body : NodeId) :
    arrowBody two (place body) = (arrowBody one body).rename place := by
  refine renumbers.withPayload_eq fun found _ => ?_
  simp [Directive.rename]

theorem lastName_eq (form : Name) : two.lastName (form.rename place) = one.lastName form := by
  cases form with
  | identifier text => rfl
  | qualified left right => exact congrArg (·.getD "") (renumbers.nodes.identifierText?_eq right)

theorem typeName_eq (node : NodeId) :
    typeName two (place node) = (typeName one node).rename place := by
  refine renumbers.withPayload_eq fun found present => ?_
  cases found.payload with
  | name form =>
    rcases renumbers.lookup with ⟨unasked, unasked'⟩ | ⟨resolver, resolver', asked, asked', same⟩
    · simp [Payload.rename, unasked, unasked', Directive.rename]
    · simp only [Payload.rename, asked, asked', renumbers.lastName_eq, renumbers.catalog,
        same present]
      split
      · cases one.lookup resolver (one.lastName form) node with
        | error cause => rfl
        | ok key => cases known : one.catalog.typeNames.get? key <;> simp [known, Directive.rename]
      · rfl
  | _ => simp [Payload.rename, Directive.rename]

end Context.Renumbers

/-! ## Library calls -/

/-- A call about other nodes. -/
def CallSite.rename (place : NodeId → NodeId) (site : CallSite) : CallSite :=
  ⟨place site.node, site.receiver.map place, site.typeArguments.map place,
    site.arguments.map place⟩

/-- A callee about other nodes. -/
def Callee.rename (place : NodeId → NodeId) (callee : Callee) : Callee :=
  ⟨callee.name, place callee.node, callee.receiver.map place⟩

/-- A recognition about other nodes. -/
def Recognition.rename (place : NodeId → NodeId) : Recognition → Recognition
  | .notHandled => .notHandled
  | .unresolved plan => .unresolved (plan.rename place)
  | .recognized plan => .recognized (plan.rename place)

/-- The outcome of a recognition about other nodes. -/
def renameOutcome (place : NodeId → NodeId) :
    Except Defect Recognition → Except Defect Recognition
  | .error defect => .error (defect.rename place)
  | .ok recognition => .ok (recognition.rename place)

section

variable {place : NodeId → NodeId} {one two : Context}

@[simp] theorem Plan.rename_ofRecognition (asItStands : Plan)
    (outcome : Except Defect Recognition) :
    (ofRecognition asItStands outcome).rename place =
      ofRecognition (asItStands.rename place) (renameOutcome place outcome) := by
  rcases outcome with defect | recognition
  · rfl
  · cases recognition <;> rfl

@[simp] theorem Plan.rename_namedCall (name : String) (arguments : List NodeId) :
    (namedCall name arguments).rename place = namedCall name (arguments.map place) := by
  simp [namedCall, Directive.rename]

@[simp] theorem Plan.rename_methodCall (name : String) (arguments : List NodeId) :
    (methodCall name arguments).rename place = methodCall name (arguments.map place) := by
  simp [methodCall, Directive.rename]

@[simp] theorem Plan.rename_receiverCall (site : CallSite) (name : String)
    (arguments : List NodeId) :
    (receiverCall site name arguments).rename place =
      receiverCall (site.rename place) name (arguments.map place) := by
  simp [receiverCall, CallSite.rename]

@[simp] theorem Plan.rename_tooFew (site : CallSite) (callee : String) (count : Nat) :
    (tooFew site callee count).rename place = tooFew (site.rename place) callee count := rfl

theorem unshiftPlan_rename (site : CallSite) :
    unshiftPlan (site.rename place) = (unshiftPlan site).rename place := by
  obtain ⟨node, receiver, typeArguments, arguments⟩ := site
  rcases arguments with _ | ⟨first, _ | ⟨second, rest⟩⟩ <;>
    simp [unshiftPlan, CallSite.rename, Directive.rename]

theorem reducePlan_rename (site : CallSite) :
    reducePlan (site.rename place) = (reducePlan site).rename place := by
  obtain ⟨node, receiver, typeArguments, arguments⟩ := site
  rcases arguments with _ | ⟨first, _ | ⟨second, rest⟩⟩ <;>
    simp [reducePlan, CallSite.rename, Directive.rename]

theorem mapDeletePlan_rename (site : CallSite) :
    mapDeletePlan (site.rename place) = (mapDeletePlan site).rename place := by
  simp [mapDeletePlan, Directive.rename, CallSite.rename]

theorem constMapPlan_rename (site : CallSite) :
    constMapPlan (site.rename place) = (constMapPlan site).rename place := by
  obtain ⟨node, receiver, typeArguments, arguments⟩ := site
  cases arguments <;> simp [constMapPlan, CallSite.rename, Directive.rename]

theorem forEachFunctionPlan_rename (site : CallSite) (parameters : List NodeId) (body : Plan) :
    forEachFunctionPlan (site.rename place) (parameters.map place) (body.rename place) =
      (forEachFunctionPlan site parameters body).rename place := by
  rcases parameters with _ | ⟨first, _ | ⟨second, _ | ⟨third, rest⟩⟩⟩ <;>
    simp [forEachFunctionPlan, CallSite.rename, Directive.rename]

variable (renumbers : one.Renumbers place two)

include renumbers

theorem concatArgumentPlan_rename {argument : NodeId} {found : Node}
    (present : one.tree.get? argument = some found) :
    concatArgumentPlan two (place argument) = (concatArgumentPlan one argument).rename place := by
  rw [concatArgumentPlan, concatArgumentPlan, renumbers.isNamedType present]
  split <;> rfl

theorem concatPlan_rename {site : CallSite}
    (present : ∀ argument ∈ site.arguments, ∃ found, one.tree.get? argument = some found) :
    concatPlan two (site.rename place) = (concatPlan one site).rename place := by
  have added : (site.arguments.map place).flatMap (concatArgumentPlan two) =
      Plan.rename place (site.arguments.flatMap (concatArgumentPlan one)) := by
    rw [Plan.rename, List.map_flatMap, List.flatMap_map]
    refine List.flatMap_congr fun argument member => ?_
    obtain ⟨found, here⟩ := present argument member
    exact concatArgumentPlan_rename renumbers here
  simp [concatPlan, CallSite.rename, added, Directive.rename]

theorem forEachPlan_rename (site : CallSite) (callback : NodeId) :
    forEachPlan two (site.rename place) (place callback) =
      (forEachPlan one site callback).rename place := by
  refine renumbers.withPayload_eq fun found _ => ?_
  cases found.payload with
  | decl form =>
    cases form with
    | functionExpr name parameters result body =>
      exact forEachFunctionPlan_rename site parameters [.child body]
    | arrow parameters result body =>
      simp only [Payload.rename, Decl.rename, renumbers.arrowBody_eq]
      exact forEachFunctionPlan_rename site parameters (arrowBody one body)
    | _ => simp [Payload.rename, Decl.rename, CallSite.rename, Directive.rename]
  | _ => simp [Payload.rename, CallSite.rename, Directive.rename]

theorem forwardRefPlan_rename (site : CallSite) (argument : NodeId) :
    forwardRefPlan two (site.rename place) (place argument) =
      (forwardRefPlan one site argument).rename place := by
  refine renumbers.withPayload_eq fun found _ => ?_
  cases found.payload with
  | decl form => cases form <;> rfl
  | _ => rfl

/-- An idiom has the renamed plan at a renamed call. -/
theorem CallIdiom.plan?_rename {site : CallSite}
    (present : ∀ argument ∈ site.arguments, ∃ found, one.tree.get? argument = some found)
    (idiom : CallIdiom) :
    idiom.plan? two (site.rename place) = (idiom.plan? one site).map (Plan.rename place) := by
  cases idiom with
  | arrayConcat => exact congrArg some (concatPlan_rename renumbers present)
  | arrayUnshift => exact congrArg some (unshiftPlan_rename site)
  | arrayReduce => exact congrArg some (reducePlan_rename site)
  | mapDelete => exact congrArg some (mapDeletePlan_rename site)
  | constMapConstructor =>
    have here : two.tree.inConstExpr (site.rename place).node = one.tree.inConstExpr site.node :=
      renumbers.inConstExpr_eq site.node
    simp only [plan?, here]
    split
    · exact congrArg some (constMapPlan_rename site)
    · rfl
  | mapForEach =>
    cases held : site.arguments with
    | nil => simp [plan?, CallSite.rename, held]
    | cons callback rest =>
      simpa [plan?, CallSite.rename, held] using forEachPlan_rename renumbers site callback
  | forwardRef =>
    cases held : site.arguments with
    | nil => simp [plan?, CallSite.rename, held]
    | cons argument rest =>
      simpa [plan?, CallSite.rename, held] using forwardRefPlan_rename renumbers site argument
  | arrayJoin | arrayIsArray | arrayFind | mapGet =>
    cases held : site.arguments <;> simp [plan?, CallSite.rename, held, Directive.rename]
  | mapSet =>
    rcases held : site.arguments with _ | ⟨key, _ | ⟨value, rest⟩⟩ <;>
      simp [plan?, CallSite.rename, held, Directive.rename]
  | _ => simp [plan?, CallSite.rename, Option.toList_map, Directive.rename]

/-! ## Recognition -/

theorem callee?_rename (node : NodeId) (payload : Payload) :
    two.callee? (place node) (payload.rename place) =
      (one.callee? node payload).map (Callee.rename place) := by
  cases payload with
  | name form => cases form <;> rfl
  | expr form =>
    cases form with
    | propertyAccess expression name =>
      simp only [Payload.rename, Expr.rename, Context.callee?, renumbers.nodes.identifierText?_eq]
      cases one.tree.identifierText? name <;> rfl
    | _ => rfl
  | _ => rfl

omit renumbers in
theorem exists_get?_of_identifierText? {tree : Tree} {node : NodeId} {text : String}
    (named : tree.identifierText? node = some text) : ∃ found, tree.get? node = some found := by
  obtain ⟨found, present, -⟩ := Tree.payload?_eq_some.mp (Tree.identifierText?_eq_some_iff.mp named)
  exact ⟨found, present⟩

omit renumbers in
/-- The node whose symbol decides about a call is there. -/
theorem exists_get?_of_callee? {node : NodeId} {found : Node} {callee : Callee}
    (present : one.tree.get? node = some found)
    (named : one.callee? node found.payload = some callee) :
    ∃ named, one.tree.get? callee.node = some named := by
  unfold Context.callee? at named
  split at named
  · cases named
    exact ⟨found, present⟩
  · obtain ⟨text, identified, rfl⟩ := Option.map_eq_some_iff.mp named
    exact exists_get?_of_identifierText? identified
  · cases named

variable {resolver resolver' : Resolver}

theorem recognizeCallee_rename (callee : Callee) (site : CallSite)
    (same : ∀ name,
      two.lookup resolver' name (place callee.node) = one.lookup resolver name callee.node)
    (present : ∀ argument ∈ site.arguments, ∃ found, one.tree.get? argument = some found) :
    two.recognizeCallee resolver' (callee.rename place) (site.rename place) =
      (one.recognizeCallee resolver callee site).rename place := by
  have planned : ∀ known : Option CallIdiom, known.bind (CallIdiom.plan? two (site.rename place)) =
      (known.bind (CallIdiom.plan? one site)).map (Plan.rename place) := by
    intro known
    cases known with
    | none => rfl
    | some idiom => exact idiom.plan?_rename renumbers present
  have name : (callee.rename place).name = callee.name := rfl
  have node : (callee.rename place).node = place callee.node := rfl
  simp only [Context.recognizeCallee, renumbers.catalog, name, node, same, planned]
  split
  · cases one.lookup resolver callee.name callee.node with
    | error cause => rfl
    | ok key => cases known : (one.catalog.calls.get? key).bind (CallIdiom.plan? one site) <;>
        simp [known, Recognition.rename]
  · rfl

theorem recognizeCall_rename (call : NodeId) :
    two.recognizeCall (place call) = renameOutcome place (one.recognizeCall call) := by
  rcases renumbers.lookup with ⟨unasked, unasked'⟩ | ⟨resolver, resolver', asked, asked', same⟩
  · simp [Context.recognizeCall, unasked, unasked', renameOutcome, Recognition.rename]
  simp only [Context.recognizeCall, asked, asked', renumbers.nodes call]
  cases present : one.tree.get? call with
  | none => rfl
  | some node =>
    simp only [Option.map_some, Node.rename, Context.callParts?_rename]
    cases parts : Context.callParts? node.payload with
    | none => rfl
    | some found =>
      obtain ⟨calleeNode, typeArguments, arguments⟩ := found
      simp only [Option.map_some, renumbers.nodes calleeNode]
      cases here : one.tree.get? calleeNode with
      | none => rfl
      | some found =>
        simp only [Option.map_some, Node.rename, callee?_rename renumbers]
        cases named : one.callee? calleeNode found.payload with
        | none => rfl
        | some callee =>
          obtain ⟨_, known⟩ := exists_get?_of_callee? here named
          -- the arguments are handles of the call, and `concat` asks for their types
          have arguments_present : ∀ argument ∈ arguments,
              ∃ found, one.tree.get? argument = some found := by
            intro argument member
            have children := Context.children_of_callParts? parts
            exact renumbers.present (Tree.payload?_of_get? present) argument
              (by simp [children, member])
          exact congrArg Except.ok (recognizeCallee_rename renumbers callee
            ⟨call, callee.receiver, typeArguments, arguments⟩ (same known) arguments_present)

theorem recognizeProperty_rename (access : NodeId) :
    two.recognizeProperty (place access) = renameOutcome place (one.recognizeProperty access) := by
  rcases renumbers.lookup with ⟨unasked, unasked'⟩ | ⟨resolver, resolver', asked, asked', same⟩
  · simp [Context.recognizeProperty, unasked, unasked', renameOutcome, Recognition.rename]
  simp only [Context.recognizeProperty, asked, asked', renumbers.nodes access]
  cases one.tree.get? access with
  | none => rfl
  | some node =>
    simp only [Option.map_some, Node.rename]
    cases node.payload with
    | expr form =>
      cases form with
      | propertyAccess expression name =>
        simp only [Payload.rename, Expr.rename, renumbers.nodes.identifierText?_eq]
        cases named : one.tree.identifierText? name with
        | none => rfl
        | some text =>
          obtain ⟨found, present⟩ := exists_get?_of_identifierText? named
          simp only [Context.recognizeName, renumbers.catalog, same present]
          split
          · cases one.lookup resolver text name with
            | error cause => rfl
            | ok key =>
              cases known : one.catalog.properties.get? key with
              | none => simp [known, renameOutcome, Recognition.rename]
              | some idiom =>
                cases idiom
                simp [known, renameOutcome, Recognition.rename, PropertyIdiom.plan,
                  Directive.rename]
          · rfl
      | _ => rfl
    | _ => rfl

/-! ## Expressions -/

theorem testedTypePlan_rename (node : NodeId) :
    testedTypePlan two (place node) = (testedTypePlan one node).rename place := by
  refine renumbers.withPayload_eq fun found _ => ?_
  cases found.payload with
  | name form => exact renumbers.typeName_eq node
  | expr form =>
    cases form with
    | propertyAccess expression name =>
      simp [Payload.rename, Expr.rename, renumbers.typeName_eq, Directive.rename]
    | _ => rfl
  | _ => rfl

theorem binaryPlan_rename (node left : NodeId) (operator : BinaryOperator) (right : NodeId) :
    binaryPlan two (place node) (place left) operator (place right) =
      (binaryPlan one node left operator right).rename place := by
  cases operator <;>
    simp [binaryPlan, identicalPlan, operatorPlan, testedTypePlan_rename renumbers,
      Directive.rename]

theorem accessPlan_rename (node expression name : NodeId) :
    accessPlan two (place node) (place expression) (place name) =
      (accessPlan one node expression name).rename place := by
  rw [accessPlan, accessPlan, renumbers.nodes.identifierText?_eq,
    renumbers.hasAncestor_eq (Payload.isCatchClause_rename place),
    recognizeProperty_rename renumbers]
  split
  · rfl
  · simp [Directive.rename]

theorem Expr.plan_rename (node : NodeId) (form : Expr) :
    (form.rename place).plan two (place node) = (form.plan one node).rename place := by
  cases form with
  | binary left operator right => exact binaryPlan_rename renumbers node left operator right
  | propertyAccess expression name => exact accessPlan_rename renumbers node expression name
  | call expression typeArgs arguments =>
    simp [rename, plan, recognizeCall_rename renumbers, Directive.rename]
  | construct expression typeArgs arguments =>
    cases arguments <;>
      simp [rename, plan, recognizeCall_rename renumbers, renumbers.inConstContext_eq,
        Directive.rename]
  | _ => simp [rename, plan, operatorPlan, Directive.rename]

end

/-! ## Literals, statements and types -/

section

variable {place : NodeId → NodeId} {one two : Context} (renumbers : one.Renumbers place two)

include renumbers

theorem propertyKeyPlan_rename (name : NodeId) :
    propertyKeyPlan two (place name) = (propertyKeyPlan one name).rename place := by
  rw [propertyKeyPlan, propertyKeyPlan, renumbers.nodes.identifierText?_eq]
  cases one.tree.identifierText? name <;> rfl

theorem bracketedPlan_rename (node : NodeId) (opening closing : String) (items : List NodeId) :
    bracketedPlan two (place node) opening closing (items.map place) =
      (bracketedPlan one node opening closing items).rename place := by
  simp [bracketedPlan, renumbers.inConstContext_eq, Directive.rename]

theorem Literal.plan_rename (node : NodeId) (form : Literal) :
    (form.rename place).plan two (place node) = (form.plan one node).rename place := by
  cases form with
  | array elements => exact bracketedPlan_rename renumbers node _ _ elements
  | object properties => exact bracketedPlan_rename renumbers node _ _ properties
  | property name initializer | shorthandProperty name =>
    simp [rename, plan, propertyKeyPlan_rename renumbers, Directive.rename]
  | _ => simp [rename, plan, Directive.rename]

theorem catchPlan_rename (binding body : NodeId) :
    catchPlan two (place binding) (place body) = (catchPlan one binding body).rename place := by
  refine renumbers.withPayload_eq fun found _ => ?_
  have other := renumbers.unexpected_eq "VariableDeclaration" binding
  cases found.payload with
  | decl form =>
    cases form with
    | variableDecl name type initializer =>
      simp only [Payload.rename, Decl.rename, renumbers.nodes.identifierText?_eq]
      cases one.tree.identifierText? name with
      | none => exact renumbers.unexpected_eq "Identifier" name
      | some text => simp [catchBindingPlan, Directive.rename]
    | _ => exact other
  | _ => exact other

theorem Stmt.plan_rename (form : Stmt) :
    (form.rename place).plan two = (form.plan one).rename place := by
  cases form with
  | catchClause binding body => exact catchPlan_rename renumbers binding body
  | _ => simp [rename, plan, eachLoopPlan, jumpPlan, Directive.rename]

theorem appliedPlan_rename (expression : NodeId) :
    appliedPlan two (place expression) = (appliedPlan one expression).rename place := by
  refine renumbers.withPayload_eq fun found _ => ?_
  cases found.payload with
  | name form => exact renumbers.typeName_eq expression
  | _ => rfl

omit renumbers in
theorem Name.plan_rename (form : Name) : (form.rename place).plan = form.plan.rename place := by
  cases form <;> rfl

theorem TypeExpr.plan_rename (node : NodeId) (form : TypeExpr) :
    (form.rename place).plan two (place node) = (form.plan one node).rename place := by
  cases form <;>
    simp [rename, plan, renumbers.typeName_eq, appliedPlan_rename renumbers, Directive.rename]

/-! ## Declarations -/

/-- What renaming does to the outcome of collecting annotations. -/
theorem annotations_rename (declarations : List NodeId) :
    annotations two (declarations.map place) =
      match annotations one declarations with
      | .error stopped => .error (stopped.rename place)
      | .ok types => .ok (types.map (Option.map place)) := by
  induction declarations with
  | nil => rfl
  | cons declaration rest ih =>
    have other := renumbers.unexpected_eq "VariableDeclaration" declaration
    have here : (two.tree.get? (place declaration)).map Node.payload =
        ((one.tree.get? declaration).map Node.payload).map (Payload.rename place) :=
      renumbers.nodes.payload?_eq declaration
    simp only [List.map_cons, annotations, here, ih]
    cases (one.tree.get? declaration).map Node.payload with
    | none => simp [other]
    | some payload =>
      cases payload with
      | decl form =>
        cases form with
        | variableDecl name type initializer =>
          simp only [Option.map_some, Payload.rename, Decl.rename]
          cases annotations one rest <;> rfl
        | _ => simp [Payload.rename, Decl.rename, other]
      | _ => simp [Payload.rename, other]

theorem variableListPlan_rename (node : NodeId) (kind : VariableKind)
    (declarations : List NodeId) :
    variableListPlan two (place node) kind (declarations.map place) =
      (variableListPlan one node kind declarations).rename place := by
  rw [variableListPlan, variableListPlan, annotations_rename renumbers]
  cases annotations one declarations with
  | error stopped => rfl
  | ok types =>
    have annotated : (types.map (Option.map place)).any Option.isSome =
        types.any Option.isSome := by
      simp [List.any_map, Function.comp_def]
    have first : (types.map (Option.map place)).head?.join = types.head?.join.map place := by
      cases types <;> rfl
    simp only [List.length_map, annotated, first]
    split
    · rfl
    · cases types.head?.join <;> simp [variableLeadPlan, Directive.rename]

theorem parametersFrom_rename (isFirst isOpen : Bool) (parameters : List NodeId) :
    parametersFrom two isFirst isOpen (parameters.map place) =
      (parametersFrom one isFirst isOpen parameters).rename place := by
  induction parameters generalizing isFirst isOpen with
  | nil => exact (rename_tokenIf _ _).symm
  | cons parameter rest ih =>
    rw [List.map_cons, parametersFrom, parametersFrom, rename_append, rename_tokenIf]
    congr 1
    refine renumbers.withPayload_eq fun found _ => ?_
    simp [ih, Directive.rename]

theorem parametersPlan_rename (parameters : List NodeId) :
    parametersPlan two (parameters.map place) = (parametersPlan one parameters).rename place := by
  simp [parametersPlan, parametersFrom_rename renumbers, Directive.rename]

omit renumbers in
@[simp] theorem bodyPlan_rename (body : Option NodeId) :
    bodyPlan (body.map place) = (bodyPlan body).rename place := by
  cases body <;> rfl

omit renumbers in
@[simp] theorem typeOrVarPlan_rename (type : Option NodeId) :
    typeOrVarPlan (type.map place) = (typeOrVarPlan type).rename place := by
  cases type <;> rfl

omit renumbers in
@[simp] theorem classBodyPlan_rename (name : NodeId)
    (typeParameters heritage members : List NodeId) :
    classBodyPlan (place name) (typeParameters.map place) (heritage.map place)
        (members.map place) =
      (classBodyPlan name typeParameters heritage members).rename place := by
  simp [classBodyPlan, Directive.rename]

theorem parentPayload?_rename (node : NodeId) :
    two.parentPayload? (place node) = (one.parentPayload? node).map (Payload.rename place) := by
  rw [Context.parentPayload?, Context.parentPayload?, renumbers.nodes.parent?_eq]
  cases one.tree.parent? node with
  | none => rfl
  | some parent => exact renumbers.nodes.payload?_eq parent

theorem heritageWord_rename (node : NodeId) (word : HeritageWord) :
    heritageWord two (place node) word = heritageWord one node word := by
  cases word with
  | implementing => rfl
  | extending =>
    simp only [heritageWord, parentPayload?_rename renumbers]
    cases one.parentPayload? node with
    | none => rfl
    | some payload => simp

theorem className?_rename (node : NodeId) :
    className? two (place node) = className? one node := by
  rw [className?, className?, parentPayload?_rename renumbers]
  cases one.parentPayload? node with
  | none => rfl
  | some payload =>
    cases payload with
    | decl form =>
      cases form with
      | classDecl decorators isAbstract name typeParameters heritage members =>
        exact renumbers.nodes.identifierText?_eq name
      | _ => rfl
    | _ => rfl

theorem constructorPlan_rename (node : NodeId) (parameters : List NodeId) (body : Option NodeId) :
    constructorPlan two (place node) (parameters.map place) (body.map place) =
      (constructorPlan one node parameters body).rename place := by
  rw [constructorPlan, constructorPlan, className?_rename renumbers]
  cases className? one node with
  | none => exact renumbers.unexpected_eq "ClassDeclaration member" node
  | some name => simp [parametersPlan_rename renumbers, Directive.rename]

theorem memberFault?_rename (members : List NodeId) :
    memberFault? two (members.map place) =
      (memberFault? one members).map (Plan.rename place) := by
  induction members with
  | nil => rfl
  | cons member rest ih =>
    have here : (two.tree.get? (place member)).map Node.payload =
        ((one.tree.get? member).map Node.payload).map (Payload.rename place) :=
      renumbers.nodes.payload?_eq member
    simp only [List.map_cons, memberFault?, here, ih]
    cases (one.tree.get? member).map Node.payload with
    | none => rfl
    | some payload =>
      cases payload with
      | decl form =>
        cases form with
        | enumMember name initializer => cases initializer <;> rfl
        | _ => rfl
      | _ => rfl

theorem enumPlan_rename (name : NodeId) (members : List NodeId) :
    enumPlan two (place name) (members.map place) = (enumPlan one name members).rename place := by
  rw [enumPlan, enumPlan, memberFault?_rename renumbers]
  cases memberFault? one members with
  | none => simp [Directive.rename]
  | some fault => rfl

theorem libraryPlan_rename (specifier : NodeId) :
    libraryPlan two (place specifier) = (libraryPlan one specifier).rename place := by
  refine renumbers.withPayload_eq fun found _ => ?_
  have other := renumbers.unexpected_eq "StringLiteral" specifier
  cases found.payload with
  | literal form =>
    cases form with
    | string text => rfl
    | _ => exact other
  | _ => exact other

theorem Decl.plan_rename (node : NodeId) (form : Decl) :
    (form.rename place).plan two (place node) = (form.plan one node).rename place := by
  cases form with
  | variableList kind declarations =>
    exact variableListPlan_rename renumbers node kind declarations
  | constructorDecl parameters body => exact constructorPlan_rename renumbers node parameters body
  | enumDecl name members => exact enumPlan_rename renumbers name members
  | importDecl namedImports specifier =>
    cases namedImports <;>
      simp [rename, plan, libraryPlan_rename renumbers, Directive.rename]
  | importSpecifier propertyName name =>
    cases propertyName <;>
      simp [rename, plan, renumbers.typeName_eq, constructPlan, Directive.rename]
  | _ =>
    simp [rename, plan, parametersPlan_rename renumbers, renumbers.arrowBody_eq,
      heritageWord_rename renumbers, libraryPlan_rename renumbers, renumbers.typeName_eq,
      constructPlan, Directive.rename]

/-! ## All nodes -/

theorem Category.plan?_rename (category : Category) (node : NodeId) (payload : Payload) :
    category.plan? two (place node) (payload.rename place) =
      (category.plan? one node payload).map (Plan.rename place) := by
  cases category with
  | literals =>
    cases payload with
    | literal form => exact congrArg some (form.plan_rename renumbers node)
    | _ => rfl
  | expressions =>
    cases payload with
    | expr form => exact congrArg some (form.plan_rename renumbers node)
    | _ => rfl
  | statements =>
    cases payload with
    | stmt form => exact congrArg some (form.plan_rename renumbers)
    | _ => rfl
  | types =>
    cases payload with
    | name form => exact congrArg some form.plan_rename
    | type form => exact congrArg some (form.plan_rename renumbers node)
    | _ => rfl
  | declarations =>
    cases payload with
    | decl form => exact congrArg some (form.plan_rename renumbers node)
    | _ => rfl

/-- The plan of a node at its place is its plan, renamed. -/
theorem Context.Renumbers.planAt_eq (categories : List Category) (node : NodeId) (found : Node) :
    two.planAt categories (place node) (found.rename place) =
      (one.planAt categories node found).rename place := by
  have claimed : (categories.findSome? fun category =>
        category.plan? two (place node) (found.rename place).payload) =
      (categories.findSome? fun category => category.plan? one node found.payload).map
        (Plan.rename place) := by
    rw [List.map_findSome?]
    exact congrArg (List.findSome? · categories)
      (funext fun category => category.plan?_rename renumbers node found.payload)
  rw [Context.planAt, Context.planAt, claimed, ← rename_passPlan]
  cases categories.findSome? fun category => category.plan? one node found.payload <;> rfl

end

end Dartify
