import Dartify.Converter
import Dartify.Proofs.Chain

/-!
# What a conversion asks a resolver

A plan asks a resolver two things: the key of the symbol at a candidate name, and the key of the
type of an expression.  Two resolvers are *alike* in a context when they give the same answers to
these questions, whatever symbols they have and however they number them.  Alike resolvers give the
same plans (`Context.planAt_congr`), and so the same conversions (`Converter.convert_congr`).

Nothing else is asked, which is seen by going through the plans.  Those that never look at the
resolver do not change when it is replaced.
-/

namespace Dartify

open Plan

namespace Context

/-- The context with another resolver. -/
def withResolver (context : Context) (resolver : Option Resolver) : Context :=
  { context with resolver }

/-- A node has a name by which it may be in the catalog. -/
def IsCandidate (context : Context) (name : String) (node : NodeId) : Prop :=
  (∃ form, (context.tree.get? node).map Node.payload = some (.name form) ∧
    context.lastName form = name ∧ name ∈ context.catalog.typeCandidates) ∨
  (context.tree.identifierText? node = some name ∧ name ∈ context.catalog.propertyCandidates)

/-- Two resolvers give the same answers in a context. -/
structure Alike (context : Context) (one two : Resolver) : Prop where
  /-- Candidate names have the same key, or lack one for the same reason. -/
  names : ∀ {name : String} {node : NodeId}, context.IsCandidate name node →
    context.lookup one name node = context.lookup two name node
  /-- Types of expressions have the same key. -/
  types : ∀ node, (one.typeSymbolAt node).map (one.key · context.basePath) =
    (two.typeSymbolAt node).map (two.key · context.basePath)

end Context

variable {context : Context} {one two : Resolver} {resolver : Option Resolver}

/-! ## Plans that do not ask -/

namespace Context

@[simp] theorem tree_withResolver : (context.withResolver resolver).tree = context.tree := rfl

@[simp] theorem catalog_withResolver :
    (context.withResolver resolver).catalog = context.catalog := rfl

@[simp] theorem resolver_withResolver : (context.withResolver resolver).resolver = resolver := rfl

@[simp] theorem lookup_withResolver (name : String) (node : NodeId) :
    (context.withResolver resolver).lookup one name node = context.lookup one name node := rfl

@[simp] theorem callee?_withResolver (node : NodeId) (payload : Payload) :
    (context.withResolver resolver).callee? node payload = context.callee? node payload := by
  cases payload <;> rfl

end Context

theorem annotations_withResolver (declarations : List NodeId) :
    annotations (context.withResolver resolver) declarations =
      annotations context declarations := by
  induction declarations with
  | nil => rfl
  | cons declaration rest ih =>
    simp only [annotations, ih]
    rfl

theorem parametersFrom_withResolver (isFirst isOpen : Bool) (parameters : List NodeId) :
    parametersFrom (context.withResolver resolver) isFirst isOpen parameters =
      parametersFrom context isFirst isOpen parameters := by
  induction parameters generalizing isFirst isOpen with
  | nil => rfl
  | cons parameter rest ih =>
    simp only [parametersFrom, ih]
    rfl

theorem memberFault?_withResolver (members : List NodeId) :
    memberFault? (context.withResolver resolver) members = memberFault? context members := by
  induction members with
  | nil => rfl
  | cons member rest ih =>
    simp only [memberFault?, ih]
    rfl

theorem parametersPlan_withResolver (parameters : List NodeId) :
    parametersPlan (context.withResolver resolver) parameters =
      parametersPlan context parameters := by
  simp only [parametersPlan, parametersFrom_withResolver]

theorem Literal.plan_withResolver (node : NodeId) (form : Literal) :
    form.plan (context.withResolver resolver) node = form.plan context node := by
  cases form <;> rfl

theorem Stmt.plan_withResolver (form : Stmt) :
    form.plan (context.withResolver resolver) = form.plan context := by
  cases form <;> rfl

/-! ## Plans that ask -/

/-- A look-up depends on the key of the symbol at its node. -/
theorem Context.lookup_congr {node : NodeId}
    (same : (one.symbolAt node).map (one.key · context.basePath) =
      (two.symbolAt node).map (two.key · context.basePath)) (name : String) :
    context.lookup one name node = context.lookup two name node := by
  unfold lookup
  cases first : one.symbolAt node <;> cases second : two.symbolAt node <;>
    simp_all

/-- With a resolver, a name that is a candidate is written as its key says. -/
theorem typeName_of_name {node : NodeId} {found : Node} {form : Name}
    (present : context.tree.get? node = some found) (held : found.payload = .name form) :
    typeName (context.withResolver (some one)) node =
      if context.lastName form ∈ context.catalog.typeCandidates then
        match context.lookup one (context.lastName form) node with
        | .error cause => [.complain node cause]
        | .ok key =>
          match context.catalog.typeNames.get? key with
          | some replacement => [.token replacement]
          | none => [.child node]
      else [.child node] := by
  obtain ⟨payload, pos, stop, parent⟩ := found
  cases held
  simp only [typeName, withPayload, Context.withResolver, present]
  rfl

/-- A callee that is found by its name is a candidate when the catalog knows the name. -/
theorem Context.isCandidate_of_callee? {node : NodeId} {found : Node} {callee : Callee}
    (present : context.tree.get? node = some found)
    (named : context.callee? node found.payload = some callee)
    (candidate : callee.name ∈ context.catalog.propertyCandidates) :
    context.IsCandidate callee.name callee.node := by
  refine .inr ⟨?_, candidate⟩
  obtain ⟨payload, pos, stop, parent⟩ := found
  unfold callee? at named
  split at named
  · rename_i text held
    cases held
    cases named
    simp only [Tree.identifierText?, present]
  · obtain ⟨text, held, rfl⟩ := Option.map_eq_some_iff.mp named
    exact held
  · cases named

section

variable (alike : context.Alike one two)

include alike

theorem isNamedType_congr (node : NodeId) (modulePath name : String) :
    (context.withResolver (some one)).isNamedType node modulePath name =
      (context.withResolver (some two)).isNamedType node modulePath name := by
  have same := alike.types node
  simp only [Context.isNamedType, Context.withResolver]
  cases first : one.typeSymbolAt node <;> cases second : two.typeSymbolAt node <;>
    simp_all

theorem typeName_congr (node : NodeId) :
    typeName (context.withResolver (some one)) node =
      typeName (context.withResolver (some two)) node := by
  cases present : context.tree.get? node with
  | none => simp only [typeName, withPayload, Context.withResolver, present]
  | some found =>
    cases held : found.payload with
    | name form =>
      rw [typeName_of_name present held, typeName_of_name present held]
      split
      · rename_i candidate
        rw [alike.names (.inl ⟨form, by simp [present, held], rfl, candidate⟩)]
      · rfl
    | _ => simp only [typeName, withPayload, Context.withResolver, present, held]

theorem concatArgumentPlan_congr (argument : NodeId) :
    concatArgumentPlan (context.withResolver (some one)) argument =
      concatArgumentPlan (context.withResolver (some two)) argument := by
  rw [concatArgumentPlan, concatArgumentPlan, isNamedType_congr alike]

theorem CallIdiom.plan?_congr (site : CallSite) (idiom : CallIdiom) :
    idiom.plan? (context.withResolver (some one)) site =
      idiom.plan? (context.withResolver (some two)) site := by
  cases idiom with
  | arrayConcat =>
    simp only [CallIdiom.plan?, concatPlan, funext (concatArgumentPlan_congr alike)]
  | _ => rfl

theorem recognizeCallee_congr {callee : Callee}
    (candidate : callee.name ∈ context.catalog.propertyCandidates →
      context.IsCandidate callee.name callee.node) (site : CallSite) :
    (context.withResolver (some one)).recognizeCallee one callee site =
      (context.withResolver (some two)).recognizeCallee two callee site := by
  by_cases known : callee.name ∈ context.catalog.propertyCandidates
  · simp only [Context.recognizeCallee, Context.catalog_withResolver, known, if_true,
      Context.lookup_withResolver, alike.names (candidate known),
      funext (CallIdiom.plan?_congr alike site)]
  · simp only [Context.recognizeCallee, Context.catalog_withResolver, known, if_false]

theorem recognizeCall_congr (call : NodeId) :
    (context.withResolver (some one)).recognizeCall call =
      (context.withResolver (some two)).recognizeCall call := by
  simp only [Context.recognizeCall, Context.tree_withResolver, Context.resolver_withResolver,
    Context.callee?_withResolver]
  split
  · rfl
  split
  · rfl
  split
  · rfl
  rename_i found present
  split
  · rfl
  rename_i callee named
  rw [recognizeCallee_congr alike (Context.isCandidate_of_callee? present named)]

theorem recognizeName_congr {name : NodeId} {text : String}
    (named : context.tree.identifierText? name = some text) (access expression : NodeId) :
    (context.withResolver (some one)).recognizeName one access expression name text =
      (context.withResolver (some two)).recognizeName two access expression name text := by
  by_cases known : text ∈ context.catalog.propertyCandidates
  · simp only [Context.recognizeName, Context.catalog_withResolver, known, if_true,
      Context.lookup_withResolver, alike.names (.inr ⟨named, known⟩)]
  · simp only [Context.recognizeName, Context.catalog_withResolver, known, if_false]

theorem recognizeProperty_congr (access : NodeId) :
    (context.withResolver (some one)).recognizeProperty access =
      (context.withResolver (some two)).recognizeProperty access := by
  simp only [Context.recognizeProperty, Context.tree_withResolver, Context.resolver_withResolver]
  split
  · rfl
  split
  · split
    · rfl
    · rename_i named
      rw [recognizeName_congr alike named]
  · rfl

end

/-! ## All plans -/

section

variable {other : Option Resolver}
  (named : ∀ name, typeName (context.withResolver resolver) name =
    typeName (context.withResolver other) name)

include named

theorem TypeExpr.plan_congr (node : NodeId) (form : TypeExpr) :
    form.plan (context.withResolver resolver) node =
      form.plan (context.withResolver other) node := by
  cases form with
  | reference name arguments => simp only [TypeExpr.plan, named]
  | applied expression arguments =>
    simp only [TypeExpr.plan, appliedPlan, named]
    rfl
  | _ => rfl

theorem Decl.plan_congr (node : NodeId) (form : Decl) :
    form.plan (context.withResolver resolver) node =
      form.plan (context.withResolver other) node := by
  cases form with
  | variableList kind declarations =>
    simp only [Decl.plan, variableListPlan, annotations_withResolver]
  | enumDecl name members => simp only [Decl.plan, enumPlan, memberFault?_withResolver]
  | constructorDecl parameters body =>
    simp only [Decl.plan, constructorPlan, parametersPlan_withResolver]
    rfl
  | function _ _ _ _ _ | functionExpr _ _ _ _ | method _ _ _ _ _ _ | methodSignature _ _ _ =>
    simp only [Decl.plan, parametersPlan_withResolver]
  | arrow parameters result body =>
    simp only [Decl.plan, parametersPlan_withResolver]
    rfl
  | importSpecifier propertyName name => simp only [Decl.plan, named]
  | importEquals name specifier =>
    simp only [Decl.plan, named]
    rfl
  | _ => rfl

variable {node : NodeId}
  (properties : (context.withResolver resolver).recognizeProperty node =
    (context.withResolver other).recognizeProperty node)
  (calls : (context.withResolver resolver).recognizeCall node =
    (context.withResolver other).recognizeCall node)

include properties calls

theorem Expr.plan_congr (form : Expr) :
    form.plan (context.withResolver resolver) node =
      form.plan (context.withResolver other) node := by
  cases form with
  | binary left operator right =>
    cases operator with
    | instanceOf =>
      simp only [Expr.plan, binaryPlan, testedTypePlan, named]
      rfl
    | _ => rfl
  | propertyAccess expression name =>
    simp only [Expr.plan, accessPlan, properties]
    rfl
  | call expression typeArguments arguments =>
    simp only [Expr.plan, calls]
  | construct expression typeArguments arguments =>
    simp only [Expr.plan, calls]
    rfl
  | _ => rfl

/-- The plans of a node are the same when the names below it and the node itself are recognized
alike. -/
theorem Category.plan?_congr (payload : Payload) (category : Category) :
    category.plan? (context.withResolver resolver) node payload =
      category.plan? (context.withResolver other) node payload := by
  cases category <;> cases payload <;>
    simp only [Category.plan?, Literal.plan_withResolver, Stmt.plan_withResolver,
      Expr.plan_congr named properties calls, TypeExpr.plan_congr named, Decl.plan_congr named]

end

/-- Alike resolvers give the same plans. -/
theorem Context.planAt_congr (alike : context.Alike one two) (categories : List Category)
    (node : NodeId) (found : Node) :
    (context.withResolver (some one)).planAt categories node found =
      (context.withResolver (some two)).planAt categories node found := by
  simp only [Context.planAt, Category.plan?_congr (typeName_congr alike)
    (recognizeProperty_congr alike node) (recognizeCall_congr alike node)]

/-! ## Walks and conversions -/

theorem Run.perform_withResolver {σ : Type} (walk : NodeId → Run σ Unit) (plan : Plan) :
    perform (context.withResolver resolver) walk plan = perform context walk plan := by
  induction plan with
  | nil => rfl
  | cons directive rest ih =>
    have first : direct (context.withResolver resolver) walk directive =
        direct context walk directive := by
      cases directive <;> rfl
    simp only [perform, first, ih]

theorem Import.needed_withResolver (root : NodeId) :
    needed (context.withResolver resolver) root = needed context root := by
  have collected : ∀ budget, collect (context.withResolver resolver) budget =
      collect context budget := by
    intro budget
    induction budget with
    | zero => rfl
    | succ budget ih =>
      funext targets node
      simp only [collect, ih]
      rfl
  simp only [needed, collected]
  rfl

/-- Alike resolvers make no difference to a walk with built-in stages. -/
theorem Run.walkWithin_congr {σ : Type} (alike : context.Alike one two)
    (categories : List Category) (budget : Nat) (node : NodeId) :
    walkWithin (context.withResolver (some one)) (categories.map (Category.stage σ)) budget node =
      walkWithin (context.withResolver (some two)) (categories.map (Category.stage σ)) budget
        node := by
  induction budget generalizing node with
  | zero => rfl
  | succ budget ih =>
    cases present : context.tree.get? node with
    | none => simp only [walkWithin, Context.tree_withResolver, present]
    | some found =>
      have step : ∀ resolver, (context.withResolver resolver).tree.get? node = some found :=
        fun resolver => present
      rw [walkWithin_succ categories budget (step _), walkWithin_succ categories budget (step _),
        perform_withResolver, perform_withResolver, Context.planAt_congr alike, funext ih]

namespace Converter

/-- The context of a unit has the resolver of the unit when idioms are used. -/
theorem context_of_resolver {σ : Type} (converter : Converter σ) (unit : SourceUnit)
    (resolver : Resolver) :
    converter.context { unit with resolver := some resolver } =
      (converter.context unit).withResolver
        (if converter.options.useIdioms then some resolver else none) := rfl

/-- Alike resolvers make no difference to a conversion with built-in stages. -/
theorem convert_congr {categories : List Category} {options : Options} {unit : SourceUnit}
    (alike : ((ofCategories Unit categories options).context unit).Alike one two) :
    (ofCategories Unit categories options).convert { unit with resolver := some one } =
      (ofCategories Unit categories options).convert { unit with resolver := some two } := by
  let converter := ofCategories Unit categories options
  have walks : ∀ used : Bool,
      Run.walk ((converter.context unit).withResolver (if used then some one else none))
        converter.stages unit.root =
      Run.walk ((converter.context unit).withResolver (if used then some two else none))
        converter.stages unit.root := by
    intro used
    cases used with
    | false => rfl -- no resolver is asked
    | true => exact Run.walkWithin_congr alike categories _ unit.root
  have bodies : converter.body { unit with resolver := some one } =
      converter.body { unit with resolver := some two } := by
    simp only [body, context_of_resolver, Run.writeImports, Import.needed_withResolver, walks]
  show converter.convert { unit with resolver := some one } =
    converter.convert { unit with resolver := some two }
  simp only [convert, run, bodies]

end Converter

end Dartify
