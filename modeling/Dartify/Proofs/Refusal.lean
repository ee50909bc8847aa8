import Dartify.Proofs.Success
import Dartify.Proofs.Visits

/-!
# Refusals

A node is *refused* when nothing is written for it.  Constructs without a Dart form are refused, and
so are library names without a key and library calls whose arguments the idiom cannot take.
`Context.Refuses` lists the cases, with the node at which the diagnostic is made and its cause.  For
all but an enumeration that is the refused node itself; an enumeration is refused at its first
initialized member.  A type name is not offered to the stages but written by the node it belongs to,
so `Context.RefusesName` stands apart.

The checks come before everything else in a plan, so the plan of a refused node is one complaint and
nothing more (`Context.Refuses.planAt_eq`).  Hence a refusal changes nothing in the run except that
it adds one diagnostic, and no other node is walked for it (`refusal_atomic`).
-/

namespace Dartify

open Plan

/-- The arguments that an idiom cannot do without: the name that its callee is reported by, and how
many there have to be. -/
def CallIdiom.required? : CallIdiom → Option (String × Nat)
  | .arrayReduce => some ("Array.reduce", 1)
  | .arrayIsArray => some ("Array.isArray", 1)
  | .arrayFind => some ("Array.find", 1)
  | .mapSet => some ("Map.set", 2)
  | .mapGet => some ("Map.get", 1)
  | .mapForEach => some ("Map.forEach", 1)
  | .forwardRef => some ("forwardRef", 1)
  | _ => none

namespace Context

/-! ## Refused nodes -/

/-- The name at a node leads to no key, with the complaint that is made about it. -/
inductive Unkeyed (context : Context) (name : String) (node : NodeId) : Complaint → Prop where
  /-- No symbol is bound at the node. -/
  | unbound {resolver : Resolver} (resolved : context.resolver = some resolver)
      (unbound : resolver.symbolAt node = none) : Unkeyed context name node (.untyped name)
  /-- Nothing is known about the symbol. -/
  | unknown {resolver : Resolver} {id : SymbolId} (resolved : context.resolver = some resolver)
      (bound : resolver.symbolAt node = some id)
      (unknown : resolver.symbol (resolver.terminal id) = none) :
      Unkeyed context name node (.undeclared name)
  /-- The symbol is declared nowhere. -/
  | undeclared {resolver : Resolver} {id : SymbolId} {symbol : Symbol}
      (resolved : context.resolver = some resolver) (bound : resolver.symbolAt node = some id)
      (known : resolver.symbol (resolver.terminal id) = some symbol)
      (nowhere : symbol.declarations = []) : Unkeyed context name node (.undeclared name)

/-- A node is refused, with a diagnostic at a place. -/
inductive Refuses (context : Context) (node : NodeId) : NodeId → Complaint → Prop where
  /-- The operator `in`. -/
  | within {left right : NodeId}
      (held : context.tree.payload? node = some (.expr (.binary left .within right))) :
      Refuses context node node (.operator "in")
  /-- The operator `delete`. -/
  | delete {operand : NodeId} (held : context.tree.payload? node = some (.expr (.delete operand))) :
      Refuses context node node (.operator "delete")
  /-- The operator `void`. -/
  | void {operand : NodeId} (held : context.tree.payload? node = some (.expr (.void operand))) :
      Refuses context node node (.operator "void")
  /-- The operator `typeof`. -/
  | typeOf {operand : NodeId} (held : context.tree.payload? node = some (.expr (.typeOf operand))) :
      Refuses context node node (.operator "typeof")
  /-- A function type. -/
  | functionType {typeParameters parameters : List NodeId} {result : NodeId}
      (held : context.tree.payload? node =
        some (.type (.function typeParameters parameters result))) :
      Refuses context node node .inlineFunctionType
  /-- A namespace. -/
  | namespaceDecl {name : NodeId} {body : List NodeId}
      (held : context.tree.payload? node = some (.decl (.namespaceDecl name body))) :
      Refuses context node node (.construct "namespaces")
  /-- A list of several variables with an annotation. -/
  | variableList {kind : VariableKind} {declarations : List NodeId}
      (held : context.tree.payload? node = some (.decl (.variableList kind declarations)))
      (several : 1 < declarations.length)
      (declared : ∀ declaration ∈ declarations, ∃ payload,
        context.tree.payload? declaration = some payload ∧ payload.isVariable = true)
      (annotated : ∃ declaration ∈ declarations, context.tree.isAnnotated declaration = true) :
      Refuses context node node (.construct "typed variable declaration lists")
  /-- A renamed import. -/
  | importSpecifier {property name : NodeId}
      (held : context.tree.payload? node = some (.decl (.importSpecifier (some property) name))) :
      Refuses context node node (.construct "import renames")
  /-- An enumeration with an initialized member, refused at the first such member. -/
  | enumDecl {name member : NodeId} {before after : List NodeId}
      (held : context.tree.payload? node =
        some (.decl (.enumDecl name (before ++ member :: after))))
      (plain : ∀ other ∈ before, context.tree.payload? other ≠ none ∧
        context.tree.isInitialized other = false)
      (initialized : context.tree.isInitialized member = true) :
      Refuses context node member (.construct "enum initializers")
  /-- A call or a construction whose callee goes by a candidate name without a key. -/
  | unkeyedCall {payload calleePayload : Payload} {calleeNode : NodeId}
      {typeArguments arguments : List NodeId} {callee : Callee} {cause : Complaint}
      (held : context.tree.payload? node = some payload)
      (parts : callParts? payload = some (calleeNode, typeArguments, arguments))
      (called : context.tree.payload? calleeNode = some calleePayload)
      (named : context.callee? calleeNode calleePayload = some callee)
      (candidate : callee.name ∈ context.catalog.propertyCandidates)
      (unkeyed : context.Unkeyed callee.name callee.node cause) : Refuses context node node cause
  /-- An access to a property with a candidate name without a key, which is not the stack trace of a
  catch clause. -/
  | unkeyedAccess {expression name : NodeId} {text : String} {cause : Complaint}
      (held : context.tree.payload? node = some (.expr (.propertyAccess expression name)))
      (named : context.tree.identifierText? name = some text)
      (ordinary : text = "stack" → context.tree.hasAncestor node Payload.isCatchClause = false)
      (candidate : text ∈ context.catalog.propertyCandidates)
      (unkeyed : context.Unkeyed text name cause) : Refuses context node node cause
  /-- A library call with too few arguments. -/
  | tooFew {site : CallSite} {idiom : CallIdiom} {callee : String} {count : Nat}
      (here : context.IdiomAt node site idiom) (needs : idiom.required? = some (callee, count))
      (few : site.arguments.length < count) :
      Refuses context node node (.missingArguments callee count)
  /-- A call of `Map.forEach` whose callback is a function without exactly two parameters. -/
  | forEachParameters {site : CallSite} {callback : NodeId} {others parameters : List NodeId}
      {result : Option NodeId} {body : NodeId}
      (here : context.IdiomAt node site .mapForEach) (given : site.arguments = callback :: others)
      (function :
        (∃ name, context.tree.payload? callback =
          some (.decl (.functionExpr name parameters result body))) ∨
        context.tree.payload? callback = some (.decl (.arrow parameters result body)))
      (arity : parameters.length ≠ 2) : Refuses context node node .forEachParameters
  /-- A call of `forwardRef` with something else than an arrow function. -/
  | forwardRefArgument {site : CallSite} {argument : NodeId} {others : List NodeId}
      {payload : Payload} (here : context.IdiomAt node site .forwardRef)
      (given : site.arguments = argument :: others)
      (held : context.tree.payload? argument = some payload)
      (other : ∀ parameters result body, payload ≠ .decl (.arrow parameters result body)) :
      Refuses context node node .forwardRefArgument

/-- A type name is refused: it has a candidate name without a key. -/
structure RefusesName (context : Context) (node : NodeId) (cause : Complaint) : Prop where
  /-- The node is a name whose last part is a candidate and has no key. -/
  unkeyed : ∃ form, context.tree.payload? node = some (.name form) ∧
    context.lastName form ∈ context.catalog.typeCandidates ∧
    context.Unkeyed (context.lastName form) node cause

/-! ## Library names -/

variable {context : Context} {node place : NodeId} {name : String} {cause : Complaint}

theorem Unkeyed.lookup_eq (unkeyed : context.Unkeyed name node cause) :
    ∃ resolver, context.resolver = some resolver ∧
      context.lookup resolver name node = .error cause := by
  cases unkeyed with
  | unbound resolved unbound =>
    exact ⟨_, resolved, by simp [lookup, unbound]⟩
  | unknown resolved bound unknown =>
    exact ⟨_, resolved, by simp [lookup, bound, Resolver.key, unknown]⟩
  | undeclared resolved bound known nowhere =>
    rename_i symbol
    have first : symbol.primary? = none := by simp [Symbol.primary?, nowhere]
    exact ⟨_, resolved, by simp [lookup, bound, Resolver.key, known, first]⟩

theorem RefusesName.typeName_eq (refused : context.RefusesName node cause) :
    typeName context node = [.complain node cause] := by
  obtain ⟨form, held, candidate, unkeyed⟩ := refused.unkeyed
  obtain ⟨found, present, content⟩ := Tree.payload?_eq_some.mp held
  obtain ⟨resolver, resolved, failed⟩ := unkeyed.lookup_eq
  simp [typeName, withPayload, present, content, resolved, candidate, failed]

/-! ## Library calls -/

/-- The plan of a call is what is recognized in it, if anything is. -/
theorem planAt_of_recognizeCall {categories : List Category} (member : .expressions ∈ categories)
    {found : Node} {parts : NodeId × List NodeId × List NodeId} {plan : Plan}
    (call : callParts? found.payload = some parts)
    (settled : context.recognizeCall node = .ok (.unresolved plan) ∨
      context.recognizeCall node = .ok (.recognized plan)) :
    context.planAt categories node found = plan := by
  refine planAt_of_mem member ?_
  cases held : found.payload with
  | expr form =>
    cases form with
    | call | construct =>
      rcases settled with outcome | outcome <;>
        simp [Category.plan?, Expr.plan, outcome, ofRecognition]
    | _ =>
      rw [held] at call
      cases call
  | _ =>
    rw [held] at call
    cases call

/-- A callee whose key is in the catalog goes by a candidate name, so its call has the idiom. -/
theorem idiomAt_of_key {resolver : Resolver} {payload calleePayload : Payload}
    {calleeNode : NodeId} {typeArguments arguments : List NodeId} {idiom : CallIdiom}
    (callee : Callee) (key : SymbolKey) (entry : context.catalog.calls.get? key = some idiom)
    (resolved : context.resolver = some resolver)
    (held : context.tree.payload? node = some payload)
    (parts : callParts? payload = some (calleeNode, typeArguments, arguments))
    (called : context.tree.payload? calleeNode = some calleePayload)
    (named : context.callee? calleeNode calleePayload = some callee)
    (known : context.lookup resolver callee.name callee.node = .ok key)
    (last : Table.lastDotted key.name = callee.name) :
    context.IdiomAt node ⟨node, callee.receiver, typeArguments, arguments⟩ idiom := by
  have candidate : callee.name ∈ context.catalog.propertyCandidates := by
    obtain ⟨before, after, listed, -⟩ := List.lookup_eq_some_iff.mp entry
    refine List.mem_append_left _ (List.mem_map.mpr ⟨(key, idiom), ?_, last⟩)
    rw [listed]
    exact List.mem_append_right _ (List.mem_cons_self ..)
  exact ⟨rfl, resolver, payload, calleeNode, calleePayload, callee, key, resolved, held, parts,
    called, named, rfl, candidate, known, entry⟩

theorem IdiomAt.recognizeCall_eq {site : CallSite} {idiom : CallIdiom} {plan : Plan}
    (here : context.IdiomAt node site idiom) (planned : idiom.plan? context site = some plan) :
    context.recognizeCall node = .ok (.recognized plan) := by
  obtain ⟨rfl, resolver, payload, calleeNode, calleePayload, callee, key, resolved, held, parts,
    called, named, receiver, candidate, known, entry⟩ := here
  obtain ⟨found, present, rfl⟩ := Tree.payload?_eq_some.mp held
  obtain ⟨calleeFound, calleePresent, rfl⟩ := Tree.payload?_eq_some.mp called
  simp only [recognizeCall, resolved, present, parts, calleePresent, named, recognizeCallee,
    candidate, known, entry, ← receiver, Option.bind_some, planned, if_true]

/-- A call with an idiom has the plan of the idiom. -/
theorem IdiomAt.exists_planAt {site : CallSite} {idiom : CallIdiom} {plan : Plan}
    (here : context.IdiomAt node site idiom) (planned : idiom.plan? context site = some plan)
    {categories : List Category} (member : .expressions ∈ categories) :
    ∃ found, context.tree.get? node = some found ∧
      context.planAt categories node found = plan := by
  obtain ⟨_, payload, _, _, _, _, _, held, parts, -⟩ := here.listed
  obtain ⟨found, present, rfl⟩ := Tree.payload?_eq_some.mp held
  exact ⟨found, present,
    planAt_of_recognizeCall member parts (.inr (here.recognizeCall_eq planned))⟩

end Context

/-- Every idiom that needs arguments complains about a call with too few of them. -/
theorem CallIdiom.plan?_of_tooFew (context : Context) {site : CallSite} {idiom : CallIdiom}
    {callee : String} {count : Nat} (needs : idiom.required? = some (callee, count))
    (few : site.arguments.length < count) :
    idiom.plan? context site = some (tooFew site callee count) := by
  cases idiom <;> cases needs
  case mapSet =>
    match given : site.arguments with
    | [] | [_] => simp [CallIdiom.plan?, given]
    | _ :: _ :: _ =>
      rw [given, List.length_cons, List.length_cons] at few
      omega
  all_goals
    have empty : site.arguments = [] := List.length_eq_zero_iff.mp (Nat.lt_one_iff.mp few)
    simp [CallIdiom.plan?, reducePlan, empty]

section

variable {context : Context} {node : NodeId} {site : CallSite}

theorem forEachPlan_of_arity {callback body : NodeId} {parameters : List NodeId}
    {result : Option NodeId}
    (function :
      (∃ name, context.tree.payload? callback =
        some (.decl (.functionExpr name parameters result body))) ∨
      context.tree.payload? callback = some (.decl (.arrow parameters result body)))
    (arity : parameters.length ≠ 2) :
    forEachPlan context site callback = [.complain site.node .forEachParameters] := by
  have refused : ∀ inner : Plan, forEachFunctionPlan site parameters inner =
      [.complain site.node .forEachParameters] := by
    intro inner
    unfold forEachFunctionPlan
    split
    · exact absurd rfl arity
    · rfl
  rcases function with ⟨name, held⟩ | held
  all_goals
    obtain ⟨found, present, content⟩ := Tree.payload?_eq_some.mp held
    simp only [forEachPlan, withPayload, present, content, refused]

theorem forwardRefPlan_of_other {argument : NodeId} {payload : Payload}
    (held : context.tree.payload? argument = some payload)
    (other : ∀ parameters result body, payload ≠ .decl (.arrow parameters result body)) :
    forwardRefPlan context site argument = [.complain site.node .forwardRefArgument] := by
  obtain ⟨found, present, rfl⟩ := Tree.payload?_eq_some.mp held
  simp only [forwardRefPlan, withPayload, present]

/-! ## Lists of variables and enumerations -/

theorem variableListPlan_of_annotated {kind : VariableKind} {declarations : List NodeId}
    (several : 1 < declarations.length)
    (declared : ∀ declaration ∈ declarations, ∃ payload,
      context.tree.payload? declaration = some payload ∧ payload.isVariable = true)
    (annotated : ∃ declaration ∈ declarations, context.tree.isAnnotated declaration = true) :
    variableListPlan context node kind declarations =
      constructPlan node "typed variable declaration lists" := by
  unfold variableListPlan
  cases collected : annotations context declarations with
  | error stopped =>
    obtain ⟨declaration, member, -, other⟩ := annotations_error collected
    obtain ⟨payload, held, isVariable⟩ := declared declaration member
    rw [other payload held] at isVariable
    cases isVariable
  | ok types =>
    have many : 1 < types.length := (annotations_ok collected).length_eq ▸ several
    have annotation : types.any Option.isSome = true := by
      rw [← any_isAnnotated collected]
      exact List.any_eq_true.mpr annotated
    simp [many, annotation]

/-- Members without initializers are passed over until the first that has one. -/
theorem memberFault?_of_initialized {before after : List NodeId} {member : NodeId}
    (plain : ∀ other ∈ before, context.tree.payload? other ≠ none ∧
      context.tree.isInitialized other = false)
    (initialized : context.tree.isInitialized member = true) :
    memberFault? context (before ++ member :: after) =
      some (constructPlan member "enum initializers") := by
  induction before with
  | nil =>
    simp only [Tree.isInitialized] at initialized
    split at initialized
    · rename_i label initializer held
      obtain ⟨value, rfl⟩ := Option.isSome_iff_exists.mp initialized
      simp only [List.nil_append, memberFault?, show Option.map _ _ = _ from held]
    · cases initialized
  | cons other rest ih =>
    have onward := ih fun later member => plain later (List.mem_cons_of_mem _ member)
    obtain ⟨present, bare⟩ := plain other (List.mem_cons_self ..)
    rw [List.cons_append, memberFault?]
    split
    · rename_i missing
      exact absurd missing present
    · rename_i label value held
      rw [Tree.isInitialized, show context.tree.payload? other = _ from held] at bare
      cases bare
    · exact onward

end

/-! ## Plans of refused nodes -/

namespace Context

variable {context : Context} {node place : NodeId} {cause : Complaint}

theorem exists_planAt (category : Category) {payload : Payload} {plan : Plan}
    (held : context.tree.payload? node = some payload)
    (planned : category.plan? context node payload = some plan) :
    ∃ found, context.tree.get? node = some found ∧
      context.planAt Category.all node found = plan := by
  obtain ⟨found, present, rfl⟩ := Tree.payload?_eq_some.mp held
  have member : category ∈ Category.all := by cases category <;> decide
  exact ⟨found, present, planAt_of_mem member planned⟩

theorem transcriptWithin_of_payload (category : Category) {budget : Nat} {payload : Payload}
    {plan : Plan} (held : context.tree.payload? node = some payload)
    (planned : category.plan? context node payload = some plan) :
    context.transcriptWithin Category.all (budget + 1) node =
      plan.transcript context (context.transcriptWithin Category.all budget) := by
  obtain ⟨found, present, same⟩ := exists_planAt category held planned
  simp only [transcriptWithin, present, same]

/-- The plan of a refused node is the complaint. -/
theorem Refuses.planAt_eq (refused : context.Refuses node place cause) :
    ∃ found, context.tree.get? node = some found ∧
      context.planAt Category.all node found = [.complain place cause] := by
  have member : Category.expressions ∈ Category.all := by decide
  cases refused with
  | within held | delete held | void held | typeOf held =>
    exact exists_planAt .expressions held rfl
  | functionType held => exact exists_planAt .types held rfl
  | namespaceDecl held | importSpecifier held =>
    exact exists_planAt .declarations held rfl
  | variableList held several declared annotated =>
    refine exists_planAt .declarations held ?_
    simp [Category.plan?, Decl.plan, variableListPlan_of_annotated several declared annotated,
      constructPlan]
  | enumDecl held plain initialized =>
    refine exists_planAt .declarations held ?_
    simp [Category.plan?, Decl.plan, enumPlan, memberFault?_of_initialized plain initialized,
      constructPlan]
  | unkeyedAccess held named ordinary candidate unkeyed =>
    obtain ⟨found, present, content⟩ := Tree.payload?_eq_some.mp held
    obtain ⟨resolver, resolved, failed⟩ := unkeyed.lookup_eq
    have recognized :
        context.recognizeProperty node = .ok (.unresolved [.complain node cause]) := by
      simp [recognizeProperty, resolved, present, content, named, recognizeName, candidate, failed]
    refine exists_planAt .expressions held ?_
    simpa [Category.plan?, Expr.plan, accessPlan, named, recognized, ofRecognition] using ordinary
  | unkeyedCall held parts called named candidate unkeyed =>
    obtain ⟨found, present, rfl⟩ := Tree.payload?_eq_some.mp held
    obtain ⟨calleeFound, calleePresent, rfl⟩ := Tree.payload?_eq_some.mp called
    obtain ⟨resolver, resolved, failed⟩ := unkeyed.lookup_eq
    refine ⟨found, present, planAt_of_recognizeCall member parts (.inl ?_)⟩
    simp [recognizeCall, resolved, present, parts, calleePresent, named, recognizeCallee, candidate,
      failed]
  | tooFew here needs few =>
    have planned := CallIdiom.plan?_of_tooFew context needs few
    rw [Plan.tooFew, here.node_eq] at planned
    exact here.exists_planAt planned member
  | forEachParameters here given function arity =>
    refine here.exists_planAt ?_ member
    simp only [CallIdiom.plan?, given, forEachPlan_of_arity function arity, here.node_eq]
  | forwardRefArgument here given held other =>
    refine here.exists_planAt ?_ member
    simp only [CallIdiom.plan?, given, forwardRefPlan_of_other held other, here.node_eq]

/-- The diagnostic of a refusal is made at the node itself, or at a member of an enumeration. -/
theorem Refuses.place_cases (refused : context.Refuses node place cause) :
    place = node ∨ context.tree.isInitialized place = true := by
  cases refused with
  | enumDecl held plain initialized => exact .inr initialized
  | _ => exact .inl rfl

/-- The place of a refusal is in the tree. -/
theorem Refuses.exists_place (refused : context.Refuses node place cause) :
    ∃ found, context.tree.get? place = some found := by
  rcases refused.place_cases with rfl | initialized
  · obtain ⟨found, present, -⟩ := refused.planAt_eq
    exact ⟨found, present⟩
  · unfold Tree.isInitialized at initialized
    split at initialized
    · rename_i held
      obtain ⟨found, present, -⟩ := Tree.payload?_eq_some.mp held
      exact ⟨found, present⟩
    · cases initialized

end Context

/-! ## Runs -/

section

variable {context : Context} {node place : NodeId} {cause : Complaint} {found : Node}

/-- A plan that is one complaint adds a diagnostic, whatever walking a node means. -/
theorem Run.run_complain {σ : Type} (present : context.tree.get? place = some found)
    (walk : NodeId → Run σ Unit) (state : RunState σ) :
    (Run.perform context walk [.complain place cause]).run.run state =
      (.ok (), { state with
        report := state.report.add found.pos found.stop cause.kind cause.message }) := by
  simp only [perform, direct, report, present]
  rfl

theorem Run.exists_budget_eq (stageCount : Nat) (tree : Tree) :
    ∃ rest, budget stageCount tree = rest + 1 := by
  have enough := rank_lt_budget stageCount tree 0
  exact Nat.exists_eq_add_one.mpr (by omega)

theorem Run.run_walk_refused (refused : context.Refuses node place cause)
    (present : context.tree.get? place = some found) {σ : Type} (state : RunState σ) :
    (Run.walk context (Category.all.map (Category.stage σ)) node).run.run state =
      (.ok (), { state with
        report := state.report.add found.pos found.stop cause.kind cause.message }) := by
  obtain ⟨holder, here, planned⟩ := refused.planAt_eq
  obtain ⟨rest, budgeted⟩ := exists_budget_eq (Category.all.map (Category.stage σ)).length
    context.tree
  rw [walk, budgeted, walkWithin_succ Category.all rest here, planned, run_complain present]

/-- A recorder in front of the chain keeps a refused node, and no other. -/
theorem Run.run_recorder_refused (refused : context.Refuses node place cause)
    (present : context.tree.get? place = some found) (state : RunState (List NodeId)) :
    (Run.walk context (Stage.recorder :: Category.all.map (Category.stage _)) node).run.run state =
      (.ok (), { state with
        report := state.report.add found.pos found.stop cause.kind cause.message
        user := state.user ++ [node] }) := by
  obtain ⟨holder, here, planned⟩ := refused.planAt_eq
  obtain ⟨rest, budgeted⟩ := exists_budget_eq
    (Stage.recorder :: Category.all.map (Category.stage _)).length context.tree
  rw [walk, budgeted, walkWithin_recorder_succ Category.all rest here, planned]
  simp only [ExceptT.run_bind, StateT.run_bind, keep]
  exact run_complain present _ { state with user := state.user ++ [node] }

end

/-- A refusal is atomic.  Walking a refused node with the standard chain succeeds in every state,
adds one diagnostic, and leaves the text, the pending attachment and all else as they were; the
refused node is the only one that the stages are offered.  The same holds of writing a refused type
name, for which no node is walked at all. -/
theorem refusal_atomic (context : Context) (node place : NodeId) (cause : Complaint) :
    (context.Refuses node place cause →
      ∃ found, context.tree.get? place = some found ∧
        (∀ (σ : Type) (state : RunState σ),
          (Run.walk context (Category.all.map (Category.stage σ)) node).run.run state =
            (.ok (), { state with
              report := state.report.add found.pos found.stop cause.kind cause.message })) ∧
        ∀ state : RunState (List NodeId),
          (Run.walk context (Stage.recorder :: Category.all.map (Category.stage _)) node).run.run
              state =
            (.ok (), { state with
              report := state.report.add found.pos found.stop cause.kind cause.message
              user := state.user ++ [node] })) ∧
    (context.RefusesName node cause →
      ∃ found, context.tree.get? node = some found ∧
        ∀ (σ : Type) (walk : NodeId → Run σ Unit) (state : RunState σ),
          (Run.perform context walk (typeName context node)).run.run state =
            (.ok (), { state with
              report := state.report.add found.pos found.stop cause.kind cause.message })) := by
  constructor
  · intro refused
    obtain ⟨found, present⟩ := refused.exists_place
    refine ⟨found, present, fun σ state => ?_, fun state => ?_⟩
    · exact Run.run_walk_refused refused present state
    · exact Run.run_recorder_refused refused present state
  · intro refused
    obtain ⟨form, held, -⟩ := refused.unkeyed
    obtain ⟨found, present, -⟩ := Tree.payload?_eq_some.mp held
    refine ⟨found, present, fun σ walk state => ?_⟩
    rw [refused.typeName_eq, Run.run_complain present]

/-- `m.forEach((v) => v)` on a map. -/
def loneParameter : Context where
  tree :=
    { nodes := #[⟨.name (.identifier "m"), 0, 1, some 2⟩,
        ⟨.name (.identifier "forEach"), 2, 9, some 2⟩,
        ⟨.expr (.propertyAccess 0 1), 0, 9, some 7⟩,
        ⟨.name (.identifier "v"), 11, 12, some 4⟩,
        ⟨.decl (.parameter 3 none none false), 11, 12, some 6⟩,
        ⟨.name (.identifier "v"), 17, 18, some 6⟩,
        ⟨.decl (.arrow [4] none 5), 10, 18, some 7⟩,
        ⟨.expr (.call 2 [] [6]), 0, 19, none⟩] }
  resolver := some (Bindings.empty.declare "Map" ⟨64⟩ "angular2/typings/es6-shim/es6-shim.d.ts"
    |>.declareMember 0 "forEach" .method
    |>.bind 1 1).resolver
  catalog := .builtin
  basePath := none

/-- The receiver is not written before the callback is looked at, and an attachment that is pending
stays pending. -/
theorem loneParameter_refused :
    loneParameter.Refuses 7 7 .forEachParameters ∧
    (Run.walk loneParameter (Stage.recorder :: Category.all.map (Category.stage _)) 7).run.run
        { output := ⟨"'''" ++ Quoted.openSpan, true⟩, report := ⟨"unit", []⟩, user := [] } =
      (.ok (), { output := ⟨"'''" ++ Quoted.openSpan, true⟩, user := [7],
                 report := ⟨"unit", [.error "unit" 0 19 .malformedUsage
                   "Map.forEach callback requires exactly two arguments"]⟩ }) := by
  have here : loneParameter.IdiomAt 7 ⟨7, some 0, [], [6]⟩ .mapForEach := by
    refine Context.idiomAt_of_key ⟨"forEach", 1, some 0⟩
      ⟨"angular2/typings/es6-shim/es6-shim", "Map.forEach"⟩ ?_ rfl rfl rfl rfl rfl ?_ ?_ <;>
    decide +kernel
  have refused : loneParameter.Refuses 7 7 .forEachParameters :=
    .forEachParameters here rfl (.inr rfl) (by decide)
  obtain ⟨found, present, -, recorded⟩ := (refusal_atomic loneParameter 7 7 _).1 refused
  cases present
  exact ⟨refused, recorded _⟩

end Dartify
