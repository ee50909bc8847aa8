import Dartify.Proofs.Grounding

/-!
# Rejected constructs

Some constructs have no Dart form.  Without a resolver they are all that a plan complains about,
and a plan complains about every one of them that it comes to.

It does not come to all: some positions are *erased*, such as the return type of an arrow function,
and what stands there is never looked at.  Whether a position is erased can depend on how the walk
came to its node.  The annotation of a variable is written when the variable stands in a list or is
bound by a catch clause, and the initializer is left out in a catch clause.  So the walk is
followed as a relation between pairs of a node and an `Entry` (`Tree.KeptStep`), and a pair is
*clean* when it leads to no rejected construct.  The plan of a clean node is free of complaints and
walks clean nodes only, and this is what being clean means, provided that the plan does not stop
(`Category.clean_plan?`).
-/

namespace Dartify

open Plan

/-! ## Rejected payloads and erased positions -/

/-- How a walk comes to a node. -/
inductive Entry where
  /-- As a child like any other. -/
  | plain
  /-- As a member of a list of variables. -/
  | listed
  /-- As the binding of a catch clause. -/
  | caught
  deriving DecidableEq, Repr

/-- The children of a payload that are not in erased positions, when the walk came to it by
`entry`. -/
def Entry.kept (entry : Entry) : Payload → List (NodeId × Entry)
  | .decl (.variableList _ declarations) => declarations.map (·, .listed)
  | .stmt (.catchClause binding body) => [(binding, .caught), (body, .plain)]
  | .decl (.variableDecl name type initializer) =>
    let others := match entry with
      | .plain => initializer.toList
      | .listed => type.toList ++ initializer.toList
      | .caught => type.toList
    (name :: others).map (·, .plain)
  | .decl (.functionExpr _ parameters _ body) => (parameters ++ [body]).map (·, .plain)
  | .decl (.arrow parameters _ body) => (parameters ++ [body]).map (·, .plain)
  | .decl (.enumMember name _) => [(name, .plain)]
  | .type (.literal _) => []
  | payload => payload.children.map (·, .plain)

namespace Tree

/-- Whether a node is a variable with an annotation. -/
def isAnnotated (tree : Tree) (node : NodeId) : Bool :=
  match tree.payload? node with
  | some (.decl (.variableDecl _ type _)) => type.isSome
  | _ => false

/-- Whether a node is a member of an enumeration with an initializer. -/
def isInitialized (tree : Tree) (node : NodeId) : Bool :=
  match tree.payload? node with
  | some (.decl (.enumMember _ initializer)) => initializer.isSome
  | _ => false

/-- Whether a payload has no Dart form. -/
def rejects (tree : Tree) : Payload → Bool
  | .expr (.binary _ .within _) => true
  | .expr (.delete _) | .expr (.void _) | .expr (.typeOf _) => true
  | .type (.function _ _ _) => true
  | .decl (.namespaceDecl _ _) => true
  | .decl (.variableList _ declarations) =>
    declarations.length > 1 && declarations.any tree.isAnnotated
  | .decl (.enumDecl _ members) => members.any tree.isInitialized
  | .decl (.importSpecifier propertyName _) => propertyName.isSome
  | _ => false

/-- A node has a payload without a Dart form. -/
def Rejected (tree : Tree) (node : NodeId) : Prop :=
  ∃ payload, tree.payload? node = some payload ∧ tree.rejects payload = true

/-- One step of a walk to a child that is not in an erased position. -/
def KeptStep (tree : Tree) (place next : NodeId × Entry) : Prop :=
  ∃ payload, tree.payload? place.1 = some payload ∧ next ∈ place.2.kept payload

/-- No rejected construct can be come to. -/
def Clean (tree : Tree) (place : NodeId × Entry) : Prop :=
  ∀ other, Relation.ReflTransGen tree.KeptStep place other → ¬tree.Rejected other.1

variable {tree : Tree} {node : NodeId} {payload : Payload} {entry : Entry}

/-- A node is clean when it is not rejected and the children that it keeps are clean. -/
theorem clean_iff (held : tree.payload? node = some payload) :
    tree.Clean (node, entry) ↔
      tree.rejects payload = false ∧ ∀ next ∈ entry.kept payload, tree.Clean next := by
  constructor
  · intro clean
    refine ⟨?_, fun next member other path => clean other (.head ⟨payload, held, member⟩ path)⟩
    refine Bool.eq_false_iff.mpr fun rejected => ?_
    exact clean _ .refl ⟨payload, held, rejected⟩
  · rintro ⟨accepted, onward⟩ other path
    rcases Relation.ReflTransGen.cases_head path with rfl | ⟨next, ⟨payload', held', member⟩, rest⟩
    · rintro ⟨payload', held', rejected⟩
      cases held.symm.trans held'
      rw [accepted] at rejected
      cases rejected
    · cases held.symm.trans held'
      exact onward next member other rest

theorem clean_of_identifierText? {text : String} (held : tree.identifierText? node = some text) :
    tree.Clean (node, entry) := by
  unfold identifierText? at held
  split at held
  · rename_i present
    rw [clean_iff (payload?_of_get? present)]
    simp [rejects, Entry.kept, Payload.children, Name.children]
  · cases held

end Tree

/-! ## Plans that do not stop -/

/-- A plan does not stop by itself. -/
def Demand.unstopped : Demand where
  child _ := True
  complain _ _ := True
  abort _ := False
  attach := True

/-- A plan has no complaint, does not stop, and walks clean nodes only. -/
def Demand.clean (tree : Tree) : Demand where
  child node := tree.Clean (node, .plain)
  complain _ _ := False
  abort _ := False
  attach := True

namespace Demand

@[simp] theorem unstopped_child {node : NodeId} : unstopped.child node := trivial

@[simp] theorem unstopped_glue {text : String} : unstopped.glue text := trivial

@[simp] theorem unstopped_abort {defect : Defect} : ¬unstopped.abort defect := id

@[simp] theorem clean_child {tree : Tree} {node : NodeId} :
    (clean tree).child node ↔ tree.Clean (node, .plain) := Iff.rfl

@[simp] theorem clean_complain {tree : Tree} {node : NodeId} {cause : Complaint} :
    ¬(clean tree).complain node cause := id

@[simp] theorem clean_attach {tree : Tree} : (clean tree).attach := trivial

@[simp] theorem clean_glue {tree : Tree} {text : String} : (clean tree).glue text := trivial

end Demand

variable {context : Context} {node : NodeId}

namespace Plan

/-- A plan that goes on according to a node and does not stop finds the node. -/
theorem exists_of_withPayload {plan : Payload → Plan}
    (unstopped : Meets .unstopped (withPayload context node plan)) :
    ∃ payload, context.tree.payload? node = some payload ∧
      withPayload context node plan = plan payload := by
  unfold withPayload at unstopped ⊢
  split
  · rename_i found present
    exact ⟨found.payload, Tree.payload?_of_get? present, rfl⟩
  · rename_i absent
    simp [absent] at unstopped

theorem not_unstopped_unexpected {expected : String} :
    ¬Meets .unstopped (unexpected context expected node) := by
  unfold unexpected
  split <;> simp

end Plan

/-- Without a resolver a type name is written as it stands. -/
theorem clean_typeName (offline : context.resolver = none)
    (unstopped : Meets .unstopped (typeName context node)) :
    Meets (.clean context.tree) (typeName context node) ↔
      context.tree.Clean (node, .plain) := by
  obtain ⟨payload, -, chosen⟩ := exists_of_withPayload unstopped
  rw [typeName, chosen]
  simp [offline]

theorem clean_arrowBody (unstopped : Meets .unstopped (arrowBody context node)) :
    Meets (.clean context.tree) (arrowBody context node) ↔
      context.tree.Clean (node, .plain) := by
  obtain ⟨payload, -, chosen⟩ := exists_of_withPayload unstopped
  rw [arrowBody, chosen]
  simp

/-! ## Literals and names -/

/-- A key that is an identifier becomes a string, and an identifier is clean. -/
theorem clean_propertyKeyPlan :
    Meets (.clean context.tree) (propertyKeyPlan context node) ↔
      context.tree.Clean (node, .plain) := by
  unfold propertyKeyPlan
  split
  · rename_i text held
    simpa using Tree.clean_of_identifierText? held
  · simp

theorem Literal.clean_plan {form : Literal}
    (held : context.tree.payload? node = some (.literal form)) :
    Meets (.clean context.tree) (form.plan context node) ↔
      context.tree.Clean (node, .plain) := by
  rw [Tree.clean_iff held]
  cases form <;>
    simp [Literal.plan, bracketedPlan, clean_propertyKeyPlan, Tree.rejects, Entry.kept,
      Payload.children, Literal.children]

theorem Name.clean_plan {form : Name} (held : context.tree.payload? node = some (.name form)) :
    Meets (.clean context.tree) form.plan ↔ context.tree.Clean (node, .plain) := by
  rw [Tree.clean_iff held]
  cases form <;> simp [Name.plan, Tree.rejects, Entry.kept, Payload.children, Name.children]

/-! ## Statements -/

/-- Of the binding of a catch clause, the name and the annotation are written. -/
theorem Tree.clean_caught {tree : Tree} {name : NodeId} {type initializer : Option NodeId}
    (held : tree.payload? node = some (.decl (.variableDecl name type initializer))) :
    tree.Clean (node, .caught) ↔
      tree.Clean (name, .plain) ∧ ∀ found ∈ type, tree.Clean (found, .plain) := by
  rw [Tree.clean_iff held]
  simp [Tree.rejects, Entry.kept]

theorem clean_catchPlan {binding body : NodeId}
    (unstopped : Meets .unstopped (catchPlan context binding body)) :
    Meets (.clean context.tree) (catchPlan context binding body) ↔
      context.tree.Clean (binding, .caught) ∧ context.tree.Clean (body, .plain) := by
  obtain ⟨payload, held, chosen⟩ := exists_of_withPayload unstopped
  rw [catchPlan, chosen] at unstopped ⊢
  split
  · split
    · rw [Tree.clean_caught held]
      simp only [catchBindingPlan, meets_append, meets_led, meets_cons, Directive.meets_token,
        Directive.meets_child, Directive.meets_glue, meets_nil, Demand.clean_child,
        Demand.clean_glue]
      tauto
    · simp_all [not_unstopped_unexpected]
  · simp_all [not_unstopped_unexpected]

theorem Stmt.clean_plan {form : Stmt} (held : context.tree.payload? node = some (.stmt form))
    (unstopped : Meets .unstopped (form.plan context)) :
    Meets (.clean context.tree) (form.plan context) ↔ context.tree.Clean (node, .plain) := by
  rw [Tree.clean_iff held]
  cases form with
  | catchClause binding body =>
    rw [Stmt.plan, clean_catchPlan unstopped]
    simp [Tree.rejects, Entry.kept]
  | _ =>
    simp [Stmt.plan, eachLoopPlan, jumpPlan, Tree.rejects, Entry.kept, Payload.children,
      Stmt.children] <;> grind

/-! ## Types -/

theorem clean_appliedPlan (offline : context.resolver = none)
    (unstopped : Meets .unstopped (appliedPlan context node)) :
    Meets (.clean context.tree) (appliedPlan context node) ↔
      context.tree.Clean (node, .plain) := by
  obtain ⟨payload, held, chosen⟩ := exists_of_withPayload unstopped
  rw [appliedPlan, chosen] at unstopped ⊢
  split
  · exact clean_typeName offline unstopped
  · simp

theorem TypeExpr.clean_plan {form : TypeExpr} (offline : context.resolver = none)
    (held : context.tree.payload? node = some (.type form))
    (unstopped : Meets .unstopped (form.plan context node)) :
    Meets (.clean context.tree) (form.plan context node) ↔
      context.tree.Clean (node, .plain) := by
  rw [Tree.clean_iff held]
  cases form with
  | reference name arguments =>
    simp only [TypeExpr.plan, meets_append] at unstopped ⊢
    rw [clean_typeName offline unstopped.1]
    simp [Tree.rejects, Entry.kept, Payload.children, TypeExpr.children]
  | applied expression arguments =>
    simp only [TypeExpr.plan, meets_append] at unstopped ⊢
    rw [clean_appliedPlan offline unstopped.1]
    simp [Tree.rejects, Entry.kept, Payload.children, TypeExpr.children]
  | _ =>
    simp [TypeExpr.plan, Tree.rejects, Entry.kept, Payload.children, TypeExpr.children]

/-! ## Expressions -/

/-- The right side of `instanceof` is looked into, but nothing in it is left out. -/
theorem clean_testedTypePlan (offline : context.resolver = none)
    (unstopped : Meets .unstopped (testedTypePlan context node)) :
    Meets (.clean context.tree) (testedTypePlan context node) ↔
      context.tree.Clean (node, .plain) := by
  obtain ⟨payload, held, chosen⟩ := exists_of_withPayload unstopped
  rw [testedTypePlan, chosen] at unstopped ⊢
  split
  · exact clean_typeName offline unstopped
  · rw [Tree.clean_iff held]
    simp only [meets_cons, Directive.meets_token, Directive.meets_child] at unstopped ⊢
    rw [clean_typeName offline unstopped.2.2]
    simp [Tree.rejects, Entry.kept, Payload.children, Expr.children]
  · simp

theorem clean_accessPlan (offline : context.resolver = none) {expression name : NodeId} :
    Meets (.clean context.tree) (accessPlan context node expression name) ↔
      context.tree.Clean (expression, .plain) ∧ context.tree.Clean (name, .plain) := by
  unfold accessPlan
  split
  · rename_i stack
    simp only [Bool.and_eq_true, beq_iff_eq] at stack
    simpa using fun _ => Tree.clean_of_identifierText? stack.1
  · simp [Context.recognizeProperty, offline, ofRecognition]

theorem Expr.clean_plan {form : Expr} (offline : context.resolver = none)
    (held : context.tree.payload? node = some (.expr form))
    (unstopped : Meets .unstopped (form.plan context node)) :
    Meets (.clean context.tree) (form.plan context node) ↔
      context.tree.Clean (node, .plain) := by
  rw [Tree.clean_iff held]
  cases form with
  | binary left operator right =>
    cases operator with
    | instanceOf =>
      simp only [Expr.plan, binaryPlan, meets_cons, Directive.meets_token,
        Directive.meets_child] at unstopped ⊢
      rw [clean_testedTypePlan offline unstopped.2.2]
      simp [Tree.rejects, Entry.kept, Payload.children, Expr.children]
    | _ =>
      simp [Expr.plan, binaryPlan, identicalPlan, operatorPlan, Tree.rejects, Entry.kept,
        Payload.children, Expr.children]
  | propertyAccess expression name =>
    rw [Expr.plan, clean_accessPlan offline]
    simp [Tree.rejects, Entry.kept, Payload.children, Expr.children]
  | _ =>
    simp [Expr.plan, operatorPlan, Context.recognizeCall, offline, ofRecognition, Tree.rejects,
      Entry.kept, Payload.children, Expr.children] <;> grind

/-! ## Declarations -/

/-- In a list of variables, the annotation of a variable is written as well. -/
theorem Tree.clean_listed {tree : Tree} {name : NodeId} {type initializer : Option NodeId}
    (held : tree.payload? node = some (.decl (.variableDecl name type initializer))) :
    tree.Clean (node, .listed) ↔
      tree.Clean (node, .plain) ∧ ∀ found ∈ type, tree.Clean (found, .plain) := by
  rw [Tree.clean_iff held, Tree.clean_iff held]
  simp only [Tree.rejects, Entry.kept, true_and, List.map_cons, List.forall_mem_cons,
    List.map_append, List.forall_mem_append, List.forall_mem_map, Option.mem_toList]
  tauto

theorem clean_variableLeadPlan {kind : VariableKind} {type : Option NodeId} :
    Meets (.clean context.tree) (variableLeadPlan kind type) ↔
      ∀ found ∈ type, context.tree.Clean (found, .plain) := by
  cases type <;> simp [variableLeadPlan]

section Lists

variable {declarations : List NodeId} {types : List (Option NodeId)}

/-- The annotations that were collected from a list tell which of its members are annotated. -/
theorem any_isAnnotated (collected : annotations context declarations = .ok types) :
    declarations.any context.tree.isAnnotated = types.any Option.isSome := by
  have declared := annotations_ok collected
  clear collected
  induction declared with
  | nil => rfl
  | cons head _ ih =>
    obtain ⟨name, initializer, held⟩ := head
    simp [Tree.isAnnotated, held, ih]

/-- Members of a list are clean when the variables and the collected annotations are. -/
theorem clean_members (collected : annotations context declarations = .ok types) :
    (∀ declaration ∈ declarations, context.tree.Clean (declaration, .listed)) ↔
      (∀ declaration ∈ declarations, context.tree.Clean (declaration, .plain)) ∧
      ∀ type ∈ types, ∀ found ∈ type, context.tree.Clean (found, .plain) := by
  have declared := annotations_ok collected
  clear collected
  induction declared with
  | nil => simp
  | cons head _ ih =>
    obtain ⟨name, initializer, held⟩ := head
    simp only [List.forall_mem_cons, Tree.clean_listed held, ih]
    tauto

/-- A list that is accepted has at most one annotation, and if so it is the first. -/
theorem forall_annotation_iff {property : NodeId → Prop}
    (accepted : (types.length > 1 && types.any Option.isSome) = false) :
    (∀ type ∈ types, ∀ found ∈ type, property found) ↔
      ∀ found ∈ types.head?.join, property found := by
  match types with
  | [] => simp
  | [single] => simp
  | first :: second :: rest =>
    have bare : ∀ type ∈ first :: second :: rest, type = none := by simpa using accepted
    constructor
    · intro all found member
      exact all first (List.mem_cons_self ..) found member
    · intro _ type member found inside
      rw [bare type member] at inside
      cases inside

theorem clean_variableListPlan {kind : VariableKind}
    (held : context.tree.payload? node = some (.decl (.variableList kind declarations)))
    (unstopped : Meets .unstopped (variableListPlan context node kind declarations)) :
    Meets (.clean context.tree) (variableListPlan context node kind declarations) ↔
      context.tree.Clean (node, .plain) := by
  rw [Tree.clean_iff held]
  unfold variableListPlan at unstopped ⊢
  split
  · rename_i stopped failed
    obtain ⟨declaration, -, rfl, -⟩ := annotations_error failed
    rw [failed] at unstopped
    exact absurd unstopped not_unstopped_unexpected
  · rename_i types collected
    -- a list is rejected for the reason that its plan looks for
    have rejected : context.tree.rejects (.decl (.variableList kind declarations)) =
        (types.length > 1 && types.any Option.isSome) := by
      rw [Tree.rejects, any_isAnnotated collected, (annotations_ok collected).length_eq]
    rw [rejected]
    split
    · rename_i several
      simp [several, constructPlan]
    · rename_i accepted
      rw [Bool.not_eq_true] at accepted
      simp only [accepted, Entry.kept, List.forall_mem_map, clean_members collected,
        forall_annotation_iff accepted, meets_append, clean_variableLeadPlan, meets_commas,
        Demand.clean_child]
      tauto

end Lists

theorem clean_parametersFrom {parameters : List NodeId} {isFirst isOpen : Bool}
    (unstopped : Meets .unstopped (parametersFrom context isFirst isOpen parameters)) :
    Meets (.clean context.tree) (parametersFrom context isFirst isOpen parameters) ↔
      ∀ parameter ∈ parameters, context.tree.Clean (parameter, .plain) := by
  induction parameters generalizing isFirst isOpen with
  | nil => simp [parametersFrom]
  | cons parameter rest ih =>
    rw [parametersFrom] at unstopped ⊢
    obtain ⟨-, goesOn⟩ := meets_append.mp unstopped
    obtain ⟨payload, -, chosen⟩ := exists_of_withPayload goesOn
    rw [chosen] at goesOn ⊢
    simp only [meets_append, meets_tokenIf, meets_cons, true_and, Directive.meets_child]
      at goesOn ⊢
    rw [ih goesOn.2, List.forall_mem_cons, Demand.clean_child]

theorem clean_parametersPlan {parameters : List NodeId}
    (unstopped : Meets .unstopped (parametersPlan context parameters)) :
    Meets (.clean context.tree) (parametersPlan context parameters) ↔
      ∀ parameter ∈ parameters, context.tree.Clean (parameter, .plain) := by
  simp only [parametersPlan, meets_cons, meets_append, Directive.meets_token, true_and, meets_nil,
    and_true] at unstopped ⊢
  exact clean_parametersFrom unstopped

/-- Where no member of an enumeration is at fault, none is initialized. -/
theorem any_isInitialized {members : List NodeId}
    (faultless : memberFault? context members = none) :
    members.any context.tree.isInitialized = false := by
  induction members with
  | nil => rfl
  | cons member rest ih =>
    simp only [memberFault?] at faultless
    split at faultless
    · cases faultless
    · cases faultless
    · rename_i payload other held
      have bare : context.tree.isInitialized member = false := by
        rw [Tree.isInitialized, show context.tree.payload? member = _ from held]
        split
        · rename_i initializer same
          cases initializer with
          | none => rfl
          | some value => exact absurd same (by simpa using other _ value)
        · rfl
      simp [bare, ih faultless]

theorem clean_enumPlan {name : NodeId} {members : List NodeId}
    (held : context.tree.payload? node = some (.decl (.enumDecl name members)))
    (unstopped : Meets .unstopped (enumPlan context name members)) :
    Meets (.clean context.tree) (enumPlan context name members) ↔
      context.tree.Clean (node, .plain) := by
  rw [Tree.clean_iff held]
  unfold enumPlan at unstopped ⊢
  split
  · rename_i fault failed
    rw [failed] at unstopped
    obtain ⟨member, among, ⟨rfl, -⟩ | ⟨rfl, label, initializer, initialized⟩⟩ :=
      memberFault?_eq_some failed
    · simp at unstopped
    · have rejected : context.tree.rejects (.decl (.enumDecl name members)) = true := by
        refine List.any_eq_true.mpr ⟨member, among, ?_⟩
        simp [Tree.isInitialized, initialized]
      simp [constructPlan, rejected]
  · rename_i faultless
    simp [Tree.rejects, any_isInitialized faultless, Entry.kept, Payload.children, Decl.children]

/-- The library of an import is a string, which is clean. -/
theorem clean_libraryPlan (unstopped : Meets .unstopped (libraryPlan context node)) :
    Meets (.clean context.tree) (libraryPlan context node) ∧
      context.tree.Clean (node, .plain) := by
  obtain ⟨payload, held, chosen⟩ := exists_of_withPayload unstopped
  rw [libraryPlan, chosen] at unstopped ⊢
  split
  · rw [Tree.clean_iff held]
    simp [Tree.rejects, Entry.kept, Payload.children, Literal.children]
  · simp_all [not_unstopped_unexpected]

theorem clean_constructorPlan {parameters : List NodeId} {body : Option NodeId}
    (unstopped : Meets .unstopped (constructorPlan context node parameters body)) :
    Meets (.clean context.tree) (constructorPlan context node parameters body) ↔
      (∀ parameter ∈ parameters, context.tree.Clean (parameter, .plain)) ∧
      ∀ found ∈ body, context.tree.Clean (found, .plain) := by
  unfold constructorPlan at unstopped ⊢
  split
  · rename_i named
    simp only [named, meets_cons, meets_append, Directive.meets_token, true_and, meets_bodyPlan]
      at unstopped ⊢
    rw [clean_parametersPlan unstopped.1]
    rfl
  · simp_all [not_unstopped_unexpected]

theorem Decl.clean_plan {form : Decl} (offline : context.resolver = none)
    (held : context.tree.payload? node = some (.decl form))
    (unstopped : Meets .unstopped (form.plan context node)) :
    Meets (.clean context.tree) (form.plan context node) ↔
      context.tree.Clean (node, .plain) := by
  cases form with
  | variableList kind declarations => exact clean_variableListPlan held unstopped
  | enumDecl name members => exact clean_enumPlan held unstopped
  | constructorDecl parameters body =>
    rw [Tree.clean_iff held, Decl.plan, clean_constructorPlan unstopped]
    simp [Tree.rejects, Entry.kept, Payload.children, Decl.children, or_imp, forall_and]
  | importDecl namedImports specifier =>
    have goesOn : Meets .unstopped (libraryPlan context specifier) := by
      simp only [Decl.plan, meets_cons, meets_append] at unstopped
      exact unstopped.2.1.1
    rw [Tree.clean_iff held]
    cases namedImports <;>
      simp [Decl.plan, clean_libraryPlan goesOn, Tree.rejects, Entry.kept, Payload.children,
        Decl.children, or_imp, forall_and]
  | importSpecifier propertyName name =>
    rw [Tree.clean_iff held]
    cases propertyName with
    | some property => simp [Decl.plan, constructPlan, Tree.rejects]
    | none =>
      have goesOn : Meets .unstopped (typeName context name) := by simpa [Decl.plan] using unstopped
      simp [Decl.plan, clean_typeName offline goesOn, Tree.rejects, Entry.kept, Payload.children,
        Decl.children]
  | importEquals name specifier =>
    obtain ⟨library, named⟩ : Meets .unstopped (libraryPlan context specifier) ∧
        Meets .unstopped (typeName context name) := by
      simpa [Decl.plan] using unstopped
    rw [Tree.clean_iff held]
    simp [Decl.plan, clean_libraryPlan library, clean_typeName offline named, Tree.rejects,
      Entry.kept, Payload.children, Decl.children]
  | arrow parameters result body =>
    obtain ⟨listed, arrowed⟩ : Meets .unstopped (parametersPlan context parameters) ∧
        Meets .unstopped (arrowBody context body) := by
      simpa [Decl.plan] using unstopped
    rw [Tree.clean_iff held]
    simp [Decl.plan, clean_parametersPlan listed, clean_arrowBody arrowed, Tree.rejects,
      Entry.kept, or_imp, forall_and]
  | function _ _ parameters _ _ | functionExpr _ parameters _ _ | method _ _ _ parameters _ _
  | methodSignature _ parameters _ =>
    have goesOn : Meets .unstopped (parametersPlan context parameters) := by
      simpa [Decl.plan] using unstopped
    rw [Tree.clean_iff held]
    simp [Decl.plan, clean_parametersPlan goesOn, Tree.rejects, Entry.kept, Payload.children,
      Decl.children]
    grind
  | _ =>
    rw [Tree.clean_iff held]
    simp [Decl.plan, classBodyPlan, constructPlan, Tree.rejects, Entry.kept, Payload.children,
      Decl.children] <;> grind

/-! ## All forms -/

/-- Without a resolver, a plan that does not stop is free of complaints and walks clean nodes only
when its own node is clean. -/
theorem Category.clean_plan? {category : Category} {payload : Payload} {plan : Plan}
    (offline : context.resolver = none) (held : context.tree.payload? node = some payload)
    (planned : category.plan? context node payload = some plan)
    (unstopped : Meets .unstopped plan) :
    Meets (.clean context.tree) plan ↔ context.tree.Clean (node, .plain) := by
  cases category <;> cases payload <;> cases planned
  case literals.literal form => exact form.clean_plan held
  case expressions.expr form => exact form.clean_plan offline held unstopped
  case statements.stmt form => exact form.clean_plan held unstopped
  case types.name form => exact form.clean_plan held
  case types.type form => exact form.clean_plan offline held unstopped
  case declarations.decl form => exact form.clean_plan offline held unstopped

end Dartify
