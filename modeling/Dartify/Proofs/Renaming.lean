import Dartify.Proofs.Chain

/-!
# Renaming handles

A map of handles acts on all that handles occur in: forms, payloads, nodes, directives and plans.
Nothing but the handles changes.  The handles of a renamed payload are the renamed handles
(`Payload.children_rename`), and two maps that agree on the handles of a payload rename it alike
(`Payload.rename_congr`).  The pieces that plans are made of go along (`Plan.rename_append` and
what follows it).
-/

namespace Dartify

/-! ## Payloads and nodes -/

section

variable (place : NodeId → NodeId)

/-- A name with other handles. -/
def Name.rename : Name → Name
  | .identifier text => .identifier text
  | .qualified left right => .qualified (place left) (place right)

/-- A literal with other handles. -/
def Literal.rename : Literal → Literal
  | .template head spans => .template (place head) (spans.map place)
  | .templateSpan expression literal => .templateSpan (place expression) (place literal)
  | .array elements => .array (elements.map place)
  | .object properties => .object (properties.map place)
  | .property name initializer => .property (place name) (place initializer)
  | .shorthandProperty name => .shorthandProperty (place name)
  | leaf => leaf

/-- An expression with other handles. -/
def Expr.rename : Expr → Expr
  | .binary left operator right => .binary (place left) operator (place right)
  | .prefixUnary operator operand => .prefixUnary operator (place operand)
  | .postfixUnary operator operand => .postfixUnary operator (place operand)
  | .conditional condition whenTrue whenFalse =>
    .conditional (place condition) (place whenTrue) (place whenFalse)
  | .delete expression => .delete (place expression)
  | .void expression => .void (place expression)
  | .typeOf expression => .typeOf (place expression)
  | .parenthesized expression => .parenthesized (place expression)
  | .propertyAccess expression name => .propertyAccess (place expression) (place name)
  | .elementAccess expression argument => .elementAccess (place expression) (place argument)
  | .call expression typeArguments arguments =>
    .call (place expression) (typeArguments.map place) (arguments.map place)
  | .construct expression typeArguments arguments =>
    .construct (place expression) (typeArguments.map place) (arguments.map (List.map place))
  | .typeAssertion type expression => .typeAssertion (place type) (place expression)
  | .superRef => .superRef

/-- A statement with other handles. -/
def Stmt.rename : Stmt → Stmt
  | .block statements => .block (statements.map place)
  | .empty => .empty
  | .exprStmt expression => .exprStmt (place expression)
  | .variables declarationList => .variables (place declarationList)
  | .ifElse condition thenBranch elseBranch =>
    .ifElse (place condition) (place thenBranch) (elseBranch.map place)
  | .doWhile body condition => .doWhile (place body) (place condition)
  | .whileLoop condition body => .whileLoop (place condition) (place body)
  | .forLoop initializer condition incrementor body =>
    .forLoop (initializer.map place) (condition.map place) (incrementor.map place) (place body)
  | .forIn initializer expression body =>
    .forIn (place initializer) (place expression) (place body)
  | .forOf initializer expression body =>
    .forOf (place initializer) (place expression) (place body)
  | .continueTo label => .continueTo (label.map place)
  | .breakTo label => .breakTo (label.map place)
  | .returnValue expression => .returnValue (expression.map place)
  | .switch expression cases => .switch (place expression) (place cases)
  | .caseBlock clauses => .caseBlock (clauses.map place)
  | .caseClause expression statements => .caseClause (place expression) (statements.map place)
  | .defaultClause statements => .defaultClause (statements.map place)
  | .labeled label statement => .labeled (place label) (place statement)
  | .throwing expression => .throwing (place expression)
  | .tryCatch body handler cleanup =>
    .tryCatch (place body) (handler.map place) (cleanup.map place)
  | .catchClause binding body => .catchClause (place binding) (place body)

/-- A type with other handles. -/
def TypeExpr.rename : TypeExpr → TypeExpr
  | .keyword word => .keyword word
  | .reference name arguments => .reference (place name) (arguments.map place)
  | .literal members => .literal (members.map place)
  | .parameter name constraint => .parameter (place name) (constraint.map place)
  | .array element => .array (place element)
  | .union types => .union (types.map place)
  | .function typeParameters parameters result =>
    .function (typeParameters.map place) (parameters.map place) (place result)
  | .applied expression arguments => .applied (place expression) (arguments.map place)

/-- A declaration with other handles. -/
def Decl.rename : Decl → Decl
  | .variableList kind declarations => .variableList kind (declarations.map place)
  | .variableDecl name type initializer =>
    .variableDecl (place name) (type.map place) (initializer.map place)
  | .parameter name type initializer isOptional =>
    .parameter (place name) (type.map place) (initializer.map place) isOptional
  | .function name typeParameters parameters result body =>
    .function (place name) (typeParameters.map place) (parameters.map place) (result.map place)
      (body.map place)
  | .functionExpr name parameters result body =>
    .functionExpr (name.map place) (parameters.map place) (result.map place) (place body)
  | .arrow parameters result body =>
    .arrow (parameters.map place) (result.map place) (place body)
  | .classDecl decorators isAbstract name typeParameters heritage members =>
    .classDecl (decorators.map place) isAbstract (place name) (typeParameters.map place)
      (heritage.map place) (members.map place)
  | .interfaceDecl name typeParameters heritage members =>
    .interfaceDecl (place name) (typeParameters.map place) (heritage.map place)
      (members.map place)
  | .heritageClause word types => .heritageClause word (types.map place)
  | .property decorators isStatic name type initializer =>
    .property (decorators.map place) isStatic (place name) (type.map place)
      (initializer.map place)
  | .method decorators isStatic name parameters result body =>
    .method (decorators.map place) isStatic (place name) (parameters.map place)
      (result.map place) (body.map place)
  | .constructorDecl parameters body => .constructorDecl (parameters.map place) (body.map place)
  | .propertySignature name type => .propertySignature (place name) (type.map place)
  | .methodSignature name parameters result =>
    .methodSignature (place name) (parameters.map place) (result.map place)
  | .decorator expression => .decorator (place expression)
  | .enumDecl name members => .enumDecl (place name) (members.map place)
  | .enumMember name initializer => .enumMember (place name) (initializer.map place)
  | .importDecl namedImports specifier => .importDecl (namedImports.map place) (place specifier)
  | .importSpecifier propertyName name =>
    .importSpecifier (propertyName.map place) (place name)
  | .importEquals name specifier => .importEquals (place name) (place specifier)
  | .namespaceDecl name body => .namespaceDecl (place name) (body.map place)

/-- A payload with other handles. -/
def Payload.rename : Payload → Payload
  | .sourceFile fileName statements => .sourceFile fileName (statements.map place)
  | .name form => .name (form.rename place)
  | .literal form => .literal (form.rename place)
  | .expr form => .expr (form.rename place)
  | .stmt form => .stmt (form.rename place)
  | .type form => .type (form.rename place)
  | .decl form => .decl (form.rename place)

/-- A node with other handles and another link. -/
def Node.rename (node : Node) : Node :=
  { node with payload := node.payload.rename place, parent := node.parent.map place }

end

section

variable (place : NodeId → NodeId)

theorem Name.children_rename (form : Name) :
    (form.rename place).children = form.children.map place := by
  cases form <;> rfl

theorem Literal.children_rename (form : Literal) :
    (form.rename place).children = form.children.map place := by
  cases form <;> rfl

theorem Expr.children_rename (form : Expr) :
    (form.rename place).children = form.children.map place := by
  cases form with
  | call expression typeArguments arguments => simp [rename, children]
  | construct expression typeArguments arguments =>
    cases arguments <;> simp [rename, children]
  | _ => rfl

theorem Stmt.children_rename (form : Stmt) :
    (form.rename place).children = form.children.map place := by
  cases form <;> simp [rename, children, Option.toList_map]

theorem TypeExpr.children_rename (form : TypeExpr) :
    (form.rename place).children = form.children.map place := by
  cases form <;> simp [rename, children, Option.toList_map]

theorem Decl.children_rename (form : Decl) :
    (form.rename place).children = form.children.map place := by
  cases form <;> simp [rename, children, Option.toList_map]

@[simp] theorem Payload.children_rename (payload : Payload) :
    (payload.rename place).children = payload.children.map place := by
  cases payload with
  | sourceFile fileName statements => rfl
  | name form => exact form.children_rename place
  | literal form => exact form.children_rename place
  | expr form => exact form.children_rename place
  | stmt form => exact form.children_rename place
  | type form => exact form.children_rename place
  | decl form => exact form.children_rename place

@[simp] theorem Payload.kind_rename (payload : Payload) :
    (payload.rename place).kind = payload.kind := by
  cases payload with
  | sourceFile fileName statements => rfl
  | literal form =>
    cases form with
    | boolean value => cases value <;> rfl
    | _ => rfl
  | name form | expr form | stmt form | type form | decl form => cases form <;> rfl

@[simp] theorem Run.isSourceFile_rename (payload : Payload) :
    isSourceFile (payload.rename place) = isSourceFile payload := by
  cases payload <;> rfl

/-! What plans ask about a payload does not depend on its handles. -/

@[simp] theorem Payload.isBlock_rename (payload : Payload) :
    (payload.rename place).isBlock = payload.isBlock := by
  cases payload with
  | stmt form => cases form <;> rfl
  | _ => rfl

@[simp] theorem Payload.isCatchClause_rename (payload : Payload) :
    (payload.rename place).isCatchClause = payload.isCatchClause := by
  cases payload with
  | stmt form => cases form <;> rfl
  | _ => rfl

@[simp] theorem Payload.isInterface_rename (payload : Payload) :
    (payload.rename place).isInterface = payload.isInterface := by
  cases payload with
  | decl form => cases form <;> rfl
  | _ => rfl

@[simp] theorem Payload.isOptionalParameter_rename (payload : Payload) :
    (payload.rename place).isOptionalParameter = payload.isOptionalParameter := by
  cases payload with
  | decl form => cases form <;> simp [rename, Decl.rename, isOptionalParameter]
  | _ => rfl

@[simp] theorem Tree.isDecorator_rename (payload : Payload) :
    isDecorator (payload.rename place) = isDecorator payload := by
  cases payload with
  | decl form => cases form <;> rfl
  | _ => rfl

theorem Tree.callee?_rename (payload : Payload) :
    callee? (payload.rename place) = (callee? payload).map place := by
  cases payload with
  | expr form => cases form <;> rfl
  | _ => rfl

theorem Context.callParts?_rename (payload : Payload) :
    callParts? (payload.rename place) = (callParts? payload).map fun parts =>
      (place parts.1, parts.2.1.map place, parts.2.2.map place) := by
  cases payload with
  | expr form =>
    cases form with
    | construct expression typeArguments arguments => cases arguments <;> rfl
    | _ => rfl
  | _ => rfl

end

/-! ## Maps that agree -/

section

variable {place place' : NodeId → NodeId}

theorem map_option_congr_iff {handle : Option NodeId} :
    handle.map place = handle.map place' ↔
      ∀ node, handle = some node → place node = place' node := by
  cases handle <;> simp

theorem map_lists_congr_iff {handles : Option (List NodeId)} :
    handles.map (List.map place) = handles.map (List.map place') ↔
      ∀ node ∈ handles.getD [], place node = place' node := by
  cases handles <;> simp

theorem Name.rename_congr {form : Name}
    (same : ∀ child ∈ form.children, place child = place' child) :
    form.rename place = form.rename place' := by
  cases form <;> simp_all [rename, children]

theorem Literal.rename_congr {form : Literal}
    (same : ∀ child ∈ form.children, place child = place' child) :
    form.rename place = form.rename place' := by
  cases form <;> simp_all [rename, children]

theorem Expr.rename_congr {form : Expr}
    (same : ∀ child ∈ form.children, place child = place' child) :
    form.rename place = form.rename place' := by
  cases form <;> simp_all [rename, children, map_lists_congr_iff, or_imp, forall_and]

theorem Stmt.rename_congr {form : Stmt}
    (same : ∀ child ∈ form.children, place child = place' child) :
    form.rename place = form.rename place' := by
  cases form <;> simp_all [rename, children, map_option_congr_iff, or_imp, forall_and]

theorem TypeExpr.rename_congr {form : TypeExpr}
    (same : ∀ child ∈ form.children, place child = place' child) :
    form.rename place = form.rename place' := by
  cases form <;> simp_all [rename, children, map_option_congr_iff, or_imp, forall_and]

theorem Decl.rename_congr {form : Decl}
    (same : ∀ child ∈ form.children, place child = place' child) :
    form.rename place = form.rename place' := by
  cases form <;> simp_all [rename, children, map_option_congr_iff, or_imp, forall_and]

/-- Maps that agree on the handles of a payload rename it alike. -/
theorem Payload.rename_congr {payload : Payload}
    (same : ∀ child ∈ payload.children, place child = place' child) :
    payload.rename place = payload.rename place' := by
  cases payload with
  | sourceFile fileName statements => exact congrArg _ (List.map_congr_left same)
  | name form => exact congrArg _ (Name.rename_congr same)
  | literal form => exact congrArg _ (Literal.rename_congr same)
  | expr form => exact congrArg _ (Expr.rename_congr same)
  | stmt form => exact congrArg _ (Stmt.rename_congr same)
  | type form => exact congrArg _ (TypeExpr.rename_congr same)
  | decl form => exact congrArg _ (Decl.rename_congr same)

theorem Node.rename_congr {node : Node}
    (children : ∀ child ∈ node.payload.children, place child = place' child)
    (parent : ∀ parent ∈ node.parent, place parent = place' parent) :
    node.rename place = node.rename place' := by
  unfold rename
  rw [Payload.rename_congr children, map_option_congr_iff.mpr parent]

end

/-! ## Plans -/

section

variable (place : NodeId → NodeId)

/-- A defect that names another node. -/
def Defect.rename : Defect → Defect
  | .missing node => .missing (place node)
  | other => other

/-- A directive about other nodes. -/
def Directive.rename : Directive → Directive
  | .child node => .child (place node)
  | .complain node cause => .complain (place node) cause
  | .abort defect => .abort (defect.rename place)
  | other => other

namespace Plan

/-- A plan about other nodes. -/
def rename (plan : Plan) : Plan := plan.map (Directive.rename place)

variable {place}

@[simp] theorem rename_nil : rename place [] = [] := rfl

@[simp] theorem rename_cons (directive : Directive) (rest : Plan) :
    rename place (directive :: rest) = directive.rename place :: rename place rest := rfl

@[simp] theorem rename_append (first second : Plan) :
    rename place (first ++ second) = rename place first ++ rename place second :=
  List.map_append

@[simp] theorem rename_each (nodes : List NodeId) :
    rename place (each nodes) = each (nodes.map place) := by
  simp [rename, each, Directive.rename, Function.comp_def]

@[simp] theorem rename_maybe (node : Option NodeId) :
    rename place (maybe node) = maybe (node.map place) := by
  simp [maybe, Option.toList_map]

@[simp] theorem rename_separated (separator : String) (nodes : List NodeId) :
    rename place (separated separator nodes) = separated separator (nodes.map place) := by
  cases nodes with
  | nil => rfl
  | cons first rest =>
    simp [rename, separated, Directive.rename, List.map_flatMap, List.flatMap_map]

@[simp] theorem rename_commas (nodes : List NodeId) :
    rename place (commas nodes) = commas (nodes.map place) :=
  rename_separated "," nodes

@[simp] theorem rename_typeArguments (nodes : List NodeId) :
    rename place (typeArguments nodes) = typeArguments (nodes.map place) := by
  cases nodes <;> simp [typeArguments, Directive.rename]

@[simp] theorem rename_tokenIf (condition : Bool) (word : String) :
    rename place (tokenIf condition word) = tokenIf condition word := by
  cases condition <;> rfl

@[simp] theorem rename_led (word : String) (node : Option NodeId) :
    rename place (led word node) = led word (node.map place) := by
  cases node <;> rfl

end Plan

theorem rename_passPlan (found : Node) :
    (passPlan found).rename place = passPlan (found.rename place) := by
  simp only [passPlan, Node.rename, Payload.children_rename, Payload.kind_rename,
    Run.isSourceFile_rename, List.isEmpty_map]
  split
  · rfl
  · exact Plan.rename_each _

end

end Dartify
