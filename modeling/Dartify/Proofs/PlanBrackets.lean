import Dartify.Proofs.Brackets
import Dartify.Proofs.Recognition
import Dartify.Proofs.Success

/-!
# Brackets of plans

A plan writes its brackets piecewise, and walks nodes between them.  Its own brackets are nested
whenever it does not stop and no text from outside has a bracket.  For almost every form they are a
known word, which the reader of brackets decides.  Only lists of parameters, whose group of optional
ones is opened at some point, and `concat`, which closes a bracket for each argument, need an
induction.  A plan that stops is left out, since the run gives no text then.
-/

namespace Dartify

open Plan Brackets

/-! ## Brackets of plans -/

/-- The brackets that a directive writes by itself. -/
def Directive.brackets : Directive → List Char
  | .token word => ofText word
  | .glue text => ofText text
  | .attach | .child _ | .complain _ _ | .abort _ => []

namespace Plan

/-- The brackets that a plan writes by itself. -/
def brackets (plan : Plan) : List Char :=
  plan.flatMap Directive.brackets

@[simp] theorem brackets_nil : brackets [] = [] := rfl

@[simp] theorem brackets_token (word : String) (rest : Plan) :
    brackets (.token word :: rest) = ofText word ++ rest.brackets := rfl

@[simp] theorem brackets_glue (text : String) (rest : Plan) :
    brackets (.glue text :: rest) = ofText text ++ rest.brackets := rfl

@[simp] theorem brackets_attach (rest : Plan) : brackets (.attach :: rest) = rest.brackets := rfl

@[simp] theorem brackets_child (node : NodeId) (rest : Plan) :
    brackets (.child node :: rest) = rest.brackets := rfl

@[simp] theorem brackets_complain (node : NodeId) (cause : Complaint) (rest : Plan) :
    brackets (.complain node cause :: rest) = rest.brackets := rfl

@[simp] theorem brackets_append (first second : Plan) :
    brackets (first ++ second) = first.brackets ++ second.brackets := by
  simp [brackets]

@[simp] theorem brackets_flatMap (nodes : List NodeId) (piece : NodeId → Plan) :
    brackets (nodes.flatMap piece) = nodes.flatMap fun node => (piece node).brackets := by
  simp [brackets, List.flatMap_assoc]

@[simp] theorem brackets_each (nodes : List NodeId) : (each nodes).brackets = [] := by
  induction nodes with
  | nil => rfl
  | cons node rest ih => exact ih

@[simp] theorem brackets_maybe (node : Option NodeId) : (maybe node).brackets = [] :=
  brackets_each _

@[simp] theorem brackets_separated {separator : String} (free : Free separator)
    (nodes : List NodeId) : (separated separator nodes).brackets = [] := by
  cases nodes with
  | nil => rfl
  | cons first rest =>
    have nothing : ofText separator = [] := free
    simp [separated, nothing]

@[simp] theorem brackets_commas (nodes : List NodeId) : (commas nodes).brackets = [] :=
  brackets_separated (by decide) nodes

@[simp] theorem brackets_typeArguments (nodes : List NodeId) :
    (typeArguments nodes).brackets = [] := by
  unfold typeArguments
  split
  · rfl
  · simp only [brackets_token, brackets_append, brackets_commas]
    rfl

@[simp] theorem brackets_tokenIf {word : String} (free : Free word) (condition : Bool) :
    (tokenIf condition word).brackets = [] := by
  unfold tokenIf
  split
  · rw [brackets_token, free]
    rfl
  · rfl

@[simp] theorem brackets_led {word : String} (free : Free word) (node : Option NodeId) :
    (led word node).brackets = [] := by
  cases node with
  | none => rfl
  | some node =>
    rw [led, brackets_token, free]
    rfl

@[simp] theorem brackets_bodyPlan (body : Option NodeId) : (bodyPlan body).brackets = [] := by
  cases body <;> rfl

@[simp] theorem brackets_typeOrVarPlan (type : Option NodeId) :
    (typeOrVarPlan type).brackets = [] := by
  cases type <;> rfl

@[simp] theorem brackets_namedCall (name : String) (arguments : List NodeId) :
    (namedCall name arguments).brackets = ofText name ++ (ofText "(" ++ ofText ")") := by
  simp [namedCall]

@[simp] theorem brackets_methodCall (name : String) (arguments : List NodeId) :
    (methodCall name arguments).brackets =
      ofText "." ++ (ofText name ++ (ofText "(" ++ ofText ")")) := by
  simp [methodCall]

@[simp] theorem brackets_receiverCall (site : CallSite) (name : String)
    (arguments : List NodeId) :
    (receiverCall site name arguments).brackets =
      ofText "." ++ (ofText name ++ (ofText "(" ++ ofText ")")) := by
  simp [receiverCall]

@[simp] theorem brackets_tooFew (site : CallSite) (callee : String) (count : Nat) :
    (tooFew site callee count).brackets = [] := rfl

end Plan

/-! ## Contexts without brackets -/

/-- No text that nodes of some kind take from outside has a bracket.  The children of such nodes
are of that kind too. -/
structure Context.Unbracketed (context : Context) (inside : NodeId → Prop) : Prop where
  /-- Children. -/
  closed : ∀ {node child : NodeId}, inside node → context.tree.ChildStep node child → inside child
  /-- Identifiers and literals. -/
  texts : ∀ {node : NodeId} {payload : Payload}, inside node →
    context.tree.payload? node = some payload → Free payload.leafText
  /-- Names of classes, for their constructors. -/
  classes : ∀ {node : NodeId} {name : String}, inside node →
    className? context node = some name → Free name
  /-- Dart names of types. -/
  names : ∀ entry ∈ context.catalog.typeNames.entries, Free entry.2

variable {context : Context} {inside : NodeId → Prop} {node : NodeId}

namespace Context.Unbracketed

theorem child (free : context.Unbracketed inside) (member : inside node) {payload : Payload}
    (held : context.tree.payload? node = some payload) {child : NodeId}
    (among : child ∈ payload.children) : inside child :=
  free.closed member ⟨payload, held, among⟩

theorem below (free : context.Unbracketed inside) (member : inside node) {other : NodeId}
    (below : context.tree.Below node other) : inside other := by
  induction below with
  | single one => exact free.closed member one
  | tail _ one ih => exact free.closed ih one

theorem identifier (free : context.Unbracketed inside) (member : inside node) {text : String}
    (named : context.tree.identifierText? node = some text) : Free text :=
  free.texts member (Tree.identifierText?_eq_some_iff.mp named)

end Context.Unbracketed

theorem free_dartLibrary {specifier : String} (free : Free specifier) :
    Free (dartLibrary specifier) := by
  unfold dartLibrary
  split
  · rename_i relative rest
    have suffix : "./".toList ++ relative = specifier.toList :=
      List.isPrefixOf?_eq_some_iff_append_eq.mp rest
    have plain : Free (String.ofList relative) := by
      refine free_ofList fun c member => free_iff.mp free c ?_
      rw [← suffix]
      exact List.mem_append_right _ member
    exact plain.append rfl
  · split
    · exact free.append rfl
    · exact .append (.append rfl free) rfl

section

variable (free : context.Unbracketed inside)

include free

/-- A type name is written as it stands, or as the catalog says. -/
theorem brackets_typeName (unstopped : Meets .unstopped (typeName context node)) :
    (typeName context node).brackets = [] := by
  obtain ⟨payload, -, chosen⟩ := exists_of_withPayload unstopped
  rw [typeName, chosen]
  split
  · simp only
    split
    · split
      · rfl
      · split
        · rename_i key _ _ replacement known
          obtain ⟨before, after, listed, -⟩ := List.lookup_eq_some_iff.mp known
          have named : Free replacement := free.names (key, replacement) (by simp [listed])
          rw [brackets_token, named]
          rfl
        · rfl
    · rfl
  · rfl

theorem brackets_appliedPlan (unstopped : Meets .unstopped (appliedPlan context node)) :
    (appliedPlan context node).brackets = [] := by
  obtain ⟨payload, -, chosen⟩ := exists_of_withPayload unstopped
  rw [appliedPlan, chosen] at unstopped ⊢
  split
  · exact brackets_typeName free unstopped
  · rfl

theorem brackets_testedTypePlan (unstopped : Meets .unstopped (testedTypePlan context node)) :
    (testedTypePlan context node).brackets = [] := by
  obtain ⟨payload, -, chosen⟩ := exists_of_withPayload unstopped
  rw [testedTypePlan, chosen] at unstopped ⊢
  split
  · exact brackets_typeName free unstopped
  · simp only [meets_cons] at unstopped
    simp only [brackets_child, brackets_token, brackets_typeName free unstopped.2.2]
    rfl
  · rfl

theorem brackets_libraryPlan (member : inside node)
    (unstopped : Meets .unstopped (libraryPlan context node)) :
    (libraryPlan context node).brackets = [] := by
  obtain ⟨payload, held, chosen⟩ := exists_of_withPayload unstopped
  rw [libraryPlan, chosen] at unstopped ⊢
  split
  · rename_i text
    have plain : Free text := free.texts member held
    rw [brackets_token, (free_dartLibrary plain).verbatim]
    rfl
  · simp_all [not_unstopped_unexpected]

theorem brackets_propertyKeyPlan {name : NodeId} (member : inside name) :
    (propertyKeyPlan context name).brackets = [] := by
  unfold propertyKeyPlan
  split
  · rename_i text named
    rw [brackets_token, (free.identifier member named).verbatim]
    rfl
  · rfl

end

/-- The body of an arrow function is written behind an arrow, or alone where it is a block. -/
theorem arrowBody_cases (unstopped : Meets .unstopped (arrowBody context node)) :
    arrowBody context node = [.token "=>", .child node] ∨
      arrowBody context node = [.child node] := by
  obtain ⟨payload, -, chosen⟩ := exists_of_withPayload unstopped
  rw [arrowBody, chosen, tokenIf]
  split
  · exact .inl rfl
  · exact .inr rfl

theorem brackets_arrowBody (unstopped : Meets .unstopped (arrowBody context node)) :
    (arrowBody context node).brackets = [] := by
  rcases arrowBody_cases unstopped with plan | plan <;> rw [plan] <;> rfl

/-! ## Literals, statements and types -/

theorem Literal.nested_plan (free : context.Unbracketed inside) (member : inside node)
    {form : Literal} (held : context.tree.payload? node = some (.literal form)) :
    Nested (form.plan context node).brackets := by
  have plain : Free (Payload.literal form).leafText := free.texts member held
  cases form with
  | numeric text | regExp text =>
    have plain : ofText text = [] := plain
    simp [Literal.plan, plain, Nested.nil]
  | string text =>
    have quoted : ofText (Quoted.literal text) = [] := Free.literal plain
    simp [Literal.plan, quoted, Nested.nil]
  | plainTemplate text | templateHead text | templateMiddle text | templateTail text =>
    have quoted : ofText (Quoted.template text) = [] := Free.template plain
    simp only [Literal.plan, brackets_token, brackets_glue, ofText_append, quoted]
    decide
  | array elements | object properties =>
    simp (disch := decide) only [Literal.plan, bracketedPlan, brackets_append, brackets_tokenIf,
      brackets_token, brackets_commas]
    decide
  | property name initializer | shorthandProperty name =>
    have key : inside name := free.child member held (List.mem_cons_self ..)
    simp only [Literal.plan, brackets_append, brackets_propertyKeyPlan free key, brackets_token,
      brackets_child]
    decide
  | boolean value =>
    cases value <;> (simp only [Literal.plan, brackets_token]; decide)
  | _ =>
    simp only [Literal.plan, brackets_child, brackets_each, brackets_glue, brackets_attach,
      brackets_token]
    decide

theorem Name.nested_plan (free : context.Unbracketed inside) (member : inside node) {form : Name}
    (held : context.tree.payload? node = some (.name form)) : Nested form.plan.brackets := by
  cases form with
  | identifier text =>
    have plain : ofText text = [] := free.texts member held
    simp [Name.plan, plain, Nested.nil]
  | qualified left right =>
    simp only [Name.plan, brackets_child, brackets_token]
    decide

theorem nested_catchPlan (free : context.Unbracketed inside) {binding body : NodeId}
    (member : inside binding)
    (unstopped : Meets .unstopped (catchPlan context binding body)) :
    Nested (catchPlan context binding body).brackets := by
  obtain ⟨payload, held, chosen⟩ := exists_of_withPayload unstopped
  rw [catchPlan, chosen] at unstopped ⊢
  split
  · split
    · rename_i text named
      have plain : ofText text = [] :=
        free.identifier (free.child member held (List.mem_cons_self ..)) named
      simp (disch := decide) only [catchBindingPlan, brackets_append, brackets_led, brackets_token,
        brackets_child, brackets_glue, plain]
      decide
    · simp_all [not_unstopped_unexpected]
  · simp_all [not_unstopped_unexpected]

theorem Stmt.nested_plan (free : context.Unbracketed inside) (member : inside node) {form : Stmt}
    (held : context.tree.payload? node = some (.stmt form))
    (unstopped : Meets .unstopped (form.plan context)) :
    Nested (form.plan context).brackets := by
  cases form with
  | catchClause binding body =>
    exact nested_catchPlan free (free.child member held (List.mem_cons_self ..)) unstopped
  | continueTo label | breakTo label | returnValue expression =>
    simp only [Stmt.plan, jumpPlan, brackets_token, brackets_append, brackets_maybe]
    decide
  | _ =>
    simp (disch := decide) only [Stmt.plan, eachLoopPlan, brackets_token, brackets_append,
      brackets_child, brackets_each, brackets_maybe, brackets_led, brackets_nil]
    decide

theorem TypeExpr.nested_plan (free : context.Unbracketed inside) {form : TypeExpr}
    (unstopped : Meets .unstopped (form.plan context node)) :
    Nested (form.plan context node).brackets := by
  cases form with
  | keyword word =>
    cases word <;> (simp only [TypeExpr.plan, KeywordType.dart, brackets_token]; decide)
  | reference name arguments =>
    simp only [TypeExpr.plan, meets_append] at unstopped
    simp [TypeExpr.plan, brackets_typeName free unstopped.1, Nested.nil]
  | applied expression arguments =>
    simp only [TypeExpr.plan, meets_append] at unstopped
    simp [TypeExpr.plan, brackets_appliedPlan free unstopped.1, Nested.nil]
  | _ =>
    simp (disch := decide) only [TypeExpr.plan, brackets_token, brackets_append, brackets_child,
      brackets_separated, brackets_led, brackets_complain, brackets_nil]
    decide

/-! ## Calls and expressions -/

section

variable {site : CallSite}

theorem nested_concatPlan : Nested (concatPlan context site).brackets := by
  have argument : ∀ child, (concatArgumentPlan context child).brackets = ['(', ')'] := by
    intro child
    unfold concatArgumentPlan
    split <;> rfl
  have arguments : Nested (site.arguments.flatMap fun child =>
      (concatArgumentPlan context child).brackets) := by
    induction site.arguments with
    | nil => exact .nil
    | cons child rest ih =>
      rw [List.flatMap_cons, argument]
      exact .append (by decide) ih
  have frame : Nested (ofText "( new List . from (" ++ ofText ")" ++ ofText ")") := by decide
  simpa [concatPlan] using frame.insert arguments

theorem forEachFunctionPlan_cases (site : CallSite) (parameters : List NodeId) (body : Plan) :
    (∃ key value, forEachFunctionPlan site parameters body = maybe site.receiver ++
      (.token ". forEach ( (" :: .child key :: .token "," :: .child value :: .token ")" ::
        (body ++ [.token ")"]))) ∨
    forEachFunctionPlan site parameters body = [.complain site.node .forEachParameters] := by
  unfold forEachFunctionPlan
  split
  · rename_i value key
    exact .inl ⟨key, value, by simp⟩
  · exact .inr rfl

/-- `Map.forEach` takes a function apart, swaps the parameters of another callback, or complains. -/
theorem forEachPlan_cases {callback : NodeId}
    (unstopped : Meets .unstopped (forEachPlan context site callback)) :
    (∃ key value body, ∃ arrow : Plan, (arrow = [.token "=>"] ∨ arrow = []) ∧
      forEachPlan context site callback = maybe site.receiver ++
        (.token ". forEach ( (" :: .child key :: .token "," :: .child value :: .token ")" ::
          (arrow ++ [.child body, .token ")"]))) ∨
    forEachPlan context site callback = maybe site.receiver ++
      [.token ". forEach ( ( k , v ) => (", .child callback, .token ") ( v , k ) )"] ∨
    forEachPlan context site callback = [.complain site.node .forEachParameters] := by
  obtain ⟨payload, -, chosen⟩ := exists_of_withPayload unstopped
  rw [forEachPlan, chosen] at unstopped ⊢
  split
  · rename_i name parameters result body
    rcases forEachFunctionPlan_cases site parameters [.child body] with ⟨key, value, plan⟩ | plan
    · exact .inl ⟨key, value, body, [], .inr rfl, plan⟩
    · exact .inr (.inr plan)
  · rename_i parameters result body
    have unstopped : Meets .unstopped
        (forEachFunctionPlan site parameters (arrowBody context body)) := unstopped
    rcases forEachFunctionPlan_cases site parameters (arrowBody context body) with
      ⟨key, value, plan⟩ | plan
    · have inner : Meets .unstopped (arrowBody context body) := by
        rw [plan] at unstopped
        simpa using unstopped
      rcases arrowBody_cases inner with arrow | block
      · rw [arrow] at plan ⊢
        exact .inl ⟨key, value, body, [.token "=>"], .inl rfl, plan⟩
      · rw [block] at plan ⊢
        exact .inl ⟨key, value, body, [], .inr rfl, plan⟩
    · exact .inr (.inr plan)
  · exact .inr (.inl rfl)

theorem nested_forEachPlan {callback : NodeId}
    (unstopped : Meets .unstopped (forEachPlan context site callback)) :
    Nested (forEachPlan context site callback).brackets := by
  have function : Nested (ofText ". forEach ( (" ++ ofText ")" ++ ofText ")") := by decide
  have swapped : Nested (ofText ". forEach ( ( k , v ) => (" ++ ofText ") ( v , k ) )") := by decide
  rcases forEachPlan_cases unstopped with ⟨key, value, body, arrow, rfl | rfl, plan⟩ | plan | plan
  · rw [plan, brackets_append, brackets_maybe]
    exact function
  · rw [plan, brackets_append, brackets_maybe]
    exact function
  · rw [plan, brackets_append, brackets_maybe]
    exact swapped
  · rw [plan]
    exact .nil

theorem nested_forwardRefPlan {argument : NodeId}
    (unstopped : Meets .unstopped (forwardRefPlan context site argument)) :
    Nested (forwardRefPlan context site argument).brackets := by
  obtain ⟨payload, -, chosen⟩ := exists_of_withPayload unstopped
  rw [forwardRefPlan, chosen]
  split <;> exact .nil

/-- The brackets of an idiom are nested, whatever the call. -/
theorem CallIdiom.nested_plan? {idiom : CallIdiom} {plan : Plan}
    (planned : idiom.plan? context site = some plan) (unstopped : Meets .unstopped plan) :
    Nested plan.brackets := by
  cases idiom with
  | arrayConcat => cases planned; exact nested_concatPlan
  | arrayUnshift =>
    cases planned
    unfold unshiftPlan
    split <;>
    · simp only [brackets_token, brackets_append, brackets_maybe, brackets_child, brackets_commas]
      decide
  | arrayReduce =>
    cases planned
    unfold reducePlan
    split <;>
    · simp only [brackets_tooFew, brackets_token, brackets_append, brackets_maybe, brackets_child,
        brackets_receiverCall]
      decide
  | mapForEach =>
    simp only [CallIdiom.plan?] at planned
    split at planned
    · cases planned
      exact nested_forEachPlan unstopped
    · cases planned
      exact .nil
  | forwardRef =>
    simp only [CallIdiom.plan?] at planned
    split at planned
    · cases planned
      exact nested_forwardRefPlan unstopped
    · cases planned
      exact .nil
  | constMapConstructor =>
    simp only [CallIdiom.plan?] at planned
    split at planned
    · cases planned
      unfold constMapPlan
      split <;>
      · simp only [brackets_append, brackets_nil, brackets_complain, brackets_token,
          brackets_typeArguments]
        decide
    · cases planned
  | arrayJoin | arrayIsArray | arrayFind | mapSet | mapGet =>
    simp only [CallIdiom.plan?] at planned
    split at planned <;>
    · cases planned
      simp only [brackets_append, brackets_maybe, brackets_token, brackets_child, brackets_commas,
        brackets_receiverCall, brackets_tooFew]
      decide
  | _ =>
    cases planned
    simp only [mapDeletePlan, brackets_append, brackets_maybe, brackets_token, brackets_commas,
      brackets_namedCall, brackets_methodCall, brackets_receiverCall]
    decide

end

/-- A call is written as it stands, or as its idiom says, or not at all. -/
theorem nested_recognizeCall {payload : Payload} (held : context.tree.payload? node = some payload)
    {asItStands : Plan} (stands : Nested asItStands.brackets)
    (unstopped : Meets .unstopped (ofRecognition asItStands (context.recognizeCall node))) :
    Nested (ofRecognition asItStands (context.recognizeCall node)).brackets := by
  have outcome := Context.callOutcome held
  generalize context.recognizeCall node = result at outcome unstopped
  cases outcome with
  | notHandled => exact stands
  | missing _ _ _ => exact absurd (unstopped _ (List.mem_singleton_self _)) id
  | unresolved _ _ => exact .nil
  | recognized _ planned => exact CallIdiom.nested_plan? planned unstopped

theorem nested_accessPlan {expression name : NodeId}
    (held : context.tree.payload? node = some (.expr (.propertyAccess expression name))) :
    Nested (accessPlan context node expression name).brackets := by
  unfold accessPlan
  split
  · simp only [brackets_child, brackets_glue]
    decide
  · have outcome := Context.accessOutcome held
    generalize context.recognizeProperty node = result at outcome
    cases outcome with
    | notHandled =>
      simp only [ofRecognition, brackets_child, brackets_token]
      decide
    | unresolved _ _ => exact .nil
    | recognized idiom =>
      cases idiom
      simp only [ofRecognition, PropertyIdiom.plan, brackets_child, brackets_token]
      decide

theorem nested_binaryPlan (free : context.Unbracketed inside) {left right : NodeId}
    {operator : BinaryOperator}
    (unstopped : Meets .unstopped (binaryPlan context node left operator right)) :
    Nested (binaryPlan context node left operator right).brackets := by
  cases operator with
  | instanceOf =>
    simp only [binaryPlan, meets_cons] at unstopped
    simp only [binaryPlan, brackets_child, brackets_token,
      brackets_testedTypePlan free unstopped.2.2]
    decide
  | within => exact .nil
  | _ =>
    simp only [binaryPlan, identicalPlan, brackets_child, brackets_token]
    decide

theorem Expr.nested_plan (free : context.Unbracketed inside) {form : Expr}
    (held : context.tree.payload? node = some (.expr form))
    (unstopped : Meets .unstopped (form.plan context node)) :
    Nested (form.plan context node).brackets := by
  cases form with
  | binary left operator right => exact nested_binaryPlan free unstopped
  | prefixUnary operator operand | postfixUnary operator operand =>
    cases operator <;> (simp only [Expr.plan, brackets_child, brackets_token]; decide)
  | delete _ | void _ | typeOf _ => exact .nil
  | propertyAccess expression name => exact nested_accessPlan held
  | call expression typeArgs arguments =>
    refine nested_recognizeCall held ?_ unstopped
    simp only [brackets_child, brackets_append, brackets_typeArguments, brackets_token,
      brackets_commas]
    decide
  | construct expression typeArgs arguments =>
    refine nested_recognizeCall held ?_ unstopped
    have word : ofText (if context.tree.inConstContext node then "const" else "new") = [] := by
      split <;> decide
    simp only [brackets_child, brackets_append, brackets_typeArguments, brackets_token,
      brackets_commas, word]
    decide
  | _ =>
    simp only [Expr.plan, brackets_child, brackets_token]
    decide

/-! ## Declarations -/

/-- The parameters that are left close the group of optional ones if it is open, and whatever they
open. -/
theorem nested_parametersFrom {isFirst isOpen : Bool} {parameters : List NodeId}
    (unstopped : Meets .unstopped (parametersFrom context isFirst isOpen parameters)) :
    Nested ((tokenIf isOpen "[").brackets ++
      (parametersFrom context isFirst isOpen parameters).brackets) := by
  induction parameters generalizing isFirst isOpen with
  | nil =>
    have empty : Nested ((tokenIf isOpen "[").brackets ++ (tokenIf isOpen "]").brackets) := by
      cases isOpen <;> decide
    exact empty
  | cons parameter rest ih =>
    simp only [parametersFrom, meets_append] at unstopped
    obtain ⟨payload, -, chosen⟩ := exists_of_withPayload unstopped.2
    rw [chosen, meets_append, meets_cons] at unstopped
    have others := ih unstopped.2.2.2
    -- what this parameter opens is open for the others
    have opened : ∀ optional : Bool, (tokenIf isOpen "[").brackets ++
        (tokenIf (optional && !isOpen) "[").brackets =
          (tokenIf (isOpen || optional && !isOpen) "[").brackets := by
      intro optional
      cases isOpen <;> cases optional <;> rfl
    have comma : (tokenIf (!isFirst) ",").brackets = [] := brackets_tokenIf (by decide) _
    rw [← opened] at others
    simpa only [parametersFrom, chosen, brackets_append, brackets_child, comma, List.nil_append,
      List.append_assoc] using others

theorem nested_parametersPlan {parameters : List NodeId}
    (unstopped : Meets .unstopped (parametersPlan context parameters)) :
    Nested (parametersPlan context parameters).brackets := by
  simp only [parametersPlan, meets_cons, meets_append] at unstopped
  have inner : Nested (parametersFrom context true false parameters).brackets :=
    nested_parametersFrom unstopped.2.1
  have frame : Nested (ofText "(" ++ ofText ")") := by decide
  simpa [parametersPlan] using frame.insert inner

theorem brackets_variableListPlan {kind : VariableKind} {declarations : List NodeId}
    (unstopped : Meets .unstopped (variableListPlan context node kind declarations)) :
    (variableListPlan context node kind declarations).brackets = [] := by
  unfold variableListPlan at unstopped ⊢
  split
  · rename_i stopped found
    obtain ⟨declaration, -, rfl, -⟩ := annotations_error found
    simp_all [not_unstopped_unexpected]
  · split
    · rfl
    · simp (disch := decide) only [brackets_append, brackets_commas, variableLeadPlan,
        brackets_tokenIf]
      split
      · rfl
      · simp (disch := decide) only [brackets_tokenIf]
        rfl

theorem nested_constructorPlan (free : context.Unbracketed inside) (member : inside node)
    {parameters : List NodeId} {body : Option NodeId}
    (unstopped : Meets .unstopped (constructorPlan context node parameters body)) :
    Nested (constructorPlan context node parameters body).brackets := by
  unfold constructorPlan at unstopped ⊢
  split
  · rename_i name found
    have plain : ofText name = [] := free.classes member found
    simp only [found, meets_cons, meets_append] at unstopped
    have inner := nested_parametersPlan unstopped.2.1
    simpa [plain] using inner
  · simp_all [not_unstopped_unexpected]

theorem nested_enumPlan {name : NodeId} {members : List NodeId} :
    Nested (enumPlan context name members).brackets := by
  unfold enumPlan
  split
  · rename_i fault found
    obtain ⟨member, -, ⟨rfl, -⟩ | ⟨rfl, -⟩⟩ := memberFault?_eq_some found
    · exact .nil
    · exact .nil
  · simp only [brackets_append, brackets_token, brackets_child, brackets_nil, brackets_commas]
    decide

theorem Decl.nested_plan (free : context.Unbracketed inside) (member : inside node) {form : Decl}
    (held : context.tree.payload? node = some (.decl form))
    (unstopped : Meets .unstopped (form.plan context node)) :
    Nested (form.plan context node).brackets := by
  cases form with
  | variableList kind declarations =>
    rw [Decl.plan] at unstopped ⊢
    rw [brackets_variableListPlan unstopped]
    exact .nil
  | function name typeParameters parameters result body =>
    simp only [Decl.plan, meets_append, meets_cons] at unstopped
    simpa [Decl.plan] using nested_parametersPlan unstopped.2.2.1.2
  | functionExpr name parameters result body =>
    simp only [Decl.plan, meets_append] at unstopped
    simpa [Decl.plan] using nested_parametersPlan unstopped.1
  | arrow parameters result body =>
    simp only [Decl.plan, meets_append] at unstopped
    simpa [Decl.plan, brackets_arrowBody unstopped.2] using nested_parametersPlan unstopped.1
  | method decorators isStatic name parameters result body =>
    simp only [Decl.plan, meets_append, meets_cons] at unstopped
    have inner := nested_parametersPlan unstopped.2.2.1
    simp (disch := decide) only [Decl.plan, brackets_append, brackets_each, brackets_tokenIf,
      brackets_maybe, brackets_child, brackets_bodyPlan]
    simpa using inner
  | methodSignature name parameters result =>
    simp only [Decl.plan, meets_append, meets_cons] at unstopped
    have semicolon : ofText ";" = [] := by decide
    simpa [Decl.plan, semicolon] using nested_parametersPlan unstopped.2.2.1
  | constructorDecl parameters body => exact nested_constructorPlan free member unstopped
  | enumDecl name members => exact nested_enumPlan
  | heritageClause word types =>
    have plain : ofText (heritageWord context node word) = [] := by
      unfold heritageWord
      split
      · split <;> decide
      · decide
    simp [Decl.plan, plain, Nested.nil]
  | importDecl namedImports specifier =>
    have library : inside specifier :=
      free.child member held (by simp [Payload.children, Decl.children])
    simp only [Decl.plan, meets_cons, meets_append] at unstopped
    simp only [Decl.plan, brackets_token, brackets_append,
      brackets_libraryPlan free library unstopped.2.1.1]
    split
    · decide
    · simp only [brackets_token, brackets_commas]
      decide
  | importSpecifier propertyName name =>
    simp only [Decl.plan] at unstopped ⊢
    split
    · exact .nil
    · rename_i plain
      rw [if_neg plain] at unstopped
      rw [brackets_typeName free unstopped]
      exact .nil
  | importEquals name specifier =>
    have library : inside specifier :=
      free.child member held (by simp [Payload.children, Decl.children])
    simp only [Decl.plan, meets_cons, meets_append] at unstopped
    simp only [Decl.plan, brackets_token, brackets_append,
      brackets_libraryPlan free library unstopped.2.1, brackets_typeName free unstopped.2.2.2.1]
    decide
  | namespaceDecl name body => exact .nil
  | _ =>
    simp (disch := decide) only [Decl.plan, classBodyPlan, brackets_append, brackets_each,
      brackets_tokenIf, brackets_maybe, brackets_child, brackets_led, brackets_token,
      brackets_typeArguments, brackets_typeOrVarPlan, brackets_nil]
    decide

end Dartify
