import Dartify.Json.Basic
import Dartify.Syntax.Payload

/-!
# Payloads from JSON

The reader of what `Payload.encode` writes.  Keys that a form does not know are passed over.  An
absent handle may be written as `null` or, in an object, left out.

A reading is *lenient* when it takes the fields of a form in either layout, and *strict* when it
takes them as an object only.  The source file is a record of its own and no form of a category, so
it is read in either layout at any time.

The reader is written without the writer: each form gives the names of its fields and how each is
read.
-/

namespace Dartify

namespace FieldReader

/-- Reads a handle. -/
def node (field : Option Json) : Option NodeId :=
  Json.required Json.word? field

/-- Reads a handle that may be absent. -/
def nodeOpt (field : Option Json) : Option (Option NodeId) :=
  Json.optional Json.word? field

/-- Reads handles. -/
def nodes (field : Option Json) : Option (List NodeId) :=
  Json.required (Json.list? Json.word?) field

/-- Reads handles that may be absent. -/
def nodesOpt (field : Option Json) : Option (Option (List NodeId)) :=
  Json.optional (Json.list? Json.word?) field

/-- Reads a text. -/
def text (field : Option Json) : Option String :=
  Json.required Json.text? field

/-- Reads a truth value. -/
def flag (field : Option Json) : Option Bool :=
  Json.required Json.bool? field

/-- Reads a word by its stored name. -/
def word {α : Type} (named? : String → Option α) (field : Option Json) : Option α :=
  Json.required (Json.bare? named?) field

end FieldReader

/-- How the fields of a form may be written. -/
inductive Reading where
  /-- As an object only. -/
  | strict
  /-- As an object or as a list. -/
  | lenient
  deriving DecidableEq, Repr

namespace Form

/-- The fields of a form, in the order of `names`. -/
def record? (reading : Reading) (names : List String) (value : Json) :
    Option (List (Option Json)) :=
  match reading, value with
  | .strict, .list _ => none
  | _, value => Json.record? names value

/-- Reads a form without fields. -/
def bare {α : Type} (result : α) : Json → Option α
  | .null => some result
  | _ => none

/-- Reads a form with one field. -/
def one {α β : Type} (reading : Reading) (name : String) (read : Option Json → Option α)
    (make : α → β) (value : Json) : Option β :=
  match record? reading [name] value with
  | some [a] => do return make (← read a)
  | _ => none

/-- Reads a form with two fields. -/
def two {α β γ : Type} (reading : Reading) (names : String × String)
    (readFirst : Option Json → Option α) (readSecond : Option Json → Option β)
    (make : α → β → γ) (value : Json) : Option γ :=
  match record? reading [names.1, names.2] value with
  | some [a, b] => do return make (← readFirst a) (← readSecond b)
  | _ => none

end Form

open FieldReader Form

/-- Reads a name. -/
def Name.decode? (reading : Reading) (value : Json) : Option Name := do
  match ← Json.choice? value with
  | ("Identifier", fields) => one reading "text" text .identifier fields
  | ("Qualified", fields) => two reading ("left", "right") node node .qualified fields
  | _ => none

/-- Reads a literal. -/
def Literal.decode? (reading : Reading) (value : Json) : Option Literal := do
  match ← Json.choice? value with
  | ("Numeric", fields) => one reading "text" text .numeric fields
  | ("String", fields) => one reading "text" text .string fields
  | ("RegularExpression", fields) => one reading "text" text .regExp fields
  | ("NoSubstitutionTemplate", fields) => one reading "text" text .plainTemplate fields
  | ("Template", fields) => two reading ("head", "spans") node nodes .template fields
  | ("TemplateHead", fields) => one reading "text" text .templateHead fields
  | ("TemplateMiddle", fields) => one reading "text" text .templateMiddle fields
  | ("TemplateTail", fields) => one reading "text" text .templateTail fields
  | ("TemplateSpan", fields) => two reading ("expression", "literal") node node .templateSpan fields
  | ("Array", fields) => one reading "elements" nodes .array fields
  | ("Object", fields) => one reading "properties" nodes .object fields
  | ("PropertyAssignment", fields) => two reading ("name", "initializer") node node .property fields
  | ("ShorthandPropertyAssignment", fields) => one reading "name" node .shorthandProperty fields
  | ("True", fields) => bare (.boolean true) fields
  | ("False", fields) => bare (.boolean false) fields
  | ("Null", fields) => bare .null fields
  | ("This", fields) => bare .thisRef fields
  | _ => none

/-- Reads an expression. -/
def Expr.decode? (reading : Reading) (value : Json) : Option Expr := do
  match ← Json.choice? value with
  | ("Binary", fields) =>
    match ← record? reading ["left", "operator", "right"] fields with
    | [left, operator, right] =>
      return .binary (← node left) (← word BinaryOperator.ofName? operator) (← node right)
    | _ => none
  | ("PrefixUnary", fields) =>
    two reading ("operator", "operand") (word PrefixOperator.ofName?) node .prefixUnary fields
  | ("PostfixUnary", fields) =>
    two reading ("operator", "operand") (word PostfixOperator.ofName?) node .postfixUnary fields
  | ("Conditional", fields) =>
    match ← record? reading ["condition", "when_true", "when_false"] fields with
    | [condition, whenTrue, whenFalse] =>
      return .conditional (← node condition) (← node whenTrue) (← node whenFalse)
    | _ => none
  | ("Delete", fields) => one reading "expression" node .delete fields
  | ("Void", fields) => one reading "expression" node .void fields
  | ("TypeOf", fields) => one reading "expression" node .typeOf fields
  | ("Parenthesized", fields) => one reading "expression" node .parenthesized fields
  | ("PropertyAccess", fields) =>
    two reading ("expression", "name") node node .propertyAccess fields
  | ("ElementAccess", fields) =>
    two reading ("expression", "argument") node node .elementAccess fields
  | ("Call", fields) =>
    match ← record? reading ["expression", "type_arguments", "arguments"] fields with
    | [expression, typeArguments, arguments] =>
      return .call (← node expression) (← nodes typeArguments) (← nodes arguments)
    | _ => none
  | ("New", fields) =>
    match ← record? reading ["expression", "type_arguments", "arguments"] fields with
    | [expression, typeArguments, arguments] =>
      return .construct (← node expression) (← nodes typeArguments) (← nodesOpt arguments)
    | _ => none
  | ("TypeAssertion", fields) =>
    two reading ("type_node", "expression") node node .typeAssertion fields
  | ("Super", fields) => bare .superRef fields
  | _ => none

/-- Reads a statement. -/
def Stmt.decode? (reading : Reading) (value : Json) : Option Stmt := do
  match ← Json.choice? value with
  | ("Block", fields) => one reading "statements" nodes .block fields
  | ("Empty", fields) => bare .empty fields
  | ("Expression", fields) => one reading "expression" node .exprStmt fields
  | ("Variable", fields) => one reading "declaration_list" node .variables fields
  | ("If", fields) =>
    match ← record? reading ["expression", "then_statement", "else_statement"] fields with
    | [condition, thenBranch, elseBranch] =>
      return .ifElse (← node condition) (← node thenBranch) (← nodeOpt elseBranch)
    | _ => none
  | ("Do", fields) => two reading ("statement", "expression") node node .doWhile fields
  | ("While", fields) => two reading ("expression", "statement") node node .whileLoop fields
  | ("For", fields) =>
    match ← record? reading ["initializer", "condition", "incrementor", "statement"] fields with
    | [initializer, condition, incrementor, body] =>
      return .forLoop (← nodeOpt initializer) (← nodeOpt condition) (← nodeOpt incrementor)
        (← node body)
    | _ => none
  | ("ForIn", fields) =>
    match ← record? reading ["initializer", "expression", "statement"] fields with
    | [initializer, expression, body] =>
      return .forIn (← node initializer) (← node expression) (← node body)
    | _ => none
  | ("ForOf", fields) =>
    match ← record? reading ["initializer", "expression", "statement"] fields with
    | [initializer, expression, body] =>
      return .forOf (← node initializer) (← node expression) (← node body)
    | _ => none
  | ("Continue", fields) => one reading "label" nodeOpt .continueTo fields
  | ("Break", fields) => one reading "label" nodeOpt .breakTo fields
  | ("Return", fields) => one reading "expression" nodeOpt .returnValue fields
  | ("Switch", fields) => two reading ("expression", "case_block") node node .switch fields
  | ("CaseBlock", fields) => one reading "clauses" nodes .caseBlock fields
  | ("CaseClause", fields) => two reading ("expression", "statements") node nodes .caseClause fields
  | ("DefaultClause", fields) => one reading "statements" nodes .defaultClause fields
  | ("Labeled", fields) => two reading ("label", "statement") node node .labeled fields
  | ("Throw", fields) => one reading "expression" node .throwing fields
  | ("Try", fields) =>
    match ← record? reading ["try_block", "catch_clause", "finally_block"] fields with
    | [body, handler, cleanup] =>
      return .tryCatch (← node body) (← nodeOpt handler) (← nodeOpt cleanup)
    | _ => none
  | ("CatchClause", fields) =>
    two reading ("variable_declaration", "block") node node .catchClause fields
  | _ => none

/-- Reads a type. -/
def TypeExpr.decode? (reading : Reading) (value : Json) : Option TypeExpr := do
  match ← Json.choice? value with
  | ("Keyword", carried) => return .keyword (← Json.bare? KeywordType.ofName? carried)
  | ("Reference", fields) =>
    two reading ("type_name", "type_arguments") node nodes .reference fields
  | ("Literal", fields) => one reading "members" nodes .literal fields
  | ("Parameter", fields) => two reading ("name", "constraint") node nodeOpt .parameter fields
  | ("Array", fields) => one reading "element_type" node .array fields
  | ("Union", fields) => one reading "types" nodes .union fields
  | ("Function", fields) =>
    match ← record? reading ["type_parameters", "parameters", "return_type"] fields with
    | [typeParameters, parameters, result] =>
      return .function (← nodes typeParameters) (← nodes parameters) (← node result)
    | _ => none
  | ("ExpressionWithTypeArguments", fields) =>
    two reading ("expression", "type_arguments") node nodes .applied fields
  | _ => none

/-- Reads a declaration. -/
def Decl.decode? (reading : Reading) (value : Json) : Option Decl := do
  match ← Json.choice? value with
  | ("VariableDeclarationList", fields) =>
    two reading ("kind", "declarations") (word VariableKind.ofName?) nodes .variableList fields
  | ("VariableDeclaration", fields) =>
    match ← record? reading ["name", "type_node", "initializer"] fields with
    | [name, type, initializer] =>
      return .variableDecl (← node name) (← nodeOpt type) (← nodeOpt initializer)
    | _ => none
  | ("Parameter", fields) =>
    match ← record? reading ["name", "type_node", "initializer", "optional"] fields with
    | [name, type, initializer, isOptional] =>
      return .parameter (← node name) (← nodeOpt type) (← nodeOpt initializer)
        (← flag isOptional)
    | _ => none
  | ("Function", fields) =>
    match ← record? reading ["name", "type_parameters", "parameters", "return_type", "body"]
        fields with
    | [name, typeParameters, parameters, result, body] =>
      return .function (← node name) (← nodes typeParameters) (← nodes parameters)
        (← nodeOpt result) (← nodeOpt body)
    | _ => none
  | ("FunctionExpression", fields) =>
    match ← record? reading ["name", "parameters", "return_type", "body"] fields with
    | [name, parameters, result, body] =>
      return .functionExpr (← nodeOpt name) (← nodes parameters) (← nodeOpt result) (← node body)
    | _ => none
  | ("ArrowFunction", fields) =>
    match ← record? reading ["parameters", "return_type", "body"] fields with
    | [parameters, result, body] =>
      return .arrow (← nodes parameters) (← nodeOpt result) (← node body)
    | _ => none
  | ("Class", fields) =>
    match ← record? reading ["decorators", "is_abstract", "name", "type_parameters",
        "heritage_clauses", "members"] fields with
    | [decorators, isAbstract, name, typeParameters, heritage, members] =>
      return .classDecl (← nodes decorators) (← flag isAbstract) (← node name)
        (← nodes typeParameters) (← nodes heritage) (← nodes members)
    | _ => none
  | ("Interface", fields) =>
    match ← record? reading ["name", "type_parameters", "heritage_clauses", "members"] fields with
    | [name, typeParameters, heritage, members] =>
      return .interfaceDecl (← node name) (← nodes typeParameters) (← nodes heritage)
        (← nodes members)
    | _ => none
  | ("HeritageClause", fields) =>
    two reading ("token", "types") (word HeritageWord.ofName?) nodes .heritageClause fields
  | ("Property", fields) =>
    match ← record? reading ["decorators", "is_static", "name", "type_node", "initializer"]
        fields with
    | [decorators, isStatic, name, type, initializer] =>
      return .property (← nodes decorators) (← flag isStatic) (← node name) (← nodeOpt type)
        (← nodeOpt initializer)
    | _ => none
  | ("Method", fields) =>
    match ← record? reading ["decorators", "is_static", "name", "parameters", "return_type", "body"]
        fields with
    | [decorators, isStatic, name, parameters, result, body] =>
      return .method (← nodes decorators) (← flag isStatic) (← node name) (← nodes parameters)
        (← nodeOpt result) (← nodeOpt body)
    | _ => none
  | ("Constructor", fields) =>
    two reading ("parameters", "body") nodes nodeOpt .constructorDecl fields
  | ("PropertySignature", fields) =>
    two reading ("name", "type_node") node nodeOpt .propertySignature fields
  | ("MethodSignature", fields) =>
    match ← record? reading ["name", "parameters", "return_type"] fields with
    | [name, parameters, result] =>
      return .methodSignature (← node name) (← nodes parameters) (← nodeOpt result)
    | _ => none
  | ("Decorator", fields) => one reading "expression" node .decorator fields
  | ("Enum", fields) => two reading ("name", "members") node nodes .enumDecl fields
  | ("EnumMember", fields) => two reading ("name", "initializer") node nodeOpt .enumMember fields
  | ("Import", fields) =>
    two reading ("named_imports", "module_specifier") nodes node .importDecl fields
  | ("ImportSpecifier", fields) =>
    two reading ("property_name", "name") nodeOpt node .importSpecifier fields
  | ("ImportEquals", fields) =>
    two reading ("name", "module_specifier") node node .importEquals fields
  | ("Module", fields) => two reading ("name", "body") node nodes .namespaceDecl fields
  | _ => none

/-- Reads a payload. -/
def Payload.decode? (reading : Reading) (value : Json) : Option Payload := do
  match ← Json.choice? value with
  | ("SourceFile", fields) => two .lenient ("file_name", "statements") text nodes .sourceFile fields
  | ("Name", carried) => return .name (← Name.decode? reading carried)
  | ("Literal", carried) => return .literal (← Literal.decode? reading carried)
  | ("Expr", carried) => return .expr (← Expr.decode? reading carried)
  | ("Stmt", carried) => return .stmt (← Stmt.decode? reading carried)
  | ("Type", carried) => return .type (← TypeExpr.decode? reading carried)
  | ("Decl", carried) => return .decl (← Decl.decode? reading carried)
  | _ => none

end Dartify
