import Dartify.Json.Basic
import Dartify.Syntax.Payload

/-!
# Payloads as JSON

A payload is stored as a choice of its category, inside it a choice of its form, and inside that the
record of its fields.  `Shape` is the form with its fields as data, named and in order, and one
function writes every shape.  A record is written in one of two *layouts*: as an object, or as the
list of the field values in their order.

A form without fields is its bare name.  A type keyword carries the bare name of the keyword.
-/

namespace Dartify

/-- How a record is written. -/
inductive Layout where
  /-- As an object with a key for each field. -/
  | named
  /-- As the list of the field values. -/
  | positional
  deriving DecidableEq, Repr

/-- Writes a record. -/
def Layout.record : Layout → List (String × Json) → Json
  | .named, fields => .object fields
  | .positional, fields => .list (fields.map Prod.snd)

/-- The value of a field of a payload. -/
inductive Slot where
  /-- A text. -/
  | text (value : String)
  /-- A truth value. -/
  | flag (value : Bool)
  /-- The stored name of a word. -/
  | word (name : String)
  /-- A handle. -/
  | node (node : NodeId)
  /-- A handle that may be absent. -/
  | nodeOpt (node : Option NodeId)
  /-- Handles. -/
  | nodes (nodes : List NodeId)
  /-- Handles that may be absent. -/
  | nodesOpt (nodes : Option (List NodeId))
  deriving DecidableEq, Repr

namespace Slot

/-- A list of handles as JSON. -/
def handles (list : List NodeId) : Json :=
  .list (list.map Json.nat)

/-- The JSON of a field value. -/
def encode : Slot → Json
  | .text value => .text value
  | .flag value => .bool value
  | .word name => .text name
  | .node handle => .nat handle
  | .nodeOpt none => .null
  | .nodeOpt (some handle) => .nat handle
  | .nodes list => handles list
  | .nodesOpt none => .null
  | .nodesOpt (some list) => handles list

end Slot

/-- The form of a payload with its fields. -/
inductive Shape where
  /-- A form without fields. -/
  | bare (form : String)
  /-- A form that is one word. -/
  | single (form word : String)
  /-- A form with a record of fields. -/
  | record (form : String) (fields : List (String × Slot))
  deriving DecidableEq, Repr

/-- The JSON of a shape. -/
def Shape.encode (layout : Layout) : Shape → Json
  | .bare form => .text form
  | .single form word => .object [(form, .text word)]
  | .record form fields =>
    .object [(form, layout.record (fields.map fun field => (field.1, field.2.encode)))]

/-- The shape of a name. -/
def Name.shape : Name → Shape
  | .identifier text => .record "Identifier" [("text", .text text)]
  | .qualified left right => .record "Qualified" [("left", .node left), ("right", .node right)]

/-- The shape of a literal. -/
def Literal.shape : Literal → Shape
  | .numeric text => .record "Numeric" [("text", .text text)]
  | .string text => .record "String" [("text", .text text)]
  | .regExp text => .record "RegularExpression" [("text", .text text)]
  | .plainTemplate text => .record "NoSubstitutionTemplate" [("text", .text text)]
  | .template head spans => .record "Template" [("head", .node head), ("spans", .nodes spans)]
  | .templateHead text => .record "TemplateHead" [("text", .text text)]
  | .templateMiddle text => .record "TemplateMiddle" [("text", .text text)]
  | .templateTail text => .record "TemplateTail" [("text", .text text)]
  | .templateSpan expression literal =>
    .record "TemplateSpan" [("expression", .node expression), ("literal", .node literal)]
  | .array elements => .record "Array" [("elements", .nodes elements)]
  | .object properties => .record "Object" [("properties", .nodes properties)]
  | .property name initializer =>
    .record "PropertyAssignment" [("name", .node name), ("initializer", .node initializer)]
  | .shorthandProperty name => .record "ShorthandPropertyAssignment" [("name", .node name)]
  | .boolean true => .bare "True"
  | .boolean false => .bare "False"
  | .null => .bare "Null"
  | .thisRef => .bare "This"

/-- The shape of an expression. -/
def Expr.shape : Expr → Shape
  | .binary left operator right =>
    .record "Binary"
      [("left", .node left), ("operator", .word operator.name), ("right", .node right)]
  | .prefixUnary operator operand =>
    .record "PrefixUnary" [("operator", .word operator.name), ("operand", .node operand)]
  | .postfixUnary operator operand =>
    .record "PostfixUnary" [("operator", .word operator.name), ("operand", .node operand)]
  | .conditional condition whenTrue whenFalse =>
    .record "Conditional"
      [("condition", .node condition), ("when_true", .node whenTrue),
        ("when_false", .node whenFalse)]
  | .delete expression => .record "Delete" [("expression", .node expression)]
  | .void expression => .record "Void" [("expression", .node expression)]
  | .typeOf expression => .record "TypeOf" [("expression", .node expression)]
  | .parenthesized expression => .record "Parenthesized" [("expression", .node expression)]
  | .propertyAccess expression name =>
    .record "PropertyAccess" [("expression", .node expression), ("name", .node name)]
  | .elementAccess expression argument =>
    .record "ElementAccess" [("expression", .node expression), ("argument", .node argument)]
  | .call expression typeArguments arguments =>
    .record "Call"
      [("expression", .node expression), ("type_arguments", .nodes typeArguments),
        ("arguments", .nodes arguments)]
  | .construct expression typeArguments arguments =>
    .record "New"
      [("expression", .node expression), ("type_arguments", .nodes typeArguments),
        ("arguments", .nodesOpt arguments)]
  | .typeAssertion type expression =>
    .record "TypeAssertion" [("type_node", .node type), ("expression", .node expression)]
  | .superRef => .bare "Super"

/-- The shape of a statement. -/
def Stmt.shape : Stmt → Shape
  | .block statements => .record "Block" [("statements", .nodes statements)]
  | .empty => .bare "Empty"
  | .exprStmt expression => .record "Expression" [("expression", .node expression)]
  | .variables declarationList =>
    .record "Variable" [("declaration_list", .node declarationList)]
  | .ifElse condition thenBranch elseBranch =>
    .record "If"
      [("expression", .node condition), ("then_statement", .node thenBranch),
        ("else_statement", .nodeOpt elseBranch)]
  | .doWhile body condition =>
    .record "Do" [("statement", .node body), ("expression", .node condition)]
  | .whileLoop condition body =>
    .record "While" [("expression", .node condition), ("statement", .node body)]
  | .forLoop initializer condition incrementor body =>
    .record "For"
      [("initializer", .nodeOpt initializer), ("condition", .nodeOpt condition),
        ("incrementor", .nodeOpt incrementor), ("statement", .node body)]
  | .forIn initializer expression body =>
    .record "ForIn"
      [("initializer", .node initializer), ("expression", .node expression),
        ("statement", .node body)]
  | .forOf initializer expression body =>
    .record "ForOf"
      [("initializer", .node initializer), ("expression", .node expression),
        ("statement", .node body)]
  | .continueTo label => .record "Continue" [("label", .nodeOpt label)]
  | .breakTo label => .record "Break" [("label", .nodeOpt label)]
  | .returnValue expression => .record "Return" [("expression", .nodeOpt expression)]
  | .switch expression cases =>
    .record "Switch" [("expression", .node expression), ("case_block", .node cases)]
  | .caseBlock clauses => .record "CaseBlock" [("clauses", .nodes clauses)]
  | .caseClause expression statements =>
    .record "CaseClause" [("expression", .node expression), ("statements", .nodes statements)]
  | .defaultClause statements => .record "DefaultClause" [("statements", .nodes statements)]
  | .labeled label statement =>
    .record "Labeled" [("label", .node label), ("statement", .node statement)]
  | .throwing expression => .record "Throw" [("expression", .node expression)]
  | .tryCatch body handler cleanup =>
    .record "Try"
      [("try_block", .node body), ("catch_clause", .nodeOpt handler),
        ("finally_block", .nodeOpt cleanup)]
  | .catchClause binding body =>
    .record "CatchClause" [("variable_declaration", .node binding), ("block", .node body)]

/-- The shape of a type. -/
def TypeExpr.shape : TypeExpr → Shape
  | .keyword word => .single "Keyword" word.name
  | .reference name arguments =>
    .record "Reference" [("type_name", .node name), ("type_arguments", .nodes arguments)]
  | .literal members => .record "Literal" [("members", .nodes members)]
  | .parameter name constraint =>
    .record "Parameter" [("name", .node name), ("constraint", .nodeOpt constraint)]
  | .array element => .record "Array" [("element_type", .node element)]
  | .union types => .record "Union" [("types", .nodes types)]
  | .function typeParameters parameters result =>
    .record "Function"
      [("type_parameters", .nodes typeParameters), ("parameters", .nodes parameters),
        ("return_type", .node result)]
  | .applied expression arguments =>
    .record "ExpressionWithTypeArguments"
      [("expression", .node expression), ("type_arguments", .nodes arguments)]

/-- The shape of a declaration. -/
def Decl.shape : Decl → Shape
  | .variableList kind declarations =>
    .record "VariableDeclarationList"
      [("kind", .word kind.name), ("declarations", .nodes declarations)]
  | .variableDecl name type initializer =>
    .record "VariableDeclaration"
      [("name", .node name), ("type_node", .nodeOpt type), ("initializer", .nodeOpt initializer)]
  | .parameter name type initializer isOptional =>
    .record "Parameter"
      [("name", .node name), ("type_node", .nodeOpt type), ("initializer", .nodeOpt initializer),
        ("optional", .flag isOptional)]
  | .function name typeParameters parameters result body =>
    .record "Function"
      [("name", .node name), ("type_parameters", .nodes typeParameters),
        ("parameters", .nodes parameters), ("return_type", .nodeOpt result),
        ("body", .nodeOpt body)]
  | .functionExpr name parameters result body =>
    .record "FunctionExpression"
      [("name", .nodeOpt name), ("parameters", .nodes parameters),
        ("return_type", .nodeOpt result), ("body", .node body)]
  | .arrow parameters result body =>
    .record "ArrowFunction"
      [("parameters", .nodes parameters), ("return_type", .nodeOpt result), ("body", .node body)]
  | .classDecl decorators isAbstract name typeParameters heritage members =>
    .record "Class"
      [("decorators", .nodes decorators), ("is_abstract", .flag isAbstract), ("name", .node name),
        ("type_parameters", .nodes typeParameters), ("heritage_clauses", .nodes heritage),
        ("members", .nodes members)]
  | .interfaceDecl name typeParameters heritage members =>
    .record "Interface"
      [("name", .node name), ("type_parameters", .nodes typeParameters),
        ("heritage_clauses", .nodes heritage), ("members", .nodes members)]
  | .heritageClause word types =>
    .record "HeritageClause" [("token", .word word.name), ("types", .nodes types)]
  | .property decorators isStatic name type initializer =>
    .record "Property"
      [("decorators", .nodes decorators), ("is_static", .flag isStatic), ("name", .node name),
        ("type_node", .nodeOpt type), ("initializer", .nodeOpt initializer)]
  | .method decorators isStatic name parameters result body =>
    .record "Method"
      [("decorators", .nodes decorators), ("is_static", .flag isStatic), ("name", .node name),
        ("parameters", .nodes parameters), ("return_type", .nodeOpt result),
        ("body", .nodeOpt body)]
  | .constructorDecl parameters body =>
    .record "Constructor" [("parameters", .nodes parameters), ("body", .nodeOpt body)]
  | .propertySignature name type =>
    .record "PropertySignature" [("name", .node name), ("type_node", .nodeOpt type)]
  | .methodSignature name parameters result =>
    .record "MethodSignature"
      [("name", .node name), ("parameters", .nodes parameters), ("return_type", .nodeOpt result)]
  | .decorator expression => .record "Decorator" [("expression", .node expression)]
  | .enumDecl name members => .record "Enum" [("name", .node name), ("members", .nodes members)]
  | .enumMember name initializer =>
    .record "EnumMember" [("name", .node name), ("initializer", .nodeOpt initializer)]
  | .importDecl namedImports specifier =>
    .record "Import"
      [("named_imports", .nodes namedImports), ("module_specifier", .node specifier)]
  | .importSpecifier propertyName name =>
    .record "ImportSpecifier" [("property_name", .nodeOpt propertyName), ("name", .node name)]
  | .importEquals name specifier =>
    .record "ImportEquals" [("name", .node name), ("module_specifier", .node specifier)]
  | .namespaceDecl name body => .record "Module" [("name", .node name), ("body", .nodes body)]

/-- The JSON of a payload. -/
def Payload.encode (layout : Layout) : Payload → Json
  | .sourceFile fileName statements =>
    Shape.encode layout
      (.record "SourceFile" [("file_name", .text fileName), ("statements", .nodes statements)])
  | .name form => .object [("Name", form.shape.encode layout)]
  | .literal form => .object [("Literal", form.shape.encode layout)]
  | .expr form => .object [("Expr", form.shape.encode layout)]
  | .stmt form => .object [("Stmt", form.shape.encode layout)]
  | .type form => .object [("Type", form.shape.encode layout)]
  | .decl form => .object [("Decl", form.shape.encode layout)]

end Dartify
