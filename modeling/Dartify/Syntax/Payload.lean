import Dartify.Syntax.Operator

/-!
# Nodes of a syntax tree

A tree is a table of nodes, and a node refers to others by their place in the table, its *handle*.
The *payload* of a node is what it is, apart from its place in the text.  Payloads fall into six
categories and the source file.  Fields stand in the order in which trees are stored.

`Payload.kind` names the form of a payload, and `Payload.children` lists its handles in the order
of its fields.
-/

namespace Dartify

/-- The place of a node in its tree. -/
abbrev NodeId := Nat

/-- A name: an identifier or a dotted name. -/
inductive Name where
  | identifier (text : String)
  | qualified (left right : NodeId)
  deriving DecidableEq, Repr

/-- A literal, or a part of one. -/
inductive Literal where
  | numeric (text : String)
  | string (text : String)
  | regExp (text : String)
  | plainTemplate (text : String)
  | template (head : NodeId) (spans : List NodeId)
  | templateHead (text : String)
  | templateMiddle (text : String)
  | templateTail (text : String)
  | templateSpan (expression literal : NodeId)
  | array (elements : List NodeId)
  | object (properties : List NodeId)
  | property (name initializer : NodeId)
  | shorthandProperty (name : NodeId)
  | boolean (value : Bool)
  | null
  | thisRef
  deriving DecidableEq, Repr

/-- An expression that is no literal. -/
inductive Expr where
  | binary (left : NodeId) (operator : BinaryOperator) (right : NodeId)
  | prefixUnary (operator : PrefixOperator) (operand : NodeId)
  | postfixUnary (operator : PostfixOperator) (operand : NodeId)
  | conditional (condition whenTrue whenFalse : NodeId)
  | delete (expression : NodeId)
  | void (expression : NodeId)
  | typeOf (expression : NodeId)
  | parenthesized (expression : NodeId)
  | propertyAccess (expression name : NodeId)
  | elementAccess (expression argument : NodeId)
  | call (expression : NodeId) (typeArguments arguments : List NodeId)
  | construct (expression : NodeId) (typeArguments : List NodeId)
      (arguments : Option (List NodeId))
  | typeAssertion (type expression : NodeId)
  | superRef
  deriving DecidableEq, Repr

/-- A statement, or a part of one. -/
inductive Stmt where
  | block (statements : List NodeId)
  | empty
  | exprStmt (expression : NodeId)
  | variables (declarationList : NodeId)
  | ifElse (condition thenBranch : NodeId) (elseBranch : Option NodeId)
  | doWhile (body condition : NodeId)
  | whileLoop (condition body : NodeId)
  | forLoop (initializer condition incrementor : Option NodeId) (body : NodeId)
  | forIn (initializer expression body : NodeId)
  | forOf (initializer expression body : NodeId)
  | continueTo (label : Option NodeId)
  | breakTo (label : Option NodeId)
  | returnValue (expression : Option NodeId)
  | switch (expression cases : NodeId)
  | caseBlock (clauses : List NodeId)
  | caseClause (expression : NodeId) (statements : List NodeId)
  | defaultClause (statements : List NodeId)
  | labeled (label statement : NodeId)
  | throwing (expression : NodeId)
  | tryCatch (body : NodeId) (handler cleanup : Option NodeId)
  | catchClause (binding body : NodeId)
  deriving DecidableEq, Repr

/-- A type, or a part of one. -/
inductive TypeExpr where
  | keyword (word : KeywordType)
  | reference (name : NodeId) (arguments : List NodeId)
  | literal (members : List NodeId)
  | parameter (name : NodeId) (constraint : Option NodeId)
  | array (element : NodeId)
  | union (types : List NodeId)
  | function (typeParameters parameters : List NodeId) (result : NodeId)
  | applied (expression : NodeId) (arguments : List NodeId)
  deriving DecidableEq, Repr

/-- A declaration, or a part of one. -/
inductive Decl where
  | variableList (kind : VariableKind) (declarations : List NodeId)
  | variableDecl (name : NodeId) (type initializer : Option NodeId)
  | parameter (name : NodeId) (type initializer : Option NodeId) (isOptional : Bool)
  | function (name : NodeId) (typeParameters parameters : List NodeId)
      (result body : Option NodeId)
  | functionExpr (name : Option NodeId) (parameters : List NodeId) (result : Option NodeId)
      (body : NodeId)
  | arrow (parameters : List NodeId) (result : Option NodeId) (body : NodeId)
  | classDecl (decorators : List NodeId) (isAbstract : Bool) (name : NodeId)
      (typeParameters heritage members : List NodeId)
  | interfaceDecl (name : NodeId) (typeParameters heritage members : List NodeId)
  | heritageClause (word : HeritageWord) (types : List NodeId)
  | property (decorators : List NodeId) (isStatic : Bool) (name : NodeId)
      (type initializer : Option NodeId)
  | method (decorators : List NodeId) (isStatic : Bool) (name : NodeId)
      (parameters : List NodeId) (result body : Option NodeId)
  | constructorDecl (parameters : List NodeId) (body : Option NodeId)
  | propertySignature (name : NodeId) (type : Option NodeId)
  | methodSignature (name : NodeId) (parameters : List NodeId) (result : Option NodeId)
  | decorator (expression : NodeId)
  | enumDecl (name : NodeId) (members : List NodeId)
  | enumMember (name : NodeId) (initializer : Option NodeId)
  | importDecl (namedImports : List NodeId) (specifier : NodeId)
  | importSpecifier (propertyName : Option NodeId) (name : NodeId)
  | importEquals (name specifier : NodeId)
  | namespaceDecl (name : NodeId) (body : List NodeId)
  deriving DecidableEq, Repr

/-- What a node is, apart from its place in the text. -/
inductive Payload where
  | sourceFile (fileName : String) (statements : List NodeId)
  | name (form : Name)
  | literal (form : Literal)
  | expr (form : Expr)
  | stmt (form : Stmt)
  | type (form : TypeExpr)
  | decl (form : Decl)
  deriving DecidableEq, Repr

/-! ## Kinds -/

/-- The name of the form of a name. -/
def Name.kind : Name → String
  | .identifier _ => "Identifier"
  | .qualified _ _ => "QualifiedName"

/-- The name of the form of a literal. -/
def Literal.kind : Literal → String
  | .numeric _ => "NumericLiteral"
  | .string _ => "StringLiteral"
  | .regExp _ => "RegularExpressionLiteral"
  | .plainTemplate _ => "NoSubstitutionTemplateLiteral"
  | .template _ _ => "TemplateExpression"
  | .templateHead _ => "TemplateHead"
  | .templateMiddle _ => "TemplateMiddle"
  | .templateTail _ => "TemplateTail"
  | .templateSpan _ _ => "TemplateSpan"
  | .array _ => "ArrayLiteralExpression"
  | .object _ => "ObjectLiteralExpression"
  | .property _ _ => "PropertyAssignment"
  | .shorthandProperty _ => "ShorthandPropertyAssignment"
  | .boolean true => "TrueKeyword"
  | .boolean false => "FalseKeyword"
  | .null => "NullKeyword"
  | .thisRef => "ThisKeyword"

/-- The name of the form of an expression. -/
def Expr.kind : Expr → String
  | .binary _ _ _ => "BinaryExpression"
  | .prefixUnary _ _ => "PrefixUnaryExpression"
  | .postfixUnary _ _ => "PostfixUnaryExpression"
  | .conditional _ _ _ => "ConditionalExpression"
  | .delete _ => "DeleteExpression"
  | .void _ => "VoidExpression"
  | .typeOf _ => "TypeOfExpression"
  | .parenthesized _ => "ParenthesizedExpression"
  | .propertyAccess _ _ => "PropertyAccessExpression"
  | .elementAccess _ _ => "ElementAccessExpression"
  | .call _ _ _ => "CallExpression"
  | .construct _ _ _ => "NewExpression"
  | .typeAssertion _ _ => "TypeAssertionExpression"
  | .superRef => "SuperKeyword"

/-- The name of the form of a statement. -/
def Stmt.kind : Stmt → String
  | .block _ => "Block"
  | .empty => "EmptyStatement"
  | .exprStmt _ => "ExpressionStatement"
  | .variables _ => "VariableStatement"
  | .ifElse _ _ _ => "IfStatement"
  | .doWhile _ _ => "DoStatement"
  | .whileLoop _ _ => "WhileStatement"
  | .forLoop _ _ _ _ => "ForStatement"
  | .forIn _ _ _ => "ForInStatement"
  | .forOf _ _ _ => "ForOfStatement"
  | .continueTo _ => "ContinueStatement"
  | .breakTo _ => "BreakStatement"
  | .returnValue _ => "ReturnStatement"
  | .switch _ _ => "SwitchStatement"
  | .caseBlock _ => "CaseBlock"
  | .caseClause _ _ => "CaseClause"
  | .defaultClause _ => "DefaultClause"
  | .labeled _ _ => "LabeledStatement"
  | .throwing _ => "ThrowStatement"
  | .tryCatch _ _ _ => "TryStatement"
  | .catchClause _ _ => "CatchClause"

/-- The name of the form of a type. -/
def TypeExpr.kind : TypeExpr → String
  | .keyword _ => "KeywordType"
  | .reference _ _ => "TypeReference"
  | .literal _ => "TypeLiteral"
  | .parameter _ _ => "TypeParameter"
  | .array _ => "ArrayType"
  | .union _ => "UnionType"
  | .function _ _ _ => "FunctionType"
  | .applied _ _ => "ExpressionWithTypeArguments"

/-- The name of the form of a declaration. -/
def Decl.kind : Decl → String
  | .variableList _ _ => "VariableDeclarationList"
  | .variableDecl _ _ _ => "VariableDeclaration"
  | .parameter _ _ _ _ => "Parameter"
  | .function _ _ _ _ _ => "FunctionDeclaration"
  | .functionExpr _ _ _ _ => "FunctionExpression"
  | .arrow _ _ _ => "ArrowFunction"
  | .classDecl _ _ _ _ _ _ => "ClassDeclaration"
  | .interfaceDecl _ _ _ _ => "InterfaceDeclaration"
  | .heritageClause _ _ => "HeritageClause"
  | .property _ _ _ _ _ => "PropertyDeclaration"
  | .method _ _ _ _ _ _ => "MethodDeclaration"
  | .constructorDecl _ _ => "Constructor"
  | .propertySignature _ _ => "PropertySignature"
  | .methodSignature _ _ _ => "MethodSignature"
  | .decorator _ => "Decorator"
  | .enumDecl _ _ => "EnumDeclaration"
  | .enumMember _ _ => "EnumMember"
  | .importDecl _ _ => "ImportDeclaration"
  | .importSpecifier _ _ => "ImportSpecifier"
  | .importEquals _ _ => "ImportEqualsDeclaration"
  | .namespaceDecl _ _ => "ModuleDeclaration"

/-- The name of the form of a payload. -/
def Payload.kind : Payload → String
  | .sourceFile _ _ => "SourceFile"
  | .name form => form.kind
  | .literal form => form.kind
  | .expr form => form.kind
  | .stmt form => form.kind
  | .type form => form.kind
  | .decl form => form.kind

/-! ## Children -/

/-- The handles of a name. -/
def Name.children : Name → List NodeId
  | .identifier _ => []
  | .qualified left right => [left, right]

/-- The handles of a literal. -/
def Literal.children : Literal → List NodeId
  | .numeric _ | .string _ | .regExp _ | .plainTemplate _ => []
  | .template head spans => head :: spans
  | .templateHead _ | .templateMiddle _ | .templateTail _ => []
  | .templateSpan expression literal => [expression, literal]
  | .array elements => elements
  | .object properties => properties
  | .property name initializer => [name, initializer]
  | .shorthandProperty name => [name]
  | .boolean _ | .null | .thisRef => []

/-- The handles of an expression. -/
def Expr.children : Expr → List NodeId
  | .binary left _ right => [left, right]
  | .prefixUnary _ operand => [operand]
  | .postfixUnary _ operand => [operand]
  | .conditional condition whenTrue whenFalse => [condition, whenTrue, whenFalse]
  | .delete expression | .void expression | .typeOf expression
  | .parenthesized expression => [expression]
  | .propertyAccess expression name => [expression, name]
  | .elementAccess expression argument => [expression, argument]
  | .call expression typeArguments arguments => expression :: (typeArguments ++ arguments)
  | .construct expression typeArguments arguments =>
    expression :: (typeArguments ++ arguments.getD [])
  | .typeAssertion type expression => [type, expression]
  | .superRef => []

/-- The handles of a statement. -/
def Stmt.children : Stmt → List NodeId
  | .block statements => statements
  | .empty => []
  | .exprStmt expression => [expression]
  | .variables declarationList => [declarationList]
  | .ifElse condition thenBranch elseBranch => condition :: thenBranch :: elseBranch.toList
  | .doWhile body condition => [body, condition]
  | .whileLoop condition body => [condition, body]
  | .forLoop initializer condition incrementor body =>
    initializer.toList ++ condition.toList ++ incrementor.toList ++ [body]
  | .forIn initializer expression body => [initializer, expression, body]
  | .forOf initializer expression body => [initializer, expression, body]
  | .continueTo label => label.toList
  | .breakTo label => label.toList
  | .returnValue expression => expression.toList
  | .switch expression cases => [expression, cases]
  | .caseBlock clauses => clauses
  | .caseClause expression statements => expression :: statements
  | .defaultClause statements => statements
  | .labeled label statement => [label, statement]
  | .throwing expression => [expression]
  | .tryCatch body handler cleanup =>
    body :: (handler.toList ++ cleanup.toList)
  | .catchClause binding body => [binding, body]

/-- The handles of a type. -/
def TypeExpr.children : TypeExpr → List NodeId
  | .keyword _ => []
  | .reference name arguments => name :: arguments
  | .literal members => members
  | .parameter name constraint => name :: constraint.toList
  | .array element => [element]
  | .union types => types
  | .function typeParameters parameters result => typeParameters ++ parameters ++ [result]
  | .applied expression arguments => expression :: arguments

/-- The handles of a declaration. -/
def Decl.children : Decl → List NodeId
  | .variableList _ declarations => declarations
  | .variableDecl name type initializer => name :: (type.toList ++ initializer.toList)
  | .parameter name type initializer _ => name :: (type.toList ++ initializer.toList)
  | .function name typeParameters parameters result body =>
    name :: (typeParameters ++ parameters ++ result.toList ++ body.toList)
  | .functionExpr name parameters result body =>
    name.toList ++ parameters ++ result.toList ++ [body]
  | .arrow parameters result body => parameters ++ result.toList ++ [body]
  | .classDecl decorators _ name typeParameters heritage members =>
    decorators ++ name :: (typeParameters ++ heritage ++ members)
  | .interfaceDecl name typeParameters heritage members =>
    name :: (typeParameters ++ heritage ++ members)
  | .heritageClause _ types => types
  | .property decorators _ name type initializer =>
    decorators ++ name :: (type.toList ++ initializer.toList)
  | .method decorators _ name parameters result body =>
    decorators ++ name :: (parameters ++ result.toList ++ body.toList)
  | .constructorDecl parameters body => parameters ++ body.toList
  | .propertySignature name type => name :: type.toList
  | .methodSignature name parameters result => name :: (parameters ++ result.toList)
  | .decorator expression => [expression]
  | .enumDecl name members => name :: members
  | .enumMember name initializer => name :: initializer.toList
  | .importDecl namedImports specifier => namedImports ++ [specifier]
  | .importSpecifier propertyName name => propertyName.toList ++ [name]
  | .importEquals name specifier => [name, specifier]
  | .namespaceDecl name body => name :: body

/-- The handles of a payload, in the order of its fields. -/
def Payload.children : Payload → List NodeId
  | .sourceFile _ statements => statements
  | .name form => form.children
  | .literal form => form.children
  | .expr form => form.children
  | .stmt form => form.children
  | .type form => form.children
  | .decl form => form.children

/-! ## Texts of leaves -/

/-- The source text that the place of a childless node is made for. -/
def Payload.leafText : Payload → String
  | .name (.identifier text) => text
  | .literal (.numeric text) | .literal (.string text) | .literal (.regExp text)
  | .literal (.plainTemplate text) | .literal (.templateHead text)
  | .literal (.templateMiddle text) | .literal (.templateTail text) => text
  | _ => ""

end Dartify
