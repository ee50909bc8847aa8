import Dartify.Plan.TypeName
import Dartify.Text.Quoted

/-!
# Plans of declarations

Types stand before names.  Optional and defaulted parameters open a group in brackets that reaches
to the end of the list.  An interface is an abstract class that can only be implemented.  Renamed
imports, namespaces, initialized members of enumerations and annotated lists of several variables
have no Dart form.
-/

namespace Dartify

open Plan

/-- Complains about constructs without a Dart form. -/
def constructPlan (node : NodeId) (name : String) : Plan :=
  [.complain node (.construct name)]

/-! ## Variables -/

/-- The annotations of the variables of a list, or the plan that stops at something else. -/
def annotations (context : Context) : List NodeId → Except Plan (List (Option NodeId))
  | [] => .ok []
  | declaration :: rest =>
    match (context.tree.get? declaration).map Node.payload with
    | some (.decl (.variableDecl _ type _)) =>
      (annotations context rest).map fun types => type :: types
    | _ => .error (unexpected context "VariableDeclaration" declaration)

/-- The words in front of a list of variables with this first annotation. -/
def variableLeadPlan (kind : VariableKind) (type : Option NodeId) : Plan :=
  tokenIf (kind == .const) "final" ++
    match type with
    | some type => [.child type]
    | none => tokenIf (kind != .const) "var"

/-- A list of variables.  Dart gives all of them one type, so only a list of one variable may be
annotated. -/
def variableListPlan (context : Context) (node : NodeId) (kind : VariableKind)
    (declarations : List NodeId) : Plan :=
  match annotations context declarations with
  | .error stopped => stopped
  | .ok types =>
    if types.length > 1 && types.any Option.isSome then
      constructPlan node "typed variable declaration lists"
    else variableLeadPlan kind types.head?.join ++ commas declarations

/-! ## Functions -/

/-- Whether a parameter may be left out. -/
def Payload.isOptionalParameter : Payload → Bool
  | .decl (.parameter _ _ initializer isOptional) => isOptional || initializer.isSome
  | _ => false

/-- The parameters of a list after its first one, or all of them when `isFirst` holds.  `isOpen`
tells whether the group of optional parameters is open; it is closed at the end. -/
def parametersFrom (context : Context) : Bool → Bool → List NodeId → Plan
  | _, isOpen, [] => tokenIf isOpen "]"
  | isFirst, isOpen, parameter :: rest =>
    tokenIf (!isFirst) "," ++ withPayload context parameter fun payload =>
      let opens := payload.isOptionalParameter && !isOpen
      tokenIf opens "[" ++ .child parameter :: parametersFrom context false (isOpen || opens) rest
termination_by structural _ _ parameters => parameters

/-- A list of parameters: `( a , [ b = 1 ] )`. -/
def parametersPlan (context : Context) (parameters : List NodeId) : Plan :=
  .token "(" :: (parametersFrom context true false parameters ++ [.token ")"])

/-- A body, or a semicolon when there is none. -/
def bodyPlan : Option NodeId → Plan
  | some body => [.child body]
  | none => [.token ";"]

/-! ## Classes and enumerations -/

/-- A type, or `var` when there is none. -/
def typeOrVarPlan : Option NodeId → Plan
  | some type => [.child type]
  | none => [.token "var"]

/-- The name, type parameters, heritage and members of a class. -/
def classBodyPlan (name : NodeId) (typeParameters heritage members : List NodeId) : Plan :=
  .child name :: (typeArguments typeParameters ++ each heritage ++ .token Text.openBrace ::
    (each members ++ [.token Text.closeBrace]))

/-- Whether a payload is an interface. -/
def Payload.isInterface : Payload → Bool
  | .decl (.interfaceDecl _ _ _ _) => true
  | _ => false

/-- The payload of the parent of a node. -/
def Context.parentPayload? (context : Context) (node : NodeId) : Option Payload :=
  ((context.tree.parent? node).bind context.tree.get?).map Node.payload

/-- The word of a heritage clause.  Interfaces can only be implemented. -/
def heritageWord (context : Context) (node : NodeId) (word : HeritageWord) : String :=
  match word with
  | .extending =>
    if (context.parentPayload? node).any Payload.isInterface then "implements" else "extends"
  | .implementing => "implements"

/-- The name of the class that a constructor belongs to. -/
def className? (context : Context) (node : NodeId) : Option String :=
  match context.parentPayload? node with
  | some (.decl (.classDecl _ _ name _ _ _)) => context.tree.identifierText? name
  | _ => none

/-- A constructor, which has the name of its class. -/
def constructorPlan (context : Context) (node : NodeId) (parameters : List NodeId)
    (body : Option NodeId) : Plan :=
  match className? context node with
  | some name => .token name :: (parametersPlan context parameters ++ bodyPlan body)
  | none => unexpected context "ClassDeclaration member" node

/-- The plan that stops at the first missing or initialized member of an enumeration. -/
def memberFault? (context : Context) : List NodeId → Option Plan
  | [] => none
  | member :: rest =>
    match (context.tree.get? member).map Node.payload with
    | none => some [.abort (.missing member)]
    | some (.decl (.enumMember _ (some _))) => some (constructPlan member "enum initializers")
    | some _ => memberFault? context rest

/-- An enumeration. -/
def enumPlan (context : Context) (name : NodeId) (members : List NodeId) : Plan :=
  match memberFault? context members with
  | some fault => fault
  | none =>
    [.token "enum", .child name, .token Text.openBrace] ++ commas members ++
      [.token Text.closeBrace]

/-! ## Imports -/

/-- The Dart library that a module specifier means. -/
def dartLibrary (specifier : String) : String :=
  match "./".toList.isPrefixOf? specifier.toList with
  | some relative => String.ofList relative ++ ".dart"
  | none =>
    if "../".toList.isPrefixOf specifier.toList || "/".toList.isPrefixOf specifier.toList then
      specifier ++ ".dart"
    else "package:" ++ specifier ++ ".dart"

/-- The library of an import, between double quotes. -/
def libraryPlan (context : Context) (specifier : NodeId) : Plan :=
  withPayload context specifier fun payload =>
    match payload with
    | .literal (.string text) => [.token (Quoted.verbatim (dartLibrary text))]
    | _ => unexpected context "StringLiteral" specifier

/-! ## All declarations -/

/-- The plan of a declaration. -/
def Decl.plan (context : Context) (node : NodeId) : Decl → Plan
  | .variableList kind declarations => variableListPlan context node kind declarations
  | .variableDecl name _ initializer => .child name :: led "=" initializer
  | .parameter name type initializer _ =>
    maybe type ++ .child name :: led "=" initializer
  | .function name typeParameters parameters result body =>
    maybe result ++ .child name :: (typeArguments typeParameters ++
      parametersPlan context parameters ++ bodyPlan body)
  | .functionExpr _ parameters _ body => parametersPlan context parameters ++ [.child body]
  | .arrow parameters _ body => parametersPlan context parameters ++ arrowBody context body
  | .classDecl decorators isAbstract name typeParameters heritage members =>
    each decorators ++ tokenIf isAbstract "abstract" ++ .token "class" ::
      classBodyPlan name typeParameters heritage members
  | .interfaceDecl name typeParameters heritage members =>
    .token "abstract class" :: classBodyPlan name typeParameters heritage members
  | .heritageClause word types => .token (heritageWord context node word) :: commas types
  | .property decorators isStatic name type initializer =>
    each decorators ++ tokenIf isStatic "static" ++ typeOrVarPlan type ++ .child name ::
      (led "=" initializer ++ [.token ";"])
  | .method decorators isStatic name parameters result body =>
    each decorators ++ tokenIf isStatic "static" ++ maybe result ++ .child name ::
      (parametersPlan context parameters ++ bodyPlan body)
  | .constructorDecl parameters body => constructorPlan context node parameters body
  | .propertySignature name type => typeOrVarPlan type ++ [.child name, .token ";"]
  | .methodSignature name parameters result =>
    maybe result ++ .child name :: (parametersPlan context parameters ++ [.token ";"])
  | .decorator expression => [.token "@", .child expression]
  | .enumDecl name members => enumPlan context name members
  | .enumMember name _ => [.child name]
  | .importDecl namedImports specifier =>
    .token "import" :: (libraryPlan context specifier ++
      (if namedImports.isEmpty then [] else .token "show" :: commas namedImports) ++
      [.token ";"])
  | .importSpecifier propertyName name =>
    if propertyName.isSome then constructPlan node "import renames" else typeName context name
  | .importEquals name specifier =>
    .token "import" :: (libraryPlan context specifier ++ .token "as" ::
      (typeName context name ++ [.token ";"]))
  | .namespaceDecl _ _ => constructPlan node "namespaces"

end Dartify
