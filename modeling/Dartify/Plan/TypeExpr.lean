import Dartify.Plan.TypeName

/-!
# Plans of names and types

Names are written as they stand, and type names go through the catalog.  A union is `dynamic` with
its members in a comment, the type of an object literal is `dynamic`, and function types have no
Dart form.
-/

namespace Dartify

open Plan

/-- The plan of a name. -/
def Name.plan : Name → Plan
  | .identifier text => [.token text]
  | .qualified left right => [.child left, .token ".", .child right]

/-- The Dart name of a type keyword. -/
def KeywordType.dart : KeywordType → String
  | .number => "num"
  | .string => "String"
  | .boolean => "bool"
  | .void => "void"
  | .any => "dynamic"

/-- The expression that type arguments are applied to; a name is a type name there. -/
def appliedPlan (context : Context) (expression : NodeId) : Plan :=
  withPayload context expression fun payload =>
    match payload with
    | .name _ => typeName context expression
    | _ => [.child expression]

/-- The plan of a type. -/
def TypeExpr.plan (context : Context) (node : NodeId) : TypeExpr → Plan
  | .keyword word => [.token word.dart]
  | .reference name arguments => typeName context name ++ typeArguments arguments
  | .literal _ => [.token "dynamic"]
  | .parameter name constraint => .child name :: led "extends" constraint
  | .array element => [.token "List", .token "<", .child element, .token ">"]
  | .union types =>
    [.token "dynamic", .token "/*"] ++ separated "|" types ++ [.token "*/"]
  | .function _ _ _ => [.complain node .inlineFunctionType]
  | .applied expression arguments => appliedPlan context expression ++ typeArguments arguments

end Dartify
