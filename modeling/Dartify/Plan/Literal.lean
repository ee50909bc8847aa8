import Dartify.Plan.Basic
import Dartify.Text.Quoted

/-!
# Plans of literals

Strings and templates are quoted for Dart.  A template is written as one text: its pieces are glued
to each other, and the first token of each substitution attaches to the opening brace.  Arrays and
objects in a constant context start with `const`.
-/

namespace Dartify

open Plan

/-- The key of an object property.  An identifier becomes a string, and all else is written as it
stands. -/
def propertyKeyPlan (context : Context) (name : NodeId) : Plan :=
  match context.tree.identifierText? name with
  | some text => [.token (Quoted.verbatim text)]
  | none => [.child name]

/-- A list between brackets, after `const` in a constant context. -/
def bracketedPlan (context : Context) (node : NodeId) (opening closing : String)
    (items : List NodeId) : Plan :=
  tokenIf (context.tree.inConstContext node) "const" ++
    .token opening :: (commas items ++ [.token closing])

/-- The plan of a literal. -/
def Literal.plan (context : Context) (node : NodeId) : Literal → Plan
  | .numeric text | .regExp text => [.token text]
  | .string text => [.token (Quoted.literal text)]
  | .plainTemplate text => [.token ("'''" ++ Quoted.template text ++ "'''")]
  | .template head spans => .child head :: each spans
  | .templateHead text => [.token ("'''" ++ Quoted.template text)]
  | .templateMiddle text => [.glue (Quoted.template text)]
  | .templateTail text => [.glue (Quoted.template text), .glue "'''"]
  | .templateSpan expression literal =>
    [.glue Quoted.openSpan, .attach, .child expression, .glue Text.closeBrace, .child literal]
  | .array elements => bracketedPlan context node "[" "]" elements
  | .object properties => bracketedPlan context node Text.openBrace Text.closeBrace properties
  | .property name initializer =>
    propertyKeyPlan context name ++ [.token ":", .child initializer]
  | .shorthandProperty name => propertyKeyPlan context name ++ [.token ":", .child name]
  | .boolean value => [.token (if value then "true" else "false")]
  | .null => [.token "null"]
  | .thisRef => [.token "this"]

end Dartify
