import Dartify.Plan.CallIdiom

/-!
# Plans of expressions

Most operators are written as they stand.  The strict comparisons become `identical`, `instanceof`
becomes `is` with a type on its right, and four operators have no Dart form.  Calls, constructions
and property accesses are written as they stand unless an idiom is recognized.
-/

namespace Dartify

open Plan

/-- Complains about an operator without a Dart form. -/
def operatorPlan (node : NodeId) (spelling : String) : Plan :=
  [.complain node (.operator spelling)]

/-- The type on the right of `instanceof`. -/
def testedTypePlan (context : Context) (node : NodeId) : Plan :=
  withPayload context node fun payload =>
    match payload with
    | .name _ => typeName context node
    | .expr (.propertyAccess expression name) =>
      .child expression :: .token "." :: typeName context name
    | _ => [.child node]

/-- The call of `identical` that a strict comparison becomes. -/
def identicalPlan (left right : NodeId) : Plan :=
  [.token "identical (", .child left, .token ",", .child right, .token ")"]

/-- The plan of an expression with two operands. -/
def binaryPlan (context : Context) (node left : NodeId) (operator : BinaryOperator)
    (right : NodeId) : Plan :=
  match operator with
  | .strictEq => identicalPlan left right
  | .strictNe => .token "!" :: identicalPlan left right
  | .instanceOf => .child left :: .token "is" :: testedTypePlan context right
  | .within => operatorPlan node "in"
  | operator => [.child left, .token operator.spelling, .child right]

/-- Whether a payload is a catch clause. -/
def Payload.isCatchClause : Payload → Bool
  | .stmt (.catchClause _ _) => true
  | _ => false

/-- The plan of a property access.  A catch clause binds the stack trace beside the caught value,
so `stack` inside one names that binding. -/
def accessPlan (context : Context) (node expression name : NodeId) : Plan :=
  if context.tree.identifierText? name == some "stack" &&
      context.tree.hasAncestor node Payload.isCatchClause then
    [.child expression, .glue "_stack"]
  else
    ofRecognition [.child expression, .token ".", .child name] (context.recognizeProperty node)

/-- The plan of an expression. -/
def Expr.plan (context : Context) (node : NodeId) : Expr → Plan
  | .binary left operator right => binaryPlan context node left operator right
  | .prefixUnary operator operand => [.token operator.spelling, .child operand]
  | .postfixUnary operator operand => [.child operand, .token operator.spelling]
  | .conditional condition whenTrue whenFalse =>
    [.child condition, .token "?", .child whenTrue, .token ":", .child whenFalse]
  | .delete _ => operatorPlan node "delete"
  | .void _ => operatorPlan node "void"
  | .typeOf _ => operatorPlan node "typeof"
  | .parenthesized expression => [.token "(", .child expression, .token ")"]
  | .propertyAccess expression name => accessPlan context node expression name
  | .elementAccess expression argument =>
    [.child expression, .token "[", .child argument, .token "]"]
  | .call expression typeArgs arguments =>
    ofRecognition
      (.child expression :: (typeArguments typeArgs ++ .token "(" ::
        (commas arguments ++ [.token ")"])))
      (context.recognizeCall node)
  | .construct expression typeArgs arguments =>
    ofRecognition
      (.token (if context.tree.inConstContext node then "const" else "new") ::
        .child expression :: (typeArguments typeArgs ++ .token "(" ::
          (commas (arguments.getD []) ++ [.token ")"])))
      (context.recognizeCall node)
  | .typeAssertion type expression =>
    [.token "(", .child expression, .token "as", .child type, .token ")"]
  | .superRef => [.token "super"]

end Dartify
