import Dartify.Plan.Basic

/-!
# Plans of statements

Statements keep their form.  Both loops over a collection become Dart's `for`-`in`, and a catch
clause names the type it catches and binds the stack trace.
-/

namespace Dartify

open Plan

/-- A loop over a collection. -/
def eachLoopPlan (initializer expression body : NodeId) : Plan :=
  [.token "for (", .child initializer, .token "in", .child expression, .token ")", .child body]

/-- A jump with an optional operand. -/
def jumpPlan (word : String) (operand : Option NodeId) : Plan :=
  .token word :: (maybe operand ++ [.token ";"])

/-- A catch clause whose binding is called `text`. -/
def catchBindingPlan (text : String) (name : NodeId) (type : Option NodeId) (body : NodeId) :
    Plan :=
  led "on" type ++
    [.token "catch (", .child name, .token ",", .token text, .glue "_stack", .token ")",
      .child body]

/-- A catch clause: `on T catch ( e , e_stack )`. -/
def catchPlan (context : Context) (binding body : NodeId) : Plan :=
  withPayload context binding fun payload =>
    match payload with
    | .decl (.variableDecl name type _) =>
      match context.tree.identifierText? name with
      | some text => catchBindingPlan text name type body
      | none => unexpected context "Identifier" name
    | _ => unexpected context "VariableDeclaration" binding

/-- The plan of a statement. -/
def Stmt.plan (context : Context) : Stmt → Plan
  | .block statements => .token Text.openBrace :: (each statements ++ [.token Text.closeBrace])
  | .empty => [.token ";"]
  | .exprStmt expression => [.child expression, .token ";"]
  | .variables declarationList => [.child declarationList, .token ";"]
  | .ifElse condition thenBranch elseBranch =>
    [.token "if (", .child condition, .token ")", .child thenBranch] ++ led "else" elseBranch
  | .doWhile body condition =>
    [.token "do", .child body, .token "while (", .child condition, .token ") ;"]
  | .whileLoop condition body =>
    [.token "while (", .child condition, .token ")", .child body]
  | .forLoop initializer condition incrementor body =>
    .token "for (" :: (maybe initializer ++ .token ";" :: (maybe condition ++ .token ";" ::
      (maybe incrementor ++ [.token ")", .child body])))
  | .forIn initializer expression body => eachLoopPlan initializer expression body
  | .forOf initializer expression body => eachLoopPlan initializer expression body
  | .continueTo label => jumpPlan "continue" label
  | .breakTo label => jumpPlan "break" label
  | .returnValue expression => jumpPlan "return" expression
  | .switch expression cases =>
    [.token "switch (", .child expression, .token ")", .child cases]
  | .caseBlock clauses => .token Text.openBrace :: (each clauses ++ [.token Text.closeBrace])
  | .caseClause expression statements =>
    [.token "case", .child expression, .token ":"] ++ each statements
  | .defaultClause statements => .token "default :" :: each statements
  | .labeled label statement => [.child label, .token ":", .child statement]
  | .throwing expression => [.token "throw", .child expression, .token ";"]
  | .tryCatch body handler cleanup =>
    [.token "try", .child body] ++ maybe handler ++ led "finally" cleanup
  | .catchClause binding body => catchPlan context binding body

end Dartify
