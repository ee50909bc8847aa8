import Dartify.Syntax.Tree

/-!
# Building trees

Shorthands that add the common nodes to a tree.  The node that a shorthand is for is always the last
one of the tree it gives back.
-/

namespace Dartify.Tree

/-- The handle of the last node. -/
def last (tree : Tree) : NodeId := tree.size - 1

/-- Adds an identifier. -/
def addIdentifier (tree : Tree) (text : String) : Tree :=
  tree.add (.name (.identifier text))

/-- Adds a dotted name. -/
def addQualifiedName (tree : Tree) (left right : NodeId) : Tree :=
  tree.add (.name (.qualified left right))

/-- Adds a number. -/
def addNumber (tree : Tree) (text : String) : Tree :=
  tree.add (.literal (.numeric text))

/-- Adds a string; `text` is its value without quotes. -/
def addString (tree : Tree) (text : String) : Tree :=
  tree.add (.literal (.string text))

/-- Adds a literal. -/
def addLiteral (tree : Tree) (literal : Literal) : Tree :=
  tree.add (.literal literal)

/-- Adds an expression with two operands. -/
def addBinary (tree : Tree) (left : NodeId) (operator : BinaryOperator) (right : NodeId) : Tree :=
  tree.add (.expr (.binary left operator right))

/-- Adds a call without type arguments. -/
def addCall (tree : Tree) (expression : NodeId) (arguments : List NodeId) : Tree :=
  tree.add (.expr (.call expression [] arguments))

/-- Adds a construction without type arguments. -/
def addConstruction (tree : Tree) (expression : NodeId) (arguments : List NodeId) : Tree :=
  tree.add (.expr (.construct expression [] (some arguments)))

/-- Adds the identifier `name`, then the access to it on `expression`. -/
def addPropertyAccess (tree : Tree) (expression : NodeId) (name : String) : Tree :=
  let named := tree.addIdentifier name
  named.add (.expr (.propertyAccess expression named.last))

/-- Adds an expression statement. -/
def addExprStmt (tree : Tree) (expression : NodeId) : Tree :=
  tree.add (.stmt (.exprStmt expression))

/-- Adds a block. -/
def addBlock (tree : Tree) (statements : List NodeId) : Tree :=
  tree.add (.stmt (.block statements))

/-- Adds a type keyword. -/
def addKeywordType (tree : Tree) (word : KeywordType) : Tree :=
  tree.add (.type (.keyword word))

/-- Adds a reference to a type. -/
def addTypeReference (tree : Tree) (name : NodeId) (arguments : List NodeId) : Tree :=
  tree.add (.type (.reference name arguments))

/-- Adds the identifier `name`, its declaration, the list of this one declaration and the
statement. -/
def addVariable (tree : Tree) (kind : VariableKind) (name : String)
    (type initializer : Option NodeId) : Tree :=
  let named := tree.addIdentifier name
  let declared := named.add (.decl (.variableDecl named.last type initializer))
  let listed := declared.add (.decl (.variableList kind [declared.last]))
  listed.add (.stmt (.variables listed.last))

/-- Adds a source file. -/
def addSourceFile (tree : Tree) (fileName : String) (statements : List NodeId) : Tree :=
  tree.add (.sourceFile fileName statements)

end Dartify.Tree
