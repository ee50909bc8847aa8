import Dartify.Symbol.Resolver

/-!
# Bindings

The resolver that a front end fills in by hand: it declares symbols one after the other and binds
nodes to them.  A symbol's number is its place in the order of declaration.  A node that is bound
twice keeps the last symbol.

A member is declared in the file of its container, which is read off when the member is declared.
Its dotted name is put together when it is asked for, from the names of its containers.
-/

namespace Dartify

/-- Declared symbols and the nodes bound to them. -/
structure Bindings where
  /-- The symbols, in the order of declaration. -/
  symbols : Array Symbol := #[]
  /-- The symbols of names, the latest first. -/
  nodeSymbols : List (NodeId × SymbolId) := []
  /-- The symbols of the types of expressions, the latest first. -/
  nodeTypes : List (NodeId × SymbolId) := []
  /-- The targets of aliases, the latest first. -/
  aliasTargets : List (SymbolId × SymbolId) := []
  deriving DecidableEq, Repr

namespace Bindings

/-- Bindings without symbols. -/
def empty : Bindings := {}

/-- The number of the next symbol. -/
def next (bindings : Bindings) : SymbolId := bindings.symbols.size

/-- Puts a symbol behind the others. -/
def push (bindings : Bindings) (symbol : Symbol) : Bindings :=
  { bindings with symbols := bindings.symbols.push symbol }

/-- Which declaration is the one of the value, for a symbol with one declaration. -/
def valuePlace (flags : SymbolFlags) : Option Nat :=
  if flags.meets .valued then some 0 else none

/-- Declares a symbol in a file. -/
def declare (bindings : Bindings) (name : String) (flags : SymbolFlags) (file : String) :
    Bindings :=
  bindings.push
    { name := name, flags := flags, declarations := [⟨file, none⟩]
      valueDeclaration := valuePlace flags, parent := none }

/-- The declaration of a member: one in the file of its container, if the container has one. -/
def memberDeclarations (bindings : Bindings) (parent : SymbolId) : List Declaration :=
  match bindings.symbols[parent]? with
  | some container =>
    match container.primary? with
    | some declaration => [⟨declaration.fileName, none⟩]
    | none => []
  | none => []

/-- Declares a member of a symbol. -/
def declareMember (bindings : Bindings) (parent : SymbolId) (name : String)
    (flags : SymbolFlags) : Bindings :=
  bindings.push
    { name := name, flags := flags, declarations := bindings.memberDeclarations parent
      valueDeclaration := valuePlace flags, parent := some parent }

/-- Declares a symbol that no file declares. -/
def declareStub (bindings : Bindings) (name : String) (flags : SymbolFlags) : Bindings :=
  bindings.push
    { name := name, flags := flags, declarations := [], valueDeclaration := none, parent := none }

/-- Declares an alias of `target` in a file. -/
def declareAlias (bindings : Bindings) (name : String) (target : SymbolId) (file : String) :
    Bindings :=
  { bindings.push
      { name := name, flags := .importAlias, declarations := [⟨file, none⟩]
        valueDeclaration := none, parent := none } with
    aliasTargets := (bindings.next, target) :: bindings.aliasTargets }

/-- Binds the name at a node to a symbol. -/
def bind (bindings : Bindings) (node : NodeId) (symbol : SymbolId) : Bindings :=
  { bindings with nodeSymbols := (node, symbol) :: bindings.nodeSymbols }

/-- Binds the type of the expression at a node to a symbol. -/
def bindType (bindings : Bindings) (node : NodeId) (symbol : SymbolId) : Bindings :=
  { bindings with nodeTypes := (node, symbol) :: bindings.nodeTypes }

/-- The names from a symbol to its outermost container, for at most `budget` of them. -/
def namesUp (bindings : Bindings) : Nat → Option SymbolId → List String
  | 0, _ => []
  | _ + 1, none => []
  | budget + 1, some id =>
    match bindings.symbols[id]? with
    | none => []
    | some symbol => symbol.name :: namesUp bindings budget symbol.parent

/-- The dotted name of a symbol, its outermost container first. -/
def qualifiedName (bindings : Bindings) (id : SymbolId) : String :=
  ".".intercalate (bindings.namesUp bindings.symbols.size (some id)).reverse

/-- The answers that bindings give. -/
def resolver (bindings : Bindings) : Resolver where
  symbolAt node := bindings.nodeSymbols.lookup node
  typeSymbolAt node := bindings.nodeTypes.lookup node
  symbol id := bindings.symbols[id]?
  aliasTarget id := bindings.aliasTargets.lookup id
  qualifiedName := bindings.qualifiedName
  symbolCount := bindings.symbols.size
  symbol_lt found := (Array.getElem?_eq_some_iff.mp found).1

end Bindings

end Dartify
