import Dartify.Symbol.Basic
import Dartify.Symbol.ModulePath

/-!
# Resolving names to symbols

A `Resolver` answers the questions that the conversion asks a front end: which symbol a name stands
for, which symbol the type of an expression has, and what is known about a symbol.  It knows only
finitely many symbols, and says below which number they lie.

An alias leads to another symbol.  `Resolver.terminal` follows aliases until it meets a symbol that
is unknown, is no alias, has no target, or whose target it has already met.  The symbols it leaves
are known and all different, so one step more than there are symbols is always enough.

`Resolver.key` is the pair under which a symbol is looked up: the module path of its declaring file
and its name.  Functions, variables and classes go by their bare name, all else by the dotted name.
-/

namespace Dartify

/-- The answers of a front end about names and types. -/
structure Resolver where
  /-- The symbol of the name at a node. -/
  symbolAt : NodeId → Option SymbolId
  /-- The symbol of the type of the expression at a node. -/
  typeSymbolAt : NodeId → Option SymbolId
  /-- What is known about a symbol. -/
  symbol : SymbolId → Option Symbol
  /-- The symbol that an alias stands for. -/
  aliasTarget : SymbolId → Option SymbolId
  /-- The dotted name of a symbol inside its declaring file. -/
  qualifiedName : SymbolId → String
  /-- A number above all known symbols. -/
  symbolCount : Nat
  /-- No known symbol lies above that number. -/
  symbol_lt : ∀ {id : SymbolId} {found : Symbol}, symbol id = some found → id < symbolCount

/-- The pair under which a symbol is looked up. -/
structure SymbolKey where
  /-- The module path of the declaring file. -/
  modulePath : String
  /-- The name inside the module. -/
  name : String
  deriving DecidableEq, Repr

/-- A key on one line. -/
def SymbolKey.display (key : SymbolKey) : String :=
  key.modulePath ++ ":" ++ key.name

/-- Why a symbol has no key. -/
inductive KeyError where
  /-- Nothing is known about the symbol. -/
  | unknownSymbol
  /-- The symbol is declared nowhere. -/
  | noDeclarations
  deriving DecidableEq, Repr

namespace Resolver

/-- The next symbol on the way from an alias, unless it was met before. -/
def nextAlias? (resolver : Resolver) (met : List SymbolId) (id : SymbolId) : Option SymbolId := do
  let symbol ← resolver.symbol id
  if symbol.isAlias then
    let target ← resolver.aliasTarget id
    if target ∈ met then none else some target
  else none

/-- Follows aliases from a symbol for at most `budget` steps.  The list holds the symbols met. -/
def follow (resolver : Resolver) : Nat → List SymbolId → SymbolId → SymbolId
  | 0, _, id => id
  | budget + 1, met, id =>
    match resolver.nextAlias? met id with
    | some target => follow resolver budget (target :: met) target
    | none => id

/-- The symbol at which following aliases ends. -/
def terminal (resolver : Resolver) (id : SymbolId) : SymbolId :=
  resolver.follow (resolver.symbolCount + 1) [id] id

/-- The key of a symbol. -/
def key (resolver : Resolver) (id : SymbolId) (basePath : Option String) :
    Except KeyError SymbolKey :=
  let terminal := resolver.terminal id
  match resolver.symbol terminal with
  | none => .error .unknownSymbol
  | some symbol =>
    match symbol.primary? with
    | none => .error .noDeclarations
    | some declaration =>
      .ok
        { modulePath := ModulePath.ofFile declaration.fileName basePath
          name :=
            if symbol.flags.meets .bareNamed then symbol.name
            else resolver.qualifiedName terminal }

end Resolver

end Dartify
