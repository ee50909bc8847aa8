import Dartify.Syntax.Payload

/-!
# Symbols

What a front end knows about a declared name: its flags, the files that declare it and the symbol
that contains it.  Flags are bits of a 32-bit word, numbered as the front end numbers them, and
bits without a name here are kept.
-/

namespace Dartify

/-- A symbol's place among the symbols of a unit. -/
abbrev SymbolId := Nat

/-- A set of symbol flags. -/
structure SymbolFlags where
  /-- The flags as bits. -/
  bits : UInt32
  deriving DecidableEq, Repr

namespace SymbolFlags

/-- The set with the one flag at a bit. -/
def bit (place : UInt32) : SymbolFlags := ⟨1 <<< place⟩

/-- The flags of either set. -/
def union (a b : SymbolFlags) : SymbolFlags := ⟨a.bits ||| b.bits⟩

/-- Whether two sets have a flag in common. -/
def meets (a b : SymbolFlags) : Bool := (a.bits &&& b.bits) != 0

/-- A variable of a function or of a block. -/
def anyVariable : SymbolFlags := (bit 0).union (bit 1)

/-- A property. -/
def property : SymbolFlags := bit 2

/-- A member of an enumeration. -/
def enumMember : SymbolFlags := bit 3

/-- A function. -/
def function : SymbolFlags := bit 4

/-- A class. -/
def classType : SymbolFlags := bit 5

/-- A module that holds values. -/
def valueModule : SymbolFlags := bit 9

/-- A method. -/
def method : SymbolFlags := bit 13

/-- An alias of another symbol. -/
def importAlias : SymbolFlags := bit 21

/-- The flags of symbols that have a value. -/
def valued : SymbolFlags :=
  ((((anyVariable.union function).union classType).union method).union property).union enumMember
    |>.union valueModule

/-- The flags of symbols that are known by their bare name. -/
def bareNamed : SymbolFlags := (function.union anyVariable).union classType

end SymbolFlags

/-- A place where a symbol is declared. -/
structure Declaration where
  /-- The declaring file, as the front end saw it. -/
  fileName : String
  /-- The declaring node, when it belongs to the unit at hand. -/
  node : Option NodeId := none
  deriving DecidableEq, Repr

/-- A declared name. -/
structure Symbol where
  /-- The name. -/
  name : String
  /-- The flags. -/
  flags : SymbolFlags
  /-- The places where it is declared. -/
  declarations : List Declaration
  /-- Which of the declarations declares its value, if it has one. -/
  valueDeclaration : Option Nat
  /-- The symbol that contains it. -/
  parent : Option SymbolId
  deriving DecidableEq, Repr

namespace Symbol

/-- Whether the symbol stands for another one. -/
def isAlias (symbol : Symbol) : Bool :=
  symbol.flags.meets .importAlias

/-- The declaration of the value, or else the first declaration. -/
def primary? (symbol : Symbol) : Option Declaration :=
  match symbol.valueDeclaration.bind fun place => symbol.declarations[place]? with
  | some declaration => some declaration
  | none => symbol.declarations.head?

end Symbol

end Dartify
