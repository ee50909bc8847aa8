import Dartify.Plan.Basic

/-!
# Library names

Looking a name up in the catalog.  A name that is no candidate is settled at once.  Otherwise the
resolver gives its symbol, the symbol its key, and the key an entry.  A candidate without a symbol
or with a symbol that is declared nowhere gives rise to a diagnostic, and nothing is written for it.
-/

namespace Dartify

namespace Context

/-- The key of the name at a node, or the complaint that it has none. -/
def lookup (context : Context) (resolver : Resolver) (name : String) (node : NodeId) :
    Except Complaint SymbolKey :=
  match resolver.symbolAt node with
  | none => .error (.untyped name)
  | some symbol =>
    match resolver.key symbol context.basePath with
    | .ok key => .ok key
    | .error _ => .error (.undeclared name)

/-- Whether a module path is meant by `wanted`, where `lib` means either default library. -/
def isModule (wanted actual : String) : Bool :=
  if wanted == "lib" then actual == "lib" || actual == "lib.es6" else actual == wanted

/-- Whether the type of the expression at a node is the one declared as `name` in a module. -/
def isNamedType (context : Context) (node : NodeId) (modulePath name : String) : Bool :=
  match context.resolver with
  | none => false
  | some resolver =>
    match resolver.typeSymbolAt node with
    | none => false
    | some symbol =>
      match resolver.key symbol context.basePath with
      | .error _ => false
      | .ok key => isModule modulePath key.modulePath && key.name == name

/-- The name that decides whether a type name is a candidate: its last segment. -/
def lastName (context : Context) : Name → String
  | .identifier text => text
  | .qualified _ right => (context.tree.identifierText? right).getD ""

end Context

/-- Writes a type name, or the Dart name that the catalog has for it. -/
def Plan.typeName (context : Context) (node : NodeId) : Plan :=
  withPayload context node fun payload =>
    match payload, context.resolver with
    | .name form, some resolver =>
      let last := context.lastName form
      if last ∈ context.catalog.typeCandidates then
        match context.lookup resolver last node with
        | .error cause => [.complain node cause]
        | .ok key =>
          match context.catalog.typeNames.get? key with
          | some replacement => [.token replacement]
          | none => [.child node]
      else [.child node]
    | _, _ => [.child node]

end Dartify
