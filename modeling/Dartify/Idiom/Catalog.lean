import Dartify.Assoc
import Dartify.Options
import Dartify.Symbol.Resolver

/-!
# The catalog of idioms

Tables from symbol keys to idioms and to Dart type names, and a map from type names to the imports
they need.  The built-in catalog covers the standard library and the typings of one framework;
options add entries and replace built-in ones.

A *candidate* is a last dotted segment of a name in a table.  Only a name that is a candidate can
lead to an entry, so all others are settled without asking the resolver.
-/

namespace Dartify

/-- Entries by symbol key. -/
structure Table (α : Type) where
  /-- The entries; a key stands once. -/
  entries : List (SymbolKey × α) := []
  deriving DecidableEq, Repr

namespace Table

variable {α : Type}

/-- The entry of a key. -/
def get? (table : Table α) (key : SymbolKey) : Option α :=
  table.entries.lookup key

/-- Sets the entry of a key. -/
def insert (table : Table α) (key : SymbolKey) (entry : α) : Table α :=
  ⟨Assoc.insert key entry table.entries⟩

/-- Whether there is no entry. -/
def isEmpty (table : Table α) : Bool :=
  table.entries.isEmpty

/-- The same named entries under each of several modules. -/
def ofModules (modules : List String) (named : List (String × α)) : List (SymbolKey × α) :=
  modules.flatMap fun path => named.map fun entry => (⟨path, entry.1⟩, entry.2)

/-- The entries of a configured table, with their keys. -/
def flatten (configured : ModuleTable α) : List (SymbolKey × α) :=
  configured.flatMap fun (path, named) => named.map fun entry => (⟨path, entry.1⟩, entry.2)

/-- A table with the entries of a configured table set. -/
def extend (table : Table α) (configured : ModuleTable α) : Table α :=
  ⟨Assoc.insertAll table.entries (flatten configured)⟩

/-- The part of a name after its last dot. -/
def lastDotted (name : String) : String :=
  String.ofList (name.toList.reverse.takeWhile (· != '.')).reverse

/-- The candidates of a table. -/
def candidates (table : Table α) : List String :=
  table.entries.map fun entry => lastDotted entry.1.name

end Table

/-- The idioms, type names and imports of a conversion. -/
structure Catalog where
  /-- Calls and constructions. -/
  calls : Table CallIdiom := {}
  /-- Properties. -/
  properties : Table PropertyIdiom := {}
  /-- Dart names of types. -/
  typeNames : Table String := {}
  /-- Imports by type name. -/
  imports : List (String × String) := []
  deriving DecidableEq, Repr

namespace Catalog

/-- A catalog without entries. -/
def empty : Catalog := {}

/-- The modules of the default library. -/
def defaultLibraries : List String := ["lib", "lib.es6"]

/-- The modules that declare the collections of the sixth edition. -/
def collectionModules : List String :=
  ["angular2/typings/es6-shim/es6-shim", "angular2/typings/es6-collections/es6-collections"]

/-- The built-in call idioms. -/
def builtinCalls : Table CallIdiom where
  entries :=
    Table.ofModules defaultLibraries
      [("Array.push", .arrayPush), ("Array.pop", .arrayPop), ("Array.shift", .arrayShift),
        ("Array.unshift", .arrayUnshift), ("Array.map", .arrayMap),
        ("Array.filter", .arrayFilter), ("Array.some", .arraySome),
        ("Array.slice", .arraySlice), ("Array.splice", .arraySplice),
        ("Array.concat", .arrayConcat), ("Array.join", .arrayJoin),
        ("Array.reduce", .arrayReduce), ("ArrayConstructor.isArray", .arrayIsArray),
        ("RegExp.test", .regExpTest), ("RegExp.exec", .regExpExec)] ++
    Table.ofModules collectionModules
      [("Map.set", .mapSet), ("Map.get", .mapGet), ("Map.has", .mapHas),
        ("Map.delete", .mapDelete), ("Map.forEach", .mapForEach), ("Array.find", .arrayFind)] ++
    [(⟨"angular2/src/facade/collection", "Map"⟩, .constMapConstructor),
      (⟨"angular2/src/core/di/forward_ref", "forwardRef"⟩, .forwardRef),
      (⟨"angular2/src/facade/lang", "CONST_EXPR"⟩, .constExpr),
      (⟨"angular2/src/facade/lang", "normalizeBlank"⟩, .normalizeBlank)]

/-- The built-in property idioms. -/
def builtinProperties : Table PropertyIdiom where
  entries := Table.ofModules collectionModules [("Map.size", .mapSize)]

/-- The built-in type names.  Types of the document model have two Dart forms that do not go
together, so they become `dynamic`. -/
def builtinTypeNames : Table String where
  entries :=
    Table.ofModules defaultLibraries
      [("Date", "DateTime"), ("Array", "List"), ("XMLHttpRequest", "HttpRequest"),
        ("Uint8Array", "Uint8List"), ("ArrayBuffer", "ByteBuffer"), ("Node", "dynamic"),
        ("Text", "dynamic"), ("Element", "dynamic"), ("Event", "dynamic"),
        ("HTMLElement", "dynamic"), ("HTMLAnchorElement", "dynamic"),
        ("HTMLStyleElement", "dynamic"), ("HTMLInputElement", "dynamic"),
        ("HTMLDocument", "dynamic"), ("History", "dynamic"), ("Location", "dynamic")] ++
    Table.ofModules
      ["angular2/typings/es6-promise/es6-promise", "angular2/typings/es6-shim/es6-shim"]
      [("Promise", "Future")] ++
    Table.ofModules ["../../node_modules/rxjs/Observable", "node_modules/rxjs/Observable"]
      [("Observable", "Stream")] ++
    [(⟨"angular2/src/facade/lang", "Date"⟩, "DateTime")]

/-- The built-in imports. -/
def builtinImports : List (String × String) :=
  [("XMLHttpRequest", "dart:html"), ("KeyboardEvent", "dart:html"),
    ("Uint8Array", "dart:typed_arrays"), ("ArrayBuffer", "dart:typed_arrays")]

/-- The built-in catalog. -/
def builtin : Catalog where
  calls := builtinCalls
  properties := builtinProperties
  typeNames := builtinTypeNames
  imports := builtinImports

/-- A catalog with the entries of options set. -/
def extend (catalog : Catalog) (options : Options) : Catalog where
  calls := catalog.calls.extend options.callIdioms
  properties := catalog.properties.extend options.propertyIdioms
  typeNames := catalog.typeNames.extend options.typeNames
  imports := Assoc.insertAll catalog.imports options.extraImports

/-- The names that may lead to a call or property idiom. -/
def propertyCandidates (catalog : Catalog) : List String :=
  catalog.calls.candidates ++ catalog.properties.candidates

/-- The names that may lead to a Dart type name. -/
def typeCandidates (catalog : Catalog) : List String :=
  catalog.typeNames.candidates

end Catalog

end Dartify
