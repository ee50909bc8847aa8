import Dartify.Run
import Dartify.Symbol.Bindings

/-!
# Converting units

A `Converter` is a chain of stages with options.  It turns a *unit*, a tree with a root and perhaps
a resolver, into Dart text with diagnostics.  Units do not depend on each other.
-/

namespace Dartify

/-- A tree to convert. -/
structure SourceUnit where
  /-- The tree. -/
  tree : Tree
  /-- The node to start at. -/
  root : NodeId
  /-- The answers of a front end about the tree. -/
  resolver : Option Resolver := none

/-- A converted unit. -/
structure Conversion where
  /-- The name of the source file, empty when the root is none. -/
  fileName : String
  /-- The Dart text. -/
  text : String
  /-- The diagnostics, in the order in which they were made. -/
  diagnostics : List Diagnostic
  deriving DecidableEq, Repr

/-- Whether a unit was converted without a diagnostic. -/
def Conversion.isSuccess (conversion : Conversion) : Bool :=
  conversion.diagnostics.isEmpty

/-- A chain of stages with options. -/
structure Converter (σ : Type) where
  /-- The stages, in the order in which nodes are offered to them. -/
  stages : List (Stage σ)
  /-- The options. -/
  options : Options := {}

namespace Converter

variable {σ : Type}

/-- The chain of built-in stages of some categories. -/
def ofCategories (σ : Type) (categories : List Category) (options : Options) : Converter σ :=
  ⟨categories.map (Category.stage σ), options⟩

/-- The converter with all built-in stages. -/
def standard (options : Options) : Converter Unit :=
  ofCategories Unit Category.all options

/-- The names of the stages. -/
def stageNames (converter : Converter σ) : List String :=
  converter.stages.map Stage.name

/-- The built-in catalog with the entries of the options. -/
def catalog (converter : Converter σ) : Catalog :=
  Catalog.builtin.extend converter.options

/-- The context in which the plans of a unit are made. -/
def context (converter : Converter σ) (unit : SourceUnit) : Context where
  tree := unit.tree
  resolver := if converter.options.useIdioms then unit.resolver else none
  catalog := converter.catalog
  basePath := converter.options.basePath

/-- The name of a source file. -/
def fileName : Payload → String
  | .sourceFile name _ => name
  | _ => ""

/-- The extra imports, if they are wanted, and then the walk from the root. -/
def body (converter : Converter σ) (unit : SourceUnit) : Run σ Unit := do
  if converter.options.emitExtraImports then Run.writeImports (converter.context unit) unit.root
  Run.walk (converter.context unit) converter.stages unit.root

/-- Converts a unit with stages that keep a state, and gives that state back. -/
def run (converter : Converter σ) (unit : SourceUnit) (user : σ) :
    Except Defect Conversion × σ :=
  match unit.tree.get? unit.root with
  | none => (.error (.missing unit.root), user)
  | some root =>
    let name := fileName root.payload
    match (converter.body unit).run.run { report := ⟨name, []⟩, user } with
    | (.ok (), final) =>
      (.ok ⟨name, final.output.text, final.report.diagnostics⟩, final.user)
    | (.error defect, final) => (.error defect, final.user)

/-- Converts a unit. -/
def convert (converter : Converter Unit) (unit : SourceUnit) : Except Defect Conversion :=
  (converter.run unit ()).1

/-- Converts units, each for itself. -/
def convertAll (converter : Converter Unit) (units : List SourceUnit) :
    List (Except Defect Conversion) :=
  units.map converter.convert

end Converter

end Dartify
