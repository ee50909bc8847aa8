import Dartify.Idiom.Basic
import Dartify.Json.Parser

/-!
# Options

How a conversion is configured, and its JSON form.  Every field may be left out and then keeps its
default.  Tables go from module path to name to entry.
-/

namespace Dartify

/-- Entries by module path and name. -/
abbrev ModuleTable (α : Type) := List (String × List (String × α))

/-- The configuration of a conversion. -/
structure Options where
  /-- The folder that declaring files are made relative to. -/
  basePath : Option String := none
  /-- Whether library idioms are looked up at all. -/
  useIdioms : Bool := true
  /-- Whether extra imports are written in front. -/
  emitExtraImports : Bool := true
  /-- Further call idioms. -/
  callIdioms : ModuleTable CallIdiom := []
  /-- Further property idioms. -/
  propertyIdioms : ModuleTable PropertyIdiom := []
  /-- Further type names with their Dart names. -/
  typeNames : ModuleTable String := []
  /-- Further type names with the import they need. -/
  extraImports : List (String × String) := []
  deriving DecidableEq, Repr

/-- Why options could not be read. -/
inductive OptionsError where
  /-- The text is no JSON or does not describe options. -/
  | unparsable
  /-- The file could not be read. -/
  | unreadable (path : String)
  /-- The file was read, and its text is unparsable. -/
  | invalidFile (path : String)
  deriving DecidableEq, Repr

/-- The wording of an error. -/
def OptionsError.message : OptionsError → String
  | .unparsable => "failed to parse translator options"
  | .unreadable path => "failed to read options file " ++ path
  | .invalidFile path => "invalid options in " ++ path ++ ": failed to parse translator options"

namespace Options

/-- Options with another base path. -/
def withBasePath (options : Options) (basePath : String) : Options :=
  { options with basePath := some basePath }

/-- Reads a table. -/
def table? {α : Type} (value? : Json → Option α) : Json → Option (ModuleTable α) :=
  Json.map? (Json.map? value?)

/-- Reads options from a JSON value. -/
def decode? (value : Json) : Option Options := do
  match ← Json.fields? ["basePath", "translateBuiltins", "emitExtraImports", "callRewrites",
      "propertyRewrites", "typeNames", "extraImports"] 0 value with
  | [basePath, useIdioms, emitExtraImports, callIdioms, propertyIdioms, typeNames,
      extraImports] =>
    return {
      basePath := ← Json.optional Json.text? basePath
      useIdioms := ← Json.defaulted true Json.bool? useIdioms
      emitExtraImports := ← Json.defaulted true Json.bool? emitExtraImports
      callIdioms := ← Json.defaulted [] (table? (Json.bare? CallIdiom.ofName?)) callIdioms
      propertyIdioms :=
        ← Json.defaulted [] (table? (Json.bare? PropertyIdiom.ofName?)) propertyIdioms
      typeNames := ← Json.defaulted [] (table? Json.text?) typeNames
      extraImports := ← Json.defaulted [] (Json.map? Json.text?) extraImports }
  | _ => none

/-- Options from a JSON value. -/
def ofJson (value : Json) : Except OptionsError Options :=
  match decode? value with
  | some options => .ok options
  | none => .error .unparsable

/-- Options from JSON text. -/
def ofText (text : String) : Except OptionsError Options :=
  match Json.parse? text with
  | some value => ofJson value
  | none => .error .unparsable

/-- Options from the content of the file at a path. -/
def ofFile (path content : String) : Except OptionsError Options :=
  match ofText content with
  | .ok options => .ok options
  | .error _ => .error (.invalidFile path)

end Options

end Dartify
