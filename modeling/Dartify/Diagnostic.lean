import Dartify.Text.Lines
import Dartify.Text.Substitute

/-!
# Diagnostics

A diagnostic tells of a construct that was left out or may be wrong, and where it stands.  The run
goes on after it.  `Complaint` lists the causes that the conversion itself knows of, with the kind
and the wording of each; a `Report` collects the diagnostics of one file in the order in which they
are made.
-/

namespace Dartify

/-- What kind of problem a diagnostic tells of. -/
inductive DiagnosticKind where
  /-- A construct that has no Dart form. -/
  | unsupportedConstruct
  /-- A library name that no symbol was found for. -/
  | ambiguousSymbol
  /-- A library call whose arguments its idiom cannot express. -/
  | malformedUsage
  deriving DecidableEq, Repr

namespace DiagnosticKind

/-- Every kind. -/
def all : List DiagnosticKind := [unsupportedConstruct, ambiguousSymbol, malformedUsage]

/-- The number of a kind. -/
def code : DiagnosticKind → Nat
  | unsupportedConstruct => 90001
  | ambiguousSymbol => 90002
  | malformedUsage => 90003

/-- The name of a kind. -/
def name : DiagnosticKind → String
  | unsupportedConstruct => "unsupportedConstruct"
  | ambiguousSymbol => "ambiguousSymbol"
  | malformedUsage => "malformedRewriteUsage"

/-- The kind with a name. -/
def ofName? (name : String) : Option DiagnosticKind :=
  all.find? fun kind => kind.name == name

end DiagnosticKind

/-- How grave a diagnostic is. -/
inductive Severity where
  | warning | error
  deriving DecidableEq, Repr

/-- The name of a severity. -/
def Severity.name : Severity → String
  | .warning => "Warning"
  | .error => "Error"

/-- A problem and its place. -/
structure Diagnostic where
  /-- The file. -/
  file : String
  /-- The offset at which the construct starts. -/
  start : Nat
  /-- The number of bytes it takes. -/
  length : Nat
  /-- What is wrong. -/
  message : String
  /-- How grave it is. -/
  severity : Severity
  /-- The kind of problem. -/
  kind : DiagnosticKind
  /-- The number of that kind. -/
  code : Nat
  deriving DecidableEq, Repr

namespace Diagnostic

/-- An error at a place. -/
def error (file : String) (start length : Nat) (kind : DiagnosticKind) (message : String) :
    Diagnostic :=
  { file, start, length, message, severity := .error, kind, code := kind.code }

/-- A diagnostic on one line, with the offset of its start. -/
def display (diagnostic : Diagnostic) : String :=
  diagnostic.file ++ "(" ++ toString diagnostic.start ++ "): error TD" ++
    toString diagnostic.code ++ ": " ++ diagnostic.message

/-- A diagnostic on one line, with line and column counted from one. -/
def render (diagnostic : Diagnostic) (lines : Lines) (source : String) : String :=
  let position := lines.position diagnostic.start source
  diagnostic.file ++ ":" ++ toString (position.line + 1) ++ ":" ++
    toString (position.column + 1) ++ ": " ++ diagnostic.message

end Diagnostic

/-! ## Causes -/

/-- A cause for a diagnostic. -/
inductive Complaint where
  /-- An operator without a Dart form. -/
  | operator (spelling : String)
  /-- Constructs without a Dart form. -/
  | construct (name : String)
  /-- A function type where a type is expected. -/
  | inlineFunctionType
  /-- A library name at which no symbol is bound. -/
  | untyped (name : String)
  /-- A library name whose symbol is unknown or declared nowhere. -/
  | undeclared (name : String)
  /-- An argument of `concat` that is no array. -/
  | concatArgument
  /-- A callback of `Map.forEach` without two parameters. -/
  | forEachParameters
  /-- A `forwardRef` of something else than an arrow function. -/
  | forwardRefArgument
  /-- A constant map with arguments. -/
  | constMapArguments
  /-- A call with too few arguments. -/
  | missingArguments (callee : String) (count : Nat)
  deriving DecidableEq, Repr

namespace Complaint

/-- The kind of problem behind a cause. -/
def kind : Complaint → DiagnosticKind
  | operator _ | construct _ | inlineFunctionType => .unsupportedConstruct
  | untyped _ | undeclared _ => .ambiguousSymbol
  | concatArgument | forEachParameters | forwardRefArgument | constMapArguments
  | missingArguments _ _ => .malformedUsage

/-- The wording of a cause. -/
def message : Complaint → String
  | operator spelling => Message.fill "{0} operator is unsupported" [spelling]
  | construct name => Message.fill "{0} are unsupported" [name]
  | inlineFunctionType =>
    "Inline function type declarations not supported. " ++
      "Use function types instead (http://goo.gl/ROC5jN)."
  | untyped name =>
    Message.fill
      ("Untyped property access to \"{0}\" which could be a special ts2dart builtin. " ++
        "Please add type declarations to disambiguate.")
      [name]
  | undeclared name => Message.fill "no declarations for symbol {0}" [name]
  | concatArgument => "Array.concat only takes Array arguments"
  | forEachParameters => "Map.forEach callback requires exactly two arguments"
  | forwardRefArgument => "forwardRef takes only arrow functions"
  | constMapArguments => "Arguments on a Map constructor in a const are unsupported"
  | missingArguments callee count =>
    Message.fill "{0} requires at least {1} argument(s)" [callee, toString count]

end Complaint

/-! ## Reports -/

/-- The diagnostics of one file, in the order in which they were made. -/
structure Report where
  /-- The file. -/
  fileName : String
  /-- The diagnostics. -/
  diagnostics : List Diagnostic := []
  deriving DecidableEq, Repr

namespace Report

/-- Adds a diagnostic for the text from `pos` to `stop`. -/
def add (report : Report) (pos stop : Nat) (kind : DiagnosticKind) (message : String) : Report :=
  { report with
    diagnostics :=
      report.diagnostics ++ [Diagnostic.error report.fileName pos (stop - pos) kind message] }

/-- Whether there is a diagnostic. -/
def hasErrors (report : Report) : Bool :=
  !report.diagnostics.isEmpty

end Report

end Dartify
