/-!
# Module paths

The path under which a declaring file is looked up.  Backslashes count as slashes.  A file of the
default library, `lib.d.ts` or `lib.*.d.ts` in any folder, is known by its last segment.  Any other
file is made relative to the base path when the base path is made of its leading segments, then it
loses one leading `./` and every leading slash.  At the end one suffix goes, `.d.ts` or else `.ts`.

The functions work on lists of characters, and `ofFile` is their form on texts.
-/

namespace Dartify.ModulePath

/-- A path with slashes only. -/
def slashed (path : List Char) : List Char :=
  path.map fun c => if c = '\\' then '/' else c

/-- The part of a path after its last slash. -/
def lastSegment (path : List Char) : List Char :=
  (path.reverse.takeWhile (· != '/')).reverse

/-- What remains of a text after a suffix. -/
def dropEnding? (ending text : List Char) : Option (List Char) :=
  ending.isSuffixOf? text

/-- A path without one suffix of declaration or source files. -/
def dropExtension (path : List Char) : List Char :=
  match dropEnding? ".d.ts".toList path with
  | some stem => stem
  | none => (dropEnding? ".ts".toList path).getD path

/-- A path without the slashes at its end. -/
def dropTrailingSlashes (path : List Char) : List Char :=
  (path.reverse.dropWhile (· == '/')).reverse

/-- A path without the slashes at its start. -/
def dropLeadingSlashes (path : List Char) : List Char :=
  path.dropWhile (· == '/')

/-- A path without one `./` at its start. -/
def dropDotSlash (path : List Char) : List Char :=
  ("./".toList.isPrefixOf? path).getD path

/-- Whether a segment names a file of the default library. -/
def isLibrarySegment (segment : List Char) : Bool :=
  "lib.".toList.isPrefixOf segment && ".d.ts".toList.isSuffixOf segment

/-- What remains of `path` after the whole segments of `base`, and `path` itself when `base` is
empty or is not made of leading segments of it. -/
def relativeTo (base path : List Char) : List Char :=
  if base.isEmpty then path
  else
    match base.isPrefixOf? path with
    | some rest => if rest.isEmpty || rest.head? == some '/' then rest else path
    | none => path

/-- The path of a file outside the default library. -/
def ofPlain (file : List Char) (base : Option (List Char)) : List Char :=
  let inside := match base with
    | some base => relativeTo (dropTrailingSlashes (slashed base)) file
    | none => file
  dropExtension (dropLeadingSlashes (dropDotSlash inside))

/-- The path of a file, on lists of characters. -/
def ofChars (file : List Char) (base : Option (List Char)) : List Char :=
  let file := slashed file
  if isLibrarySegment (lastSegment file) then dropExtension (lastSegment file)
  else ofPlain file base

/-- The path under which a declaring file is looked up, relative to a base path. -/
def ofFile (file : String) (base : Option String) : String :=
  String.ofList (ofChars file.toList (base.map String.toList))

end Dartify.ModulePath
