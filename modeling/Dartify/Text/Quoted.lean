/-!
# Dart string texts

Two ways to write a text in Dart source.  A *literal* stands between double quotes and writes
control characters as escapes.  *Template text* stands inside a triple-quoted string and keeps all
but three characters as they are.  Both put a backslash before `$`, which would start an
interpolation.
-/

namespace Dartify.Quoted

/-- What an interpolated expression opens with. -/
abbrev openSpan : String := "$\x7b"

/-- A character below `U+0020` as `\u` and four lower-case hexadecimal digits. -/
def controlEscape (c : Char) : List Char :=
  ['\\', 'u', '0', '0', Nat.digitChar (c.toNat / 16), Nat.digitChar (c.toNat % 16)]

/-- A character inside a double-quoted literal. -/
def literalChar (c : Char) : List Char :=
  if c = '"' then ['\\', '"']
  else if c = '\\' then ['\\', '\\']
  else if c = '$' then ['\\', '$']
  else if c = '\n' then ['\\', 'n']
  else if c = '\r' then ['\\', 'r']
  else if c = '\t' then ['\\', 't']
  else if c = '\x08' then ['\\', 'b']
  else if c = '\x0c' then ['\\', 'f']
  else if c.toNat < 0x20 then controlEscape c
  else [c]

/-- The characters between the quotes of a literal. -/
def literalBody (text : List Char) : List Char :=
  text.flatMap literalChar

/-- A text as a double-quoted literal. -/
def literal (text : String) : String :=
  String.ofList ('"' :: (literalBody text.toList ++ ['"']))

/-- A text between double quotes, kept as it is. -/
def verbatim (text : String) : String :=
  "\"" ++ text ++ "\""

/-- A character inside a triple-quoted string. -/
def templateChar (c : Char) : List Char :=
  if c = '\\' ∨ c = '$' ∨ c = '\x27' then ['\\', c] else [c]

/-- The characters of template text. -/
def templateBody (text : List Char) : List Char :=
  text.flatMap templateChar

/-- A text as it stands inside a triple-quoted string. -/
def template (text : String) : String :=
  String.ofList (templateBody text.toList)

end Dartify.Quoted
