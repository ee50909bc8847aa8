/-!
# Filling message templates

A message template holds places written as a decimal number in braces.  Filling puts the arguments
in one after the other: the argument numbered `0` replaces every place `0`, then the argument
numbered `1` replaces every place `1` of the text made so far, and so on.  A place without an
argument stays as it is.
-/

namespace Dartify.Text

/-- The brace that opens. -/
abbrev openBrace : String := "\x7b"

/-- The brace that closes. -/
abbrev closeBrace : String := "\x7d"

/-- Replaces each occurrence of `pattern` from the left, none overlapping the one before.  The
number counts the characters of an occurrence that are still to be passed over. -/
def replaceFrom (pattern replacement : List Char) : Nat → List Char → List Char
  | _, [] => []
  | skip + 1, _ :: rest => replaceFrom pattern replacement skip rest
  | 0, c :: rest =>
    if pattern.isPrefixOf (c :: rest) then
      replacement ++ replaceFrom pattern replacement (pattern.length - 1) rest
    else
      c :: replaceFrom pattern replacement 0 rest
termination_by structural _ text => text

/-- Replaces every occurrence of a pattern that is not empty. -/
def replaceAll (pattern replacement text : List Char) : List Char :=
  replaceFrom pattern replacement 0 text

end Dartify.Text

namespace Dartify.Message

/-- The place of the argument numbered `i`. -/
def place (i : Nat) : List Char :=
  '{' :: (Nat.toDigits 10 i ++ ['}'])

/-- Puts in the arguments, the first of them at the place `i`. -/
def fillFrom : Nat → List String → List Char → List Char
  | _, [], text => text
  | i, argument :: rest, text =>
    fillFrom (i + 1) rest (Text.replaceAll (place i) argument.toList text)
termination_by structural _ arguments => arguments

/-- The template with its arguments put in, one argument after the other. -/
def fill (template : String) (arguments : List String) : String :=
  String.ofList (fillFrom 0 arguments template.toList)

end Dartify.Message
