import Dartify.Text.Blank

/-!
# Log formats

The word that selects how log events are laid out.
-/

namespace Dartify

/-- A layout of log events. -/
inductive LogFormat where
  /-- One flat line per event. -/
  | text
  /-- Events indented below the unit they belong to. -/
  | tree
  /-- One JSON object per event. -/
  | json
  deriving DecidableEq, Repr

namespace LogFormat

/-- Reads a format word.  Blanks around it and the case of its letters do not matter, and any other
word means `text`.  Lower-casing ASCII letters decides it, since no other character has a letter
of the two words as its lower-case form. -/
def ofWord (word : String) : LogFormat :=
  let letters := (Text.trim word).toList.map Char.toLower
  if letters = "tree".toList then .tree
  else if letters = "json".toList then .json
  else .text

end LogFormat

end Dartify
