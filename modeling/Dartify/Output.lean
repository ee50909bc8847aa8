/-!
# Output

The text written so far.  A token is set apart from what stands before it by one space.  Glued text
follows directly.  A pending attachment drops the space before the next token, once, and glued text
ends it too.
-/

namespace Dartify

/-- A text under construction. -/
structure Output where
  /-- The text written so far. -/
  text : String := ""
  /-- Whether the next token attaches to the text. -/
  attached : Bool := false
  deriving DecidableEq, Repr

namespace Output

/-- Nothing written yet. -/
def empty : Output := {}

/-- Writes a token, after a space unless it attaches. -/
def token (output : Output) (word : String) : Output :=
  { text := (if output.attached then output.text else output.text ++ " ") ++ word
    attached := false }

/-- Writes a text directly behind what is there. -/
def glue (output : Output) (text : String) : Output :=
  { text := output.text ++ text, attached := false }

/-- Makes the next token attach. -/
def attach (output : Output) : Output :=
  { output with attached := true }

end Output

end Dartify
