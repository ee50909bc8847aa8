/-!
# Lines and columns

Offsets into a source text count bytes of its UTF-8 form.  A line ends after a line feed, or after
a carriage return that no line feed follows.  `Lines` keeps the offset at which each line starts,
and `Lines.position` turns an offset into a line number and a column, both counted from zero.  The
line is found by bisection.  A column counts characters.
-/

namespace Dartify

/-- A place in a source text. -/
structure Position where
  /-- The line, counted from zero. -/
  line : Nat
  /-- The characters of the line before the place. -/
  column : Nat
  deriving DecidableEq, Repr

/-- The offsets at which the lines of a text start. -/
structure Lines where
  /-- The offsets, in order. -/
  starts : List Nat
  deriving DecidableEq, Repr

namespace Lines

/-- Whether a line ends after `c`, when `rest` follows it. -/
def endsAfter (c : Char) (rest : List Char) : Bool :=
  c == '\n' || (c == '\r' && rest.head? != some '\n')

/-- The offsets of the lines that start after `offset`, where the text begins. -/
def startsAfter : Nat → List Char → List Nat
  | _, [] => []
  | offset, c :: rest =>
    let next := offset + c.utf8Size
    if endsAfter c rest then next :: startsAfter next rest else startsAfter next rest
termination_by structural _ text => text

/-- The lines of a text. -/
def ofText (text : String) : Lines :=
  ⟨0 :: startsAfter 0 text.toList⟩

/-- The number of lines. -/
def count (lines : Lines) : Nat :=
  lines.starts.length

/-- The offsets between characters of a text that begins at `offset`, its two ends included. -/
def boundaries : Nat → List Char → List Nat
  | offset, [] => [offset]
  | offset, c :: rest => offset :: boundaries (offset + c.utf8Size) rest
termination_by structural _ text => text

/-- The number of characters of a text from offset `start` up to offset `stop`, and zero when one
of the two falls inside a character. -/
def charactersBetween (text : List Char) (start stop : Nat) : Nat :=
  let marks := boundaries 0 text
  if start ∈ marks ∧ stop ∈ marks then
    marks.countP fun mark => start ≤ mark && mark < stop
  else 0

/-- Halves the `width` places from `low` on, among which the last number at or before `offset` is
sought, until one place is left. -/
def bisect (starts : List Nat) (offset low width : Nat) : Nat :=
  if width ≤ 1 then low
  else if starts.getD (low + width / 2) 0 ≤ offset then
    bisect starts offset (low + width / 2) (width - width / 2)
  else bisect starts offset low (width / 2)
termination_by width

/-- The place of `offset` among increasing numbers, or, when it is none of them, the place at which
it could be put in. -/
def search (starts : List Nat) (offset : Nat) : Except Nat Nat :=
  let place := bisect starts offset 0 starts.length
  match starts[place]? with
  | none => .error place
  | some start =>
    if start = offset then .ok place
    else if start < offset then .error (place + 1)
    else .error place

/-- The line an offset lies on: the one that starts at it, or else the one before the place at
which it could be put in. -/
def lineAt (lines : Lines) (offset : Nat) : Nat :=
  match search lines.starts offset with
  | .ok line => line
  | .error line => line - 1

/-- The place of an offset in `text`.  An offset past the end is moved to the end. -/
def position (lines : Lines) (offset : Nat) (text : String) : Position :=
  let line := lines.lineAt offset
  let stop := min offset text.utf8ByteSize
  let start := min (lines.starts.getD line 0) stop
  ⟨line, charactersBetween text.toList start stop⟩

end Lines

end Dartify
