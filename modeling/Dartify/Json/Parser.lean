import Dartify.Json.Basic

/-!
# Reading JSON text

A strict reader: one value, blanks around it and nothing else, no comma before a closing bracket,
no comment, no control character in a text.  Blanks are the space, the tab, the line feed and the
carriage return.

A text is read in two steps.  `units?` turns it into numbers, one for each character and for each
`\u` escape, and `ofUnits?` joins the two halves of a surrogate pair.  A text with an unpaired half
stands for no characters.  As a value it is `Json.other`, and so is an object that has it as a key,
whatever the other pairs are: such a value can be skipped, and nothing can be read from it.

The reader of values recurses with a budget.  Every second step takes a character, so twice the
length of the text and two more is always enough.
-/

namespace Dartify.Json

/-! ## Blanks, digits and numbers -/

/-- Whether a character may stand between the parts of a value. -/
def isGap (c : Char) : Bool :=
  c == ' ' || c == '\t' || c == '\n' || c == '\r'

/-- The text after the blanks at its start. -/
def skipGap (text : List Char) : List Char :=
  text.dropWhile isGap

/-- The number that decimal digits write. -/
def digitsValue (digits : List Char) : Nat :=
  digits.foldl (fun n c => 10 * n + (c.toNat - 48)) 0

/-- The text after a run of digits that is not empty. -/
def afterDigits? (text : List Char) : Option (List Char) :=
  if (text.takeWhile Char.isDigit).isEmpty then none else some (text.dropWhile Char.isDigit)

/-- The text after an exponent, if there is one, and whether there is one. -/
def exponent? : List Char → Option (Bool × List Char)
  | c :: rest =>
    if c == 'e' || c == 'E' then
      let unsigned := match rest with
        | '+' :: more => more
        | '-' :: more => more
        | more => more
      (afterDigits? unsigned).map fun more => (true, more)
    else some (false, c :: rest)
  | [] => some (false, [])

/-- The text after a fraction, if there is one, and whether there is one. -/
def fraction? : List Char → Option (Bool × List Char)
  | '.' :: rest => (afterDigits? rest).map fun more => (true, more)
  | source => some (false, source)

/-- A number without its sign: its digits, whether only digits write it, and what follows. -/
def magnitude? (text : List Char) : Option (List Char × Bool × List Char) := do
  let digits := text.takeWhile Char.isDigit
  if digits.isEmpty || (digits.length > 1 && digits.head? == some '0') then none
  else
    let (hasFraction, rest) ← fraction? (text.dropWhile Char.isDigit)
    let (hasExponent, rest) ← exponent? rest
    return (digits, !hasFraction && !hasExponent, rest)

/-- A number and what follows it. -/
def number? : List Char → Option (Json × List Char)
  | '-' :: rest => (magnitude? rest).map fun (_, _, more) => (.other, more)
  | source => (magnitude? source).map fun (digits, whole, more) =>
    (if whole then .nat (digitsValue digits) else .other, more)

/-! ## Texts -/

/-- The value of a hexadecimal digit. -/
def hexDigit? (c : Char) : Option Nat :=
  if c.isDigit then some (c.toNat - 48)
  else if 'a' ≤ c ∧ c ≤ 'f' then some (c.toNat - 87)
  else if 'A' ≤ c ∧ c ≤ 'F' then some (c.toNat - 55)
  else none

/-- The number that four hexadecimal digits write. -/
def hexUnit? (a b c d : Char) : Option Nat := do
  let a ← hexDigit? a
  let b ← hexDigit? b
  let c ← hexDigit? c
  let d ← hexDigit? d
  return ((a * 16 + b) * 16 + c) * 16 + d

/-- The character that a backslash and one letter write. -/
def shortEscape? (c : Char) : Option Char :=
  if c == '"' || c == '\\' || c == '/' then some c
  else if c == 'b' then some '\x08'
  else if c == 'f' then some '\x0c'
  else if c == 'n' then some '\n'
  else if c == 'r' then some '\r'
  else if c == 't' then some '\t'
  else none

/-- The units of a text up to its closing quote, and what follows it. -/
def units? : List Char → Option (List Nat × List Char)
  | [] => none
  | '"' :: rest => some ([], rest)
  | '\\' :: 'u' :: a :: b :: c :: d :: rest => do
    let unit ← hexUnit? a b c d
    let (units, more) ← units? rest
    return (unit :: units, more)
  | '\\' :: c :: rest => do
    let escaped ← shortEscape? c
    let (units, more) ← units? rest
    return (escaped.toNat :: units, more)
  | c :: rest =>
    if c.toNat < 0x20 || c == '\\' then none
    else do
      let (units, more) ← units? rest
      return (c.toNat :: units, more)

/-- Whether a unit is the first half of a surrogate pair. -/
def isHighHalf (unit : Nat) : Bool := 0xD800 ≤ unit && unit ≤ 0xDBFF

/-- Whether a unit is the second half of a surrogate pair. -/
def isLowHalf (unit : Nat) : Bool := 0xDC00 ≤ unit && unit ≤ 0xDFFF

/-- The characters that units stand for, unless a half of a pair stands alone. -/
def ofUnits? : List Nat → Option (List Char)
  | [] => some []
  | [unit] => if isHighHalf unit || isLowHalf unit then none else some [Char.ofNat unit]
  | unit :: next :: rest =>
    if isHighHalf unit then
      if isLowHalf next then
        (ofUnits? rest).map
          (Char.ofNat (0x10000 + (unit - 0xD800) * 0x400 + (next - 0xDC00)) :: ·)
      else none
    else if isLowHalf unit then none
    else (ofUnits? (next :: rest)).map (Char.ofNat unit :: ·)

/-- A text after its opening quote, `none` when a half of a pair stands alone in it, and what
follows it. -/
def quoted? (text : List Char) : Option (Option String × List Char) := do
  let (units, rest) ← units? text
  return ((ofUnits? units).map String.ofList, rest)

/-- The value that a text is. -/
def ofQuoted : Option String → Json
  | some characters => .text characters
  | none => .other

/-- The value that an object with these pairs is. -/
def ofPairs (pairs : List (Option String × Json)) : Json :=
  match pairs.mapM fun pair => pair.1.map fun key => (key, pair.2) with
  | some fields => .object fields
  | none => .other

/-! ## Values -/

mutual

/-- A value and what follows it. -/
def value? : Nat → List Char → Option (Json × List Char)
  | 0, _ => none
  | budget + 1, source =>
    match skipGap source with
    | 'n' :: 'u' :: 'l' :: 'l' :: rest => some (.null, rest)
    | 't' :: 'r' :: 'u' :: 'e' :: rest => some (.bool true, rest)
    | 'f' :: 'a' :: 'l' :: 's' :: 'e' :: rest => some (.bool false, rest)
    | '"' :: rest => (quoted? rest).map fun (quoted, more) => (ofQuoted quoted, more)
    | '[' :: rest =>
      match skipGap rest with
      | ']' :: more => some (.list [], more)
      | more => (items? budget more).map fun (items, more) => (.list items, more)
    | '{' :: rest =>
      match skipGap rest with
      | '}' :: more => some (.object [], more)
      | more => (pairs? budget more).map fun (pairs, more) => (ofPairs pairs, more)
    | rest => number? rest

/-- The items of a list up to its closing bracket, and what follows it. -/
def items? : Nat → List Char → Option (List Json × List Char)
  | 0, _ => none
  | budget + 1, source => do
    let (item, rest) ← value? budget source
    match skipGap rest with
    | ',' :: more => (items? budget more).map fun (items, more) => (item :: items, more)
    | ']' :: more => some ([item], more)
    | _ => none

/-- The pairs of an object up to its closing brace, and what follows it. -/
def pairs? : Nat → List Char → Option (List (Option String × Json) × List Char)
  | 0, _ => none
  | budget + 1, source =>
    match skipGap source with
    | '"' :: rest => do
      let (key, rest) ← quoted? rest
      match skipGap rest with
      | ':' :: rest => do
        let (value, rest) ← value? budget rest
        match skipGap rest with
        | ',' :: more => (pairs? budget more).map fun (pairs, more) => ((key, value) :: pairs, more)
        | '}' :: more => some ([(key, value)], more)
        | _ => none
      | _ => none
    | _ => none

end

/-- The value that a whole text writes. -/
def parse? (text : String) : Option Json :=
  let characters := text.toList
  match value? (2 * characters.length + 2) characters with
  | some (value, rest) => if (skipGap rest).isEmpty then some value else none
  | none => none

end Dartify.Json
