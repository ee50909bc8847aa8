import Dartify.Assoc

/-!
# JSON values

Values as trees and option files hold them.  An object keeps every pair in the order in which it
was read, so whoever decodes it decides what a repeated key means.  No field of any format here
takes a negative number, a fraction, a text with an unpaired surrogate or an object with such a text
as a key, so those are kept only as `other`: a value that can be skipped but not read.

The second half holds the readers that decoding is made of.  A *record* is either an object or the
list of its field values in order.  A *choice* is an object with one key, the name of the
alternative, or the bare name when the alternative carries nothing.
-/

namespace Dartify

/-- A JSON value. -/
inductive Json where
  /-- The word `null`. -/
  | null
  /-- A truth value. -/
  | bool (value : Bool)
  /-- A number written with digits only. -/
  | nat (value : Nat)
  /-- A text. -/
  | text (value : String)
  /-- A number that is no natural number, a text with an unpaired surrogate, or an object one of
  whose own keys is such a text. -/
  | other
  /-- A list. -/
  | list (items : List Json)
  /-- An object, with every pair as it was read. -/
  | object (fields : List (String × Json))
  deriving Inhabited

namespace Json

/-! ## Scalars and lists -/

/-- The numbers a handle or an offset can be lie below this one. -/
def wordBound : Nat := 4294967296

/-- Reads a number of 32 bits. -/
def word? : Json → Option Nat
  | .nat n => if n < wordBound then some n else none
  | _ => none

/-- Reads a text. -/
def text? : Json → Option String
  | .text s => some s
  | _ => none

/-- Reads a truth value. -/
def bool? : Json → Option Bool
  | .bool b => some b
  | _ => none

/-- Reads every item of a list. -/
def list? {α : Type} (item? : Json → Option α) : Json → Option (List α)
  | .list items => items.mapM item?
  | _ => none

/-! ## Fields of a record -/

/-- Reads a field that has to be there. -/
def required {α : Type} (value? : Json → Option α) (field : Option Json) : Option α :=
  field.bind value?

/-- Reads a field that may be absent or `null`. -/
def optional {α : Type} (value? : Json → Option α) : Option Json → Option (Option α)
  | none => some none
  | some .null => some none
  | some value => (value? value).map some

/-- Reads a field that has a value of its own when it is absent. -/
def defaulted {α : Type} (default : α) (value? : Json → Option α) : Option Json → Option α
  | none => some default
  | some value => value? value

/-- Whether no key of `names` occurs twice among the pairs. -/
def keysOnce (names : List String) (pairs : List (String × Json)) : Bool :=
  names.all fun name => (pairs.filter fun pair => pair.1 == name).length ≤ 1

/-- The fields of a record, in the order of `names`, and `none` for each absent one.  Other keys of
an object are passed over.  A list has a value for at least the first `least` names. -/
def fields? (names : List String) (least : Nat) : Json → Option (List (Option Json))
  | .object pairs =>
    if keysOnce names pairs then some (names.map fun name => pairs.lookup name) else none
  | .list items =>
    if least ≤ items.length ∧ items.length ≤ names.length then
      some (items.map some ++ List.replicate (names.length - items.length) none)
    else none
  | _ => none

/-- The fields of a record whose list form has a value for every name. -/
def record? (names : List String) (value : Json) : Option (List (Option Json)) :=
  fields? names names.length value

/-! ## Choices and maps -/

/-- The alternative a value names and what it carries, `null` for a bare name. -/
def choice? : Json → Option (String × Json)
  | .text name => some (name, .null)
  | .object [(name, value)] => some (name, value)
  | _ => none

/-- The alternative of a value that carries nothing. -/
def bare? {α : Type} (named? : String → Option α) (value : Json) : Option α :=
  match choice? value with
  | some (name, .null) => named? name
  | _ => none

/-- Reads every value of an object.  Of the values of a repeated key the last one stays. -/
def map? {α : Type} (value? : Json → Option α) : Json → Option (List (String × α))
  | .object pairs => do
    let values ← pairs.mapM fun pair => (value? pair.2).map fun value => (pair.1, value)
    return Assoc.ofList values
  | _ => none

end Json

end Dartify
