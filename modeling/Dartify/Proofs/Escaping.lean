import Dartify.Proofs.JsonText
import Dartify.Text.Quoted

/-!
# Reading quoted texts back

A Dart string ends at its closing quote and is interpolated at a `$`, unless a backslash escapes the
one or the other.  A backslash can be escaped itself, so whether one escapes what follows is decided
by all that stands before it (`Quoted.escapes`).  A body is `Quoted.Sealed` against some characters
when each of them in it is escaped and its last character escapes nothing, so that what follows the
body is read as if the body were not there.  Sealed bodies can be put one after the other.

`Quoted.readLiteral` and `Quoted.readTemplate` read the two forms of `Dartify.Text.Quoted` from left
to right.  Each stays in step with the writer, character by character, so nothing is lost
(`Quoted.quoted_texts_read_back`).
-/

namespace Dartify.Quoted

/-! ## Sealed bodies -/

/-- Whether a text ends in a backslash that escapes what follows it. -/
def escapes (text : List Char) : Bool :=
  text.foldl (fun escaped c => c == '\\' && !escaped) false

/-- What follows a text that escapes nothing is read as if it stood alone. -/
theorem escapes_append {first : List Char} (closed : escapes first = false) (second : List Char) :
    escapes (first ++ second) = escapes second := by
  unfold escapes at closed ⊢
  rw [List.foldl_append, closed]

/-- Each of some characters is escaped wherever it stands in a body, and the body escapes nothing
behind it. -/
structure Sealed (special body : List Char) : Prop where
  /-- The body escapes nothing behind it. -/
  closed : escapes body = false
  /-- A special character stands behind a backslash of its own. -/
  escaped : ∀ before c after, body = before ++ c :: after → c ∈ special → escapes before = true

section

variable {special : List Char}

theorem sealed_nil : Sealed special [] := by
  refine ⟨rfl, fun before c after split _ => ?_⟩
  exact absurd split.symm (List.append_ne_nil_of_right_ne_nil _ (List.cons_ne_nil _ _))

/-- A backslash and a character, which may be any. -/
theorem sealed_pair (backslash : '\\' ∉ special) (c : Char) : Sealed special ['\\', c] := by
  refine ⟨by simp [escapes], fun before d after split member => ?_⟩
  match before with
  | [] =>
    obtain ⟨rfl, -⟩ := List.cons.inj split
    exact absurd member backslash
  | [first] =>
    obtain ⟨rfl, -⟩ := List.cons.inj split
    rfl
  | _ :: _ :: rest =>
    have lengths := congrArg List.length split
    simp only [List.length_cons, List.length_append, List.length_nil] at lengths
    omega

theorem Sealed.append {first second : List Char} (one : Sealed special first)
    (two : Sealed special second) : Sealed special (first ++ second) := by
  constructor
  · rw [escapes_append one.closed, two.closed]
  · intro before c after split member
    rcases List.append_eq_append_iff.mp split with ⟨middle, rfl, rest⟩ | ⟨middle, whole, rest⟩
    · -- the character stands in the second part
      rw [escapes_append one.closed]
      exact two.escaped middle c after rest member
    · cases middle with
      | nil =>
        rw [List.append_nil] at whole
        rw [← whole, ← List.append_nil first, escapes_append one.closed]
        exact two.escaped [] c after rest.symm member
      | cons d middle =>
        obtain ⟨rfl, -⟩ := List.cons.inj rest
        exact one.escaped before c middle whole member

/-- A body without backslashes and without special characters. -/
theorem sealed_of_plain {body : List Char} (plain : ∀ c ∈ body, c ≠ '\\' ∧ c ∉ special) :
    Sealed special body := by
  constructor
  · induction body with
    | nil => rfl
    | cons c rest ih =>
      have here : escapes [c] = false := by simp [escapes, (plain c (List.mem_cons_self ..)).1]
      rw [← List.singleton_append, escapes_append here]
      exact ih fun d member => plain d (List.mem_cons_of_mem _ member)
  · intro before c after split member
    exact absurd member (plain c (split ▸ List.mem_append_right _ (List.mem_cons_self ..))).2

/-- What is written character by character is sealed when every character is. -/
theorem sealed_flatMap {write : Char → List Char} (sealed : ∀ c, Sealed special (write c))
    (text : List Char) : Sealed special (text.flatMap write) := by
  induction text with
  | nil => exact sealed_nil
  | cons c rest ih => exact (sealed c).append ih

end

/-! ## Readers -/

/-- The character that a backslash and a character other than `u` stand for in a literal. -/
def shortEscape (c : Char) : Char :=
  if c = 'n' then '\n'
  else if c = 'r' then '\r'
  else if c = 't' then '\t'
  else if c = 'b' then '\x08'
  else if c = 'f' then '\x0c'
  else c

/-- The text that the body of a literal stands for.  After `\u` there have to be four hexadecimal
digits that write a character, and after any other backslash some character. -/
def readLiteral : List Char → Option (List Char)
  | [] => some []
  | '\\' :: 'u' :: a :: b :: c :: d :: rest => do
    let unit ← Json.hexUnit? a b c d
    if unit.isValidChar then return Char.ofNat unit :: (← readLiteral rest) else none
  | '\\' :: 'u' :: _ => none
  | '\\' :: c :: rest => (readLiteral rest).map (shortEscape c :: ·)
  | ['\\'] => none
  | c :: rest => (readLiteral rest).map (c :: ·)

/-- The text that the inside of a triple-quoted string stands for, where a backslash and a character
stand for the character. -/
def readTemplate : List Char → Option (List Char)
  | [] => some []
  | '\\' :: c :: rest => (readTemplate rest).map (c :: ·)
  | ['\\'] => none
  | c :: rest => (readTemplate rest).map (c :: ·)

/-- A reader that takes back each character as it is written takes back every text. -/
theorem read_flatMap {read : List Char → Option (List Char)} {write : Char → List Char}
    (step : ∀ c rest, read (write c ++ rest) = (read rest).map (c :: ·))
    (done : read [] = some []) (text : List Char) :
    read (text.flatMap write) = some text := by
  induction text with
  | nil => exact done
  | cons c rest ih => rw [List.flatMap_cons, step, ih, Option.map_some]

/-! ## Literals -/

/-- A character that a literal keeps as it is. -/
def Plain (c : Char) : Prop :=
  c ≠ '"' ∧ c ≠ '\\' ∧ c ≠ '$' ∧ 0x20 ≤ c.toNat

instance (c : Char) : Decidable (Plain c) :=
  inferInstanceAs (Decidable (_ ∧ _))

/-- The three forms that a character can have in a literal. -/
inductive Form (c : Char) : List Char → Prop where
  /-- A backslash and a character that stands for it. -/
  | short {letter : Char} (stands : shortEscape letter = c) (other : letter ≠ 'u')
      (visible : 0x20 ≤ letter.toNat) : Form c ['\\', letter]
  /-- A control character by its number. -/
  | control (low : c.toNat < 0x20) : Form c (controlEscape c)
  /-- The character itself. -/
  | plain (plain : Plain c) : Form c [c]

theorem form_literalChar (c : Char) : Form c (literalChar c) := by
  unfold literalChar
  -- eight characters have a short escape
  iterate 8
    split
    · subst c
      exact .short rfl (by decide) (by decide)
  split
  · rename_i low
    exact .control low
  · rename_i quote slash dollar _ _ _ _ _ visible
    exact .plain ⟨quote, slash, dollar, Nat.not_lt.mp visible⟩

/-- The digits of a control escape are plain. -/
theorem plain_digitChar {n : Nat} (small : n < 16) : Plain (Nat.digitChar n) := by
  interval_cases n <;> decide

/-- All of a control escape but its backslash is plain. -/
theorem plain_of_control {c : Char} (low : c.toNat < 0x20) :
    ∀ d ∈ ['0', '0', Nat.digitChar (c.toNat / 16), Nat.digitChar (c.toNat % 16)], Plain d := by
  have zero : Plain '0' := plain_digitChar (n := 0) (by omega)
  have high : Plain (Nat.digitChar (c.toNat / 16)) := plain_digitChar (by omega)
  have ones : Plain (Nat.digitChar (c.toNat % 16)) := plain_digitChar (by omega)
  simp only [List.forall_mem_cons]
  exact ⟨zero, zero, high, ones, fun d member => absurd member List.not_mem_nil⟩

theorem sealed_of_forall_plain {body : List Char} (plain : ∀ c ∈ body, Plain c) :
    Sealed ['"', '$'] body := by
  refine sealed_of_plain fun c member => ?_
  obtain ⟨quote, slash, dollar, -⟩ := plain c member
  simp [quote, slash, dollar]

theorem readLiteral_plain {c : Char} (notSlash : c ≠ '\\') (rest : List Char) :
    readLiteral (c :: rest) = (readLiteral rest).map (c :: ·) := by
  rw [readLiteral]
  all_goals simp [notSlash]

theorem readLiteral_short {letter : Char} (other : letter ≠ 'u') (rest : List Char) :
    readLiteral ('\\' :: letter :: rest) = (readLiteral rest).map (shortEscape letter :: ·) := by
  rw [readLiteral]
  all_goals simp [other]

/-- A control character is read from its last two hexadecimal digits. -/
theorem readLiteral_control {c : Char} (low : c.toNat < 0x20) (rest : List Char) :
    readLiteral (controlEscape c ++ rest) = (readLiteral rest).map (c :: ·) := by
  have unit : Json.hexUnit? '0' '0' (Nat.digitChar (c.toNat / 16)) (Nat.digitChar (c.toNat % 16)) =
      some c.toNat := Json.hexUnit?_digitChars (by omega)
  have valid : c.toNat.isValidChar := c.valid
  simp only [controlEscape, List.cons_append, List.nil_append, readLiteral, unit,
    Option.bind_eq_bind, Option.bind_some, if_pos valid, Char.ofNat_toNat]
  cases readLiteral rest <;> rfl

namespace Form

variable {c : Char} {written : List Char}

/-- Each form is read back as the character, whatever follows it. -/
theorem reads (form : Form c written) (rest : List Char) :
    readLiteral (written ++ rest) = (readLiteral rest).map (c :: ·) := by
  cases form with
  | short stands other visible =>
    rw [List.cons_append, List.singleton_append, readLiteral_short other, stands]
  | control low => exact readLiteral_control low rest
  | plain plain => exact readLiteral_plain plain.2.1 rest

/-- The escapes hide quotes and dollars. -/
theorem isSealed (form : Form c written) : Sealed ['"', '$'] written := by
  have pair : ∀ d : Char, Sealed ['"', '$'] ['\\', d] := sealed_pair (by simp)
  cases form with
  | short => exact pair _
  | control low => exact (pair 'u').append (sealed_of_forall_plain (plain_of_control low))
  | plain plain =>
    refine sealed_of_forall_plain fun d member => ?_
    rwa [List.mem_singleton.mp member]

/-- No form has a control character in it. -/
theorem printable (form : Form c written) : ∀ d ∈ written, 0x20 ≤ d.toNat := by
  cases form with
  | short stands other visible => simp [visible]
  | control low =>
    have digits := fun d member => (plain_of_control low d member).2.2.2
    simp only [controlEscape, List.forall_mem_cons] at digits ⊢
    exact ⟨by decide, by decide, digits⟩
  | plain plain => simpa using plain.2.2.2

end Form

/-- What stands between the quotes of a Dart literal of a text. -/
structure Spells (body text : List Char) : Prop where
  /-- No character is a control character. -/
  printable : ∀ c ∈ body, 0x20 ≤ c.toNat
  /-- No quote ends the literal and no dollar starts an interpolation. -/
  inside : Sealed ['"', '$'] body
  /-- The body reads back as the text. -/
  reads : readLiteral body = some text

theorem spells_literalBody (text : List Char) : Spells (literalBody text) text := by
  refine ⟨fun c member => ?_, sealed_flatMap (fun c => (form_literalChar c).isSealed) text,
    read_flatMap (fun c => (form_literalChar c).reads) rfl text⟩
  obtain ⟨source, -, written⟩ := List.mem_flatMap.mp member
  exact (form_literalChar source).printable c written

/-- A token is a Dart literal of a text: its last quote is the first that ends it, nothing in it is
interpolated, and it reads back as the text. -/
def Denotes (word text : String) : Prop :=
  ∃ body, word.toList = '"' :: (body ++ ['"']) ∧ Spells body text.toList

theorem toList_literal (text : String) :
    (literal text).toList = '"' :: (literalBody text.toList ++ ['"']) := by
  rw [literal, String.toList_ofList]

theorem denotes_literal (text : String) : Denotes (literal text) text :=
  ⟨literalBody text.toList, toList_literal text, spells_literalBody text.toList⟩

/-! ## Template text -/

theorem readTemplate_templateChar (c : Char) (rest : List Char) :
    readTemplate (templateChar c ++ rest) = (readTemplate rest).map (c :: ·) := by
  unfold templateChar
  split_ifs with special
  · rfl
  · have notSlash : c ≠ '\\' := fun same => special (.inl same)
    rw [List.singleton_append, readTemplate]
    all_goals simp [notSlash]

theorem sealed_templateChar (c : Char) : Sealed ['\x27', '$'] (templateChar c) := by
  unfold templateChar
  split_ifs with special
  · exact sealed_pair (by simp) c
  · refine sealed_of_plain fun d member => ?_
    rw [List.mem_singleton.mp member]
    simp only [not_or] at special
    simp [special]

theorem toList_template (text : String) : (template text).toList = templateBody text.toList := by
  rw [template, String.toList_ofList]

/-- Quoting loses nothing and leaves nothing open.  A literal is a body between double quotes that
has no control character and no quote or dollar without a backslash of its own, and that reads back
as the text.  Template text has no apostrophe or dollar without a backslash of its own, reads back
as the text, and is written piece by piece. -/
theorem quoted_texts_read_back (s t : String) :
    Denotes (literal s) s ∧
    Sealed ['\x27', '$'] (template s).toList ∧
    readTemplate (template s).toList = some s.toList ∧
    template (s ++ t) = template s ++ template t := by
  refine ⟨denotes_literal s, ?_, ?_, ?_⟩
  · rw [toList_template]
    exact sealed_flatMap sealed_templateChar s.toList
  · rw [toList_template]
    exact read_flatMap readTemplate_templateChar rfl s.toList
  · simp only [template, templateBody, String.toList_append, List.flatMap_append,
      String.ofList_append]

end Dartify.Quoted
