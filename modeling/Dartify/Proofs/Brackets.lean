import Dartify.Text.Quoted

/-!
# Brackets in a text

The round, square and curly brackets of a text, in order, are a word over six characters.  Such a
word is *nested* when every bracket is closed by one of its own kind, behind what it encloses
(`Brackets.Nested`).  A reader that keeps the closing brackets it waits for decides this
(`Brackets.nested_iff_scan`).  Since nested words leave what the reader waits for as it was, they
may be put into a word anywhere.

The second half is about texts without brackets.  Quoting adds none.
-/

namespace Dartify.Brackets

/-- The bracket that closes an opening one. -/
def closing? : Char → Option Char
  | '(' => some ')'
  | '[' => some ']'
  | '{' => some '}'
  | _ => none

/-- Whether a character closes a bracket. -/
def isClosing (c : Char) : Bool :=
  c = ')' || c = ']' || c = '}'

/-- Whether a character is a bracket. -/
def isBracket (c : Char) : Bool :=
  (closing? c).isSome || isClosing c

/-- The brackets of a text, in order. -/
def ofText (text : String) : List Char :=
  text.toList.filter isBracket

/-- A word in which every bracket is closed by one of its kind, behind what it encloses. -/
inductive Nested : List Char → Prop where
  /-- No bracket. -/
  | nil : Nested []
  /-- A pair around one nested word and in front of another. -/
  | pair {opening closing : Char} {inner rest : List Char} (fits : closing? opening = some closing)
      (inside : Nested inner) (behind : Nested rest) :
      Nested (opening :: (inner ++ closing :: rest))

/-! ## Reading brackets -/

/-- Reads one bracket while waiting for closing ones, the next first. -/
def read (awaited : List Char) (c : Char) : Option (List Char) :=
  match closing? c, awaited with
  | some closing, awaited => some (closing :: awaited)
  | none, [] => none
  | none, next :: outer => if next = c then some outer else none

/-- Reads brackets one after the other, and gives the closing ones that are awaited at the end. -/
def scan (awaited word : List Char) : Option (List Char) :=
  word.foldlM read awaited

theorem closing?_closing {opening closing : Char} (fits : closing? opening = some closing) :
    closing? closing = none := by
  unfold closing? at fits
  split at fits <;> cases fits <;> rfl

theorem scan_cons (awaited : List Char) (c : Char) (rest : List Char) :
    scan awaited (c :: rest) = (read awaited c).bind (scan · rest) :=
  List.foldlM_cons

theorem scan_append (awaited first second : List Char) :
    scan awaited (first ++ second) = (scan awaited first).bind (scan · second) :=
  List.foldlM_append

theorem read_opening {opening closing : Char} (fits : closing? opening = some closing)
    (awaited : List Char) : read awaited opening = some (closing :: awaited) := by
  simp only [read, fits]

theorem read_closing {opening closing : Char} (fits : closing? opening = some closing)
    (awaited : List Char) : read (closing :: awaited) closing = some awaited := by
  simp only [read, closing?_closing fits, if_true]

/-- What is read either opens a bracket or closes the one that is awaited next. -/
theorem read_eq_some {awaited after : List Char} {c : Char} (done : read awaited c = some after) :
    (∃ closing, closing? c = some closing ∧ after = closing :: awaited) ∨ awaited = c :: after := by
  unfold read at done
  split at done
  · rename_i closing fits
    cases done
    exact .inl ⟨closing, fits, rfl⟩
  · cases done
  · split at done
    · rename_i same
      cases done
      cases same
      exact .inr rfl
    · cases done

/-- A nested word leaves the reader as it was. -/
theorem Nested.scan_eq {word : List Char} (nested : Nested word) (awaited : List Char) :
    scan awaited word = some awaited := by
  induction nested generalizing awaited with
  | nil => rfl
  | pair fits _ _ inside behind =>
    rw [scan_cons, read_opening fits, Option.bind_some, scan_append, inside, Option.bind_some,
      scan_cons, read_closing fits, Option.bind_some, behind]

/-- A word closes what is awaited, with nested words between. -/
def Closes : List Char → List Char → Prop
  | [], word => Nested word
  | closing :: outer, word =>
    ∃ inner rest, word = inner ++ closing :: rest ∧ Nested inner ∧ Closes outer rest

/-- What is read to the end closes all that was awaited. -/
theorem closes_of_scan {awaited word : List Char} (done : scan awaited word = some []) :
    Closes awaited word := by
  induction word generalizing awaited with
  | nil =>
    cases done
    exact .nil
  | cons c rest ih =>
    rw [scan_cons] at done
    obtain ⟨after, first, others⟩ := Option.bind_eq_some_iff.mp done
    have closed := ih others
    rcases read_eq_some first with ⟨closing, fits, rfl⟩ | rfl
    · obtain ⟨inner, behind, rfl, inside, onward⟩ := closed
      cases awaited with
      | nil => exact .pair fits inside onward
      | cons next outer =>
        -- the pair stands in front of the word that comes before the awaited bracket
        obtain ⟨inner', rest', rfl, inside', onward'⟩ := onward
        exact ⟨c :: (inner ++ closing :: inner'), rest', by simp, .pair fits inside inside',
          onward'⟩
    · exact ⟨[], rest, rfl, .nil, closed⟩

/-- A word is nested when the reader comes to its end and waits for nothing. -/
theorem nested_iff_scan {word : List Char} : Nested word ↔ scan [] word = some [] := by
  constructor
  · intro nested
    exact nested.scan_eq []
  · intro read
    exact closes_of_scan read

instance (word : List Char) : Decidable (Nested word) :=
  decidable_of_iff _ nested_iff_scan.symm

theorem Nested.append {first second : List Char} (one : Nested first) (two : Nested second) :
    Nested (first ++ second) := by
  rw [nested_iff_scan, scan_append, one.scan_eq, Option.bind_some, two.scan_eq]

/-- A nested word may be put into another one anywhere. -/
theorem Nested.insert {first second inner : List Char} (outer : Nested (first ++ second))
    (inside : Nested inner) : Nested (first ++ (inner ++ second)) := by
  rw [nested_iff_scan] at outer ⊢
  rw [scan_append] at outer ⊢
  have skipped : ∀ awaited, scan awaited (inner ++ second) = scan awaited second := by
    intro awaited
    rw [scan_append, inside.scan_eq, Option.bind_some]
  simpa only [skipped] using outer

/-! ## Texts -/

@[simp] theorem ofText_append (first second : String) :
    ofText (first ++ second) = ofText first ++ ofText second := by
  simp [ofText]

/-- A text has no bracket. -/
def Free (text : String) : Prop := ofText text = []

instance (text : String) : Decidable (Free text) :=
  inferInstanceAs (Decidable (_ = _))

theorem free_iff {text : String} : Free text ↔ ∀ c ∈ text.toList, isBracket c = false := by
  simp [Free, ofText, List.filter_eq_nil_iff]

theorem Free.append {first second : String} (one : Free first) (two : Free second) :
    Free (first ++ second) := by
  unfold Free at *
  rw [ofText_append, one, two]
  rfl

theorem free_ofList {characters : List Char}
    (free : ∀ c ∈ characters, isBracket c = false) : Free (String.ofList characters) := by
  rw [free_iff, String.toList_ofList]
  exact free

/-- A character that is written as an escape has no bracket in it. -/
theorem literalChar_free {c : Char} (free : isBracket c = false) :
    ∀ written ∈ Quoted.literalChar c, isBracket written = false := by
  have digit : ∀ n < 16, isBracket (Nat.digitChar n) = false := by decide
  have either : ∀ {condition : Prop} [Decidable condition] {yes no : List Char},
      (condition → ∀ written ∈ yes, isBracket written = false) →
      (¬condition → ∀ written ∈ no, isBracket written = false) →
      ∀ written ∈ if condition then yes else no, isBracket written = false := by
    intro condition _ yes no whenTrue whenFalse
    by_cases holds : condition
    · rw [if_pos holds]
      exact whenTrue holds
    · rw [if_neg holds]
      exact whenFalse holds
  have pair : ∀ {first second : Char}, isBracket first = false → isBracket second = false →
      ∀ written ∈ [first, second], isBracket written = false := by
    intro first second one two
    exact List.forall_mem_cons.mpr ⟨one, List.forall_mem_singleton.mpr two⟩
  unfold Quoted.literalChar
  -- eight escapes that do not depend on the character, the control escape, and the character itself
  iterate 8 refine either (fun _ => pair rfl rfl) fun _ => ?_
  refine either (fun control => ?_) fun _ => ?_
  · have high : c.toNat / 16 < 16 := by omega
    have low : c.toNat % 16 < 16 := Nat.mod_lt _ (by decide)
    have opening : isBracket '\\' = false := rfl
    have mark : isBracket 'u' = false := rfl
    have zero : isBracket '0' = false := rfl
    simp [Quoted.controlEscape, digit _ high, digit _ low, opening, mark, zero]
  · simpa using free

theorem Free.literal {text : String} (free : Free text) : Free (Quoted.literal text) := by
  refine free_ofList fun c member => ?_
  simp only [List.mem_cons, List.mem_append, List.not_mem_nil, or_false] at member
  rcases member with rfl | inside | rfl
  · rfl
  · obtain ⟨source, among, written⟩ := List.mem_flatMap.mp inside
    exact literalChar_free (free_iff.mp free source among) c written
  · rfl

theorem Free.verbatim {text : String} (free : Free text) : Free (Quoted.verbatim text) :=
  .append (.append rfl free) rfl

theorem Free.template {text : String} (free : Free text) : Free (Quoted.template text) := by
  refine free_ofList fun c member => ?_
  obtain ⟨source, among, written⟩ := List.mem_flatMap.mp member
  have plain := free_iff.mp free source among
  unfold Quoted.templateChar at written
  split at written
  · simp only [List.mem_cons, List.not_mem_nil, or_false] at written
    rcases written with rfl | rfl
    · rfl
    · exact plain
  · rw [List.mem_singleton.mp written]
    exact plain

end Dartify.Brackets
