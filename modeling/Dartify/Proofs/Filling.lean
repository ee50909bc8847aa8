import Dartify.Text.Substitute
import Mathlib.Data.List.TakeWhile

/-!
# Filling a template in one pass

`Message.fill` puts one argument after the other into the text made so far, so a later argument
could end up inside an earlier one, or at a place that an earlier one completes.  `Message.pass`
reads the template once from the left and looks at no argument again.

The two agree where every opening brace of the template starts a place and no argument has an
opening brace (`Message.fill_simultaneous`).  Such a template falls into *pieces*: single
characters, and digits in braces.  Filling goes through the pieces without ever changing where they
begin and end.  After the first `i` arguments the places of these are filled and all other pieces
stand as they stood, and every opening brace of the text still starts one of them.
-/

namespace Dartify.Message

open Text (closeBrace)

/-! ## The two sides -/

/-- Every opening brace starts a place: digits and a closing brace follow. -/
def WellFormed (template : List Char) : Prop :=
  ∀ before after, template = before ++ '{' :: after →
    ∃ digits rest, after = digits ++ '}' :: rest ∧ ∀ c ∈ digits, c.isDigit = true

/-- An opening brace is followed by digits and a closing brace, and the rest is well formed. -/
theorem wellFormed_cons_iff {c : Char} {rest : List Char} :
    WellFormed (c :: rest) ↔
      (c = '{' → (rest.dropWhile Char.isDigit).head? = some '}') ∧ WellFormed rest := by
  constructor
  · intro formed
    refine ⟨?_, fun before after same => formed (c :: before) after (by rw [same]; rfl)⟩
    rintro rfl
    obtain ⟨digits, after, rfl, numeral⟩ := formed [] rest rfl
    rw [List.dropWhile_append_of_pos numeral]
    simp
  · rintro ⟨closed, formed⟩ before after same
    cases before with
    | nil =>
      obtain ⟨rfl, rfl⟩ := List.cons.inj same
      obtain ⟨tail, ends⟩ := List.head?_eq_some_iff.mp (closed rfl)
      refine ⟨rest.takeWhile Char.isDigit, tail, ?_, fun c => List.mem_takeWhile_imp⟩
      rw [← ends, List.takeWhile_append_dropWhile]
    | cons d before => exact formed before after (List.cons.inj same).2

instance decidableWellFormed : DecidablePred WellFormed
  | [] => .isTrue fun before after same => by cases before <;> cases same
  | _ :: rest =>
    have := decidableWellFormed rest
    decidable_of_iff _ wellFormed_cons_iff.symm

/-- The argument whose number is written with these digits, and no leading zeros. -/
def argument? (arguments : List String) (digits : List Char) : Option String :=
  if Nat.toDigits 10 (Nat.ofDigitChars 10 digits 0) = digits then
    arguments[Nat.ofDigitChars 10 digits 0]?
  else none

/-- The argument for the place that a text starts with, and the length of the place. -/
def argumentAt? (arguments : List String) : List Char → Option (String × Nat)
  | '{' :: rest =>
    let digits := rest.takeWhile Char.isDigit
    if (rest.dropWhile Char.isDigit).head? = some '}' then
      (argument? arguments digits).map fun argument => (argument, digits.length + 2)
    else none
  | _ => none

/-- One pass over a template from the left.  A place that has an argument is replaced, and all else
is kept.  The number counts the characters of a place that are still to be passed over. -/
def pass (arguments : List String) : Nat → List Char → List Char
  | _, [] => []
  | skip + 1, _ :: rest => pass arguments skip rest
  | 0, c :: rest =>
    match argumentAt? arguments (c :: rest) with
    | some (argument, length) => argument.toList ++ pass arguments (length - 1) rest
    | none => c :: pass arguments 0 rest
termination_by structural _ text => text

/-! ## Numbers and their digits -/

theorem argument?_toDigits (arguments : List String) (i : Nat) :
    argument? arguments (Nat.toDigits 10 i) = arguments[i]? := by
  simp only [argument?, Nat.ofDigitChars_ten_toDigits, if_true]

/-- Digits that have an argument are those of its number. -/
theorem exists_of_argument? {arguments : List String} {digits : List Char} {argument : String}
    (given : argument? arguments digits = some argument) :
    ∃ i, digits = Nat.toDigits 10 i ∧ arguments[i]? = some argument := by
  unfold argument? at given
  split at given
  · rename_i canonical
    exact ⟨_, canonical.symm, given⟩
  · cases given

/-- One more argument is found at its own number, and changes nothing at any other. -/
theorem argument?_concat (arguments : List String) (argument : String) (digits : List Char) :
    argument? (arguments ++ [argument]) digits =
      if digits = Nat.toDigits 10 arguments.length then some argument
      else argument? arguments digits := by
  split
  · rename_i own
    rw [own, argument?_toDigits, List.getElem?_concat_length]
  · rename_i other
    unfold argument?
    by_cases canonical : Nat.toDigits 10 (Nat.ofDigitChars 10 digits 0) = digits
    · have elsewhere : Nat.ofDigitChars 10 digits 0 ≠ arguments.length := by
        intro same
        rw [same] at canonical
        exact other canonical.symm
      simp only [canonical, if_true]
      rw [List.getElem?_append]
      split
      · rfl
      · rename_i beyond
        rw [List.getElem?_eq_none (Nat.not_lt.mp beyond), List.getElem?_eq_none]
        simp only [List.length_singleton]
        omega
    · simp only [canonical, if_false]

/-! ## Pieces of a template -/

/-- A piece of a template. -/
inductive Piece where
  /-- A character outside of places. -/
  | char (c : Char)
  /-- A place with these digits. -/
  | place (digits : List Char)

namespace Piece

/-- The text of a piece. -/
def text : Piece → List Char
  | char c => [c]
  | place digits => '{' :: (digits ++ ['}'])

/-- Opening braces and digits are where they belong. -/
def Proper : Piece → Prop
  | char c => c ≠ '{'
  | place digits => ∀ c ∈ digits, c.isDigit = true

/-- A piece with the arguments put in. -/
def filled (arguments : List String) : Piece → List Char
  | char c => [c]
  | place digits =>
    match argument? arguments digits with
    | some argument => argument.toList
    | none => (place digits).text

theorem filled_nil (piece : Piece) : piece.filled [] = piece.text := by
  cases piece with
  | char c => rfl
  | place digits => simp [filled, argument?]

end Piece

/-- A template falls into pieces. -/
theorem WellFormed.exists_pieces {template : List Char} (formed : WellFormed template) :
    ∃ pieces : List Piece, (∀ piece ∈ pieces, piece.Proper) ∧
      template = pieces.flatMap Piece.text := by
  -- a place takes several characters at once, so the induction is on the length
  induction size : template.length using Nat.strong_induction_on generalizing template with
  | _ size' ih =>
    subst size
    cases template with
    | nil => exact ⟨[], fun piece member => absurd member List.not_mem_nil, rfl⟩
    | cons c rest =>
      have onward : ∀ {front back : List Char}, c :: rest = front ++ back → front ≠ [] →
          ∃ pieces : List Piece, (∀ piece ∈ pieces, piece.Proper) ∧
            back = pieces.flatMap Piece.text := by
        intro front back split nonempty
        refine ih back.length ?_ (fun before after same => ?_) rfl
        · rw [split, List.length_append]
          exact Nat.lt_add_of_pos_left (List.length_pos_iff.mpr nonempty)
        · exact formed (front ++ before) after (by rw [split, same, List.append_assoc])
      by_cases opens : c = '{'
      · subst opens
        obtain ⟨digits, after, closed, numeral⟩ := formed [] rest rfl
        have split : '{' :: rest = (Piece.place digits).text ++ after := by
          simp [Piece.text, closed]
        obtain ⟨pieces, proper, same⟩ := onward split (List.cons_ne_nil _ _)
        refine ⟨.place digits :: pieces, List.forall_mem_cons.mpr ⟨numeral, proper⟩, ?_⟩
        rw [split, List.flatMap_cons, ← same]
      · have split : c :: rest = [c] ++ rest := rfl
        obtain ⟨pieces, proper, same⟩ := onward split (List.cons_ne_nil _ _)
        refine ⟨.char c :: pieces, List.forall_mem_cons.mpr ⟨opens, proper⟩, ?_⟩
        rw [List.flatMap_cons, ← same]
        rfl

/-! ## One pass -/

theorem pass_skip (arguments : List String) (front rest : List Char) :
    pass arguments front.length (front ++ rest) = pass arguments 0 rest := by
  induction front with
  | nil => rfl
  | cons c front ih => exact ih

theorem argumentAt?_char (arguments : List String) {c : Char} (plain : c ≠ '{')
    (rest : List Char) : argumentAt? arguments (c :: rest) = none := by
  unfold argumentAt?
  split
  · rename_i same
    exact absurd (List.cons.inj same).1 plain
  · rfl

/-- The digits of a place end at its closing brace. -/
theorem argumentAt?_place (arguments : List String) {digits : List Char}
    (numeral : ∀ c ∈ digits, c.isDigit = true) (rest : List Char) :
    argumentAt? arguments ('{' :: (digits ++ '}' :: rest)) =
      (argument? arguments digits).map fun argument => (argument, digits.length + 2) := by
  have taken : (digits ++ '}' :: rest).takeWhile Char.isDigit = digits := by
    rw [List.takeWhile_append_of_pos numeral]
    simp
  have dropped : (digits ++ '}' :: rest).dropWhile Char.isDigit = '}' :: rest := by
    rw [List.dropWhile_append_of_pos numeral]
    simp
  simp only [argumentAt?, taken, dropped, List.head?_cons, if_true]

theorem pass_char (arguments : List String) {c : Char} (plain : c ≠ '{') (rest : List Char) :
    pass arguments 0 (c :: rest) = c :: pass arguments 0 rest := by
  simp only [pass, argumentAt?_char arguments plain]

/-- Text without opening braces is passed over. -/
theorem pass_plain (arguments : List String) {front : List Char} (plain : '{' ∉ front)
    (rest : List Char) : pass arguments 0 (front ++ rest) = front ++ pass arguments 0 rest := by
  induction front with
  | nil => rfl
  | cons c front ih =>
    rw [List.mem_cons, not_or] at plain
    rw [List.cons_append, pass_char arguments (Ne.symm plain.1), ih plain.2, List.cons_append]

theorem not_mem_of_digits {digits : List Char} (numeral : ∀ c ∈ digits, c.isDigit = true) :
    '{' ∉ digits ++ ['}'] := by
  intro member
  rcases List.mem_append.mp member with inside | closing
  · exact absurd (numeral _ inside) (by decide)
  · exact absurd (List.mem_singleton.mp closing) (by decide)

/-- The pass fills each piece. -/
theorem pass_piece (arguments : List String) {piece : Piece} (proper : piece.Proper)
    (rest : List Char) :
    pass arguments 0 (piece.text ++ rest) = piece.filled arguments ++ pass arguments 0 rest := by
  cases piece with
  | char c => exact pass_char arguments proper rest
  | place digits =>
    have written : (Piece.place digits).text ++ rest =
        '{' :: (digits ++ '}' :: rest) := by simp [Piece.text]
    have found := argumentAt?_place arguments proper rest
    rw [written]
    cases given : argument? arguments digits with
    | some argument =>
      rw [given] at found
      have skipped := pass_skip arguments (digits ++ ['}']) rest
      rw [List.length_append, List.length_singleton, List.append_assoc] at skipped
      simp only [pass, found, Option.map_some, Piece.filled, given]
      exact congrArg (argument.toList ++ ·) skipped
    | none =>
      rw [given] at found
      have kept := pass_plain arguments (not_mem_of_digits proper) rest
      rw [List.append_assoc] at kept
      simp only [pass, found, Option.map_none, Piece.filled, given, Piece.text]
      exact congrArg ('{' :: ·) kept

theorem pass_pieces (arguments : List String) {pieces : List Piece}
    (proper : ∀ piece ∈ pieces, piece.Proper) :
    pass arguments 0 (pieces.flatMap Piece.text) = pieces.flatMap (Piece.filled arguments) := by
  induction pieces with
  | nil => rfl
  | cons piece rest ih =>
    obtain ⟨first, others⟩ := List.forall_mem_cons.mp proper
    rw [List.flatMap_cons, pass_piece arguments first, ih others, List.flatMap_cons]

/-! ## One argument after the other -/

section

theorem replaceFrom_skip (pattern replacement front rest : List Char) :
    Text.replaceFrom pattern replacement front.length (front ++ rest) =
      Text.replaceFrom pattern replacement 0 rest := by
  induction front with
  | nil => rfl
  | cons c front ih => exact ih

variable (i : Nat) (replacement : List Char)

/-- Text without opening braces has no place in it. -/
theorem replaceFrom_plain {front : List Char} (plain : '{' ∉ front) (rest : List Char) :
    Text.replaceFrom (place i) replacement 0 (front ++ rest) =
      front ++ Text.replaceFrom (place i) replacement 0 rest := by
  induction front with
  | nil => rfl
  | cons c front ih =>
    rw [List.mem_cons, not_or] at plain
    have elsewhere : (place i).isPrefixOf (c :: (front ++ rest)) = false := by
      simp [place, List.isPrefixOf, plain.1]
    rw [List.cons_append, Text.replaceFrom, elsewhere, ih plain.2]
    rfl

/-- A place starts with another one only when the digits are the same. -/
theorem isPrefixOf_place_iff {digits : List Char} (numeral : ∀ c ∈ digits, c.isDigit = true)
    (rest : List Char) :
    (place i).isPrefixOf ('{' :: (digits ++ '}' :: rest)) = true ↔
      digits = Nat.toDigits 10 i := by
  rw [List.isPrefixOf_iff_prefix, place, List.cons_prefix_cons]
  constructor
  · rintro ⟨-, after, same⟩
    -- the digits of either place are the longest front of digits of the one text
    have numeral' : ∀ c ∈ Nat.toDigits 10 i, c.isDigit = true := fun c =>
      Nat.isDigit_of_mem_toDigits (by omega) (by omega)
    have taken := congrArg (List.takeWhile Char.isDigit) same
    rw [List.append_assoc, List.takeWhile_append_of_pos numeral',
      List.takeWhile_append_of_pos numeral] at taken
    simpa using taken.symm
  · rintro rfl
    exact ⟨rfl, rest, by simp⟩

/-- Replacing the places of one number fills each piece that has it, and keeps the others. -/
theorem replaceFrom_place {digits : List Char} (numeral : ∀ c ∈ digits, c.isDigit = true)
    (rest : List Char) :
    Text.replaceFrom (place i) replacement 0 ((Piece.place digits).text ++ rest) =
      (if digits = Nat.toDigits 10 i then replacement else (Piece.place digits).text) ++
        Text.replaceFrom (place i) replacement 0 rest := by
  have written : (Piece.place digits).text ++ rest =
      '{' :: (digits ++ '}' :: rest) := by simp [Piece.text]
  rw [written, Text.replaceFrom]
  split
  · rename_i starts
    have own := (isPrefixOf_place_iff i numeral rest).mp starts
    have skipped := replaceFrom_skip (place i) replacement (digits ++ ['}']) rest
    rw [List.length_append, List.length_singleton, List.append_assoc] at skipped
    have length : (place i).length - 1 = digits.length + 1 := by simp [place, own]
    rw [if_pos own, length]
    exact congrArg (replacement ++ ·) skipped
  · rename_i starts
    rw [isPrefixOf_place_iff i numeral rest] at starts
    have kept := replaceFrom_plain i replacement (not_mem_of_digits numeral) rest
    rw [List.append_assoc] at kept
    rw [if_neg starts]
    exact congrArg ('{' :: ·) kept

end

/-- Putting in one more argument fills its places, whichever arguments are in already. -/
theorem replaceFrom_filled {arguments : List String} {argument : String} {piece : Piece}
    (proper : piece.Proper) (plain : ∀ earlier ∈ arguments, '{' ∉ earlier.toList)
    (rest : List Char) :
    Text.replaceFrom (place arguments.length) argument.toList 0 (piece.filled arguments ++ rest) =
      piece.filled (arguments ++ [argument]) ++
        Text.replaceFrom (place arguments.length) argument.toList 0 rest := by
  cases piece with
  | char c =>
    have single : '{' ∉ [c] := fun member => proper (List.mem_singleton.mp member).symm
    exact replaceFrom_plain _ _ single rest
  | place digits =>
    simp only [Piece.filled, argument?_concat]
    cases given : argument? arguments digits with
    | none =>
      rw [replaceFrom_place _ _ proper]
      split <;> rfl
    | some earlier =>
      obtain ⟨i, same, held⟩ := exists_of_argument? given
      have unlike : digits ≠ Nat.toDigits 10 arguments.length := by
        intro last
        have number : i = arguments.length := by
          rw [← @Nat.ofDigitChars_ten_toDigits i, ← same, last, Nat.ofDigitChars_ten_toDigits]
        rw [number, List.getElem?_eq_none (Nat.le_refl _)] at held
        cases held
      rw [if_neg unlike]
      exact replaceFrom_plain _ _ (plain earlier (List.mem_of_getElem? held)) rest

theorem replaceAll_filled {arguments : List String} (argument : String) {pieces : List Piece}
    (proper : ∀ piece ∈ pieces, piece.Proper)
    (plain : ∀ earlier ∈ arguments, '{' ∉ earlier.toList) :
    Text.replaceAll (place arguments.length) argument.toList
        (pieces.flatMap (Piece.filled arguments)) =
      pieces.flatMap (Piece.filled (arguments ++ [argument])) := by
  unfold Text.replaceAll
  induction pieces with
  | nil => rfl
  | cons piece rest ih =>
    obtain ⟨first, others⟩ := List.forall_mem_cons.mp proper
    rw [List.flatMap_cons, replaceFrom_filled first plain, ih others, List.flatMap_cons]

/-- Arguments that are put in behind others fill the places that those left. -/
theorem fillFrom_filled {pieces : List Piece} (proper : ∀ piece ∈ pieces, piece.Proper)
    {earlier arguments : List String}
    (plain : ∀ argument ∈ earlier ++ arguments, '{' ∉ argument.toList) :
    fillFrom earlier.length arguments (pieces.flatMap (Piece.filled earlier)) =
      pieces.flatMap (Piece.filled (earlier ++ arguments)) := by
  induction arguments generalizing earlier with
  | nil => rw [List.append_nil, fillFrom]
  | cons argument rest ih =>
    have before : ∀ argument ∈ earlier, '{' ∉ argument.toList :=
      fun argument member => plain argument (List.mem_append_left _ member)
    rw [List.append_cons] at plain ⊢
    rw [fillFrom, replaceAll_filled argument proper before, ← ih plain, List.length_append,
      List.length_singleton]

/-- Filling a template is one pass over it: every place `i` has the argument numbered `i` for it,
if there is one, and all else is kept.  This is so where every opening brace of the template starts
a place and no argument has an opening brace. -/
theorem fill_simultaneous (template : String) (arguments : List String)
    (formed : WellFormed template.toList)
    (plain : ∀ argument ∈ arguments, '{' ∉ argument.toList) :
    fill template arguments = String.ofList (pass arguments 0 template.toList) := by
  obtain ⟨pieces, proper, same⟩ := formed.exists_pieces
  have started : pieces.flatMap Piece.text = pieces.flatMap (Piece.filled []) := by
    rw [funext Piece.filled_nil]
  have filled : fillFrom 0 arguments (pieces.flatMap (Piece.filled [])) =
      pieces.flatMap (Piece.filled arguments) :=
    @fillFrom_filled pieces proper [] arguments plain
  rw [fill, same, pass_pieces arguments proper, started, filled]

/-- Places next to each other and in front of digits, one of them twice, with a leading zero,
without digits and beyond two arguments. -/
def looseEnds : String :=
  "{1}{0}{01}{}{2}0" ++ closeBrace ++ " {0}1" ++ closeBrace

/-- Arguments with digits and closing braces neither make places nor break them. -/
theorem fill_looseEnds :
    WellFormed looseEnds.toList ∧
    (∀ argument ∈ ["1" ++ closeBrace, "0" ++ closeBrace ++ "0"], '{' ∉ argument.toList) ∧
    fill looseEnds ["1" ++ closeBrace, "0" ++ closeBrace ++ "0"] =
      "0" ++ closeBrace ++ "01" ++ closeBrace ++ "{01}{}{2}0" ++ closeBrace ++ " 1" ++ closeBrace ++
        "1" ++ closeBrace := by
  have formed : WellFormed looseEnds.toList := by decide
  have plain : ∀ argument ∈ ["1" ++ closeBrace, "0" ++ closeBrace ++ "0"],
      '{' ∉ argument.toList := by decide
  refine ⟨formed, plain, (fill_simultaneous _ _ formed plain).trans ?_⟩
  decide

end Dartify.Message
