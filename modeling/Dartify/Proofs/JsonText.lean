import Dartify.Json.Parser
import Mathlib.Data.List.Basic
import Mathlib.Data.List.TakeWhile
import Mathlib.Tactic.IntervalCases

/-!
# Writing JSON text

The compact text of a value, and the proof that the strict reader reads it back
(`Json.parse?_write`).  Texts are quoted with the short escapes where there are some, other control
characters with `\u`, and all else as it stands.

The reader looks ahead at the end of a number, so a value is read back only in front of something
that cannot be a part of it (`Json.Ends`).  Its budget is counted against the length of the text
that is left: a bracket pays for the step into the items, and a comma for the step to the next one.
-/

namespace Dartify.Json

/-! ## The writer -/

/-- A character inside a quoted text. -/
def escaped (c : Char) : List Char :=
  if c = '"' then ['\\', '"']
  else if c = '\\' then ['\\', '\\']
  else if c = '\x08' then ['\\', 'b']
  else if c = '\x0c' then ['\\', 'f']
  else if c = '\n' then ['\\', 'n']
  else if c = '\r' then ['\\', 'r']
  else if c = '\t' then ['\\', 't']
  else if c.toNat < 0x20 then
    ['\\', 'u', '0', '0', Nat.digitChar (c.toNat / 16), Nat.digitChar (c.toNat % 16)]
  else [c]

/-- A text between quotes. -/
def quotedText (text : String) : List Char :=
  '"' :: (text.toList.flatMap escaped ++ ['"'])

mutual

/-- The text of a value.  A value that cannot be read is written as a number that cannot. -/
def characters : Json → List Char
  | .null => ['n', 'u', 'l', 'l']
  | .bool true => ['t', 'r', 'u', 'e']
  | .bool false => ['f', 'a', 'l', 's', 'e']
  | .nat value => Nat.toDigits 10 value
  | .text value => quotedText value
  | .other => ['-', '1']
  | .list items => '[' :: itemCharacters items
  | .object fields => '{' :: pairCharacters fields
termination_by structural value => value

/-- The text of items up to the closing bracket. -/
def itemCharacters : List Json → List Char
  | [] => [']']
  | [item] => characters item ++ [']']
  | item :: next :: rest => characters item ++ ',' :: itemCharacters (next :: rest)
termination_by structural items => items

/-- The text of pairs up to the closing brace. -/
def pairCharacters : List (String × Json) → List Char
  | [] => ['}']
  | [(key, value)] => quotedText key ++ ':' :: (characters value ++ ['}'])
  | (key, value) :: next :: rest =>
    quotedText key ++ ':' :: (characters value ++ ',' :: pairCharacters (next :: rest))
termination_by structural fields => fields

end

/-- The compact text of a value. -/
def write (value : Json) : String := String.ofList value.characters

/-! ## Numbers -/

/-- What may follow a value inside a text: nothing, or what separates and closes. -/
def Ends (rest : List Char) : Prop :=
  ∀ c ∈ rest.head?, c = ',' ∨ c = ']' ∨ c = '}'

theorem ends_nil : Ends [] := by
  intro c member
  cases member

theorem ends_cons {c : Char} (closes : c = ',' ∨ c = ']' ∨ c = '}') (rest : List Char) :
    Ends (c :: rest) := by
  rintro _ ⟨⟩
  exact closes

/-- Only zero is written with a leading zero. -/
theorem head?_toDigits_ne {n : Nat} (positive : 0 < n) :
    (Nat.toDigits 10 n).head? ≠ some '0' := by
  induction n using Nat.strong_induction_on with
  | _ n ih =>
    by_cases small : n < 10
    · rw [Nat.toDigits_of_lt_base small]
      interval_cases n <;> decide
    · have large : 10 ≤ n := Nat.not_lt.mp small
      have lower : n / 10 < n := Nat.div_lt_self positive (by omega)
      rw [Nat.toDigits_of_base_le (by omega) large,
        List.head?_append_of_ne_nil _ Nat.toDigits_ne_nil]
      exact ih (n / 10) lower (by omega)

theorem digitsValue_toDigits (n : Nat) : digitsValue (Nat.toDigits 10 n) = n := by
  have read : Nat.ofDigitChars 10 (Nat.toDigits 10 n) 0 = n :=
    Nat.ofDigitChars_toDigits (by omega) (by omega)
  rwa [Nat.ofDigitChars_eq_foldl] at read

/-- The digits of a number end where the value ends. -/
theorem span_toDigits (n : Nat) {rest : List Char} (ends : Ends rest) :
    (Nat.toDigits 10 n ++ rest).takeWhile Char.isDigit = Nat.toDigits 10 n ∧
    (Nat.toDigits 10 n ++ rest).dropWhile Char.isDigit = rest := by
  have digits : ∀ c ∈ Nat.toDigits 10 n, c.isDigit = true := fun c member =>
    Nat.isDigit_of_mem_toDigits (by omega) (by omega) member
  rw [List.takeWhile_append_of_pos digits, List.dropWhile_append_of_pos digits]
  cases rest with
  | nil => simp
  | cons c rest => rcases ends c rfl with rfl | rfl | rfl <;> simp

/-- Neither a fraction nor an exponent follows. -/
theorem fraction?_of_ends {rest : List Char} (ends : Ends rest) :
    fraction? rest = some (false, rest) ∧ exponent? rest = some (false, rest) := by
  cases rest with
  | nil => exact ⟨rfl, rfl⟩
  | cons c rest => rcases ends c rfl with rfl | rfl | rfl <;> exact ⟨rfl, rfl⟩

theorem magnitude?_toDigits (n : Nat) {rest : List Char} (ends : Ends rest) :
    magnitude? (Nat.toDigits 10 n ++ rest) = some (Nat.toDigits 10 n, true, rest) := by
  obtain ⟨taken, dropped⟩ := span_toDigits n ends
  obtain ⟨whole, plain⟩ := fraction?_of_ends ends
  have proper : ¬((Nat.toDigits 10 n).isEmpty || ((Nat.toDigits 10 n).length > 1 &&
      (Nat.toDigits 10 n).head? == some '0')) = true := by
    rcases Nat.eq_zero_or_pos n with rfl | positive
    · decide
    · simp [Nat.toDigits_ne_nil, head?_toDigits_ne positive]
  simp only [magnitude?, taken, dropped, if_neg proper, whole, Option.bind_eq_bind,
    Option.bind_some, plain]
  rfl

/-! ## Texts -/

theorem hexDigit?_digitChar {n : Nat} (small : n < 16) : hexDigit? (Nat.digitChar n) = some n := by
  interval_cases n <;> decide

/-- A character that needs no escape is read as it stands. -/
theorem units?_plain {c : Char} (notQuote : c ≠ '"') (notSlash : c ≠ '\\')
    (notControl : ¬c.toNat < 0x20) (rest : List Char) :
    units? (c :: rest) = (units? rest).map fun read => (c.toNat :: read.1, read.2) := by
  have plain : ¬(decide (c.toNat < 0x20) || c == '\\') = true := by
    simp [notControl, notSlash]
  rw [units?, if_neg plain]
  · cases units? rest <;> rfl
  all_goals simp [notQuote, notSlash]

/-- Two zeros and two digits write a number below 256. -/
theorem hexUnit?_digitChars {n : Nat} (small : n < 256) :
    hexUnit? '0' '0' (Nat.digitChar (n / 16)) (Nat.digitChar (n % 16)) = some n := by
  have zero : hexDigit? '0' = some 0 := by decide
  have high : hexDigit? (Nat.digitChar (n / 16)) = some (n / 16) := hexDigit?_digitChar (by omega)
  have low : hexDigit? (Nat.digitChar (n % 16)) = some (n % 16) := hexDigit?_digitChar (by omega)
  simp only [hexUnit?, zero, high, low, Option.bind_eq_bind, Option.bind_some, Option.pure_def,
    Option.some.injEq]
  omega

/-- A control character is read from its two last hexadecimal digits. -/
theorem units?_control {c : Char} (control : c.toNat < 0x20) (rest : List Char) :
    units? ('\\' :: 'u' :: '0' :: '0' :: Nat.digitChar (c.toNat / 16) ::
        Nat.digitChar (c.toNat % 16) :: rest) =
      (units? rest).map fun read => (c.toNat :: read.1, read.2) := by
  have unit : hexUnit? '0' '0' (Nat.digitChar (c.toNat / 16)) (Nat.digitChar (c.toNat % 16)) =
      some c.toNat := hexUnit?_digitChars (by omega)
  rw [units?, unit]
  cases units? rest <;> rfl

/-- An escaped character is read as one unit. -/
theorem units?_escaped (c : Char) (rest : List Char) :
    units? (escaped c ++ rest) = (units? rest).map fun read => (c.toNat :: read.1, read.2) := by
  unfold escaped
  split_ifs with quote slash back feed line turn tab control
  rotate_left 7
  · exact units?_control control rest
  · exact units?_plain quote slash control rest
  all_goals
    subst c
    cases found : units? rest <;> simp [units?, shortEscape?, found]

theorem units?_flatMap_escaped (text rest : List Char) :
    units? (text.flatMap escaped ++ '"' :: rest) = some (text.map Char.toNat, rest) := by
  induction text with
  | nil => rfl
  | cons c text ih =>
    rw [List.flatMap_cons, List.append_assoc, units?_escaped, ih]
    rfl

/-- No character is a half of a surrogate pair. -/
theorem isHalf_toNat (c : Char) : isHighHalf c.toNat = false ∧ isLowHalf c.toNat = false := by
  have valid : c.toNat.isValidChar := c.valid
  simp only [Nat.isValidChar] at valid
  simp only [isHighHalf, isLowHalf, Bool.and_eq_false_iff, decide_eq_false_iff_not]
  omega

theorem ofUnits?_map_toNat (text : List Char) : ofUnits? (text.map Char.toNat) = some text := by
  induction text with
  | nil => rfl
  | cons c text ih =>
    obtain ⟨high, low⟩ := isHalf_toNat c
    cases text with
    | nil => simp [ofUnits?, high, low, Char.ofNat_toNat]
    | cons next text =>
      simp only [List.map_cons] at ih ⊢
      simp [ofUnits?, high, low, ih, Char.ofNat_toNat]

/-- A quoted text is read back, whatever follows it. -/
theorem quoted?_escaped (text : String) (rest : List Char) :
    quoted? (text.toList.flatMap escaped ++ '"' :: rest) = some (some text, rest) := by
  simp [quoted?, units?_flatMap_escaped, ofUnits?_map_toNat]

/-! ## Values -/

theorem exists_toDigits_eq (n : Nat) :
    ∃ c more, Nat.toDigits 10 n = c :: more ∧ c.isDigit = true := by
  obtain ⟨c, more, starts⟩ := List.exists_cons_of_ne_nil (Nat.toDigits_ne_nil (b := 10) (n := n))
  have member : c ∈ Nat.toDigits 10 n := by
    rw [starts]
    exact List.mem_cons_self
  exact ⟨c, more, starts, Nat.isDigit_of_mem_toDigits (by omega) (by omega) member⟩

/-- A digit differs from every character that is none. -/
theorem digit_ne {c d : Char} (digit : c.isDigit = true) (other : d.isDigit = false) : c ≠ d := by
  rintro rfl
  rw [digit] at other
  cases other

/-- A value starts with a character that is neither a blank nor the end of a list. -/
theorem exists_characters_eq (value : Json) :
    ∃ c more, value.characters = c :: more ∧ isGap c = false ∧ c ≠ ']' := by
  cases value with
  | bool value => cases value <;> exact ⟨_, _, rfl, by decide, by decide⟩
  | nat value =>
    obtain ⟨c, more, starts, digit⟩ := exists_toDigits_eq value
    have notGap : isGap c = false := by
      simp [isGap, digit_ne digit (d := ' ') (by decide), digit_ne digit (d := '\t') (by decide),
        digit_ne digit (d := '\n') (by decide), digit_ne digit (d := '\r') (by decide)]
    exact ⟨c, more, starts, notGap, digit_ne digit (by decide)⟩
  | _ => exact ⟨_, _, rfl, by decide, by decide⟩

theorem skipGap_characters (value : Json) (rest : List Char) :
    skipGap (value.characters ++ rest) = value.characters ++ rest := by
  obtain ⟨c, more, starts, notGap, -⟩ := exists_characters_eq value
  simp [starts, skipGap, notGap]

theorem number?_toDigits (n : Nat) {rest : List Char} (ends : Ends rest) :
    number? (Nat.toDigits 10 n ++ rest) = some (.nat n, rest) := by
  have read := magnitude?_toDigits n ends
  obtain ⟨c, more, starts, digit⟩ := exists_toDigits_eq n
  unfold number?
  split
  · next signed =>
    rw [starts, List.cons_append] at signed
    exact absurd (List.cons.inj signed).1 (digit_ne digit (by decide))
  · rw [read]
    simp [digitsValue_toDigits]

theorem value?_toDigits (budget n : Nat) {rest : List Char} (ends : Ends rest) :
    value? (budget + 1) (Nat.toDigits 10 n ++ rest) = some (.nat n, rest) := by
  have skipped : skipGap (Nat.toDigits 10 n ++ rest) = Nat.toDigits 10 n ++ rest :=
    skipGap_characters (.nat n) rest
  rw [← number?_toDigits n ends, value?, skipped]
  obtain ⟨c, more, starts, digit⟩ := exists_toDigits_eq n
  -- The first digit rules out every other form of a value.
  split <;> first
    | rfl
    | next word =>
        rw [starts, List.cons_append] at word
        exact absurd (List.cons.inj word).1 (digit_ne digit (by decide))

theorem value?_quotedText (budget : Nat) (text : String) (rest : List Char) :
    value? (budget + 1) (quotedText text ++ rest) = some (.text text, rest) := by
  have read := quoted?_escaped text rest
  simp [value?, quotedText, skipGap, isGap, read, ofQuoted]

/-- A list that is not empty is read item by item. -/
theorem value?_list (budget : Nat) (item : Json) (rest : List Char) :
    value? (budget + 1) ('[' :: (item.characters ++ rest)) =
      (items? budget (item.characters ++ rest)).map fun read => (.list read.1, read.2) := by
  have skipped := skipGap_characters item rest
  obtain ⟨c, more, starts, -, open'⟩ := exists_characters_eq item
  have bracket : skipGap ('[' :: (item.characters ++ rest)) = '[' :: (item.characters ++ rest) :=
    rfl
  simp only [value?, bracket, skipped]
  split
  · next closed =>
    rw [starts, List.cons_append] at closed
    exact absurd (List.cons.inj closed).1 open'
  · rfl

/-- An object that is not empty is read pair by pair. -/
theorem value?_object (budget : Nat) (key : String) (rest : List Char) :
    value? (budget + 1) ('{' :: (quotedText key ++ rest)) =
      (pairs? budget (quotedText key ++ rest)).map fun read => (ofPairs read.1, read.2) := by
  simp [value?, quotedText, skipGap, isGap]

/-- A number below zero is read as a value that cannot be used. -/
theorem value?_other (budget : Nat) {rest : List Char} (ends : Ends rest) :
    value? (budget + 1) ('-' :: '1' :: rest) = some (.other, rest) := by
  have read : magnitude? ('1' :: rest) = some (['1'], true, rest) := magnitude?_toDigits 1 ends
  simp [value?, skipGap, isGap, number?, read]

theorem ofPairs_map_some (fields : List (String × Json)) :
    ofPairs (fields.map fun field => (some field.1, field.2)) = .object fields := by
  have keys : (fields.map fun field => (some field.1, field.2)).mapM
      (fun pair : Option String × Json => pair.1.map fun key => (key, pair.2)) = some fields := by
    induction fields with
    | nil => rfl
    | cons field fields ih => simp [ih]
  rw [ofPairs, keys]

theorem length_characters_pos (value : Json) : 0 < value.characters.length := by
  obtain ⟨c, more, starts, -⟩ := exists_characters_eq value
  simp [starts]

-- Each of the three statements is proved from the others on smaller values; the budgets differ by
-- the bracket that a list or an object has in front of its items.
mutual

/-- A value is read back in front of what ends it. -/
theorem value?_characters (value : Json) (budget : Nat) {rest : List Char} (ends : Ends rest)
    (enough : 2 * value.characters.length ≤ budget) :
    value? budget (value.characters ++ rest) = some (value, rest) := by
  have positive := length_characters_pos value
  obtain ⟨budget, rfl⟩ : ∃ less, budget = less + 1 := ⟨budget - 1, by omega⟩
  match value with
  | .null => rfl
  | .bool true => rfl
  | .bool false => rfl
  | .nat value => exact value?_toDigits budget value ends
  | .text value => exact value?_quotedText budget value rest
  | .other => exact value?_other budget ends
  | .list [] => rfl
  | .list (item :: items) =>
    rw [characters, List.length_cons] at enough
    have read := items?_itemCharacters (item :: items) (List.cons_ne_nil _ _) budget rest (by omega)
    obtain ⟨more, starts⟩ : ∃ more, itemCharacters (item :: items) = item.characters ++ more := by
      cases items <;> exact ⟨_, rfl⟩
    rw [starts, List.append_assoc] at read
    rw [characters, starts, List.cons_append, List.append_assoc, value?_list, read]
    rfl
  | .object [] => rfl
  | .object ((key, value) :: fields) =>
    rw [characters, List.length_cons] at enough
    have read := pairs?_pairCharacters ((key, value) :: fields) (List.cons_ne_nil _ _)
      budget rest (by omega)
    obtain ⟨more, starts⟩ :
        ∃ more, pairCharacters ((key, value) :: fields) = quotedText key ++ more := by
      cases fields <;> exact ⟨_, rfl⟩
    rw [starts, List.append_assoc] at read
    rw [characters, starts, List.cons_append, List.append_assoc, value?_object, read,
      Option.map_some, ofPairs_map_some]
termination_by structural value

/-- Items are read back up to their bracket. -/
theorem items?_itemCharacters (items : List Json) (nonempty : items ≠ []) (budget : Nat)
    (rest : List Char) (enough : 2 * (itemCharacters items).length + 1 ≤ budget) :
    items? budget (itemCharacters items ++ rest) = some (items, rest) := by
  obtain ⟨budget, rfl⟩ : ∃ less, budget = less + 1 := ⟨budget - 1, by omega⟩
  match items with
  | [] => contradiction
  | [item] =>
    rw [itemCharacters, List.length_append, List.length_singleton] at enough
    have first := value?_characters item budget (ends_cons (c := ']') (by simp) rest)
      (by omega)
    simp [items?, itemCharacters, first, skipGap, isGap]
  | item :: next :: items =>
    rw [itemCharacters, List.length_append, List.length_cons] at enough
    have positive := length_characters_pos item
    have first := value?_characters item budget
      (ends_cons (c := ',') (by simp) (itemCharacters (next :: items) ++ rest)) (by omega)
    have others := items?_itemCharacters (next :: items) (List.cons_ne_nil _ _) budget rest
      (by omega)
    simp [items?, itemCharacters, first, skipGap, isGap, others]
termination_by structural items

/-- Pairs are read back up to their brace. -/
theorem pairs?_pairCharacters (fields : List (String × Json)) (nonempty : fields ≠ [])
    (budget : Nat) (rest : List Char)
    (enough : 2 * (pairCharacters fields).length + 1 ≤ budget) :
    pairs? budget (pairCharacters fields ++ rest) =
      some (fields.map fun field => (some field.1, field.2), rest) := by
  obtain ⟨budget, rfl⟩ : ∃ less, budget = less + 1 := ⟨budget - 1, by omega⟩
  match fields with
  | [] => contradiction
  | [(key, value)] =>
    simp only [pairCharacters, List.length_append, List.length_cons] at enough
    have name := quoted?_escaped key (':' :: (value.characters ++ '}' :: rest))
    have first := value?_characters value budget
      (ends_cons (c := '}') (by simp) rest) (by omega)
    simp [pairs?, pairCharacters, quotedText, name, first, skipGap, isGap]
  | (key, value) :: next :: fields =>
    simp only [pairCharacters, List.length_append, List.length_cons] at enough
    have name := quoted?_escaped key
      (':' :: (value.characters ++ ',' :: (pairCharacters (next :: fields) ++ rest)))
    have first := value?_characters value budget
      (ends_cons (c := ',') (by simp) (pairCharacters (next :: fields) ++ rest)) (by omega)
    have others := pairs?_pairCharacters (next :: fields) (List.cons_ne_nil _ _)
      budget rest (by omega)
    simp [pairs?, pairCharacters, quotedText, name, first, skipGap, isGap, others]
termination_by structural fields

end

/-- **Reading what was written**: the text of a value is read as that value. -/
theorem parse?_write (value : Json) : parse? value.write = some value := by
  have read := value?_characters value (2 * value.characters.length + 2) ends_nil (by omega)
  rw [List.append_nil] at read
  simp [parse?, write, read, skipGap]

end Dartify.Json
