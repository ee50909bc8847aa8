import Dartify.Proofs.Brackets

/-!
# Words outside brackets

A word of a text is *bare* when spaces or the ends of the text are around it and all brackets in
front of it are closed (`Brackets.Bare`).  Operators that bind less tightly than a call matter only
where they are bare: inside brackets they stay what they are wherever the text is put.

A text is put together from pieces, and a word of the whole may lie in a piece, behind it or astride
its end (`Brackets.piece_cases`).  Where a piece of nested brackets has a bare word of the whole,
the brackets in front of the piece are closed and the word is bare in the piece
(`Brackets.Nested.of_append`).  Opening brackets minus closing ones (`Brackets.net`) tell quickly
where brackets in front cannot be closed.
-/

namespace Dartify.Brackets

/-! ## Counting brackets -/

/-- One for an opening bracket and minus one for a closing one. -/
def weight (c : Char) : Int :=
  if (closing? c).isSome then 1 else if isClosing c then -1 else 0

/-- Opening brackets minus closing ones. -/
def net : List Char → Int
  | [] => 0
  | c :: rest => weight c + net rest

@[simp] theorem net_nil : net [] = 0 := rfl

@[simp] theorem net_cons (c : Char) (rest : List Char) : net (c :: rest) = weight c + net rest :=
  rfl

@[simp] theorem net_append (first second : List Char) :
    net (first ++ second) = net first + net second := by
  induction first with
  | nil => simp
  | cons c rest ih => rw [List.cons_append, net_cons, net_cons, ih, Int.add_assoc]

theorem net_filter (text : List Char) : net (text.filter isBracket) = net text := by
  induction text with
  | nil => rfl
  | cons c rest ih =>
    rw [List.filter_cons]
    split
    · rw [net_cons, net_cons, ih]
    · rename_i other
      have light : weight c = 0 := by
        simp only [isBracket, Bool.or_eq_true, not_or, Bool.not_eq_true] at other
        simp [weight, other.1, other.2]
      rw [ih, net_cons, light, Int.zero_add]

/-- In a nested word as many brackets close as open. -/
theorem Nested.net_eq {word : List Char} (nested : Nested word) : net word = 0 := by
  induction nested with
  | nil => rfl
  | @pair opening closing inner rest fits _ _ inside behind =>
    have up : weight opening = 1 := by simp [weight, fits]
    have down : weight closing = -1 := by
      have closes : isClosing closing = true := by
        unfold closing? at fits
        split at fits <;> cases fits <;> rfl
      simp [weight, closing?_closing fits, closes]
    simp only [net_cons, net_append, up, down, inside, behind]
    rfl

/-! ## Parts of nested words -/

theorem read_append {awaited after : List Char} {c : Char} (done : read awaited c = some after)
    (outer : List Char) : read (awaited ++ outer) c = some (after ++ outer) := by
  cases opens : closing? c with
  | some closing =>
    rw [read_opening opens] at done ⊢
    cases done
    rfl
  | none =>
    rcases read_eq_some done with ⟨closing, fits, -⟩ | rfl
    · rw [opens] at fits
      cases fits
    · simp [read, opens]

/-- What is awaited further out does not matter to a reader. -/
theorem scan_frame {awaited after word : List Char} (done : scan awaited word = some after)
    (outer : List Char) : scan (awaited ++ outer) word = some (after ++ outer) := by
  induction word generalizing awaited with
  | nil =>
    cases done
    rfl
  | cons c rest ih =>
    rw [scan_cons] at done ⊢
    obtain ⟨between, first, others⟩ := Option.bind_eq_some_iff.mp done
    rw [read_append first, Option.bind_some, ih others]

/-- Where a nested word reaches up to a part of another one, the brackets before that other word are
closed, and so are those in the part. -/
theorem Nested.of_append {before front back : List Char} (upto : Nested (before ++ front))
    (whole : Nested (front ++ back)) : Nested before ∧ Nested front := by
  rw [nested_iff_scan, scan_append] at upto whole
  obtain ⟨opened, reads, -⟩ := Option.bind_eq_some_iff.mp whole
  obtain ⟨awaited, readsBefore, closes⟩ := Option.bind_eq_some_iff.mp upto
  have framed : scan awaited front = some (opened ++ awaited) := scan_frame reads awaited
  obtain ⟨rfl, rfl⟩ : opened = [] ∧ awaited = [] := by
    rw [framed, Option.some.injEq] at closes
    exact List.append_eq_nil_iff.mp closes
  exact ⟨nested_iff_scan.mpr readsBefore, nested_iff_scan.mpr reads⟩

/-! ## Bare words -/

/-- A text ends where a word may begin: it is empty or ends with a space. -/
def endsApart (front : List Char) : Bool :=
  front.getLast?.all (· == ' ')

/-- A text begins where a word may end: it is empty or begins with a space. -/
def startsApart (back : List Char) : Bool :=
  back.head?.all (· == ' ')

theorem endsApart_of_append {before front : List Char}
    (apart : endsApart (before ++ front) = true) : endsApart front = true := by
  cases ends : front.getLast? with
  | none => rw [endsApart, ends, Option.all_none]
  | some c =>
    rw [endsApart, List.getLast?_append, ends, Option.some_or] at apart
    rw [endsApart, ends]
    exact apart

theorem startsApart_of_append {after rest : List Char}
    (apart : startsApart (after ++ rest) = true) : startsApart after = true := by
  cases after with
  | nil => rfl
  | cons c others => exact apart

/-- A word stands in a text outside all brackets, with spaces around it. -/
def Bare (text word : String) : Prop :=
  ∃ front back, text.toList = front ++ word.toList ++ back ∧
    endsApart front = true ∧ startsApart back = true ∧ Nested (front.filter isBracket)

/-- Whether a word stands at a place of a text, with spaces around it. -/
def standsAt (text word : List Char) (place : Nat) : Bool :=
  text == text.take place ++ word ++ text.drop (place + word.length) &&
    endsApart (text.take place) && startsApart (text.drop (place + word.length))

theorem standsAt_length {text front word back : List Char} (whole : text = front ++ word ++ back)
    (before : endsApart front = true) (behind : startsApart back = true) :
    front.length ∈ List.range (text.length + 1) ∧ standsAt text word front.length = true ∧
      text.take front.length = front := by
  have upto : text.take front.length = front := by
    rw [whole, List.append_assoc, List.take_left]
  have onward : text.drop (front.length + word.length) = back := by
    rw [whole, ← List.length_append, List.drop_left]
  refine ⟨?_, ?_, upto⟩
  · rw [List.mem_range, whole]
    simp only [List.length_append]
    omega
  · rw [standsAt, upto, onward, before, behind, ← whole]
    simp

instance (text word : String) : Decidable (Bare text word) :=
  decidable_of_iff ((List.range (text.toList.length + 1)).any fun place =>
      standsAt text.toList word.toList place &&
        decide (Nested ((text.toList.take place).filter isBracket))) <| by
    rw [List.any_eq_true]
    constructor
    · rintro ⟨place, -, found⟩
      simp only [standsAt, Bool.and_eq_true, beq_iff_eq, decide_eq_true_eq] at found
      exact ⟨_, _, found.1.1.1, found.1.1.2, found.1.2, found.2⟩
    · rintro ⟨front, back, whole, before, behind, closed⟩
      obtain ⟨inside, stands, upto⟩ := standsAt_length whole before behind
      exact ⟨front.length, inside, by simp [stands, upto, closed]⟩

/-- A word of two texts one after the other lies behind the first, in it, or astride its end. -/
theorem piece_cases {piece rest front word back : List Char}
    (whole : piece ++ rest = front ++ word ++ back) :
    (∃ after, front = piece ++ after ∧ rest = after ++ word ++ back) ∨
    (∃ after, piece = front ++ word ++ after ∧ back = after ++ rest) ∨
    ∃ left right, left ≠ [] ∧ right ≠ [] ∧ word = left ++ right ∧ piece = front ++ left ∧
      rest = right ++ back := by
  rw [List.append_assoc] at whole
  rcases List.append_eq_append_iff.mp whole with ⟨after, ahead, behind⟩ | ⟨left, begun, onward⟩
  · exact .inl ⟨after, ahead, by rw [behind, List.append_assoc]⟩
  · rcases List.append_eq_append_iff.mp onward with ⟨after, inside, behind⟩ | ⟨right, split, ends⟩
    · exact .inr (.inl ⟨after, by rw [begun, inside, List.append_assoc], behind⟩)
    · by_cases none : left = []
      · subst none
        exact .inl ⟨[], by simpa using begun.symm, by simpa [split] using ends⟩
      · by_cases all : right = []
        · subst all
          exact .inr (.inl ⟨[], by simp [begun, split], by simpa using ends.symm⟩)
        · exact .inr (.inr ⟨left, right, none, all, split, begun, ends⟩)

/-- A space in front of a text changes nothing about its bare words. -/
theorem Bare.of_space {text word : String} (bare : Bare text word) : Bare (" " ++ text) word := by
  obtain ⟨front, back, whole, before, behind, closed⟩ := bare
  refine ⟨' ' :: front, back, by simp [whole], ?_, behind, ?_⟩
  · cases front with
    | nil => rfl
    | cons c rest => exact before
  · have space : isBracket ' ' = false := by decide
    simpa [List.filter_cons, space] using closed

/-! ## Operators -/

/-- The operators that bind less tightly than a call, as Dart spells them. -/
def looseOperators : List String :=
  ["=", "+=", "-=", "*=", "/=", "%=", "&=", "|=", "^=", "<<=", ">>=", ">>>=", "?", "&&", "||", "==",
    "!=", "+", "-", "*", "/", "%", "&", "|", "^", "is"]

/-- Whether operators are made of a character. -/
def isSymbol (c : Char) : Bool :=
  "=?&|!+-*/%^<>".toList.contains c

theorem toList_ne_nil_of_listed {operator : String} (listed : operator ∈ looseOperators) :
    operator.toList ≠ [] := by
  have named : ∀ word ∈ looseOperators, word.toList ≠ [] := by decide
  exact named operator listed

/-- A text does not begin with a character of which operators are made. -/
def Soft (text : String) : Prop :=
  text.toList.head?.all (fun c => !isSymbol c) = true

instance (text : String) : Decidable (Soft text) :=
  inferInstanceAs (Decidable (_ = true))

theorem Soft.append {first second : String} (one : Soft first) (two : Soft second) :
    Soft (first ++ second) := by
  unfold Soft at *
  rw [String.toList_append]
  cases start : first.toList with
  | nil => exact two
  | cons c rest =>
    rw [start] at one
    exact one

theorem soft_space (text : String) : Soft (" " ++ text) := by
  rw [Soft, String.toList_append]
  rfl

/-- Where a text is continued by a space, or by a soft text behind another letter than the first of
`is`, no operator lies astride the end of the text. -/
theorem not_astride {operator : String} (listed : operator ∈ looseOperators)
    {left right front back piece rest : List Char} (split : operator.toList = left ++ right)
    (begins : left ≠ []) (ends : right ≠ []) (begun : piece = front ++ left)
    (onward : rest = right ++ back)
    (parted : startsApart rest = true ∨
      rest.head?.all (fun c => !isSymbol c) = true ∧ piece.getLast? ≠ some 'i') : False := by
  have known : looseOperators.all (fun word =>
      word.toList == ['i', 's'] || word.toList.all isSymbol) = true := by decide
  obtain ⟨c, others, rfl⟩ := List.exists_cons_of_ne_nil ends
  subst onward begun
  rcases Bool.or_eq_true_iff.mp (List.all_eq_true.mp known _ listed) with word | symbols
  · -- only one way to divide `is`
    rw [beq_iff_eq.mp word] at split
    obtain ⟨first, between, rfl⟩ := List.exists_cons_of_ne_nil begins
    simp only [List.cons_append, List.cons.injEq] at split
    obtain ⟨rfl, second⟩ := split
    cases between with
    | nil =>
      cases second
      rcases parted with space | ⟨-, other⟩
      · simp [startsApart] at space
      · exact other (by simp)
    | cons second' others' => simp at second
  · rw [split, List.all_append, Bool.and_eq_true, List.all_cons, Bool.and_eq_true] at symbols
    have symbol : isSymbol c = true := symbols.2.1
    rcases parted with space | ⟨soft, -⟩
    · have space : c = ' ' := by simpa [startsApart] using space
      rw [space] at symbol
      exact absurd symbol (by decide)
    · simp [symbol] at soft

/-- The operators that a text begins with, set apart from what follows. -/
def leading (text : List Char) : List String :=
  looseOperators.filter fun operator =>
    operator.toList.isPrefixOf text && startsApart (text.drop operator.toList.length)

/-- The operators that stand in a text with spaces around them, where the brackets in front of them
make up for `depth`; `apart` says whether a word may begin where the text does. -/
def standing (depth : Int) (apart : Bool) : List Char → List String
  | [] => []
  | c :: rest =>
    (if apart && decide (depth = 0) then leading (c :: rest) else []) ++
      standing (depth + weight c) (c == ' ') rest

/-- Whether no operator stands in a text, inside brackets or outside. -/
def isQuiet (apart : Bool) : List Char → Bool
  | [] => true
  | c :: rest => (!apart || (leading (c :: rest)).isEmpty) && isQuiet (c == ' ') rest

theorem standing_eq_nil {apart : Bool} {text : List Char} (quiet : isQuiet apart text = true)
    (depth : Int) : standing depth apart text = [] := by
  induction text generalizing apart depth with
  | nil => rfl
  | cons c rest ih =>
    obtain ⟨here, onward⟩ := Bool.and_eq_true_iff.mp quiet
    rw [standing, ih onward, List.append_nil]
    split
    · rename_i open_
      rw [(Bool.and_eq_true_iff.mp open_).1] at here
      exact List.isEmpty_iff.mp here
    · rfl

theorem mem_standing {operator : String} (listed : operator ∈ looseOperators) {depth : Int}
    {apart : Bool} {front back : List Char} (start : front = [] → apart = true)
    (before : endsApart front = true) (behind : startsApart back = true)
    (level : depth + net front = 0) :
    operator ∈ standing depth apart (front ++ operator.toList ++ back) := by
  induction front generalizing depth apart with
  | nil =>
    have found : operator ∈ leading (operator.toList ++ back) := by
      refine List.mem_filter.mpr ⟨listed, ?_⟩
      rw [List.drop_left, behind, Bool.and_true, List.isPrefixOf_iff_prefix]
      exact List.prefix_append ..
    obtain ⟨c, others, spelt⟩ := List.exists_cons_of_ne_nil (toList_ne_nil_of_listed listed)
    rw [List.nil_append]
    rw [spelt, List.cons_append] at found ⊢
    rw [net_nil, Int.add_zero] at level
    rw [standing, start rfl, level]
    exact List.mem_append_left _ found
  | cons c rest ih =>
    refine List.mem_append_right _ (ih ?_ ?_ ?_)
    · rintro rfl
      exact before
    · have whole : endsApart ([c] ++ rest) = true := before
      exact endsApart_of_append whole
    · rwa [net_cons, ← Int.add_assoc] at level

end Dartify.Brackets
