import Dartify.Text.Lines
import Mathlib.Data.Prod.Lex
import Mathlib.Data.Set.Card
import Mathlib.Data.String.Basic

/-!
# Lines and columns are exact

The line of an offset is the number of line terminators that end at or before it, and its column is
the number of characters from the end of the last of them.  A carriage return with a line feed
behind it is one terminator, and either of the two alone is one (`Lines.Terminates`).

The line is found by bisection, which is right because the starts of lines increase
(`Lines.startsAfter_increasing`): it ends at the last start that does not lie behind the offset
(`Lines.Parts`).  A column is a count of character boundaries.  It is the length of the text between
two boundaries (`Lines.charactersBetween_append`), and both ends are boundaries when the offset is
one, since lines start at boundaries.
-/

namespace Dartify.Lines

open String (utf8Len)

/-! ## Bisection -/

section Bisection

variable {starts : List Nat} {offset : Nat}

/-- The numbers at or before an offset are those up to a place. -/
structure Parts (starts : List Nat) (offset place : Nat) : Prop where
  /-- It is a place of the list. -/
  inside : place < starts.length
  /-- The numbers up to it, and only they, are at or before the offset. -/
  le_iff : ∀ other < starts.length, starts.getD other 0 ≤ offset ↔ other ≤ place

theorem getD_le_getD (increasing : starts.Pairwise (· < ·)) {first second : Nat}
    (ordered : first ≤ second) (inside : second < starts.length) :
    starts.getD first 0 ≤ starts.getD second 0 := by
  rcases Nat.eq_or_lt_of_le ordered with rfl | before
  · exact Nat.le_refl _
  · rw [← List.getElem_eq_getD (h := Nat.lt_trans before inside),
      ← List.getElem_eq_getD (h := inside)]
    exact Nat.le_of_lt (List.pairwise_iff_getElem.mp increasing _ _ _ _ before)

/-- Bisection parts increasing numbers, when it begins with the places at which they can be parted:
the first of them is not behind the offset, and all numbers after them are. -/
theorem parts_bisect (increasing : starts.Pairwise (· < ·)) {low width : Nat}
    (wide : 0 < width) (inside : low + width ≤ starts.length) (before : starts.getD low 0 ≤ offset)
    (after : ∀ place, low + width ≤ place → place < starts.length →
      offset < starts.getD place 0) :
    Parts starts offset (bisect starts offset low width) := by
  fun_induction bisect starts offset low width with
  | case1 low width single =>
    refine ⟨by omega, fun other known => ⟨fun reached => ?_, fun earlier => ?_⟩⟩
    · by_contra later
      exact absurd (after other (by omega) known) (Nat.not_lt.mpr reached)
    · exact Nat.le_trans (getD_le_getD increasing earlier (by omega)) before
  | case2 low width several reached ih =>
    exact ih (by omega) (by omega) reached fun place => by
      rw [show low + width / 2 + (width - width / 2) = low + width by omega]
      exact after place
  | case3 low width several passed ih =>
    refine ih (by omega) (by omega) before fun place later known => ?_
    exact Nat.lt_of_lt_of_le (Nat.lt_of_not_le passed) (getD_le_getD increasing later known)

/-- The line of an offset parts the starts of lines. -/
theorem parts_lineAt {lines : Lines} (increasing : lines.starts.Pairwise (· < ·))
    (first : lines.starts.head? = some 0) : Parts lines.starts offset (lines.lineAt offset) := by
  obtain ⟨rest, starts_eq⟩ := List.head?_eq_some_iff.mp first
  have parts : Parts lines.starts offset
      (bisect lines.starts offset 0 lines.starts.length) := by
    refine parts_bisect increasing ?_ (by omega) ?_ fun place later known => by omega
    · simp [starts_eq]
    · simp [starts_eq]
  have reached := (parts.le_iff _ parts.inside).mpr (Nat.le_refl _)
  have found := List.getElem?_eq_getElem parts.inside
  have here : lines.lineAt offset = bisect lines.starts offset 0 lines.starts.length := by
    rw [← List.getElem_eq_getD (h := parts.inside)] at reached
    simp only [lineAt, search, found]
    rcases Nat.eq_or_lt_of_le reached with same | before
    · rw [if_pos same]
    · rw [if_neg (Nat.ne_of_lt before), if_pos before]
      exact Nat.add_sub_cancel _ 1
  rw [here]
  exact parts

/-- There are as many numbers at or before an offset as there are places up to the last one. -/
theorem Parts.length_filter {place : Nat} (parts : Parts starts offset place) :
    (starts.filter (· ≤ offset)).length = place + 1 := by
  have cut := List.take_append_drop (place + 1) starts
  have early : (starts.take (place + 1)).filter (· ≤ offset) = starts.take (place + 1) := by
    refine List.filter_eq_self.mpr fun start member => ?_
    obtain ⟨other, bound, rfl⟩ := List.mem_take_iff_getElem.mp member
    have known : other < starts.length := by omega
    rw [List.getElem_eq_getD 0]
    exact decide_eq_true ((parts.le_iff other known).mpr (by omega))
  have late : (starts.drop (place + 1)).filter (· ≤ offset) = [] := by
    refine List.filter_eq_nil_iff.mpr fun start member => ?_
    obtain ⟨other, bound, rfl⟩ := List.mem_drop_iff_getElem.mp member
    rw [List.getElem_eq_getD 0, decide_eq_true_iff, parts.le_iff _ (by omega)]
    omega
  rw [← cut, List.filter_append, early, late, List.append_nil, List.length_take]
  have inside := parts.inside
  omega

end Bisection

/-! ## Starts of lines -/

theorem lt_of_mem_startsAfter {text : List Char} {offset start : Nat}
    (member : start ∈ startsAfter offset text) : offset < start := by
  induction text generalizing offset with
  | nil => cases member
  | cons c rest ih =>
    have onward : offset < offset + c.utf8Size := Nat.lt_add_of_pos_right c.utf8Size_pos
    simp only [startsAfter] at member
    split at member
    · rcases List.mem_cons.mp member with rfl | later
      · exact onward
      · exact Nat.lt_trans onward (ih later)
    · exact Nat.lt_trans onward (ih member)

theorem startsAfter_increasing (offset : Nat) (text : List Char) :
    (startsAfter offset text).Pairwise (· < ·) := by
  induction text generalizing offset with
  | nil => exact .nil
  | cons c rest ih =>
    simp only [startsAfter]
    split
    · exact .cons (fun start later => lt_of_mem_startsAfter later) (ih _)
    · exact ih _

/-- A line starts behind every character that ends one. -/
theorem mem_startsAfter_iff {text : List Char} {offset start : Nat} :
    start ∈ startsAfter offset text ↔
      ∃ before c after, text = before ++ c :: after ∧ endsAfter c after = true ∧
        start = offset + utf8Len before + c.utf8Size := by
  induction text generalizing offset with
  | nil => simp [startsAfter]
  | cons c rest ih =>
    -- the character is the first one, or it is one of the rest
    have split_iff : (∃ before d after, c :: rest = before ++ d :: after ∧
          endsAfter d after = true ∧ start = offset + utf8Len before + d.utf8Size) ↔
        (endsAfter c rest = true ∧ start = offset + c.utf8Size) ∨
        start ∈ startsAfter (offset + c.utf8Size) rest := by
      rw [ih]
      constructor
      · rintro ⟨before, d, after, cut, ends, rfl⟩
        rcases List.cons_eq_append_iff.mp cut with ⟨rfl, same⟩ | ⟨others, rfl, rfl⟩
        · cases same
          exact .inl ⟨ends, by simp⟩
        · exact .inr ⟨others, d, after, rfl, ends, by simp only [String.utf8Len_cons]; omega⟩
      · rintro (⟨ends, rfl⟩ | ⟨before, d, after, rfl, ends, rfl⟩)
        · exact ⟨[], c, rest, rfl, ends, by simp⟩
        · exact ⟨c :: before, d, after, rfl, ends, by simp only [String.utf8Len_cons]; omega⟩
    rw [split_iff, startsAfter]
    by_cases ends : endsAfter c rest = true <;> simp [ends]

/-! ## Characters between boundaries -/

theorem length_boundaries (offset : Nat) (text : List Char) :
    (boundaries offset text).length = text.length + 1 := by
  induction text generalizing offset with
  | nil => rfl
  | cons c rest ih => simp [boundaries, ih]

theorem dropLast_boundaries_cons (offset : Nat) (c : Char) (rest : List Char) :
    (boundaries offset (c :: rest)).dropLast =
      offset :: (boundaries (offset + c.utf8Size) rest).dropLast := by
  refine List.dropLast_cons_of_ne_nil ?_
  rw [← List.length_pos_iff, length_boundaries]
  exact Nat.succ_pos _

theorem mem_boundaries_iff {text : List Char} {offset mark : Nat} :
    mark ∈ boundaries offset text ↔ ∃ front, front <+: text ∧ mark = offset + utf8Len front := by
  induction text generalizing offset with
  | nil => simp [boundaries]
  | cons c rest ih =>
    simp only [boundaries, List.mem_cons, ih, List.prefix_cons_iff]
    constructor
    · rintro (rfl | ⟨front, leads, rfl⟩)
      · exact ⟨[], .inl rfl, by simp⟩
      · exact ⟨c :: front, .inr ⟨front, rfl, leads⟩, by simp only [String.utf8Len_cons]; omega⟩
    · rintro ⟨_, rfl | ⟨front, rfl, leads⟩, rfl⟩
      · exact .inl (by simp)
      · exact .inr ⟨front, leads, by simp only [String.utf8Len_cons]; omega⟩

/-- The boundaries of a text go on behind every part in front. -/
theorem boundaries_append (offset : Nat) (front back : List Char) :
    boundaries offset (front ++ back) =
      (boundaries offset front).dropLast ++ boundaries (offset + utf8Len front) back := by
  induction front generalizing offset with
  | nil => simp [boundaries]
  | cons c rest ih =>
    rw [List.cons_append, boundaries, ih, dropLast_boundaries_cons, List.cons_append,
      String.utf8Len_cons, Nat.add_assoc, Nat.add_comm c.utf8Size]

theorem lt_of_mem_dropLast_boundaries {text : List Char} {offset mark : Nat}
    (member : mark ∈ (boundaries offset text).dropLast) :
    offset ≤ mark ∧ mark < offset + utf8Len text := by
  induction text generalizing offset with
  | nil => simp [boundaries] at member
  | cons c rest ih =>
    have onward := c.utf8Size_pos
    rw [dropLast_boundaries_cons] at member
    rw [String.utf8Len_cons]
    rcases List.mem_cons.mp member with rfl | later
    · omega
    · have bounds := ih later
      omega

/-- Between two boundaries there are the characters that stand between them. -/
theorem charactersBetween_append (head line rest : List Char) :
    charactersBetween (head ++ line ++ rest) (utf8Len head) (utf8Len head + utf8Len line) =
      line.length := by
  have marks : boundaries 0 (head ++ line ++ rest) =
      (boundaries 0 head).dropLast ++ (boundaries (utf8Len head) line).dropLast ++
        boundaries (utf8Len head + utf8Len line) rest := by
    rw [List.append_assoc, boundaries_append, boundaries_append]
    simp
  have start : utf8Len head ∈ boundaries 0 (head ++ line ++ rest) :=
    mem_boundaries_iff.mpr ⟨head, by simp [List.append_assoc], by simp⟩
  have stop : utf8Len head + utf8Len line ∈ boundaries 0 (head ++ line ++ rest) :=
    mem_boundaries_iff.mpr ⟨head ++ line, by simp, by simp⟩
  rw [charactersBetween, if_pos ⟨start, stop⟩, marks, List.countP_append, List.countP_append]
  have before : (boundaries 0 head).dropLast.countP
      (fun mark => utf8Len head ≤ mark && mark < utf8Len head + utf8Len line) = 0 := by
    refine List.countP_eq_zero.mpr fun mark member => ?_
    have bounds := lt_of_mem_dropLast_boundaries member
    simp
    omega
  have within : (boundaries (utf8Len head) line).dropLast.countP
      (fun mark => utf8Len head ≤ mark && mark < utf8Len head + utf8Len line) = line.length := by
    have every : ∀ mark ∈ (boundaries (utf8Len head) line).dropLast,
        (decide (utf8Len head ≤ mark) && decide (mark < utf8Len head + utf8Len line)) = true := by
      intro mark member
      simpa using lt_of_mem_dropLast_boundaries member
    rw [List.countP_eq_length.mpr every, List.length_dropLast, length_boundaries]
    rfl
  have behind : (boundaries (utf8Len head + utf8Len line) rest).countP
      (fun mark => utf8Len head ≤ mark && mark < utf8Len head + utf8Len line) = 0 := by
    refine List.countP_eq_zero.mpr fun mark member => ?_
    obtain ⟨front, -, rfl⟩ := mem_boundaries_iff.mp member
    simp
  rw [before, within, behind]
  simp

/-! ## Terminators -/

/-- An offset between characters of a text, or at one of its ends. -/
def IsBoundary (text : String) (offset : Nat) : Prop :=
  ∃ before after : String, text = before ++ after ∧ before.utf8ByteSize = offset

/-- A line terminator of a text ends at an offset. -/
inductive Terminates (text : String) : Nat → Prop where
  /-- A carriage return with a line feed behind it. -/
  | pair {before after : String} (cut : text = before ++ "\r\n" ++ after) :
      Terminates text (before ++ "\r\n").utf8ByteSize
  /-- A line feed with no carriage return in front of it. -/
  | feed {before after : String} (cut : text = before ++ "\n" ++ after)
      (alone : ∀ front, before ≠ front ++ "\r") : Terminates text (before ++ "\n").utf8ByteSize
  /-- A carriage return with no line feed behind it. -/
  | carriage {before after : String} (cut : text = before ++ "\r" ++ after)
      (alone : ∀ back, after ≠ "\n" ++ back) : Terminates text (before ++ "\r").utf8ByteSize

variable {text : String}

theorem isBoundary_iff {offset : Nat} :
    IsBoundary text offset ↔ ∃ front, front <+: text.toList ∧ utf8Len front = offset := by
  constructor
  · rintro ⟨before, after, rfl, rfl⟩
    exact ⟨before.toList, by simp, by simp⟩
  · rintro ⟨front, ⟨back, cut⟩, rfl⟩
    refine ⟨.ofList front, .ofList back, ?_, String.utf8ByteSize_ofList front⟩
    rw [← String.ofList_append, cut, String.ofList_toList]

theorem size_append_eq (front : List Char) (mark : String) :
    (String.ofList front ++ mark).utf8ByteSize = utf8Len front + utf8Len mark.toList := by
  rw [String.utf8ByteSize_append, String.utf8ByteSize_ofList, String.utf8Len_toList]

/-- A terminator ends with a character that ends a line. -/
theorem Terminates.exists_endsAfter {stop : Nat} (ends : Terminates text stop) :
    ∃ before c after, text.toList = before ++ c :: after ∧ endsAfter c after = true ∧
      stop = utf8Len before + c.utf8Size := by
  cases ends with
  | @pair before after cut =>
    refine ⟨before.toList ++ ['\r'], '\n', after.toList, by simp [cut], by simp [endsAfter], ?_⟩
    simp only [String.utf8ByteSize_append, String.utf8Len_append, String.utf8Len_toList]
    rfl
  | @feed before after cut alone =>
    refine ⟨before.toList, '\n', after.toList, by simp [cut], by simp [endsAfter], ?_⟩
    simp only [String.utf8ByteSize_append, String.utf8Len_toList]
    rfl
  | @carriage before after cut alone =>
    have unfollowed : after.toList.head? ≠ some '\n' := by
      intro followed
      obtain ⟨back, held⟩ := List.head?_eq_some_iff.mp followed
      exact alone (.ofList back) (String.toList_inj.mp (by simp [held]))
    refine ⟨before.toList, '\r', after.toList, by simp [cut], by simp [endsAfter, unfollowed], ?_⟩
    simp only [String.utf8ByteSize_append, String.utf8Len_toList]
    rfl

/-- A terminator ends with every character that ends a line. -/
theorem terminates_of_endsAfter {before after : List Char} {c : Char}
    (cut : text.toList = before ++ c :: after) (ends : endsAfter c after = true) :
    Terminates text (utf8Len before + c.utf8Size) := by
  simp only [endsAfter, Bool.or_eq_true, beq_iff_eq, Bool.and_eq_true, bne_iff_ne] at ends
  rcases ends with rfl | ⟨rfl, unfollowed⟩
  · by_cases led : ∃ front, before = front ++ ['\r']
    · obtain ⟨front, rfl⟩ := led
      have whole : text = .ofList front ++ "\r\n" ++ .ofList after :=
        String.toList_inj.mp (by simp [cut])
      have ended := Terminates.pair whole
      rw [size_append_eq] at ended
      simpa [Nat.add_assoc, Nat.add_comm] using ended
    · have whole : text = .ofList before ++ "\n" ++ .ofList after :=
        String.toList_inj.mp (by simp [cut])
      have ended := Terminates.feed whole fun front same => by
        refine led ⟨front.toList, ?_⟩
        rw [← String.toList_ofList (l := before), same]
        simp
      rw [size_append_eq] at ended
      simpa using ended
  · have whole : text = .ofList before ++ "\r" ++ .ofList after :=
      String.toList_inj.mp (by simp [cut])
    have ended := Terminates.carriage whole fun back same => by
      refine unfollowed ?_
      rw [← String.toList_ofList (l := after), same]
      simp
    rw [size_append_eq] at ended
    simpa using ended

/-- The line terminators are where characters end a line. -/
theorem terminates_iff {stop : Nat} :
    Terminates text stop ↔ ∃ before c after, text.toList = before ++ c :: after ∧
      endsAfter c after = true ∧ stop = utf8Len before + c.utf8Size := by
  constructor
  · exact Terminates.exists_endsAfter
  · rintro ⟨before, c, after, cut, ends, rfl⟩
    exact terminates_of_endsAfter cut ends

/-! ## Lines of a text -/

theorem starts_increasing (text : String) : (ofText text).starts.Pairwise (· < ·) :=
  .cons (fun _ later => lt_of_mem_startsAfter later) (startsAfter_increasing 0 text.toList)

theorem mem_startsAfter_iff_terminates {stop : Nat} :
    stop ∈ startsAfter 0 text.toList ↔ Terminates text stop := by
  rw [mem_startsAfter_iff, terminates_iff]
  simp

theorem mem_starts_iff {start : Nat} :
    start ∈ (ofText text).starts ↔ start = 0 ∨ Terminates text start := by
  rw [← mem_startsAfter_iff_terminates]
  exact List.mem_cons

/-- Lines start between characters. -/
theorem exists_prefix_of_mem_starts {start : Nat} (member : start ∈ (ofText text).starts) :
    ∃ head, head <+: text.toList ∧ utf8Len head = start := by
  rcases mem_starts_iff.mp member with rfl | ends
  · exact ⟨[], List.nil_prefix, rfl⟩
  · obtain ⟨before, c, after, cut, -, rfl⟩ := terminates_iff.mp ends
    exact ⟨before ++ [c], ⟨after, by simp [cut]⟩, by simp⟩

theorem le_size_of_mem_starts {start : Nat} (member : start ∈ (ofText text).starts) :
    start ≤ text.utf8ByteSize := by
  obtain ⟨head, leads, rfl⟩ := exists_prefix_of_mem_starts member
  rw [← String.utf8Len_toList]
  exact String.utf8Len_le_of_prefix leads

theorem parts_ofText (text : String) (offset : Nat) :
    Parts (ofText text).starts offset ((ofText text).lineAt offset) :=
  parts_lineAt (starts_increasing text) rfl

/-- The terminators that satisfy a test are as many as the starts behind the first that do. -/
theorem ncard_terminates (text : String) (test : Nat → Bool) :
    Set.ncard {stop | Terminates text stop ∧ test stop = true} =
      ((startsAfter 0 text.toList).filter test).length := by
  have listed : {stop | Terminates text stop ∧ test stop = true} =
      ((startsAfter 0 text.toList).filter test).toFinset := by
    ext stop
    simp [mem_startsAfter_iff_terminates]
  have distinct : ((startsAfter 0 text.toList).filter test).Nodup :=
    (startsAfter_increasing 0 text.toList).nodup.filter _
  rw [listed, Set.ncard_coe_finset, List.toFinset_card_of_nodup distinct]

/-- The line of an offset is the number of terminators that end at or before it. -/
theorem lineAt_eq_ncard (text : String) (offset : Nat) :
    (ofText text).lineAt offset = Set.ncard {stop | Terminates text stop ∧ stop ≤ offset} := by
  have counted := (parts_ofText text offset).length_filter
  have others := ncard_terminates text fun stop => decide (stop ≤ offset)
  simp only [decide_eq_true_eq] at others
  rw [others]
  simpa [ofText] using counted.symm

/-- The start of the line of an offset is the last one that does not lie behind it. -/
theorem isGreatest_lineStart (text : String) (offset : Nat) :
    IsGreatest {start | (start = 0 ∨ Terminates text start) ∧ start ≤ offset}
      ((ofText text).starts.getD ((ofText text).lineAt offset) 0) := by
  have parts := parts_ofText text offset
  refine ⟨⟨mem_starts_iff.mp ?_, (parts.le_iff _ parts.inside).mpr (Nat.le_refl _)⟩, ?_⟩
  · rw [← List.getElem_eq_getD (h := parts.inside)]
    exact List.getElem_mem _
  · rintro start ⟨known, reached⟩
    obtain ⟨place, inside, rfl⟩ := List.getElem_of_mem (mem_starts_iff.mpr known)
    rw [List.getElem_eq_getD 0] at reached ⊢
    exact getD_le_getD (starts_increasing text) ((parts.le_iff _ inside).mp reached) parts.inside

/-! ## Positions -/

/-- Of two parts in front of a text the one with fewer bytes stands in front of the other. -/
theorem prefix_of_utf8Len_le {whole one two : List Char} (first : one <+: whole)
    (second : two <+: whole) (fewer : utf8Len one ≤ utf8Len two) : one <+: two := by
  rcases List.prefix_or_prefix_of_prefix first second with shorter | ⟨rest, rfl⟩
  · exact shorter
  · rw [String.utf8Len_append] at fewer
    have nothing : rest = [] := String.utf8Len_eq_zero.mp (by omega)
    rw [nothing, List.append_nil]

/-- The position of a boundary: what stands in front of it is cut at the start of its line, and the
column is the length of the second part. -/
theorem exists_position_of_prefix {front : List Char} (leads : front <+: text.toList) :
    ∃ head line, front = head ++ line ∧
      utf8Len head = (ofText text).starts.getD ((ofText text).lineAt (utf8Len front)) 0 ∧
      (ofText text).position (utf8Len front) text =
        ⟨(ofText text).lineAt (utf8Len front), line.length⟩ := by
  obtain ⟨⟨known, reached⟩, -⟩ := isGreatest_lineStart text (utf8Len front)
  obtain ⟨head, headLeads, size⟩ := exists_prefix_of_mem_starts (mem_starts_iff.mpr known)
  rw [← size] at reached
  obtain ⟨line, rfl⟩ := prefix_of_utf8Len_le headLeads leads reached
  obtain ⟨rest, whole⟩ := leads
  refine ⟨head, line, rfl, size, ?_⟩
  have within : utf8Len (head ++ line) ≤ text.utf8ByteSize := by
    rw [← String.utf8Len_toList, ← whole]
    simp
  simp only [position, Nat.min_eq_left within, ← size, Nat.min_eq_left reached]
  rw [← whole, String.utf8Len_append, charactersBetween_append]

/-- A later boundary has a later position. -/
theorem position_lt_position {first second : List Char} (leads : first <+: text.toList)
    (follows : second <+: text.toList) (before : utf8Len first < utf8Len second) :
    let one := (ofText text).position (utf8Len first) text
    let two := (ofText text).position (utf8Len second) text
    one.line < two.line ∨ one.line = two.line ∧ one.column < two.column := by
  obtain ⟨head, line, rfl, start, one_eq⟩ := exists_position_of_prefix leads
  obtain ⟨head', line', rfl, start', two_eq⟩ := exists_position_of_prefix follows
  rw [one_eq, two_eq]
  have parts := parts_ofText text (utf8Len (head ++ line))
  have parts' := parts_ofText text (utf8Len (head' ++ line'))
  have onward : (ofText text).lineAt (utf8Len (head ++ line)) ≤
      (ofText text).lineAt (utf8Len (head' ++ line')) := by
    refine (parts'.le_iff _ parts.inside).mp ?_
    exact Nat.le_trans ((parts.le_iff _ parts.inside).mpr (Nat.le_refl _)) (Nat.le_of_lt before)
  rcases Nat.eq_or_lt_of_le onward with same | later
  · -- on one line both parts begin alike, and the second is longer
    refine .inr ⟨same, ?_⟩
    have alike : utf8Len head = utf8Len head' := by rw [start, start', same]
    obtain ⟨more, cut⟩ := prefix_of_utf8Len_le leads follows (Nat.le_of_lt before)
    obtain ⟨extra, rfl⟩ : head <+: head' :=
      prefix_of_utf8Len_le ((List.prefix_append _ _).trans leads)
        ((List.prefix_append _ _).trans follows) (Nat.le_of_eq alike)
    obtain rfl : extra = [] := by simpa using alike
    rw [List.append_nil] at cut before
    rw [List.append_assoc, List.append_cancel_left_eq] at cut
    have longer : more ≠ [] := by
      rintro rfl
      rw [List.append_nil] at cut
      rw [cut] at before
      exact Nat.lt_irrefl _ before
    rw [← cut, List.length_append]
    exact Nat.lt_add_of_pos_right (List.length_pos_iff.mpr longer)
  · exact .inl later

/-- An offset behind the text has the position of its end. -/
theorem position_of_size_le {offset : Nat} (behind : text.utf8ByteSize ≤ offset) :
    (ofText text).position offset text = (ofText text).position text.utf8ByteSize text := by
  have every : ∀ {stop}, text.utf8ByteSize ≤ stop →
      (ofText text).lineAt stop = (ofText text).count - 1 := by
    intro stop reached
    have parts := parts_ofText text stop
    have last : (ofText text).count - 1 < (ofText text).starts.length :=
      Nat.sub_lt (List.length_pos_of_mem (List.mem_cons_self ..)) Nat.one_pos
    have latest : (ofText text).count - 1 ≤ (ofText text).lineAt stop := by
      refine (parts.le_iff _ last).mp (Nat.le_trans ?_ reached)
      rw [← List.getElem_eq_getD (h := last)]
      exact le_size_of_mem_starts (List.getElem_mem _)
    exact Nat.le_antisymm (Nat.le_sub_one_of_lt parts.inside) latest
  simp only [position, every behind, every (Nat.le_refl _), Nat.min_eq_right behind, Nat.min_self]

/-- A text has at most as many characters as bytes. -/
theorem length_le_utf8Len (chars : List Char) : chars.length ≤ utf8Len chars := by
  induction chars with
  | nil => exact Nat.le_refl 0
  | cons c rest ih => exact Nat.add_le_add ih c.utf8Size_pos

/-- There is at most one line more than there are bytes. -/
theorem count_le (text : String) : (ofText text).count ≤ text.utf8ByteSize + 1 := by
  have within : (ofText text).starts.toFinset ⊆ Finset.range (text.utf8ByteSize + 1) := by
    intro start member
    exact Finset.mem_range_succ_iff.mpr (le_size_of_mem_starts (List.mem_toFinset.mp member))
  have bound := Finset.card_le_card within
  rwa [List.toFinset_card_of_nodup (starts_increasing text).nodup, Finset.card_range] at bound

/-- The starts of the lines of a text increase from zero, and are the ends of its terminators.
There is one line more than there are terminators.  The line of a boundary is the number of
terminators that end at or before it, and its column the number of characters from the last of their
ends, or from the start of the text.  So later boundaries have later positions, and different ones
different positions; an offset behind the text has the position of its end; and all numbers fit a
word when the size of the text does. -/
theorem positions_exact (text : String) (short : text.utf8ByteSize < 2 ^ 32) :
    (ofText text).starts.Pairwise (· < ·) ∧ (ofText text).starts.head? = some 0 ∧
    (∀ start, start ∈ (ofText text).starts ↔ start = 0 ∨ Terminates text start) ∧
    (ofText text).count = Set.ncard {stop | Terminates text stop} + 1 ∧
    (∀ offset, IsBoundary text offset →
      ((ofText text).position offset text).line =
        Set.ncard {stop | Terminates text stop ∧ stop ≤ offset} ∧
      ∃ head line rest : String, text = head ++ line ++ rest ∧
        (head ++ line).utf8ByteSize = offset ∧
        IsGreatest {start | (start = 0 ∨ Terminates text start) ∧ start ≤ offset}
          head.utf8ByteSize ∧
        ((ofText text).position offset text).column = line.length) ∧
    StrictMonoOn
      (fun offset => toLex (((ofText text).position offset text).line,
        ((ofText text).position offset text).column))
      {offset | IsBoundary text offset} ∧
    Set.InjOn (fun offset => (ofText text).position offset text) {offset | IsBoundary text offset} ∧
    (∀ offset, text.utf8ByteSize ≤ offset →
      (ofText text).position offset text = (ofText text).position text.utf8ByteSize text) ∧
    (∀ start ∈ (ofText text).starts, start < 2 ^ 32) ∧
    ∀ offset, IsBoundary text offset →
      ((ofText text).position offset text).line < 2 ^ 32 ∧
      ((ofText text).position offset text).column < 2 ^ 32 := by
  have later : StrictMonoOn
      (fun offset => toLex (((ofText text).position offset text).line,
        ((ofText text).position offset text).column))
      {offset | IsBoundary text offset} := by
    intro one first two second before
    obtain ⟨front, leads, rfl⟩ := isBoundary_iff.mp first
    obtain ⟨front', follows, rfl⟩ := isBoundary_iff.mp second
    exact Prod.Lex.toLex_lt_toLex.mpr (position_lt_position leads follows before)
  refine ⟨starts_increasing text, rfl, fun start => mem_starts_iff, ?_, ?_, later, ?_,
    fun offset behind => position_of_size_le behind,
    fun start member => Nat.lt_of_le_of_lt (le_size_of_mem_starts member) short, ?_⟩
  · have counted := ncard_terminates text fun _ => true
    simp only [and_true, List.filter_true] at counted
    rw [counted]
    rfl
  · intro offset boundary
    obtain ⟨front, leads, rfl⟩ := isBoundary_iff.mp boundary
    obtain ⟨head, line, rfl, start, position_eq⟩ := exists_position_of_prefix leads
    obtain ⟨rest, whole⟩ := leads
    rw [position_eq]
    refine ⟨lineAt_eq_ncard text _, .ofList head, .ofList line, .ofList rest, ?_, ?_, ?_, ?_⟩
    · rw [← String.ofList_append, ← String.ofList_append, whole, String.ofList_toList]
    · rw [← String.ofList_append, String.utf8ByteSize_ofList]
    · rw [String.utf8ByteSize_ofList, start]
      exact isGreatest_lineStart text _
    · exact String.length_ofList.symm
  · intro one first two second same
    exact later.injOn first second (by simp only [same])
  · intro offset boundary
    obtain ⟨front, leads, rfl⟩ := isBoundary_iff.mp boundary
    obtain ⟨head, line, rfl, -, position_eq⟩ := exists_position_of_prefix leads
    have size : utf8Len (head ++ line) ≤ text.utf8ByteSize := by
      rw [← String.utf8Len_toList]
      exact String.utf8Len_le_of_prefix leads
    have lines := (parts_ofText text (utf8Len (head ++ line))).inside
    have most : (ofText text).starts.length ≤ text.utf8ByteSize + 1 := count_le text
    have columns := length_le_utf8Len line
    rw [String.utf8Len_append] at size
    simp only [position_eq]
    omega

/-- Inside a pair of carriage return and line feed the line has not ended yet. -/
theorem positions_inside_pair :
    IsBoundary "é\r\n" 3 ∧ IsBoundary "é\r\n" 4 ∧
    toLex (((ofText "é\r\n").position 3 "é\r\n").line,
        ((ofText "é\r\n").position 3 "é\r\n").column) <
      toLex (((ofText "é\r\n").position 4 "é\r\n").line,
        ((ofText "é\r\n").position 4 "é\r\n").column) := by
  have inside : IsBoundary "é\r\n" 3 := ⟨"é\r", "\n", by decide, by decide⟩
  have behind : IsBoundary "é\r\n" 4 := ⟨"é\r\n", "", by decide, by decide⟩
  obtain ⟨-, -, -, -, -, later, -⟩ := positions_exact "é\r\n" (by decide)
  exact ⟨inside, behind, later inside behind (by decide)⟩

end Dartify.Lines
