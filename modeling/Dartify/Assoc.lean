/-!
# Association lists

Finite maps as lists of pairs, in which a key stands once.  Looking up is `List.lookup`.
-/

namespace Dartify.Assoc

variable {α β : Type} [DecidableEq α]

/-- Sets the value of a key: in place when the key has one, else at the end. -/
def insert (key : α) (value : β) : List (α × β) → List (α × β)
  | [] => [(key, value)]
  | pair :: rest =>
    if pair.1 = key then (key, value) :: rest else pair :: insert key value rest
termination_by structural pairs => pairs

/-- Sets the values of several keys, one after the other. -/
def insertAll (map pairs : List (α × β)) : List (α × β) :=
  pairs.foldl (fun map pair => insert pair.1 pair.2 map) map

/-- The map of a list of pairs.  Of the values of a repeated key the last one stays. -/
def ofList (pairs : List (α × β)) : List (α × β) :=
  insertAll [] pairs

/-- The value of a key after it was set. -/
theorem lookup_insert_self (key : α) (value : β) (map : List (α × β)) :
    (insert key value map).lookup key = some value := by
  induction map with
  | nil => simp [insert]
  | cons pair rest ih =>
    obtain ⟨first, old⟩ := pair
    by_cases h : first = key
    · simp [insert, h]
    · have differs : (key == first) = false := beq_false_of_ne fun same => h same.symm
      simp [insert, h, List.lookup_cons, differs, ih]

/-- Setting the value of one key leaves the others. -/
theorem lookup_insert_of_ne {key other : α} (h : other ≠ key) (value : β)
    (map : List (α × β)) : (insert key value map).lookup other = map.lookup other := by
  have differs : (other == key) = false := beq_false_of_ne h
  induction map with
  | nil => simp [insert, List.lookup_cons, differs]
  | cons pair rest ih =>
    obtain ⟨first, old⟩ := pair
    by_cases same : first = key
    · simp [insert, same, List.lookup_cons, differs]
    · simp [insert, same, List.lookup_cons, ih]

/-- An entry of a map after a key was set is the new one or an old one. -/
theorem mem_insert {key : α} {value : β} {map : List (α × β)} {entry : α × β}
    (member : entry ∈ insert key value map) : entry = (key, value) ∨ entry ∈ map := by
  induction map with
  | nil => simpa [insert] using member
  | cons pair rest ih =>
    unfold insert at member
    split at member
    · rcases List.mem_cons.mp member with new | old
      · exact .inl new
      · exact .inr (List.mem_cons_of_mem _ old)
    · rcases List.mem_cons.mp member with first | later
      · exact .inr (first ▸ List.mem_cons_self ..)
      · exact (ih later).imp_right (List.mem_cons_of_mem _)

theorem mem_insertAll {map pairs : List (α × β)} {entry : α × β}
    (member : entry ∈ insertAll map pairs) : entry ∈ map ∨ entry ∈ pairs := by
  induction pairs generalizing map with
  | nil => exact .inl member
  | cons pair rest ih =>
    rcases ih member with earlier | later
    · rcases mem_insert earlier with new | old
      · exact .inr (new ▸ List.mem_cons_self ..)
      · exact .inl old
    · exact .inr (List.mem_cons_of_mem _ later)

end Dartify.Assoc
