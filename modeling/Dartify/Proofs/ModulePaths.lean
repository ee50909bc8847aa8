import Dartify.Converter
import Mathlib.Data.List.Basic
import Mathlib.Data.List.TakeWhile

/-!
# Module paths and places

A module path should say what a file is to a project, and not where the project lies.  For a file in
a folder it is the module path of the file's path inside the folder, however the folder is spelled:
with slashes or backslashes, and with any number of them at its end.  A folder that a file does not
lie in makes no difference (`module_path_relative`).

The second half asks which files have the module path of the default library.  The files of the
library have it, wherever they lie.  But the paths of all other files are cut into the same texts.
So a file `lib.ts`, or `lib`, that lies directly in the base path goes by the name of the library as
well, and what it declares is taken for a part of the library (`library_path_iff`).
-/

namespace Dartify

namespace ModulePath

/-! ## Slashes -/

theorem slashed_append (first second : List Char) :
    slashed (first ++ second) = slashed first ++ slashed second :=
  List.map_append

/-- Slashes and backslashes are all slashes. -/
theorem slashed_separators {path : List Char} (only : ∀ c ∈ path, c = '/' ∨ c = '\\') :
    ∀ c ∈ slashed path, c = '/' := by
  intro c member
  obtain ⟨d, among, rfl⟩ := List.mem_map.mp member
  rcases only d among with rfl | rfl <;> rfl

section

variable {slashes : List Char} (only : ∀ c ∈ slashes, c = '/')

include only

theorem dropLeadingSlashes_append (path : List Char) :
    dropLeadingSlashes (slashes ++ path) = dropLeadingSlashes path :=
  List.dropWhile_append_of_pos fun c member => beq_iff_eq.mpr (only c member)

theorem dropTrailingSlashes_append (path : List Char) :
    dropTrailingSlashes (path ++ slashes) = dropTrailingSlashes path := by
  have only : ∀ c ∈ slashes.reverse, (c == '/') = true := fun c member =>
    beq_iff_eq.mpr (only c (List.mem_reverse.mp member))
  rw [dropTrailingSlashes, List.reverse_append, List.dropWhile_append_of_pos only,
    dropTrailingSlashes]

end

/-- The slashes at the start of a path, and the rest. -/
theorem exists_eq_slashes_append (path : List Char) :
    ∃ slashes, (∀ c ∈ slashes, c = '/') ∧ path = slashes ++ dropLeadingSlashes path := by
  refine ⟨path.takeWhile (· == '/'), fun c member => ?_, List.takeWhile_append_dropWhile.symm⟩
  have passed : (c == '/') = true := List.mem_takeWhile_imp (p := (· == '/')) member
  exact beq_iff_eq.mp passed

/-- A path up to the slashes at its end, and these. -/
theorem exists_eq_append_slashes (path : List Char) :
    ∃ slashes, (∀ c ∈ slashes, c = '/') ∧ path = dropTrailingSlashes path ++ slashes := by
  obtain ⟨slashes, only, split⟩ := exists_eq_slashes_append path.reverse
  refine ⟨slashes.reverse, fun c member => only c (List.mem_reverse.mp member), ?_⟩
  have backward := congrArg List.reverse split
  rwa [List.reverse_reverse, List.reverse_append] at backward

theorem head?_dropLeadingSlashes (path : List Char) :
    (dropLeadingSlashes path).head? ≠ some '/' := by
  intro first
  have kept := List.head?_dropWhile_not (· == '/') path
  rw [dropLeadingSlashes] at first
  rw [first] at kept
  cases kept

/-! ## Segments -/

theorem lastSegment_append_slash (front back : List Char) :
    lastSegment (front ++ '/' :: back) = lastSegment back := by
  have ends : ('/' :: front.reverse).takeWhile (· != '/') = [] := rfl
  rw [lastSegment, lastSegment, List.reverse_append, List.reverse_cons, List.append_assoc,
    List.singleton_append, List.takeWhile_append, ends, List.append_nil]
  split
  · rename_i whole
    have all : back.reverse.takeWhile (· != '/') = back.reverse :=
      (List.takeWhile_prefix _).eq_of_length whole
    rw [all]
  · rfl

theorem lastSegment_of_notMem {path : List Char} (single : '/' ∉ path) :
    lastSegment path = path := by
  have all : path.reverse.takeWhile (· != '/') = path.reverse := by
    refine List.takeWhile_eq_self_iff.mpr fun c member => ?_
    rw [bne_iff_ne]
    rintro rfl
    exact single (List.mem_reverse.mp member)
  rw [lastSegment, all, List.reverse_reverse]

/-- What remains of a path after some of its leading segments. -/
inductive Remains (path : List Char) : List Char → Prop where
  /-- All of it. -/
  | whole : Remains path path
  /-- What stands behind a slash. -/
  | behind {front rest : List Char} (split : path = front ++ '/' :: rest) : Remains path rest

namespace Remains

variable {path rest : List Char}

theorem trans {last : List Char} (first : Remains path rest) (second : Remains rest last) :
    Remains path last := by
  cases first with
  | whole => exact second
  | @behind front _ split =>
    cases second with
    | whole => exact .behind split
    | @behind front' _ split' =>
      have joined : path = (front ++ '/' :: front') ++ '/' :: last := by
        rw [split, split', List.append_assoc, List.cons_append]
      exact .behind joined

theorem lastSegment_eq (remains : Remains path rest) : lastSegment rest = lastSegment path := by
  cases remains with
  | whole => rfl
  | behind split => rw [split, lastSegment_append_slash]

end Remains

theorem remains_dropDotSlash (path : List Char) : Remains path (dropDotSlash path) := by
  rw [dropDotSlash]
  cases stripped : "./".toList.isPrefixOf? path with
  | none => exact .whole
  | some rest =>
    have split : "./".toList ++ rest = path := List.isPrefixOf?_eq_some_iff_append_eq.mp stripped
    exact .behind (show path = ['.'] ++ '/' :: rest from split.symm)

theorem remains_dropLeadingSlashes (path : List Char) :
    Remains path (dropLeadingSlashes path) := by
  obtain ⟨slashes, only, split⟩ := exists_eq_slashes_append path
  rcases List.eq_nil_or_concat' slashes with rfl | ⟨front, last, rfl⟩
  · rw [List.nil_append] at split
    exact split ▸ .whole
  · obtain rfl : last = '/' := only last (by simp)
    rw [List.append_assoc] at split
    exact .behind split

/-! ## The base path -/

/-- A path that begins with the whole segments of a base goes on with a slash or ends there. -/
theorem relativeTo_cases (base path : List Char) :
    relativeTo base path = path ∨ (path = base ∧ relativeTo base path = []) ∨
      ∃ rest, path = base ++ '/' :: rest ∧ relativeTo base path = '/' :: rest := by
  unfold relativeTo
  split
  · exact .inl rfl
  · split
    · rename_i rest stripped
      have begins : base ++ rest = path := List.isPrefixOf?_eq_some_iff_append_eq.mp stripped
      cases rest with
      | nil =>
        rw [List.append_nil] at begins
        exact .inr (.inl ⟨begins.symm, rfl⟩)
      | cons c rest =>
        by_cases slash : c = '/'
        · subst slash
          exact .inr (.inr ⟨rest, begins.symm, rfl⟩)
        · exact .inl (by simp [slash])
    · exact .inl rfl

theorem relativeTo_append_slash {base : List Char} (nonempty : base ≠ []) (rest : List Char) :
    relativeTo base (base ++ '/' :: rest) = '/' :: rest := by
  have stripped : base.isPrefixOf? (base ++ '/' :: rest) = some ('/' :: rest) :=
    List.isPrefixOf?_eq_some_iff_append_eq.mpr rfl
  simp [relativeTo, nonempty, stripped]

theorem dropDotSlash_slash (path : List Char) : dropDotSlash ('/' :: path) = '/' :: path := rfl

theorem dropDotSlash_of_undotted {path : List Char} (undotted : ¬"./".toList <+: path) :
    dropDotSlash path = path := by
  rw [dropDotSlash]
  cases stripped : "./".toList.isPrefixOf? path with
  | none => rfl
  | some rest =>
    exact absurd ⟨rest, List.isPrefixOf?_eq_some_iff_append_eq.mp stripped⟩ undotted

/-- The path of a file inside the base path, without a leading `./` and without leading slashes. -/
def inside (file : List Char) (base : Option (List Char)) : List Char :=
  dropLeadingSlashes (dropDotSlash
    (match base with
      | some base => relativeTo (dropTrailingSlashes (slashed base)) file
      | none => file))

theorem ofPlain_eq (file : List Char) (base : Option (List Char)) :
    ofPlain file base = dropExtension (inside file base) := by
  cases base <;> rfl

/-- Nothing is left of the base path itself, and leading segments are cut off from other files. -/
theorem inside_cases (file : List Char) (base : Option (List Char)) :
    inside file base = [] ∨ Remains file (inside file base) := by
  have unbased : Remains file (dropLeadingSlashes (dropDotSlash file)) :=
    (remains_dropDotSlash file).trans (remains_dropLeadingSlashes _)
  cases base with
  | none => exact .inr unbased
  | some base =>
    unfold inside
    rcases relativeTo_cases (dropTrailingSlashes (slashed base)) file with
      same | ⟨-, nothing⟩ | ⟨rest, split, relative⟩
    · simp only [same]
      exact .inr unbased
    · simp only [nothing]
      exact .inl rfl
    · simp only [relative]
      exact .inr (.trans (.behind split) (remains_dropLeadingSlashes rest))

/-- A file in a folder is seen from the folder as it is seen from nowhere. -/
theorem inside_append {folder folder' path : List Char} (same : slashed folder = slashed folder')
    {slashes : List Char} (only : ∀ c ∈ slashes, c = '/' ∨ c = '\\')
    (undotted : ¬"./".toList <+: path) :
    inside (slashed folder ++ '/' :: path) (some (folder' ++ slashes)) = inside path none := by
  have trimmed : dropTrailingSlashes (slashed (folder' ++ slashes)) =
      dropTrailingSlashes (slashed folder) := by
    rw [slashed_append, dropTrailingSlashes_append (slashed_separators only), same]
  obtain ⟨ending, alone, split⟩ := exists_eq_append_slashes (slashed folder)
  simp only [inside, trimmed, dropDotSlash_of_undotted undotted]
  -- what is left of the file begins with the slashes at the end of the folder and the joining one
  have leading : ∀ c ∈ ending ++ ['/'], c = '/' := by
    intro c member
    rcases List.mem_append.mp member with early | last
    · exact alone c early
    · exact List.mem_singleton.mp last
  have joined : slashed folder ++ '/' :: path =
      dropTrailingSlashes (slashed folder) ++ ((ending ++ ['/']) ++ path) := by
    conv => lhs; rw [split]
    simp only [List.append_assoc, List.singleton_append]
  obtain ⟨rest, first⟩ : ∃ rest, (ending ++ ['/']) ++ path = '/' :: rest := by
    cases ending with
    | nil => exact ⟨path, rfl⟩
    | cons c others =>
      obtain rfl : c = '/' := alone c (List.mem_cons_self ..)
      exact ⟨_, rfl⟩
  have relative : relativeTo (dropTrailingSlashes (slashed folder))
      (slashed folder ++ '/' :: path) = (ending ++ ['/']) ++ path := by
    rw [joined, first]
    by_cases empty : dropTrailingSlashes (slashed folder) = []
    · rw [empty]
      rfl
    · exact relativeTo_append_slash empty rest
  rw [relative, first, dropDotSlash_slash, ← first, dropLeadingSlashes_append leading]

/-- A base path that a file does not lie in makes no difference. -/
theorem inside_of_outside {file base : List Char}
    (differs : file ≠ dropTrailingSlashes (slashed base))
    (outside : ¬dropTrailingSlashes (slashed base) ++ ['/'] <+: file) :
    inside file (some base) = inside file none := by
  have same : relativeTo (dropTrailingSlashes (slashed base)) file = file := by
    rcases relativeTo_cases (dropTrailingSlashes (slashed base)) file with
      same | ⟨equal, -⟩ | ⟨rest, split, -⟩
    · exact same
    · exact absurd equal differs
    · refine absurd ⟨rest, ?_⟩ outside
      rw [split, List.append_assoc, List.singleton_append]
  simp only [inside, same]

/-! ## Extensions -/

/-- A path without the suffix of a declaration or source file. -/
inductive Stem (path stem : List Char) : Prop where
  /-- A declaration file. -/
  | declaration (ends : path = stem ++ ".d.ts".toList)
  /-- A source file. -/
  | source (ends : path = stem ++ ".ts".toList) (undeclared : ¬".d.ts".toList <:+ path)
  /-- Any other file. -/
  | other (same : path = stem) (other : ¬".ts".toList <:+ path)

theorem dropEnding?_eq_some_iff {ending path stem : List Char} :
    dropEnding? ending path = some stem ↔ path = stem ++ ending := by
  rw [dropEnding?, List.isSuffixOf?_eq_some_iff_append_eq, eq_comm]

theorem dropEnding?_eq_none_iff {ending path : List Char} :
    dropEnding? ending path = none ↔ ¬ending <:+ path := by
  constructor
  · rintro nothing ⟨stem, split⟩
    rw [dropEnding?_eq_some_iff.mpr split.symm] at nothing
    cases nothing
  · intro other
    cases ends : dropEnding? ending path with
    | none => rfl
    | some stem => exact absurd ⟨stem, (dropEnding?_eq_some_iff.mp ends).symm⟩ other

/-- Declaration files have the suffix of source files as well. -/
theorem suffix_of_declaration {path : List Char} (ends : ".d.ts".toList <:+ path) :
    ".ts".toList <:+ path :=
  List.IsSuffix.trans ⟨".d".toList, rfl⟩ ends

theorem stem_iff {path stem : List Char} : Stem path stem ↔ dropExtension path = stem := by
  unfold dropExtension
  constructor
  · intro stemmed
    cases stemmed with
    | declaration ends => rw [dropEnding?_eq_some_iff.mpr ends]
    | source ends undeclared =>
      rw [dropEnding?_eq_none_iff.mpr undeclared, dropEnding?_eq_some_iff.mpr ends]
      rfl
    | other same other =>
      have undeclared : ¬".d.ts".toList <:+ path := mt suffix_of_declaration other
      rw [dropEnding?_eq_none_iff.mpr undeclared, dropEnding?_eq_none_iff.mpr other]
      exact same
  · intro dropped
    split at dropped
    · rename_i ends
      subst dropped
      exact .declaration (dropEnding?_eq_some_iff.mp ends)
    · rename_i nothing
      have undeclared := dropEnding?_eq_none_iff.mp nothing
      cases ends : dropEnding? ".ts".toList path with
      | some front =>
        rw [ends] at dropped
        subst dropped
        exact .source (dropEnding?_eq_some_iff.mp ends) undeclared
      | none =>
        rw [ends] at dropped
        exact .other dropped (dropEnding?_eq_none_iff.mp ends)

/-! ## Files of the default library -/

/-- The files of the default library are `lib.d.ts` and the files `lib.*.d.ts`. -/
theorem isLibrarySegment_iff {segment : List Char} :
    isLibrarySegment segment = true ↔ segment = "lib.d.ts".toList ∨
      ∃ middle, segment = "lib.".toList ++ middle ++ ".d.ts".toList := by
  rw [isLibrarySegment, Bool.and_eq_true, List.isPrefixOf_iff_prefix, List.isSuffixOf_iff_suffix]
  constructor
  · rintro ⟨⟨rest, rfl⟩, front, same⟩
    rcases List.append_eq_append_iff.mp same with ⟨shared, start, ending⟩ | ⟨middle, -, rfl⟩
    · -- the start and the end can only share the dot
      have parts : ['l', 'i', 'b', '.'] = front ++ shared := start
      have parts' : ['.', 'd', '.', 't', 's'] = shared ++ rest := ending
      simp only [List.cons_eq_append_iff, List.nil_eq_append_iff] at parts
      rcases parts with
        ⟨-, rfl⟩ | ⟨_, -, ⟨-, rfl⟩ | ⟨_, -, ⟨-, rfl⟩ | ⟨_, -, ⟨-, rfl⟩ | ⟨_, -, -, rfl⟩⟩⟩⟩
      · cases parts'
      · cases parts'
      · cases parts'
      · obtain rfl : ['d', '.', 't', 's'] = rest := List.tail_eq_of_cons_eq parts'
        exact .inl rfl
      · obtain rfl : ['.', 'd', '.', 't', 's'] = rest := parts'
        exact .inr ⟨[], rfl⟩
    · exact .inr ⟨middle, by rw [List.append_assoc]⟩
  · rintro (rfl | ⟨middle, rfl⟩)
    · exact ⟨⟨"d.ts".toList, rfl⟩, "lib".toList, rfl⟩
    · exact ⟨⟨middle ++ ".d.ts".toList, by rw [List.append_assoc]⟩, "lib.".toList ++ middle, rfl⟩

theorem ofChars_of_library {file : List Char} (base : Option (List Char))
    (library : isLibrarySegment (lastSegment (slashed file)) = true) :
    ofChars file base = dropExtension (lastSegment (slashed file)) := by
  simp only [ofChars, library, if_true]

theorem ofChars_of_plain {file : List Char} (base : Option (List Char))
    (plain : isLibrarySegment (lastSegment (slashed file)) = false) :
    ofChars file base = dropExtension (inside (slashed file) base) := by
  simp only [ofChars, plain, ofPlain_eq, Bool.false_eq_true, if_false]

theorem ofChars_append {folder folder' joint path slashes : List Char}
    (same : slashed folder = slashed folder') (joined : slashed joint = ['/'])
    (only : ∀ c ∈ slashes, c = '/' ∨ c = '\\') (undotted : ¬"./".toList <+: slashed path) :
    ofChars (folder ++ joint ++ path) (some (folder' ++ slashes)) = ofChars path none := by
  have whole : slashed (folder ++ joint ++ path) = slashed folder ++ '/' :: slashed path := by
    rw [slashed_append, slashed_append, joined, List.append_assoc, List.singleton_append]
  have last : lastSegment (slashed (folder ++ joint ++ path)) = lastSegment (slashed path) := by
    rw [whole, lastSegment_append_slash]
  cases kind : isLibrarySegment (lastSegment (slashed path)) with
  | true =>
    have kind' := last.symm ▸ kind
    rw [ofChars_of_library _ kind, ofChars_of_library _ kind', last]
  | false =>
    have kind' := last.symm ▸ kind
    rw [ofChars_of_plain _ kind, ofChars_of_plain _ kind', whole, inside_append same only undotted]

theorem ofChars_of_outside {file base : List Char}
    (differs : slashed file ≠ dropTrailingSlashes (slashed base))
    (outside : ¬dropTrailingSlashes (slashed base) ++ ['/'] <+: slashed file) :
    ofChars file (some base) = ofChars file none := by
  cases kind : isLibrarySegment (lastSegment (slashed file)) with
  | true => rw [ofChars_of_library _ kind, ofChars_of_library _ kind]
  | false =>
    rw [ofChars_of_plain _ kind, ofChars_of_plain _ kind, inside_of_outside differs outside]

end ModulePath

open ModulePath

/-- The module path of a file in a folder is that of its path inside the folder, and for a file
outside the default library it is that path without leading slashes and without one suffix.  The
module path of a file outside a folder does not depend on the folder. -/
theorem module_path_relative :
    (∀ folder folder' joint path slashes : String,
      slashed folder.toList = slashed folder'.toList → joint = "/" ∨ joint = "\\" →
      (∀ c ∈ slashes.toList, c = '/' ∨ c = '\\') → ¬"./".toList <+: slashed path.toList →
      ofFile (folder ++ joint ++ path) (some (folder' ++ slashes)) = ofFile path none ∧
      (lastSegment (slashed path.toList) ≠ "lib.d.ts".toList →
        (∀ middle, lastSegment (slashed path.toList) ≠
          "lib.".toList ++ middle ++ ".d.ts".toList) →
        ∃ leading rest stem, slashed path.toList = leading ++ rest ∧ (∀ c ∈ leading, c = '/') ∧
          rest.head? ≠ some '/' ∧ Stem rest stem ∧ ofFile path none = String.ofList stem)) ∧
    ∀ file base : String,
      slashed file.toList ≠ dropTrailingSlashes (slashed base.toList) →
      ¬dropTrailingSlashes (slashed base.toList) ++ ['/'] <+: slashed file.toList →
      ofFile file (some base) = ofFile file none := by
  constructor
  · intro folder folder' joint path slashes same joined only undotted
    constructor
    · have slash : slashed joint.toList = ['/'] := by rcases joined with rfl | rfl <;> rfl
      simp only [ofFile, String.toList_append, Option.map_some, Option.map_none,
        ofChars_append same slash only undotted]
    · intro bare dotted
      have plain : isLibrarySegment (lastSegment (slashed path.toList)) = false := by
        rw [← Bool.not_eq_true, isLibrarySegment_iff, not_or, not_exists]
        exact ⟨bare, dotted⟩
      obtain ⟨leading, alone, split⟩ := exists_eq_slashes_append (slashed path.toList)
      refine ⟨leading, _, _, split, alone, head?_dropLeadingSlashes _, stem_iff.mpr rfl, ?_⟩
      rw [ofFile, Option.map_none, ofChars_of_plain _ plain, inside,
        dropDotSlash_of_undotted undotted]
  · intro file base differs outside
    rw [ofFile, ofFile, Option.map_some, Option.map_none, ofChars_of_outside differs outside]

/-- One folder in two spellings, with a backslash and a slash at its end. -/
theorem module_path_in_spelled_folder :
    slashed "C:\\work".toList = slashed "C:/work".toList ∧
    ofFile ("C:\\work" ++ "\\" ++ "app\\list.d.ts") (some ("C:/work" ++ "\\/")) =
      ofFile "app\\list.d.ts" none ∧
    ofFile "C:\\workspace\\list.ts" (some "C:/work/") = ofFile "C:\\workspace\\list.ts" none := by
  have same : slashed "C:\\work".toList = slashed "C:/work".toList := by decide
  have only : ∀ c ∈ "\\/".toList, c = '/' ∨ c = '\\' :=
    List.forall_mem_cons.mpr ⟨.inr rfl, List.forall_mem_singleton.mpr (.inl rfl)⟩
  refine ⟨same, ?_, ?_⟩
  · exact (module_path_relative.1 "C:\\work" "C:/work" "\\" "app\\list.d.ts" "\\/" same (.inr rfl)
      only (by decide)).1
  · exact module_path_relative.2 "C:\\workspace\\list.ts" "C:/work/" (by decide) (by decide)

namespace ModulePath

/-! ## Names of the default library -/

/-- A file goes by the name of a module: it is the declaration file of that name in any folder, or
lies directly in the base path and has the name itself, bare or as a source file. -/
def GoesBy (name : String) (file : String) (base : Option String) : Prop :=
  lastSegment (slashed file.toList) = (name ++ ".d.ts").toList ∨
    inside (slashed file.toList) (base.map String.toList) = name.toList ∨
    inside (slashed file.toList) (base.map String.toList) = (name ++ ".ts").toList

theorem ofFile_eq_iff {file name : String} {base : Option String} :
    ofFile file base = name ↔ ofChars file.toList (base.map String.toList) = name.toList := by
  rw [ofFile, ← String.toList_inj, String.toList_ofList]

/-- The name of a part of the default library, as a file of it and as other files have it. -/
theorem defaultLibrary_names {library : String} (listed : library ∈ Catalog.defaultLibraries) :
    ((library ++ ".d.ts").toList ≠ [] ∧ '/' ∉ (library ++ ".d.ts").toList ∧
      isLibrarySegment (library ++ ".d.ts").toList = true ∧
      dropExtension (library ++ ".d.ts").toList = library.toList) ∧
    ∀ name, name = library.toList ∨ name = (library ++ ".ts").toList →
      name ≠ [] ∧ '/' ∉ name ∧ isLibrarySegment name = false ∧
        dropExtension name = library.toList := by
  rcases List.mem_pair.mp listed with rfl | rfl
  all_goals
    refine ⟨by decide, ?_⟩
    rintro name (rfl | rfl) <;> decide

theorem lastSegment_of_inside {file name : List Char} {base : Option (List Char)}
    (same : inside file base = name) (nonempty : name ≠ []) (single : '/' ∉ name) :
    lastSegment file = name := by
  rcases inside_cases file base with nothing | remains
  · exact absurd (same.symm.trans nothing) nonempty
  · rw [← remains.lastSegment_eq, same, lastSegment_of_notMem single]

/-- A part of the default library is the module of just the files that go by its name. -/
theorem ofFile_eq_library_iff {library : String} (listed : library ∈ Catalog.defaultLibraries)
    (file : String) (base : Option String) :
    ofFile file base = library ↔ GoesBy library file base := by
  obtain ⟨⟨nonempty, single, isLibrary, declared⟩, others⟩ := defaultLibrary_names listed
  rw [ofFile_eq_iff]
  cases kind : isLibrarySegment (lastSegment (slashed file.toList)) with
  | true =>
    rw [ofChars_of_library _ kind, GoesBy]
    constructor
    · intro dropped
      have ends : ".d.ts".toList <:+ lastSegment (slashed file.toList) :=
        List.isSuffixOf_iff_suffix.mp (Bool.and_eq_true_iff.mp kind).2
      cases stem_iff.mpr dropped with
      | declaration named =>
        rw [String.toList_append]
        exact .inl named
      | source _ undeclared => exact absurd ends undeclared
      | other _ other => exact absurd (suffix_of_declaration ends) other
    · rintro (named | named)
      · rw [named, declared]
      · obtain ⟨nonempty, single, plain, -⟩ := others _ named
        rw [lastSegment_of_inside rfl nonempty single, plain] at kind
        cases kind
  | false =>
    rw [ofChars_of_plain _ kind, GoesBy]
    constructor
    · intro dropped
      cases stem_iff.mpr dropped with
      | declaration named =>
        rw [← String.toList_append] at named
        exact .inl (lastSegment_of_inside named nonempty single)
      | source named _ =>
        rw [← String.toList_append] at named
        exact .inr (.inr named)
      | other named _ => exact .inr (.inl named)
    · rintro (named | named)
      · rw [named, isLibrary] at kind
        cases kind
      · exact (others _ named).2.2.2

end ModulePath

/-- A file has the module path of a part of the default library just when it goes by its name, and
a symbol has it in its key just when its declaring file does.  The files of the library go by their
names in any folder, and so do a bare file and a source file that lie directly in the base path. -/
theorem library_path_iff (library : String) (listed : library ∈ Catalog.defaultLibraries)
    (base : Option String) :
    (∀ file, ofFile file base = library ↔ GoesBy library file base) ∧
    ∀ (resolver : Resolver) (id : SymbolId) (symbol : Symbol) (declaration : Declaration),
      resolver.symbol (resolver.terminal id) = some symbol → symbol.primary? = some declaration →
      ((∃ name, resolver.key id base = .ok ⟨library, name⟩) ↔
        GoesBy library declaration.fileName base) := by
  refine ⟨fun file => ofFile_eq_library_iff listed file base, ?_⟩
  intro resolver id symbol declaration known declared
  rw [← ofFile_eq_library_iff listed]
  simp [Resolver.key, known, declared]

/-- A source file in the base path is taken for the default library. -/
theorem library_path_of_source_file :
    "lib.es6" ∈ Catalog.defaultLibraries ∧
    ofFile "C:\\work\\lib.es6.ts" (some "C:/work/") = "lib.es6" := by
  have listed : "lib.es6" ∈ Catalog.defaultLibraries := by decide
  refine ⟨listed, ?_⟩
  exact ((library_path_iff "lib.es6" listed (some "C:/work/")).1 _).mpr (.inr (.inr (by decide)))

/-- `xs.push(v)`, where `push` is a member of an interface `Array` of a source file `lib.ts`. -/
def ownArrayPush : SourceUnit where
  tree :=
    { nodes := #[⟨.name (.identifier "xs"), 0, 2, some 2⟩,
        ⟨.name (.identifier "push"), 3, 7, some 2⟩,
        ⟨.expr (.propertyAccess 0 1), 0, 7, some 4⟩,
        ⟨.name (.identifier "v"), 8, 9, some 4⟩,
        ⟨.expr (.call 2 [] [3]), 0, 10, some 5⟩,
        ⟨.stmt (.exprStmt 4), 0, 11, some 6⟩,
        ⟨.sourceFile "unit" [5], 0, 11, none⟩] }
  root := 6
  resolver := some (Bindings.empty.declare "Array" ⟨64⟩ "/work/lib.ts"
    |>.declareMember 0 "push" .method
    |>.bind 1 1).resolver

/-- The call of a member that is declared in a source file `lib.ts` is written like one of the
default library. -/
theorem ownArrayPush_taken_for_library :
    ofFile "/work/lib.ts" (some "/work") = "lib" ∧
    lastSegment (slashed "/work/lib.ts".toList) ≠ "lib.d.ts".toList ∧
    (Converter.standard { basePath := some "/work" }).convert ownArrayPush =
      .ok ⟨"unit", " xs . add ( v ) ;", []⟩ := by
  refine ⟨?_, by decide, by decide +kernel⟩
  exact (ofFile_eq_library_iff (by decide) _ _).mpr (.inr (.inr (by decide)))

end Dartify
