import Dartify.Proofs.Escaping
import Dartify.Proofs.Refusal

/-!
# Quoting outside string literals

Keys of objects and libraries of imports are written between double quotes too.  A key that is a
string in the source is written as a literal, and so is escaped.  A key that is an identifier and
the library of an import are put between the quotes as they stand (`Quoted.verbatim`).

A literal keeps a text as it stands when all its characters are `Quoted.Plain`, and only then.  So
the two ways to quote agree on plain texts and differ on all others.  On the others the text as it
stands is no literal of itself either: a `$` in an identifier, which may well have one, starts an
interpolation (`enclosed_text_quoted_iff`).
-/

namespace Dartify

/-! ## Texts that are quoted as they stand -/

namespace Quoted

theorem literalChar_of_plain {c : Char} (plain : Plain c) : literalChar c = [c] := by
  obtain ⟨quote, slash, dollar, printable⟩ := plain
  have visible : ∀ d : Char, d.toNat < 0x20 → c ≠ d := by
    rintro d control rfl
    omega
  rw [literalChar, if_neg quote, if_neg slash, if_neg dollar, if_neg (visible _ (by decide)),
    if_neg (visible _ (by decide)), if_neg (visible _ (by decide)), if_neg (visible _ (by decide)),
    if_neg (visible _ (by decide)), if_neg (Nat.not_lt.mpr printable)]

theorem literalBody_of_plain {text : List Char} (plain : ∀ c ∈ text, Plain c) :
    literalBody text = text := by
  induction text with
  | nil => rfl
  | cons c rest ih =>
    rw [literalBody, List.flatMap_cons, literalChar_of_plain (plain c (List.mem_cons_self ..))]
    exact congrArg (c :: ·) (ih fun d member => plain d (List.mem_cons_of_mem _ member))

/-- Reading never makes a text longer, and a backslash makes it shorter. -/
theorem length_of_readLiteral {body text : List Char} (reads : readLiteral body = some text) :
    text.length ≤ body.length ∧ ('\\' ∈ body → text.length < body.length) := by
  fun_induction readLiteral body generalizing text with
  | case1 => cases reads; simp
  | case2 a b c d rest ih =>
    simp only [Option.bind_eq_bind, Option.bind_eq_some_iff] at reads
    obtain ⟨unit, -, reads⟩ := reads
    split_ifs at reads
    obtain ⟨inner, read, same⟩ := Option.bind_eq_some_iff.mp reads
    cases same
    have shorter := (ih read).1
    simp only [List.length_cons]
    omega
  | case3 | case5 => cases reads
  | case4 c rest _ _ ih =>
    obtain ⟨inner, read, rfl⟩ := Option.map_eq_some_iff.mp reads
    have shorter := (ih read).1
    simp only [List.length_cons]
    omega
  | case6 c rest _ _ escape ending ih =>
    obtain ⟨inner, read, rfl⟩ := Option.map_eq_some_iff.mp reads
    have notSlash : '\\' ≠ c := by
      rintro rfl
      cases rest with
      | nil => exact ending rfl rfl
      | cons d rest => exact escape d rest rfl rfl
    obtain ⟨shorter, strictly⟩ := ih read
    simp only [List.length_cons, List.mem_cons, notSlash, false_or]
    exact ⟨by omega, fun slash => Nat.succ_lt_succ (strictly slash)⟩

/-- A text is a body of itself when it is plain, and only then. -/
theorem spells_self_iff {text : List Char} : Spells text text ↔ ∀ c ∈ text, Plain c := by
  constructor
  · intro spells c member
    have noSlash : '\\' ∉ text := fun slash =>
      Nat.lt_irrefl _ ((length_of_readLiteral spells.reads).2 slash)
    obtain ⟨before, after, split⟩ := List.append_of_mem member
    have bare : escapes before = false := by
      refine (@sealed_of_plain [] before fun d inside => ⟨?_, List.not_mem_nil⟩).closed
      rintro rfl
      exact noSlash (split ▸ List.mem_append_left _ inside)
    have ordinary : c ∉ ['"', '$'] := by
      intro special
      have escaped := spells.inside.escaped before c after split special
      rw [bare] at escaped
      cases escaped
    simp only [List.mem_cons, List.not_mem_nil, or_false, not_or] at ordinary
    exact ⟨ordinary.1, fun same => noSlash (same ▸ member), ordinary.2, spells.printable c member⟩
  · intro plain
    have spelled := spells_literalBody text
    rwa [literalBody_of_plain plain] at spelled

theorem toList_verbatim (text : String) :
    (verbatim text).toList = '"' :: (text.toList ++ ['"']) := by
  simp [verbatim]

/-- A token has one body. -/
theorem body_inj {word : String} {body body' : List Char}
    (one : word.toList = '"' :: (body ++ ['"'])) (two : word.toList = '"' :: (body' ++ ['"'])) :
    body = body' :=
  List.append_cancel_right (List.cons.inj (one.symm.trans two)).2

/-- A text between quotes denotes itself when it is plain, and only then. -/
theorem denotes_verbatim_iff {text : String} :
    Denotes (verbatim text) text ↔ ∀ c ∈ text.toList, Plain c := by
  rw [← spells_self_iff]
  constructor
  · rintro ⟨body, written, spells⟩
    rwa [body_inj written (toList_verbatim text)] at spells
  · exact fun spells => ⟨text.toList, toList_verbatim text, spells⟩

/-- The two ways to quote a text agree when it is plain, and only then. -/
theorem verbatim_eq_literal_iff {text : String} :
    verbatim text = literal text ↔ ∀ c ∈ text.toList, Plain c := by
  constructor
  · intro same
    rw [← denotes_verbatim_iff, same]
    exact denotes_literal text
  · intro plain
    rw [← String.toList_inj, toList_verbatim, toList_literal, literalBody_of_plain plain]

end Quoted

/-- The library of a specifier is plain when the specifier is. -/
theorem plain_dartLibrary_iff {specifier : String} :
    (∀ c ∈ (dartLibrary specifier).toList, Quoted.Plain c) ↔
      ∀ c ∈ specifier.toList, Quoted.Plain c := by
  have ending : ∀ c ∈ ".dart".toList, Quoted.Plain c := by simp [Quoted.Plain]
  have package : ∀ c ∈ "package:".toList, Quoted.Plain c := by simp [Quoted.Plain]
  unfold dartLibrary
  split
  · rename_i relative rest
    have suffix : "./".toList ++ relative = specifier.toList :=
      List.isPrefixOf?_eq_some_iff_append_eq.mp rest
    have leading : ∀ c ∈ "./".toList, Quoted.Plain c := by simp [Quoted.Plain]
    rw [← suffix, String.toList_append, String.toList_ofList, List.forall_mem_append,
      List.forall_mem_append]
    exact ⟨fun plain => ⟨leading, plain.1⟩, fun plain => ⟨plain.2, ending⟩⟩
  · split
    · rw [String.toList_append, List.forall_mem_append]
      exact ⟨And.left, fun plain => ⟨plain, ending⟩⟩
    · rw [String.toList_append, String.toList_append, List.forall_mem_append,
        List.forall_mem_append]
      exact ⟨fun plain => plain.1.2, fun plain => ⟨⟨package, plain⟩, ending⟩⟩

/-! ## Nodes that start with tokens -/

/-- Walking a node with the standard chain writes some tokens, and then goes on in a way that does
not depend on the run. -/
def Context.Opens (context : Context) (node : NodeId) (words : List String) : Prop :=
  ∃ rest : Plan, ∀ (σ : Type) (budget : Nat),
    Run.walkWithin context (Category.all.map (Category.stage σ)) (budget + 2) node =
      Run.perform context
        (Run.walkWithin context (Category.all.map (Category.stage σ)) (budget + 1))
        (words.map Directive.token ++ rest)

section

variable {context : Context} {node : NodeId} {found : Node}

/-- A node whose plan is one token is written by writing the token. -/
theorem Run.walkWithin_of_token {σ : Type} {word : String}
    (present : context.tree.get? node = some found)
    (planned : context.planAt Category.all node found = [.token word]) (budget : Nat) :
    Run.walkWithin context (Category.all.map (Category.stage σ)) (budget + 1) node =
      Run.write (·.token word) := by
  rw [Run.walkWithin_succ Category.all budget present, planned]
  simp only [Run.perform, Run.direct, bind_pure_unit]

theorem Context.opens_of_plan {words : List String} {rest : Plan}
    (present : context.tree.get? node = some found)
    (planned : context.planAt Category.all node found = words.map Directive.token ++ rest) :
    context.Opens node words := by
  refine ⟨rest, fun σ budget => ?_⟩
  rw [Run.walkWithin_succ Category.all (budget + 1) present, planned]

/-! ## Keys and libraries -/

/-- A node that writes a text of the source between quotes: the tokens before it, the text as it is
quoted, and the tokens behind it. -/
inductive Tree.Encloses (tree : Tree) (source : String) :
    NodeId → List String → String → List String → Prop where
  /-- A property whose key is an identifier. -/
  | property {node name value : NodeId}
      (held : tree.payload? node = some (.literal (.property name value)))
      (named : tree.payload? name = some (.name (.identifier source))) :
      Encloses tree source node [] source [":"]
  /-- A property whose key and value are one identifier. -/
  | shorthandProperty {node name : NodeId}
      (held : tree.payload? node = some (.literal (.shorthandProperty name)))
      (named : tree.payload? name = some (.name (.identifier source))) :
      Encloses tree source node [] source [":", source]
  /-- An import of names. -/
  | importDecl {node specifier : NodeId} {names : List NodeId}
      (held : tree.payload? node = some (.decl (.importDecl names specifier)))
      (named : tree.payload? specifier = some (.literal (.string source))) :
      Encloses tree source node ["import"] (dartLibrary source) []
  /-- An import of a whole module. -/
  | importEquals {node name specifier : NodeId}
      (held : tree.payload? node = some (.decl (.importEquals name specifier)))
      (named : tree.payload? specifier = some (.literal (.string source))) :
      Encloses tree source node ["import"] (dartLibrary source) ["as"]

theorem propertyKeyPlan_of_identifier {name : NodeId} {text : String}
    (named : context.tree.payload? name = some (.name (.identifier text))) :
    propertyKeyPlan context name = [.token (Quoted.verbatim text)] := by
  rw [propertyKeyPlan, Tree.identifierText?_eq_some_iff.mpr named]

theorem libraryPlan_of_string {specifier : NodeId} {text : String}
    (named : context.tree.payload? specifier = some (.literal (.string text))) :
    libraryPlan context specifier = [.token (Quoted.verbatim (dartLibrary text))] := by
  obtain ⟨found, present, content⟩ := Tree.payload?_eq_some.mp named
  simp only [libraryPlan, Plan.withPayload, present, content]

/-- A text that is enclosed in quotes is put there as it stands. -/
theorem Tree.Encloses.opens {source shown : String} {before after : List String}
    (here : context.tree.Encloses source node before shown after) :
    context.Opens node (before ++ Quoted.verbatim shown :: after) := by
  cases here with
  | property held named =>
    obtain ⟨found, present, planned⟩ := Context.exists_planAt .literals held rfl
    rw [Literal.plan, propertyKeyPlan_of_identifier named] at planned
    exact Context.opens_of_plan present planned
  | shorthandProperty held named =>
    obtain ⟨found, present, planned⟩ := Context.exists_planAt .literals held rfl
    obtain ⟨nameFound, namePresent, namePlanned⟩ := Context.exists_planAt .types named rfl
    refine ⟨[], fun σ budget => ?_⟩
    rw [Run.walkWithin_succ Category.all (budget + 1) present, planned, Literal.plan,
      propertyKeyPlan_of_identifier named]
    simp only [List.cons_append, List.nil_append, List.append_nil, List.map_cons, List.map_nil,
      Run.perform, Run.direct, Run.walkWithin_of_token namePresent namePlanned]
  | importDecl held named =>
    obtain ⟨found, present, planned⟩ := Context.exists_planAt .declarations held rfl
    rw [Decl.plan, libraryPlan_of_string named] at planned
    exact Context.opens_of_plan present planned
  | importEquals held named =>
    obtain ⟨found, present, planned⟩ := Context.exists_planAt .declarations held rfl
    rw [Decl.plan, libraryPlan_of_string named] at planned
    exact Context.opens_of_plan present planned

/-- A key that is a string is written as a literal. -/
theorem Context.opens_of_stringKey {name value : NodeId} {text : String}
    (held : context.tree.payload? node = some (.literal (.property name value)))
    (named : context.tree.payload? name = some (.literal (.string text))) :
    context.Opens node [Quoted.literal text, ":"] := by
  obtain ⟨found, present, planned⟩ := Context.exists_planAt .literals held rfl
  obtain ⟨nameFound, namePresent, namePlanned⟩ := Context.exists_planAt .literals named rfl
  have anonymous : context.tree.identifierText? name = none := by
    refine Option.eq_none_iff_forall_ne_some.mpr fun text same => ?_
    rw [Tree.identifierText?_eq_some_iff, named] at same
    cases same
  refine ⟨[.child value], fun σ budget => ?_⟩
  rw [Run.walkWithin_succ Category.all (budget + 1) present, planned, Literal.plan,
    propertyKeyPlan, anonymous]
  simp only [List.cons_append, List.nil_append, List.map_cons, List.map_nil,
    Run.perform, Run.direct, Run.walkWithin_of_token namePresent namePlanned]

/-- The specifier of a library is plain when the library is, and a key is quoted as it is. -/
theorem Tree.Encloses.plain_iff {tree : Tree} {source shown : String} {before after : List String}
    (here : tree.Encloses source node before shown after) :
    (∀ c ∈ shown.toList, Quoted.Plain c) ↔ ∀ c ∈ source.toList, Quoted.Plain c := by
  cases here with
  | property | shorthandProperty => rfl
  | importDecl | importEquals => exact plain_dartLibrary_iff

end

/-- Keys and libraries are quoted as they stand, and keys that are strings are quoted as literals.
The two agree on a text, and the text as it stands is a literal of itself, exactly when the text of
the source has no quote, backslash, dollar or control character. -/
theorem enclosed_text_quoted_iff (context : Context) {node : NodeId} {source shown : String}
    {before after : List String} (here : context.tree.Encloses source node before shown after) :
    context.Opens node (before ++ Quoted.verbatim shown :: after) ∧
    (∀ other name value, context.tree.payload? other = some (.literal (.property name value)) →
      context.tree.payload? name = some (.literal (.string shown)) →
      context.Opens other [Quoted.literal shown, ":"]) ∧
    (Quoted.verbatim shown = Quoted.literal shown ↔ ∀ c ∈ source.toList, Quoted.Plain c) ∧
    (Quoted.Denotes (Quoted.verbatim shown) shown ↔ ∀ c ∈ source.toList, Quoted.Plain c) := by
  refine ⟨here.opens, fun other name value held named => Context.opens_of_stringKey held named,
    ?_, ?_⟩
  · rw [Quoted.verbatim_eq_literal_iff, here.plain_iff]
  · rw [Quoted.denotes_verbatim_iff, here.plain_iff]

/-- `({scope, "scope": 1, $scope: 1, "$scope": 1})` and `import "./a$b"`. -/
def dollarKeys : SourceUnit where
  tree :=
    { nodes := #[⟨.name (.identifier "scope"), 0, 5, some 1⟩,
        ⟨.literal (.shorthandProperty 0), 0, 5, some 11⟩,
        ⟨.literal (.string "scope"), 6, 11, some 4⟩,
        ⟨.literal (.numeric "1"), 12, 13, some 4⟩,
        ⟨.literal (.property 2 3), 6, 13, some 11⟩,
        ⟨.name (.identifier "$scope"), 14, 20, some 7⟩,
        ⟨.literal (.numeric "1"), 21, 22, some 7⟩,
        ⟨.literal (.property 5 6), 14, 22, some 11⟩,
        ⟨.literal (.string "$scope"), 23, 29, some 10⟩,
        ⟨.literal (.numeric "1"), 30, 31, some 10⟩,
        ⟨.literal (.property 8 9), 23, 31, some 11⟩,
        ⟨.literal (.object [1, 4, 7, 10]), 0, 31, some 12⟩,
        ⟨.stmt (.exprStmt 11), 0, 31, some 15⟩,
        ⟨.literal (.string "./a$b"), 32, 37, some 14⟩,
        ⟨.decl (.importDecl [] 13), 32, 37, some 15⟩,
        ⟨.sourceFile "unit" [12, 14], 0, 37, none⟩] }
  root := 15

/-- `scope` is quoted alike as a shorthand and as a string. -/
theorem scopeKey_quoted :
    let context := (Converter.standard {}).context dollarKeys
    context.tree.Encloses "scope" 1 [] "scope" [":", "scope"] ∧
    context.Opens 1 ["\"scope\"", ":", "scope"] ∧ context.Opens 4 ["\"scope\"", ":"] ∧
    Quoted.Denotes "\"scope\"" "scope" := by
  intro context
  have held : context.tree.payload? 1 = some (.literal (.shorthandProperty 0)) := rfl
  have here : context.tree.Encloses "scope" 1 [] "scope" [":", "scope"] :=
    .shorthandProperty held rfl
  have plain : ∀ c ∈ "scope".toList, Quoted.Plain c := by simp [Quoted.Plain]
  obtain ⟨shorthand, strings, agree, denotes⟩ := enclosed_text_quoted_iff context here
  refine ⟨here, shorthand, ?_, denotes.mpr plain⟩
  have text := strings 4 2 3 rfl rfl
  rwa [← agree.mpr plain] at text

/-- A key with a dollar is interpolated where it is an identifier and not where it is a string, and
so is an import of a file with a dollar in its name. -/
theorem dollarKeys_unescaped :
    (Converter.standard {}).convert dollarKeys =
      .ok ⟨"unit",
        " " ++ Text.openBrace ++
          " \"scope\" : scope , \"scope\" : 1 , \"$scope\" : 1 , \"\\$scope\" : 1 " ++
          Text.closeBrace ++ " ; import \"a$b.dart\" ;", []⟩ ∧
    "\"$scope\"" ≠ Quoted.literal "$scope" ∧ ¬Quoted.Denotes "\"$scope\"" "$scope" ∧
    "\"a$b.dart\"" ≠ Quoted.literal (dartLibrary "./a$b") ∧
    ¬Quoted.Denotes "\"a$b.dart\"" (dartLibrary "./a$b") := by
  have dollar : ¬Quoted.Plain '$' := fun plain => plain.2.2.1 rfl
  have key : ¬∀ c ∈ "$scope".toList, Quoted.Plain c := fun plain => dollar (plain '$' (by simp))
  have library : ¬∀ c ∈ (dartLibrary "./a$b").toList, Quoted.Plain c := by
    rw [plain_dartLibrary_iff]
    exact fun plain => dollar (plain '$' (by simp))
  have written : Quoted.verbatim (dartLibrary "./a$b") = "\"a$b.dart\"" := by decide +kernel
  refine ⟨by decide +kernel, ?_, ?_, ?_, ?_⟩
  · exact fun same => key (Quoted.verbatim_eq_literal_iff.mp same)
  · exact fun denotes => key (Quoted.denotes_verbatim_iff.mp denotes)
  · rw [← written]
    exact fun same => library (Quoted.verbatim_eq_literal_iff.mp same)
  · rw [← written]
    exact fun denotes => library (Quoted.denotes_verbatim_iff.mp denotes)

end Dartify
