import Dartify.Proofs.AliasWalk

/-!
# Members go by their containers

The file of a member is copied from its container when the member is declared, and the dotted name
is put together from the names of its containers when it is asked for.  Both agree at any depth: a
symbol is looked up in the file that its outermost container is declared in, under the names from
there on.

A front end fills bindings by *acts*, in any order.  Each act puts at most one symbol behind the
others and changes none (`Bindings.symbols_apply`).  So the file of a symbol stays that of its
container (`Bindings.Filed.push`), and a key that could be found stays the same.
-/

namespace Dartify

open Relation

/-! ## Flags -/

namespace SymbolFlags

/-- A set has a flag in common with one of two sets when it has one with their union. -/
theorem meets_union (flags first second : SymbolFlags) :
    flags.meets (first.union second) = (flags.meets first || flags.meets second) := by
  have spread : flags.bits &&& (first.bits ||| second.bits) =
      (flags.bits &&& first.bits) ||| (flags.bits &&& second.bits) := by
    rw [← UInt32.toBitVec_inj]
    exact BitVec.and_or_distrib_left
  simp only [meets, union, spread]
  rw [Bool.eq_iff_iff]
  simp only [bne_iff_ne, ne_eq, UInt32.or_eq_zero_iff, Bool.or_eq_true, not_and_or]

theorem meets_bareNamed (flags : SymbolFlags) :
    flags.meets .bareNamed =
      (flags.meets .function || flags.meets .anyVariable || flags.meets .classType) := by
  rw [bareNamed, meets_union, meets_union]

end SymbolFlags

namespace Bindings

/-! ## Acts -/

/-- What a front end can do to bindings. -/
inductive Act where
  | declare (name : String) (flags : SymbolFlags) (file : String)
  | declareMember (parent : SymbolId) (name : String) (flags : SymbolFlags)
  | declareStub (name : String) (flags : SymbolFlags)
  | declareAlias (name : String) (target : SymbolId) (file : String)
  | bind (node : NodeId) (symbol : SymbolId)
  | bindType (node : NodeId) (symbol : SymbolId)

/-- The bindings after an act. -/
def Act.apply (bindings : Bindings) : Act → Bindings
  | .declare name flags file => bindings.declare name flags file
  | .declareMember parent name flags => bindings.declareMember parent name flags
  | .declareStub name flags => bindings.declareStub name flags
  | .declareAlias name target file => bindings.declareAlias name target file
  | .bind node symbol => bindings.bind node symbol
  | .bindType node symbol => bindings.bindType node symbol

/-- A member is declared in a container that is declared. -/
def Act.Contained (bindings : Bindings) : Act → Prop
  | .declareMember parent _ _ => parent < bindings.next
  | _ => True

/-- Bindings come from empty ones by acts, and every member was declared after its container. -/
inductive Formed : Bindings → Prop where
  /-- Nothing was done. -/
  | empty : Formed .empty
  /-- One more act was done. -/
  | more {bindings : Bindings} (formed : Formed bindings) (act : Act)
      (contained : act.Contained bindings) : Formed (act.apply bindings)

/-- Bindings come from others by acts. -/
def Continues : Bindings → Bindings → Prop :=
  ReflTransGen fun before after => ∃ act : Act, after = act.apply before

/-- The containers of a symbol, from one that has none: `names` are theirs and its own. -/
inductive Line (bindings : Bindings) (root : Symbol) : List String → SymbolId → Prop where
  /-- The symbol has no container. -/
  | top {id : SymbolId} (known : bindings.symbols[id]? = some root)
      (outermost : root.parent = none) : Line bindings root [root.name] id
  /-- The symbol is a member. -/
  | member {id parent : SymbolId} {symbol : Symbol} {names : List String}
      (line : Line bindings root names parent) (known : bindings.symbols[id]? = some symbol)
      (contained : symbol.parent = some parent) :
      Line bindings root (names ++ [symbol.name]) id

variable {bindings : Bindings}

theorem lt_size_of_known {id : SymbolId} {symbol : Symbol}
    (known : bindings.symbols[id]? = some symbol) : id < bindings.symbols.size :=
  (Array.getElem?_eq_some_iff.mp known).1

/-- An act puts at most one symbol behind the others. -/
theorem symbols_apply (bindings : Bindings) (act : Act) :
    (act.apply bindings).symbols = bindings.symbols ∨
      ∃ symbol, (act.apply bindings).symbols = bindings.symbols.push symbol := by
  cases act with
  | bind node symbol => exact .inl rfl
  | bindType node symbol => exact .inl rfl
  | _ => exact .inr ⟨_, rfl⟩

/-- Acts leave the symbols as they are. -/
theorem Continues.symbol_eq {later : Bindings} (continues : bindings.Continues later)
    {id : SymbolId} (inside : id < bindings.symbols.size) :
    id < later.symbols.size ∧ later.symbols[id]? = bindings.symbols[id]? := by
  induction continues with
  | refl => exact ⟨inside, rfl⟩
  | @tail middle last _ one ih =>
    obtain ⟨act, rfl⟩ := one
    rcases middle.symbols_apply act with same | ⟨symbol, pushed⟩
    · rwa [same]
    · rw [pushed, Array.size_push, Array.getElem?_push, if_neg (Nat.ne_of_lt ih.1)]
      exact ⟨Nat.lt_succ_of_lt ih.1, ih.2⟩

/-! ## Files -/

/-- Every symbol has one declaration or none, and members have the file of their container. -/
structure Filed (bindings : Bindings) : Prop where
  /-- The primary declaration is the only one. -/
  declarations : ∀ {id : SymbolId} {symbol : Symbol}, bindings.symbols[id]? = some symbol →
    symbol.declarations = symbol.primary?.toList
  /-- A member has the file of its container, which was declared before. -/
  contained : ∀ {id parent : SymbolId} {symbol : Symbol}, bindings.symbols[id]? = some symbol →
    symbol.parent = some parent → parent < id ∧ ∃ container : Symbol,
      bindings.symbols[parent]? = some container ∧
      symbol.primary?.map Declaration.fileName = container.primary?.map Declaration.fileName

/-- The primary declaration is the first one when no other one can be that of the value. -/
theorem primary?_eq_head? {symbol : Symbol}
    (first : symbol.valueDeclaration = none ∨ symbol.valueDeclaration = some 0) :
    symbol.primary? = symbol.declarations.head? := by
  rcases first with unset | zero
  · simp [Symbol.primary?, unset]
  · cases listed : symbol.declarations <;> simp [Symbol.primary?, zero, listed]

theorem valuePlace_cases (flags : SymbolFlags) :
    valuePlace flags = none ∨ valuePlace flags = some 0 := by
  unfold valuePlace
  split
  · exact .inr rfl
  · exact .inl rfl

/-- One more symbol, whose container is declared and gives it its file, keeps the files right. -/
theorem Filed.push (filed : bindings.Filed) {grown : Bindings} {symbol : Symbol}
    (pushed : grown.symbols = bindings.symbols.push symbol)
    (declarations : symbol.declarations = symbol.primary?.toList)
    (contained : ∀ parent, symbol.parent = some parent → ∃ container,
      bindings.symbols[parent]? = some container ∧
      symbol.primary?.map Declaration.fileName = container.primary?.map Declaration.fileName) :
    grown.Filed := by
  have kept : ∀ {id : SymbolId} {found : Symbol}, bindings.symbols[id]? = some found →
      grown.symbols[id]? = some found := by
    intro id found known
    rw [pushed, Array.getElem?_push, if_neg (Nat.ne_of_lt (lt_size_of_known known)), known]
  -- a symbol is the new one or an old one
  have known_cases : ∀ {id : SymbolId} {found : Symbol}, grown.symbols[id]? = some found →
      (id = bindings.symbols.size ∧ found = symbol) ∨ bindings.symbols[id]? = some found := by
    intro id found known
    rw [pushed, Array.getElem?_push] at known
    split at known
    · exact .inl ⟨‹_›, (Option.some.inj known).symm⟩
    · exact .inr known
  refine ⟨fun known => ?_, fun known held => ?_⟩
  · rcases known_cases known with ⟨-, rfl⟩ | old
    · exact declarations
    · exact filed.declarations old
  · rcases known_cases known with ⟨rfl, rfl⟩ | old
    · obtain ⟨container, there, same⟩ := contained _ held
      exact ⟨lt_size_of_known there, container, kept there, same⟩
    · obtain ⟨before, container, there, same⟩ := filed.contained old held
      exact ⟨before, container, kept there, same⟩

/-- A member is declared in the file of its container. -/
theorem memberDeclarations_eq {parent : SymbolId} {container : Symbol}
    (known : bindings.symbols[parent]? = some container) :
    bindings.memberDeclarations parent =
      (container.primary?.map fun declaration => ⟨declaration.fileName, none⟩).toList := by
  simp only [memberDeclarations, known]
  cases container.primary? <;> rfl

/-- Every act whose member has a declared container keeps the files right. -/
theorem Filed.apply (filed : bindings.Filed) {act : Act} (contained : act.Contained bindings) :
    (act.apply bindings).Filed := by
  cases act with
  | declare name flags file =>
    refine filed.push rfl ?_ fun parent held => by cases held
    rw [primary?_eq_head? (valuePlace_cases flags)]
    rfl
  | declareMember parent name flags =>
    have known := Array.getElem?_eq_getElem contained
    refine filed.push rfl ?_ fun container held => ?_
    · rw [primary?_eq_head? (valuePlace_cases flags)]
      show bindings.memberDeclarations parent = (bindings.memberDeclarations parent).head?.toList
      rw [memberDeclarations_eq known, Option.head?_toList]
    · cases held
      refine ⟨_, known, ?_⟩
      rw [primary?_eq_head? (valuePlace_cases flags)]
      show (bindings.memberDeclarations parent).head?.map Declaration.fileName = _
      rw [memberDeclarations_eq known, Option.head?_toList, Option.map_map]
      rfl
  | declareStub name flags => exact filed.push rfl rfl fun parent held => by cases held
  | declareAlias name target file => exact filed.push rfl rfl fun parent held => by cases held
  | bind node symbol => exact ⟨filed.declarations, filed.contained⟩
  | bindType node symbol => exact ⟨filed.declarations, filed.contained⟩

theorem Formed.filed (formed : bindings.Formed) : bindings.Filed := by
  induction formed with
  | empty =>
    exact ⟨fun known => by simp [Bindings.empty] at known,
      fun known => by simp [Bindings.empty] at known⟩
  | more _ act contained ih => exact ih.apply contained

/-! ## Containers -/

variable {root : Symbol} {names : List String} {id : SymbolId}

namespace Filed

variable (filed : bindings.Filed)

include filed

/-- Every symbol lies on a line of containers. -/
theorem exists_line {symbol : Symbol} (known : bindings.symbols[id]? = some symbol) :
    ∃ root names, bindings.Line root names id := by
  induction id using Nat.strong_induction_on generalizing symbol with
  | _ id ih =>
    cases held : symbol.parent with
    | none => exact ⟨symbol, _, .top known held⟩
    | some parent =>
      obtain ⟨before, container, there, -⟩ := filed.contained known held
      obtain ⟨root, names, line⟩ := ih parent before there
      exact ⟨root, _, line.member known held⟩

/-- Containers are declared before their members, so a line is no longer than its end is late. -/
theorem length_le_of_line (line : bindings.Line root names id) : names.length ≤ id + 1 := by
  induction line with
  | top known outermost => simp
  | member line known contained ih =>
    have before : _ < _ := (filed.contained known contained).1
    rw [List.length_append, List.length_singleton]
    exact Nat.succ_le_succ (Nat.le_trans ih before)

/-- All symbols on a line have the file of the outermost one. -/
theorem file_of_line (line : bindings.Line root names id) {symbol : Symbol}
    (known : bindings.symbols[id]? = some symbol) :
    symbol.primary?.map Declaration.fileName = root.primary?.map Declaration.fileName := by
  induction line generalizing symbol with
  | top there outermost =>
    rw [known] at there
    cases there
    rfl
  | member line there contained ih =>
    rw [known] at there
    cases there
    obtain ⟨-, container, above, same⟩ := filed.contained known contained
    rw [same, ih above]

end Filed

/-- The names that are gathered from a symbol upward are those of its line. -/
theorem Line.namesUp_eq (line : bindings.Line root names id) {budget : Nat}
    (enough : names.length ≤ budget) : bindings.namesUp budget (some id) = names.reverse := by
  induction line generalizing budget with
  | top known outermost =>
    obtain ⟨budget, rfl⟩ := Nat.exists_eq_add_one_of_ne_zero (Nat.ne_of_gt enough)
    simp [namesUp, known, outermost, namesUp_none]
  | member line known contained ih =>
    rw [List.length_append, List.length_singleton] at enough
    obtain ⟨budget, rfl⟩ :=
      Nat.exists_eq_add_one_of_ne_zero (Nat.ne_of_gt (Nat.lt_of_lt_of_le (Nat.succ_pos _) enough))
    have rest := ih (Nat.le_of_succ_le_succ enough)
    simp [namesUp, known, contained, rest]

theorem Line.qualifiedName_eq (line : bindings.Line root names id)
    (short : names.length ≤ bindings.symbols.size) :
    bindings.qualifiedName id = ".".intercalate names := by
  rw [qualifiedName, line.namesUp_eq short, List.reverse_reverse]

theorem Line.root_known (line : bindings.Line root names id) :
    ∃ top : SymbolId, bindings.symbols[top]? = some root := by
  induction line with
  | @top id known outermost => exact ⟨id, known⟩
  | member line known contained ih => exact ih

/-- Lines stay, whatever else is done. -/
theorem Line.continues (line : bindings.Line root names id) {later : Bindings}
    (continues : bindings.Continues later) : later.Line root names id := by
  have kept : ∀ {id : SymbolId} {symbol : Symbol}, bindings.symbols[id]? = some symbol →
      later.symbols[id]? = some symbol := fun known =>
    (continues.symbol_eq (lt_size_of_known known)).2.trans known
  induction line with
  | top known outermost => exact .top (kept known) outermost
  | member line known contained ih => exact ih.member (kept known) contained

end Bindings

/-! ## Keys -/

/-- The key of a symbol that has a dotted name. -/
def Symbol.keyUnder (symbol : Symbol) (dotted : String) (basePath : Option String) :
    Except KeyError SymbolKey :=
  match symbol.primary? with
  | none => .error .noDeclarations
  | some declaration =>
    .ok
      { modulePath := ModulePath.ofFile declaration.fileName basePath
        name := if symbol.flags.meets .bareNamed then symbol.name else dotted }

/-- The key of a symbol that is no alias is read off the symbol itself. -/
theorem Resolver.key_of_plain {resolver : Resolver} {id : SymbolId} {symbol : Symbol}
    (known : resolver.symbol id = some symbol) (plain : symbol.isAlias = false)
    (basePath : Option String) :
    resolver.key id basePath = symbol.keyUnder (resolver.qualifiedName id) basePath := by
  have terminal : resolver.terminal id = id := (AliasWalk.here (.plain known plain)).terminal_eq
  cases primary : symbol.primary? <;> simp only [key, Symbol.keyUnder, terminal, known, primary]

open Bindings

/-- The key of a symbol that is no alias comes from its line, also after more was done. -/
theorem Bindings.Filed.key_eq {bindings later : Bindings} (filed : bindings.Filed) {id : SymbolId}
    {symbol root : Symbol} {names : List String} (known : bindings.symbols[id]? = some symbol)
    (plain : symbol.isAlias = false) (line : bindings.Line root names id)
    (continues : bindings.Continues later) (basePath : Option String) :
    later.resolver.key id basePath = symbol.keyUnder (".".intercalate names) basePath := by
  obtain ⟨inside, same⟩ := continues.symbol_eq (lt_size_of_known known)
  have there : later.resolver.symbol id = some symbol := same.trans known
  have short : names.length ≤ later.symbols.size :=
    Nat.le_trans (filed.length_le_of_line line) inside
  have named : later.resolver.qualifiedName id = ".".intercalate names :=
    (line.continues continues).qualifiedName_eq short
  rw [Resolver.key_of_plain there plain, named]

/-- A symbol that is no alias lies on a line of containers, at any depth.  When the outermost one
has a declaring file, the symbol's key is the module path of that file and the names of the line
joined by dots, or its own name when it is a function, a variable or a class.  When the outermost
one is declared nowhere, neither is the symbol.  Whatever is declared or bound later, the key
stays. -/
theorem member_keys (bindings : Bindings) (formed : bindings.Formed) (id : SymbolId)
    (symbol : Symbol) (known : bindings.symbols[id]? = some symbol)
    (plain : symbol.isAlias = false) (basePath : Option String) :
    (∃ root names, bindings.Line root names id) ∧
    (∀ root names, bindings.Line root names id →
      (∀ declaration ∈ root.declarations, bindings.resolver.key id basePath =
        .ok
          { modulePath := ModulePath.ofFile declaration.fileName basePath
            name :=
              if symbol.flags.meets .function || symbol.flags.meets .anyVariable ||
                symbol.flags.meets .classType then symbol.name
              else ".".intercalate names }) ∧
      (root.declarations = [] → bindings.resolver.key id basePath = .error .noDeclarations)) ∧
    ∀ later, bindings.Continues later →
      later.resolver.key id basePath = bindings.resolver.key id basePath := by
  have filed := formed.filed
  obtain ⟨root, names, line⟩ := filed.exists_line known
  refine ⟨⟨root, names, line⟩, fun root names line => ?_, fun later continues => ?_⟩
  · have file := filed.file_of_line line known
    obtain ⟨top, above⟩ := line.root_known
    have listed := filed.declarations above
    rw [filed.key_eq known plain line .refl, Symbol.keyUnder]
    refine ⟨fun declaration member => ?_, fun undeclared => ?_⟩
    · rw [listed, Option.mem_toList] at member
      rw [member, Option.map_some] at file
      obtain ⟨copied, primary, same⟩ := Option.map_eq_some_iff.mp file
      simp only [primary, same, SymbolFlags.meets_bareNamed]
    · rw [undeclared, eq_comm, Option.toList_eq_nil_iff] at listed
      rw [listed, Option.map_none, Option.map_eq_none_iff] at file
      simp only [file]
  · rw [filed.key_eq known plain line continues, filed.key_eq known plain line .refl]

/-- A method of an interface inside a module, with an interface that no file declares beside it. -/
def nestedMember : Bindings :=
  Bindings.empty.declare "ng" .valueModule "/p/ng.ts"
    |>.declareMember 0 "Map" ⟨64⟩
    |>.declareStub "Ghost" ⟨64⟩
    |>.declareMember 1 "get" .method
    |>.declareMember 2 "run" .function

/-- The method goes by the file of the module and all three names, also after a module of the same
name is declared in another file; the member of the undeclared interface has no key. -/
theorem nestedMember_keys :
    nestedMember.Formed ∧ nestedMember.resolver.key 3 (some "/p") = .ok ⟨"ng", "ng.Map.get"⟩ ∧
    (nestedMember.declare "ng" .valueModule "/q/ng.ts").resolver.key 3 (some "/p") =
      .ok ⟨"ng", "ng.Map.get"⟩ ∧
    nestedMember.resolver.key 4 none = .error .noDeclarations := by
  have formed : nestedMember.Formed :=
    .more (.more (.more (.more (.more .empty (.declare "ng" .valueModule "/p/ng.ts") trivial)
      (.declareMember 0 "Map" ⟨64⟩) (by decide : 0 < 1)) (.declareStub "Ghost" ⟨64⟩) trivial)
      (.declareMember 1 "get" .method) (by decide : 1 < 3))
      (.declareMember 2 "run" .function) (by decide : 2 < 4)
  have outer : nestedMember.Line _ _ 0 := .top rfl rfl
  have middle : nestedMember.Line _ _ 1 := outer.member rfl rfl
  have inner : nestedMember.Line _ _ 3 := middle.member rfl rfl
  have ghost : nestedMember.Line _ _ 2 := .top rfl rfl
  have stray : nestedMember.Line _ _ 4 := ghost.member rfl rfl
  obtain ⟨-, found, stays⟩ := member_keys nestedMember formed 3 _ rfl (by decide) (some "/p")
  obtain ⟨-, missing, -⟩ := member_keys nestedMember formed 4 _ rfl (by decide) none
  have key := (found _ _ inner).1 ⟨"/p/ng.ts", none⟩ (by decide)
  have path : ModulePath.ofFile "/p/ng.ts" (some "/p") = "ng" := by decide
  rw [path] at key
  have later := stays _ (.single ⟨.declare "ng" .valueModule "/q/ng.ts", rfl⟩)
  exact ⟨formed, key, later.trans key, (missing _ _ stray).2 rfl⟩

end Dartify
