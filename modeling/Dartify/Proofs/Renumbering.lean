import Dartify.Proofs.PlanRenaming
import Dartify.Proofs.Termination
import Mathlib.Data.Option.Basic
import Mathlib.Tactic.IntervalCases

/-!
# Numbers of nodes

The numbers of nodes are no more than names for them.  When the nodes of a tree stand in another
tree under other numbers, a conversion gives the same there, whatever else the other tree holds
(`convert_renumbered`).

The other tree has more nodes, so its walks, climbs and scans have larger budgets, and as a whole it
may have circles.  So the two are compared at equal budgets, where every step goes to the place of
the node that the other one goes to, and only the budgets of the first tree are then changed.
-/

namespace Dartify

open Plan

/-! ## Transcripts -/

section

variable (place : NodeId → NodeId)

/-- An event about another node. -/
def Event.rename : Event → Event
  | .complain node found cause => .complain (place node) (found.rename place) cause
  | other => other

/-- A transcript about other nodes. -/
def Transcript.rename (transcript : Transcript) : Transcript :=
  ⟨transcript.events.map (Event.rename place), transcript.defect.map (Defect.rename place)⟩

theorem Transcript.rename_append (first second : Transcript) :
    (first ++ second).rename place = first.rename place ++ second.rename place := by
  cases ended : first.defect with
  | none =>
    have ended' : (first.rename place).defect = none := by rw [rename, ended]; rfl
    rw [append_of_none ended, append_of_none ended']
    simp [rename]
  | some defect =>
    have ended' : (first.rename place).defect = some (defect.rename place) := by
      rw [rename, ended]
      rfl
    rw [append_of_some ended, append_of_some ended']

/-- A diagnostic has the offsets of its node, and these are the same. -/
theorem RunState.playAll_rename {σ : Type} (state : RunState σ) (events : List Event) :
    state.playAll (events.map (Event.rename place)) = state.playAll events := by
  induction events generalizing state with
  | nil => rfl
  | cons event rest ih =>
    have first : state.play (event.rename place) = state.play event := by cases event <;> rfl
    rw [List.map_cons, playAll_cons, playAll_cons, first, ih]

end

namespace Context.Renumbers

variable {place : NodeId → NodeId} {one two : Context} (renumbers : one.Renumbers place two)

include renumbers

theorem directive_eq {walk walk' : NodeId → Transcript}
    (walks : ∀ node, walk' (place node) = (walk node).rename place) (directive : Directive) :
    (directive.rename place).transcript two walk' =
      (directive.transcript one walk).rename place := by
  cases directive with
  | child node => exact walks node
  | complain node cause =>
    simp only [Directive.rename, Directive.transcript, renumbers.nodes node]
    cases one.tree.get? node <;> rfl
  | token word | glue text | attach | abort defect => rfl

theorem plan_eq {walk walk' : NodeId → Transcript}
    (walks : ∀ node, walk' (place node) = (walk node).rename place) (plan : Plan) :
    (plan.rename place).transcript two walk' = (plan.transcript one walk).rename place := by
  induction plan with
  | nil => rfl
  | cons directive rest ih =>
    rw [rename_cons, Plan.transcript, Plan.transcript, Transcript.rename_append,
      renumbers.directive_eq walks directive, ih]

/-- At equal budgets the transcript of a node at its place is its transcript, renamed. -/
theorem transcriptWithin_eq (categories : List Category) (budget : Nat) (node : NodeId) :
    two.transcriptWithin categories budget (place node) =
      (one.transcriptWithin categories budget node).rename place := by
  induction budget generalizing node with
  | zero => rfl
  | succ budget ih =>
    rw [transcriptWithin, transcriptWithin, renumbers.nodes node]
    cases one.tree.get? node with
    | none => rfl
    | some found =>
      simp only [Option.map_some, renumbers.planAt_eq categories node found]
      exact renumbers.plan_eq ih _

/-! ## Imports -/

theorem target?_eq (payload : Payload) :
    Import.target? two (payload.rename place) = Import.target? one payload := by
  cases payload with
  | type form =>
    cases form with
    | reference name arguments =>
      simp only [Payload.rename, TypeExpr.rename, Import.target?, renumbers.entityText?,
        renumbers.catalog]
    | _ => rfl
  | _ => rfl

/-- At equal budgets the scan of a node at its place finds what its scan finds. -/
theorem collect_eq (budget : Nat) (targets : List String) (node : NodeId) :
    Import.collect two budget targets (place node) =
      (Import.collect one budget targets node).mapError (Defect.rename place) := by
  induction budget generalizing targets node with
  | zero => rfl
  | succ budget ih =>
    have several : ∀ (nodes : List NodeId) (targets : List String),
        (nodes.map place).foldlM (Import.collect two budget) targets =
          (nodes.foldlM (Import.collect one budget) targets).mapError (Defect.rename place) := by
      intro nodes
      induction nodes with
      | nil => intro targets; rfl
      | cons node rest inner =>
        intro targets
        rw [List.map_cons, List.foldlM_cons, List.foldlM_cons, ih]
        cases Import.collect one budget targets node with
        | error defect => rfl
        | ok after => exact inner after
    rw [Import.collect, Import.collect, renumbers.nodes node]
    cases one.tree.get? node with
    | none => rfl
    | some found =>
      simp only [Option.map_some, Node.rename, Payload.children_rename, renumbers.target?_eq]
      exact several _ _

/-- Where the tree is acyclic and the other one is no smaller, the imports needed are the same. -/
theorem needed_eq (acyclic : one.tree.Acyclic) (larger : one.tree.size ≤ two.tree.size)
    (root : NodeId) :
    Import.needed two (place root) = (Import.needed one root).mapError (Defect.rename place) := by
  have bounded : one.tree.rank root ≤ one.tree.size := Tree.rank_le_size root
  have scanned : Import.collect one (two.tree.size + 1) [] root =
      Import.collect one (one.tree.size + 1) [] root :=
    Import.collect_congr acyclic root (by omega) (by omega) []
  rw [Import.needed, Import.needed, renumbers.catalog, renumbers.collect_eq, scanned]
  split <;> rfl

/-- Where the tree is acyclic and the other one is no smaller, a walk at the place of a node follows
the renamed transcript of the node. -/
theorem follows_walk {σ : Type} (categories : List Category) (acyclic : one.tree.Acyclic)
    (larger : one.tree.size ≤ two.tree.size) (node : NodeId) :
    Run.Follows (Run.walk two (categories.map (Category.stage σ)) (place node))
      ((one.transcript categories node).rename place) := by
  have enough : one.tree.rank node <
      Run.budget (categories.map (Category.stage σ)).length two.tree :=
    calc one.tree.rank node < Run.budget (categories.map (Category.stage σ)).length one.tree :=
          Run.rank_lt_budget _ _ node
      _ ≤ Run.budget (categories.map (Category.stage σ)).length two.tree :=
          Nat.mul_le_mul_left _ (Nat.succ_le_succ larger)
  rw [← Context.transcriptWithin_eq acyclic enough, ← renumbers.transcriptWithin_eq]
  exact Run.follows_walkWithin two categories _ (place node)

end Context.Renumbers

/-! ## Conversions -/

/-- All handles and links of a tree lead to nodes. -/
structure Tree.Closed (tree : Tree) : Prop where
  /-- Handles lead to nodes. -/
  children : ∀ {node child : NodeId}, tree.ChildStep node child → child < tree.size
  /-- Links lead to nodes. -/
  parents : ∀ {node parent : NodeId}, tree.ParentStep node parent → parent < tree.size

/-- In a tree without dangling handles no defect names a node. -/
theorem Fault.rename_eq {tree : Tree} {categories : List Category} {root : NodeId}
    {defect : Defect} (closed : tree.Closed) (inside : root < tree.size)
    (fault : Fault tree categories root defect) (place : NodeId → NodeId) :
    defect.rename place = defect := by
  cases fault with
  | @missing node absent named =>
    have outside : ¬node < tree.size := by
      intro below
      obtain ⟨found, present⟩ := Tree.exists_get?_of_lt_size below
      rw [absent] at present
      cases present
    rcases named with rfl | ⟨owner, -, one⟩
    · exact absurd inside outside
    · exact absurd (closed.children one) outside
  | unexpected reached present misplaced => rfl
  | unhandled reached present childless content unclaimed => rfl

namespace Converter

theorem convert_of_follows {categories : List Category} {options : Options} {unit : SourceUnit}
    {root : Node} {transcript : Transcript} (present : unit.tree.get? unit.root = some root)
    (walked : Run.Follows (Run.walk ((ofCategories Unit categories options).context unit)
      (ofCategories Unit categories options).stages unit.root) transcript) :
    (ofCategories Unit categories options).convert unit =
      conclude root ((ofCategories Unit categories options).leadingImports unit) transcript := by
  simp only [convert, run, present, run_body]
  cases (ofCategories Unit categories options).leadingImports unit with
  | error defect => rfl
  | ok targets =>
    simp only [walked _, Transcript.result, conclude]
    cases transcript.defect with
    | some defect => rfl
    | none => rfl

/-- Where no defect is renamed, renamed nodes and transcripts give the same result. -/
theorem conclude_rename {place : NodeId → NodeId} {root : Node}
    {imports : Except Defect (List String)} {transcript : Transcript}
    (scanned : ∀ defect, imports = .error defect → defect.rename place = defect)
    (walked : ∀ defect, transcript.defect = some defect → defect.rename place = defect) :
    conclude (root.rename place) (imports.mapError (Defect.rename place))
      (transcript.rename place) = conclude root imports transcript := by
  have name : fileName (root.rename place).payload = fileName root.payload := by
    cases held : root.payload <;> simp [Node.rename, held, Payload.rename, fileName]
  cases imports with
  | error defect => exact congrArg Except.error (scanned defect rfl)
  | ok targets =>
    simp only [conclude, Except.mapError, Transcript.rename]
    cases ended : transcript.defect with
    | some defect => exact congrArg Except.error (walked defect ended)
    | none =>
      simp only [Option.map_none, afterImports, name, RunState.playAll_rename]

end Converter

/-! ## Copies -/

/-- The nodes of a tree stand in another one, each at a place of its own, with their handles and
links renamed to the places of the nodes they lead to. -/
structure Tree.Copies (place : NodeId → NodeId) (tree other : Tree) : Prop where
  /-- A node is at its place. -/
  nodes : ∀ {node : NodeId} {found : Node}, tree.get? node = some found →
    other.get? (place node) = some (found.rename place)
  /-- No two nodes have one place. -/
  injective : ∀ {node node' : NodeId}, node < tree.size → node' < tree.size →
    place node = place node' → node = node'

/-- The places of nodes, and places outside the other tree for all other handles. -/
def spread (place : NodeId → NodeId) (tree other : Tree) (node : NodeId) : NodeId :=
  if node < tree.size then place node else other.size + node

theorem spread_of_lt {place : NodeId → NodeId} {tree other : Tree} {node : NodeId}
    (inside : node < tree.size) : spread place tree other node = place node :=
  if_pos inside

namespace Tree.Copies

variable {place : NodeId → NodeId} {tree other : Tree} (copies : tree.Copies place other)

include copies

theorem size_le : tree.size ≤ other.size := by
  have maps : ∀ node ∈ Finset.range tree.size, place node ∈ Finset.range other.size := by
    intro node member
    obtain ⟨found, present⟩ := exists_get?_of_lt_size (Finset.mem_range.mp member)
    exact Finset.mem_range.mpr (lt_size_of_get? (copies.nodes present))
  have fits := Finset.card_le_card_of_injOn place maps fun node inside node' inside' same =>
    copies.injective (Finset.mem_range.mp inside) (Finset.mem_range.mp inside') same
  rwa [Finset.card_range, Finset.card_range] at fits

theorem embeds (closed : tree.Closed) : tree.Embeds (spread place tree other) other := by
  intro node
  by_cases inside : node < tree.size
  · obtain ⟨found, present⟩ := exists_get?_of_lt_size inside
    have renamed : found.rename place = found.rename (spread place tree other) := by
      refine Node.rename_congr (fun child member => ?_) fun parent linked => ?_
      · exact (spread_of_lt (closed.children ⟨_, payload?_of_get? present, member⟩)).symm
      · exact (spread_of_lt (closed.parents ((parent?_of_get? present).trans linked))).symm
    rw [spread_of_lt inside, copies.nodes present, present, renamed]
    rfl
  · have absent : tree.get? node = none := get?_of_size_le (Nat.not_lt.mp inside)
    have outside : other.get? (spread place tree other node) = none := by
      rw [spread, if_neg inside]
      exact get?_of_size_le (Nat.le_add_right _ _)
    rw [absent, outside]
    rfl

end Tree.Copies

/-- The same symbols, bound at the places of the nodes at which they are bound. -/
structure Resolver.Moves (place : NodeId → NodeId) (tree : Tree) (one two : Resolver) : Prop
    extends one.KnowsSame two where
  /-- Names have the same symbols. -/
  symbolAt : ∀ {node : NodeId}, node < tree.size →
    two.symbolAt (place node) = one.symbolAt node
  /-- The types of expressions have the same symbols. -/
  typeSymbolAt : ∀ {node : NodeId}, node < tree.size →
    two.typeSymbolAt (place node) = one.typeSymbolAt node

/-- There is no resolver on either side, or there is one on each and they are related. -/
theorem exists_of_rel {asked asked' : Option Resolver} {related : Resolver → Resolver → Prop}
    (rel : Option.Rel related asked asked') :
    asked = none ∧ asked' = none ∨
      ∃ one two, asked = some one ∧ asked' = some two ∧ related one two := by
  cases rel with
  | none => exact .inl ⟨rfl, rfl⟩
  | some related => exact .inr ⟨_, _, rfl, rfl, related⟩

/-- The context of a copy is that of the tree, renumbered. -/
theorem Converter.renumbers_context {σ : Type} (converter : Converter σ)
    {place : NodeId → NodeId} {tree other : Tree} {root root' : NodeId}
    {resolver resolver' : Option Resolver} (acyclic : tree.Acyclic) (rooted : tree.Rooted)
    (closed : tree.Closed) (copies : tree.Copies place other)
    (moves : Option.Rel (Resolver.Moves place tree) resolver resolver') :
    (converter.context ⟨tree, root, resolver⟩).Renumbers (spread place tree other)
      (converter.context ⟨other, root', resolver'⟩) := by
  let one := converter.context ⟨tree, root, resolver⟩
  let two := converter.context ⟨other, root', resolver'⟩
  have embeds := copies.embeds closed
  have larger := copies.size_le
  have asked : one.resolver = none ∧ two.resolver = none ∨
      ∃ resolver resolver', one.resolver = some resolver ∧ two.resolver = some resolver' ∧
        Resolver.Moves place tree resolver resolver' := by
    apply exists_of_rel
    show Option.Rel _ (if converter.options.useIdioms then resolver else none)
      (if converter.options.useIdioms then resolver' else none)
    split
    · exact moves
    · exact .none
  refine ⟨embeds, ?_, ?_, ?_, rfl, ?_, ?_⟩
  · intro node payload present child member
    exact Tree.exists_get?_of_lt_size (closed.children ⟨payload, present, member⟩)
  · intro node
    -- the climb in the other tree has a larger budget, which is enough for this one as well
    show other.climb other.size (other.parent? _) = _
    rw [embeds.parent?_eq, embeds.climb_eq, rooted.climb_eq larger]
    rfl
  · intro node
    exact (embeds.dottedText?_eq _ node).trans (acyclic.dottedText?_eq larger node)
  · rcases asked with unasked | ⟨resolver, resolver', asked, asked', moves⟩
    · exact .inl unasked
    · refine .inr ⟨resolver, resolver', asked, asked', fun {node found} present name => ?_⟩
      have inside : node < tree.size := Tree.lt_size_of_get? present
      simp only [Context.lookup, spread_of_lt inside, moves.symbolAt inside, ← moves.key]
      rfl
  · intro node found present modulePath name
    have inside : node < tree.size := Tree.lt_size_of_get? present
    show two.isNamedType _ modulePath name = one.isNamedType node modulePath name
    rcases asked with ⟨unasked, unasked'⟩ | ⟨resolver, resolver', asked, asked', moves⟩
    · simp only [Context.isNamedType, unasked, unasked']
    · simp only [Context.isNamedType, asked, asked', spread_of_lt inside,
        moves.typeSymbolAt inside, ← moves.key]
      rfl

/-- **Numbers of nodes do not matter**: a conversion gives the same text, diagnostics or defect in a
tree and in any other tree that holds a copy of its nodes, whatever else that tree holds. -/
theorem convert_renumbered (categories : List Category) (options : Options)
    (place : NodeId → NodeId) (tree other : Tree) (root : NodeId)
    (resolver resolver' : Option Resolver) (acyclic : tree.Acyclic) (rooted : tree.Rooted)
    (closed : tree.Closed) (inside : root < tree.size) (copies : tree.Copies place other)
    (moves : Option.Rel (Resolver.Moves place tree) resolver resolver') :
    (Converter.ofCategories Unit categories options).convert ⟨other, place root, resolver'⟩ =
      (Converter.ofCategories Unit categories options).convert ⟨tree, root, resolver⟩ := by
  let converter := Converter.ofCategories Unit categories options
  let unit : SourceUnit := ⟨tree, root, resolver⟩
  let unit' : SourceUnit := ⟨other, place root, resolver'⟩
  let wide := spread place tree other
  obtain ⟨found, present⟩ := Tree.exists_get?_of_lt_size inside
  have renumbers : (converter.context unit).Renumbers wide (converter.context unit') :=
    converter.renumbers_context acyclic rooted closed copies moves
  have here : wide root = place root := spread_of_lt inside
  have present' : other.get? (place root) = some (found.rename wide) := by
    rw [← here, copies.embeds closed root, present]
    rfl
  have imports : converter.leadingImports unit' =
      (converter.leadingImports unit).mapError (Defect.rename wide) := by
    have needed := renumbers.needed_eq acyclic copies.size_le root
    rw [here] at needed
    simp only [Converter.leadingImports]
    split
    · exact needed
    · rfl
  have walked := renumbers.follows_walk (σ := Unit) categories acyclic copies.size_le root
  rw [here] at walked
  calc converter.convert unit'
    _ = Converter.conclude (found.rename wide)
          ((converter.leadingImports unit).mapError (Defect.rename wide))
          (((converter.context unit).transcript categories root).rename wide) := by
        rw [← imports]
        exact Converter.convert_of_follows present' walked
    _ = Converter.conclude found (converter.leadingImports unit)
          ((converter.context unit).transcript categories root) := by
        apply Converter.conclude_rename
        · intro defect failed
          have fault : Fault tree categories root defect :=
            Converter.fault_of_leadingImports acyclic failed
          exact fault.rename_eq closed inside wide
        · intro defect ended
          exact (Context.fault_of_transcript acyclic ended).rename_eq closed inside wide
    _ = converter.convert unit := (Converter.convert_ofCategories acyclic present).symm

/-- The nodes of `pushCall` in the opposite order, between a block that is in itself and a node with
a dangling handle. -/
def pushCallReversed : Tree where
  nodes := #[⟨.stmt (.block [0, 1]), 0, 0, some 0⟩,
    ⟨.expr (.call 3 [] [2]), 0, 10, none⟩,
    ⟨.literal (.numeric "1"), 8, 9, some 1⟩,
    ⟨.expr (.propertyAccess 5 4), 0, 7, some 1⟩,
    ⟨.name (.identifier "push"), 3, 7, some 3⟩,
    ⟨.name (.identifier "xs"), 0, 2, some 3⟩,
    ⟨.stmt (.exprStmt 90), 0, 0, none⟩]

/-- The method `push` of arrays, bound at its name in `pushCallReversed`. -/
def reversedBindings : Bindings :=
  Bindings.empty.declare "Array" ⟨64⟩ "lib.d.ts"
    |>.declareMember 0 "push" .method
    |>.bind 4 1

theorem pushCall_renumbered :
    pushCall.Copies (5 - ·) pushCallReversed ∧
    (Converter.standard {}).convert ⟨pushCallReversed, 1, some reversedBindings.resolver⟩ =
      (Converter.standard {}).convert ⟨pushCall, 4, some pushBindings.resolver⟩ ∧
    (Converter.standard {}).convert ⟨pushCall, 4, some pushBindings.resolver⟩ =
      .ok ⟨"", " xs . add ( 1 )", []⟩ := by
  have acyclic : pushCall.Acyclic := Tree.acyclic_of_childrenFirst (by decide)
  have ascending : pushCall.Ascending := Tree.ascending_of_links (by decide)
  have closed : pushCall.Closed := by
    have handles : ∀ node ∈ pushCall.nodes, ∀ child ∈ node.payload.children,
        child < pushCall.size := by decide
    refine ⟨?_, fun one => (ascending one).2⟩
    rintro node child ⟨payload, present, member⟩
    obtain ⟨found, held, rfl⟩ := Tree.payload?_eq_some.mp present
    exact handles found (Array.mem_of_getElem? held) child member
  have copies : pushCall.Copies (5 - ·) pushCallReversed := by
    constructor
    · intro node found present
      have inside : node < 5 := Tree.lt_size_of_get? present
      interval_cases node <;> cases present <;> rfl
    · have distinct : ∀ node node' : Nat, node < 5 → node' < 5 → 5 - node = 5 - node' →
          node = node' := by
        intro node node' inside inside' same
        omega
      intro node node' inside inside' same
      exact distinct node node' inside inside' same
  have moves : Resolver.Moves (5 - ·) pushCall pushBindings.resolver reversedBindings.resolver := by
    let unbound := Bindings.empty.declare "Array" ⟨64⟩ "lib.d.ts" |>.declareMember 0 "push" .method
    have one := unbound.sameSymbols_bind 1 1
    have two := unbound.sameSymbols_bind 4 1
    refine ⟨⟨fun id => rfl, fun id => rfl, fun id => ?_⟩, fun {node} inside => ?_, fun _ => rfl⟩
    · exact (one.qualifiedName id).trans (two.qualifiedName id).symm
    · have inside : node < 5 := inside
      interval_cases node <;> rfl
  refine ⟨copies, ?_, by decide⟩
  exact convert_renumbered Category.all {} (5 - ·) pushCall pushCallReversed 4 _ _ acyclic
    ascending.rooted closed (by decide) copies (.some moves)

end Dartify
