import Dartify.Proofs.Ancestry
import Dartify.Proofs.Candidates
import Dartify.Proofs.Soundness
import Dartify.Proofs.Visits
import Mathlib.Logic.Function.Iterate
import Mathlib.Tactic.IntervalCases

/-!
# Termination

Five recursions make up a conversion: the walk, the scan for imports, the climb along parent links,
the reading of dotted names, and what a resolver follows from symbol to symbol.  Each has a budget.
This module shows that the budgets are never used up where handles, parent links and containers run
in no circle, so that they could be left out: any larger budget gives the same
(`conversion_terminates`).

For the walk the reason is that visiting a node depends only on the walks of the nodes below it
(`Run.visit_congr`).  So a visit unrolled more often than there are nodes no longer depends on what
it is unrolled from, and walking is the only solution of its own equation.
-/

namespace Dartify

open Relation

/-- Along steps that make no circle there are no more places than the rank of the first, and one. -/
theorem Descends.length_le {step : Nat → Nat → Prop} {size : Nat} (descends : Descends step size)
    {place : Nat} {rest : List Nat} (trail : (place :: rest).IsChain step) :
    (place :: rest).length ≤ rank step size place + 1 := by
  induction rest generalizing place with
  | nil => exact Nat.le_add_left _ _
  | cons next rest ih =>
    obtain ⟨one, onward⟩ := List.isChain_cons_cons.mp trail
    have lower := descends.rank_lt one
    have shorter := ih onward
    rw [List.length_cons]
    omega

/-! ## Dotted names -/

namespace Tree

variable {tree : Tree}

/-- Two budgets for all nodes below give the same dotted text. -/
theorem Acyclic.dottedText?_congr (acyclic : tree.Acyclic) (node : NodeId) {small large : Nat}
    (small_enough : tree.rank node ≤ small) (large_enough : tree.rank node ≤ large) :
    tree.dottedText? small node = tree.dottedText? large node := by
  refine acyclic.descends.congr_of_rank_le tree.dottedText? ?_ ?_ node small_enough large_enough
  · have nothing : ∀ {node}, tree.size ≤ node → ∀ budget, tree.dottedText? budget node = none := by
      intro node outside budget
      cases budget <;> simp only [dottedText?, get?_of_size_le outside]
    intro node outside budget budget'
    rw [nothing outside, nothing outside]
  · intro node small large same
    simp only [dottedText?]
    split
    · rfl
    · rename_i left right pos stop parent present
      have below : tree.Below node left :=
        below_of_mem (payload?_of_get? present) (List.mem_cons_self ..)
      rw [same left below]
    · rfl

theorem Acyclic.dottedText?_eq (acyclic : tree.Acyclic) {budget : Nat}
    (enough : tree.size ≤ budget) (node : NodeId) :
    tree.dottedText? budget node = tree.entityText? node := by
  have bounded : tree.rank node ≤ tree.size := rank_le_size node
  exact acyclic.dottedText?_congr node (Nat.le_trans bounded enough) bounded

end Tree

/-! ## The walk -/

/-- Nested visits go down. -/
theorem Context.descends_walkStep {context : Context} (categories : List Category)
    (acyclic : context.tree.Acyclic) :
    Descends (context.WalkStep categories) context.tree.size := by
  refine ⟨fun ⟨_, present, _⟩ => Tree.lt_size_of_get? present, fun node loop => ?_⟩
  have below : ∀ {other}, TransGen (context.WalkStep categories) node other →
      context.tree.Below node other := by
    intro other path
    induction path with
    | single step => exact step.below
    | tail _ step ih => exact ih.trans step.below
  exact acyclic node (below loop)

namespace Run

variable {σ : Type} {context : Context} {categories : List Category}

/-- A plan depends on the walks of the nodes that it walks, and on no others. -/
theorem perform_congr {walk walk' : NodeId → Run σ Unit} {plan : Plan}
    (same : ∀ node, .child node ∈ plan → walk node = walk' node) :
    perform context walk plan = perform context walk' plan := by
  induction plan with
  | nil => rfl
  | cons directive rest ih =>
    have first : direct context walk directive = direct context walk' directive := by
      cases directive with
      | child node => exact same node (List.mem_cons_self ..)
      | _ => rfl
    have others := ih fun node member => same node (List.mem_cons_of_mem _ member)
    simp only [perform, first, others]

/-- Visiting a node depends on the walks of the nodes below it, and on no others. -/
theorem visit_congr {walk walk' : NodeId → Run σ Unit} {node : NodeId}
    (same : ∀ other, context.tree.Below node other → walk other = walk' other) :
    visit context (categories.map (Category.stage σ)) walk node =
      visit context (categories.map (Category.stage σ)) walk' node := by
  cases present : context.tree.get? node with
  | none => simp only [visit, present]
  | some found =>
    rw [visit_stages categories walk present, visit_stages categories walk' present]
    exact perform_congr fun child member => same child (Context.below_of_planAt present member)

theorem walkWithin_eq_iterate (stages : List (Stage σ)) (budget : Nat) :
    walkWithin context stages budget =
      (visit context stages)^[budget] fun _ => throw .exhausted := by
  induction budget with
  | zero => rfl
  | succ budget ih =>
    rw [Function.iterate_succ_apply', ← ih]
    rfl

/-- Visits unrolled more often than the rank of a node agree there, whatever they start from. -/
theorem iterate_visit_congr (acyclic : context.tree.Acyclic) (bottom bottom' : NodeId → Run σ Unit)
    (node : NodeId) {small large : Nat} (small_enough : context.tree.rank node < small)
    (large_enough : context.tree.rank node < large) :
    (visit context (categories.map (Category.stage σ)))^[small] bottom node =
      (visit context (categories.map (Category.stage σ)))^[large] bottom' node := by
  refine acyclic.descends.congr_of_rank_lt
    (fun fuel => (visit context (categories.map (Category.stage σ)))^[fuel] bottom)
    (fun fuel => (visit context (categories.map (Category.stage σ)))^[fuel] bottom') ?_ node
    small_enough large_enough
  intro node small large same
  rw [Function.iterate_succ_apply', Function.iterate_succ_apply']
  exact visit_congr same

/-- A visit unrolled more often than there are nodes is a walk, whatever it starts from. -/
theorem iterate_visit_eq_walk (acyclic : context.tree.Acyclic) {fuel : Nat}
    (enough : context.tree.size < fuel) (bottom : NodeId → Run σ Unit) :
    (visit context (categories.map (Category.stage σ)))^[fuel] bottom =
      walk context (categories.map (Category.stage σ)) := by
  funext node
  have bounded : context.tree.rank node ≤ context.tree.size := Tree.rank_le_size node
  rw [walk, walkWithin_eq_iterate]
  exact iterate_visit_congr acyclic _ _ node (by omega) (rank_lt_budget _ _ node)

/-- Walking is the one solution of the equation that walking a node is visiting it. -/
theorem visit_eq_self_iff (acyclic : context.tree.Acyclic) (solution : NodeId → Run σ Unit) :
    visit context (categories.map (Category.stage σ)) solution = solution ↔
      solution = walk context (categories.map (Category.stage σ)) := by
  have enough : context.tree.size < context.tree.size + 1 := Nat.lt_succ_self _
  constructor
  · intro solves
    rw [← iterate_visit_eq_walk acyclic enough solution, Function.iterate_fixed solves]
  · rintro rfl
    rw [← iterate_visit_eq_walk acyclic enough fun _ => throw .exhausted,
      ← Function.iterate_succ_apply' (visit context _), iterate_visit_eq_walk acyclic enough,
      iterate_visit_eq_walk acyclic (Nat.lt_succ_of_lt enough)]

theorem walkWithin_eq_walk (acyclic : context.tree.Acyclic) {fuel : Nat}
    (enough : context.tree.size < fuel) :
    walkWithin context (categories.map (Category.stage σ)) fuel =
      walk context (categories.map (Category.stage σ)) := by
  rw [walkWithin_eq_iterate]
  exact iterate_visit_eq_walk acyclic enough _

end Run

/-! ## The scan for imports -/

namespace Import

variable {context : Context}

theorem foldlM_congr {scan scan' : List String → NodeId → Except Defect (List String)}
    {nodes : List NodeId} (same : ∀ node ∈ nodes, ∀ targets, scan targets node = scan' targets node)
    (targets : List String) : nodes.foldlM scan targets = nodes.foldlM scan' targets := by
  induction nodes generalizing targets with
  | nil => rfl
  | cons node rest ih =>
    have others := ih fun other member => same other (List.mem_cons_of_mem _ member)
    rw [List.foldlM_cons, List.foldlM_cons, same node List.mem_cons_self]
    cases scan' targets node with
    | error defect => rfl
    | ok after => exact others after

/-- Two budgets above the rank of a node give the same scan. -/
theorem collect_congr (acyclic : context.tree.Acyclic) (node : NodeId) {small large : Nat}
    (small_enough : context.tree.rank node < small)
    (large_enough : context.tree.rank node < large) (targets : List String) :
    collect context small targets node = collect context large targets node := by
  have scans : (collect context small · node) = (collect context large · node) := by
    refine acyclic.descends.congr_of_rank_lt (fun budget node => (collect context budget · node))
      (fun budget node => (collect context budget · node)) ?_ node small_enough large_enough
    intro node small large same
    funext targets
    simp only [collect]
    cases present : context.tree.get? node with
    | none => rfl
    | some found =>
      refine foldlM_congr (fun child member targets => ?_) _
      have below := Tree.below_of_mem (Tree.payload?_of_get? present) member
      exact congrFun (same child below) targets
  exact congrFun scans targets

/-- The targets needed below a node, for nodes nested at most `fuel` deep. -/
def neededWithin (context : Context) (fuel : Nat) (root : NodeId) :
    Except Defect (List String) :=
  if context.catalog.imports.isEmpty then .ok [] else collect context fuel [] root

theorem neededWithin_eq (acyclic : context.tree.Acyclic) {fuel : Nat}
    (enough : context.tree.size < fuel) (root : NodeId) :
    neededWithin context fuel root = needed context root := by
  have bounded : context.tree.rank root ≤ context.tree.size := Tree.rank_le_size root
  unfold neededWithin needed
  rw [collect_congr acyclic root (show _ < fuel by omega) (Nat.lt_succ_of_le bounded)]

end Import

/-! ## Conversions -/

/-- Writes the extra imports that are needed below a node, for nodes nested at most `fuel` deep. -/
def Run.writeImportsWithin {σ : Type} (context : Context) (fuel : Nat) (root : NodeId) :
    Run σ Unit :=
  match Import.neededWithin context fuel root with
  | .error defect => throw defect
  | .ok targets => writeImportsOf targets

theorem Run.writeImportsWithin_eq {σ : Type} {context : Context} (acyclic : context.tree.Acyclic)
    {fuel : Nat} (enough : context.tree.size < fuel) (root : NodeId) :
    (writeImportsWithin context fuel root : Run σ Unit) = writeImports context root := by
  have scanned := Import.neededWithin_eq acyclic enough root
  cases found : Import.needed context root <;>
    simp only [writeImportsWithin, writeImports, scanned, found]

namespace Converter

variable {σ : Type}

/-- The extra imports, if they are wanted, and then the walk from the root, each with so much
fuel. -/
def bodyWithin (converter : Converter σ) (fuel : Nat) (unit : SourceUnit) : Run σ Unit := do
  if converter.options.emitExtraImports then
    Run.writeImportsWithin (converter.context unit) fuel unit.root
  Run.walkWithin (converter.context unit) converter.stages fuel unit.root

/-- Converts a unit with so much fuel for every recursion along handles. -/
def convertWithin (converter : Converter Unit) (fuel : Nat) (unit : SourceUnit) :
    Except Defect Conversion :=
  match unit.tree.get? unit.root with
  | none => .error (.missing unit.root)
  | some root =>
    let name := fileName root.payload
    match (converter.bodyWithin fuel unit).run.run { report := ⟨name, []⟩, user := () } with
    | (.ok (), final) => .ok ⟨name, final.output.text, final.report.diagnostics⟩
    | (.error defect, _) => .error defect

variable {categories : List Category} {options : Options} {unit : SourceUnit}

theorem bodyWithin_eq (acyclic : unit.tree.Acyclic) {fuel : Nat} (enough : unit.tree.size < fuel) :
    (ofCategories σ categories options).bodyWithin fuel unit =
      (ofCategories σ categories options).body unit := by
  let converter := ofCategories σ categories options
  have imported : Run.writeImportsWithin (converter.context unit) fuel unit.root =
      (Run.writeImports (converter.context unit) unit.root : Run σ Unit) :=
    Run.writeImportsWithin_eq acyclic enough unit.root
  have walked : Run.walkWithin (converter.context unit) converter.stages fuel =
      Run.walk (converter.context unit) converter.stages :=
    Run.walkWithin_eq_walk acyclic enough
  show converter.bodyWithin fuel unit = converter.body unit
  rw [bodyWithin, body, imported, walked]

theorem convertWithin_eq (acyclic : unit.tree.Acyclic) {fuel : Nat}
    (enough : unit.tree.size < fuel) :
    (ofCategories Unit categories options).convertWithin fuel unit =
      (ofCategories Unit categories options).convert unit := by
  unfold convertWithin convert run
  rw [bodyWithin_eq acyclic enough]
  cases unit.tree.get? unit.root with
  | none => rfl
  | some root =>
    dsimp only
    split <;> simp_all

theorem convert_ne_exhausted (acyclic : unit.tree.Acyclic) :
    (ofCategories Unit categories options).convert unit ≠ .error .exhausted := by
  intro failed
  cases fault_of_convert acyclic failed

end Converter

/-- **Termination**: where handles, parent links and containers run in no circle, a visit leads only
to nodes below and depends on nothing else, so that visits are nested at most one deeper than there
are nodes.  Every recursion of a conversion gives one result with any fuel above the number of nodes
or of symbols, walking is the only solution of its equation, and no conversion runs out of fuel. -/
theorem conversion_terminates (categories : List Category) (options : Options) (tree : Tree)
    (root : NodeId) (bindings : Option Bindings) (acyclic : tree.Acyclic) (rooted : tree.Rooted)
    (contained : ∀ known ∈ bindings, ∀ id, ¬TransGen known.ParentStep id id) :
    let converter := Converter.ofCategories Unit categories options
    let unit : SourceUnit := ⟨tree, root, bindings.map Bindings.resolver⟩
    let context := converter.context unit
    (∀ node other, context.WalkStep categories node other → tree.Below node other) ∧
    (∀ node (walk walk' : NodeId → Run Unit Unit),
      (∀ other, tree.Below node other → walk other = walk' other) →
        Run.visit context converter.stages walk node =
          Run.visit context converter.stages walk' node) ∧
    (∀ trail : List NodeId, trail.IsChain (context.WalkStep categories) →
      trail.length ≤ tree.size + 1) ∧
    (∀ fuel, tree.size < fuel →
      (∀ bottom, (Run.visit context converter.stages)^[fuel] bottom =
        Run.walk context converter.stages) ∧
      (∀ node, tree.climb fuel (tree.parent? node) = tree.ancestors node ∧
        tree.dottedText? fuel node = tree.entityText? node) ∧
      converter.convertWithin fuel unit = converter.convert unit) ∧
    (∀ known ∈ bindings, ∀ fuel, known.symbols.size < fuel → ∀ id,
      known.namesUp fuel (some id) = known.namesUp known.symbols.size (some id) ∧
      known.resolver.follow fuel [id] id = known.resolver.terminal id) ∧
    (∀ walk, Run.visit context converter.stages walk = walk ↔
      walk = Run.walk context converter.stages) ∧
    converter.convert unit ≠ .error .exhausted := by
  intro converter unit context
  refine ⟨fun node other => Context.WalkStep.below, fun node walk walk' same => ?_, ?_, ?_, ?_,
    Run.visit_eq_self_iff acyclic, Converter.convert_ne_exhausted acyclic⟩
  · exact Run.visit_congr same
  · intro trail chain
    cases trail with
    | nil => exact Nat.zero_le _
    | cons node rest =>
      have descends : Descends (context.WalkStep categories) tree.size :=
        Context.descends_walkStep categories acyclic
      exact Nat.le_trans (descends.length_le chain) (Nat.succ_le_succ (rank_le_size node))
  · intro fuel enough
    have wide : tree.size ≤ fuel := Nat.le_of_lt enough
    refine ⟨Run.iterate_visit_eq_walk acyclic enough, fun node => ?_,
      Converter.convertWithin_eq acyclic enough⟩
    exact ⟨rooted.climb_eq wide _, acyclic.dottedText?_eq wide node⟩
  · intro known member fuel enough id
    exact ⟨Bindings.namesUp_eq (contained known member) (Nat.le_of_lt enough) id,
      known.resolver.follow_eq_terminal enough id⟩

/-- A block in which one call stands twice and a handle leads nowhere. -/
def repeatedCall : Tree where
  nodes := #[⟨.name (.identifier "f"), 0, 1, some 1⟩,
    ⟨.expr (.call 0 [] [0]), 0, 4, some 2⟩,
    ⟨.stmt (.block [1, 1, 9]), 0, 9, none⟩]

/-- Two aliases of each other, and a member of the first. -/
def mutualAliases : Bindings :=
  Bindings.empty.declareAlias "f" 1 "a.ts" |>.declareAlias "g" 0 "b.ts"
    |>.declareMember 0 "h" .method |>.bind 0 0

/-- A shared node, a dangling handle and a circle of aliases do no harm. -/
theorem repeatedCall_terminates :
    repeatedCall.Acyclic ∧ repeatedCall.Rooted ∧
    (∀ id, ¬TransGen mutualAliases.ParentStep id id) ∧
    (Converter.standard {}).convertWithin 4 ⟨repeatedCall, 2, some mutualAliases.resolver⟩ =
      (Converter.standard {}).convert ⟨repeatedCall, 2, some mutualAliases.resolver⟩ ∧
    (Converter.standard {}).convert ⟨repeatedCall, 2, some mutualAliases.resolver⟩ =
      .error (.missing 9) ∧
    mutualAliases.resolver.follow 9 [0] 0 = mutualAliases.resolver.terminal 0 ∧
    mutualAliases.resolver.terminal 0 = 1 := by
  have acyclic : repeatedCall.Acyclic := Tree.acyclic_of_childrenFirst (by decide)
  have ascending : repeatedCall.Ascending := Tree.ascending_of_links (by decide)
  have contained : ∀ id, ¬TransGen mutualAliases.ParentStep id id := by
    refine Bindings.rooted_of_lt ?_
    rintro id parent ⟨symbol, present, within⟩
    have inside : id < 3 := (Array.getElem?_eq_some_iff.mp present).1
    interval_cases id <;> cases present <;> cases within
    decide
  obtain ⟨-, -, -, fuels, symbols, -⟩ := conversion_terminates Category.all {} repeatedCall 2
    (some mutualAliases) acyclic ascending.rooted (by rintro _ ⟨⟩; exact contained)
  exact ⟨acyclic, ascending.rooted, contained, (fuels 4 (by decide)).2.2, by decide,
    (symbols mutualAliases rfl 9 (by decide) 0).2, by decide⟩

end Dartify
