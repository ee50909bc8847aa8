import Dartify.Proofs.Walk

/-!
# The order of built-in stages

Built-in stages stand for disjoint categories of nodes, and a stage that declines a node leaves
the run as it was.  So it makes no difference to a run in which order the built-in stages stand, how
often one of them stands in the chain, and which idle stages stand between them
(`run_chain_order`).  This holds for incomplete chains as well, in which nodes that no stage claims
are passed through and childless ones stop the run.

An idle stage is offered nodes and claims none.  A chain is *woven* from categories when it has
their stages in order and idle stages anywhere.  Idle stages are taken out first
(`Run.walkWithin_woven`).  What is left depends on the categories only as a set
(`Context.planAt_of_mem_iff`).
-/

namespace Dartify

variable {σ : Type} {categories first second : List Category} {stages others : List (Stage σ)}

/-! ## Idle stages -/

namespace Stage

/-- The stage claims no node, and being offered one changes nothing. -/
def Idle (stage : Stage σ) : Prop :=
  ∀ (context : Context) (walk : NodeId → Run σ Unit) (node : NodeId) (found : Node)
    (state : RunState σ),
    (stage.attempt context walk node found).run.run state = (.ok false, state)

/-- The built-in stages of categories in their order, with idle stages anywhere. -/
inductive Woven : List Category → List (Stage σ) → Prop where
  /-- No stage. -/
  | nil : Woven [] []
  /-- The built-in stage of a category in front. -/
  | builtIn (category : Category) {categories : List Category} {stages : List (Stage σ)}
      (rest : Woven categories stages) :
      Woven (category :: categories) (category.stage σ :: stages)
  /-- An idle stage in front. -/
  | idle {stage : Stage σ} (idle : stage.Idle) {categories : List Category}
      {stages : List (Stage σ)} (rest : Woven categories stages) :
      Woven categories (stage :: stages)

/-- To be offered a node is nothing at all for an idle stage. -/
theorem Idle.attempt_eq {stage : Stage σ} (idle : stage.Idle) (context : Context)
    (walk : NodeId → Run σ Unit) (node : NodeId) (found : Node) :
    stage.attempt context walk node found = pure false := by
  apply ExceptT.ext
  funext state
  exact idle context walk node found state

end Stage

namespace Run

/-- Idle stages can be left out of an offer. -/
theorem offer_woven (woven : Stage.Woven categories stages) (context : Context)
    (walk : NodeId → Run σ Unit) (node : NodeId) (found : Node) :
    offer context walk node found stages =
      offer context walk node found (categories.map (Category.stage σ)) := by
  induction woven with
  | nil => rfl
  | builtIn category rest ih => rw [List.map_cons, offer, offer, ih]
  | idle idle rest ih =>
    rw [offer, idle.attempt_eq, pure_bind, ih]
    rfl

/-- Idle stages can be left out of a walk. -/
theorem walkWithin_woven (woven : Stage.Woven categories stages) (context : Context)
    (budget : Nat) (node : NodeId) :
    walkWithin context stages budget node =
      walkWithin context (categories.map (Category.stage σ)) budget node := by
  induction budget generalizing node with
  | zero => rfl
  | succ budget ih =>
    cases present : context.tree.get? node with
    | none => simp only [walkWithin, present]
    | some found => simp only [walkWithin, present, funext ih, offer_woven woven]

/-- A walk with a woven chain does what the transcript for its categories lists. -/
theorem follows_walk_woven {context : Context} (woven : Stage.Woven categories stages)
    (acyclic : context.tree.Acyclic) (node : NodeId) :
    Follows (walk context stages node) (context.transcript categories node) := by
  have enough := rank_lt_budget stages.length context.tree node
  rw [walk, walkWithin_woven woven, ← Context.transcriptWithin_eq acyclic enough]
  exact follows_walkWithin context categories _ node

end Run

/-! ## Categories as a set -/

namespace Context

variable (context : Context) (same : ∀ category, category ∈ first ↔ category ∈ second)

include same

/-- The plan of a node depends on which categories are in the chain. -/
theorem planAt_of_mem_iff (node : NodeId) (found : Node) :
    context.planAt first node found = context.planAt second node found := by
  rcases context.planAt_cases second node found with
    ⟨passed, unclaimed⟩ | ⟨category, member, planned⟩
  · rw [passed]
    refine planAt_of_unclaimed context node fun category member => ?_
    exact unclaimed category ((same category).mp member)
  · exact planAt_of_mem ((same category).mpr member) planned

theorem transcript_of_mem_iff (node : NodeId) :
    context.transcript first node = context.transcript second node := by
  have within : ∀ (budget : Nat) (node : NodeId),
      context.transcriptWithin first budget node = context.transcriptWithin second budget node := by
    intro budget
    induction budget with
    | zero => exact fun node => rfl
    | succ budget ih =>
      intro node
      simp only [transcriptWithin, funext ih, context.planAt_of_mem_iff same]
  exact within _ node

end Context

/-! ## Runs -/

/-- Two chains of built-in stages with the same members give the same run: the same conversion or
defect and the same state, for every order of the members, any repetitions, and any idle stages
between them. -/
theorem run_chain_order (woven : Stage.Woven first stages) (woven' : Stage.Woven second others)
    (same : ∀ category, category ∈ first ↔ category ∈ second) (options : Options)
    (unit : SourceUnit) (acyclic : unit.tree.Acyclic) (user : σ) :
    (Converter.mk stages options).run unit user = (Converter.mk others options).run unit user := by
  have contexts : (Converter.mk stages options).context unit =
      (Converter.mk others options).context unit := rfl
  have imports : (Converter.mk stages options).leadingImports unit =
      (Converter.mk others options).leadingImports unit := rfl
  have walks : ∀ state : RunState σ,
      (Run.walk ((Converter.mk stages options).context unit) stages unit.root).run.run state =
        (Run.walk ((Converter.mk others options).context unit) others unit.root).run.run state := by
    intro state
    rw [Run.follows_walk_woven woven acyclic unit.root state,
      Run.follows_walk_woven woven' acyclic unit.root state, contexts,
      Context.transcript_of_mem_iff _ same]
  simp only [Converter.run, Converter.run_body, imports, walks]

/-- A stage that only declines. -/
def Stage.decline : Stage Unit where
  name := "decline"
  attempt _ _ _ _ := return false

/-- The call `f(1)`. -/
def numberCall : Tree :=
  { nodes := #[⟨.name (.identifier "f"), 0, 1, some 2⟩,
      ⟨.literal (.numeric "1"), 2, 3, some 2⟩,
      ⟨.expr (.call 0 [] [1]), 0, 4, none⟩] }

/-- With only literals and names in the chain the call is passed through, in both orders. -/
theorem numberCall_chain_order :
    numberCall.Acyclic ∧
    (Converter.mk [Category.types.stage Unit, Category.literals.stage Unit] {}).run
        ⟨numberCall, 2, none⟩ () = (.ok ⟨"", " f 1", []⟩, ()) ∧
    (Converter.mk [.decline, Category.literals.stage Unit, .decline, Category.types.stage Unit,
        Category.literals.stage Unit] {}).run ⟨numberCall, 2, none⟩ () =
      (Converter.mk [Category.types.stage Unit, Category.literals.stage Unit] {}).run
        ⟨numberCall, 2, none⟩ () := by
  have acyclic : numberCall.Acyclic := Tree.acyclic_of_childrenFirst (by decide)
  have idle : Stage.decline.Idle := fun _ _ _ _ _ => rfl
  have mixed : Stage.Woven [.literals, .types, .literals]
      [.decline, Category.literals.stage Unit, .decline, Category.types.stage Unit,
        Category.literals.stage Unit] :=
    .idle idle (.builtIn .literals (.idle idle (.builtIn .types (.builtIn .literals .nil))))
  have short : Stage.Woven [.types, .literals]
      [Category.types.stage Unit, Category.literals.stage Unit] :=
    .builtIn .types (.builtIn .literals .nil)
  have same : ∀ category : Category,
      category ∈ [Category.literals, .types, .literals] ↔
        category ∈ [Category.types, .literals] := by
    intro category
    cases category <;> decide
  refine ⟨acyclic, by decide, ?_⟩
  exact run_chain_order mixed short same {} ⟨numberCall, 2, none⟩ acyclic ()

end Dartify
