import Dartify.Proofs.Descent
import Dartify.Run

/-!
# Chains of built-in stages

A built-in stage writes the nodes of its category by a plan and declines all others, and no payload
has two categories.  So a chain of built-in stages has one plan for each node: the plan of the
node's form when its category is in the chain, and otherwise the plan that passes through it.
`Context.planAt` is that plan, and walking a node is carrying it out (`Run.walkWithin_succ`).
-/

namespace Dartify

/-- The category whose stage writes a payload. -/
def Payload.category? : Payload → Option Category
  | .sourceFile _ _ => none
  | .name _ => some .types
  | .literal _ => some .literals
  | .expr _ => some .expressions
  | .stmt _ => some .statements
  | .type _ => some .types
  | .decl _ => some .declarations

theorem Category.plan?_isSome_iff (context : Context) (node : NodeId) {category : Category}
    {payload : Payload} :
    (category.plan? context node payload).isSome = true ↔ payload.category? = some category := by
  cases category <;> cases payload <;> simp [Category.plan?, Payload.category?]

/-- The plan that passes through a node, and stops at a childless one. -/
def passPlan (found : Node) : Plan :=
  if found.payload.children.isEmpty && !Run.isSourceFile found.payload then
    [.abort (.unhandled found.payload.kind found.pos)]
  else Plan.each found.payload.children

namespace Context

/-- The plan that a chain of built-in stages has for a node. -/
def planAt (context : Context) (categories : List Category) (node : NodeId) (found : Node) :
    Plan :=
  (categories.findSome? fun category => category.plan? context node found.payload).getD
    (passPlan found)

/-- A node is passed through when its category is not in the chain, and otherwise has the plan of
its form. -/
theorem planAt_cases (context : Context) (categories : List Category) (node : NodeId)
    (found : Node) :
    (context.planAt categories node found = passPlan found ∧
      ∀ category ∈ categories, found.payload.category? ≠ some category) ∨
    ∃ category ∈ categories,
      category.plan? context node found.payload = some (context.planAt categories node found) := by
  unfold planAt
  cases claimed : categories.findSome? fun category =>
      category.plan? context node found.payload with
  | none =>
    refine .inl ⟨rfl, fun category member same => ?_⟩
    have declined := List.findSome?_eq_none_iff.mp claimed category member
    have claims := (Category.plan?_isSome_iff context node).mpr same
    rw [declined] at claims
    cases claims
  | some plan =>
    obtain ⟨category, member, planned⟩ := List.exists_of_findSome?_eq_some claimed
    exact .inr ⟨category, member, planned⟩

/-- A node whose category is in the chain has the plan of its form, wherever the category stands
and however often. -/
theorem planAt_of_mem {context : Context} {categories : List Category} {category : Category}
    {node : NodeId} {found : Node} {plan : Plan} (member : category ∈ categories)
    (planned : category.plan? context node found.payload = some plan) :
    context.planAt categories node found = plan := by
  have claims : found.payload.category? = some category :=
    (Category.plan?_isSome_iff context node).mp (by rw [planned]; rfl)
  rcases context.planAt_cases categories node found with ⟨-, unclaimed⟩ | ⟨other, -, planned'⟩
  · exact absurd claims (unclaimed category member)
  · -- no other category has a plan for the payload
    have same : found.payload.category? = some other :=
      (Category.plan?_isSome_iff context node).mp (by rw [planned']; rfl)
    cases claims.symm.trans same
    exact Option.some.inj (planned'.symm.trans planned)

/-- A node whose category is not in the chain is passed through. -/
theorem planAt_of_unclaimed (context : Context) {categories : List Category} (node : NodeId)
    {found : Node}
    (unclaimed : ∀ category ∈ categories, found.payload.category? ≠ some category) :
    context.planAt categories node found = passPlan found := by
  rcases context.planAt_cases categories node found with ⟨passed, -⟩ | ⟨category, member, planned⟩
  · exact passed
  · have claims : found.payload.category? = some category :=
      (Category.plan?_isSome_iff context node).mp (by rw [planned]; rfl)
    exact absurd claims (unclaimed category member)

end Context

/-! ## Walking carries out plans -/

namespace Run

variable {σ : Type} (context : Context)

theorem walkEach_eq_perform (walk : NodeId → Run σ Unit) (nodes : List NodeId) :
    walkEach walk nodes = perform context walk (Plan.each nodes) := by
  induction nodes with
  | nil => rfl
  | cons node rest ih =>
    simp only [walkEach, ih, Plan.each, List.map_cons, perform, direct]

theorem perform_abort (walk : NodeId → Run σ Unit) (defect : Defect) :
    perform context walk [.abort defect] = throw defect := by
  simp only [perform, direct]
  rfl

theorem passThrough_eq_perform (walk : NodeId → Run σ Unit) (found : Node) :
    passThrough walk found = perform context walk (passPlan found) := by
  unfold passThrough passPlan
  split
  · rw [perform_abort]
  · rw [walkEach_eq_perform]

/-- A chain of built-in stages carries out the first plan that one of them has. -/
theorem offer_stages (walk : NodeId → Run σ Unit) (node : NodeId) (found : Node)
    (categories : List Category) :
    offer context walk node found (categories.map (Category.stage σ)) =
      match categories.findSome? fun category => category.plan? context node found.payload with
      | some plan => do
        perform context walk plan
        pure true
      | none => pure false := by
  induction categories with
  | nil => rfl
  | cons category rest ih =>
    simp only [List.map_cons, offer, Category.stage, List.findSome?_cons]
    cases category.plan? context node found.payload with
    | some plan => simp
    | none => simp [ih]

/-- Visits a node, where `walk` is what walking another node means. -/
def visit (stages : List (Stage σ)) (walk : NodeId → Run σ Unit) (node : NodeId) : Run σ Unit :=
  match context.tree.get? node with
  | none => throw (.missing node)
  | some found => do
    if ← offer context walk node found stages then pure ()
    else passThrough walk found

variable {context}

/-- Visiting a node that is there carries out its plan. -/
theorem visit_stages (categories : List Category) (walk : NodeId → Run σ Unit) {node : NodeId}
    {found : Node} (present : context.tree.get? node = some found) :
    visit context (categories.map (Category.stage σ)) walk node =
      perform context walk (context.planAt categories node found) := by
  simp only [visit, present, offer_stages, Context.planAt]
  cases categories.findSome? fun category => category.plan? context node found.payload with
  | some plan => simp
  | none => simp [passThrough_eq_perform context]

/-- Walking a node that is there carries out its plan, with the budget that is left for its
children. -/
theorem walkWithin_succ (categories : List Category) (budget : Nat) {node : NodeId} {found : Node}
    (present : context.tree.get? node = some found) :
    walkWithin context (categories.map (Category.stage σ)) (budget + 1) node =
      perform context (walkWithin context (categories.map (Category.stage σ)) budget)
        (context.planAt categories node found) :=
  visit_stages categories (walkWithin context _ budget) present

end Run

end Dartify
