import Dartify.Proofs.Descent
import Mathlib.Data.List.Chain
import Mathlib.Order.Bounds.Basic

/-!
# Ancestors

Parent links are kept beside the handles of a tree, and need not match them.  A tree is
`Tree.Rooted` when no links run in a circle.  Then the number of nodes is budget enough for every
climb along them (`Tree.Rooted.climb_eq`), and the ancestors of a node are its parent and the
ancestors of the parent (`Tree.Rooted.ancestors_eq`).

The last section is about trees in which every link leads to a later node of the table.  There the
ancestors are the nodes above (`Tree.Ascending.mem_ancestors_iff`), listed in increasing order up to
a node without a parent, and a question about ancestors is a question about the nodes above.
-/

namespace Dartify.Tree

open Relation

variable {tree : Tree}

/-! ## Links without circles -/

/-- The parent link of a node leads to another one. -/
def ParentStep (tree : Tree) (node parent : NodeId) : Prop :=
  tree.parent? node = some parent

/-- Parent links lead from a node to another one. -/
def Above (tree : Tree) : NodeId → NodeId → Prop := TransGen tree.ParentStep

/-- No parent links run in a circle. -/
def Rooted (tree : Tree) : Prop := ∀ node, ¬tree.Above node node

theorem exists_get?_of_lt_size {node : NodeId} (inside : node < tree.size) :
    ∃ found, tree.get? node = some found :=
  ⟨_, Array.getElem?_eq_getElem inside⟩

theorem parent?_of_get? {node : NodeId} {found : Node} (present : tree.get? node = some found) :
    tree.parent? node = found.parent := by
  simp [parent?, present]

theorem ParentStep.lt_size {node parent : NodeId} (one : tree.ParentStep node parent) :
    node < tree.size := by
  obtain ⟨found, present, -⟩ := Option.bind_eq_some_iff.mp one
  exact lt_size_of_get? present

theorem Rooted.descends (rooted : tree.Rooted) : Descends tree.ParentStep tree.size :=
  ⟨fun one => one.lt_size, rooted⟩

@[simp] theorem climb_none (budget : Nat) : tree.climb budget none = [] := by
  cases budget <;> rfl

theorem climb_of_absent {node : NodeId} (absent : tree.get? node = none) (budget : Nat) :
    tree.climb budget (some node) = [] := by
  cases budget with
  | zero => rfl
  | succ budget => simp only [climb, absent]

/-- Two budgets for all nodes that links lead to give the same climb. -/
theorem Rooted.climb_congr (rooted : tree.Rooted) (node : NodeId) {small large : Nat}
    (small_enough : Dartify.rank tree.ParentStep tree.size node ≤ small)
    (large_enough : Dartify.rank tree.ParentStep tree.size node ≤ large) :
    tree.climb small (some node) = tree.climb large (some node) := by
  refine rooted.descends.congr_of_rank_le (fun budget node => tree.climb budget (some node)) ?_ ?_
    node small_enough large_enough
  · intro node outside budget budget'
    rw [climb_of_absent (get?_of_size_le outside), climb_of_absent (get?_of_size_le outside)]
  · intro node small large same
    simp only [climb]
    cases present : tree.get? node with
    | none => rfl
    | some found =>
      refine congrArg ((node, found) :: ·) ?_
      cases linked : found.parent with
      | none => rw [climb_none, climb_none]
      | some parent => exact same parent (.single ((parent?_of_get? present).trans linked))

/-- A budget for all nodes of the tree is enough for every climb. -/
theorem Rooted.climb_eq (rooted : tree.Rooted) {budget : Nat} (enough : tree.size ≤ budget)
    (link : Option NodeId) : tree.climb budget link = tree.climb tree.size link := by
  cases link with
  | none => simp
  | some node =>
    have bounded : Dartify.rank tree.ParentStep tree.size node ≤ tree.size :=
      Dartify.rank_le_size node
    exact rooted.climb_congr node (Nat.le_trans bounded enough) bounded

theorem ancestors_of_none {node : NodeId} (unlinked : tree.parent? node = none) :
    tree.ancestors node = [] := by
  rw [ancestors, unlinked, climb_none]

/-- The ancestors of a node are its parent and the ancestors of the parent. -/
theorem Rooted.ancestors_eq (rooted : tree.Rooted) {node parent : NodeId} {found : Node}
    (one : tree.ParentStep node parent) (present : tree.get? parent = some found) :
    tree.ancestors node = (parent, found) :: tree.ancestors parent := by
  have more : tree.climb (tree.size + 1) (some parent) =
      (parent, found) :: tree.climb tree.size found.parent := by
    simp only [climb, present]
  rw [ancestors, ancestors, parent?_of_get? present, ← more, one]
  exact (rooted.climb_eq (Nat.le_succ _) (some parent)).symm

/-- In a list in increasing order, the first entry that something is found at is the least one. -/
theorem findSome?_eq_some_iff_of_pairwise {α : Type} {entries : List (NodeId × Node)}
    {pick : NodeId × Node → Option α} {result : α}
    (order : (entries.map Prod.fst).Pairwise (· < ·)) :
    entries.findSome? pick = some result ↔
      ∃ entry ∈ entries, pick entry = some result ∧
        ∀ other ∈ entries, (pick other).isSome = true → entry.1 ≤ other.1 := by
  induction entries with
  | nil => simp
  | cons first rest ih =>
    rw [List.map_cons, List.pairwise_cons] at order
    obtain ⟨lower, order⟩ := order
    rw [List.findSome?_cons]
    cases picked : pick first with
    | some value =>
      constructor
      · rintro ⟨⟩
        refine ⟨first, List.mem_cons_self .., picked, fun other member _ => ?_⟩
        rcases List.mem_cons.mp member with rfl | later
        · exact Nat.le_refl _
        · exact Nat.le_of_lt (lower _ (List.mem_map.mpr ⟨other, later, rfl⟩))
      · rintro ⟨entry, member, found, least⟩
        rcases List.mem_cons.mp member with rfl | later
        · exact picked.symm.trans found
        · have below := lower _ (List.mem_map.mpr ⟨entry, later, rfl⟩)
          have bound := least first (List.mem_cons_self ..) (by rw [picked]; rfl)
          exact absurd below (Nat.not_lt.mpr bound)
    | none =>
      refine (ih order).trans ⟨?_, ?_⟩
      · rintro ⟨entry, member, found, least⟩
        refine ⟨entry, List.mem_cons_of_mem _ member, found, fun other among some => ?_⟩
        rcases List.mem_cons.mp among with rfl | later
        · rw [picked] at some
          cases some
        · exact least other later some
      · rintro ⟨entry, member, found, least⟩
        rcases List.mem_cons.mp member with rfl | later
        · cases picked.symm.trans found
        · exact ⟨entry, later, found,
            fun other among => least other (List.mem_cons_of_mem _ among)⟩

/-! ## Links to later nodes -/

/-- Every parent link leads to a later node of the table. -/
def Ascending (tree : Tree) : Prop :=
  ∀ ⦃node parent : NodeId⦄, tree.ParentStep node parent → node < parent ∧ parent < tree.size

theorem ascending_of_links (upward : ∀ node < tree.size, ∀ parent ∈ tree.parent? node,
    node < parent ∧ parent < tree.size) : tree.Ascending :=
  fun node parent one => upward node one.lt_size parent one

namespace Ascending

variable (ascending : tree.Ascending)

include ascending

theorem lt_of_above {node other : NodeId} (above : tree.Above node other) :
    node < other ∧ other < tree.size := by
  induction above with
  | single one => exact ascending one
  | tail _ one ih =>
    have next := ascending one
    exact ⟨Nat.lt_trans ih.1 next.1, next.2⟩

theorem rooted : tree.Rooted := by
  intro node loop
  exact Nat.lt_irrefl node (ascending.lt_of_above loop).1

/-- The parent of a node is a node, and what the ancestors of the node begin with. -/
theorem exists_ancestors_eq {node parent : NodeId} (one : tree.ParentStep node parent) :
    ∃ found, tree.get? parent = some found ∧
      tree.ancestors node = (parent, found) :: tree.ancestors parent := by
  obtain ⟨found, present⟩ := exists_get?_of_lt_size (ascending one).2
  exact ⟨found, present, ascending.rooted.ancestors_eq one present⟩

/-- The ancestors of a node are the nodes above it. -/
theorem mem_ancestors_iff {node other : NodeId} {found : Node} :
    (other, found) ∈ tree.ancestors node ↔
      tree.Above node other ∧ tree.get? other = some found := by
  induction node using ascending.rooted.descends.induction with
  | onward node ih =>
    cases linked : tree.parent? node with
    | none =>
      rw [ancestors_of_none linked]
      refine ⟨fun member => (List.not_mem_nil member).elim, fun ⟨above, _⟩ => ?_⟩
      obtain ⟨parent, one, -⟩ := TransGen.head'_iff.mp above
      cases linked.symm.trans one
    | some parent =>
      obtain ⟨first, present, unfolds⟩ := ascending.exists_ancestors_eq linked
      rw [unfolds, List.mem_cons, ih parent (.single linked)]
      constructor
      · rintro (same | ⟨above, held⟩)
        · cases same
          exact ⟨.single linked, present⟩
        · exact ⟨.head linked above, held⟩
      · rintro ⟨above, held⟩
        obtain ⟨next, one, onward⟩ := TransGen.head'_iff.mp above
        cases linked.symm.trans one
        rcases reflTransGen_iff_eq_or_transGen.mp onward with rfl | onward
        · cases present.symm.trans held
          exact .inl rfl
        · exact .inr ⟨onward, held⟩

/-- Each ancestor is the parent of the one before, and the last one has no parent. -/
theorem isChain_ancestors (node : NodeId) :
    (node :: (tree.ancestors node).map Prod.fst).IsChain tree.ParentStep ∧
    tree.parent? ((node :: (tree.ancestors node).map Prod.fst).getLast (List.cons_ne_nil _ _)) =
      none := by
  induction node using ascending.rooted.descends.induction with
  | onward node ih =>
    cases linked : tree.parent? node with
    | none =>
      rw [ancestors_of_none linked]
      exact ⟨.singleton node, linked⟩
    | some parent =>
      obtain ⟨found, -, unfolds⟩ := ascending.exists_ancestors_eq linked
      obtain ⟨chained, ends⟩ := ih parent (.single linked)
      rw [unfolds, List.map_cons]
      refine ⟨List.isChain_cons_cons.mpr ⟨linked, chained⟩, ?_⟩
      rw [List.getLast_cons (List.cons_ne_nil _ _)]
      exact ends

/-- A node and its ancestors are listed in increasing order. -/
theorem pairwise_ancestors (node : NodeId) :
    (node :: (tree.ancestors node).map Prod.fst).Pairwise (· < ·) := by
  rw [← List.isChain_iff_pairwise]
  exact (ascending.isChain_ancestors node).1.imp fun _ _ one => (ascending one).1

/-! ## Questions about ancestors -/

theorem hasAncestor_iff {node : NodeId} {test : Payload → Bool} :
    tree.hasAncestor node test = true ↔
      ∃ other payload, tree.Above node other ∧ tree.payload? other = some payload ∧
        test payload = true := by
  rw [hasAncestor, List.any_eq_true]
  constructor
  · rintro ⟨⟨other, found⟩, member, passed⟩
    obtain ⟨above, present⟩ := ascending.mem_ancestors_iff.mp member
    exact ⟨other, _, above, payload?_of_get? present, passed⟩
  · rintro ⟨other, payload, above, held, passed⟩
    obtain ⟨found, present, rfl⟩ := payload?_eq_some.mp held
    exact ⟨(other, found), ascending.mem_ancestors_iff.mpr ⟨above, present⟩, passed⟩

/-- The nearest call around a node is the first node above it that is a call. -/
theorem findSome?_callee?_iff {node callee : NodeId} :
    ((tree.ancestors node).findSome? fun ancestor => callee? ancestor.2.payload) = some callee ↔
      ∃ call, IsLeast {other | tree.Above node other ∧
          ((tree.payload? other).bind callee?).isSome = true} call ∧
        (tree.payload? call).bind callee? = some callee := by
  have order := (List.pairwise_cons.mp (ascending.pairwise_ancestors node)).2
  rw [findSome?_eq_some_iff_of_pairwise order]
  constructor
  · rintro ⟨⟨call, found⟩, member, calls, first⟩
    obtain ⟨above, present⟩ := ascending.mem_ancestors_iff.mp member
    have named : (tree.payload? call).bind callee? = some callee := by
      rw [payload?_of_get? present]
      exact calls
    refine ⟨call, ⟨⟨above, by rw [named]; rfl⟩, ?_⟩, named⟩
    rintro other ⟨beyond, calls'⟩
    obtain ⟨payload, held, -⟩ := Option.bind_eq_some_iff.mp (Option.eq_some_of_isSome calls')
    obtain ⟨found', present', rfl⟩ := payload?_eq_some.mp held
    rw [held] at calls'
    exact first (other, found') (ascending.mem_ancestors_iff.mpr ⟨beyond, present'⟩) calls'
  · rintro ⟨call, ⟨⟨above, _⟩, least⟩, named⟩
    obtain ⟨payload, held, calls⟩ := Option.bind_eq_some_iff.mp named
    obtain ⟨found, present, rfl⟩ := payload?_eq_some.mp held
    refine ⟨(call, found), ascending.mem_ancestors_iff.mpr ⟨above, present⟩, calls, ?_⟩
    rintro ⟨other, found'⟩ member calls'
    obtain ⟨beyond, present'⟩ := ascending.mem_ancestors_iff.mp member
    refine least ⟨beyond, ?_⟩
    rw [payload?_of_get? present']
    exact calls'

/-- A node is in a constant expression when the nearest call above it is one of `CONST_EXPR`. -/
theorem inConstExpr_iff {node : NodeId} :
    tree.inConstExpr node = true ↔
      ∃ call callee, IsLeast {other | tree.Above node other ∧
          ((tree.payload? other).bind callee?).isSome = true} call ∧
        (tree.payload? call).bind callee? = some callee ∧
        tree.identifierText? callee = some "CONST_EXPR" := by
  rw [inConstExpr]
  cases nearest : (tree.ancestors node).findSome? fun ancestor => callee? ancestor.2.payload with
  | none =>
    refine ⟨fun impossible => (nomatch impossible), ?_⟩
    rintro ⟨call, callee, least, calls, -⟩
    cases nearest.symm.trans (ascending.findSome?_callee?_iff.mpr ⟨call, least, calls⟩)
  | some callee =>
    obtain ⟨call, least, calls⟩ := ascending.findSome?_callee?_iff.mp nearest
    refine ⟨fun named => ⟨call, callee, least, calls, eq_of_beq named⟩, ?_⟩
    rintro ⟨call', callee', least', calls', named⟩
    cases least.unique least'
    cases calls.symm.trans calls'
    exact beq_of_eq named

end Ascending

end Dartify.Tree
