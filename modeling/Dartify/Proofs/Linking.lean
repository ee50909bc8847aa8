import Dartify.Proofs.Ancestry
import Dartify.Syntax.Build

/-!
# Parents in trees that were built

A front end builds a tree by *additions*, one after the other, and may use any handles: to nodes
that are not there, to the node that it adds, to nodes that are added later, several times, or from
several parents.  Whatever it does, the parent of a node is the last one of the later nodes that
have it as a child (`Tree.Linked`).  A handle to a later node is never linked, so the parent of a
node always lies behind it, also when the handles run in circles.

`Tree.Linked.addAt` is the step: only the children of the new node are linked anew, and the new node
is the last one of all.  Every addition is one such step or a few of them.
-/

namespace Dartify

/-! ## Additions -/

/-- A way of adding to a tree. -/
inductive Addition where
  | node (payload : Payload)
  | nodeAt (payload : Payload) (pos stop : Nat)
  | identifier (text : String)
  | qualifiedName (left right : NodeId)
  | number (text : String)
  | string (text : String)
  | literal (form : Literal)
  | binary (left : NodeId) (operator : BinaryOperator) (right : NodeId)
  | call (expression : NodeId) (arguments : List NodeId)
  | construction (expression : NodeId) (arguments : List NodeId)
  | propertyAccess (expression : NodeId) (name : String)
  | exprStmt (expression : NodeId)
  | block (statements : List NodeId)
  | keywordType (word : KeywordType)
  | typeReference (name : NodeId) (arguments : List NodeId)
  | variableStmt (kind : VariableKind) (name : String) (type initializer : Option NodeId)
  | sourceFile (fileName : String) (statements : List NodeId)

/-- The tree after an addition. -/
def Addition.apply (tree : Tree) : Addition → Tree
  | .node payload => tree.add payload
  | .nodeAt payload pos stop => tree.addAt payload pos stop
  | .identifier text => tree.addIdentifier text
  | .qualifiedName left right => tree.addQualifiedName left right
  | .number text => tree.addNumber text
  | .string text => tree.addString text
  | .literal form => tree.addLiteral form
  | .binary left operator right => tree.addBinary left operator right
  | .call expression arguments => tree.addCall expression arguments
  | .construction expression arguments => tree.addConstruction expression arguments
  | .propertyAccess expression name => tree.addPropertyAccess expression name
  | .exprStmt expression => tree.addExprStmt expression
  | .block statements => tree.addBlock statements
  | .keywordType word => tree.addKeywordType word
  | .typeReference name arguments => tree.addTypeReference name arguments
  | .variableStmt kind name type initializer => tree.addVariable kind name type initializer
  | .sourceFile fileName statements => tree.addSourceFile fileName statements

namespace Tree

/-- A tree comes from one without nodes by additions. -/
inductive Built : Tree → Prop where
  /-- Nothing was added. -/
  | empty : Built .empty
  /-- Nothing was added, and a source text is kept. -/
  | ofSource (text : String) : Built (.ofSource text)
  /-- One more addition was made. -/
  | more {tree : Tree} (built : Built tree) (addition : Addition) : Built (addition.apply tree)

/-! ## One more node -/

variable {tree : Tree}

/-- Linking children changes their parents and nothing else. -/
theorem getElem?_foldl_link (parent : NodeId) (children : List NodeId) (nodes : Array Node)
    (node : NodeId) :
    (children.foldl (link parent) nodes)[node]? =
      nodes[node]?.map fun found =>
        if node ∈ children then { found with parent := some parent } else found := by
  induction children generalizing nodes with
  | nil => simp
  | cons child rest ih =>
    rw [List.foldl_cons, ih, link, Array.getElem?_modify]
    by_cases here : child = node
    · subst here
      cases nodes[child]? <;> simp
    · have other : node ≠ child := fun same => here same.symm
      simp [here, other]

theorem size_foldl_link (parent : NodeId) (children : List NodeId) (nodes : Array Node) :
    (children.foldl (link parent) nodes).size = nodes.size := by
  induction children generalizing nodes with
  | nil => rfl
  | cons child rest ih => rw [List.foldl_cons, ih, link, Array.size_modify]

@[simp] theorem size_addAt (payload : Payload) (pos stop : Nat) :
    (tree.addAt payload pos stop).size = tree.size + 1 := by
  simp [size, addAt, size_foldl_link]

theorem get?_addAt (payload : Payload) (pos stop : Nat) (node : NodeId) :
    (tree.addAt payload pos stop).get? node =
      if node = tree.size then some ⟨payload, pos, stop, none⟩
      else (tree.get? node).map fun found =>
        if node ∈ payload.children then { found with parent := some tree.size } else found := by
  simp only [get?, addAt, Array.getElem?_push, size_foldl_link, getElem?_foldl_link]
  rfl

theorem payload?_addAt (payload : Payload) (pos stop : Nat) (node : NodeId) :
    (tree.addAt payload pos stop).payload? node =
      if node = tree.size then some payload else tree.payload? node := by
  rw [payload?, get?_addAt]
  by_cases new : node = tree.size
  · simp [new]
  · rw [if_neg new, if_neg new, Option.map_map, payload?]
    congr 1
    funext found
    by_cases linked : node ∈ payload.children <;> simp [linked]

/-- The handles after one more node are those before and those of the new node. -/
theorem childStep_addAt_iff {payload : Payload} {pos stop : Nat} {parent child : NodeId} :
    (tree.addAt payload pos stop).ChildStep parent child ↔
      (parent = tree.size ∧ child ∈ payload.children) ∨ tree.ChildStep parent child := by
  by_cases new : parent = tree.size
  · subst new
    have unheld : ¬tree.ChildStep tree.size child := fun one => Nat.lt_irrefl _ one.lt_size
    rw [or_iff_left unheld]
    simp [ChildStep, payload?_addAt]
  · simp [ChildStep, payload?_addAt, new]

/-- Only the children of the new node have a new parent. -/
theorem parent?_addAt {payload : Payload} {pos stop : Nat} {node : NodeId}
    (older : node < tree.size) :
    (tree.addAt payload pos stop).parent? node =
      if node ∈ payload.children then some tree.size else tree.parent? node := by
  obtain ⟨found, present⟩ := exists_get?_of_lt_size older
  rw [parent?, get?_addAt, if_neg (Nat.ne_of_lt older), parent?, present]
  by_cases linked : node ∈ payload.children <;> simp [linked]

theorem parent?_addAt_size (payload : Payload) (pos stop : Nat) :
    (tree.addAt payload pos stop).parent? tree.size = none := by
  simp [parent?, get?_addAt]

/-! ## The last of the later parents -/

/-- The nodes behind a node that have it as a child. -/
def laterParents (tree : Tree) (node : NodeId) : Set NodeId :=
  {parent | node < parent ∧ tree.ChildStep parent node}

/-- The parent of every node is the last one of its later parents. -/
def Linked (tree : Tree) : Prop :=
  ∀ node, node < tree.size →
    (∀ parent, tree.parent? node = some parent → IsGreatest (tree.laterParents node) parent) ∧
    (tree.parent? node = none → tree.laterParents node = ∅)

theorem linked_of_size_eq_zero (nodeless : tree.size = 0) : tree.Linked := by
  intro node inside
  rw [nodeless] at inside
  exact absurd inside (Nat.not_lt_zero node)

/-- A node that is added at a place keeps the parents right. -/
theorem Linked.addAt (linked : tree.Linked) (payload : Payload) (pos stop : Nat) :
    (tree.addAt payload pos stop).Linked := by
  intro node inside
  rw [size_addAt] at inside
  have bound : ∀ parent ∈ (tree.addAt payload pos stop).laterParents node, parent ≤ tree.size := by
    rintro parent ⟨-, one⟩
    have below := one.lt_size
    rw [size_addAt] at below
    exact Nat.lt_succ_iff.mp below
  rcases Nat.lt_succ_iff_lt_or_eq.mp inside with older | rfl
  · rw [parent?_addAt older]
    by_cases child : node ∈ payload.children
    · -- the new node is a parent, and none is later
      rw [if_pos child]
      refine ⟨?_, fun impossible => (nomatch impossible)⟩
      rintro parent ⟨⟩
      exact ⟨⟨older, childStep_addAt_iff.mpr (.inl ⟨rfl, child⟩)⟩, bound⟩
    · -- nothing changes
      have same : (tree.addAt payload pos stop).laterParents node = tree.laterParents node := by
        ext parent
        simp [laterParents, childStep_addAt_iff, child]
      rw [if_neg child, same]
      exact linked node older
  · -- the new node is the last one, so that no parent is later
    rw [parent?_addAt_size]
    refine ⟨fun parent impossible => (nomatch impossible), fun _ => ?_⟩
    refine Set.eq_empty_of_forall_notMem fun parent later => ?_
    exact absurd later.1 (Nat.not_lt.mpr (bound parent later))

theorem Linked.add (linked : tree.Linked) (payload : Payload) : (tree.add payload).Linked :=
  linked.addAt payload _ _

/-- Every addition keeps the parents right. -/
theorem Linked.apply (linked : tree.Linked) (addition : Addition) :
    (addition.apply tree).Linked := by
  cases addition with
  | nodeAt payload pos stop => exact linked.addAt payload pos stop
  | propertyAccess expression name => exact (linked.add _).add _
  | variableStmt kind name type initializer => exact (((linked.add _).add _).add _).add _
  | _ => exact linked.add _

theorem Built.linked (built : tree.Built) : tree.Linked := by
  induction built with
  | empty => exact linked_of_size_eq_zero rfl
  | ofSource text => exact linked_of_size_eq_zero rfl
  | more _ addition ih => exact ih.apply addition

namespace Linked

variable (linked : tree.Linked)

include linked

theorem parent?_eq_some_iff {node parent : NodeId} (inside : node < tree.size) :
    tree.parent? node = some parent ↔ IsGreatest (tree.laterParents node) parent := by
  refine ⟨(linked node inside).1 parent, fun greatest => ?_⟩
  cases found : tree.parent? node with
  | none =>
    have none : parent ∈ (∅ : Set NodeId) := (linked node inside).2 found ▸ greatest.1
    exact none.elim
  | some other => rw [((linked node inside).1 other found).unique greatest]

theorem parent?_eq_none_iff {node : NodeId} (inside : node < tree.size) :
    tree.parent? node = none ↔ tree.laterParents node = ∅ := by
  refine ⟨(linked node inside).2, fun none => ?_⟩
  cases found : tree.parent? node with
  | none => rfl
  | some parent =>
    have later : parent ∈ (∅ : Set NodeId) := none ▸ ((linked node inside).1 parent found).1
    exact later.elim

/-- Links lead to later nodes. -/
theorem ascending : tree.Ascending := by
  intro node parent one
  obtain ⟨later, held⟩ := ((linked node one.lt_size).1 parent one).1
  exact ⟨later, held.lt_size⟩

end Linked

/-- In a tree that was built, whatever its handles are, the parent of a node is the last one of the
later nodes that have it as a child.  The ancestors of a node are met in increasing order, each is
the parent of the one before, and the last one has no parent; a larger budget finds no more of them.
So every question about ancestors is answered from all nodes above. -/
theorem parents_of_built (tree : Tree) (built : tree.Built) :
    (∀ node, node < tree.size →
      (∀ parent, tree.parent? node = some parent ↔
        IsGreatest {other | node < other ∧ tree.ChildStep other node} parent) ∧
      (tree.parent? node = none ↔ ∀ other, node < other → ¬tree.ChildStep other node)) ∧
    (∀ node, let above := (tree.ancestors node).map Prod.fst
      (node :: above).Pairwise (· < ·) ∧ (∀ other ∈ above, other < tree.size) ∧
      (node :: above).IsChain (fun other parent => tree.parent? other = some parent) ∧
      tree.parent? ((node :: above).getLast (List.cons_ne_nil _ _)) = none ∧
      ∀ budget, tree.size ≤ budget →
        tree.climb budget (tree.parent? node) = tree.ancestors node) ∧
    ∀ node,
      (∀ test, tree.hasAncestor node test = true ↔
        ∃ other payload, tree.Above node other ∧ tree.payload? other = some payload ∧
          test payload = true) ∧
      (tree.inConstExpr node = true ↔
        ∃ call callee, IsLeast {other | tree.Above node other ∧
            ((tree.payload? other).bind callee?).isSome = true} call ∧
          (tree.payload? call).bind callee? = some callee ∧
          tree.identifierText? callee = some "CONST_EXPR") ∧
      (tree.inConstContext node = true ↔
        (∃ other payload, tree.Above node other ∧ tree.payload? other = some payload ∧
          isDecorator payload = true) ∨
        tree.inConstExpr node = true) := by
  have linked := built.linked
  have ascending := linked.ascending
  refine ⟨fun node inside => ⟨fun parent => linked.parent?_eq_some_iff inside, ?_⟩,
    fun node => ⟨ascending.pairwise_ancestors node, ?_, (ascending.isChain_ancestors node).1,
      (ascending.isChain_ancestors node).2, fun budget enough => ?_⟩,
    fun node => ⟨fun test => ascending.hasAncestor_iff, ascending.inConstExpr_iff, ?_⟩⟩
  · rw [linked.parent?_eq_none_iff inside, Set.eq_empty_iff_forall_notMem]
    exact forall_congr' fun other => not_and
  · intro other member
    obtain ⟨⟨_, found⟩, among, rfl⟩ := List.mem_map.mp member
    exact lt_size_of_get? (ascending.mem_ancestors_iff.mp among).2
  · exact ascending.rooted.climb_eq enough _
  · rw [inConstContext, Bool.or_eq_true, ascending.hasAncestor_iff]

/-- Two nodes that have each other as a child. -/
def mutualChildren : Tree :=
  (Addition.exprStmt 0).apply ((Addition.node (.expr (.parenthesized 1))).apply .empty)

/-- The handle to the later node is not linked, so the circle of handles is none of parents. -/
theorem parents_of_mutualChildren :
    mutualChildren.Built ∧ ¬mutualChildren.Acyclic ∧ mutualChildren.parent? 0 = some 1 ∧
    mutualChildren.parent? 1 = none := by
  have built : mutualChildren.Built := .more (.more .empty _) _
  have down : mutualChildren.ChildStep 1 0 := ⟨.stmt (.exprStmt 0), rfl, List.mem_singleton_self 0⟩
  have up : mutualChildren.ChildStep 0 1 :=
    ⟨.expr (.parenthesized 1), rfl, List.mem_singleton_self 1⟩
  have parents := (parents_of_built mutualChildren built).1
  refine ⟨built, fun acyclic => acyclic 0 (.head up (.single down)), ?_, ?_⟩
  · refine ((parents 0 (by decide)).1 1).mpr ⟨⟨Nat.zero_lt_one, down⟩, fun other later => ?_⟩
    exact Nat.lt_succ_iff.mp later.2.lt_size
  · refine (parents 1 (by decide)).2.mpr fun other later one => ?_
    exact absurd one.lt_size (Nat.not_lt.mpr later)

end Tree

end Dartify
