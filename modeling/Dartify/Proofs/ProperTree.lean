import Dartify.Proofs.Descent
import Mathlib.Data.List.Nodup
import Mathlib.Data.List.Perm.Subperm

/-!
# Proper trees

A table of nodes is a *proper tree* when it has no circle, no handle stands in it twice, and parent
links lead back.  Of two nodes that reach a common one, one then reaches the other
(`Tree.Proper.reaches_or_reaches`).

A *front* below a node is a list of nodes that is made from its children by leaving some out,
putting them in another order, and putting the children of a node in its place (`Tree.Front`).  The
nodes of a front are all different, and no two of them reach a common node
(`Tree.Proper.apart_of_front`).
-/

namespace Dartify

open Relation

namespace Tree

/-- All handles of the nodes of a tree. -/
def handles (tree : Tree) : List NodeId :=
  tree.nodes.toList.flatMap fun found => found.payload.children

/-- There is no circle, no handle stands twice, and parent links lead back to the node that has the
handle. -/
structure Proper (tree : Tree) : Prop where
  acyclic : tree.Acyclic
  once : tree.handles.Nodup
  linked : ∀ {parent child : NodeId}, tree.ChildStep parent child →
    ∀ found, tree.get? child = some found → found.parent = some parent

/-- Whether the parent links of all children lead back. -/
def linksBack (tree : Tree) : Bool :=
  (List.range tree.size).all fun node =>
    ((tree.payload? node).map Payload.children).getD [] |>.all fun child =>
      (tree.get? child).all fun found => found.parent == some node

variable {tree : Tree} {node : NodeId} {payload : Payload}

/-- A tree that was built from its leaves up is proper when handles and links are as they should. -/
theorem proper_of_childrenFirst (first : tree.childrenFirst = true) (once : tree.handles.Nodup)
    (links : tree.linksBack = true) : tree.Proper := by
  refine ⟨acyclic_of_childrenFirst first, once, ?_⟩
  intro parent child one found present
  have inside := one.lt_size
  obtain ⟨payload, held, member⟩ := one
  have row := List.all_eq_true.mp links parent (List.mem_range.mpr inside)
  simp only [held, Option.map_some, Option.getD_some, List.all_eq_true] at row
  have back := row child member
  rw [present] at back
  exact beq_iff_eq.mp back

namespace Proper

variable (proper : tree.Proper)

include proper

/-! ## Parents -/

theorem children_nodup (held : tree.payload? node = some payload) : payload.children.Nodup := by
  obtain ⟨found, present, rfl⟩ := payload?_eq_some.mp held
  have listed : found ∈ tree.nodes.toList :=
    Array.mem_toList_iff.mpr (Array.mem_of_getElem? present)
  exact (List.nodup_flatMap.mp proper.once).1 found listed

/-- A node has one parent. -/
theorem parent_unique {first second child : NodeId} (one : tree.ChildStep first child)
    (two : tree.ChildStep second child) : first = second := by
  -- the lists of handles of two places of the table have nothing in common
  have ordered : ∀ {low high : NodeId}, tree.ChildStep low child → tree.ChildStep high child →
      ¬low < high := by
    rintro low high ⟨payload, held, member⟩ ⟨payload', held', member'⟩ lower
    obtain ⟨found, present, rfl⟩ := payload?_eq_some.mp held
    obtain ⟨found', present', rfl⟩ := payload?_eq_some.mp held'
    obtain ⟨low_lt, rfl⟩ := Array.getElem?_eq_some_iff.mp present
    obtain ⟨high_lt, rfl⟩ := Array.getElem?_eq_some_iff.mp present'
    have disjoint := List.pairwise_iff_getElem.mp (List.nodup_flatMap.mp proper.once).2 low high
      (by simpa using low_lt) (by simpa using high_lt) lower
    exact disjoint (by simpa using member) (by simpa using member')
  rcases Nat.lt_trichotomy first second with lower | same | higher
  · exact absurd lower (ordered one two)
  · exact same
  · exact absurd higher (ordered two one)

/-- Of two nodes that reach a common one, one reaches the other. -/
theorem reaches_or_reaches {first second common : NodeId} (one : tree.Reaches first common)
    (two : tree.Reaches second common) : tree.Reaches first second ∨ tree.Reaches second first := by
  have unique : Relator.RightUnique (Function.swap tree.ChildStep) := by
    intro child parent parent' up up'
    exact proper.parent_unique up up'
  have upward := ReflTransGen.total_of_right_unique unique (reflTransGen_swap.mpr one)
    (reflTransGen_swap.mpr two)
  rcases upward with path | path
  · exact .inr (reflTransGen_swap.mp path)
  · exact .inl (reflTransGen_swap.mp path)

/-- Two children of a node that reach a common one are the same. -/
theorem eq_of_children {first second common : NodeId} (one : tree.ChildStep node first)
    (two : tree.ChildStep node second) (reaches : tree.Reaches first common)
    (reaches' : tree.Reaches second common) : first = second := by
  -- a path from one to the other would come in through their parent
  have same : ∀ {above below : NodeId}, tree.ChildStep node above → tree.ChildStep node below →
      tree.Reaches above below → above = below := by
    intro above below up down path
    rcases ReflTransGen.cases_tail path with same | ⟨last, back, step⟩
    · exact same.symm
    · have parent := proper.parent_unique step down
      subst parent
      exact absurd (TransGen.head' up back) (proper.acyclic _)
  rcases proper.reaches_or_reaches reaches reaches' with path | path
  · exact same one two path
  · exact (same two one path).symm

end Proper

/-! ## Fronts -/

/-- A list that is made from the children of a node by leaving some out, putting them in another
order, and putting the children of a node in its place. -/
inductive Front (tree : Tree) (node : NodeId) : List NodeId → Prop where
  /-- The children themselves. -/
  | children {payload : Payload} (held : tree.payload? node = some payload) :
      Front tree node payload.children
  /-- A node is replaced by its children. -/
  | expand {inner : NodeId} {rest : List NodeId} {payload : Payload}
      (front : Front tree node (inner :: rest)) (held : tree.payload? inner = some payload) :
      Front tree node (payload.children ++ rest)
  /-- Some are left out, and the others come in another order. -/
  | sub {nodes part : List NodeId} (front : Front tree node nodes) (some : part.Subperm nodes) :
      Front tree node part

/-- Different nodes, no two of which reach a common one. -/
structure Apart (tree : Tree) (nodes : List NodeId) : Prop where
  nodup : nodes.Nodup
  eq_of_reaches : ∀ first ∈ nodes, ∀ second ∈ nodes, ∀ common,
    tree.Reaches first common → tree.Reaches second common → first = second

/-- The nodes of a front are apart. -/
theorem Proper.apart_of_front (proper : tree.Proper) {nodes : List NodeId}
    (front : tree.Front node nodes) : tree.Apart nodes := by
  induction front with
  | children held =>
    refine ⟨proper.children_nodup held, ?_⟩
    intro first member second member' common reaches reaches'
    exact proper.eq_of_children ⟨_, held, member⟩ ⟨_, held, member'⟩ reaches reaches'
  | @expand inner rest payload front held ih =>
    obtain ⟨outside, others⟩ := List.nodup_cons.mp ih.nodup
    have inside : ∀ child ∈ payload.children, ∀ {common}, tree.Reaches child common →
        tree.Reaches inner common := by
      intro child member common reaches
      exact ReflTransGen.head ⟨payload, held, member⟩ reaches
    -- a child and another node of the front would make the other node the one that was replaced
    have mixed : ∀ child ∈ payload.children, ∀ other ∈ rest, ∀ common,
        tree.Reaches child common → ¬tree.Reaches other common := by
      intro child member other member' common reaches reaches'
      have same := ih.eq_of_reaches inner (List.mem_cons_self ..) other
        (List.mem_cons_of_mem _ member') common (inside child member reaches) reaches'
      subst same
      exact outside member'
    refine ⟨List.nodup_append.mpr ⟨proper.children_nodup held, others, ?_⟩, ?_⟩
    · rintro child member other member' rfl
      exact mixed child member child member' child .refl .refl
    · intro first member second member' common reaches reaches'
      rcases List.mem_append.mp member with early | late
      · rcases List.mem_append.mp member' with early' | late'
        · exact proper.eq_of_children ⟨_, held, early⟩ ⟨_, held, early'⟩ reaches reaches'
        · exact absurd reaches' (mixed first early second late' common reaches)
      · rcases List.mem_append.mp member' with early' | late'
        · exact absurd reaches (mixed second early' first late common reaches')
        · exact ih.eq_of_reaches first (List.mem_cons_of_mem _ late) second
            (List.mem_cons_of_mem _ late') common reaches reaches'
  | sub front part ih =>
    refine ⟨?_, fun first member second member' => ?_⟩
    · obtain ⟨kept, perm, sublist⟩ := part
      exact perm.nodup_iff.mp (ih.nodup.sublist sublist)
    · exact ih.eq_of_reaches first (part.subset member) second (part.subset member')

end Tree

end Dartify
