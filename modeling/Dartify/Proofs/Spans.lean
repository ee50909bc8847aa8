import Dartify.Proofs.Linking
import Mathlib.Order.Bounds.Basic

/-!
# Spans of nodes that were added without a place

A node that is added without a place gets one from the tree.  The cursor lies behind the ends of all
nodes, whatever places other nodes were given (`Tree.Built.cursorBehind`), so a childless node
starts behind all nodes before it.  Any other node takes its start and its end from its children.

When all handles lead to earlier nodes, and no node was given a place, this fixes all spans: one
more node keeps what every node has to do with its children (`Tree.Spanned.add`), and from children
to leaves it is an induction over the tree.  The start and the end of a span are treated alike, as
an *edge* that is least among those of the children, where the ends are ordered the other way
around.
-/

namespace Dartify

/-- An addition that gives no place to its nodes. -/
def Addition.Unplaced : Addition → Prop
  | .nodeAt _ _ _ => False
  | _ => True

namespace Tree

variable {tree : Tree}

/-- A tree comes from one without nodes by additions that give no place. -/
inductive Grown : Tree → Prop where
  /-- Nothing was added. -/
  | empty : Grown .empty
  /-- Nothing was added, and a source text is kept. -/
  | ofSource (text : String) : Grown (.ofSource text)
  /-- One more addition was made. -/
  | more {tree : Tree} (grown : Grown tree) (addition : Addition) (unplaced : addition.Unplaced) :
      Grown (addition.apply tree)

/-- A tree comes from another one by additions. -/
def Continues : Tree → Tree → Prop :=
  Relation.ReflTransGen fun before after => ∃ addition : Addition, after = addition.apply before

/-- All handles lead to earlier nodes: each one was there when it was used. -/
def Backward (tree : Tree) : Prop :=
  ∀ ⦃parent child : NodeId⦄, tree.ChildStep parent child → child < parent

/-- A childless node that a node reaches. -/
def LeafOf (tree : Tree) (node : NodeId) (leaf : Node) : Prop :=
  ∃ other, tree.Reaches node other ∧ tree.get? other = some leaf ∧ leaf.payload.children = []

/-! ## What a node is apart from its parent -/

/-- The node of a handle, without its parent. -/
def content? (tree : Tree) (node : NodeId) : Option Node :=
  (tree.get? node).map fun found => { found with parent := none }

theorem content?_of_get? {node : NodeId} {found : Node} (present : tree.get? node = some found) :
    tree.content? node = some { found with parent := none } := by
  rw [content?, present, Option.map_some]

theorem exists_get?_of_content? {node : NodeId} {content : Node}
    (present : tree.content? node = some content) :
    ∃ found, tree.get? node = some found ∧ content = { found with parent := none } := by
  obtain ⟨found, held, same⟩ := Option.map_eq_some_iff.mp present
  exact ⟨found, held, same.symm⟩

theorem lt_size_of_content? {node : NodeId} {content : Node}
    (present : tree.content? node = some content) : node < tree.size := by
  obtain ⟨found, held, -⟩ := exists_get?_of_content? present
  exact lt_size_of_get? held

/-- One more node leaves the others as they are, apart from their parents. -/
theorem content?_addAt (payload : Payload) (pos stop : Nat) (node : NodeId) :
    (tree.addAt payload pos stop).content? node =
      if node = tree.size then some ⟨payload, pos, stop, none⟩ else tree.content? node := by
  rw [content?, get?_addAt]
  by_cases new : node = tree.size
  · simp [new]
  · rw [if_neg new, if_neg new, Option.map_map, content?]
    congr 1
    funext found
    by_cases linked : node ∈ payload.children <;> simp [linked]

/-- An addition keeps what every added node keeps; one that is given a place counts for itself. -/
theorem apply_induction {motive : Tree → Prop}
    (add : ∀ {tree} payload, motive tree → motive (tree.add payload)) {addition : Addition}
    (placed : ∀ payload pos stop, addition = .nodeAt payload pos stop →
      motive (tree.addAt payload pos stop))
    (holds : motive tree) : motive (addition.apply tree) := by
  cases addition with
  | nodeAt payload pos stop => exact placed payload pos stop rfl
  | propertyAccess expression name => exact add _ (add _ holds)
  | variableStmt kind name type initializer => exact add _ (add _ (add _ (add _ holds)))
  | _ => exact add _ holds

/-- Further additions keep what every node keeps that is added anywhere. -/
theorem Continues.preserves {later : Tree} (continues : tree.Continues later)
    {motive : Tree → Prop} (addAt : ∀ {tree} payload pos stop, motive tree →
      motive (tree.addAt payload pos stop)) (holds : motive tree) : motive later := by
  induction continues with
  | refl => exact holds
  | tail _ one ih =>
    obtain ⟨addition, rfl⟩ := one
    exact apply_induction (fun payload => addAt payload _ _)
      (fun payload pos stop _ => addAt payload pos stop ih) ih

/-- Further additions leave the nodes as they are, apart from their parents. -/
theorem Continues.content?_eq {later : Tree} (continues : tree.Continues later) {node : NodeId}
    (inside : node < tree.size) : later.content? node = tree.content? node := by
  -- the size is kept in view, since only a node inside is not the next one
  refine (continues.preserves (motive := fun larger =>
    tree.size ≤ larger.size ∧ larger.content? node = tree.content? node) ?_ ⟨Nat.le_refl _, rfl⟩).2
  rintro larger payload pos stop ⟨within, same⟩
  refine ⟨?_, ?_⟩
  · rw [size_addAt]
    exact Nat.le_succ_of_le within
  · rw [content?_addAt, if_neg (Nat.ne_of_lt (Nat.lt_of_lt_of_le inside within)), same]

/-! ## The cursor -/

/-- The cursor lies behind the ends of all nodes. -/
def CursorBehind (tree : Tree) : Prop :=
  ∀ ⦃node : NodeId⦄ ⦃found : Node⦄, tree.content? node = some found → found.stop < tree.cursor

theorem CursorBehind.addAt (behind : tree.CursorBehind) (payload : Payload) (pos stop : Nat) :
    (tree.addAt payload pos stop).CursorBehind := by
  intro node found present
  have cursor : (tree.addAt payload pos stop).cursor = max tree.cursor (stop + 1) := rfl
  rw [content?_addAt] at present
  split at present
  · cases present
    show stop < _
    omega
  · have older := behind present
    omega

theorem content?_of_size_eq_zero (nodeless : tree.size = 0) (node : NodeId) :
    tree.content? node = none := by
  rw [content?, get?_of_size_le (nodeless ▸ Nat.zero_le node), Option.map_none]

theorem cursorBehind_of_size_eq_zero (nodeless : tree.size = 0) : tree.CursorBehind := by
  intro node found present
  rw [content?_of_size_eq_zero nodeless] at present
  cases present

/-- No addition leaves the cursor behind. -/
theorem Built.cursorBehind (built : tree.Built) : tree.CursorBehind := by
  induction built with
  | empty => exact cursorBehind_of_size_eq_zero rfl
  | ofSource text => exact cursorBehind_of_size_eq_zero rfl
  | more _ addition ih =>
    exact apply_induction (fun payload behind => behind.addAt payload _ _)
      (fun payload pos stop _ => ih.addAt payload pos stop) ih

/-- A childless node that is added starts at the cursor. -/
theorem spanOf_of_childless {payload : Payload} (childless : payload.children = []) :
    tree.spanOf payload = (tree.cursor, tree.cursor + max 1 payload.leafText.utf8ByteSize) := by
  simp [spanOf, childless]

/-! ## Edges of children and of leaves -/

theorem childStep_of_content? {node child : NodeId} {found : Node}
    (present : tree.content? node = some found) (member : child ∈ found.payload.children) :
    tree.ChildStep node child := by
  obtain ⟨held, there, rfl⟩ := exists_get?_of_content? present
  exact ⟨held.payload, payload?_of_get? there, member⟩

/-- When the handles of a larger tree lead to earlier nodes, so do those of the tree, and those of
the new node lead into the tree. -/
theorem Backward.of_addAt {payload : Payload} {pos stop : Nat}
    (backward : (tree.addAt payload pos stop).Backward) :
    tree.Backward ∧ ∀ child ∈ payload.children, child < tree.size :=
  ⟨fun _ _ one => backward (childStep_addAt_iff.mpr (.inr one)),
    fun _ member => backward (childStep_addAt_iff.mpr (.inl ⟨rfl, member⟩))⟩

/-- The edges of the children of a payload. -/
def childEdges (tree : Tree) {α : Type} (edge : Node → α) (payload : Payload) : Set α :=
  {value | ∃ child ∈ payload.children, ∃ held, tree.content? child = some held ∧ edge held = value}

/-- One more node does not change the edges of earlier ones. -/
theorem childEdges_addAt {α : Type} (edge : Node → α) {payload other : Payload} {pos stop : Nat}
    (inside : ∀ child ∈ other.children, child < tree.size) :
    (tree.addAt payload pos stop).childEdges edge other = tree.childEdges edge other := by
  ext value
  refine exists_congr fun child => and_congr_right fun member => ?_
  rw [content?_addAt, if_neg (Nat.ne_of_lt (inside child member))]

/-- The edge of a node with children is the least one of theirs. -/
def EdgesFromChildren (tree : Tree) {α : Type} [Preorder α] (edge : Node → α) : Prop :=
  ∀ ⦃node : NodeId⦄ ⦃found : Node⦄, tree.content? node = some found →
    found.payload.children ≠ [] → IsLeast (tree.childEdges edge found.payload) (edge found)

namespace EdgesFromChildren

variable {α : Type} [Preorder α] {edge : Node → α} (edges : tree.EdgesFromChildren edge)

include edges

/-- One more node, which takes its edge from its children, keeps the edges right. -/
theorem addAt {payload : Payload} {pos stop : Nat}
    (backward : (tree.addAt payload pos stop).Backward)
    (new : payload.children ≠ [] →
      IsLeast (tree.childEdges edge payload) (edge ⟨payload, pos, stop, none⟩)) :
    (tree.addAt payload pos stop).EdgesFromChildren edge := by
  obtain ⟨earlier, inside⟩ := backward.of_addAt
  intro node found present parental
  rw [content?_addAt] at present
  split at present
  · cases present
    rw [childEdges_addAt edge inside]
    exact new parental
  · have within : ∀ child ∈ found.payload.children, child < tree.size := fun child member =>
      Nat.lt_trans (earlier (childStep_of_content? present member)) (lt_size_of_content? present)
    rw [childEdges_addAt edge within]
    exact edges present parental

/-- A node's edge bounds those of all nodes that it reaches. -/
theorem le_of_reaches {node other : NodeId} {found held : Node} (reached : tree.Reaches node other)
    (present : tree.content? node = some found) (there : tree.content? other = some held) :
    edge found ≤ edge held := by
  induction reached generalizing held with
  | refl =>
    rw [present] at there
    cases there
    exact le_refl _
  | @tail middle other reached one ih =>
    obtain ⟨payload, between, member⟩ := one
    obtain ⟨carrier, carried, rfl⟩ := payload?_eq_some.mp between
    have below := edges (content?_of_get? carried) (List.ne_nil_of_mem member)
    exact le_trans (ih (content?_of_get? carried)) (below.2 ⟨other, member, held, there, rfl⟩)

/-- A node's edge is the least one of its leaves. -/
theorem isLeast_leaves (backward : tree.Backward)
    (unlinked : ∀ found parent, edge { found with parent := parent } = edge found)
    {node : NodeId} {found : Node} (present : tree.content? node = some found) :
    IsLeast {value | ∃ leaf, tree.LeafOf node leaf ∧ edge leaf = value} (edge found) := by
  refine ⟨?_, ?_⟩
  · -- going from child to child of least edge ends at a leaf, since handles lead to earlier nodes
    induction node using Nat.strong_induction_on generalizing found with
    | _ node ih =>
      by_cases childless : found.payload.children = []
      · obtain ⟨leaf, there, rfl⟩ := exists_get?_of_content? present
        exact ⟨leaf, ⟨node, .refl, there, childless⟩, (unlinked leaf none).symm⟩
      · obtain ⟨⟨child, member, held, there, same⟩, -⟩ := edges present childless
        have one := childStep_of_content? present member
        obtain ⟨leaf, ⟨other, reached, below⟩, least⟩ := ih child (backward one) there
        exact ⟨leaf, ⟨other, .head one reached, below⟩, least.trans same⟩
  · rintro _ ⟨leaf, ⟨other, reached, there, -⟩, rfl⟩
    rw [← unlinked leaf none]
    exact edges.le_of_reaches reached present (content?_of_get? there)

end EdgesFromChildren

/-! ## Places that the tree finds -/

theorem isLeast_leastOr (default : Nat) {numbers : List Nat} (any : numbers ≠ []) :
    IsLeast {number | number ∈ numbers} (leastOr default numbers) := by
  obtain ⟨least, found⟩ := Option.ne_none_iff_exists'.mp (mt List.min?_eq_none_iff.mp any)
  have same : leastOr default numbers = numbers.min?.getD default := by cases numbers <;> rfl
  rw [same, found]
  obtain ⟨member, bound⟩ := List.min?_eq_some_iff.mp found
  exact ⟨member, fun number among => bound number among⟩

theorem isGreatest_greatestOr (default : Nat) {numbers : List Nat} (any : numbers ≠ []) :
    IsGreatest {number | number ∈ numbers} (greatestOr default numbers) := by
  obtain ⟨greatest, found⟩ := Option.ne_none_iff_exists'.mp (mt List.max?_eq_none_iff.mp any)
  have same : greatestOr default numbers = numbers.max?.getD default := by cases numbers <;> rfl
  rw [same, found]
  obtain ⟨member, bound⟩ := List.max?_eq_some_iff.mp found
  exact ⟨member, fun number among => bound number among⟩

/-- The edges of children are found in the table, when they do not depend on parents. -/
theorem mem_map_filterMap_iff {edge : Node → Nat} (unlinked : ∀ found parent,
      edge { found with parent := parent } = edge found) {payload : Payload} {value : Nat} :
    value ∈ (payload.children.filterMap tree.get?).map edge ↔
      value ∈ tree.childEdges edge payload := by
  constructor
  · intro among
    obtain ⟨found, listed, rfl⟩ := List.mem_map.mp among
    obtain ⟨child, member, present⟩ := List.mem_filterMap.mp listed
    exact ⟨child, member, _, content?_of_get? present, unlinked found none⟩
  · rintro ⟨child, member, held, present, rfl⟩
    obtain ⟨found, there, rfl⟩ := exists_get?_of_content? present
    rw [unlinked]
    exact List.mem_map_of_mem (List.mem_filterMap.mpr ⟨child, member, there⟩)

/-- A node with children takes its place from them. -/
theorem span_of_children {payload : Payload} (parental : payload.children ≠ [])
    (inside : ∀ child ∈ payload.children, child < tree.size) :
    IsLeast (tree.childEdges Node.pos payload) (tree.spanOf payload).1 ∧
    IsGreatest (tree.childEdges Node.stop payload) (tree.spanOf payload).2 := by
  have known : ∀ edge : Node → Nat, (payload.children.filterMap tree.get?).map edge ≠ [] := by
    intro edge
    obtain ⟨child, member⟩ := List.exists_mem_of_ne_nil _ parental
    obtain ⟨found, present⟩ := exists_get?_of_lt_size (inside child member)
    exact List.ne_nil_of_mem
      (List.mem_map_of_mem (List.mem_filterMap.mpr ⟨child, member, present⟩))
  have listed : ∀ {edge : Node → Nat}, (∀ found parent,
      edge { found with parent := parent } = edge found) →
      {value | value ∈ (payload.children.filterMap tree.get?).map edge} =
        tree.childEdges edge payload :=
    fun unlinked => Set.ext fun value => mem_map_filterMap_iff unlinked
  have place : tree.spanOf payload =
      (leastOr tree.cursor ((payload.children.filterMap tree.get?).map Node.pos),
        greatestOr (leastOr tree.cursor ((payload.children.filterMap tree.get?).map Node.pos))
          ((payload.children.filterMap tree.get?).map Node.stop)) := by
    simp [spanOf, parental]
  rw [place, ← listed fun _ _ => rfl, ← listed fun _ _ => rfl]
  exact ⟨isLeast_leastOr _ (known _), isGreatest_greatestOr _ (known _)⟩

/-! ## Consistent spans -/

/-- What the places of all nodes have to do with each other. -/
structure Spanned (tree : Tree) : Prop where
  /-- No node is empty. -/
  nonempty : ∀ {node found}, tree.content? node = some found → found.pos < found.stop
  /-- Childless nodes follow each other, with something free between them. -/
  apart : ∀ {first second one two}, tree.content? first = some one →
    tree.content? second = some two → one.payload.children = [] → two.payload.children = [] →
    first < second → one.stop < two.pos
  /-- Any other node starts with the first of its children. -/
  starts : tree.EdgesFromChildren Node.pos
  /-- And it ends with the last of them: ends are least when their order is turned around. -/
  stops : tree.EdgesFromChildren fun found => OrderDual.toDual found.stop

theorem edgesFromChildren_of_size_eq_zero {α : Type} [Preorder α] (edge : Node → α)
    (nodeless : tree.size = 0) : tree.EdgesFromChildren edge := by
  intro node found present
  rw [content?_of_size_eq_zero nodeless] at present
  cases present

theorem spanned_of_size_eq_zero (nodeless : tree.size = 0) : tree.Spanned where
  nonempty present := by simp [content?_of_size_eq_zero nodeless] at present
  apart there := by simp [content?_of_size_eq_zero nodeless] at there
  starts := edgesFromChildren_of_size_eq_zero _ nodeless
  stops := edgesFromChildren_of_size_eq_zero _ nodeless

/-- A node that is added without a place is not empty. -/
theorem Spanned.spanOf_nonempty (spanned : tree.Spanned) {payload : Payload}
    (inside : ∀ child ∈ payload.children, child < tree.size) :
    (tree.spanOf payload).1 < (tree.spanOf payload).2 := by
  by_cases childless : payload.children = []
  · rw [spanOf_of_childless childless]
    show tree.cursor < tree.cursor + max 1 _
    omega
  · obtain ⟨⟨⟨child, member, held, present, starts⟩, -⟩, -, bound⟩ :=
      span_of_children childless inside
    calc (tree.spanOf payload).1
      _ = held.pos := starts.symm
      _ < held.stop := spanned.nonempty present
      _ ≤ (tree.spanOf payload).2 := bound ⟨child, member, held, present, rfl⟩

/-- One more node without a place keeps the spans consistent. -/
theorem Spanned.add (spanned : tree.Spanned) (behind : tree.CursorBehind) {payload : Payload}
    (backward : (tree.add payload).Backward) : (tree.add payload).Spanned := by
  obtain ⟨earlier, inside⟩ := backward.of_addAt
  refine ⟨fun {node found} present => ?_, fun {first second one two} there here leaf leaf' => ?_,
    spanned.starts.addAt backward fun parental => (span_of_children parental inside).1,
    spanned.stops.addAt backward fun parental => (span_of_children parental inside).2⟩
  · rw [Tree.add, content?_addAt] at present
    split at present
    · cases present
      exact spanned.spanOf_nonempty inside
    · exact spanned.nonempty present
  · intro before
    have latest := lt_size_of_content? here
    rw [Tree.add, size_addAt] at latest
    have older : first < tree.size := Nat.lt_of_lt_of_le before (Nat.lt_succ_iff.mp latest)
    rw [Tree.add, content?_addAt, if_neg (Nat.ne_of_lt older)] at there
    rw [Tree.add, content?_addAt] at here
    split at here
    · -- the new leaf starts at the cursor, which lies behind all ends
      cases here
      rw [spanOf_of_childless leaf']
      exact behind there
    · exact spanned.apart there here leaf leaf' before

/-- Additions without a place keep the cursor behind all nodes and, as long as handles lead to
earlier nodes, the spans consistent. -/
theorem Grown.consistent (grown : tree.Grown) :
    tree.CursorBehind ∧ (tree.Backward → tree.Spanned) := by
  induction grown with
  | empty => exact ⟨cursorBehind_of_size_eq_zero rfl, fun _ => spanned_of_size_eq_zero rfl⟩
  | ofSource text => exact ⟨cursorBehind_of_size_eq_zero rfl, fun _ => spanned_of_size_eq_zero rfl⟩
  | more _ addition unplaced ih =>
    refine apply_induction (motive := fun tree =>
      tree.CursorBehind ∧ (tree.Backward → tree.Spanned)) ?_ ?_ ih
    · rintro tree payload ⟨behind, spanned⟩
      exact ⟨behind.addAt _ _ _, fun backward => (spanned backward.of_addAt.1).add behind backward⟩
    · rintro payload pos stop rfl
      exact unplaced.elim

/-- In a tree whose nodes were added without places, with handles to nodes that were there, the span
of every node reaches from the first start to the last end of its leaves.  It is not empty, ends
before the cursor and contains the spans of all nodes below.  Childless nodes follow each other in
the order in which they were added, with at least one offset between them.  When nodes are given
any places in between, a childless node that is added without one still starts behind the ends of
all nodes before it. -/
theorem spans_consistent :
    (∀ tree : Tree, tree.Grown → tree.Backward →
      (∀ node found, tree.get? node = some found →
        IsLeast {pos | ∃ leaf, tree.LeafOf node leaf ∧ leaf.pos = pos} found.pos ∧
        IsGreatest {stop | ∃ leaf, tree.LeafOf node leaf ∧ leaf.stop = stop} found.stop ∧
        found.pos < found.stop ∧ found.stop < tree.cursor ∧
        ∀ other held, tree.Reaches node other → tree.get? other = some held →
          found.pos ≤ held.pos ∧ held.stop ≤ found.stop) ∧
      ∀ first second one two, tree.get? first = some one → tree.get? second = some two →
        one.payload.children = [] → two.payload.children = [] → first < second →
        one.stop + 1 ≤ two.pos) ∧
    ∀ (tree later : Tree) (payload : Payload), tree.Built → payload.children = [] →
      (tree.add payload).Continues later →
      ∃ leaf, later.get? tree.size = some leaf ∧ leaf.payload = payload ∧
        ∀ node < tree.size, ∀ found, later.get? node = some found → found.stop < leaf.pos := by
  refine ⟨fun tree grown backward => ⟨fun node found present => ?_,
    fun first second one two there here leaf leaf' before => ?_⟩,
    fun tree later payload built childless continues => ?_⟩
  · have spanned := grown.consistent.2 backward
    have content := content?_of_get? present
    have least := spanned.starts.isLeast_leaves backward (fun _ _ => rfl) content
    have greatest := spanned.stops.isLeast_leaves backward (fun _ _ => rfl) content
    have wide := spanned.nonempty content
    have behind := grown.consistent.1 content
    refine ⟨least, greatest, wide, behind, fun other held reached there => ?_⟩
    have later := spanned.starts.le_of_reaches reached content (content?_of_get? there)
    have sooner := spanned.stops.le_of_reaches reached content (content?_of_get? there)
    exact ⟨later, sooner⟩
  · have spanned := grown.consistent.2 backward
    have apart := spanned.apart (content?_of_get? there) (content?_of_get? here) leaf leaf' before
    exact apart
  · have inside : tree.size < (tree.add payload).size := by
      rw [Tree.add, size_addAt]
      exact Nat.lt_succ_self _
    have new : later.content? tree.size =
        some ⟨payload, (tree.spanOf payload).1, (tree.spanOf payload).2, none⟩ := by
      rw [continues.content?_eq inside, Tree.add, content?_addAt, if_pos rfl]
    obtain ⟨leaf, there, same⟩ := exists_get?_of_content? new
    obtain ⟨payload_eq, pos_eq, -⟩ := Node.mk.inj same
    refine ⟨leaf, there, payload_eq.symm, fun node older found present => ?_⟩
    have kept : tree.content? node = some { found with parent := none } := by
      rw [← content?_of_get? present, continues.content?_eq (Nat.lt_trans older inside), Tree.add,
        content?_addAt, if_neg (Nat.ne_of_lt older)]
    have behind := built.cursorBehind kept
    rw [← pos_eq, spanOf_of_childless childless]
    exact behind

theorem Grown.built (grown : tree.Grown) : tree.Built := by
  induction grown with
  | empty => exact .empty
  | ofSource text => exact .ofSource text
  | more _ addition _ ih => exact .more ih addition

/-- The handles of a tree lead to earlier nodes when those of each node do. -/
theorem backward_of_payloads (first : ∀ node < tree.size,
      ∀ child ∈ ((tree.payload? node).map Payload.children).getD [], child < node) :
    tree.Backward := by
  intro parent child one
  have row := first parent one.lt_size child
  obtain ⟨payload, present, member⟩ := one
  rw [present] at row
  exact row member

/-- The access `x.yz`, built on a tree that keeps a source text. -/
def accessed : Tree :=
  (Addition.propertyAccess 0 "yz").apply ((Addition.identifier "x").apply (.ofSource "x.yz"))

/-- The access with a statement behind it whose place is turned around. -/
def accessedAside : Tree :=
  (Addition.nodeAt (.stmt .empty) 90 7).apply accessed

/-- The access ends with the last of its names; a name that is added behind the statement starts
behind all ends, also when it gets a parent afterwards. -/
theorem spans_of_accessed :
    accessed.Grown ∧ accessed.Backward ∧
    IsGreatest {stop | ∃ leaf, accessed.LeafOf 2 leaf ∧ leaf.stop = stop} 4 ∧
    accessedAside.Built ∧
    ∃ leaf, ((Addition.exprStmt 4).apply (accessedAside.addIdentifier "z")).get? 4 = some leaf ∧
      leaf.payload = .name (.identifier "z") ∧ ∀ node < 4, ∀ found,
        ((Addition.exprStmt 4).apply (accessedAside.addIdentifier "z")).get? node = some found →
        found.stop < leaf.pos := by
  have grown : accessed.Grown :=
    .more (.more (.ofSource "x.yz") (.identifier "x") trivial) (.propertyAccess 0 "yz") trivial
  have backward : accessed.Backward := backward_of_payloads (by decide)
  have built : accessedAside.Built := .more grown.built _
  have access : accessed.get? 2 = some ⟨.expr (.propertyAccess 0 1), 0, 4, none⟩ := by decide
  have later : (accessedAside.addIdentifier "z").Continues
      ((Addition.exprStmt 4).apply (accessedAside.addIdentifier "z")) := .single ⟨_, rfl⟩
  obtain ⟨-, ends, -⟩ := (spans_consistent.1 accessed grown backward).1 2 _ access
  have starts := spans_consistent.2 accessedAside _ (.name (.identifier "z")) built rfl later
  exact ⟨grown, backward, ends, built, starts⟩

end Tree

end Dartify
