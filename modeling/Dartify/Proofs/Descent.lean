import Dartify.Syntax.Tree
import Mathlib.Data.Finset.Card
import Mathlib.Logic.Relation

/-!
# Descent through finite tables

Handles, parent links and containers of symbols are relations between the places of a finite table.
A step leaves a place of the table, and where no path returns to its start a path has at most as
many steps as the table has places.

The *rank* of a place counts the places of the table that can be reached from it, itself included.
It drops with every step (`Descends.rank_lt`) and never exceeds the size (`rank_le_size`), so it is
the budget that a walk along the relation needs: a recursion along the steps gives the same with any
two budgets that are enough for it (`Descends.congr_of_rank_lt`, `Descends.congr_of_rank_le`).

The second half is about the handles of a tree.  `Tree.ChildStep` is one step to a child,
`Tree.Reaches` any number of them and `Tree.Below` at least one.  A tree is `Tree.Acyclic` when no
node lies below itself.  Handles may be shared, repeated, or lead out of the table.
-/

namespace Dartify

open Relation

/-! ## Ranks -/

/-- Steps leave places below `size`, and no path returns to its start. -/
structure Descends (step : Nat → Nat → Prop) (size : Nat) : Prop where
  /-- A step leaves a place of the table. -/
  bounded : ∀ {place next : Nat}, step place next → place < size
  /-- No path returns to its start. -/
  acyclic : ∀ place, ¬TransGen step place place

open Classical in
/-- The number of places of the table that can be reached from a place. -/
noncomputable def rank (step : Nat → Nat → Prop) (size place : Nat) : Nat :=
  ((Finset.range size).filter fun other => ReflTransGen step place other).card

variable {step : Nat → Nat → Prop} {size : Nat}

theorem rank_le_size (place : Nat) : rank step size place ≤ size := by
  classical
  calc rank step size place ≤ (Finset.range size).card := Finset.card_filter_le _ _
    _ = size := Finset.card_range size

theorem rank_pos {place : Nat} (below : place < size) : 0 < rank step size place := by
  classical
  refine Finset.card_pos.mpr ⟨place, ?_⟩
  exact Finset.mem_filter.mpr ⟨Finset.mem_range.mpr below, .refl⟩

namespace Descends

/-- A step goes to a place of smaller rank: the place that it leaves is no longer reached. -/
theorem rank_lt (descends : Descends step size) {place next : Nat} (one : step place next) :
    rank step size next < rank step size place := by
  classical
  apply Finset.card_lt_card
  refine ⟨fun other reached => ?_, fun contained => ?_⟩
  · simp only [Finset.mem_filter] at reached ⊢
    exact ⟨reached.1, .head one reached.2⟩
  · have start : place ∈ (Finset.range size).filter fun other => ReflTransGen step place other :=
      Finset.mem_filter.mpr ⟨Finset.mem_range.mpr (descends.bounded one), .refl⟩
    have back : ReflTransGen step next place := (Finset.mem_filter.mp (contained start)).2
    exact descends.acyclic place (.head' one back)

theorem rank_lt_of_transGen (descends : Descends step size) {place other : Nat}
    (path : TransGen step place other) : rank step size other < rank step size place := by
  induction path with
  | single one => exact descends.rank_lt one
  | tail _ one ih => exact Nat.lt_trans (descends.rank_lt one) ih

/-- What holds of a place whenever it holds of all places on paths from it holds of every place. -/
theorem induction (descends : Descends step size) {motive : Nat → Prop}
    (onward : ∀ place, (∀ other, TransGen step place other → motive other) → motive place)
    (place : Nat) : motive place := by
  induction bound : rank step size place using Nat.strong_induction_on generalizing place with
  | _ n ih =>
    apply onward
    intro other path
    exact ih _ (bound ▸ descends.rank_lt_of_transGen path) other rfl

/-- A recursion along steps gives the same with any two budgets above the rank of its start. -/
theorem congr_of_rank_lt {β : Type} (descends : Descends step size) (run run' : Nat → Nat → β)
    (unfolds : ∀ {place small large : Nat},
      (∀ next, TransGen step place next → run small next = run' large next) →
        run (small + 1) place = run' (large + 1) place)
    (place : Nat) {small large : Nat} (small_enough : rank step size place < small)
    (large_enough : rank step size place < large) : run small place = run' large place := by
  induction place using descends.induction generalizing small large with
  | onward place ih =>
    obtain ⟨small, rfl⟩ := Nat.exists_eq_add_one_of_ne_zero (Nat.ne_zero_of_lt small_enough)
    obtain ⟨large, rfl⟩ := Nat.exists_eq_add_one_of_ne_zero (Nat.ne_zero_of_lt large_enough)
    refine unfolds fun next path => ?_
    have lower := descends.rank_lt_of_transGen path
    exact ih next path (by omega) (by omega)

/-- A recursion that needs no budget outside the table gives the same with any two budgets that
reach the rank of its start. -/
theorem congr_of_rank_le {β : Type} (descends : Descends step size) (run : Nat → Nat → β)
    (outside : ∀ {place : Nat}, size ≤ place →
      ∀ budget budget', run budget place = run budget' place)
    (unfolds : ∀ {place small large : Nat},
      (∀ next, TransGen step place next → run small next = run large next) →
        run (small + 1) place = run (large + 1) place)
    (place : Nat) {small large : Nat} (small_enough : rank step size place ≤ small)
    (large_enough : rank step size place ≤ large) : run small place = run large place := by
  induction place using descends.induction generalizing small large with
  | onward place ih =>
    by_cases inside : place < size
    · have counted : 0 < rank step size place := rank_pos inside
      obtain ⟨small, rfl⟩ := Nat.exists_eq_add_one_of_ne_zero (show small ≠ 0 by omega)
      obtain ⟨large, rfl⟩ := Nat.exists_eq_add_one_of_ne_zero (show large ≠ 0 by omega)
      refine unfolds fun next path => ?_
      have lower := descends.rank_lt_of_transGen path
      exact ih next path (by omega) (by omega)
    · exact outside (Nat.not_lt.mp inside) small large

/-- Steps that go down, or to places that no step leaves, make no circle. -/
theorem of_lt (bounded : ∀ {place next : Nat}, step place next → place < size)
    (down : ∀ {place next : Nat}, step place next → next < place ∨ ∀ after, ¬step next after) :
    Descends step size := by
  refine ⟨bounded, fun place loop => ?_⟩
  have path : ∀ {start stop : Nat}, TransGen step start stop →
      stop < start ∨ ∀ after, ¬step stop after := by
    intro start stop walked
    induction walked with
    | single one => exact down one
    | tail _ one ih =>
      rcases ih with lower | stuck
      · rcases down one with lower' | stuck
        · exact .inl (Nat.lt_trans lower' lower)
        · exact .inr stuck
      · exact absurd one (stuck _)
  rcases path loop with lower | stuck
  · exact Nat.lt_irrefl place lower
  · obtain ⟨next, one, _⟩ := TransGen.head'_iff.mp loop
    exact stuck next one

end Descends

/-! ## Handles of a tree -/

namespace Tree

/-- The payload of the node at a handle. -/
def payload? (tree : Tree) (node : NodeId) : Option Payload :=
  (tree.get? node).map Node.payload

@[simp] theorem payload?_of_get? {tree : Tree} {node : NodeId} {found : Node}
    (present : tree.get? node = some found) : tree.payload? node = some found.payload := by
  simp [payload?, present]

theorem payload?_eq_some {tree : Tree} {node : NodeId} {payload : Payload} :
    tree.payload? node = some payload ↔
      ∃ found, tree.get? node = some found ∧ found.payload = payload := by
  simp [payload?]

theorem identifierText?_eq_some_iff {tree : Tree} {node : NodeId} {text : String} :
    tree.identifierText? node = some text ↔
      tree.payload? node = some (.name (.identifier text)) := by
  unfold identifierText?
  rw [payload?_eq_some]
  split
  · rename_i present
    simp [present]
  · rename_i other
    constructor
    · intro impossible
      cases impossible
    · rintro ⟨found, present, content⟩
      obtain ⟨payload, pos, stop, parent⟩ := found
      cases content
      exact absurd present (other _ _ _ _)

/-- `child` is a handle of the node `parent`. -/
def ChildStep (tree : Tree) (parent child : NodeId) : Prop :=
  ∃ payload, tree.payload? parent = some payload ∧ child ∈ payload.children

/-- A node is reached from another by steps to children. -/
def Reaches (tree : Tree) : NodeId → NodeId → Prop := ReflTransGen tree.ChildStep

/-- A node is reached from another by at least one step to a child. -/
def Below (tree : Tree) : NodeId → NodeId → Prop := TransGen tree.ChildStep

/-- No node lies below itself. -/
def Acyclic (tree : Tree) : Prop := ∀ node, ¬tree.Below node node

variable {tree : Tree}

theorem lt_size_of_get? {node : NodeId} {found : Node} (present : tree.get? node = some found) :
    node < tree.size :=
  (Array.getElem?_eq_some_iff.mp present).1

theorem ChildStep.lt_size {parent child : NodeId} (one : tree.ChildStep parent child) :
    parent < tree.size := by
  obtain ⟨payload, present, _⟩ := one
  obtain ⟨found, present, _⟩ := payload?_eq_some.mp present
  exact lt_size_of_get? present

theorem get?_of_size_le {node : NodeId} (outside : tree.size ≤ node) : tree.get? node = none :=
  Array.getElem?_eq_none outside

theorem Acyclic.descends (acyclic : tree.Acyclic) : Descends tree.ChildStep tree.size :=
  ⟨fun one => one.lt_size, acyclic⟩

/-- The number of nodes that a node reaches. -/
noncomputable def rank (tree : Tree) (node : NodeId) : Nat :=
  Dartify.rank tree.ChildStep tree.size node

theorem rank_le_size (node : NodeId) : tree.rank node ≤ tree.size :=
  Dartify.rank_le_size node

theorem Acyclic.rank_lt (acyclic : tree.Acyclic) {node other : NodeId}
    (below : tree.Below node other) : tree.rank other < tree.rank node :=
  acyclic.descends.rank_lt_of_transGen below

theorem below_of_mem {node child : NodeId} {payload : Payload}
    (present : tree.payload? node = some payload) (member : child ∈ payload.children) :
    tree.Below node child :=
  .single ⟨payload, present, member⟩

theorem Below.tail_mem {node middle child : NodeId} {payload : Payload}
    (below : tree.Below node middle) (present : tree.payload? middle = some payload)
    (member : child ∈ payload.children) : tree.Below node child :=
  .tail below ⟨payload, present, member⟩

theorem Below.reaches {node other : NodeId} (below : tree.Below node other) :
    tree.Reaches node other :=
  below.to_reflTransGen

theorem Reaches.trans {first second third : NodeId} (one : tree.Reaches first second)
    (two : tree.Reaches second third) : tree.Reaches first third :=
  ReflTransGen.trans one two

/-- Whether every handle goes to an earlier place, or out of the table. -/
def childrenFirst (tree : Tree) : Bool :=
  (List.range tree.size).all fun node =>
    ((tree.payload? node).map Payload.children).getD [] |>.all fun child =>
      child < node || tree.size ≤ child

/-- A tree that was built from its leaves up is acyclic. -/
theorem acyclic_of_childrenFirst (first : tree.childrenFirst = true) : tree.Acyclic := by
  suffices descends : Descends tree.ChildStep tree.size from descends.acyclic
  refine .of_lt (fun one => one.lt_size) ?_
  intro parent child one
  have inside := one.lt_size
  obtain ⟨payload, present, member⟩ := one
  have row := List.all_eq_true.mp first parent (List.mem_range.mpr inside)
  simp only [present, Option.map_some, Option.getD_some, List.all_eq_true] at row
  have placed := row child member
  simp only [Bool.or_eq_true, decide_eq_true_eq] at placed
  rcases placed with lower | outside
  · exact .inl lower
  · refine .inr fun after onward => ?_
    exact absurd onward.lt_size (Nat.not_lt.mpr outside)

end Tree

end Dartify
