import Dartify.Proofs.Termination

/-!
# The order of handles

`Tree.preorder` lists the handles that are met from a node on: the node itself, and then what is met
from each of its children in turn.  A shared node is listed as often as it is met, and a handle
without a node is listed too.  On an acyclic tree the budget of its definition plays no part
(`Tree.Acyclic.preorder_eq`).

The scan for extra imports goes through this list: it stops at the first handle without a node, and
else lists the targets in the order of their first use (`Import.needed_of_complete`).  A loop with a
stack of handles, which takes one handle off and puts the children of its node in its place, goes
through the same list (`Import.scan_eq_needed`).
-/

namespace Dartify

/-! ## Handles in order -/

namespace Tree

/-- The handles of the node at a handle, none if there is no such node. -/
def childrenOf (tree : Tree) (node : NodeId) : List NodeId :=
  ((tree.payload? node).map Payload.children).getD []

/-- The handles met from a node on, for nodes nested at most `budget` deep. -/
def preorderWithin (tree : Tree) : Nat → NodeId → List NodeId
  | 0, _ => []
  | budget + 1, node => node :: (tree.childrenOf node).flatMap (preorderWithin tree budget)

/-- The handles met from a node on, each before those of its node. -/
def preorder (tree : Tree) (node : NodeId) : List NodeId :=
  tree.preorderWithin (tree.size + 1) node

/-- The first handle met from a node on that has no node. -/
def firstMissing? (tree : Tree) (node : NodeId) : Option NodeId :=
  (tree.preorder node).find? fun handle => (tree.get? handle).isNone

variable {tree : Tree} {node : NodeId}

theorem childrenOf_of_get? {found : Node} (present : tree.get? node = some found) :
    tree.childrenOf node = found.payload.children := by
  simp [childrenOf, payload?, present]

theorem childStep_iff {child : NodeId} :
    tree.ChildStep node child ↔ child ∈ tree.childrenOf node := by
  cases held : tree.payload? node <;> simp [ChildStep, childrenOf, held]

namespace Acyclic

theorem preorderWithin_congr (acyclic : tree.Acyclic) (node : NodeId) {small large : Nat}
    (small_enough : tree.rank node < small) (large_enough : tree.rank node < large) :
    tree.preorderWithin small node = tree.preorderWithin large node := by
  refine acyclic.descends.congr_of_rank_lt tree.preorderWithin tree.preorderWithin ?_ node
    small_enough large_enough
  intro node small large same
  simp only [preorderWithin]
  congr 1
  refine List.flatMap_congr fun child member => ?_
  exact same child (.single (childStep_iff.mpr member))

/-- A node comes first, and then what is met from its children in turn. -/
theorem preorder_eq (acyclic : tree.Acyclic) (node : NodeId) :
    tree.preorder node = node :: (tree.childrenOf node).flatMap tree.preorder := by
  rw [preorder, preorderWithin]
  congr 1
  refine List.flatMap_congr fun child member => ?_
  have lower := acyclic.rank_lt (.single (childStep_iff.mpr member))
  have bounded : tree.rank node ≤ tree.size := rank_le_size node
  exact acyclic.preorderWithin_congr child (by omega) (by omega)

/-- Exactly the handles that are reached are met. -/
theorem mem_preorder_iff (acyclic : tree.Acyclic) {node handle : NodeId} :
    handle ∈ tree.preorder node ↔ tree.Reaches node handle := by
  constructor
  · intro member
    induction node using acyclic.descends.induction with
    | onward node ih =>
      rw [acyclic.preorder_eq] at member
      rcases List.mem_cons.mp member with rfl | below
      · exact .refl
      · obtain ⟨child, among, met⟩ := List.mem_flatMap.mp below
        have one := childStep_iff.mpr among
        exact .head one (ih child (.single one) met)
  · intro reached
    induction reached using Relation.ReflTransGen.head_induction_on with
    | refl =>
      rw [acyclic.preorder_eq]
      exact List.mem_cons_self
    | head one _ met =>
      rw [acyclic.preorder_eq]
      exact List.mem_cons_of_mem _ (List.mem_flatMap.mpr ⟨_, childStep_iff.mp one, met⟩)

theorem firstMissing?_of_reaches (acyclic : tree.Acyclic) {node handle : NodeId}
    (reached : tree.Reaches node handle) (absent : tree.get? handle = none) :
    ∃ first, tree.firstMissing? node = some first := by
  refine Option.isSome_iff_exists.mp (List.find?_isSome.mpr ⟨handle, ?_, ?_⟩)
  · exact acyclic.mem_preorder_iff.mpr reached
  · simp [absent]

end Acyclic

/-! ## Dotted names -/

/-- A name with its dotted text. -/
inductive Spells (tree : Tree) : NodeId → String → Prop where
  /-- An identifier stands for its text. -/
  | identifier {node : NodeId} {text : String}
      (held : tree.payload? node = some (.name (.identifier text))) : Spells tree node text
  /-- A qualified name has a dot between its parts, and its right part is an identifier. -/
  | qualified {node left right : NodeId} {front last : String}
      (held : tree.payload? node = some (.name (.qualified left right)))
      (before : Spells tree left front)
      (behind : tree.payload? right = some (.name (.identifier last))) :
      Spells tree node (front ++ "." ++ last)

/-- The text that is read for a name is the one that it spells. -/
theorem Acyclic.entityText?_eq_some_iff (acyclic : tree.Acyclic) {text : String} :
    tree.entityText? node = some text ↔ tree.Spells node text := by
  have unfolds : ∀ node, tree.entityText? node = tree.dottedText? (tree.size + 1) node :=
    fun node => (acyclic.dottedText?_eq (Nat.le_succ _) node).symm
  constructor
  · intro read
    induction node using acyclic.descends.induction generalizing text with
    | onward node ih =>
      rw [unfolds, dottedText?] at read
      split at read
      · rename_i present
        cases read
        exact .identifier (payload?_of_get? present)
      · rename_i left right pos stop parent present
        simp only [Option.bind_eq_bind, Option.bind_eq_some_iff, Option.pure_def,
          Option.some.injEq] at read
        obtain ⟨front, before, last, behind, rfl⟩ := read
        have held := payload?_of_get? present
        have below : tree.Below node left := below_of_mem held (List.mem_cons_self ..)
        exact .qualified held (ih left below before) (identifierText?_eq_some_iff.mp behind)
      · cases read
  · intro spelled
    induction spelled with
    | identifier held =>
      obtain ⟨⟨payload, pos, stop, parent⟩, present, content⟩ := payload?_eq_some.mp held
      cases content
      simp only [unfolds, dottedText?, present]
    | qualified held _ behind ih =>
      obtain ⟨⟨payload, pos, stop, parent⟩, present, content⟩ := payload?_eq_some.mp held
      cases content
      have before : tree.dottedText? tree.size _ = _ := ih
      simp only [unfolds, dottedText?, present, before, identifierText?_eq_some_iff.mpr behind,
        Option.bind_eq_bind, Option.bind_some, Option.pure_def]

end Tree

/-! ## Targets in the order of first use -/

namespace Import

/-- The targets that are not among `seen`, each where it first stands. -/
def fresh (seen targets : List String) : List String :=
  (targets.removeAll seen).eraseDups

theorem fresh_nil (seen : List String) : fresh seen [] = [] := rfl

theorem fresh_cons_of_mem {seen : List String} {target : String} (known : target ∈ seen)
    (rest : List String) : fresh seen (target :: rest) = fresh seen rest := by
  simp [fresh, List.removeAll, known]

theorem fresh_cons_of_notMem {seen : List String} {target : String} (unknown : target ∉ seen)
    (rest : List String) :
    fresh seen (target :: rest) = target :: fresh (seen ++ [target]) rest := by
  have others : (rest.removeAll seen).filter (fun other => !other == target) =
      rest.removeAll (seen ++ [target]) := by
    simp only [List.removeAll, List.filter_filter]
    refine List.filter_congr fun other _ => ?_
    by_cases same : other = target <;> simp [same]
  have first : (target :: rest).removeAll seen = target :: rest.removeAll seen := by
    simp [List.removeAll, unknown]
  rw [fresh, first, List.eraseDups_cons, others, fresh]

/-- What is new in two lists is what is new in the first, and then what is still new in the
second. -/
theorem fresh_append (seen first second : List String) :
    fresh seen (first ++ second) =
      fresh seen first ++ fresh (seen ++ fresh seen first) second := by
  induction first generalizing seen with
  | nil => simp [fresh_nil]
  | cons target rest ih =>
    by_cases known : target ∈ seen
    · rw [List.cons_append, fresh_cons_of_mem known, fresh_cons_of_mem known, ih]
    · rw [List.cons_append, fresh_cons_of_notMem known, fresh_cons_of_notMem known, ih]
      simp

/-- What is fresh once is fresh. -/
theorem fresh_fresh (seen targets : List String) :
    fresh seen (fresh seen targets) = fresh seen targets := by
  induction targets generalizing seen with
  | nil => rfl
  | cons target rest ih =>
    by_cases known : target ∈ seen
    · rw [fresh_cons_of_mem known, ih]
    · rw [fresh_cons_of_notMem known, fresh_cons_of_notMem known, ih]

theorem notMem_fresh {seen : List String} {target : String} (known : target ∈ seen)
    (targets : List String) : target ∉ fresh seen targets := by
  intro member
  have kept := List.mem_eraseDups.mp member
  simp [List.removeAll, known] at kept

theorem nodup_fresh (seen targets : List String) : (fresh seen targets).Nodup := by
  induction targets generalizing seen with
  | nil => exact List.nodup_nil
  | cons target rest ih =>
    by_cases known : target ∈ seen
    · rw [fresh_cons_of_mem known]
      exact ih seen
    · rw [fresh_cons_of_notMem known]
      have unrepeated : target ∉ fresh (seen ++ [target]) rest :=
        notMem_fresh (List.mem_append_right _ List.mem_cons_self) rest
      exact List.nodup_cons.mpr ⟨unrepeated, ih _⟩

theorem fresh_of_unseen (targets : List String) : fresh [] targets = targets.eraseDups := by
  simp [fresh, List.removeAll]

theorem foldl_listed (seen targets : List String) :
    targets.foldl (fun seen target => listed seen (some target)) seen =
      seen ++ fresh seen targets := by
  induction targets generalizing seen with
  | nil => simp [fresh_nil]
  | cons target rest ih =>
    rw [List.foldl_cons, ih, listed]
    split
    · rename_i known
      rw [fresh_cons_of_mem known]
    · rename_i unknown
      rw [fresh_cons_of_notMem unknown]
      simp

/-! ## The scan -/

variable (context : Context)

/-- The target that the node at a handle needs. -/
def targetAt? (node : NodeId) : Option String :=
  (context.tree.payload? node).bind (target? context)

/-- The targets needed from a node on, in the order of their first use. -/
def firstUses (node : NodeId) : List String :=
  ((context.tree.preorder node).filterMap (targetAt? context)).eraseDups

/-- The node at a handle is a reference to a type whose dotted name has an import. -/
def Needs (node : NodeId) (target : String) : Prop :=
  ∃ name arguments text,
    context.tree.payload? node = some (.type (.reference name arguments)) ∧
    context.tree.Spells name text ∧ context.catalog.imports.lookup text = some target

/-- Adds the target that the node at a handle needs. -/
def meet (targets : List String) (node : NodeId) : Except Defect (List String) :=
  match context.tree.get? node with
  | none => .error (.missing node)
  | some found => .ok (listed targets (target? context found.payload))

/-- Takes handles off a stack, with the targets found so far.  The children of a node take its
place.  There is no result when `steps` are too few. -/
def scan : Nat → List NodeId → List String → Option (Except Defect (List String))
  | _, [], targets => some (.ok targets)
  | 0, _ :: _, _ => none
  | steps + 1, node :: stack, targets =>
    match context.tree.get? node with
    | none => some (.error (.missing node))
    | some found =>
      scan steps (found.payload.children ++ stack) (listed targets (target? context found.payload))

variable {context}

theorem targetAt?_eq_some_iff (acyclic : context.tree.Acyclic) {node : NodeId} {target : String} :
    targetAt? context node = some target ↔ Needs context node target := by
  unfold targetAt? Needs
  rw [Option.bind_eq_some_iff]
  constructor
  · rintro ⟨payload, held, found⟩
    unfold target? at found
    split at found
    · rename_i name arguments
      obtain ⟨text, read, listed⟩ := Option.bind_eq_some_iff.mp found
      exact ⟨name, arguments, text, held, acyclic.entityText?_eq_some_iff.mp read, listed⟩
    · cases found
  · rintro ⟨name, arguments, text, held, spelled, listed⟩
    refine ⟨_, held, Option.bind_eq_some_iff.mpr ⟨text, ?_, listed⟩⟩
    exact acyclic.entityText?_eq_some_iff.mpr spelled

/-- Meeting handles in order stops at the first one without a node. -/
theorem foldlM_meet (nodes : List NodeId) (targets : List String) :
    nodes.foldlM (meet context) targets =
      match nodes.find? fun node => (context.tree.get? node).isNone with
      | some first => .error (.missing first)
      | none => .ok (targets ++ fresh targets (nodes.filterMap (targetAt? context))) := by
  rw [← foldl_listed]
  induction nodes generalizing targets with
  | nil => rfl
  | cons node rest ih =>
    rw [List.foldlM_cons, meet]
    cases present : context.tree.get? node with
    | none => simp [present, bind, Except.bind]
    | some found =>
      have here : targetAt? context node = target? context found.payload := by
        simp [targetAt?, Tree.payload?, present]
      cases needs : target? context found.payload <;>
        simp [present, bind, Except.bind, ih, here, needs, listed]

/-- The recursive scan meets the handles in order. -/
theorem collect_eq (acyclic : context.tree.Acyclic) {node : NodeId} {budget : Nat}
    (enough : context.tree.rank node < budget) (targets : List String) :
    collect context budget targets node =
      (context.tree.preorder node).foldlM (meet context) targets := by
  induction node using acyclic.descends.induction generalizing budget targets with
  | onward node ih =>
    obtain ⟨budget, rfl⟩ := Nat.exists_eq_add_one_of_ne_zero (Nat.ne_zero_of_lt enough)
    rw [acyclic.preorder_eq, List.foldlM_cons, collect, meet]
    cases present : context.tree.get? node with
    | none => rfl
    | some found =>
      rw [Tree.childrenOf_of_get? present]
      have each : ∀ child ∈ found.payload.children, ∀ targets,
          collect context budget targets child =
            (context.tree.preorder child).foldlM (meet context) targets := by
        intro child member targets
        have below := Tree.below_of_mem (Tree.payload?_of_get? present) member
        have lower := acyclic.rank_lt below
        exact ih child below (by omega) targets
      have flat : ∀ (children : List NodeId) (targets : List String),
          children.foldlM (fun targets child =>
            (context.tree.preorder child).foldlM (meet context) targets) targets =
          (children.flatMap context.tree.preorder).foldlM (meet context) targets := by
        intro children targets
        induction children generalizing targets with
        | nil => rfl
        | cons child rest ih => simp [List.foldlM_append, ih]
      exact (foldlM_congr each _).trans (flat _ _)

/-- Every step of the loop takes the first of the handles that are still to be met. -/
theorem scan_eq (acyclic : context.tree.Acyclic) {steps : Nat} {stack : List NodeId}
    (enough : (stack.flatMap context.tree.preorder).length ≤ steps) (targets : List String) :
    scan context steps stack targets =
      some ((stack.flatMap context.tree.preorder).foldlM (meet context) targets) := by
  induction steps generalizing stack targets with
  | zero =>
    cases stack with
    | nil => rfl
    | cons node stack =>
      rw [List.flatMap_cons, acyclic.preorder_eq] at enough
      exact absurd enough (Nat.not_succ_le_zero _)
  | succ steps ih =>
    cases stack with
    | nil => rfl
    | cons node stack =>
      have first : (node :: stack).flatMap context.tree.preorder =
          node :: (context.tree.childrenOf node ++ stack).flatMap context.tree.preorder := by
        rw [List.flatMap_cons, acyclic.preorder_eq, List.flatMap_append, List.cons_append]
      rw [first] at enough ⊢
      rw [scan, List.foldlM_cons, meet]
      cases present : context.tree.get? node with
      | none => rfl
      | some found =>
        rw [Tree.childrenOf_of_get? present] at enough ⊢
        exact ih (Nat.le_of_succ_le_succ enough) _

/-- The targets needed from a node on are those of the handles in order. -/
theorem needed_eq_foldlM (acyclic : context.tree.Acyclic)
    (known : context.catalog.imports.isEmpty = false) (root : NodeId) :
    needed context root = (context.tree.preorder root).foldlM (meet context) [] := by
  have bounded : context.tree.rank root ≤ context.tree.size := Tree.rank_le_size root
  rw [needed, known, if_neg Bool.false_ne_true, collect_eq acyclic (Nat.lt_succ_of_le bounded)]

theorem needed_of_missing (acyclic : context.tree.Acyclic)
    (known : context.catalog.imports.isEmpty = false) {root first : NodeId}
    (missing : context.tree.firstMissing? root = some first) :
    needed context root = .error (.missing first) := by
  rw [Tree.firstMissing?] at missing
  simp only [needed_eq_foldlM acyclic known, foldlM_meet, missing]

theorem needed_of_complete (acyclic : context.tree.Acyclic)
    (known : context.catalog.imports.isEmpty = false) {root : NodeId}
    (complete : context.tree.firstMissing? root = none) :
    needed context root = .ok (firstUses context root) := by
  rw [Tree.firstMissing?] at complete
  simp only [needed_eq_foldlM acyclic known, foldlM_meet, complete, List.nil_append,
    fresh_of_unseen, firstUses]

theorem scan_eq_needed (acyclic : context.tree.Acyclic)
    (known : context.catalog.imports.isEmpty = false) {root : NodeId} {steps : Nat}
    (enough : (context.tree.preorder root).length ≤ steps) :
    scan context steps [root] [] = some (needed context root) := by
  have whole : [root].flatMap context.tree.preorder = context.tree.preorder root :=
    List.flatMap_singleton ..
  rw [scan_eq acyclic (whole ▸ enough), whole, needed_eq_foldlM acyclic known]

end Import

end Dartify
