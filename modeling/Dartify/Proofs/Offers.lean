import Dartify.Proofs.Spread
import Dartify.Proofs.Success
import Mathlib.Algebra.BigOperators.Group.List.Basic
import Mathlib.Algebra.Order.BigOperators.Group.List
import Mathlib.Algebra.Order.Ring.Nat

/-!
# How often nodes are offered

On a proper tree a walk comes to a node once, unless the node lies in an operand that is written
twice.  Such an operand doubles the visits of all nodes in it, so a node that lies in `k` of those
below the start of the walk is offered to the stages at most `2 ^ k` times (`offers_le_doublings`),
and a node that lies in none at most once.  The diagnostics about a construct without a Dart form
are made by one plan, of the node or of the enumeration around it, and so there are no more of them
than that either.

The induction is along the walk.  The plan of a node comes to another one through one of the nodes
that it walks only (`Context.eq_of_walks`), and it walks that one once, or twice if it is doubled
(`Context.count_walked`).
-/

namespace Dartify

open Plan Relation

variable {context : Context} {categories : List Category} {node : NodeId}

/-! ## One step of a walk -/

namespace Context

/-- A list of one annotated variable walks the annotation, and the plan of the variable does not. -/
theorem not_walks_of_annotated (proper : context.tree.Proper) {found : Node}
    (present : context.tree.get? node = some found) {kind : VariableKind}
    {declaration name type : NodeId} {initializer : Option NodeId}
    (both : (context.planAt categories node found).walked = [type, declaration])
    (list : context.tree.payload? node = some (.decl (.variableList kind [declaration])))
    (held : context.tree.payload? declaration =
      some (.decl (.variableDecl name (some type) initializer))) (common : NodeId)
    (walks : context.Walks categories type common) :
    ¬context.Walks categories declaration common := by
  intro walks'
  have annotation : context.tree.ChildStep declaration type :=
    ⟨_, held, by simp [Payload.children, Decl.children]⟩
  obtain ⟨found', present', stored⟩ := Tree.payload?_eq_some.mp list
  cases present.symm.trans present'
  -- a list that was passed through would walk the declaration only
  have claimed : Category.declarations ∈ categories := by
    rcases context.planAt_cases categories node found with ⟨passed, -⟩ | ⟨category, member, planned⟩
    · rw [passed] at both
      simp [passPlan, stored, Payload.children, Decl.children] at both
    · have own := (Category.plan?_isSome_iff context node).mp (by rw [planned]; rfl)
      rw [stored] at own
      cases own
      exact member
  rcases ReflTransGen.cases_head walks' with same | ⟨child, ⟨inner, inside, member⟩, onward⟩
  · subst same
    exact proper.acyclic _ (TransGen.head' annotation walks.reaches)
  · -- the variable walks its name and its initializer, which are other children of it
    obtain ⟨inner', inside', content⟩ := Tree.payload?_eq_some.mp held
    cases inside.symm.trans inside'
    rw [planAt_of_mem claimed (by rw [content]; rfl)] at member
    have part : child ∈ name :: initializer.toList := by simpa [Decl.plan] using member
    have step : context.tree.ChildStep declaration child := by
      refine ⟨_, held, ?_⟩
      simp only [Payload.children, Decl.children, Option.toList_some, List.mem_cons,
        List.mem_append, List.not_mem_nil, or_false]
      rcases List.mem_cons.mp part with rfl | later
      · exact .inl rfl
      · exact .inr (.inr later)
    have same := proper.eq_of_children step annotation (Walks.reaches onward) walks.reaches
    subst same
    have different := proper.children_nodup held
    simp only [Payload.children, Decl.children, Option.toList_some, List.singleton_append,
      List.nodup_cons, List.mem_cons, not_or] at different
    rcases List.mem_cons.mp part with rfl | later
    · exact different.1.1 rfl
    · exact different.2.1 later

/-- Of the nodes that a plan walks, one only leads to a given node. -/
theorem eq_of_walks (proper : context.tree.Proper) {found : Node}
    (present : context.tree.get? node = some found) {first second common : NodeId}
    (member : first ∈ (context.planAt categories node found).walked)
    (member' : second ∈ (context.planAt categories node found).walked)
    (walks : context.Walks categories first common)
    (walks' : context.Walks categories second common) : first = second := by
  cases spreads_planAt categories present with
  | rejecting only _ =>
    rw [only] at member
    cases member
  | apart _ front =>
    exact (proper.apart_of_front front).eq_of_reaches first member second member' common
      walks.reaches walks'.reaches
  | doubled _ front twice _ =>
    have among : ∀ {operand}, operand ∈ (context.planAt categories node found).walked →
        operand ∈ _ := fun inside => (List.mem_append.mp (twice.subset inside)).elim id id
    exact (proper.apart_of_front front).eq_of_reaches first (among member) second (among member')
      common walks.reaches walks'.reaches
  | annotated _ both list held =>
    have apart := not_walks_of_annotated proper present both list held common
    rw [both] at member member'
    simp only [List.mem_cons, List.not_mem_nil, or_false] at member member'
    rcases member with rfl | rfl
    · rcases member' with rfl | rfl
      · rfl
      · exact absurd walks' (apart walks)
    · rcases member' with rfl | rfl
      · exact absurd walks (apart walks')
      · rfl

/-- A plan walks a node once, or twice if it is a doubled operand. -/
theorem count_walked (proper : context.tree.Proper) {found : Node}
    (present : context.tree.get? node = some found) (child : NodeId) :
    (context.planAt categories node found).walked.count child ≤ 1 ∨
      context.Doubled child ∧ (context.planAt categories node found).walked.count child ≤ 2 := by
  cases spreads_planAt categories present with
  | rejecting only _ =>
    rw [only]
    exact .inl (Nat.zero_le 1)
  | apart _ front =>
    exact .inl (List.nodup_iff_count_le_one.mp (proper.apart_of_front front).nodup child)
  | @doubled operands _ front twice marked =>
    have once := List.nodup_iff_count_le_one.mp (proper.apart_of_front front).nodup child
    have most := twice.count_le child
    rw [List.count_append] at most
    by_cases member : child ∈ operands
    · exact .inr ⟨marked child member, by omega⟩
    · rw [List.count_eq_zero_of_not_mem member] at most
      exact .inl (by omega)
  | @annotated kind declaration name type initializer _ both list held =>
    refine .inl (List.nodup_iff_count_le_one.mp ?_ child)
    rw [both, List.nodup_cons]
    refine ⟨fun same => ?_, List.nodup_singleton _⟩
    cases List.mem_singleton.mp same
    exact not_walks_of_annotated proper present both list held _ .refl .refl

end Context

/-! ## Doublings -/

namespace Context

open Classical in
/-- The doubled operands below `start` that a node lies in. -/
noncomputable def doubledBelow (context : Context) (start node : NodeId) : Finset NodeId :=
  (Finset.range context.tree.size).filter fun operand =>
    context.Doubled operand ∧ context.tree.Below start operand ∧ context.tree.Reaches operand node

/-- A node lies in all operands that a node above it lies in. -/
theorem doubledBelow_subset_of_reaches {start other : NodeId}
    (reaches : context.tree.Reaches node other) :
    context.doubledBelow start node ⊆ context.doubledBelow start other := by
  intro operand member
  simp only [doubledBelow, Finset.mem_filter] at member ⊢
  exact ⟨member.1, member.2.1, member.2.2.1, member.2.2.2.trans reaches⟩

theorem doubledBelow_subset {start child : NodeId} (below : context.tree.Below start child) :
    context.doubledBelow child node ⊆ context.doubledBelow start node := by
  intro operand member
  simp only [doubledBelow, Finset.mem_filter] at member ⊢
  exact ⟨member.1, member.2.1, TransGen.trans below member.2.2.1, member.2.2.2⟩

/-- Entering a doubled operand leaves one less below. -/
theorem card_doubledBelow_lt (acyclic : context.tree.Acyclic) {start child : NodeId}
    (below : context.tree.Below start child) (doubled : context.Doubled child)
    (inside : child < context.tree.size) (reaches : context.tree.Reaches child node) :
    (context.doubledBelow child node).card < (context.doubledBelow start node).card := by
  refine Finset.card_lt_card ⟨doubledBelow_subset below, fun contained => ?_⟩
  have entered : child ∈ context.doubledBelow start node := by
    simp only [doubledBelow, Finset.mem_filter, Finset.mem_range]
    exact ⟨inside, doubled, below, reaches⟩
  have back := contained entered
  simp only [doubledBelow, Finset.mem_filter] at back
  exact acyclic child back.2.2.1

/-- All visits of a node come through one of the nodes that a plan walks. -/
theorem count_flatMap_visitsWithin (proper : context.tree.Proper) {start child : NodeId}
    {found : Node} (present : context.tree.get? start = some found)
    (member : child ∈ (context.planAt categories start found).walked) {budget : Nat}
    (visited : node ∈ context.visitsWithin categories budget child) :
    ((context.planAt categories start found).walked.flatMap
        (context.visitsWithin categories budget)).count node =
      (context.planAt categories start found).walked.count child *
        (context.visitsWithin categories budget child).count node := by
  rw [List.count_flatMap]
  refine List.sum_map_eq_nsmul_single child _ fun second differs member' => ?_
  refine List.count_eq_zero_of_not_mem fun visited' => differs ?_
  exact eq_of_walks proper present member' member (walks_of_mem_visitsWithin visited')
    (walks_of_mem_visitsWithin visited)

/-- A walk comes to a node at most as often as the doubled operands around it allow. -/
theorem count_visitsWithin (proper : context.tree.Proper) (budget : Nat) (start : NodeId) :
    (context.visitsWithin categories budget start).count node ≤
      2 ^ (context.doubledBelow start node).card := by
  induction budget generalizing start with
  | zero => exact Nat.zero_le _
  | succ budget ih =>
    cases present : context.tree.get? start with
    | none => simp [visitsWithin, present]
    | some found =>
      simp only [visitsWithin, present]
      by_cases leads : ∃ child ∈ (context.planAt categories start found).walked,
          node ∈ context.visitsWithin categories budget child
      · obtain ⟨child, member, visited⟩ := leads
        have below : context.tree.Below start child :=
          below_of_planAt present (mem_walked.mp member)
        have reaches := (walks_of_mem_visitsWithin visited).reaches
        have other : start ≠ node := by
          rintro rfl
          exact proper.acyclic _ (TransGen.trans_left below reaches)
        rw [List.count_cons_of_ne other, count_flatMap_visitsWithin proper present member visited]
        rcases count_walked proper present child with once | ⟨doubled, twice⟩
        · calc _ ≤ 1 * 2 ^ (context.doubledBelow child node).card := Nat.mul_le_mul once (ih child)
            _ = 2 ^ (context.doubledBelow child node).card := Nat.one_mul _
            _ ≤ 2 ^ (context.doubledBelow start node).card :=
              Nat.pow_le_pow_right (by omega) (Finset.card_le_card (doubledBelow_subset below))
        · have inside := lt_size_of_mem_visitsWithin visited
          have entered := card_doubledBelow_lt proper.acyclic below doubled inside reaches
          calc _ ≤ 2 * 2 ^ (context.doubledBelow child node).card := Nat.mul_le_mul twice (ih child)
            _ = 2 ^ ((context.doubledBelow child node).card + 1) := by
              rw [Nat.pow_succ, Nat.mul_comm]
            _ ≤ 2 ^ (context.doubledBelow start node).card :=
              Nat.pow_le_pow_right (by omega) entered
      · have nowhere : node ∉ (context.planAt categories start found).walked.flatMap
            (context.visitsWithin categories budget) := fun visited =>
          leads (List.mem_flatMap.mp visited)
        have positive : 1 ≤ 2 ^ (context.doubledBelow start node).card := Nat.one_le_two_pow
        rw [List.count_cons, List.count_eq_zero_of_not_mem nowhere]
        split <;> omega

end Context

/-! ## Rejections -/

/-- Whether an event complains that a node has no Dart form. -/
def Event.rejects (node : NodeId) : Event → Bool
  | .complain other _ cause => other == node && cause.kind == .unsupportedConstruct
  | _ => false

/-- One node answers for a node. -/
theorem Tree.Proper.answers_unique {tree : Tree} (proper : tree.Proper) {first second : NodeId}
    (one : tree.Answers first node) (two : tree.Answers second node) : first = second := by
  cases one with
  | own held single =>
    cases two with
    | own => rfl
    | member _ _ held' single' =>
      cases held.symm.trans held'
      rw [single] at single'
      cases single'
  | member enumeration among held single =>
    cases two with
    | own held' single' =>
      cases held.symm.trans held'
      rw [single] at single'
      cases single'
    | member enumeration' among' =>
      exact proper.parent_unique ⟨_, enumeration, List.mem_cons_of_mem _ among⟩
        ⟨_, enumeration', List.mem_cons_of_mem _ among'⟩

theorem Tree.Answers.reaches {tree : Tree} {owner : NodeId} (answers : tree.Answers owner node) :
    tree.Reaches owner node := by
  cases answers with
  | own => exact .refl
  | member enumeration among => exact .single ⟨_, enumeration, List.mem_cons_of_mem _ among⟩

theorem Tree.Proper.exists_answers {tree : Tree} (proper : tree.Proper) (node : NodeId) :
    ∃ owner, (∀ other, tree.Answers other node → other = owner) ∧ tree.Reaches owner node := by
  by_cases answered : ∃ owner, tree.Answers owner node
  · obtain ⟨owner, answers⟩ := answered
    exact ⟨owner, fun other answers' => proper.answers_unique answers' answers, answers.reaches⟩
  · exact ⟨node, fun other answers => absurd ⟨other, answers⟩ answered, .refl⟩

/-- A plan that rejects nothing itself leaves rejections to the nodes that it walks. -/
theorem Plan.countP_transcript {walk : NodeId → Transcript} {plan : Plan}
    (accepts : Meets .accepting plan) :
    (plan.transcript context walk).events.countP (Event.rejects node) ≤
      (plan.walked.map fun child => (walk child).events.countP (Event.rejects node)).sum := by
  induction plan with
  | nil => exact Nat.zero_le _
  | cons directive rest ih =>
    obtain ⟨first, others⟩ := meets_cons.mp accepts
    have own : (directive.transcript context walk).events.countP (Event.rejects node) ≤
        (directive.walked?.toList.map fun child =>
          (walk child).events.countP (Event.rejects node)).sum := by
      cases directive with
      | child child => simp [Directive.transcript, Directive.walked?]
      | complain other cause =>
        have kind : cause.kind ≠ .unsupportedConstruct := first
        cases present : context.tree.get? other <;>
          simp [Directive.transcript, present, Transcript.stop, Transcript.one, Event.rejects, kind]
      | _ => simp [Directive.transcript, Transcript.stop, Transcript.one, Event.rejects]
    rw [walked_cons, List.map_append, List.sum_append, Plan.transcript]
    cases ended : (directive.transcript context walk).defect with
    | none =>
      rw [Transcript.events_append ended, List.countP_append]
      exact Nat.add_le_add own (ih others)
    | some defect =>
      rw [Transcript.append_of_some ended]
      exact Nat.le_trans own (Nat.le_add_right _ _)

/-- A single complaint rejects the node that it is made at. -/
theorem Plan.countP_complain {walk : NodeId → Transcript} (other : NodeId) (cause : Complaint) :
    (Plan.transcript context walk [.complain other cause]).events.countP (Event.rejects node) ≤
      [other].count node := by
  have single : Plan.transcript context walk [.complain other cause] =
      Directive.transcript context walk (.complain other cause) ++ .empty := rfl
  rw [single]
  cases present : context.tree.get? other with
  | none =>
    have stops : Directive.transcript context walk (.complain other cause) =
        .stop (.missing other) := by
      simp [Directive.transcript, present]
    rw [stops, Transcript.append_of_some rfl]
    exact Nat.zero_le _
  | some found =>
    have made : Directive.transcript context walk (.complain other cause) =
        .one (.complain other found cause) := by
      simp [Directive.transcript, present]
    rw [made, Transcript.append_of_none rfl]
    by_cases same : other = node
    · rw [same, List.count_singleton_self]
      exact List.countP_le_length
    · simp [Transcript.one, Transcript.empty, Event.rejects, same]

/-- A node is rejected at most as often as a walk comes to the one that answers for it. -/
theorem Context.countP_transcriptWithin {owner : NodeId}
    (only : ∀ other, context.tree.Answers other node → other = owner) (budget : Nat)
    (start : NodeId) :
    (context.transcriptWithin categories budget start).events.countP (Event.rejects node) ≤
      (context.visitsWithin categories budget start).count owner := by
  induction budget generalizing start with
  | zero => exact Nat.zero_le _
  | succ budget ih =>
    cases present : context.tree.get? start with
    | none => simp [transcriptWithin, visitsWithin, present, Transcript.stop]
    | some found =>
      simp only [transcriptWithin, visitsWithin, present]
      rcases (spreads_planAt categories present).accepts_or_rejects with
        accepts | ⟨other, cause, single, answers⟩
      · calc _ ≤ _ := countP_transcript accepts
          _ ≤ ((context.planAt categories start found).walked.map fun child =>
                (context.visitsWithin categories budget child).count owner).sum :=
            List.sum_le_sum fun child _ => ih child
          _ = ((context.planAt categories start found).walked.flatMap
                (context.visitsWithin categories budget)).count owner := List.count_flatMap.symm
          _ ≤ _ := List.count_le_count_cons
      · rw [single]
        refine Nat.le_trans (countP_complain other cause) ?_
        by_cases same : other = node
        · subst same
          rw [only start answers]
          simp
        · rw [List.count_singleton, beq_false_of_ne same]
          exact Nat.zero_le _

/-! ## Conversions -/

/-- On a proper tree a node that lies in `k` of the doubled operands below the root is offered to
the stages at most `2 ^ k` times, and gives rise to at most `2 ^ k` diagnostics that it has no Dart
form.  Outside of doubled operands both happen at most once. -/
theorem offers_le_doublings (categories : List Category) (options : Options) (unit : SourceUnit)
    (proper : unit.tree.Proper) :
    let converter := Converter.ofCategories Unit categories options
    let context := converter.context unit
    let recorded := (Converter.recording categories options).run unit []
    let events := (context.transcript categories unit.root).events
    recorded.1 = converter.convert unit ∧
    (∀ node, recorded.2.count node ≤ 2 ^ (context.doubledBelow unit.root node).card) ∧
    (∀ conversion, converter.convert unit = .ok conversion →
      conversion.diagnostics = Event.diagnostics events conversion.fileName) ∧
    ∀ node, events.countP (Event.rejects node) ≤
      2 ^ (context.doubledBelow unit.root node).card := by
  intro converter context recorded events
  obtain ⟨undisturbed, budget, begins⟩ := Converter.run_recording categories options proper.acyclic
  refine ⟨undisturbed, fun node => ?offered, fun conversion converted => ?listed,
    fun node => ?rejected⟩
  case offered =>
    calc recorded.2.count node
        ≤ (context.visitsWithin categories budget unit.root).count node :=
          begins.sublist.count_le node
      _ ≤ 2 ^ (context.doubledBelow unit.root node).card :=
          Context.count_visitsWithin proper budget unit.root
  case listed => exact (Converter.diagnostics_eq_of_convert proper.acyclic converted).2
  case rejected =>
    obtain ⟨owner, only, reaches⟩ := proper.exists_answers node
    calc events.countP (Event.rejects node)
        ≤ (context.visitsWithin categories (unit.tree.size + 1) unit.root).count owner :=
          Context.countP_transcriptWithin only _ unit.root
      _ ≤ 2 ^ (context.doubledBelow unit.root owner).card :=
          Context.count_visitsWithin proper _ unit.root
      _ ≤ 2 ^ (context.doubledBelow unit.root node).card :=
          Nat.pow_le_pow_right (by omega)
            (Finset.card_le_card (Context.doubledBelow_subset_of_reaches reaches))

/-- A key of `Map.delete` that is an operator without a Dart form: `m.delete(k in o)`. -/
def deletedKey : SourceUnit where
  tree :=
    { nodes := #[⟨.name (.identifier "m"), 0, 1, some 2⟩,
        ⟨.name (.identifier "delete"), 2, 8, some 2⟩,
        ⟨.expr (.propertyAccess 0 1), 0, 8, some 6⟩,
        ⟨.name (.identifier "k"), 9, 10, some 5⟩,
        ⟨.name (.identifier "o"), 14, 15, some 5⟩,
        ⟨.expr (.binary 3 .within 4), 9, 15, some 6⟩,
        ⟨.expr (.call 2 [] [5]), 0, 16, some 7⟩,
        ⟨.stmt (.exprStmt 6), 0, 17, some 8⟩,
        ⟨.sourceFile "unit" [7], 0, 17, none⟩] }
  root := 8
  resolver := some (Bindings.empty.declare "Map" ⟨64⟩ "angular2/typings/es6-shim/es6-shim.d.ts"
    |>.declareMember 0 "delete" .method
    |>.bind 1 1).resolver

/-- The receiver and the key are offered twice each, and the key is complained about twice. -/
theorem deletedKey_offered_twice :
    deletedKey.tree.Proper ∧
    ((Converter.recording Category.all {}).run deletedKey []).2 = [8, 7, 6, 0, 5, 0, 5] ∧
    ∃ diagnostic, (Converter.standard {}).convert deletedKey =
      .ok ⟨"unit", " ( m . containsKey ( ) && ( m . remove ( ) != null || true ) ) ;",
        [diagnostic, diagnostic]⟩ := by
  refine ⟨Tree.proper_of_childrenFirst (by decide) (by decide) (by decide), by decide +kernel,
    .error "unit" 9 6 .unsupportedConstruct "in operator is unsupported", by decide +kernel⟩

/-- A shorthand property whose name is an element access: `{ a[0] }`. -/
def shorthandOperand : SourceUnit where
  tree :=
    { nodes := #[⟨.name (.identifier "a"), 2, 3, some 2⟩,
        ⟨.literal (.numeric "0"), 4, 5, some 2⟩,
        ⟨.expr (.elementAccess 0 1), 2, 6, some 3⟩,
        ⟨.literal (.shorthandProperty 2), 2, 6, some 4⟩,
        ⟨.literal (.object [3]), 0, 8, some 5⟩,
        ⟨.stmt (.exprStmt 4), 0, 9, some 6⟩,
        ⟨.sourceFile "unit" [5], 0, 9, none⟩] }
  root := 6

/-- The name is offered as the key and as the value, so it is in a doubled operand. -/
theorem shorthandOperand_offers :
    shorthandOperand.tree.Proper ∧
    ((Converter.recording Category.all {}).run shorthandOperand []).2 =
      [6, 5, 4, 3, 2, 0, 1, 2, 0, 1] ∧
    1 ≤ (((Converter.standard {}).context shorthandOperand).doubledBelow 6 1).card := by
  have proper : shorthandOperand.tree.Proper :=
    Tree.proper_of_childrenFirst (by decide) (by decide) (by decide)
  have offered : ((Converter.recording Category.all {}).run shorthandOperand []).2 =
      [6, 5, 4, 3, 2, 0, 1, 2, 0, 1] := by decide +kernel
  refine ⟨proper, offered, ?_⟩
  have bound := (offers_le_doublings Category.all {} shorthandOperand proper).2.1 1
  rw [offered] at bound
  refine Nat.one_le_iff_ne_zero.mpr fun outside => ?_
  have twice :
      2 ≤ 2 ^ (((Converter.standard {}).context shorthandOperand).doubledBelow 6 1).card := bound
  rw [outside] at twice
  exact absurd twice (by decide)

end Dartify
