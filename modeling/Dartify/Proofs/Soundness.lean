import Dartify.Proofs.Walk

/-!
# Defects come from faults

A conversion with built-in stages stops only when the tree is at fault, and the defect says where:
`convert_error_fault`.  The walk and the scan for extra imports are taken apart in the same way.
Both follow handles downward, so the defect of a node is its own or that of a node below.
-/

namespace Dartify

variable {context : Context} {categories : List Category}

/-- The defect that ends a walk is a fault below its node. -/
theorem Context.fault_of_transcript (acyclic : context.tree.Acyclic) {node : NodeId}
    {defect : Defect} (ended : (context.transcript categories node).defect = some defect) :
    Fault context.tree categories node defect := by
  induction node using walk_induction categories acyclic with
  | absent node missing stops =>
    rw [stops] at ended
    cases ended
    exact .missing missing (.inl rfl)
  | planned node found present unfolds ih =>
    rw [unfolds] at ended
    obtain ⟨directive, member, stopped⟩ := Plan.exists_of_defect_transcript ended
    have grounded := context.planAt_grounded categories present directive member
    cases directive with
    | token word => cases stopped
    | glue text => cases stopped
    | attach => cases stopped
    | child other => exact (ih other member stopped).mono grounded.reaches
    | complain other cause =>
      simp only [Directive.transcript] at stopped
      split at stopped
      · rename_i missing
        cases stopped
        exact .missing_of_reaches grounded.1 missing
      · cases stopped
    | abort stop =>
      cases stopped
      exact grounded

namespace Import

/-- Where a scan over several nodes fails, the scan of one of them fails. -/
theorem exists_of_foldlM_error {scan : List String → NodeId → Except Defect (List String)}
    {nodes : List NodeId} {targets : List String} {defect : Defect}
    (failed : nodes.foldlM scan targets = .error defect) :
    ∃ node ∈ nodes, ∃ before, scan before node = .error defect := by
  induction nodes generalizing targets with
  | nil => cases failed
  | cons node rest ih =>
    rw [List.foldlM_cons] at failed
    cases first : scan targets node with
    | error other =>
      rw [first] at failed
      cases failed
      exact ⟨node, List.mem_cons_self .., targets, first⟩
    | ok after =>
      rw [first] at failed
      obtain ⟨other, member, stopped⟩ := ih failed
      exact ⟨other, List.mem_cons_of_mem _ member, stopped⟩

/-- The defect that ends a scan for imports is a fault below its node. -/
theorem fault_of_collect (acyclic : context.tree.Acyclic) {node : NodeId} {budget : Nat}
    {targets : List String} {defect : Defect} (enough : context.tree.rank node < budget)
    (failed : collect context budget targets node = .error defect) :
    Fault context.tree categories node defect := by
  induction budget generalizing node targets with
  | zero => omega
  | succ budget ih =>
    simp only [collect] at failed
    cases present : context.tree.get? node with
    | none =>
      rw [present] at failed
      cases failed
      exact .missing present (.inl rfl)
    | some found =>
      rw [present] at failed
      obtain ⟨child, member, before, stopped⟩ := exists_of_foldlM_error failed
      have below := Tree.below_of_mem (Tree.payload?_of_get? present) member
      have lower := acyclic.rank_lt below
      exact (ih (by omega) stopped).mono below.reaches

theorem fault_of_needed (acyclic : context.tree.Acyclic) {root : NodeId} {defect : Defect}
    (failed : needed context root = .error defect) :
    Fault context.tree categories root defect := by
  unfold needed at failed
  split at failed
  · cases failed
  · exact fault_of_collect acyclic (Nat.lt_succ_of_le (Tree.rank_le_size root)) failed

end Import

namespace Converter

theorem fault_of_leadingImports {σ : Type} {converter : Converter σ} {unit : SourceUnit}
    {defect : Defect} (acyclic : unit.tree.Acyclic)
    (failed : converter.leadingImports unit = .error defect) :
    Fault unit.tree categories unit.root defect := by
  unfold leadingImports at failed
  split at failed
  · exact Import.fault_of_needed (show (converter.context unit).tree.Acyclic from acyclic) failed
  · cases failed

/-- A conversion that stops does so at a fault. -/
theorem fault_of_convert {options : Options} {unit : SourceUnit} {defect : Defect}
    (acyclic : unit.tree.Acyclic)
    (failed : (ofCategories Unit categories options).convert unit = .error defect) :
    Fault unit.tree categories unit.root defect := by
  cases present : unit.tree.get? unit.root with
  | none =>
    simp only [convert, run, present] at failed
    cases failed
    exact .missing present (.inl rfl)
  | some root =>
    rw [convert_ofCategories acyclic present] at failed
    split at failed
    · rename_i stopped
      cases failed
      exact fault_of_leadingImports acyclic stopped
    · split at failed
      · rename_i ended
        cases failed
        exact Context.fault_of_transcript acyclic ended
      · cases failed

end Converter

/-- A chain with all categories claims every childless node but an empty source file. -/
theorem Fault.ne_unhandled {tree : Tree} {root : NodeId} {defect : Defect}
    (complete : ∀ category, category ∈ categories) (fault : Fault tree categories root defect) :
    ∀ kind pos, defect ≠ .unhandled kind pos := by
  intro kind pos same
  cases fault with
  | missing absent named => cases same
  | unexpected reached present misplaced => cases same
  | @unhandled node found reached present childless content unclaimed =>
    cases claimed : found.payload.category? with
    | none =>
      unfold Payload.category? at claimed
      split at claimed <;> simp_all [Run.isSourceFile]
    | some category => exact unclaimed category (complete category) claimed

/-- Every defect of a conversion with built-in stages comes from a fault that the root reaches; a
tree without faults is converted; and a chain of all categories leaves no node unhandled. -/
theorem convert_error_fault (categories : List Category) (options : Options) (unit : SourceUnit)
    (acyclic : unit.tree.Acyclic) :
    (∀ defect, (Converter.ofCategories Unit categories options).convert unit = .error defect →
      Fault unit.tree categories unit.root defect) ∧
    ((∀ defect, ¬Fault unit.tree categories unit.root defect) →
      ∃ conversion,
        (Converter.ofCategories Unit categories options).convert unit = .ok conversion) ∧
    ((∀ category, category ∈ categories) → ∀ kind pos,
      (Converter.ofCategories Unit categories options).convert unit ≠
        .error (.unhandled kind pos)) := by
  refine ⟨fun defect failed => Converter.fault_of_convert acyclic failed, fun faultless => ?_,
    fun complete kind pos failed => ?_⟩
  · cases converted : (Converter.ofCategories Unit categories options).convert unit with
    | ok conversion => exact ⟨conversion, rfl⟩
    | error defect =>
      exact absurd (Converter.fault_of_convert acyclic converted) (faultless defect)
  · exact (Converter.fault_of_convert acyclic failed).ne_unhandled complete kind pos rfl

/-- A `try` statement whose catch clause binds a number. -/
def numberedCatch : SourceUnit where
  tree :=
    { nodes := #[⟨.literal (.numeric "1"), 13, 14, some 1⟩,
        ⟨.decl (.variableDecl 0 none none), 13, 14, some 3⟩,
        ⟨.stmt (.block []), 4, 6, some 4⟩,
        ⟨.stmt (.catchClause 1 2), 7, 18, some 4⟩,
        ⟨.stmt (.tryCatch 2 (some 3) none), 0, 18, none⟩] }
  root := 4

/-- The number is found where an identifier is expected, two levels below the catch clause. -/
theorem fault_of_numberedCatch :
    numberedCatch.tree.Acyclic ∧
    Fault numberedCatch.tree Category.all 4 (.unexpected "Identifier" "NumericLiteral" 13) := by
  have acyclic : numberedCatch.tree.Acyclic := Tree.acyclic_of_childrenFirst (by decide)
  exact ⟨acyclic, (convert_error_fault Category.all {} numberedCatch acyclic).1 _ (by decide)⟩

end Dartify
