import Dartify.Converter
import Dartify.Proofs.Grounding
import Dartify.Proofs.Transcript

/-!
# Walks on acyclic trees

Every walk that a plan makes is into a node below, so on an acyclic tree the rank of a node is all
the budget that its walk needs: larger budgets make no difference (`Context.transcriptWithin_eq`).
`Context.transcript` is the transcript at a budget that is always enough.  It has an equation
without a budget (`Context.transcript_eq`).  Facts about whole walks are proved by
`Context.walk_induction`, which gives the equation and the fact for every node that the plan walks.
On other trees the same holds of the walks that succeed (`Context.transcriptWithin_of_fine`).

The last section puts a conversion together from its parts: the extra imports, which touch neither
diagnostics nor the walk, and the transcript of the root.
-/

namespace Dartify

variable {context : Context} {categories : List Category}

namespace Context

/-- The transcript of a node, with budget for all nodes of the tree. -/
def transcript (context : Context) (categories : List Category) (node : NodeId) : Transcript :=
  context.transcriptWithin categories (context.tree.size + 1) node

/-- Two budgets above the rank of a node give the same transcript. -/
theorem transcriptWithin_congr (acyclic : context.tree.Acyclic) (node : NodeId) {small large : Nat}
    (small_enough : context.tree.rank node < small)
    (large_enough : context.tree.rank node < large) :
    context.transcriptWithin categories small node =
      context.transcriptWithin categories large node := by
  refine acyclic.descends.congr_of_rank_lt (context.transcriptWithin categories)
    (context.transcriptWithin categories) ?_ node small_enough large_enough
  intro node small large same
  simp only [transcriptWithin]
  cases present : context.tree.get? node with
  | none => rfl
  | some found =>
    exact Plan.transcript_congr fun child member => same child (below_of_planAt present member)

/-- A budget above the rank of a node gives its transcript. -/
theorem transcriptWithin_eq (acyclic : context.tree.Acyclic) {node : NodeId} {budget : Nat}
    (enough : context.tree.rank node < budget) :
    context.transcriptWithin categories budget node = context.transcript categories node :=
  transcriptWithin_congr acyclic node enough (Nat.lt_succ_of_le (Tree.rank_le_size node))

theorem transcript_of_absent {node : NodeId} (absent : context.tree.get? node = none) :
    context.transcript categories node = .stop (.missing node) := by
  simp only [transcript, transcriptWithin, absent]

/-- On an acyclic tree the transcript of a node is that of its plan. -/
theorem transcript_eq (acyclic : context.tree.Acyclic) {node : NodeId} {found : Node}
    (present : context.tree.get? node = some found) :
    context.transcript categories node =
      Plan.transcript context (context.transcript categories)
        (context.planAt categories node found) := by
  conv => lhs; simp only [transcript, transcriptWithin, present]
  refine Plan.transcript_congr fun child member => ?_
  have lower := acyclic.rank_lt (below_of_planAt present member)
  have bounded : context.tree.rank node ≤ context.tree.size := Tree.rank_le_size node
  exact transcriptWithin_eq acyclic (by omega)

/-- What holds of missing nodes, and of a node whenever it holds of the nodes that its plan walks,
holds of every node. -/
theorem walk_induction (categories : List Category) (acyclic : context.tree.Acyclic)
    {motive : NodeId → Prop}
    (absent : ∀ node, context.tree.get? node = none →
      context.transcript categories node = .stop (.missing node) → motive node)
    (planned : ∀ node found, context.tree.get? node = some found →
      context.transcript categories node =
        Plan.transcript context (context.transcript categories)
          (context.planAt categories node found) →
      (∀ child, .child child ∈ context.planAt categories node found → motive child) →
      motive node)
    (node : NodeId) : motive node := by
  induction node using acyclic.descends.induction with
  | onward node ih =>
    cases present : context.tree.get? node with
    | none => exact absent node present (transcript_of_absent present)
    | some found =>
      refine planned node found present (transcript_eq acyclic present) fun child member => ?_
      exact ih child (below_of_planAt present member)

/-! ## Walks that succeed

A walk that ends without a defect never comes back to a node, since it would go round for ever.  So
on any tree it needs no more budget than there are nodes. -/

/-- A node can be walked with some budget, and its plan walks another. -/
def Succeeds (context : Context) (categories : List Category) (node child : NodeId) : Prop :=
  (∃ budget, (context.transcriptWithin categories budget node).defect = none) ∧
  ∃ found, context.tree.get? node = some found ∧ .child child ∈ context.planAt categories node found

/-- A node that is walked without a defect is there, and the nodes that its plan walks have no
defect with one less in the budget. -/
theorem exists_of_fine {budget : Nat} {node : NodeId}
    (fine : (context.transcriptWithin categories budget node).defect = none) :
    ∃ smaller found, budget = smaller + 1 ∧ context.tree.get? node = some found ∧
      ∀ child, .child child ∈ context.planAt categories node found →
        (context.transcriptWithin categories smaller child).defect = none := by
  cases budget with
  | zero => cases fine
  | succ smaller =>
    cases present : context.tree.get? node with
    | none =>
      simp only [transcriptWithin, present] at fine
      cases fine
    | some found =>
      simp only [transcriptWithin, present] at fine
      refine ⟨smaller, found, rfl, rfl, fun child member => ?_⟩
      exact Plan.defect_transcript_eq_none_iff.mp fine (.child child) member

theorem Succeeds.exists_lt {node child : NodeId} (one : context.Succeeds categories node child)
    {budget : Nat} (fine : (context.transcriptWithin categories budget node).defect = none) :
    ∃ smaller < budget, (context.transcriptWithin categories smaller child).defect = none := by
  obtain ⟨-, found, present, member⟩ := one
  obtain ⟨smaller, found', rfl, present', children⟩ := exists_of_fine fine
  obtain rfl : found = found' := Option.some.inj (present.symm.trans present')
  exact ⟨smaller, Nat.lt_succ_self smaller, children child member⟩

/-- The budget that is needed drops along a path. -/
theorem exists_lt_of_path {start stop : NodeId}
    (path : Relation.TransGen (context.Succeeds categories) start stop) {budget : Nat}
    (fine : (context.transcriptWithin categories budget start).defect = none) :
    ∃ smaller < budget, (context.transcriptWithin categories smaller stop).defect = none := by
  induction path with
  | single one => exact one.exists_lt fine
  | tail _ one ih =>
    obtain ⟨middle, lower, fine'⟩ := ih
    obtain ⟨smaller, lower', fine''⟩ := one.exists_lt fine'
    exact ⟨smaller, Nat.lt_trans lower' lower, fine''⟩

theorem descends_succeeds (context : Context) (categories : List Category) :
    Descends (context.Succeeds categories) context.tree.size := by
  refine ⟨fun one => Tree.lt_size_of_get? one.2.choose_spec.1, fun node loop => ?_⟩
  -- no budget is the least one that is enough for a circle
  have never : ∀ budget, (context.transcriptWithin categories budget node).defect ≠ none := by
    intro budget
    induction budget using Nat.strong_induction_on with
    | _ budget ih =>
      intro fine
      obtain ⟨smaller, lower, fine'⟩ := exists_lt_of_path loop fine
      exact ih smaller lower fine'
  obtain ⟨next, ⟨⟨budget, fine⟩, -⟩, -⟩ := Relation.TransGen.head'_iff.mp loop
  exact never budget fine

/-- A walk that ends without a defect at one budget is the same at every budget above the number of
nodes. -/
theorem transcriptWithin_of_fine {node : NodeId} {budget enough : Nat}
    (fine : (context.transcriptWithin categories budget node).defect = none)
    (above : context.tree.size < enough) :
    context.transcriptWithin categories enough node =
      context.transcriptWithin categories budget node := by
  have lower : rank (context.Succeeds categories) context.tree.size node < enough :=
    Nat.lt_of_le_of_lt (rank_le_size node) above
  clear above
  induction node using (descends_succeeds context categories).induction generalizing budget enough
    with
  | onward node ih =>
    obtain ⟨smaller, found, rfl, present, children⟩ := exists_of_fine fine
    obtain ⟨less, rfl⟩ := Nat.exists_eq_add_one_of_ne_zero (Nat.ne_zero_of_lt lower)
    simp only [transcriptWithin, present]
    refine Plan.transcript_congr fun child member => ?_
    have one : context.Succeeds categories node child := ⟨⟨_, fine⟩, found, present, member⟩
    have drop := (descends_succeeds context categories).rank_lt one
    exact ih child (.single one) (children child member) (by omega)

end Context

namespace Run

variable {σ : Type}

theorem size_lt_budget (stageCount : Nat) (tree : Tree) : tree.size < budget stageCount tree := by
  have wide : 1 * (tree.size + 1) ≤ budget stageCount tree := Nat.mul_le_mul_right _ (by omega)
  omega

/-- The budget of a run is enough for every node, however many stages there are. -/
theorem rank_lt_budget (stageCount : Nat) (tree : Tree) (node : NodeId) :
    tree.rank node < budget stageCount tree :=
  Nat.lt_of_le_of_lt (Tree.rank_le_size node) (size_lt_budget stageCount tree)

/-- On any tree a walk does what its transcript lists at a budget without a defect. -/
theorem follows_walk_of_fine {node : NodeId} {budget : Nat}
    (fine : (context.transcriptWithin categories budget node).defect = none) :
    Follows (walk context (categories.map (Category.stage σ)) node)
      (context.transcriptWithin categories budget node) := by
  have wide := size_lt_budget (categories.map (Category.stage σ)).length context.tree
  rw [← Context.transcriptWithin_of_fine fine wide]
  exact follows_walkWithin context categories _ node

/-- On an acyclic tree a walk does what the transcript of its node lists. -/
theorem follows_walk (acyclic : context.tree.Acyclic) (node : NodeId) :
    Follows (walk context (categories.map (Category.stage σ)) node)
      (context.transcript categories node) := by
  have enough := rank_lt_budget (categories.map (Category.stage σ)).length context.tree node
  rw [← Context.transcriptWithin_eq acyclic enough]
  exact follows_walkWithin context categories _ node

end Run

/-! ## Extra imports -/

namespace RunState

variable {σ : Type}

/-- The state after an import was written, unless it was written before. -/
def addImport (state : RunState σ) (target : String) : RunState σ :=
  if target ∈ state.imports then state
  else
    { state with
      imports := state.imports ++ [target]
      output := state.output.token (Import.directive target) }

@[simp] theorem report_addImport (state : RunState σ) (target : String) :
    (state.addImport target).report = state.report := by
  unfold addImport
  split <;> rfl

/-- The state after several imports were written. -/
def addImports (state : RunState σ) (targets : List String) : RunState σ :=
  targets.foldl addImport state

@[simp] theorem report_addImports (state : RunState σ) (targets : List String) :
    (state.addImports targets).report = state.report := by
  induction targets generalizing state with
  | nil => rfl
  | cons target rest ih => simpa [addImports] using ih (state.addImport target)

end RunState

namespace Run

variable {σ : Type}

theorem run_writeImport (target : String) (state : RunState σ) :
    (writeImport target : Run σ Unit).run.run state = (.ok (), state.addImport target) := by
  show (if target ∈ state.imports then (pure () : Run σ Unit) else _).run.run state = _
  unfold RunState.addImport
  split <;> rfl

/-- Writing imports cannot fail. -/
theorem run_writeImportsOf (targets : List String) (state : RunState σ) :
    (writeImportsOf targets : Run σ Unit).run.run state = (.ok (), state.addImports targets) := by
  induction targets generalizing state with
  | nil => rfl
  | cons target rest ih =>
    simp only [writeImportsOf, ExceptT.run_bind, StateT.run_bind, run_writeImport]
    exact ih (state.addImport target)

end Run

/-! ## Conversions -/

namespace Converter

/-- The imports that a conversion writes in front. -/
def leadingImports {σ : Type} (converter : Converter σ) (unit : SourceUnit) :
    Except Defect (List String) :=
  if converter.options.emitExtraImports then Import.needed (converter.context unit) unit.root
  else .ok []

/-- The state in which a conversion walks the root: only imports are written. -/
def afterImports (root : Node) (targets : List String) : RunState Unit :=
  RunState.addImports { report := ⟨fileName root.payload, []⟩, user := () } targets

@[simp] theorem report_afterImports (root : Node) (targets : List String) :
    (afterImports root targets).report = ⟨fileName root.payload, []⟩ := by
  simp [afterImports]

/-- The body of a conversion finds the imports, writes them and walks the root. -/
theorem run_body {σ : Type} (converter : Converter σ) (unit : SourceUnit) (state : RunState σ) :
    (converter.body unit).run.run state =
      match converter.leadingImports unit with
      | .error defect => (.error defect, state)
      | .ok targets =>
        (Run.walk (converter.context unit) converter.stages unit.root).run.run
          (state.addImports targets) := by
  unfold body leadingImports
  split
  · simp only [Run.writeImports, ExceptT.run_bind, StateT.run_bind]
    cases Import.needed (converter.context unit) unit.root with
    | error defect => rfl
    | ok targets =>
      simp only [Run.run_writeImportsOf]
      rfl
  · rfl

/-- A conversion with built-in stages fails where the imports or the walk fail, and else has what
they write. -/
theorem convert_ofCategories {options : Options} {unit : SourceUnit} {root : Node}
    (acyclic : unit.tree.Acyclic) (present : unit.tree.get? unit.root = some root) :
    let converter := ofCategories Unit categories options
    let transcript := (converter.context unit).transcript categories unit.root
    converter.convert unit =
      match converter.leadingImports unit with
      | .error defect => .error defect
      | .ok targets =>
        match transcript.defect with
        | some defect => .error defect
        | none =>
          let final := (afterImports root targets).playAll transcript.events
          .ok ⟨fileName root.payload, final.output.text, final.report.diagnostics⟩ := by
  intro converter transcript
  have walked : Run.Follows (Run.walk (converter.context unit) converter.stages unit.root)
      transcript := Run.follows_walk acyclic unit.root
  simp only [convert, run, present, run_body]
  cases converter.leadingImports unit with
  | error defect => rfl
  | ok targets =>
    simp only [walked _, Transcript.result]
    cases transcript.defect with
    | some defect => rfl
    | none => rfl

/-- A conversion that succeeds has its imports, and what the walk from the root writes behind
them. -/
theorem exists_of_convert {options : Options} {unit : SourceUnit} {conversion : Conversion}
    (acyclic : unit.tree.Acyclic)
    (converted : (ofCategories Unit categories options).convert unit = .ok conversion) :
    let converter := ofCategories Unit categories options
    let transcript := (converter.context unit).transcript categories unit.root
    ∃ root targets, converter.leadingImports unit = .ok targets ∧ transcript.defect = none ∧
      let final := (afterImports root targets).playAll transcript.events
      conversion = ⟨fileName root.payload, final.output.text, final.report.diagnostics⟩ := by
  intro converter transcript
  cases present : unit.tree.get? unit.root with
  | none =>
    simp only [convert, run, present] at converted
    cases converted
  | some root =>
    rw [convert_ofCategories acyclic present] at converted
    split at converted
    · cases converted
    rename_i targets imported
    split at converted
    · cases converted
    rename_i fine
    cases converted
    exact ⟨root, targets, imported, fine, rfl⟩

end Converter

end Dartify
