import Dartify.Proofs.Appending

/-!
# Which nodes are offered

`Context.visitsWithin` lists the nodes that a walk comes to, in order and as often as it comes to
them, without a run.  A stage that claims nothing and keeps what it was offered shows the list in a
run: what it keeps is the list, or the beginning of it when a defect ends the walk
(`Run.records_walkWithin`).  Nothing else changes by it (`Converter.run_recording`).
-/

namespace Dartify

variable {context : Context} {categories : List Category}

/-! ## Visits -/

/-- The node that a directive walks. -/
def Directive.walked? : Directive → Option NodeId
  | .child node => some node
  | _ => none

namespace Plan

/-- The nodes that a plan walks, in order. -/
def walked (plan : Plan) : List NodeId :=
  plan.filterMap Directive.walked?

theorem walked_cons (directive : Directive) (rest : Plan) :
    walked (directive :: rest) = directive.walked?.toList ++ walked rest := by
  cases held : directive.walked? <;> simp [walked, held]

theorem mem_walked {plan : Plan} {node : NodeId} : node ∈ plan.walked ↔ .child node ∈ plan := by
  have only : ∀ directive : Directive, directive.walked? = some node ↔ directive = .child node := by
    intro directive
    cases directive <;> simp [Directive.walked?]
  simp [walked, only]

end Plan

namespace Context

/-- The nodes that a walk comes to, where nodes may be nested `budget` deep. -/
def visitsWithin (context : Context) (categories : List Category) : Nat → NodeId → List NodeId
  | 0, _ => []
  | budget + 1, node =>
    match context.tree.get? node with
    | none => []
    | some found =>
      node :: (context.planAt categories node found).walked.flatMap
        (visitsWithin context categories budget)

/-- The plan of a node walks another one. -/
def WalkStep (context : Context) (categories : List Category) (node child : NodeId) : Prop :=
  ∃ found, context.tree.get? node = some found ∧
    child ∈ (context.planAt categories node found).walked

/-- A walk from a node comes to another one. -/
def Walks (context : Context) (categories : List Category) : NodeId → NodeId → Prop :=
  Relation.ReflTransGen (context.WalkStep categories)

theorem WalkStep.below {node child : NodeId} (step : context.WalkStep categories node child) :
    context.tree.Below node child := by
  obtain ⟨found, present, member⟩ := step
  exact below_of_planAt present (Plan.mem_walked.mp member)

theorem Walks.reaches {node other : NodeId} (walks : context.Walks categories node other) :
    context.tree.Reaches node other := by
  induction walks with
  | refl => exact .refl
  | tail _ step ih => exact ih.trans step.below.reaches

theorem walks_of_mem_visitsWithin {budget : Nat} {node other : NodeId}
    (member : other ∈ context.visitsWithin categories budget node) :
    context.Walks categories node other := by
  induction budget generalizing node with
  | zero => cases member
  | succ budget ih =>
    unfold visitsWithin at member
    split at member
    · cases member
    rename_i found present
    rcases List.mem_cons.mp member with rfl | onward
    · exact .refl
    · obtain ⟨child, among, inside⟩ := List.mem_flatMap.mp onward
      exact .head ⟨found, present, among⟩ (ih inside)

/-- A walk comes to nothing from a missing node. -/
theorem lt_size_of_mem_visitsWithin {budget : Nat} {node other : NodeId}
    (member : other ∈ context.visitsWithin categories budget node) : node < context.tree.size := by
  cases budget with
  | zero => cases member
  | succ budget =>
    unfold visitsWithin at member
    split at member
    · cases member
    · rename_i present
      exact Tree.lt_size_of_get? present

end Context

/-! ## Recording -/

/-- A stage that claims no node and keeps all that it was offered. -/
def Stage.recorder : Stage (List NodeId) where
  name := "recorder"
  attempt _ _ node _ := do
    modify fun state => { state with user := state.user ++ [node] }
    return false

namespace Run

/-- In every state a computation does what a transcript lists, and adds nodes to those that were
kept: the listed ones, or the first of them when a defect ends it. -/
def Records (computation : Run (List NodeId) Unit) (transcript : Transcript)
    (visits : List NodeId) : Prop :=
  ∀ state, ∃ offered, offered <+: visits ∧ (transcript.defect = none → offered = visits) ∧
    computation.run.run state =
      (transcript.result,
        { state.playAll transcript.events with user := state.user ++ offered })

/-- What follows a transcript and keeps no node records nothing. -/
theorem Follows.records {computation : Run (List NodeId) Unit} {transcript : Transcript}
    (follows : Follows computation transcript) : Records computation transcript [] := by
  intro state
  refine ⟨[], List.prefix_rfl, fun _ => rfl, ?_⟩
  rw [follows state, RunState.playAll_eq, List.append_nil]

/-- Computations one after the other record their visits one after the other. -/
theorem Records.seq {first second : Run (List NodeId) Unit} {one two : Transcript}
    {visits others : List NodeId} (left : Records first one visits)
    (right : Records second two others) :
    Records (do first; second) (one ++ two) (visits ++ others) := by
  intro state
  obtain ⟨offered, begins, whole, start⟩ := left state
  cases ended : one.defect with
  | none =>
    obtain ⟨later, begins', whole', onward⟩ := right
      { state.playAll one.events with user := state.user ++ offered }
    rw [Transcript.append_of_none ended, whole ended] at *
    refine ⟨visits ++ later, (List.prefix_append_right_inj visits).mpr begins', ?_, ?_⟩
    · intro fine
      rw [whole' fine]
    · simp only [ExceptT.run_bind, StateT.run_bind, start, Transcript.result, ended]
      change second.run.run _ = _
      rw [onward, RunState.playAll_append]
      simp only [RunState.playAll_eq, List.append_assoc]
      rfl
  | some defect =>
    rw [Transcript.append_of_some ended]
    refine ⟨offered, begins.trans (List.prefix_append _ _), ?_, ?_⟩
    · intro fine
      rw [ended] at fine
      cases fine
    · simp only [ExceptT.run_bind, StateT.run_bind, start, Transcript.result, ended]
      rfl

theorem records_direct {walk : NodeId → Run (List NodeId) Unit} {course : NodeId → Transcript}
    {visits : NodeId → List NodeId}
    (walks : ∀ node, Records (walk node) (course node) (visits node))
    (directive : Directive) :
    Records (direct context walk directive) (directive.transcript context course)
      (directive.walked?.toList.flatMap visits) := by
  cases directive with
  | child node => simpa [Directive.walked?, Directive.transcript, direct] using walks node
  | token word => exact Follows.records fun _ => rfl
  | glue text => exact Follows.records fun _ => rfl
  | attach => exact Follows.records fun _ => rfl
  | complain node cause => exact Follows.records (follows_report context course node cause)
  | abort defect => exact Follows.records (follows_throw defect)

theorem records_perform {walk : NodeId → Run (List NodeId) Unit} {course : NodeId → Transcript}
    {visits : NodeId → List NodeId}
    (walks : ∀ node, Records (walk node) (course node) (visits node))
    (plan : Plan) :
    Records (perform context walk plan) (plan.transcript context course)
      (plan.walked.flatMap visits) := by
  induction plan with
  | nil => exact Follows.records follows_pure
  | cons directive rest ih =>
    rw [Plan.walked_cons, List.flatMap_append]
    exact (records_direct walks directive).seq ih

/-- Keeps a node. -/
def keep (node : NodeId) : Run (List NodeId) Unit :=
  modify fun state => { state with user := state.user ++ [node] }

theorem records_keep (node : NodeId) : Records (keep node) .empty [node] := by
  intro state
  exact ⟨[node], List.prefix_rfl, fun _ => rfl, rfl⟩

/-- With a recorder in front, walking a node keeps it and carries out its plan. -/
theorem walkWithin_recorder_succ (categories : List Category) (budget : Nat) {node : NodeId}
    {found : Node} (present : context.tree.get? node = some found) :
    let stages := Stage.recorder :: categories.map (Category.stage _)
    walkWithin context stages (budget + 1) node =
      (do
        keep node
        perform context (walkWithin context stages budget)
          (context.planAt categories node found)) := by
  intro stages
  have offers : ∀ walk : NodeId → Run (List NodeId) Unit, offer context walk node found stages =
      (do
        keep node
        offer context walk node found (categories.map (Category.stage _))) := by
    intro walk
    simp [stages, offer, Stage.recorder, keep]
  simp only [walkWithin, present, offers, offer_stages, Context.planAt]
  cases categories.findSome? fun category => category.plan? context node found.payload with
  | some plan => simp
  | none => simp [passThrough_eq_perform context]

/-- A recorder in front of built-in stages keeps the nodes that the walk comes to. -/
theorem records_walkWithin (context : Context) (categories : List Category) (budget : Nat)
    (node : NodeId) :
    Records (walkWithin context (Stage.recorder :: categories.map (Category.stage _)) budget node)
      (context.transcriptWithin categories budget node)
      (context.visitsWithin categories budget node) := by
  induction budget generalizing node with
  | zero => exact Follows.records (follows_throw .exhausted)
  | succ budget ih =>
    cases present : context.tree.get? node with
    | none =>
      simp only [walkWithin, Context.transcriptWithin, Context.visitsWithin, present]
      exact Follows.records (follows_throw (.missing node))
    | some found =>
      rw [walkWithin_recorder_succ categories budget present]
      simp only [Context.transcriptWithin, Context.visitsWithin, present]
      exact (records_keep node).seq (records_perform ih _)

end Run

namespace RunState

variable {σ τ : Type}

/-- A state with another state of the stages. -/
def withUser (state : RunState σ) (user : τ) : RunState τ :=
  { output := state.output, report := state.report, imports := state.imports, user }

/-- Imports do not look at the state of the stages. -/
theorem addImports_withUser (state : RunState σ) (user : τ) (targets : List String) :
    (state.withUser user).addImports targets = (state.addImports targets).withUser user := by
  induction targets generalizing state with
  | nil => rfl
  | cons target rest ih =>
    have first : (state.withUser user).addImport target =
        (state.addImport target).withUser user := by
      by_cases written : target ∈ state.imports
      · simp [addImport, withUser, written]
      · simp [addImport, withUser, written]
    show ((state.withUser user).addImport target).addImports rest = _
    rw [first, ih]
    rfl

end RunState

namespace Converter

/-- The chain of built-in stages of some categories, with a recorder in front. -/
def recording (categories : List Category) (options : Options) : Converter (List NodeId) :=
  ⟨Stage.recorder :: categories.map (Category.stage _), options⟩

/-- A recorder leaves the conversion as it was, and keeps the beginning of the visits from the
root. -/
theorem run_recording (categories : List Category) (options : Options) {unit : SourceUnit}
    (acyclic : unit.tree.Acyclic) :
    ((recording categories options).run unit []).1 =
        (ofCategories Unit categories options).convert unit ∧
      ∃ budget, ((recording categories options).run unit []).2 <+:
        ((ofCategories Unit categories options).context unit).visitsWithin categories budget
          unit.root := by
  cases present : unit.tree.get? unit.root with
  | none =>
    simp only [convert, run, present]
    exact ⟨trivial, 0, List.nil_prefix⟩
  | some root =>
    have imports : (recording categories options).leadingImports unit =
        (ofCategories Unit categories options).leadingImports unit := rfl
    simp only [run, present, run_body, imports]
    rw [convert_ofCategories acyclic present]
    cases (ofCategories Unit categories options).leadingImports unit with
    | error defect => exact ⟨rfl, 0, List.nil_prefix⟩
    | ok targets =>
      have start : ({ report := ⟨fileName root.payload, []⟩, user := [] } :
          RunState (List NodeId)).addImports targets = (afterImports root targets).withUser [] :=
        RunState.addImports_withUser { report := ⟨fileName root.payload, []⟩, user := () } []
          targets
      obtain ⟨offered, begins, -, walked⟩ := Run.records_walkWithin
        ((ofCategories Unit categories options).context unit) categories
        (Run.budget (recording categories options).stages.length unit.tree) unit.root
        ((afterImports root targets).withUser [])
      have enough := Run.rank_lt_budget (recording categories options).stages.length unit.tree
        unit.root
      have budgeted : ((ofCategories Unit categories options).context unit).transcriptWithin
          categories (Run.budget (recording categories options).stages.length unit.tree) unit.root =
            ((ofCategories Unit categories options).context unit).transcript categories unit.root :=
        Context.transcriptWithin_eq acyclic enough
      rw [budgeted, RunState.playAll_eq] at walked
      have done : (Run.walk ((recording categories options).context unit)
          (recording categories options).stages unit.root).run.run
            ((afterImports root targets).withUser []) = _ := walked
      simp only [start, done, Transcript.result, RunState.playAll_eq]
      cases (((ofCategories Unit categories options).context unit).transcript categories
          unit.root).defect with
      | none => exact ⟨rfl, _, begins⟩
      | some defect => exact ⟨rfl, _, begins⟩

end Converter

end Dartify
