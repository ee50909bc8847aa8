import Dartify.Proofs.Appending
import Dartify.Proofs.Rejection

/-!
# Successful conversions

Without a resolver, the standard converter makes no diagnostic just when no rejected construct can
be come to from the root.  A transcript is *quiet* when it has neither a defect nor a complaint.  A
plan has a quiet transcript when it has no complaint, does not stop, and walks nodes with quiet
transcripts (`Plan.quiet_transcript_iff`).  Clean nodes were described by their plans in the same
words, so the two agree along every walk that ends without a defect
(`Context.quiet_transcript_iff`).
-/

namespace Dartify

open Plan

/-! ## Quiet transcripts -/

/-- Whether an event is a complaint. -/
def Event.isComplaint : Event → Bool
  | .complain _ _ _ => true
  | _ => false

/-- Events without a complaint make no diagnostics. -/
theorem Event.diagnostics_eq_nil_iff {events : List Event} {file : String} :
    diagnostics events file = [] ↔ ∀ event ∈ events, event.isComplaint = false := by
  have same : ∀ event, diagnostic? file event = none ↔ event.isComplaint = false := by
    intro event
    cases event <;> simp [diagnostic?, isComplaint]
  simp [diagnostics, List.filterMap_eq_nil_iff, same]

/-- A walk ends without a defect and makes no diagnostic. -/
def Transcript.Quiet (transcript : Transcript) : Prop :=
  transcript.defect = none ∧ ∀ event ∈ transcript.events, event.isComplaint = false

theorem Transcript.quiet_append {first second : Transcript} :
    Quiet (first ++ second) ↔ Quiet first ∧ Quiet second := by
  unfold Quiet
  rw [defect_append_eq_none_iff]
  constructor
  · rintro ⟨⟨fine, others⟩, silent⟩
    rw [events_append fine] at silent
    obtain ⟨before, after⟩ := List.forall_mem_append.mp silent
    exact ⟨⟨fine, before⟩, others, after⟩
  · rintro ⟨⟨fine, before⟩, others, after⟩
    rw [events_append fine]
    exact ⟨⟨fine, others⟩, List.forall_mem_append.mpr ⟨before, after⟩⟩

/-- What is asked of a plan whose transcript is to be quiet, where `walk` gives the transcripts of
nodes. -/
def Demand.quiet (walk : NodeId → Transcript) : Demand where
  child node := (walk node).Quiet
  complain _ _ := False
  abort _ := False
  attach := True

variable {context : Context} {walk : NodeId → Transcript}

theorem Directive.quiet_transcript_iff {directive : Directive} :
    (directive.transcript context walk).Quiet ↔ directive.Meets (.quiet walk) := by
  cases directive with
  | child node => exact Iff.rfl
  | complain node cause =>
    cases present : context.tree.get? node <;>
      simp [Directive.transcript, present, Transcript.Quiet, Transcript.stop, Transcript.one,
        Event.isComplaint, Demand.quiet]
  | _ =>
    simp [Directive.transcript, Transcript.Quiet, Transcript.stop, Transcript.one,
      Event.isComplaint, Demand.quiet]

namespace Plan

theorem quiet_transcript_iff {plan : Plan} :
    (plan.transcript context walk).Quiet ↔ Meets (.quiet walk) plan := by
  induction plan with
  | nil => simp [transcript, Transcript.Quiet, Transcript.empty]
  | cons directive rest ih =>
    rw [transcript, Transcript.quiet_append, Directive.quiet_transcript_iff, ih, meets_cons]

/-- A plan whose transcript has no defect does not stop. -/
theorem unstopped_of_defect {plan : Plan} (fine : (plan.transcript context walk).defect = none) :
    Meets .unstopped plan := by
  intro directive member
  have part := defect_transcript_eq_none_iff.mp fine directive member
  cases directive with
  | abort defect => cases part
  | _ => trivial

/-- Everything that a plan does is done by one of its directives. -/
theorem exists_of_mem_events {plan : Plan} {event : Event}
    (member : event ∈ (plan.transcript context walk).events) :
    ∃ directive ∈ plan, event ∈ (directive.transcript context walk).events := by
  induction plan with
  | nil => cases member
  | cons directive rest ih =>
    rcases Transcript.mem_events_append member with early | late
    · exact ⟨directive, List.mem_cons_self .., early⟩
    · obtain ⟨other, among, done⟩ := ih late
      exact ⟨other, List.mem_cons_of_mem _ among, done⟩

end Plan

/-! ## Walks without a resolver -/

namespace Context

/-- The standard chain has a plan of its form for every node but a source file. -/
theorem planAt_all (context : Context) (node : NodeId) (found : Node) :
    (∃ file statements, found.payload = .sourceFile file statements) ∨
    ∃ category, Category.plan? context node category found.payload =
      some (context.planAt Category.all node found) := by
  rcases context.planAt_cases Category.all node found with ⟨-, unclaimed⟩ | ⟨category, -, planned⟩
  · left
    cases held : found.payload with
    | sourceFile file statements => exact ⟨file, statements, rfl⟩
    | _ => simp [held, Payload.category?, Category.all] at unclaimed
  · exact .inr ⟨category, planned⟩

/-- A plan of the standard chain that does not stop is free of complaints and walks clean nodes only
when its own node is clean. -/
theorem clean_planAt (offline : context.resolver = none) {node : NodeId} {found : Node}
    (present : context.tree.get? node = some found)
    (unstopped : Meets .unstopped (context.planAt Category.all node found)) :
    Meets (.clean context.tree) (context.planAt Category.all node found) ↔
      context.tree.Clean (node, .plain) := by
  have held := Tree.payload?_of_get? present
  rcases context.planAt_all node found with ⟨file, statements, content⟩ | ⟨category, planned⟩
  · rw [planAt_sourceFile context Category.all node content]
    rw [content] at held
    rw [Tree.clean_iff held]
    simp [Tree.rejects, Entry.kept, Payload.children]
  · exact Category.clean_plan? offline held planned unstopped

/-- A walk that ends without a defect makes no diagnostic just when its node is clean. -/
theorem quiet_transcript_iff (offline : context.resolver = none)
    (acyclic : context.tree.Acyclic) {node : NodeId}
    (fine : (context.transcript Category.all node).defect = none) :
    (context.transcript Category.all node).Quiet ↔ context.tree.Clean (node, .plain) := by
  induction node using walk_induction Category.all acyclic with
  | absent node missing stops =>
    rw [stops] at fine
    cases fine
  | planned node found present unfolds ih =>
    rw [unfolds] at fine ⊢
    -- both sides now ask the same of the plan, except at the nodes that it walks
    rw [Plan.quiet_transcript_iff, ← clean_planAt offline present (unstopped_of_defect fine)]
    refine forall₂_congr fun directive member => ?_
    cases directive with
    | child child => exact ih child member (defect_transcript_eq_none_iff.mp fine _ member)
    | _ => exact Iff.rfl

/-- Every complaint of a walk is made at a node that its node reaches, with the span of that node.
Without a resolver it is about a construct that has no Dart form. -/
theorem complain_grounded {categories : List Category} (acyclic : context.tree.Acyclic)
    {node other : NodeId} {found : Node} {cause : Complaint}
    (member : .complain other found cause ∈ (context.transcript categories node).events) :
    context.tree.Reaches node other ∧ context.tree.get? other = some found ∧
      (context.resolver = none → cause.kind = .unsupportedConstruct) := by
  induction node using walk_induction categories acyclic with
  | absent node missing stops =>
    rw [stops] at member
    cases member
  | planned node holder present unfolds ih =>
    rw [unfolds] at member
    obtain ⟨directive, among, done⟩ := exists_of_mem_events member
    have grounded := context.planAt_grounded categories present _ among
    cases directive with
    | child child =>
      obtain ⟨reached, held, kind⟩ := ih child among done
      exact ⟨grounded.reaches.trans reached, held, kind⟩
    | complain target reason =>
      cases held : context.tree.get? target with
      | none => simp [Directive.transcript, held, Transcript.stop] at done
      | some holder =>
        simp only [Directive.transcript, held, Transcript.one, List.mem_singleton] at done
        cases done
        exact ⟨grounded.1, held, grounded.2⟩
    | _ => simp [Directive.transcript, Transcript.stop, Transcript.one] at done

/-- Without a resolver every complaint of a walk is about a construct that has no Dart form. -/
theorem kind_of_complain {categories : List Category} (offline : context.resolver = none)
    (acyclic : context.tree.Acyclic) {node other : NodeId} {found : Node} {cause : Complaint}
    (member : .complain other found cause ∈ (context.transcript categories node).events) :
    cause.kind = .unsupportedConstruct :=
  (complain_grounded acyclic member).2.2 offline

end Context

/-! ## Conversions without a resolver -/

/-- The diagnostics of a conversion are those of the walk from its root, in the file of the root. -/
theorem Converter.diagnostics_eq_of_convert {categories : List Category} {options : Options}
    {unit : SourceUnit} {conversion : Conversion} (acyclic : unit.tree.Acyclic)
    (converted : (ofCategories Unit categories options).convert unit = .ok conversion) :
    let transcript := ((ofCategories Unit categories options).context unit).transcript categories
      unit.root
    transcript.defect = none ∧
      conversion.diagnostics = Event.diagnostics transcript.events conversion.fileName := by
  intro transcript
  obtain ⟨root, targets, -, fine, rfl⟩ := exists_of_convert acyclic converted
  refine ⟨fine, ?_⟩
  rw [RunState.playAll_eq, report_afterImports]
  rfl

/-- Without a resolver, the diagnostics of a conversion are all about constructs that have no Dart
form, and there are none just when no such construct can be come to from the root by steps that
avoid the erased positions. -/
theorem convert_success_iff (options : Options) (unit : SourceUnit) (conversion : Conversion)
    (acyclic : unit.tree.Acyclic)
    (offline : unit.resolver = none ∨ options.useIdioms = false)
    (converted : (Converter.standard options).convert unit = .ok conversion) :
    (∀ diagnostic ∈ conversion.diagnostics, diagnostic.kind = .unsupportedConstruct) ∧
    (conversion.isSuccess = true ↔
      ∀ place, Relation.ReflTransGen unit.tree.KeptStep (unit.root, .plain) place →
        ¬unit.tree.Rejected place.1) := by
  let context := (Converter.standard options).context unit
  have silent : context.resolver = none := by
    show (if options.useIdioms then unit.resolver else none) = none
    rcases offline with absent | off
    · simp [absent]
    · simp [off]
  obtain ⟨fine, listed⟩ := Converter.diagnostics_eq_of_convert acyclic converted
  constructor
  · intro diagnostic member
    rw [listed] at member
    obtain ⟨event, done, made⟩ := List.mem_filterMap.mp member
    cases event with
    | complain node found cause =>
      cases made
      exact Context.kind_of_complain silent acyclic done
    | _ => cases made
  · have clean : (context.transcript Category.all unit.root).Quiet ↔
        unit.tree.Clean (unit.root, .plain) :=
      Context.quiet_transcript_iff silent acyclic fine
    rw [Conversion.isSuccess, List.isEmpty_iff, listed, Event.diagnostics_eq_nil_iff]
    exact Iff.trans ⟨fun quiet => ⟨fine, quiet⟩, fun quiet => quiet.2⟩ clean

/-- An arrow function whose return type is a function type. -/
def erasedResult : SourceUnit where
  tree :=
    { nodes := #[⟨.type (.keyword .void), 10, 14, some 1⟩,
        ⟨.type (.function [] [] 0), 4, 14, some 3⟩,
        ⟨.name (.identifier "x"), 19, 20, some 3⟩,
        ⟨.decl (.arrow [] (some 1) 2), 0, 20, some 4⟩,
        ⟨.stmt (.exprStmt 3), 0, 21, some 5⟩,
        ⟨.sourceFile "unit" [4], 0, 21, none⟩] }
  root := 5

/-- The return type is a rejected construct, but no step leads to it. -/
theorem erasedResult_success :
    erasedResult.tree.Acyclic ∧ erasedResult.tree.Rejected 1 ∧
    ¬Relation.ReflTransGen erasedResult.tree.KeptStep (5, .plain) (1, .plain) := by
  have acyclic : erasedResult.tree.Acyclic := Tree.acyclic_of_childrenFirst (by decide)
  have rejected : erasedResult.tree.Rejected 1 := ⟨.type (.function [] [] 0), by decide, by decide⟩
  have converted : (Converter.standard {}).convert erasedResult =
      .ok ⟨"unit", " ( ) => x ;", []⟩ := by decide
  obtain ⟨-, success⟩ := convert_success_iff {} erasedResult _ acyclic (.inl rfl) converted
  exact ⟨acyclic, rejected, fun path => success.mp rfl _ path rejected⟩

end Dartify
