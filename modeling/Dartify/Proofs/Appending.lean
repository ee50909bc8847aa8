import Dartify.Proofs.Walk

/-!
# Walks only append

What a walk leaves behind is what was there before and something after it, which is fixed by the
node: a text, and diagnostics.  The state before the walk decides one thing only, the space in front
of the text.  A token that comes first goes without it when it attaches.

The attachment that a template span asks for could break this, since it stays pending until
something is written.  It does not, because a span always glues its closing brace.  Events are
`Event.Settled` when they leave no attachment of their own pending and ask for none before their
first text.  Settled events can be put one after the other (`Event.Settled.append`), and the events
of every walk that ends without a defect are settled (`Context.settled_transcriptWithin`).
-/

namespace Dartify

/-! ## Texts and diagnostics of events -/

/-- A text after an event. -/
def Output.play (output : Output) : Event → Output
  | .token word => output.token word
  | .glue text => output.glue text
  | .attach => output.attach
  | .complain _ _ _ => output

/-- A text after several events. -/
def Output.playAll (output : Output) (events : List Event) : Output :=
  events.foldl play output

namespace Event

/-- Whether an event writes text. -/
def isWrite : Event → Bool
  | .token _ | .glue _ => true
  | .attach | .complain _ _ _ => false

/-- The diagnostic that an event makes in a file. -/
def diagnostic? (file : String) : Event → Option Diagnostic
  | .complain _ found cause =>
    some (.error file found.pos (found.stop - found.pos) cause.kind cause.message)
  | _ => none

/-- The first event that writes text. -/
def firstWrite? (events : List Event) : Option Event :=
  events.find? isWrite

/-- The text that events write, where `attached` tells whether the first token attaches. -/
def text (events : List Event) (attached : Bool) : String :=
  (Output.playAll ⟨"", attached⟩ events).text

/-- Whether a token attaches after events, where `attached` tells it for before. -/
def attachedAfter (events : List Event) (attached : Bool) : Bool :=
  (Output.playAll ⟨"", attached⟩ events).attached

/-- The diagnostics that events make in a file. -/
def diagnostics (events : List Event) (file : String) : List Diagnostic :=
  events.filterMap (diagnostic? file)

end Event

namespace Output

@[simp] theorem playAll_nil (output : Output) : output.playAll [] = output := rfl

@[simp] theorem playAll_cons (output : Output) (event : Event) (rest : List Event) :
    output.playAll (event :: rest) = (output.play event).playAll rest := rfl

theorem playAll_concat (output : Output) (first second : List Event) :
    output.playAll (first ++ second) = (output.playAll first).playAll second := by
  simp [playAll]

/-- Events append to a text, and what they append does not depend on it. -/
theorem playAll_eq (output : Output) (events : List Event) :
    output.playAll events =
      ⟨output.text ++ Event.text events output.attached,
        Event.attachedAfter events output.attached⟩ := by
  -- a longer text in front stays in front of each event
  have framed : ∀ (front back : String) (attached : Bool),
      playAll ⟨front ++ back, attached⟩ events =
        ⟨front ++ (playAll ⟨back, attached⟩ events).text,
          (playAll ⟨back, attached⟩ events).attached⟩ := by
    induction events with
    | nil => exact fun front back attached => rfl
    | cons event rest ih =>
      intro front back attached
      cases event with
      | token word =>
        cases attached <;> simpa [play, token, String.append_assoc] using ih front _ false
      | glue text => simpa [play, glue, String.append_assoc] using ih front (back ++ text) false
      | attach => exact ih front back true
      | complain node found cause => exact ih front back attached
  have whole := framed output.text "" output.attached
  rw [String.append_empty] at whole
  exact whole

end Output

/-- Events act on the text and on the report, each for itself, and on nothing else. -/
theorem RunState.playAll_eq {σ : Type} (state : RunState σ) (events : List Event) :
    state.playAll events =
      { state with
        output := state.output.playAll events
        report := ⟨state.report.fileName,
          state.report.diagnostics ++ Event.diagnostics events state.report.fileName⟩ } := by
  induction events generalizing state with
  | nil => simp [Event.diagnostics]
  | cons event rest ih =>
    rw [playAll_cons, ih]
    cases event <;>
      simp [play, Output.play, Event.diagnostics, Event.diagnostic?, Report.add,
        List.filterMap_cons]

@[simp] theorem RunState.output_playAll {σ : Type} (state : RunState σ) (events : List Event) :
    (state.playAll events).output = state.output.playAll events := by
  rw [playAll_eq]

/-! ## Settled events -/

namespace Event

theorem text_append (first second : List Event) (attached : Bool) :
    text (first ++ second) attached =
      text first attached ++ text second (attachedAfter first attached) := by
  unfold text
  rw [Output.playAll_concat, Output.playAll_eq ((Output.playAll ⟨"", attached⟩ first))]
  rfl

theorem attachedAfter_append (first second : List Event) (attached : Bool) :
    attachedAfter (first ++ second) attached =
      attachedAfter second (attachedAfter first attached) := by
  unfold attachedAfter
  rw [Output.playAll_concat, Output.playAll_eq ((Output.playAll ⟨"", attached⟩ first))]
  rfl

theorem firstWrite?_append (first second : List Event) :
    firstWrite? (first ++ second) = (firstWrite? first).or (firstWrite? second) :=
  List.find?_append

/-- Events that write nothing have no text. -/
theorem text_of_firstWrite?_none {events : List Event} (silent : firstWrite? events = none)
    (attached : Bool) : text events attached = "" := by
  induction events generalizing attached with
  | nil => rfl
  | cons event rest ih =>
    obtain ⟨noWrite, others⟩ : isWrite event = false ∧ firstWrite? rest = none := by
      simpa [firstWrite?] using silent
    cases event with
    | token word => cases noWrite
    | glue text => cases noWrite
    | attach => exact ih others true
    | complain node found cause => exact ih others attached

/-- How the text of events depends on an attachment that is pending before them: the space in front
of a first token is left out. -/
def SpacedBy (first : Option Event) (plain attached : String) : Prop :=
  match first with
  | some (.token _) => plain = " " ++ attached
  | _ => attached = plain

/-- Events leave an attachment pending only when it was pending before them and they write nothing,
and an attachment before them takes away the space of a first token and nothing else. -/
structure Settled (events : List Event) : Prop where
  /-- An attachment is pending afterwards when it was before and nothing was written. -/
  pending : ∀ attached, attachedAfter events attached =
    (attached && (firstWrite? events).isNone)
  /-- The two texts differ in the space of a first token. -/
  spaced : SpacedBy (firstWrite? events) (text events false) (text events true)

theorem settled_nil : Settled [] := ⟨fun attached => by simp [attachedAfter, firstWrite?], rfl⟩

theorem settled_token (word : String) : Settled [.token word] :=
  ⟨fun attached => by cases attached <;> rfl, by
    simp [SpacedBy, firstWrite?, isWrite, text, Output.play, Output.token]⟩

theorem settled_complain (node : NodeId) (found : Node) (cause : Complaint) :
    Settled [.complain node found cause] :=
  ⟨fun attached => by cases attached <;> rfl, rfl⟩

/-- Events between two glued texts are settled, whatever they are. -/
theorem settled_glued (opening closing : String) (inner : List Event) :
    Settled (.glue opening :: (inner ++ [.glue closing])) := by
  constructor
  · intro attached
    have closed := attachedAfter_append (.glue opening :: inner) [.glue closing] attached
    rw [List.cons_append] at closed
    rw [closed]
    simp [attachedAfter, Output.play, Output.glue, firstWrite?, isWrite]
  · show text _ true = text _ false
    rfl

theorem settled_glue (text : String) : Settled [.glue text] :=
  ⟨fun attached => by cases attached <;> rfl, rfl⟩

/-- Settled events one after the other are settled. -/
theorem Settled.append {first second : List Event} (one : Settled first) (two : Settled second) :
    Settled (first ++ second) := by
  cases written : firstWrite? first with
  | none =>
    -- nothing is written first, so the second part starts in the state before both
    have onward : firstWrite? (first ++ second) = firstWrite? second := by
      rw [firstWrite?_append, written, Option.none_or]
    have still : ∀ attached, attachedAfter first attached = attached := by
      intro attached
      rw [one.pending, written]
      cases attached <;> rfl
    have same : ∀ attached, text (first ++ second) attached = text second attached := by
      intro attached
      rw [text_append, text_of_firstWrite?_none written, still, String.empty_append]
    constructor
    · intro attached
      rw [attachedAfter_append, still, onward, two.pending]
    · rw [onward, same, same]
      exact two.spaced
  | some event =>
    -- something is written first, so nothing is pending before the second part
    have onward : firstWrite? (first ++ second) = some event := by
      rw [firstWrite?_append, written, Option.some_or]
    have ended : ∀ attached, attachedAfter first attached = false := by
      intro attached
      rw [one.pending, written]
      cases attached <;> rfl
    constructor
    · intro attached
      rw [attachedAfter_append, ended, onward, two.pending]
      cases attached <;> rfl
    · have spaced := one.spaced
      rw [written] at spaced
      rw [onward, text_append, text_append, ended, ended]
      cases event with
      | token word =>
        simp only [SpacedBy] at spaced ⊢
        rw [spaced, String.append_assoc]
      | glue text => simp_all [SpacedBy]
      | attach => simp_all [SpacedBy]
      | complain node found cause => simp_all [SpacedBy]

/-- Settled parts that start without an attachment add up their texts. -/
theorem text_flatten {parts : List (List Event)} (settled : ∀ part ∈ parts, Settled part) :
    text parts.flatten false = String.join (parts.map fun part => text part false) := by
  induction parts with
  | nil => rfl
  | cons part rest ih =>
    have first := settled part (List.mem_cons_self ..)
    have others := ih fun other member => settled other (List.mem_cons_of_mem _ member)
    rw [List.flatten_cons, text_append, first.pending, Bool.false_and, others, List.map_cons,
      String.join_cons]

end Event

/-- After settled events, an attachment is pending when it was before and nothing was written. -/
theorem RunState.playAll_of_settled {σ : Type} {events : List Event}
    (settled : Event.Settled events) (state : RunState σ) :
    state.playAll events =
      { state with
        output := ⟨state.output.text ++ Event.text events state.output.attached,
          state.output.attached && (Event.firstWrite? events).isNone⟩
        report := ⟨state.report.fileName,
          state.report.diagnostics ++ Event.diagnostics events state.report.fileName⟩ } := by
  rw [playAll_eq, Output.playAll_eq, settled.pending]

/-! ## Walks are settled -/

variable {context : Context} {categories : List Category}

/-- A plan that asks for no attachment is settled when the nodes that it walks are. -/
theorem Plan.settled_transcript {walk : NodeId → Transcript} {plan : Plan}
    (plain : .attach ∉ plan) (fine : (plan.transcript context walk).defect = none)
    (walks : ∀ node, .child node ∈ plan → (walk node).defect = none →
      Event.Settled (walk node).events) :
    Event.Settled (plan.transcript context walk).events := by
  induction plan with
  | nil => exact Event.settled_nil
  | cons directive rest ih =>
    obtain ⟨first, others⟩ := Transcript.defect_append_eq_none_iff.mp fine
    rw [transcript, Transcript.events_append first]
    refine .append ?_ (ih (fun member => plain (List.mem_cons_of_mem _ member)) others
      fun node member => walks node (List.mem_cons_of_mem _ member))
    cases directive with
    | token word => exact Event.settled_token word
    | glue text => exact Event.settled_glue text
    | attach => exact absurd (List.mem_cons_self ..) plain
    | child node => exact walks node (List.mem_cons_self ..) first
    | complain node cause =>
      cases present : context.tree.get? node with
      | none => simp [Directive.transcript, present, Transcript.stop] at first
      | some found =>
        simp only [Directive.transcript, present]
        exact Event.settled_complain node found cause
    | abort defect => cases first

/-- The plan of a template span is settled when the literal behind its substitution is, because the
closing brace ends the attachment that the substitution may leave pending. -/
theorem Plan.settled_templateSpan {walk : NodeId → Transcript} {node expression literal : NodeId}
    (fine : (((Literal.templateSpan expression literal).plan context node).transcript
      context walk).defect = none)
    (follows : (walk literal).defect = none → Event.Settled (walk literal).events) :
    Event.Settled (((Literal.templateSpan expression literal).plan context node).transcript
      context walk).events := by
  have parts := defect_transcript_eq_none_iff.mp fine
  have inside : (walk expression).defect = none :=
    parts (.child expression) (by simp [Literal.plan])
  have behind : (walk literal).defect = none := parts (.child literal) (by simp [Literal.plan])
  have listed : (((Literal.templateSpan expression literal).plan context node).transcript
      context walk).events =
      (.glue Quoted.openSpan ::
        ((.attach :: (walk expression).events) ++ [.glue Text.closeBrace])) ++
        (walk literal).events := by
    simp [Literal.plan, transcript, Directive.transcript, Transcript.append_of_none,
      Transcript.one, Transcript.empty, inside, behind]
  rw [listed]
  exact (Event.settled_glued _ _ _).append (follows behind)

theorem attach_notMem_passPlan (found : Node) : .attach ∉ passPlan found := by
  unfold passPlan
  split <;> simp [Plan.each]

/-- The plan of a node asks for an attachment only when the node is a template span. -/
theorem Context.planAt_of_attach {node : NodeId} {found : Node}
    (present : context.tree.get? node = some found)
    (attaches : .attach ∈ context.planAt categories node found) :
    ∃ expression literal, context.planAt categories node found =
      (Literal.templateSpan expression literal).plan context node := by
  obtain ⟨expression, literal, held⟩ := context.planAt_grounded categories present _ attaches
  rw [Tree.payload?_of_get? present, Option.some.injEq] at held
  refine ⟨expression, literal, ?_⟩
  rcases context.planAt_cases categories node found with ⟨passed, -⟩ | ⟨category, -, planned⟩
  · rw [passed] at attaches
    exact absurd attaches (attach_notMem_passPlan found)
  · rw [held] at planned
    cases category <;> simp_all [Category.plan?]

/-- The plan of a node is settled when the nodes that it walks are. -/
theorem Context.settled_planAt {walk : NodeId → Transcript} {node : NodeId} {found : Node}
    (present : context.tree.get? node = some found)
    (fine : ((context.planAt categories node found).transcript context walk).defect = none)
    (walks : ∀ child, .child child ∈ context.planAt categories node found →
      (walk child).defect = none → Event.Settled (walk child).events) :
    Event.Settled ((context.planAt categories node found).transcript context walk).events := by
  by_cases attaches : .attach ∈ context.planAt categories node found
  · obtain ⟨expression, literal, planned⟩ := planAt_of_attach present attaches
    rw [planned] at fine walks ⊢
    exact Plan.settled_templateSpan fine (walks literal (by simp [Literal.plan]))
  · exact Plan.settled_transcript attaches fine walks

/-- On any tree, a walk that ends without a defect within its budget is settled. -/
theorem Context.settled_transcriptWithin {budget : Nat} {node : NodeId}
    (fine : (context.transcriptWithin categories budget node).defect = none) :
    Event.Settled (context.transcriptWithin categories budget node).events := by
  induction budget generalizing node with
  | zero => cases fine
  | succ budget ih =>
    obtain ⟨-, found, -, present, -⟩ := exists_of_fine fine
    simp only [transcriptWithin, present] at fine ⊢
    exact settled_planAt present fine fun child _ ends => ih ends

/-! ## What a transcript adds -/

/-- A transcript has no defect, and where no attachment is pending it appends a text, leaves none
pending and makes diagnostics of certain kinds. -/
structure Transcript.Adds (transcript : Transcript) (text : String) (kinds : List DiagnosticKind) :
    Prop where
  /-- There is no defect. -/
  fine : transcript.defect = none
  /-- The text is appended. -/
  played : ∀ before, Output.playAll ⟨before, false⟩ transcript.events = ⟨before ++ text, false⟩
  /-- The diagnostics have these kinds. -/
  noted : ∀ file, (Event.diagnostics transcript.events file).map Diagnostic.kind = kinds

/-- In every state without a pending attachment, a computation succeeds, appends a text, leaves no
attachment pending, makes diagnostics of certain kinds and changes nothing else. -/
def Run.Adds {σ : Type} (computation : Run σ Unit) (text : String) (kinds : List DiagnosticKind) :
    Prop :=
  ∀ state, state.output.attached = false →
    ∃ made, made.map Diagnostic.kind = kinds ∧
      computation.run.run state =
        (.ok (), { state with
          output := ⟨state.output.text ++ text, false⟩
          report := ⟨state.report.fileName, state.report.diagnostics ++ made⟩ })

namespace Transcript

theorem adds_token (word : String) : (one (.token word)).Adds (" " ++ word) [] :=
  ⟨rfl, fun _ => congrArg (Output.mk · false) String.append_assoc, fun _ => rfl⟩

theorem adds_glue (text : String) : (one (.glue text)).Adds text [] :=
  ⟨rfl, fun _ => rfl, fun _ => rfl⟩

theorem adds_complain (node : NodeId) (found : Node) (cause : Complaint) :
    (one (.complain node found cause)).Adds "" [cause.kind] :=
  ⟨rfl, fun before => by simp [one, Output.play], fun _ => rfl⟩

theorem Adds.append {first second : Transcript} {text text' : String}
    {kinds kinds' : List DiagnosticKind} (one : first.Adds text kinds)
    (two : second.Adds text' kinds') :
    (first ++ second).Adds (text ++ text') (kinds ++ kinds') := by
  rw [append_of_none one.fine]
  refine ⟨two.fine, fun before => ?_, fun file => ?_⟩
  · rw [Output.playAll_concat, one.played, two.played, String.append_assoc]
  · simp only [Event.diagnostics, List.filterMap_append, List.map_append]
    exact congrArg₂ _ (one.noted file) (two.noted file)

/-- What a transcript adds is determined. -/
theorem Adds.unique {transcript : Transcript} {text text' : String}
    {kinds kinds' : List DiagnosticKind} (one : transcript.Adds text kinds)
    (two : transcript.Adds text' kinds') : text = text' ∧ kinds = kinds' := by
  have texts := congrArg Output.text ((one.played "").symm.trans (two.played ""))
  simp only [String.empty_append] at texts
  exact ⟨texts, (one.noted "").symm.trans (two.noted "")⟩

/-- Settled events without a defect add their text. -/
theorem adds_of_settled {transcript : Transcript} (fine : transcript.defect = none)
    (settled : Event.Settled transcript.events) :
    transcript.Adds (Event.text transcript.events false)
      ((Event.diagnostics transcript.events "").map Diagnostic.kind) := by
  refine ⟨fine, fun before => ?_, fun file => ?_⟩
  · rw [Output.playAll_eq, settled.pending]
    rfl
  · simp only [Event.diagnostics, List.map_filterMap]
    congr 1
    funext event
    cases event <;> rfl

end Transcript

namespace Run.Follows

variable {σ : Type} {computation : Run σ Unit} {transcript : Transcript} {text : String}
  {kinds : List DiagnosticKind}

theorem adds (follows : Follows computation transcript) (adds : transcript.Adds text kinds) :
    Run.Adds computation text kinds := by
  intro state free
  refine ⟨_, adds.noted state.report.fileName, ?_⟩
  have output : state.output = ⟨state.output.text, false⟩ := by rw [← free]
  rw [follows.run_of_fine adds.fine, RunState.playAll_eq, output, adds.played]

/-- A computation succeeds where its transcript has no defect. -/
theorem succeeds_iff (follows : Follows computation transcript) (state : RunState σ) :
    (computation.run.run state).1 = .ok () ↔ transcript.defect = none := by
  rw [follows state]
  show transcript.result = _ ↔ _
  unfold Transcript.result
  split <;> simp_all

/-- What a computation adds, its transcript adds. -/
theorem adds_of_run (follows : Follows computation transcript) (user : σ)
    (adds : Run.Adds computation text kinds) : transcript.Adds text kinds := by
  have started : ∀ before file, ∃ made, made.map Diagnostic.kind = kinds ∧
      computation.run.run { output := ⟨before, false⟩, report := ⟨file, []⟩, user } =
        (.ok (), { output := ⟨before ++ text, false⟩, report := ⟨file, made⟩, user }) :=
    fun before file => adds { output := ⟨before, false⟩, report := ⟨file, []⟩, user } rfl
  have fine : transcript.defect = none := by
    obtain ⟨made, -, ran⟩ := started "" ""
    exact (follows.succeeds_iff _).mp (congrArg Prod.fst ran)
  refine ⟨fine, fun before => ?_, fun file => ?_⟩
  · obtain ⟨made, -, ran⟩ := started before ""
    rw [follows.run_of_fine fine, RunState.playAll_eq] at ran
    exact congrArg (fun outcome => outcome.2.output) ran
  · obtain ⟨made, listed, ran⟩ := started "" file
    rw [follows.run_of_fine fine, RunState.playAll_eq] at ran
    have same : Event.diagnostics transcript.events file = made :=
      congrArg (fun outcome => outcome.2.report.diagnostics) ran
    rw [same, listed]

end Run.Follows

section

variable {σ : Type} {node : NodeId} {enough : Nat} {text : String} {kinds : List DiagnosticKind}

/-- A walk succeeds where a budget above the number of nodes is enough. -/
theorem Run.walk_succeeds_iff (above : context.tree.size < enough) (state : RunState σ) :
    ((Run.walk context (categories.map (Category.stage σ)) node).run.run state).1 = .ok () ↔
      (context.transcriptWithin categories enough node).defect = none := by
  have wide := Run.size_lt_budget (categories.map (Category.stage σ)).length context.tree
  refine ((Run.follows_walkWithin context categories _ node).succeeds_iff state).trans ?_
  constructor <;> intro fine
  · rw [Context.transcriptWithin_of_fine fine above, fine]
  · rw [Context.transcriptWithin_of_fine fine wide, fine]

theorem Run.walk_fails_iff (above : context.tree.size < enough) (state : RunState σ) :
    (∃ defect, ((Run.walk context (categories.map (Category.stage σ)) node).run.run state).1 =
      .error defect) ↔ (context.transcriptWithin categories enough node).defect ≠ none := by
  rw [Ne, ← Run.walk_succeeds_iff above state]
  cases ((Run.walk context (categories.map (Category.stage σ)) node).run.run state).1 <;> simp

/-- A walk adds what its transcript adds, at any budget at which it succeeds. -/
theorem Run.adds_walk {budget : Nat}
    (adds : (context.transcriptWithin categories budget node).Adds text kinds) :
    Run.Adds (Run.walk context (categories.map (Category.stage σ)) node) text kinds :=
  (Run.follows_walk_of_fine adds.fine).adds adds

/-- What a walk adds, its transcript adds at any budget above the number of nodes. -/
theorem Run.adds_of_walk (above : context.tree.size < enough) (user : σ)
    (adds : Run.Adds (Run.walk context (categories.map (Category.stage σ)) node) text kinds) :
    (context.transcriptWithin categories enough node).Adds text kinds := by
  have walked := (Run.follows_walkWithin context categories _ node).adds_of_run user adds
  rw [Context.transcriptWithin_of_fine walked.fine above]
  exact walked

end

/-! ## Source files -/

namespace Plan

variable {walk : NodeId → Transcript}

theorem defect_transcript_each (nodes : List NodeId) :
    ((each nodes).transcript context walk).defect =
      nodes.findSome? fun node => (walk node).defect := by
  induction nodes with
  | nil => rfl
  | cons node rest ih =>
    show (walk node ++ (each rest).transcript context walk).defect = _
    rw [List.findSome?_cons]
    cases ended : (walk node).defect with
    | none => rw [Transcript.append_of_none ended, ih]
    | some defect => rw [Transcript.append_of_some ended, ended]

theorem events_transcript_each {nodes : List NodeId}
    (fine : ∀ node ∈ nodes, (walk node).defect = none) :
    ((each nodes).transcript context walk).events =
      (nodes.map fun node => (walk node).events).flatten := by
  induction nodes with
  | nil => rfl
  | cons node rest ih =>
    show (walk node ++ (each rest).transcript context walk).events = _
    have others := ih fun other member => fine other (List.mem_cons_of_mem _ member)
    rw [Transcript.events_append (fine node (List.mem_cons_self ..)), others, List.map_cons,
      List.flatten_cons]

end Plan

/-- A source file is passed through by every chain. -/
theorem Context.planAt_sourceFile (context : Context) (categories : List Category) (node : NodeId)
    {found : Node} {file : String} {statements : List NodeId}
    (held : found.payload = .sourceFile file statements) :
    context.planAt categories node found = Plan.each statements := by
  rcases context.planAt_cases categories node found with ⟨passed, -⟩ | ⟨category, -, planned⟩
  · simp [passed, passPlan, held, Run.isSourceFile, Payload.children]
  · rw [held] at planned
    cases category <;> cases planned

/-- A source file stops where its first statement stops, and otherwise has the events of its
statements one after the other. -/
theorem Context.transcript_sourceFile (categories : List Category) (acyclic : context.tree.Acyclic)
    {node : NodeId} {file : String} {statements : List NodeId}
    (held : context.tree.payload? node = some (.sourceFile file statements)) :
    (context.transcript categories node).defect =
      statements.findSome? (fun statement => (context.transcript categories statement).defect) ∧
    ((context.transcript categories node).defect = none →
      (∀ statement ∈ statements, (context.transcript categories statement).defect = none) ∧
      (context.transcript categories node).events =
        (statements.map fun statement =>
          (context.transcript categories statement).events).flatten) := by
  obtain ⟨found, present, content⟩ := Tree.payload?_eq_some.mp held
  rw [transcript_eq acyclic present, planAt_sourceFile context categories node content]
  refine ⟨Plan.defect_transcript_each statements, fun fine => ?_⟩
  rw [Plan.defect_transcript_each, List.findSome?_eq_none_iff] at fine
  exact ⟨fine, Plan.events_transcript_each fine⟩

/-- The events of a node say what its walk does in every state: it stops at the same defect, or it
appends their text and their diagnostics and changes nothing else.  An attachment that is pending
before it takes the space from a first token, and stays pending only when nothing is written.  The
text and the diagnostics of a source file are those of its statements one after the other. -/
theorem walk_appends (context : Context) (categories : List Category)
    (acyclic : context.tree.Acyclic) (node : NodeId) :
    let outcome := context.transcript categories node
    (∀ defect, outcome.defect = some defect → ∀ (σ : Type) (state : RunState σ),
      ((Run.walk context (categories.map (Category.stage σ)) node).run.run state).1 =
        .error defect) ∧
    (outcome.defect = none →
      (∀ (σ : Type) (state : RunState σ),
        (Run.walk context (categories.map (Category.stage σ)) node).run.run state =
          (.ok (),
            { state with
              output := ⟨state.output.text ++ Event.text outcome.events state.output.attached,
                state.output.attached && (Event.firstWrite? outcome.events).isNone⟩
              report := ⟨state.report.fileName, state.report.diagnostics ++
                Event.diagnostics outcome.events state.report.fileName⟩ })) ∧
      Event.SpacedBy (Event.firstWrite? outcome.events) (Event.text outcome.events false)
        (Event.text outcome.events true)) ∧
    ∀ file statements, context.tree.payload? node = some (.sourceFile file statements) →
      outcome.defect =
        statements.findSome? (fun statement =>
          (context.transcript categories statement).defect) ∧
      (outcome.defect = none →
        Event.text outcome.events false =
          String.join (statements.map fun statement =>
            Event.text (context.transcript categories statement).events false) ∧
        ∀ name, Event.diagnostics outcome.events name =
          statements.flatMap fun statement =>
            Event.diagnostics (context.transcript categories statement).events name) := by
  intro outcome
  refine ⟨fun defect stopped σ state => ?_, fun fine => ⟨fun σ state => ?_, ?_⟩,
    fun file statements held => ?_⟩
  · rw [Run.follows_walk acyclic node state]
    simp only [Transcript.result, show (context.transcript categories node).defect = _ from stopped]
  · have settled : Event.Settled (context.transcript categories node).events :=
      Context.settled_transcriptWithin fine
    rw [Run.follows_walk acyclic node state, RunState.playAll_of_settled settled]
    simp only [Transcript.result, show (context.transcript categories node).defect = _ from fine]
    rfl
  · exact (Context.settled_transcriptWithin fine).spaced
  · obtain ⟨stops, parts⟩ := Context.transcript_sourceFile categories acyclic held
    refine ⟨stops, fun fine => ?_⟩
    obtain ⟨statementsFine, listed⟩ := parts fine
    constructor
    · rw [show outcome.events = _ from listed, Event.text_flatten, List.map_map]
      · rfl
      · intro part member
        obtain ⟨statement, among, rfl⟩ := List.mem_map.mp member
        exact Context.settled_transcriptWithin (statementsFine statement among)
    · intro name
      rw [show outcome.events = _ from listed, Event.diagnostics, List.filterMap_flatten,
        List.map_map]
      rfl

/-- Two statements, the first of them a template whose substitution writes nothing. -/
def emptySubstitution : Context where
  tree :=
    { nodes := #[⟨.sourceFile "" [], 0, 0, none⟩,
        ⟨.literal (.templateTail "b"), 0, 0, none⟩,
        ⟨.literal (.templateSpan 0 1), 0, 0, none⟩,
        ⟨.literal (.templateHead "a"), 0, 0, none⟩,
        ⟨.literal (.template 3 [2]), 0, 0, none⟩,
        ⟨.stmt (.exprStmt 4), 0, 0, none⟩,
        ⟨.name (.identifier "x"), 0, 0, none⟩,
        ⟨.stmt (.exprStmt 6), 0, 0, none⟩,
        ⟨.sourceFile "unit" [5, 7], 0, 0, none⟩] }
  resolver := none
  catalog := .builtin
  basePath := none

/-- An attachment that is pending before the walk goes to the first token, and the one of the
substitution does not reach the second statement. -/
theorem emptySubstitution_appends :
    emptySubstitution.tree.Acyclic ∧
    ((Run.walk emptySubstitution (Category.all.map (Category.stage Unit)) 8).run.run
        { output := ⟨"=", true⟩, report := ⟨"unit", []⟩, user := () }).2.output =
      ⟨"='''a${}b''' ; x ;", false⟩ := by
  have acyclic : emptySubstitution.tree.Acyclic := Tree.acyclic_of_childrenFirst (by decide)
  obtain ⟨-, appended, -⟩ := walk_appends emptySubstitution Category.all acyclic 8
  refine ⟨acyclic, ?_⟩
  rw [(appended (by decide)).1]
  decide

end Dartify
