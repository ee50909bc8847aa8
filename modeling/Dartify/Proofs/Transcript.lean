import Dartify.Proofs.Chain

/-!
# Transcripts

A walk with built-in stages does not look at what was written before it.  So what it does can be
written down without a run: a *transcript* lists the texts, attachments and diagnostics in order,
and the defect that ends the walk, if one does.

`Context.transcriptWithin` follows the plans of the nodes and puts the transcripts of their parts
together.  `Run.follows_walkWithin` says that a walk in any state of any run does what the
transcript lists, and leaves all else as it was.  Statements about walks are proved about
transcripts.
-/

namespace Dartify

/-- Something that a walk does to a run. -/
inductive Event where
  /-- Writes a token. -/
  | token (word : String)
  /-- Writes a text directly behind what is there. -/
  | glue (text : String)
  /-- Makes the next token attach. -/
  | attach
  /-- Makes a diagnostic at a node, which is `found`. -/
  | complain (node : NodeId) (found : Node) (cause : Complaint)
  deriving DecidableEq, Repr

/-- What a walk comes to. -/
structure Transcript where
  /-- What it does, in order. -/
  events : List Event := []
  /-- The defect that ends it. -/
  defect : Option Defect := none
  deriving DecidableEq, Repr

namespace Transcript

/-- Nothing is done. -/
def empty : Transcript := {}

/-- One thing is done. -/
def one (event : Event) : Transcript := ⟨[event], none⟩

/-- A defect ends the walk at once. -/
def stop (defect : Defect) : Transcript := ⟨[], some defect⟩

/-- One transcript and then another, which a defect of the first cuts off. -/
def append (first second : Transcript) : Transcript :=
  match first.defect with
  | none => ⟨first.events ++ second.events, second.defect⟩
  | some _ => first

instance : Append Transcript := ⟨append⟩

/-- How the walk ends. -/
def result (transcript : Transcript) : Except Defect Unit :=
  match transcript.defect with
  | none => .ok ()
  | some defect => .error defect

theorem append_of_none {first : Transcript} (fine : first.defect = none) (second : Transcript) :
    first ++ second = ⟨first.events ++ second.events, second.defect⟩ := by
  show append first second = _
  simp [append, fine]

theorem append_of_some {first : Transcript} {defect : Defect} (ended : first.defect = some defect)
    (second : Transcript) : first ++ second = first := by
  show append first second = _
  simp [append, ended]

@[simp] theorem append_empty (transcript : Transcript) : transcript ++ .empty = transcript := by
  cases ended : transcript.defect with
  | none => rw [append_of_none ended, empty, List.append_nil, ← ended]
  | some defect => exact append_of_some ended _

theorem append_assoc (first second third : Transcript) :
    first ++ second ++ third = first ++ (second ++ third) := by
  cases early : first.defect with
  | some defect =>
    rw [append_of_some early, append_of_some early, append_of_some early]
  | none =>
    cases late : second.defect with
    | some defect =>
      have both : (first ++ second).defect = some defect := by rw [append_of_none early, late]
      rw [append_of_some both, append_of_some late]
    | none =>
      have both : (first ++ second).defect = none := by rw [append_of_none early, late]
      rw [append_of_none both, append_of_none late, append_of_none early, append_of_none early,
        List.append_assoc]

/-- The two parts of a transcript without a defect have none. -/
theorem defect_append_eq_none_iff {first second : Transcript} :
    (first ++ second).defect = none ↔ first.defect = none ∧ second.defect = none := by
  cases ended : first.defect with
  | none => simp [append_of_none ended]
  | some defect => simp [append_of_some ended, ended]

/-- A defect of two parts is a defect of one of them. -/
theorem defect_append_eq_some {first second : Transcript} {defect : Defect}
    (ended : (first ++ second).defect = some defect) :
    first.defect = some defect ∨ second.defect = some defect := by
  cases early : first.defect with
  | none =>
    rw [append_of_none early] at ended
    exact .inr ended
  | some other =>
    rw [append_of_some early, early] at ended
    exact .inl ended

theorem events_append {first : Transcript} (fine : first.defect = none) (second : Transcript) :
    (first ++ second).events = first.events ++ second.events := by
  rw [append_of_none fine]

/-- Everything done in two parts is done in one of them. -/
theorem mem_events_append {first second : Transcript} {event : Event}
    (member : event ∈ (first ++ second).events) :
    event ∈ first.events ∨ event ∈ second.events := by
  cases ended : first.defect with
  | none =>
    rw [events_append ended] at member
    exact List.mem_append.mp member
  | some defect =>
    rw [append_of_some ended] at member
    exact .inl member

end Transcript

/-! ## Transcripts of plans and nodes -/

/-- The transcript of a directive, where `walk` gives those of nodes. -/
def Directive.transcript (context : Context) (walk : NodeId → Transcript) :
    Directive → Transcript
  | .token word => .one (.token word)
  | .glue text => .one (.glue text)
  | .attach => .one .attach
  | .child node => walk node
  | .complain node cause =>
    match context.tree.get? node with
    | none => .stop (.missing node)
    | some found => .one (.complain node found cause)
  | .abort defect => .stop defect

namespace Plan

/-- The transcript of a plan. -/
def transcript (context : Context) (walk : NodeId → Transcript) : Plan → Transcript
  | [] => .empty
  | directive :: rest => directive.transcript context walk ++ transcript context walk rest
termination_by structural plan => plan

variable {context : Context} {walk : NodeId → Transcript}

/-- A plan in two parts has their transcripts one after the other. -/
theorem transcript_append (first second : Plan) :
    transcript context walk (first ++ second) =
      transcript context walk first ++ transcript context walk second := by
  induction first with
  | nil =>
    have ended : Transcript.empty.defect = none := rfl
    exact (Transcript.append_of_none ended _).symm
  | cons directive rest ih =>
    rw [List.cons_append, transcript, transcript, ih, Transcript.append_assoc]

/-- A plan depends on the transcripts of the nodes that it walks, and on no others. -/
theorem transcript_congr {walk' : NodeId → Transcript} {plan : Plan}
    (same : ∀ node, Directive.child node ∈ plan → walk node = walk' node) :
    transcript context walk plan = transcript context walk' plan := by
  induction plan with
  | nil => rfl
  | cons directive rest ih =>
    have first : directive.transcript context walk = directive.transcript context walk' := by
      cases directive with
      | child node => exact same node (List.mem_cons_self ..)
      | _ => rfl
    have others := ih fun node member => same node (List.mem_cons_of_mem _ member)
    simp only [transcript, first, others]

/-- A plan has no defect when none of its directives has one. -/
theorem defect_transcript_eq_none_iff {plan : Plan} :
    (transcript context walk plan).defect = none ↔
      ∀ directive ∈ plan, (directive.transcript context walk).defect = none := by
  induction plan with
  | nil => simp [transcript, Transcript.empty]
  | cons directive rest ih =>
    simp [transcript, Transcript.defect_append_eq_none_iff, ih]

/-- A defect of a plan is a defect of one of its directives. -/
theorem exists_of_defect_transcript {plan : Plan} {defect : Defect}
    (ended : (transcript context walk plan).defect = some defect) :
    ∃ directive ∈ plan, (directive.transcript context walk).defect = some defect := by
  induction plan with
  | nil => cases ended
  | cons directive rest ih =>
    rcases Transcript.defect_append_eq_some ended with early | late
    · exact ⟨directive, List.mem_cons_self .., early⟩
    · obtain ⟨other, member, stopped⟩ := ih late
      exact ⟨other, List.mem_cons_of_mem _ member, stopped⟩

end Plan

/-- The transcript of a node under a chain of built-in stages, where nodes may be nested `budget`
deep. -/
def Context.transcriptWithin (context : Context) (categories : List Category) :
    Nat → NodeId → Transcript
  | 0, _ => .stop .exhausted
  | budget + 1, node =>
    match context.tree.get? node with
    | none => .stop (.missing node)
    | some found =>
      Plan.transcript context (transcriptWithin context categories budget)
        (context.planAt categories node found)

/-! ## Runs follow transcripts -/

namespace RunState

variable {σ : Type}

/-- The state after an event. -/
def play (state : RunState σ) : Event → RunState σ
  | .token word => { state with output := state.output.token word }
  | .glue text => { state with output := state.output.glue text }
  | .attach => { state with output := state.output.attach }
  | .complain _ found cause =>
    { state with report := state.report.add found.pos found.stop cause.kind cause.message }

/-- The state after several events. -/
def playAll (state : RunState σ) (events : List Event) : RunState σ :=
  events.foldl play state

@[simp] theorem playAll_nil (state : RunState σ) : state.playAll [] = state := rfl

@[simp] theorem playAll_cons (state : RunState σ) (event : Event) (rest : List Event) :
    state.playAll (event :: rest) = (state.play event).playAll rest := rfl

theorem playAll_append (state : RunState σ) (first second : List Event) :
    state.playAll (first ++ second) = (state.playAll first).playAll second := by
  simp [playAll]

end RunState

namespace Run

variable {σ : Type}

/-- In every state a computation does what a transcript lists and ends as it says. -/
def Follows (computation : Run σ Unit) (transcript : Transcript) : Prop :=
  ∀ state, computation.run.run state = (transcript.result, state.playAll transcript.events)

/-- A computation whose transcript has no defect succeeds. -/
theorem Follows.run_of_fine {computation : Run σ Unit} {transcript : Transcript}
    (follows : Follows computation transcript) (fine : transcript.defect = none)
    (state : RunState σ) :
    computation.run.run state = (.ok (), state.playAll transcript.events) := by
  rw [follows state, Transcript.result, fine]

theorem follows_pure : Follows (pure () : Run σ Unit) .empty := fun _ => rfl

theorem follows_throw (defect : Defect) : Follows (throw defect : Run σ Unit) (.stop defect) :=
  fun _ => rfl

/-- Computations one after the other follow their transcripts one after the other. -/
theorem Follows.seq {first second : Run σ Unit} {one two : Transcript} (left : Follows first one)
    (right : Follows second two) :
    Follows (do first; second) (one ++ two) := by
  intro state
  have start := left state
  cases ended : one.defect with
  | none =>
    rw [Transcript.append_of_none ended]
    have onward := right (state.playAll one.events)
    simp only [ExceptT.run_bind, StateT.run_bind, start, Transcript.result, ended]
    change second.run.run (state.playAll one.events) = _
    rw [onward, RunState.playAll_append]
    rfl
  | some defect =>
    rw [Transcript.append_of_some ended]
    simp only [ExceptT.run_bind, StateT.run_bind, start, Transcript.result, ended]
    rfl

theorem follows_report (context : Context) (walk : NodeId → Transcript) (node : NodeId)
    (cause : Complaint) :
    Follows (report context node cause.kind cause.message : Run σ Unit)
      (Directive.transcript context walk (.complain node cause)) := by
  intro state
  cases present : context.tree.get? node with
  | none => simp only [report, Directive.transcript, present]; rfl
  | some found => simp only [report, Directive.transcript, present]; rfl

/-- A directive does what its transcript lists. -/
theorem follows_direct {context : Context} {walk : NodeId → Run σ Unit}
    {course : NodeId → Transcript} (walks : ∀ node, Follows (walk node) (course node))
    (directive : Directive) :
    Follows (direct context walk directive) (directive.transcript context course) := by
  cases directive with
  | token word => exact fun _ => rfl
  | glue text => exact fun _ => rfl
  | attach => exact fun _ => rfl
  | child node => exact walks node
  | complain node cause => exact follows_report context course node cause
  | abort defect => exact follows_throw defect

/-- A plan does what its transcript lists. -/
theorem follows_perform {context : Context} {walk : NodeId → Run σ Unit}
    {course : NodeId → Transcript} (walks : ∀ node, Follows (walk node) (course node))
    (plan : Plan) : Follows (perform context walk plan) (plan.transcript context course) := by
  induction plan with
  | nil => exact follows_pure
  | cons directive rest ih => exact (follows_direct walks directive).seq ih

/-- A walk with built-in stages does what its transcript lists, in every state. -/
theorem follows_walkWithin (context : Context) (categories : List Category) (budget : Nat)
    (node : NodeId) :
    Follows (walkWithin context (categories.map (Category.stage σ)) budget node)
      (context.transcriptWithin categories budget node) := by
  induction budget generalizing node with
  | zero => exact follows_throw .exhausted
  | succ budget ih =>
    cases present : context.tree.get? node with
    | none =>
      simp only [walkWithin, Context.transcriptWithin, present]
      exact follows_throw (.missing node)
    | some found =>
      rw [walkWithin_succ categories budget present]
      simp only [Context.transcriptWithin, present]
      exact follows_perform ih _

end Run

end Dartify
