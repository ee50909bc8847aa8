import Dartify.Proofs.Arguments

/-!
# Callbacks of `forEach` on maps

A map hands its callback the value first and the key second, and Dart has them the other way round.
So a function that is passed to `forEach` is not walked like other functions.  The idiom takes it
apart and writes its parameters in the other order, then what stands behind them.

What stands behind the parameters is the same as in a walk of the function, for function expressions
and for arrow functions with either kind of body (`exists_behind_parameters`).  The lists of
parameters are made in two ways, though: a walk of the function looks at each parameter, to open a
bracket in front of the first that may be left out, and the idiom walks the two at once.  For
parameters that have to be given the two ways come to the same
(`Plan.transcript_parametersPlan`), and that also where there is no such node.

Hence the call adds what the function adds, with the texts of the two parameters exchanged, and
fails where the function fails (`forEach_exchanges_parameters`).
-/

namespace Dartify

open Plan

/-! ## Parameters that have to be given -/

/-- Whether a parameter has to be given: it is not optional and has no initializer. -/
def Tree.isRequired (tree : Tree) (parameter : NodeId) : Bool :=
  !(tree.payload? parameter).any Payload.isOptionalParameter

namespace Plan

variable {context : Context} {walk : NodeId → Transcript} {parameters : List NodeId}
  (absent : ∀ node, context.tree.get? node = none → walk node = .stop (.missing node))

include absent

/-- A parameter that has to be given is walked at once, with no bracket in front of it. -/
theorem transcript_parametersFrom_cons {parameter : NodeId}
    (required : context.tree.isRequired parameter = true) (isFirst : Bool) (after : Plan) :
    transcript context walk
        (parametersFrom context isFirst false (parameter :: parameters) ++ after) =
      transcript context walk (tokenIf (!isFirst) "," ++
        .child parameter :: (parametersFrom context false false parameters ++ after)) := by
  rw [parametersFrom, List.append_assoc, transcript_append (tokenIf (!isFirst) ","),
    transcript_append (tokenIf (!isFirst) ",")]
  congr 1
  cases present : context.tree.get? parameter with
  | none =>
    -- looking for the parameter and walking it stop with the same defect
    have stopped : (Transcript.stop (.missing parameter)).defect = some (.missing parameter) := rfl
    simp only [withPayload, present, List.cons_append, transcript, Directive.transcript,
      absent parameter present, Transcript.append_of_some stopped]
  | some found =>
    have given : found.payload.isOptionalParameter = false := by
      simpa [Tree.isRequired, Tree.payload?_of_get? present] using required
    simp [withPayload, present, given, tokenIf]

/-- Behind the first parameter, each one that has to be given has a comma in front. -/
theorem transcript_parametersFrom
    (required : ∀ parameter ∈ parameters, context.tree.isRequired parameter = true)
    (after : Plan) :
    transcript context walk (parametersFrom context false false parameters ++ after) =
      transcript context walk
        (parameters.flatMap (fun node => [.token ",", .child node]) ++ after) := by
  induction parameters with
  | nil => rfl
  | cons parameter rest ih =>
    have onward := ih fun other member => required other (List.mem_cons_of_mem _ member)
    rw [transcript_parametersFrom_cons absent (required parameter (List.mem_cons_self ..))]
    simp only [tokenIf, Bool.not_false, if_true, List.flatMap_cons, List.cons_append,
      List.nil_append, transcript, onward]

/-- Parameters that have to be given are written like any nodes, with commas between them. -/
theorem transcript_parametersPlan
    (required : ∀ parameter ∈ parameters, context.tree.isRequired parameter = true)
    (after : Plan) :
    transcript context walk (parametersPlan context parameters ++ after) =
      transcript context walk (.token "(" :: (commas parameters ++ .token ")" :: after)) := by
  simp only [parametersPlan, List.cons_append, List.append_assoc, List.nil_append, transcript]
  congr 1
  cases parameters with
  | nil => rfl
  | cons parameter rest =>
    rw [transcript_parametersFrom_cons absent (required parameter (List.mem_cons_self ..))]
    simp only [tokenIf, Bool.not_true, Bool.false_eq_true, if_false, List.nil_append, transcript,
      commas, separated, List.cons_append]
    rw [transcript_parametersFrom absent fun other member =>
      required other (List.mem_cons_of_mem _ member)]

end Plan

/-! ## Texts of the parts -/

namespace Transcript

variable {receiver first second behind : Transcript} {front one two rest : String}
  {kinds kinds₁ kinds₂ kinds₃ : List DiagnosticKind}

/-- The parts of a function in their order. -/
theorem adds_function (left : first.Adds one kinds₁) (right : second.Adds two kinds₂)
    (last : behind.Adds rest kinds₃) :
    (Transcript.one (.token "(") ++ (first ++ (.one (.token ",") ++ (second ++
      (.one (.token ")") ++ behind))))).Adds
      (" (" ++ one ++ " ," ++ two ++ " )" ++ rest) (kinds₁ ++ kinds₂ ++ kinds₃) := by
  have parts := (adds_token "(").append (left.append ((adds_token ",").append
    (right.append ((adds_token ")").append last))))
  simpa only [String.reduceAppend, String.append_assoc, List.append_assoc, List.nil_append]
    using parts

/-- The parts of a function in a call, with its parameters exchanged. -/
theorem adds_exchanged (before : receiver.Adds front kinds) (left : first.Adds one kinds₁)
    (right : second.Adds two kinds₂) (last : behind.Adds rest kinds₃) :
    (receiver ++ (Transcript.one (.token ". forEach ( (") ++ (second ++ (.one (.token ",") ++
      (first ++ (.one (.token ")") ++ (behind ++ .one (.token ")")))))))).Adds
      (front ++ " . forEach (" ++ (" (" ++ two ++ " ," ++ one ++ " )" ++ rest) ++ " )")
      (kinds ++ (kinds₂ ++ kinds₁ ++ kinds₃)) := by
  have parts := before.append ((adds_token ". forEach ( (").append (right.append
    ((adds_token ",").append (left.append ((adds_token ")").append
      (last.append (adds_token ")")))))))
  have opening : " . forEach ( (" = " . forEach (" ++ " (" := by decide
  simp only [String.reduceAppend] at parts
  rw [opening] at parts
  simpa only [String.append_assoc, List.append_assoc, List.nil_append, List.append_nil] using parts

end Transcript

/-! ## Functions and calls -/

theorem attach_notMem_arrowBody (context : Context) (body : NodeId) :
    .attach ∉ arrowBody context body := by
  unfold arrowBody withPayload tokenIf
  cases context.tree.get? body with
  | none => simp
  | some found => cases found.payload.isBlock <;> simp

section

variable {context : Context} {call callback receiver first second body : NodeId}
  {others parameters : List NodeId} {result : Option NodeId} {site : CallSite}

/-- A walk of a function and a call of `forEach` with it have the same behind the parameters. -/
theorem exists_behind_parameters
    (function :
      (∃ name, context.tree.payload? callback =
        some (.decl (.functionExpr name parameters result body))) ∨
      context.tree.payload? callback = some (.decl (.arrow parameters result body))) :
    ∃ behind : Plan, .attach ∉ behind ∧
      (∃ found, context.tree.get? callback = some found ∧
        context.planAt Category.all callback found =
          parametersPlan context parameters ++ behind) ∧
      ∀ site, forEachPlan context site callback = forEachFunctionPlan site parameters behind := by
  rcases function with ⟨name, held⟩ | held
  · refine ⟨[.child body], by simp, Context.exists_planAt .declarations held rfl, fun site => ?_⟩
    obtain ⟨found, present, content⟩ := Tree.payload?_eq_some.mp held
    simp only [forEachPlan, withPayload, present, content]
  · refine ⟨arrowBody context body, attach_notMem_arrowBody context body,
      Context.exists_planAt .declarations held rfl, fun site => ?_⟩
    obtain ⟨found, present, content⟩ := Tree.payload?_eq_some.mp held
    simp only [forEachPlan, withPayload, present, content]

/-- The transcripts of a function with two parameters and of a call of `forEach` with it have the
same parts, in different orders. -/
theorem Context.exists_transcript_behind (here : context.IdiomAt call site .mapForEach)
    (received : site.receiver = some receiver) (given : site.arguments = callback :: others)
    (function :
      (∃ name, context.tree.payload? callback =
        some (.decl (.functionExpr name [first, second] result body))) ∨
      context.tree.payload? callback = some (.decl (.arrow [first, second] result body)))
    (required : ∀ parameter ∈ [first, second], context.tree.isRequired parameter = true)
    (budget : Nat) :
    let outer := context.transcriptWithin Category.all (budget + 2)
    let inner := context.transcriptWithin Category.all (budget + 1)
    ∃ behind : Transcript, (behind.defect = none → Event.Settled behind.events) ∧
      outer callback = .one (.token "(") ++ (inner first ++ (.one (.token ",") ++
        (inner second ++ (.one (.token ")") ++ behind)))) ∧
      outer call = inner receiver ++ (.one (.token ". forEach ( (") ++ (inner second ++
        (.one (.token ",") ++ (inner first ++ (.one (.token ")") ++
          (behind ++ .one (.token ")"))))))) := by
  intro outer inner
  have unfolds : ∀ {node : NodeId} {found : Node}, context.tree.get? node = some found →
      outer node = (context.planAt Category.all node found).transcript context inner := by
    intro node found present
    simp only [outer, transcriptWithin, present, inner]
  have absent : ∀ node, context.tree.get? node = none → inner node = .stop (.missing node) := by
    intro node missing
    simp only [inner, transcriptWithin, missing]
  obtain ⟨behind, plain, ⟨found, present, planned⟩, called⟩ := exists_behind_parameters function
  refine ⟨behind.transcript context inner, fun fine => ?_, ?_, ?_⟩
  · exact Plan.settled_transcript plain fine fun child _ ends => settled_transcriptWithin ends
  · rw [unfolds present, planned, transcript_parametersPlan absent required]
    rfl
  · have idiom : CallIdiom.mapForEach.plan? context site =
        some (forEachPlan context site callback) := by
      simp only [CallIdiom.plan?, given]
    have member : .expressions ∈ Category.all := by decide
    obtain ⟨node, there, placed⟩ := here.exists_planAt idiom member
    rw [unfolds there, placed, called]
    simp [forEachFunctionPlan, received, maybe, each, Plan.transcript, Directive.transcript,
      transcript_append]

end

/-- On a map, a call of `forEach` with a function of two parameters, both of which have to be given,
adds what a walk of the function adds, between the receiver with `. forEach (` and `)`, with the
texts of the two parameters exchanged and their diagnostics too.  A walk of the function that
succeeds adds a text of this form, and where the receiver can be walked the function fails exactly
when the call does. -/
theorem forEach_exchanges_parameters (context : Context)
    {call callback receiver first second body : NodeId} {others : List NodeId}
    {result : Option NodeId} {site : CallSite}
    (here : context.IdiomAt call site .mapForEach) (received : site.receiver = some receiver)
    (given : site.arguments = callback :: others)
    (function :
      (∃ name, context.tree.payload? callback =
        some (.decl (.functionExpr name [first, second] result body))) ∨
      context.tree.payload? callback = some (.decl (.arrow [first, second] result body)))
    (required : ∀ parameter ∈ [first, second], context.tree.isRequired parameter = true)
    (σ : Type) :
    let walk := Run.walk context (Category.all.map (Category.stage σ))
    (∀ front one two rest kinds kinds₁ kinds₂ kinds₃,
      Run.Adds (walk receiver) front kinds →
      Run.Adds (walk first) one kinds₁ → Run.Adds (walk second) two kinds₂ →
      Run.Adds (walk callback) (" (" ++ one ++ " ," ++ two ++ " )" ++ rest)
        (kinds₁ ++ kinds₂ ++ kinds₃) →
      Run.Adds (walk call)
        (front ++ " . forEach (" ++ (" (" ++ two ++ " ," ++ one ++ " )" ++ rest) ++ " )")
        (kinds ++ (kinds₂ ++ kinds₁ ++ kinds₃))) ∧
    (∀ state, ((walk callback).run.run state).1 = .ok () →
      ∃ one two rest kinds₁ kinds₂ kinds₃,
        Run.Adds (walk first) one kinds₁ ∧ Run.Adds (walk second) two kinds₂ ∧
        Run.Adds (walk callback) (" (" ++ one ++ " ," ++ two ++ " )" ++ rest)
          (kinds₁ ++ kinds₂ ++ kinds₃)) ∧
    ∀ state, ((walk receiver).run.run state).1 = .ok () → ∀ before before',
      (∃ defect, ((walk callback).run.run before).1 = .error defect) ↔
        ∃ defect, ((walk call).run.run before').1 = .error defect := by
  intro walk
  obtain ⟨behind, settled, functions, calls⟩ := Context.exists_transcript_behind here received
    given function required context.tree.size
  set outer := context.transcriptWithin Category.all (context.tree.size + 2)
  set inner := context.transcriptWithin Category.all (context.tree.size + 1)
  -- both budgets are above the number of nodes
  have large : context.tree.size < context.tree.size + 2 := by omega
  have small : context.tree.size < context.tree.size + 1 := by omega
  have functionFine : (outer callback).defect = none ↔
      (inner first).defect = none ∧ (inner second).defect = none ∧ behind.defect = none := by
    rw [functions]
    simp [Transcript.defect_append_eq_none_iff, Transcript.one]
  refine ⟨?_, fun state succeeds => ?_, fun state succeeds before before' => ?_⟩
  · intro front one two rest kinds kinds₁ kinds₂ kinds₃ before left right whole state free
    have before := Run.adds_of_walk small state.user before
    have left := Run.adds_of_walk small state.user left
    have right := Run.adds_of_walk small state.user right
    have whole : (outer callback).Adds _ _ := Run.adds_of_walk large state.user whole
    have fine := (functionFine.mp whole.fine).2.2
    have last := Transcript.adds_of_settled fine (settled fine)
    -- what stands behind the parameters is determined by the whole and the two parameters
    rw [functions] at whole
    obtain ⟨texts, listed⟩ := whole.unique (Transcript.adds_function left right last)
    rw [← String.append_right_inj _ |>.mp texts, ← List.append_cancel_left listed] at last
    have exchanged := Transcript.adds_exchanged before left right last
    rw [← calls] at exchanged
    exact Run.adds_walk exchanged state free
  · have fine := (Run.walk_succeeds_iff large state).mp succeeds
    obtain ⟨firstFine, secondFine, behindFine⟩ := functionFine.mp fine
    have left := Transcript.adds_of_settled firstFine (Context.settled_transcriptWithin firstFine)
    have right :=
      Transcript.adds_of_settled secondFine (Context.settled_transcriptWithin secondFine)
    have whole := Transcript.adds_function left right
      (Transcript.adds_of_settled behindFine (settled behindFine))
    rw [← functions] at whole
    exact ⟨_, _, _, _, _, _, Run.adds_walk left, Run.adds_walk right, Run.adds_walk whole⟩
  · have fine : (inner receiver).defect = none := (Run.walk_succeeds_iff small state).mp succeeds
    rw [Run.walk_fails_iff large, Run.walk_fails_iff large, not_iff_not]
    show (outer callback).defect = none ↔ (outer call).defect = none
    rw [functionFine, calls]
    simp only [Transcript.defect_append_eq_none_iff, fine, Transcript.one, true_and, and_true]
    exact and_left_comm

/-- `m.forEach((v, k) => b, self)` on a map has the parameters of its callback exchanged. -/
theorem pairCallback_exchanged :
    let context :=
      libraryCall (some "Map") "forEach" "angular2/typings/es6-shim/es6-shim.d.ts" [8, 11]
    let walk := Run.walk context (Category.all.map (Category.stage Unit))
    context.IdiomAt 12 ⟨12, some 0, [], [8, 11]⟩ .mapForEach ∧
    context.tree.payload? 8 = some (.decl (.arrow [4, 6] none 7)) ∧
    (∀ parameter ∈ [4, 6], context.tree.isRequired parameter = true) ∧
    Run.Adds (walk 8) " ( v , k ) => b" [] ∧
    Run.Adds (walk 12) " m . forEach ( ( k , v ) => b )" [] := by
  intro context walk
  have here : context.IdiomAt 12 ⟨12, some 0, [], [8, 11]⟩ .mapForEach :=
    idiomAt_libraryCall ⟨"angular2/typings/es6-shim/es6-shim", "Map.forEach"⟩ (by decide)
      rfl (by decide) (by decide)
  have function : context.tree.payload? 8 = some (.decl (.arrow [4, 6] none 7)) := rfl
  have required : ∀ parameter ∈ [4, 6], context.tree.isRequired parameter = true := by decide
  have added : ∀ {node text}, (context.transcriptWithin Category.all 4 node).Adds text [] →
      Run.Adds (walk node) text [] := Run.adds_walk
  have receiver : Run.Adds (walk 0) " m" [] := added (Transcript.adds_token "m")
  have value : Run.Adds (walk 4) " v" [] := added (Transcript.adds_token "v")
  have key : Run.Adds (walk 6) " k" [] := added (Transcript.adds_token "k")
  have callback : Run.Adds (walk 8) (" (" ++ " v" ++ " ," ++ " k" ++ " )" ++ " => b") [] :=
    added (Transcript.adds_function (Transcript.adds_token "v") (Transcript.adds_token "k")
      ((Transcript.adds_token "=>").append (Transcript.adds_token "b")))
  obtain ⟨exchanges, -⟩ := forEach_exchanges_parameters context here rfl rfl
    (.inr function) required Unit
  exact ⟨here, function, required, callback,
    exchanges _ _ _ _ _ _ _ _ receiver value key callback⟩

end Dartify
