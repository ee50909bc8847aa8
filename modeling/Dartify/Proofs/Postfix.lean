import Dartify.Proofs.Exposure
import Dartify.Proofs.Preorder
import Dartify.Proofs.Refusal

/-!
# Library calls stay postfix expressions

A call binds more tightly than every operator, so what is written in its place should have no
operator outside brackets that was not outside brackets in its receiver.  Then it can be the
receiver of a further call itself.

`CallIdiom.bareOperands` lists the operands of a call that an idiom writes outside brackets.  For
most idioms that is the receiver or nothing.  Five idioms are no calls in Dart: `Map.set` is an
assignment, `forwardRef` gives way to the body of its argument, `CONST_EXPR` and `normalizeBlank` to
their arguments, and a constant map is a literal, with type arguments between angle brackets.  Every
operator that is bare in the text of a call is bare in one of these operands, or is the assignment
of `Map.set` (`idiom_stays_postfix`).
-/

namespace Dartify

open Plan Brackets

/-! ## Operands outside brackets -/

/-- The bodies of the arrow functions among nodes. -/
def Context.arrowBodies (context : Context) (nodes : List NodeId) : List NodeId :=
  nodes.filterMap fun node =>
    match context.tree.payload? node with
    | some (.decl (.arrow _ _ body)) => some body
    | _ => none

namespace CallIdiom

/-- The operands of a call that an idiom writes outside brackets. -/
def bareOperands (context : Context) (site : CallSite) : CallIdiom → List NodeId
  | arrayUnshift | arraySlice | arraySplice | arrayConcat | arrayIsArray | mapDelete => []
  | mapSet => site.receiver.toList ++ (site.arguments.drop 1).take 1
  | constMapConstructor => site.typeArguments
  | forwardRef => context.arrowBodies (site.arguments.take 1)
  | constExpr | normalizeBlank => site.arguments
  | _ => site.receiver.toList

/-- Whether an idiom writes no operator and no operand but the receiver outside brackets. -/
def isPostfix : CallIdiom → Bool
  | mapSet | constMapConstructor | forwardRef | constExpr | normalizeBlank => false
  | _ => true

theorem bareOperands_subset {context : Context} {site : CallSite} {idiom : CallIdiom}
    (closed : idiom.isPostfix = true) : idiom.bareOperands context site ⊆ site.receiver.toList := by
  cases idiom <;> simp [isPostfix, bareOperands] at closed ⊢

end CallIdiom

section

variable {context : Context} {site : CallSite}

/-! ## Nodes between tokens -/

theorem guarded_concat (arguments : List NodeId) :
    guarded true (arguments.flatMap (concatArgumentPlan context)) = true := by
  induction arguments with
  | nil => rfl
  | cons argument others ih =>
    rw [List.flatMap_cons, concatArgumentPlan]
    split <;> exact ih

theorem guarded_forEachPlan {callback : NodeId}
    (unstopped : Meets .unstopped (forEachPlan context site callback)) :
    guarded true (forEachPlan context site callback) = true := by
  rcases forEachPlan_cases unstopped with ⟨key, value, body, arrow, rfl | rfl, plan⟩ | plan | plan
  · rw [plan]
    exact guarded_append (guarded_maybe _) rfl
  · rw [plan]
    exact guarded_append (guarded_maybe _) rfl
  · rw [plan]
    exact guarded_append (guarded_maybe _) rfl
  · rw [plan]
    rfl

theorem guarded_constMapPlan : guarded true (constMapPlan site) = true := by
  have types : guarded false (typeArguments site.typeArguments) = true := by
    unfold typeArguments
    split
    · rfl
    · exact guarded_append (guarded_commas _) rfl
  have literal := guarded_append types (show guarded false [.token "{ }"] = true from rfl)
  unfold constMapPlan
  split <;> exact guarded_mono literal true

/-- No idiom glues anything, and none walks two nodes without a token between them. -/
theorem CallIdiom.guarded_plan? {idiom : CallIdiom} {plan : Plan}
    (planned : idiom.plan? context site = some plan) (unstopped : Meets .unstopped plan) :
    plan.guarded true = true := by
  cases idiom with
  | arrayPush | arrayPop | arraySome | regExpTest | mapHas =>
    cases planned
    exact guarded_receiverCall ..
  | arrayMap | arrayFilter | regExpExec =>
    cases planned
    exact guarded_append (guarded_receiverCall ..) (guarded_methodCall ..)
  | arraySlice | arraySplice =>
    cases planned
    exact guarded_namedCall ..
  | arrayShift =>
    cases planned
    exact guarded_append (guarded_maybe _) rfl
  | arrayUnshift =>
    cases planned
    unfold unshiftPlan
    split
    · exact guarded_append (guarded_maybe _) rfl
    · exact guarded_append (guarded_maybe _) (guarded_append (guarded_commas _) rfl)
  | arrayConcat =>
    cases planned
    exact guarded_append (guarded_maybe _) (guarded_append (guarded_concat _) rfl)
  | mapDelete =>
    cases planned
    exact guarded_append (guarded_receiverCall ..) (guarded_append (guarded_receiverCall ..) rfl)
  | arrayReduce =>
    cases planned
    unfold reducePlan
    split
    · rfl
    · exact guarded_append (guarded_maybe _) rfl
    · exact guarded_receiverCall ..
  | arrayJoin =>
    simp only [CallIdiom.plan?] at planned
    split at planned <;> cases planned
    · exact guarded_append (guarded_maybe _) rfl
    · exact guarded_receiverCall ..
  | arrayIsArray =>
    simp only [CallIdiom.plan?] at planned
    split at planned <;> cases planned
    · rfl
    · exact guarded_append (guarded_commas _) rfl
  | arrayFind | mapSet | mapGet =>
    simp only [CallIdiom.plan?] at planned
    split at planned <;> cases planned <;> first | rfl | exact guarded_append (guarded_maybe _) rfl
  | mapForEach =>
    simp only [CallIdiom.plan?] at planned
    split at planned <;> cases planned
    · exact guarded_forEachPlan unstopped
    · rfl
  | constMapConstructor =>
    simp only [CallIdiom.plan?] at planned
    split at planned <;> cases planned
    exact guarded_constMapPlan
  | forwardRef =>
    simp only [CallIdiom.plan?] at planned
    split at planned <;> cases planned
    · obtain ⟨payload, -, chosen⟩ := exists_of_withPayload unstopped
      rw [forwardRefPlan, chosen]
      split <;> rfl
    · rfl
  | constExpr | normalizeBlank =>
    cases planned
    exact guarded_commas _

/-! ## Pieces inside and outside brackets -/

theorem exposed_concat {depth : Int} (arguments : List NodeId) (deep : depth = 1) :
    exposed depth (arguments.flatMap (concatArgumentPlan context)) = [] := by
  subst deep
  induction arguments with
  | nil => exact exposed_nil
  | cons argument others ih =>
    rw [List.flatMap_cons, concatArgumentPlan]
    split <;> exact ih

theorem exposed_forEachPlan {callback : NodeId}
    (unstopped : Meets .unstopped (forEachPlan context site callback)) :
    exposed 0 (forEachPlan context site callback) ⊆ each site.receiver.toList := by
  rcases forEachPlan_cases unstopped with ⟨key, value, body, arrow, rfl | rfl, plan⟩ | plan | plan
  · rw [plan]
    simp (disch := decide +kernel) only [maybe, exposed_append, exposed_each_top, exposed_token,
      exposed_child_deep, exposed_nil, List.cons_append, List.nil_append, brackets_each]
    simp
  · rw [plan]
    simp (disch := decide +kernel) only [maybe, exposed_append, exposed_each_top, exposed_token,
      exposed_child_deep, exposed_nil, List.nil_append, brackets_each]
    simp
  · rw [plan]
    simp (disch := decide +kernel) only [maybe, exposed_append, exposed_each_top, exposed_token,
      exposed_child_deep, exposed_nil, brackets_each]
    simp
  · rw [plan]
    exact List.nil_subset _

/-- Outside brackets an idiom writes its bare operands, and the operator of an assignment. -/
theorem CallIdiom.exposed_plan? {idiom : CallIdiom} {plan : Plan}
    (planned : idiom.plan? context site = some plan) (unstopped : Meets .unstopped plan) :
    plan.exposed 0 ⊆ (if idiom = .mapSet then [.token "="] else []) ++
      each (idiom.bareOperands context site) := by
  cases idiom with
  | arrayUnshift =>
    cases planned
    unfold unshiftPlan
    split <;>
    · simp (disch := decide +kernel) only [maybe, exposed_token, exposed_append, exposed_commas,
        exposed_each_deep, exposed_child_deep, brackets_each, brackets_commas, exposed_nil]
      simp
  | arrayConcat =>
    cases planned
    simp (disch := decide +kernel) only [concatPlan, maybe, exposed_token, exposed_append,
      exposed_each_deep, exposed_concat, exposed_closing, brackets_each]
    simp
  | arrayReduce =>
    cases planned
    unfold reducePlan
    split
    · exact List.nil_subset _
    all_goals
      simp (disch := decide +kernel) only [receiverCall, maybe, exposed_token, exposed_append,
        exposed_methodCall, exposed_each_top, exposed_child_deep, brackets_each, exposed_nil]
      simp [CallIdiom.bareOperands]
  | arrayJoin | arrayFind | mapGet | arrayIsArray =>
    simp only [CallIdiom.plan?] at planned
    split at planned <;>
    · cases planned
      simp (disch := decide +kernel) only [tooFew, receiverCall, maybe, exposed_token,
        exposed_append, exposed_commas, exposed_methodCall, exposed_each_top, exposed_child_deep,
        exposed_each_deep, brackets_each, brackets_commas, exposed_nil, exposed_complain]
      simp [CallIdiom.bareOperands]
  | mapSet =>
    simp only [CallIdiom.plan?] at planned
    split at planned <;> cases planned
    · rename_i key value others given
      have behind : exposed 0 [.token "[", .child key, .token "]", .token "=", .child value] =
          [.token "=", .child value] := rfl
      rw [exposed_append, brackets_maybe, net_nil, Int.add_zero, behind, maybe,
        exposed_each_top _ rfl]
      simp [CallIdiom.bareOperands, given, each]
    · exact List.nil_subset _
  | mapForEach =>
    simp only [CallIdiom.plan?] at planned
    split at planned <;> cases planned
    · exact exposed_forEachPlan unstopped
    · exact List.nil_subset _
  | constMapConstructor =>
    simp only [CallIdiom.plan?] at planned
    split at planned <;> cases planned
    unfold constMapPlan
    split <;>
    · simp (disch := decide +kernel) only [exposed_complain, exposed_token, exposed_append,
        exposed_typeArguments, brackets_typeArguments, brackets_nil, brackets_complain, exposed_nil]
      simp [CallIdiom.bareOperands]
  | forwardRef =>
    simp only [CallIdiom.plan?] at planned
    split at planned <;> cases planned
    · rename_i argument others given
      obtain ⟨payload, held, chosen⟩ := exists_of_withPayload unstopped
      rw [forwardRefPlan, chosen]
      split
      · simp [CallIdiom.bareOperands, Context.arrowBodies, given, held, exposed_child_top,
          exposed_nil, each]
      · exact List.nil_subset _
    · exact List.nil_subset _
  | constExpr | normalizeBlank =>
    cases planned
    simp [exposed_commas, exposed_each_top, CallIdiom.bareOperands]
  | _ =>
    cases planned
    simp (disch := decide +kernel) only [mapDeletePlan, receiverCall, maybe, exposed_token,
      exposed_append, exposed_namedCall, exposed_methodCall, brackets_append, brackets_each,
      brackets_methodCall, List.nil_append, exposed_each_top, exposed_each_deep, exposed_nil]
    simp [CallIdiom.bareOperands]

end

/-! ## Texts of calls -/

/-- Under an attachment the same words are bare as otherwise. -/
theorem Event.Settled.bare_of_attached {events : List Event} (settled : Event.Settled events)
    {attached : Bool} {word : String} (bare : Bare (Event.text events attached) word) :
    Bare (Event.text events false) word := by
  cases attached with
  | false => exact bare
  | true =>
    have spaced := settled.spaced
    unfold Event.SpacedBy at spaced
    split at spaced
    · rw [spaced]
      exact bare.of_space
    · rwa [spaced] at bare

namespace Context

variable {context : Context} {categories : List Category} {call : NodeId}

/-- What walking a node writes into an empty text. -/
def rendering (context : Context) (categories : List Category) (node : NodeId) : String :=
  ((Run.walk context (categories.map (Category.stage Unit)) node).run.run
    { report := ⟨"", []⟩, user := () }).2.output.text

theorem rendering_of_fine {node : NodeId} {budget : Nat}
    (fine : (context.transcriptWithin categories budget node).defect = none) :
    context.rendering categories node =
      Event.text (context.transcriptWithin categories budget node).events false := by
  rw [rendering, Run.follows_walk_of_fine fine, RunState.playAll_eq, Output.playAll_eq]
  exact String.empty_append

/-- No text that the nodes from a root on take from outside has a bracket, and no text of a leaf
begins like an operator.  Every alphanumeric text is such. -/
structure Plain (context : Context) (root : NodeId) : Prop where
  /-- Identifiers and literals. -/
  leaves : ∀ {node : NodeId} {payload : Payload}, context.tree.Reaches root node →
    context.tree.payload? node = some payload → Free payload.leafText ∧ Soft payload.leafText
  /-- Names of classes, for their constructors. -/
  classes : ∀ {node : NodeId} {name : String}, context.tree.Reaches root node →
    className? context node = some name → Free name
  /-- Dart names of types. -/
  names : ∀ entry ∈ context.catalog.typeNames.entries, Free entry.2

theorem Plain.unbracketed (plain : context.Plain call) :
    context.Unbracketed (context.tree.Reaches call) where
  closed reached step := reached.tail step
  texts reached held := (plain.leaves reached held).1
  classes := plain.classes
  names := plain.names

/-- Where no text in the tree or among the Dart names has a bracket, all nodes are plain. -/
theorem plain_of_nodes {root : NodeId}
    (texts : ∀ found ∈ context.tree.nodes,
      Free found.payload.leafText ∧ Soft found.payload.leafText)
    (names : ∀ entry ∈ context.catalog.typeNames.entries, Free entry.2) : context.Plain root := by
  have leaf : ∀ {node payload}, context.tree.payload? node = some payload →
      Free payload.leafText ∧ Soft payload.leafText := by
    intro node payload held
    obtain ⟨found, present, rfl⟩ := Tree.payload?_eq_some.mp held
    exact texts found (Array.mem_of_getElem? present)
  refine ⟨fun _ => leaf, fun _ named => ?_, names⟩
  unfold className? at named
  split at named
  · exact (leaf (Tree.identifierText?_eq_some_iff.mp named)).1
  · cases named

/-- A bare operator of a call with an idiom is the assignment of `Map.set`, or is bare in an operand
that the idiom writes outside brackets. -/
theorem operand_of_bare (member : .expressions ∈ categories) (plain : context.Plain call)
    {site : CallSite} {idiom : CallIdiom} {plan : Plan} (here : context.IdiomAt call site idiom)
    (planned : idiom.plan? context site = some plan) {budget : Nat}
    (fine : (context.transcriptWithin categories budget call).defect = none) {operator : String}
    (listed : operator ∈ looseOperators)
    (bare :
      Bare (Event.text (context.transcriptWithin categories budget call).events false) operator) :
    (idiom = .mapSet ∧ operator = "=") ∨
      ∃ operand ∈ idiom.bareOperands context site,
        Bare (context.rendering categories operand) operator := by
  obtain ⟨found, present, placed⟩ := here.exists_planAt planned member
  obtain ⟨smaller, -, rfl, -, -⟩ := exists_of_fine fine
  simp only [transcriptWithin, present, placed] at fine bare
  have ends : ∀ child, .child child ∈ plan →
      (context.transcriptWithin categories smaller child).defect = none := fun child among =>
    Plan.defect_transcript_eq_none_iff.mp fine (.child child) among
  have unstopped := unstopped_of_defect fine
  have closed := CallIdiom.guarded_plan? planned unstopped
  have unattached : .attach ∉ plan := by
    intro among
    cases guarded_of_mem closed among
  have within : ∀ child, .child child ∈ plan → context.tree.Reaches call child := by
    intro child among
    rw [← placed] at among
    exact (below_of_planAt present among).to_reflTransGen
  have nested : ∀ child, .child child ∈ plan → Nested (ofText
      (Event.text (context.transcriptWithin categories smaller child).events false)) := by
    intro child among
    rw [Event.text, Event.ofText_playAll]
    exact nested_transcriptWithin plain.unbracketed (within child among) (ends child among)
  have soft : ∀ child, .child child ∈ plan →
      Soft (Event.text (context.transcriptWithin categories smaller child).events false) := by
    intro child among
    exact soft_text plain.unbracketed (fun reached held => (plain.leaves reached held).2)
      (within child among) (ends child among)
  rw [Plan.text_transcript unattached fine fun child among =>
    settled_transcriptWithin (ends child among)] at bare
  have shown := CallIdiom.exposed_plan? planned unstopped
  rcases exposed_of_bare listed nested soft closed bare with sign | ⟨child, among, bare⟩
  · have assigns := shown sign
    by_cases sets : idiom = .mapSet
    · have equals : operator = "=" := by simpa [sets, each] using assigns
      exact .inl ⟨sets, equals⟩
    · simp [sets, each] at assigns
  · have operand : child ∈ idiom.bareOperands context site := by
      have among := shown among
      by_cases sets : idiom = .mapSet <;> simpa [sets, each] using among
    rw [← rendering_of_fine (ends child (child_mem_of_exposed among))] at bare
    exact .inr ⟨child, operand, bare⟩

end Context

/-- A library call stays a postfix expression in Dart, five idioms apart.  Where no text that the
call takes from outside has a bracket or begins like an operator, a walk of the call that ends
without a defect appends a text whose bare operators are all bare in its receiver.  For the five
idioms they are bare in operands that the idiom writes outside brackets, or are the assignment of
`Map.set`. -/
theorem idiom_stays_postfix (context : Context) (categories : List Category)
    (member : .expressions ∈ categories) (call : NodeId) (plain : context.Plain call)
    (site : CallSite) (idiom : CallIdiom) (plan : Plan) (here : context.IdiomAt call site idiom)
    (planned : idiom.plan? context site = some plan) (σ : Type) (state final : RunState σ)
    (walked : (Run.walk context (categories.map (Category.stage σ)) call).run.run state =
      (.ok (), final)) :
    ∃ text, final.output.text = state.output.text ++ text ∧
      (∀ operator ∈ looseOperators, Bare text operator →
        (idiom = .mapSet ∧ operator = "=") ∨
          ∃ operand ∈ idiom.bareOperands context site,
            Bare (context.rendering categories operand) operator) ∧
      (idiom.isPostfix = true →
        (∀ receiver ∈ site.receiver, ∀ operator ∈ looseOperators,
          ¬ Bare (context.rendering categories receiver) operator) →
        ∀ operator ∈ looseOperators, ¬ Bare text operator) := by
  -- the tree may have circles, but the call is not in one, since its walk ends
  let enough := context.tree.size + 1
  have fine : (context.transcriptWithin categories enough call).defect = none :=
    (Run.walk_succeeds_iff (Nat.lt_succ_self _) state).mp (congrArg Prod.fst walked)
  rw [Run.follows_walk_of_fine fine state, Prod.mk.injEq] at walked
  obtain ⟨-, rfl⟩ := walked
  have settled := Context.settled_transcriptWithin fine
  have found : ∀ operator ∈ looseOperators,
      Bare (Event.text (context.transcriptWithin categories enough call).events
        state.output.attached) operator →
      (idiom = .mapSet ∧ operator = "=") ∨
        ∃ operand ∈ idiom.bareOperands context site,
          Bare (context.rendering categories operand) operator := by
    intro operator listed bare
    exact Context.operand_of_bare member plain here planned fine listed
      (settled.bare_of_attached bare)
  refine ⟨_, by rw [RunState.playAll_of_settled settled], found, fun closed quiet => ?_⟩
  intro operator listed bare
  rcases found operator listed bare with ⟨rfl, -⟩ | ⟨operand, among, shown⟩
  · cases closed
  · have receiver := CallIdiom.bareOperands_subset closed among
    exact quiet operand (Option.mem_toList.mp receiver) operator listed shown

/-- `m.delete(a || b)` on a map, beside a block that contains itself. -/
def deleteEither : Context where
  tree :=
    { nodes := #[⟨.name (.identifier "m"), 0, 0, some 2⟩,
        ⟨.name (.identifier "delete"), 0, 0, some 2⟩,
        ⟨.expr (.propertyAccess 0 1), 0, 0, some 6⟩,
        ⟨.name (.identifier "a"), 0, 0, some 5⟩,
        ⟨.name (.identifier "b"), 0, 0, some 5⟩,
        ⟨.expr (.binary 3 .or 4), 0, 0, some 6⟩,
        ⟨.expr (.call 2 [] [5]), 0, 0, none⟩,
        ⟨.stmt (.block [7]), 0, 0, none⟩] }
  resolver := some (Bindings.empty.declare "Map" ⟨64⟩ "angular2/typings/es6-shim/es6-shim.d.ts"
    |>.declareMember 0 "delete" .method
    |>.bind 1 1).resolver
  catalog := .builtin
  basePath := none

/-- The operators of the idiom and those of the key are all inside brackets, also in a template,
where the first token attaches.  The circle elsewhere in the tree does not matter. -/
theorem deleteEither_stays_postfix :
    ¬deleteEither.tree.Acyclic ∧ deleteEither.Plain 6 ∧
    deleteEither.IdiomAt 6 ⟨6, some 0, [], [5]⟩ .mapDelete ∧
    ∃ final, (Run.walk deleteEither (Category.all.map (Category.stage Unit)) 6).run.run
        { output := ⟨"", true⟩, report := ⟨"unit", []⟩, user := () } = (.ok (), final) ∧
      final.output.text =
        "( m . containsKey ( a || b ) && ( m . remove ( a || b ) != null || true ) )" ∧
      ∀ operator ∈ looseOperators, ¬ Bare final.output.text operator := by
  have circle : deleteEither.tree.ChildStep 7 7 := ⟨.stmt (.block [7]), rfl, by decide⟩
  have plain : deleteEither.Plain 6 := Context.plain_of_nodes (by decide) (by decide +kernel)
  have here : deleteEither.IdiomAt 6 ⟨6, some 0, [], [5]⟩ .mapDelete := by
    refine Context.idiomAt_of_key ⟨"delete", 1, some 0⟩
      ⟨"angular2/typings/es6-shim/es6-shim", "Map.delete"⟩ ?_ rfl rfl rfl rfl rfl ?_ ?_ <;>
    decide +kernel
  have quiet : ∀ operator ∈ looseOperators,
      ¬ Bare (deleteEither.rendering Category.all 0) operator := by decide +kernel
  let outcome := (Run.walk deleteEither (Category.all.map (Category.stage Unit)) 6).run.run
    { output := ⟨"", true⟩, report := ⟨"unit", []⟩, user := () }
  have ran : (outcome.1, outcome.2.output.text) = (.ok (),
      "( m . containsKey ( a || b ) && ( m . remove ( a || b ) != null || true ) )") := by
    decide +kernel
  obtain ⟨ended, written⟩ := Prod.mk.inj ran
  have walked : outcome = (.ok (), outcome.2) := Prod.ext ended rfl
  refine ⟨fun acyclic => acyclic 7 (.single circle), plain, here, outcome.2, walked, written, ?_⟩
  obtain ⟨text, appended, -, closed⟩ := idiom_stays_postfix deleteEither Category.all (by decide)
    6 plain _ .mapDelete _ here rfl Unit _ _ walked
  rw [appended]
  refine closed rfl fun receiver named => ?_
  cases named
  exact quiet

/-- A call whose leaves are all alphanumeric is claimed without a diagnostic, its receiver has no
bare operator, and what is written for it has one. -/
def Context.Loosened (context : Context) (call : NodeId) (site : CallSite) (idiom : CallIdiom)
    (operator : String) : Prop :=
  let outcome := (Run.walk context (Category.all.map (Category.stage Unit)) call).run.run
    { report := ⟨"unit", []⟩, user := () }
  context.IdiomAt call site idiom ∧ (idiom.plan? context site).isSome = true ∧
  ((context.tree.preorder call).all fun node => (context.tree.payload? node).all fun payload =>
    payload.leafText.toList.all Char.isAlphanum) = true ∧
  (outcome.1 = .ok () ∧ outcome.2.report.diagnostics = [] ∧
    operator ∈ looseOperators ∧ Bare outcome.2.output.text operator ∧
    ∀ receiver ∈ site.receiver.toList, ∀ other ∈ looseOperators,
      ¬ Bare (context.rendering Category.all receiver) other)

/-- What is written for a call can be read off the plan of its idiom. -/
theorem Context.loosened_of_plan {context : Context} (acyclic : context.tree.Acyclic)
    {call : NodeId} {site : CallSite} {idiom : CallIdiom} {operator : String}
    (here : context.IdiomAt call site idiom) (plan : Plan)
    (planned : idiom.plan? context site = some plan)
    (leaves : ((context.tree.preorder call).all fun node => (context.tree.payload? node).all
      fun payload => payload.leafText.toList.all Char.isAlphanum) = true)
    (writes : (plan.transcript context (context.transcript Category.all)).defect = none ∧
      Event.diagnostics (plan.transcript context (context.transcript Category.all)).events
        "unit" = [] ∧
      operator ∈ looseOperators ∧
      Bare (Event.text (plan.transcript context (context.transcript Category.all)).events false)
        operator ∧
      ∀ receiver ∈ site.receiver.toList, ∀ other ∈ looseOperators,
        ¬ Bare (context.rendering Category.all receiver) other) :
    context.Loosened call site idiom operator := by
  have member : .expressions ∈ Category.all := by decide
  obtain ⟨found, present, placed⟩ := here.exists_planAt planned member
  obtain ⟨fine, silent, listed, bare, quiet⟩ := writes
  have unfolds : context.transcript Category.all call = _ := transcript_eq acyclic present
  rw [placed] at unfolds
  rw [← unfolds] at fine silent bare
  refine ⟨here, by rw [planned]; rfl, leaves, ?_, ?_, listed, ?_, quiet⟩
  · rw [Run.follows_walk acyclic call, Transcript.result, fine]
  · rw [Run.follows_walk acyclic call, RunState.playAll_eq]
    exact silent
  · rw [Run.follows_walk acyclic call, RunState.playAll_eq, Output.playAll_eq, String.empty_append]
    exact bare

/-- The calls `m.set(a, b)`, `normalizeBlank(x || y)`, `fixed(x || y)`, `forwardRef(() => x || y)`,
`CONST_EXPR(new Map<A | B>())` and `m.get(<Date> x)`.  Options make `fixed` another name for
`CONST_EXPR`, and give `Date` a Dart name that has brackets. -/
def looseCalls : Context where
  tree :=
    { nodes := #[⟨.name (.identifier "m"), 0, 0, some 2⟩,
        ⟨.name (.identifier "set"), 0, 0, some 2⟩,
        ⟨.expr (.propertyAccess 0 1), 0, 0, some 5⟩,
        ⟨.name (.identifier "a"), 0, 0, some 5⟩,
        ⟨.name (.identifier "b"), 0, 0, some 5⟩,
        ⟨.expr (.call 2 [] [3, 4]), 0, 0, none⟩,
        ⟨.name (.identifier "normalizeBlank"), 0, 0, some 10⟩,
        ⟨.name (.identifier "x"), 0, 0, some 9⟩,
        ⟨.name (.identifier "y"), 0, 0, some 9⟩,
        ⟨.expr (.binary 7 .or 8), 0, 0, some 10⟩,
        ⟨.expr (.call 6 [] [9]), 0, 0, none⟩,
        ⟨.name (.identifier "fixed"), 0, 0, some 15⟩,
        ⟨.name (.identifier "x"), 0, 0, some 14⟩,
        ⟨.name (.identifier "y"), 0, 0, some 14⟩,
        ⟨.expr (.binary 12 .or 13), 0, 0, some 15⟩,
        ⟨.expr (.call 11 [] [14]), 0, 0, none⟩,
        ⟨.name (.identifier "forwardRef"), 0, 0, some 21⟩,
        ⟨.name (.identifier "x"), 0, 0, some 19⟩,
        ⟨.name (.identifier "y"), 0, 0, some 19⟩,
        ⟨.expr (.binary 17 .or 18), 0, 0, some 20⟩,
        ⟨.decl (.arrow [] none 19), 0, 0, some 21⟩,
        ⟨.expr (.call 16 [] [20]), 0, 0, none⟩,
        ⟨.name (.identifier "Map"), 0, 0, some 28⟩,
        ⟨.name (.identifier "A"), 0, 0, some 24⟩,
        ⟨.type (.reference 23 []), 0, 0, some 27⟩,
        ⟨.name (.identifier "B"), 0, 0, some 26⟩,
        ⟨.type (.reference 25 []), 0, 0, some 27⟩,
        ⟨.type (.union [24, 26]), 0, 0, some 28⟩,
        ⟨.expr (.construct 22 [27] (some [])), 0, 0, some 30⟩,
        ⟨.name (.identifier "CONST_EXPR"), 0, 0, some 30⟩,
        ⟨.expr (.call 29 [] [28]), 0, 0, none⟩,
        ⟨.name (.identifier "m"), 0, 0, some 33⟩,
        ⟨.name (.identifier "get"), 0, 0, some 33⟩,
        ⟨.expr (.propertyAccess 31 32), 0, 0, some 38⟩,
        ⟨.name (.identifier "Date"), 0, 0, some 35⟩,
        ⟨.type (.reference 34 []), 0, 0, some 37⟩,
        ⟨.name (.identifier "x"), 0, 0, some 37⟩,
        ⟨.expr (.typeAssertion 35 36), 0, 0, some 38⟩,
        ⟨.expr (.call 33 [] [37]), 0, 0, none⟩] }
  resolver := some (Bindings.empty.declare "Map" ⟨64⟩ "angular2/typings/es6-shim/es6-shim.d.ts"
    |>.declareMember 0 "set" .method
    |>.declareMember 0 "get" .method
    |>.declare "normalizeBlank" ⟨16⟩ "angular2/src/facade/lang.ts"
    |>.declare "fixed" ⟨16⟩ "angular2/src/facade/lang.ts"
    |>.declare "forwardRef" ⟨16⟩ "angular2/src/core/di/forward_ref.ts"
    |>.declare "Map" ⟨32⟩ "angular2/src/facade/collection.ts"
    |>.declare "Date" ⟨64⟩ "lib.d.ts"
    |>.bind 1 1 |>.bind 32 2 |>.bind 6 3 |>.bind 11 4 |>.bind 16 5 |>.bind 22 6
    |>.bind 34 7).resolver
  catalog := Catalog.builtin.extend
    { callIdioms := [("angular2/src/facade/lang", [("fixed", .constExpr)])]
      typeNames := [("lib", [("Date", ") ] || [ (")])] }
  basePath := none

/-- Each of the five idioms that are no calls in Dart leaves an operator outside brackets that its
receiver does not have, and so does a Dart name that closes the brackets around it. -/
theorem looseCalls_loosened :
    looseCalls.Loosened 5 ⟨5, some 0, [], [3, 4]⟩ .mapSet "=" ∧
    looseCalls.Loosened 10 ⟨10, none, [], [9]⟩ .normalizeBlank "||" ∧
    looseCalls.Loosened 15 ⟨15, none, [], [14]⟩ .constExpr "||" ∧
    looseCalls.Loosened 21 ⟨21, none, [], [20]⟩ .forwardRef "||" ∧
    looseCalls.Loosened 28 ⟨28, none, [27], []⟩ .constMapConstructor "|" ∧
    looseCalls.Loosened 38 ⟨38, some 31, [], [37]⟩ .mapGet "||" := by
  have sets : looseCalls.IdiomAt 5 ⟨5, some 0, [], [3, 4]⟩ .mapSet := by
    refine Context.idiomAt_of_key ⟨"set", 1, some 0⟩
      ⟨"angular2/typings/es6-shim/es6-shim", "Map.set"⟩ ?_ rfl rfl rfl rfl rfl ?_ ?_ <;>
    decide +kernel
  have normalizes : looseCalls.IdiomAt 10 ⟨10, none, [], [9]⟩ .normalizeBlank := by
    refine Context.idiomAt_of_key ⟨"normalizeBlank", 6, none⟩
      ⟨"angular2/src/facade/lang", "normalizeBlank"⟩ ?_ rfl rfl rfl rfl rfl ?_ ?_ <;>
    decide +kernel
  have fixes : looseCalls.IdiomAt 15 ⟨15, none, [], [14]⟩ .constExpr := by
    refine Context.idiomAt_of_key ⟨"fixed", 11, none⟩
      ⟨"angular2/src/facade/lang", "fixed"⟩ ?_ rfl rfl rfl rfl rfl ?_ ?_ <;>
    decide +kernel
  have forwards : looseCalls.IdiomAt 21 ⟨21, none, [], [20]⟩ .forwardRef := by
    refine Context.idiomAt_of_key ⟨"forwardRef", 16, none⟩
      ⟨"angular2/src/core/di/forward_ref", "forwardRef"⟩ ?_ rfl rfl rfl rfl rfl ?_ ?_ <;>
    decide +kernel
  have constructs : looseCalls.IdiomAt 28 ⟨28, none, [27], []⟩ .constMapConstructor := by
    refine Context.idiomAt_of_key ⟨"Map", 22, none⟩
      ⟨"angular2/src/facade/collection", "Map"⟩ ?_ rfl rfl rfl rfl rfl ?_ ?_ <;>
    decide +kernel
  have gets : looseCalls.IdiomAt 38 ⟨38, some 31, [], [37]⟩ .mapGet := by
    refine Context.idiomAt_of_key ⟨"get", 32, some 31⟩
      ⟨"angular2/typings/es6-shim/es6-shim", "Map.get"⟩ ?_ rfl rfl rfl rfl rfl ?_ ?_ <;>
    decide +kernel
  have acyclic : looseCalls.tree.Acyclic := Tree.acyclic_of_childrenFirst (by decide)
  refine ⟨?_, ?_, ?_, ?_, ?_, ?_⟩
  · exact Context.loosened_of_plan acyclic sets _ rfl (by decide +kernel) (by decide +kernel)
  · exact Context.loosened_of_plan acyclic normalizes _ rfl (by decide +kernel) (by decide +kernel)
  · exact Context.loosened_of_plan acyclic fixes _ rfl (by decide +kernel) (by decide +kernel)
  · exact Context.loosened_of_plan acyclic forwards _ rfl (by decide +kernel) (by decide +kernel)
  · have literal : CallIdiom.plan? looseCalls ⟨28, none, [27], []⟩ .constMapConstructor =
        some (constMapPlan ⟨28, none, [27], []⟩) := by decide +kernel
    exact Context.loosened_of_plan acyclic constructs _ literal (by decide +kernel)
      (by decide +kernel)
  · exact Context.loosened_of_plan acyclic gets _ rfl (by decide +kernel) (by decide +kernel)

end Dartify
