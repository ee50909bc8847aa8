import Dartify.Proofs.PlanBrackets
import Dartify.Proofs.Refusal
import Dartify.Proofs.Spread
import Dartify.Proofs.Success

/-!
# What becomes of the arguments of library calls

Eight idioms have a Dart form with room for so many arguments, and pass over the others
(`CallIdiom.room?`).  The other idioms write every argument, or complain as the constant map does.
Where an idiom makes no diagnostic, each argument that it takes is visited, or the body of a
function that is taken apart (`Context.Covers`), and what is visited is an operand of the call or a
part of one (`CallIdiom.Carried`).  In a proper tree the operands share no node, so an argument that
there is no room for is lost.
-/

namespace Dartify

open Plan

/-! ## Room -/

/-- How many arguments there is room for in the Dart form of an idiom that passes over the others,
`none` when it passes over none. -/
def CallIdiom.room? : CallIdiom → Option Nat
  | .arrayPop | .arrayShift => some 0
  | .arrayFind | .mapGet | .mapForEach | .forwardRef => some 1
  | .arrayReduce | .mapSet => some 2
  | _ => none

/-- The arguments that there is room for. -/
def CallIdiom.taken (idiom : CallIdiom) (site : CallSite) : List NodeId :=
  match idiom.room? with
  | some room => site.arguments.take room
  | none => site.arguments

namespace CallIdiom

variable {idiom : CallIdiom} {site : CallSite}

theorem taken_of_room {room : Nat} (limited : idiom.room? = some room) :
    idiom.taken site = site.arguments.take room := by
  simp [taken, limited]

/-- All arguments are taken when there is room for them. -/
theorem taken_eq_arguments (fits : ∀ room ∈ idiom.room?, site.arguments.length ≤ room) :
    idiom.taken site = site.arguments := by
  unfold taken
  split
  · rename_i room limited
    exact List.take_of_length_le (fits room limited)
  · rfl

end CallIdiom

/-- A function that an idiom takes apart, with its body. -/
inductive Context.Unwraps (context : Context) : CallIdiom → NodeId → NodeId → Prop where
  /-- `Map.forEach` writes the parameters of a function in the order of Dart. -/
  | function {callback body : NodeId} {name result : Option NodeId} {parameters : List NodeId}
      (held : context.tree.payload? callback =
        some (.decl (.functionExpr name parameters result body))) :
      Unwraps context .mapForEach callback body
  /-- It does so for an arrow function as well. -/
  | arrow {callback body : NodeId} {result : Option NodeId} {parameters : List NodeId}
      (held : context.tree.payload? callback = some (.decl (.arrow parameters result body))) :
      Unwraps context .mapForEach callback body
  /-- `forwardRef` writes what its arrow function gives. -/
  | forward {argument body : NodeId} {result : Option NodeId} {parameters : List NodeId}
      (held : context.tree.payload? argument = some (.decl (.arrow parameters result body))) :
      Unwraps context .forwardRef argument body

/-- An argument is among some nodes, or the body that an idiom writes in its place. -/
def Context.Covers (context : Context) (idiom : CallIdiom) (nodes : List NodeId)
    (argument : NodeId) : Prop :=
  argument ∈ nodes ∨ ∃ body ∈ nodes, context.Unwraps idiom argument body

/-- Nodes that cover the arguments that an idiom takes, and are operands of the call or children of
operands. -/
structure CallIdiom.Carried (context : Context) (idiom : CallIdiom) (site : CallSite)
    (nodes : List NodeId) : Prop where
  /-- Every argument that is taken is covered. -/
  covers : ∀ argument ∈ idiom.taken site, context.Covers idiom nodes argument
  /-- Nothing else is there. -/
  only : ∀ node ∈ nodes, ∃ operand ∈ site.receiver.toList ++ (site.typeArguments ++
    idiom.taken site), operand = node ∨ context.tree.ChildStep operand node

variable {context : Context} {site : CallSite} {idiom : CallIdiom} {plan : Plan}
  {walk : NodeId → Transcript}

theorem Context.Unwraps.childStep {argument body : NodeId}
    (unwraps : context.Unwraps idiom argument body) : context.tree.ChildStep argument body := by
  cases unwraps with
  | function held | arrow held | forward held =>
    exact ⟨_, held, by simp [Payload.children, Decl.children]⟩

theorem Context.Covers.exists_reaches {nodes : List NodeId} {argument : NodeId}
    (covers : context.Covers idiom nodes argument) :
    ∃ node ∈ nodes, context.tree.Reaches argument node := by
  rcases covers with member | ⟨body, member, unwraps⟩
  · exact ⟨argument, member, .refl⟩
  · exact ⟨body, member, .single unwraps.childStep⟩

/-! ## Idioms carry what they take -/

namespace CallIdiom

theorem Carried.of_subset {nodes : List NodeId} (all : idiom.taken site ⊆ nodes)
    (within : nodes ⊆ site.receiver.toList ++ (site.typeArguments ++ idiom.taken site)) :
    Carried context idiom site nodes :=
  ⟨fun _ taken => .inl (all taken), fun node member => ⟨node, within member, .inl rfl⟩⟩

/-- Most idioms write the receiver and then what they take. -/
theorem Carried.of_operands {nodes : List NodeId}
    (operands : nodes = site.receiver.toList ++ idiom.taken site) :
    Carried context idiom site nodes := by
  subst operands
  refine .of_subset (List.subset_append_right _ _) (List.append_subset.mpr ⟨?_, ?_⟩)
  · exact List.subset_append_left _ _
  · exact List.Subset.trans (List.subset_append_right _ _) (List.subset_append_right _ _)

/-- Others write what they take and leave the receiver out. -/
theorem Carried.of_taken {nodes : List NodeId} (same : nodes = idiom.taken site) :
    Carried context idiom site nodes := by
  subst same
  refine .of_subset (List.Subset.refl _) ?_
  exact List.Subset.trans (List.subset_append_right _ _) (List.subset_append_right _ _)

/-- A function that is taken apart leaves its body there, and other parts of it. -/
theorem Carried.of_unwraps {argument body : NodeId} {nodes : List NodeId}
    (taken : idiom.taken site = [argument]) (unwraps : context.Unwraps idiom argument body)
    (member : body ∈ nodes)
    (only : ∀ node ∈ nodes, node ∈ site.receiver.toList ∨ context.tree.ChildStep argument node) :
    Carried context idiom site nodes := by
  refine ⟨fun other listed => ?_, fun node among => ?_⟩
  · rw [taken, List.mem_singleton] at listed
    subst listed
    exact .inr ⟨body, member, unwraps⟩
  · rcases only node among with received | part
    · exact ⟨node, List.mem_append_left _ received, .inl rfl⟩
    · exact ⟨argument, by simp [taken], .inr part⟩

end CallIdiom

theorem Plan.unstopped_of_quiet (quiet : Meets (.quiet walk) plan) : Meets .unstopped plan := by
  intro directive member
  have part := quiet directive member
  cases directive with
  | abort defect => exact part.elim
  | _ => trivial

theorem Plan.not_quiet_tooFew {callee : String} {count : Nat} :
    ¬Meets (.quiet walk) (tooFew site callee count) := by
  simp [Demand.quiet]

namespace CallIdiom

theorem carried_reducePlan (quiet : Meets (.quiet walk) (reducePlan site)) :
    Carried context .arrayReduce site (reducePlan site).walked := by
  have taken : arrayReduce.taken site = site.arguments.take 2 := rfl
  unfold reducePlan at quiet ⊢
  split at quiet
  · exact absurd quiet not_quiet_tooFew
  · rename_i callback given
    refine .of_operands ?_
    simp [taken, given]
  · rename_i callback initial others given
    -- the two arguments change places
    refine .of_subset ?_ ?_ <;> simp [taken, given]

theorem carried_constMapPlan (quiet : Meets (.quiet walk) (constMapPlan site)) :
    Carried context .constMapConstructor site (constMapPlan site).walked := by
  unfold constMapPlan at quiet ⊢
  split at quiet
  · rename_i empty
    refine .of_subset ?_ ?_ <;> simp [taken, room?, List.isEmpty_iff.mp empty]
  · simp [Demand.quiet] at quiet

/-- `Map.forEach` takes a function apart whose body is written by `written`. -/
theorem carried_forEachFunctionPlan {callback body : NodeId} {others parameters : List NodeId}
    {written : Plan} (given : site.arguments = callback :: others)
    (unwraps : context.Unwraps .mapForEach callback body)
    (inside : ∀ parameter ∈ parameters, context.tree.ChildStep callback parameter)
    (whole : Meets (.quiet walk) written → written.walked = [body])
    (quiet : Meets (.quiet walk) (forEachFunctionPlan site parameters written)) :
    Carried context .mapForEach site (forEachFunctionPlan site parameters written).walked := by
  have taken : mapForEach.taken site = [callback] := by simp [taken, room?, given]
  unfold forEachFunctionPlan at quiet ⊢
  split at quiet
  · rename_i value key
    have walked : written.walked = [body] := by
      rw [meets_append, meets_append] at quiet
      exact whole quiet.1.2
    refine .of_unwraps taken unwraps (by simp [walked]) fun node member => ?_
    have among : node ∈ site.receiver.toList ∨ node = key ∨ node = value ∨ node = body := by
      simpa [walked] using member
    rcases among with received | rfl | rfl | rfl
    · exact .inl received
    · exact .inr (inside _ (by simp))
    · exact .inr (inside _ (by simp))
    · exact .inr unwraps.childStep
  · simp [Demand.quiet] at quiet

theorem carried_forEachPlan {callback : NodeId} {others : List NodeId}
    (given : site.arguments = callback :: others)
    (quiet : Meets (.quiet walk) (forEachPlan context site callback)) :
    Carried context .mapForEach site (forEachPlan context site callback).walked := by
  obtain ⟨payload, held, chosen⟩ := exists_of_withPayload (unstopped_of_quiet quiet)
  rw [forEachPlan, chosen] at quiet ⊢
  split at quiet
  · refine carried_forEachFunctionPlan given (.function held) (fun parameter member => ?_)
      (fun _ => rfl) quiet
    exact ⟨_, held, by simp [Payload.children, Decl.children, member]⟩
  · rename_i parameters result body
    refine carried_forEachFunctionPlan given (.arrow held) (fun parameter member => ?_) ?_ quiet
    · exact ⟨_, held, by simp [Payload.children, Decl.children, member]⟩
    · intro inner
      rcases arrowBody_cases (unstopped_of_quiet inner) with plan | plan <;> rw [plan] <;> rfl
  · refine .of_operands ?_
    simp [taken, room?, given]

theorem carried_forwardRefPlan {argument : NodeId} {others : List NodeId}
    (given : site.arguments = argument :: others)
    (quiet : Meets (.quiet walk) (forwardRefPlan context site argument)) :
    Carried context .forwardRef site (forwardRefPlan context site argument).walked := by
  have taken : forwardRef.taken site = [argument] := by simp [taken, room?, given]
  obtain ⟨payload, held, chosen⟩ := exists_of_withPayload (unstopped_of_quiet quiet)
  rw [forwardRefPlan, chosen] at quiet ⊢
  split at quiet
  · rename_i parameters result body
    have unwraps : context.Unwraps .forwardRef argument body := .forward held
    refine .of_unwraps taken unwraps (by simp) fun node member => ?_
    have same : node = body := by simpa using member
    subst same
    exact .inr unwraps.childStep
  · simp [Demand.quiet] at quiet

/-- An idiom that makes no diagnostic carries what it takes. -/
theorem carried_plan? (planned : idiom.plan? context site = some plan)
    (quiet : Meets (.quiet walk) plan) : Carried context idiom site plan.walked := by
  cases idiom with
  | arrayReduce => cases planned; exact carried_reducePlan quiet
  | mapDelete =>
    cases planned
    refine .of_subset ?_ ?_ <;> simp [mapDeletePlan, taken, room?]
  | arrayJoin =>
    simp only [plan?] at planned
    split at planned <;> cases planned
    · rename_i empty
      exact .of_operands (by simp [taken, room?, List.isEmpty_iff.mp empty])
    · exact .of_operands (by simp [taken, room?])
  | arrayIsArray =>
    simp only [plan?] at planned
    split at planned <;> cases planned
    · exact absurd quiet not_quiet_tooFew
    · exact .of_taken (by simp [taken, room?])
  | arrayFind =>
    simp only [plan?] at planned
    split at planned <;> cases planned
    · exact absurd quiet not_quiet_tooFew
    · rename_i given
      exact .of_operands (by simp [taken, room?, given])
  | mapGet =>
    simp only [plan?] at planned
    split at planned <;> cases planned
    · rename_i given
      exact .of_operands (by simp [taken, room?, given])
    · exact absurd quiet not_quiet_tooFew
  | mapSet =>
    simp only [plan?] at planned
    split at planned <;> cases planned
    · rename_i given
      exact .of_operands (by simp [taken, room?, given])
    · exact absurd quiet not_quiet_tooFew
  | mapForEach =>
    simp only [plan?] at planned
    split at planned <;> cases planned
    · rename_i given
      exact carried_forEachPlan given quiet
    · exact absurd quiet not_quiet_tooFew
  | constMapConstructor =>
    simp only [plan?] at planned
    split at planned <;> cases planned
    exact carried_constMapPlan quiet
  | forwardRef =>
    simp only [plan?] at planned
    split at planned <;> cases planned
    · rename_i given
      exact carried_forwardRefPlan given quiet
    · exact absurd quiet not_quiet_tooFew
  | constExpr | normalizeBlank => cases planned; exact .of_taken (by simp [taken, room?])
  | _ => cases planned; exact .of_operands (by simp [taken, room?])

theorem Carried.exists_reaches {nodes : List NodeId} {node : NodeId}
    (carried : Carried context idiom site nodes) (member : node ∈ nodes) :
    ∃ operand ∈ site.receiver.toList ++ (site.typeArguments ++ idiom.taken site),
      context.tree.Reaches operand node := by
  obtain ⟨operand, among, rfl | step⟩ := carried.only node member
  · exact ⟨operand, among, .refl⟩
  · exact ⟨operand, among, .single step⟩

/-- An argument that there is no room for is apart from the operands that are taken, so that it
shares no node with what is carried. -/
theorem Carried.not_covers {nodes others : List NodeId} {call lost : NodeId}
    (carried : Carried context idiom site nodes) (proper : context.tree.Proper)
    (here : context.IdiomAt call site idiom)
    (parts : site.arguments = idiom.taken site ++ lost :: others) :
    ¬context.Covers idiom nodes lost := by
  intro covers
  obtain ⟨node, member, down⟩ := covers.exists_reaches
  obtain ⟨operand, among, reaches⟩ := carried.exists_reaches member
  have apart := proper.apart_of_front here.front
  rw [parts, ← List.append_assoc, ← List.append_assoc, List.append_assoc _ _ (idiom.taken site)]
    at apart
  have same : operand = lost := apart.eq_of_reaches operand (List.mem_append_left _ among) lost
    (List.mem_append_right _ (List.mem_cons_self ..)) node reaches down
  exact (List.nodup_append.mp apart.nodup).2.2 operand among lost (List.mem_cons_self ..) same

/-- At a call of a proper tree all arguments are covered exactly when there is room for them. -/
theorem Carried.covers_arguments_iff {nodes : List NodeId} {call : NodeId}
    (carried : Carried context idiom site nodes) (proper : context.tree.Proper)
    (here : context.IdiomAt call site idiom) :
    (∀ argument ∈ site.arguments, context.Covers idiom nodes argument) ↔
      ∀ room ∈ idiom.room?, site.arguments.length ≤ room := by
  constructor
  · intro all room limited
    by_contra more
    have short : room < site.arguments.length := Nat.lt_of_not_le more
    have parts : site.arguments = idiom.taken site ++
        site.arguments[room] :: site.arguments.drop (room + 1) := by
      rw [taken_of_room limited, ← List.drop_eq_getElem_cons short, List.take_append_drop]
    exact carried.not_covers proper here parts (all _ (List.getElem_mem short))
  · intro fits argument listed
    exact carried.covers argument (by rwa [taken_eq_arguments fits])

end CallIdiom

/-! ## Performing a plan -/

/-- A plan that is carried out without a diagnostic asks for none, and visits all that it walks. -/
theorem Run.quiet_of_perform {state final : RunState (List NodeId)}
    (performed : (Run.perform context Run.keep plan).run.run state = (.ok (), final))
    (silent : final.report = state.report) :
    Meets (.quiet fun _ => .empty) plan ∧ final.user = state.user ++ plan.walked := by
  have records : Run.Records (Run.perform context Run.keep plan)
      (plan.transcript context fun _ => .empty) (plan.walked.flatMap fun node => [node]) :=
    Run.records_perform Run.records_keep plan
  obtain ⟨offered, -, whole, ran⟩ := records state
  rw [performed, RunState.playAll_eq] at ran
  obtain ⟨ended, reached⟩ := Prod.mk.inj ran
  have fine : (plan.transcript context fun _ => .empty).defect = none := by
    cases stops : (plan.transcript context fun _ => .empty).defect with
    | none => rfl
    | some defect => simp [Transcript.result, stops] at ended
  have none : Event.diagnostics (plan.transcript context fun _ => .empty).events
      state.report.fileName = [] := by
    rw [reached] at silent
    simpa using congrArg Report.diagnostics silent
  refine ⟨quiet_transcript_iff.mp ⟨fine, Event.diagnostics_eq_nil_iff.mp none⟩, ?_⟩
  rw [reached, whole fine]
  simp

/-- An idiom that claims a call and makes no diagnostic visits every argument that it takes, or the
body of a function that it takes apart.  At a call of a proper tree these are all arguments exactly
when there is room for them. -/
theorem arguments_visited_within_room (context : Context) (site : CallSite) (idiom : CallIdiom)
    (plan : Plan) (planned : idiom.plan? context site = some plan)
    (state final : RunState (List NodeId))
    (performed : (Run.perform context Run.keep plan).run.run state = (.ok (), final))
    (silent : final.report = state.report) :
    ∃ visited, final.user = state.user ++ visited ∧
      (∀ argument ∈ idiom.taken site, context.Covers idiom visited argument) ∧
      (context.tree.Proper → ∀ call, context.IdiomAt call site idiom →
        ((∀ argument ∈ site.arguments, context.Covers idiom visited argument) ↔
          ∀ room ∈ idiom.room?, site.arguments.length ≤ room)) := by
  obtain ⟨quiet, kept⟩ := Run.quiet_of_perform performed silent
  have carried := CallIdiom.carried_plan? planned quiet
  exact ⟨plan.walked, kept, carried.covers,
    fun proper call here => carried.covers_arguments_iff proper here⟩

/-- A call of `m.name` with the first so many of the arguments `(v, k) => b`, `x`, `y` and `self`,
where `name` is a member of `owner`, or a function when there is no owner. -/
def libraryCall (owner : Option String) (name file : String) (arguments : List NodeId) :
    Context where
  tree :=
    { nodes := #[⟨.name (.identifier "m"), 0, 0, some 2⟩,
        ⟨.name (.identifier name), 0, 0, some 2⟩,
        ⟨.expr (.propertyAccess 0 1), 0, 0, some 12⟩,
        ⟨.name (.identifier "v"), 0, 0, some 4⟩,
        ⟨.decl (.parameter 3 none none false), 0, 0, some 8⟩,
        ⟨.name (.identifier "k"), 0, 0, some 6⟩,
        ⟨.decl (.parameter 5 none none false), 0, 0, some 8⟩,
        ⟨.name (.identifier "b"), 0, 0, some 8⟩,
        ⟨.decl (.arrow [4, 6] none 7), 0, 0, some 12⟩,
        ⟨.name (.identifier "x"), 0, 0, some 12⟩,
        ⟨.name (.identifier "y"), 0, 0, some 12⟩,
        ⟨.name (.identifier "self"), 0, 0, some 12⟩,
        ⟨.expr (.call 2 [] arguments), 0, 0, none⟩] }
  resolver := some (match owner with
    | some owner =>
      Bindings.empty.declare owner ⟨64⟩ file |>.declareMember 0 name .method |>.bind 1 1
    | none => Bindings.empty.declare name ⟨16⟩ file |>.bind 1 0).resolver
  catalog := .builtin
  basePath := none

/-- The call has the idiom that the catalog lists under the key of its callee. -/
theorem idiomAt_libraryCall {owner : Option String} {name file : String}
    {arguments : List NodeId} {idiom : CallIdiom} {resolver : Resolver} (key : SymbolKey)
    (entry : Catalog.builtin.calls.get? key = some idiom)
    (resolved : (libraryCall owner name file arguments).resolver = some resolver)
    (known : (libraryCall owner name file arguments).lookup resolver name 1 = .ok key)
    (last : Table.lastDotted key.name = name) :
    (libraryCall owner name file arguments).IdiomAt 12 ⟨12, some 0, [], arguments⟩ idiom :=
  Context.idiomAt_of_key ⟨name, 1, some 0⟩ key entry resolved rfl rfl rfl rfl known last

/-- `m.forEach((v, k) => b)` on a map has room for its argument, whose body is visited. -/
theorem pairCallback_visited :
    let context := libraryCall (some "Map") "forEach" "angular2/typings/es6-shim/es6-shim.d.ts" [8]
    let plan := forEachPlan context ⟨12, some 0, [], [8]⟩ 8
    context.tree.Proper ∧ context.IdiomAt 12 ⟨12, some 0, [], [8]⟩ .mapForEach ∧
    ∃ final, (Run.perform context Run.keep plan).run.run
        { report := ⟨"unit", []⟩, user := [] } = (.ok (), final) ∧
      final.report = ⟨"unit", []⟩ ∧ final.user = [0, 6, 4, 7] ∧
      ∃ visited, final.user = [] ++ visited ∧ context.Covers .mapForEach visited 8 := by
  intro context plan
  have proper : context.tree.Proper :=
    Tree.proper_of_childrenFirst (by decide) (by decide) (by decide)
  have here : context.IdiomAt 12 ⟨12, some 0, [], [8]⟩ .mapForEach :=
    idiomAt_libraryCall ⟨"angular2/typings/es6-shim/es6-shim", "Map.forEach"⟩ (by decide +kernel)
      rfl (by decide +kernel) (by decide +kernel)
  -- the state after the run is given by name only, so that it is evaluated once
  obtain ⟨final, performed, silent, kept⟩ : ∃ final,
      (Run.perform context Run.keep plan).run.run { report := ⟨"unit", []⟩, user := [] } =
        (.ok (), final) ∧ final.report = ⟨"unit", []⟩ ∧ final.user = [0, 6, 4, 7] :=
    ⟨_, Prod.ext (by decide +kernel) rfl, by decide +kernel, by decide +kernel⟩
  obtain ⟨visited, added, -, covered⟩ := arguments_visited_within_room context
    ⟨12, some 0, [], [8]⟩ .mapForEach plan rfl _ final performed silent
  refine ⟨proper, here, final, performed, silent, kept, visited, added, ?_⟩
  exact (covered proper 12 here).mpr (by decide) 8 (List.mem_singleton_self 8)

/-- A call is claimed by an idiom and walking it makes no diagnostic, but one of its arguments is
not visited, and is no function that the idiom takes apart. -/
def Context.Loses (context : Context) (call : NodeId) (site : CallSite) (idiom : CallIdiom)
    (argument : NodeId) : Prop :=
  let outcome := (Run.walk context (Stage.recorder :: Category.all.map (Category.stage _)) call)
    |>.run.run { report := ⟨"unit", []⟩, user := [] }
  context.IdiomAt call site idiom ∧ (idiom.plan? context site).isSome = true ∧
  argument ∈ site.arguments ∧ (∀ body, ¬context.Unwraps idiom argument body) ∧
  (outcome.1 = .ok () ∧ outcome.2.report.diagnostics = [] ∧ argument ∉ outcome.2.user)

/-- The last of four arguments is an identifier, which is not taken apart.  That it is not visited
can be read off the plan of the idiom. -/
theorem loses_of_key {owner : Option String} {name file : String} {idiom : CallIdiom}
    {resolver : Resolver} {plan : Plan} (key : SymbolKey)
    (entry : Catalog.builtin.calls.get? key = some idiom)
    (resolved : (libraryCall owner name file [8, 9, 10, 11]).resolver = some resolver)
    (known : (libraryCall owner name file [8, 9, 10, 11]).lookup resolver name 1 = .ok key)
    (last : Table.lastDotted key.name = name)
    (planned : idiom.plan? (libraryCall owner name file [8, 9, 10, 11])
      ⟨12, some 0, [], [8, 9, 10, 11]⟩ = some plan)
    (walked :
      let stages := Stage.recorder :: Category.all.map (Category.stage _)
      let context := libraryCall owner name file [8, 9, 10, 11]
      let outcome := (Run.perform context
        (Run.walkWithin context stages (Run.budget stages.length context.tree - 1)) plan)
          |>.run.run { report := ⟨"unit", []⟩, user := [12] }
      outcome.1 = .ok () ∧ outcome.2.report.diagnostics = [] ∧ 11 ∉ outcome.2.user) :
    (libraryCall owner name file [8, 9, 10, 11]).Loses 12 ⟨12, some 0, [], [8, 9, 10, 11]⟩ idiom
      11 := by
  have here := idiomAt_libraryCall key entry resolved known last
  refine ⟨here, by rw [planned]; rfl, by simp, ?_, ?_⟩
  · intro body unwraps
    obtain ⟨payload, held, member⟩ := unwraps.childStep
    cases held
    cases member
  · have listed : .expressions ∈ Category.all := by decide
    obtain ⟨found, present, placed⟩ := here.exists_planAt planned listed
    have walks : Run.walk (libraryCall owner name file [8, 9, 10, 11])
        (Stage.recorder :: Category.all.map (Category.stage _)) 12 = _ :=
      Run.walkWithin_recorder_succ Category.all _ present
    rw [placed] at walks
    rw [walks]
    exact walked

/-- Eight idioms lose the last argument of `m.name((v, k) => b, x, y, self)` and say nothing. -/
theorem crowded_calls_lose_argument :
    let site : CallSite := ⟨12, some 0, [], [8, 9, 10, 11]⟩
    let shim := "angular2/typings/es6-shim/es6-shim.d.ts"
    (libraryCall (some "Array") "pop" "lib.d.ts" site.arguments).Loses 12 site .arrayPop 11 ∧
    (libraryCall (some "Array") "shift" "lib.d.ts" site.arguments).Loses 12 site .arrayShift 11 ∧
    (libraryCall (some "Array") "reduce" "lib.d.ts" site.arguments).Loses 12 site .arrayReduce 11 ∧
    (libraryCall (some "Array") "find" shim site.arguments).Loses 12 site .arrayFind 11 ∧
    (libraryCall (some "Map") "set" shim site.arguments).Loses 12 site .mapSet 11 ∧
    (libraryCall (some "Map") "get" shim site.arguments).Loses 12 site .mapGet 11 ∧
    (libraryCall (some "Map") "forEach" shim site.arguments).Loses 12 site .mapForEach 11 ∧
    (libraryCall none "forwardRef" "angular2/src/core/di/forward_ref.ts" site.arguments).Loses 12
      site .forwardRef 11 := by
  refine ⟨loses_of_key ⟨"lib", "Array.pop"⟩ ?_ rfl ?_ ?_ rfl ?_,
    loses_of_key ⟨"lib", "Array.shift"⟩ ?_ rfl ?_ ?_ rfl ?_,
    loses_of_key ⟨"lib", "Array.reduce"⟩ ?_ rfl ?_ ?_ rfl ?_,
    loses_of_key ⟨"angular2/typings/es6-shim/es6-shim", "Array.find"⟩ ?_ rfl ?_ ?_ rfl ?_,
    loses_of_key ⟨"angular2/typings/es6-shim/es6-shim", "Map.set"⟩ ?_ rfl ?_ ?_ rfl ?_,
    loses_of_key ⟨"angular2/typings/es6-shim/es6-shim", "Map.get"⟩ ?_ rfl ?_ ?_ rfl ?_,
    loses_of_key ⟨"angular2/typings/es6-shim/es6-shim", "Map.forEach"⟩ ?_ rfl ?_ ?_ rfl ?_,
    loses_of_key ⟨"angular2/src/core/di/forward_ref", "forwardRef"⟩ ?_ rfl ?_ ?_ rfl ?_⟩ <;>
  decide +kernel

end Dartify
