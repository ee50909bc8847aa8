import Dartify.Proofs.Reexport
import Dartify.Proofs.Walk

/-!
# Names that are no candidates

A resolver is asked for the symbol of a name only where the name is a candidate of the catalog
(`Tree.isCandidate`).  So two resolvers that know the same symbols and types, and bind the
candidates alike, give the same conversions.  They need not agree on a number above their symbols:
following aliases takes as many steps as there are symbols to meet, and a larger budget changes
nothing (`Resolver.follow_eq_terminal`).

Where a tree has no candidates at all, a resolver is as good as none.  The plans are then the same,
with one exception.  With a resolver, the callee of a call is looked at before anything is written,
so that a missing callee stops the run a little earlier.  Both runs stop at the same defect, and
`Plan.SameEnd` says that this is all that can happen.
-/

namespace Dartify

open Plan

/-! ## Resolvers that know the same symbols -/

namespace Resolver

variable {one two : Resolver}

/-- Two resolvers know the same about symbols, wherever they are bound. -/
structure KnowsSame (one two : Resolver) : Prop where
  /-- The same is known about every symbol. -/
  symbol : ∀ id, one.symbol id = two.symbol id
  /-- Aliases stand for the same symbols. -/
  aliasTarget : ∀ id, one.aliasTarget id = two.aliasTarget id
  /-- Symbols have the same dotted names. -/
  qualifiedName : ∀ id, one.qualifiedName id = two.qualifiedName id

namespace KnowsSame

theorem follow (same : KnowsSame one two) (budget : Nat) (met : List SymbolId)
    (id : SymbolId) : one.follow budget met id = two.follow budget met id := by
  induction budget generalizing met id with
  | zero => rfl
  | succ budget ih =>
    have onward : one.nextAlias? met id = two.nextAlias? met id := by
      simp only [nextAlias?, same.symbol, same.aliasTarget]
    rw [Resolver.follow, Resolver.follow, onward]
    split
    · exact ih _ _
    · rfl

theorem terminal (same : KnowsSame one two) (id : SymbolId) :
    one.terminal id = two.terminal id := by
  -- both budgets are enough for their own resolver, so the larger one is enough for both
  let larger := max (one.symbolCount + 1) (two.symbolCount + 1)
  calc one.terminal id = one.follow larger [id] id :=
        (one.follow_eq_terminal (Nat.le_max_left _ _) id).symm
    _ = two.follow larger [id] id := same.follow larger [id] id
    _ = two.terminal id := two.follow_eq_terminal (Nat.le_max_right _ _) id

/-- Resolvers that know the same symbols give them the same keys. -/
theorem key (same : KnowsSame one two) (id : SymbolId) (basePath : Option String) :
    one.key id basePath = two.key id basePath := by
  simp only [Resolver.key, same.terminal, same.symbol, same.qualifiedName]

end KnowsSame

/-- Two resolvers know the same symbols and types.  They may bind names differently. -/
structure SameSymbols (one two : Resolver) : Prop extends KnowsSame one two where
  /-- The types of expressions have the same symbols. -/
  typeSymbolAt : ∀ node, one.typeSymbolAt node = two.typeSymbolAt node

end Resolver

/-- Binding one more name changes nothing about symbols and types. -/
theorem Bindings.sameSymbols_bind (bindings : Bindings) (node : NodeId) (id : SymbolId) :
    (bindings.bind node id).resolver.SameSymbols bindings.resolver := by
  have upward : ∀ (budget : Nat) (start : Option SymbolId),
      (bindings.bind node id).namesUp budget start = bindings.namesUp budget start := by
    intro budget start
    induction budget generalizing start with
    | zero => rfl
    | succ budget ih =>
      cases start with
      | none => rfl
      | some first =>
        simp only [namesUp, ih]
        rfl
  refine ⟨⟨fun _ => rfl, fun _ => rfl, fun first => ?_⟩, fun _ => rfl⟩
  show (bindings.bind node id).qualifiedName first = bindings.qualifiedName first
  simp only [qualifiedName, upward]
  rfl

/-! ## Candidates -/

/-- Whether the name at a node may be in the catalog, as a member or as a type.  A dotted name goes
by its last part, and by the empty text when that is no identifier. -/
def Tree.isCandidate (tree : Tree) (catalog : Catalog) (node : NodeId) : Bool :=
  match tree.payload? node with
  | some (.name (.identifier text)) =>
    text ∈ catalog.propertyCandidates || text ∈ catalog.typeCandidates
  | some (.name (.qualified _ right)) =>
    (tree.identifierText? right).getD "" ∈ catalog.typeCandidates
  | _ => false

variable {context : Context} {one two : Resolver}

/-- Every name that is looked up stands at a candidate. -/
theorem Context.IsCandidate.isCandidate {name : String} {node : NodeId}
    (asked : context.IsCandidate name node) :
    context.tree.isCandidate context.catalog node = true := by
  rcases asked with ⟨form, held, rfl, known⟩ | ⟨named, known⟩
  · have held : context.tree.payload? node = some (.name form) := held
    cases form with
    | identifier text =>
      have known : text ∈ context.catalog.typeCandidates := known
      simp [Tree.isCandidate, held, known]
    | qualified left right =>
      have known : (context.tree.identifierText? right).getD "" ∈
        context.catalog.typeCandidates := known
      simp [Tree.isCandidate, held, known]
  · simp [Tree.isCandidate, Tree.identifierText?_eq_some_iff.mp named, known]

/-- Resolvers that know the same symbols and bind the candidates alike are alike. -/
theorem Context.alike_of_candidates (same : one.SameSymbols two)
    (bound : ∀ node, context.tree.isCandidate context.catalog node = true →
      one.symbolAt node = two.symbolAt node) : context.Alike one two := by
  constructor
  · intro name node asked
    apply lookup_congr
    rw [bound node asked.isCandidate]
    simp only [same.key]
  · intro node
    rw [same.typeSymbolAt node]
    simp only [same.key]

/-! ## Trees without candidates -/

namespace Plan

/-- Two plans come to the same, apart from what is written before a callee that is missing. -/
inductive SameEnd (tree : Tree) : Plan → Plan → Prop where
  /-- The plans are the same. -/
  | refl (plan : Plan) : SameEnd tree plan plan
  /-- The first stops at once, and the second when it comes to the callee. -/
  | missing {callee : NodeId} (absent : tree.get? callee = none) (words : List String)
      (rest : Plan) :
      SameEnd tree [.abort (.missing callee)]
        (words.map Directive.token ++ .child callee :: rest)

end Plan

section

variable (plain : ∀ node, context.tree.isCandidate context.catalog node = false)
  (resolver : Resolver)

include plain

theorem typeName_of_plain (node : NodeId) :
    typeName (context.withResolver (some resolver)) node =
      typeName (context.withResolver none) node := by
  cases present : context.tree.get? node with
  | none => simp only [typeName, withPayload, Context.withResolver, present]
  | some found =>
    cases held : found.payload with
    | name form =>
      have unknown : context.lastName form ∉ context.catalog.typeCandidates := by
        intro known
        have asked : context.IsCandidate (context.lastName form) node :=
          .inl ⟨form, by simp [present, held], rfl, known⟩
        exact Bool.false_ne_true ((plain node).symm.trans asked.isCandidate)
      rw [typeName_of_name present held, if_neg unknown]
      simp only [typeName, withPayload, Context.withResolver, present, held]
    | _ => simp only [typeName, withPayload, Context.withResolver, present, held]

theorem recognizeProperty_of_plain {node : NodeId} {found : Node}
    (present : context.tree.get? node = some found) :
    (context.withResolver (some resolver)).recognizeProperty node = .ok .notHandled := by
  simp only [Context.recognizeProperty, Context.tree_withResolver,
    Context.resolver_withResolver, present]
  split
  · rename_i expression name _
    split
    · rfl
    · rename_i text named
      have unknown : text ∉ context.catalog.propertyCandidates := by
        intro known
        have asked : context.IsCandidate text name := .inr ⟨named, known⟩
        exact Bool.false_ne_true ((plain name).symm.trans asked.isCandidate)
      simp only [Context.recognizeName, Context.catalog_withResolver, unknown, if_false]
  · rfl

/-- No call is recognized, but its callee is looked at. -/
theorem recognizeCall_of_plain {node : NodeId} {found : Node}
    (present : context.tree.get? node = some found) :
    (context.withResolver (some resolver)).recognizeCall node = .ok .notHandled ∨
    ∃ callee typeArguments arguments,
      Context.callParts? found.payload = some (callee, typeArguments, arguments) ∧
      context.tree.get? callee = none ∧
      (context.withResolver (some resolver)).recognizeCall node = .error (.missing callee) := by
  simp only [Context.recognizeCall, Context.tree_withResolver, Context.resolver_withResolver,
    Context.callee?_withResolver, present]
  cases parts : Context.callParts? found.payload with
  | none => exact .inl rfl
  | some part =>
    obtain ⟨calleeNode, typeArguments, arguments⟩ := part
    cases calleePresent : context.tree.get? calleeNode with
    | none =>
      refine .inr ⟨calleeNode, typeArguments, arguments, rfl, calleePresent, ?_⟩
      simp only [calleePresent]
    | some calleeFound =>
      left
      cases named : context.callee? calleeNode calleeFound.payload with
      | none => simp only [calleePresent, named]
      | some callee =>
        have unknown : callee.name ∉ context.catalog.propertyCandidates := by
          intro known
          have asked := Context.isCandidate_of_callee? calleePresent named known
          exact Bool.false_ne_true ((plain callee.node).symm.trans asked.isCandidate)
        simp only [calleePresent, named, Context.recognizeCallee, Context.catalog_withResolver,
          unknown, if_false]

/-- With a resolver, the plan of an expression is the one without, unless a callee is missing. -/
theorem Expr.sameEnd_plan {node : NodeId} {found : Node} {form : Expr}
    (present : context.tree.get? node = some found) (held : found.payload = .expr form) :
    SameEnd context.tree (form.plan (context.withResolver (some resolver)) node)
      (form.plan (context.withResolver none) node) := by
  have properties : (context.withResolver (some resolver)).recognizeProperty node =
      (context.withResolver none).recognizeProperty node :=
    recognizeProperty_of_plain plain resolver present
  rcases recognizeCall_of_plain plain resolver present with calls |
    ⟨callee, typeArguments, arguments, parts, absent, stops⟩
  · rw [Expr.plan_congr (typeName_of_plain plain resolver) properties calls]
    exact .refl _
  · rw [held] at parts
    cases form with
    | call expression typeArgs args =>
      cases parts
      simp only [Expr.plan, stops, ofRecognition]
      exact .missing absent [] _
    | construct expression typeArgs args =>
      cases parts
      simp only [Expr.plan, stops, ofRecognition]
      exact .missing absent [_] _
    | _ => cases parts

/-- With a resolver, the plan of a node is the one without, unless a callee is missing. -/
theorem Context.sameEnd_planAt (categories : List Category) {node : NodeId} {found : Node}
    (present : context.tree.get? node = some found) :
    SameEnd context.tree ((context.withResolver (some resolver)).planAt categories node found)
      ((context.withResolver none).planAt categories node found) := by
  have names := typeName_of_plain plain resolver
  rcases (context.withResolver none).planAt_cases categories node found with
    ⟨passed, unclaimed⟩ | ⟨category, member, planned⟩
  · rw [passed, planAt_of_unclaimed _ node unclaimed]
    exact .refl _
  · cases held : found.payload with
    | expr form =>
      have both : ∀ asked : Option Resolver,
          category.plan? (context.withResolver asked) node found.payload =
            some (form.plan (context.withResolver asked) node) := by
        intro asked
        cases category <;> simp_all [Category.plan?]
      rw [planAt_of_mem member (both _), planAt_of_mem member (both _)]
      exact Expr.sameEnd_plan plain resolver present held
    | _ =>
      have same : category.plan? (context.withResolver (some resolver)) node found.payload =
          category.plan? (context.withResolver none) node found.payload := by
        rw [held]
        cases category <;>
          simp only [Category.plan?, Literal.plan_withResolver, Stmt.plan_withResolver,
            TypeExpr.plan_congr names, Decl.plan_congr names]
      rw [planAt_of_mem member (same.trans planned)]
      exact .refl _

end

/-! ## Transcripts that come to the same -/

namespace Transcript

/-- Two walks stop at the same defect, or both do the same. -/
structure Agrees (one two : Transcript) : Prop where
  /-- The defects are the same. -/
  defect : one.defect = two.defect
  /-- Without a defect the events are the same. -/
  events : one.defect = none → one.events = two.events

theorem Agrees.refl (transcript : Transcript) : Agrees transcript transcript :=
  ⟨rfl, fun _ => rfl⟩

theorem Agrees.append {first second first' second' : Transcript} (heads : Agrees first first')
    (tails : Agrees second second') : Agrees (first ++ second) (first' ++ second') := by
  cases ended : first.defect with
  | some defect =>
    have ended' : first'.defect = some defect := heads.defect.symm.trans ended
    rw [append_of_some ended, append_of_some ended']
    exact heads
  | none =>
    have ended' : first'.defect = none := heads.defect.symm.trans ended
    rw [append_of_none ended, append_of_none ended', heads.events ended]
    refine ⟨tails.defect, fun fine => ?_⟩
    rw [tails.events fine]

end Transcript

namespace Plan

variable {walk walk' : NodeId → Transcript}

theorem transcript_withResolver (asked : Option Resolver) (plan : Plan) :
    plan.transcript (context.withResolver asked) walk = plan.transcript context walk := by
  induction plan with
  | nil => rfl
  | cons directive rest ih =>
    have first : directive.transcript (context.withResolver asked) walk =
        directive.transcript context walk := by
      cases directive <;> rfl
    rw [transcript, transcript, first, ih]

/-- Plans agree when the walks of their nodes do. -/
theorem agrees_transcript {plan : Plan}
    (walks : ∀ node, .child node ∈ plan → (walk node).Agrees (walk' node)) :
    (plan.transcript context walk).Agrees (plan.transcript context walk') := by
  induction plan with
  | nil => exact .refl _
  | cons directive rest ih =>
    refine .append ?_ (ih fun node member => walks node (List.mem_cons_of_mem _ member))
    cases directive with
    | child node => exact walks node (List.mem_cons_self ..)
    | _ => exact .refl _

/-- A plan that comes to a missing node after some words stops there. -/
theorem defect_transcript_of_missing (context : Context) {callee : NodeId}
    (words : List String) (rest : Plan)
    (stops : walk callee = .stop (.missing callee)) :
    (transcript context walk (words.map .token ++ .child callee :: rest)).defect =
      some (.missing callee) := by
  induction words with
  | nil =>
    show (walk callee ++ rest.transcript context walk).defect = _
    rw [stops, Transcript.append_of_some rfl]
    rfl
  | cons word words ih =>
    show (Transcript.one (.token word) ++ _).defect = _
    rw [Transcript.append_of_none rfl]
    exact ih

end Plan

/-- In a tree without candidates, a walk with a resolver comes to the same as one without. -/
theorem Context.agrees_transcript
    (plain : ∀ node, context.tree.isCandidate context.catalog node = false)
    (resolver : Resolver) (acyclic : context.tree.Acyclic) (categories : List Category)
    (node : NodeId) :
    ((context.withResolver (some resolver)).transcript categories node).Agrees
      ((context.withResolver none).transcript categories node) := by
  have acyclic' : ∀ asked, (context.withResolver asked).tree.Acyclic := fun _ => acyclic
  induction node using walk_induction categories (acyclic' none) with
  | absent node missing stops =>
    have stops' : (context.withResolver (some resolver)).transcript categories node =
        .stop (.missing node) := transcript_of_absent missing
    rw [stops, stops']
    exact .refl _
  | planned node found present unfolds ih =>
    rw [unfolds, transcript_eq (acyclic' (some resolver)) present, transcript_withResolver,
      transcript_withResolver]
    have ends := sameEnd_planAt plain resolver categories present
    generalize (context.withResolver (some resolver)).planAt categories node found = asking
      at ends ⊢
    generalize (context.withResolver none).planAt categories node found = silent at ends ih ⊢
    cases ends with
    | refl plan => exact Plan.agrees_transcript ih
    | @missing callee absent words rest =>
      have stops : (context.withResolver none).transcript categories callee =
          .stop (.missing callee) := transcript_of_absent absent
      have late := Plan.defect_transcript_of_missing context words rest stops
      refine ⟨?_, fun fine => ?_⟩
      · rw [late]
        rfl
      · cases fine

/-! ## Conversions -/

namespace Converter

/-- The result of a conversion from the imports that it writes and the transcript of its root. -/
def conclude (root : Node) (imports : Except Defect (List String)) (transcript : Transcript) :
    Except Defect Conversion :=
  match imports with
  | .error defect => .error defect
  | .ok targets =>
    match transcript.defect with
    | some defect => .error defect
    | none =>
      let final := (afterImports root targets).playAll transcript.events
      .ok ⟨fileName root.payload, final.output.text, final.report.diagnostics⟩

theorem conclude_congr {root : Node} {imports : Except Defect (List String)}
    {first second : Transcript} (agrees : first.Agrees second) :
    conclude root imports first = conclude root imports second := by
  cases imports with
  | error defect => rfl
  | ok targets =>
    cases ended : first.defect with
    | some defect => simp only [conclude, ← agrees.defect, ended]
    | none => simp only [conclude, ← agrees.defect, ended, agrees.events ended]

/-- In a tree without candidates, a resolver is as good as none. -/
theorem convert_of_plain {categories : List Category} {options : Options} {tree : Tree}
    (acyclic : tree.Acyclic)
    (plain : ∀ node,
      tree.isCandidate (ofCategories Unit categories options).catalog node = false)
    (root : NodeId) (resolver : Resolver) :
    (ofCategories Unit categories options).convert ⟨tree, root, some resolver⟩ =
      (ofCategories Unit categories options).convert ⟨tree, root, none⟩ := by
  let converter := ofCategories Unit categories options
  let base := converter.context ⟨tree, root, none⟩
  have asking : converter.context ⟨tree, root, some resolver⟩ =
      base.withResolver (if options.useIdioms then some resolver else none) := rfl
  have silent : base = base.withResolver none := by
    simp only [base, Converter.context, ite_self, Context.withResolver]
  cases present : tree.get? root with
  | none => simp only [convert, run, present]
  | some found =>
    have imports : converter.leadingImports ⟨tree, root, some resolver⟩ =
        converter.leadingImports ⟨tree, root, none⟩ := by
      simp only [leadingImports, asking, Import.needed_withResolver]
      rfl
    have walked : ((converter.context ⟨tree, root, some resolver⟩).transcript categories
        root).Agrees (base.transcript categories root) := by
      rw [asking]
      conv => rhs; rw [silent]
      cases options.useIdioms with
      | false => exact .refl _
      | true => exact Context.agrees_transcript plain resolver acyclic categories root
    have concluded : ∀ asked : Option Resolver, converter.convert ⟨tree, root, asked⟩ =
        conclude found (converter.leadingImports ⟨tree, root, asked⟩)
          ((converter.context ⟨tree, root, asked⟩).transcript categories root) :=
      fun asked => convert_ofCategories acyclic present
    calc converter.convert ⟨tree, root, some resolver⟩
      _ = conclude found (converter.leadingImports ⟨tree, root, none⟩)
          ((converter.context ⟨tree, root, some resolver⟩).transcript categories root) := by
        rw [concluded, imports]
      _ = conclude found (converter.leadingImports ⟨tree, root, none⟩)
          (base.transcript categories root) := conclude_congr walked
      _ = converter.convert ⟨tree, root, none⟩ := (concluded none).symm

end Converter

/-- The symbols of names matter only at candidates.  Resolvers that know the same symbols and types
and bind the candidates alike give the same conversion, and in a tree without candidates every
resolver gives the conversion without one. -/
theorem convert_asks_candidates (categories : List Category) (options : Options) (tree : Tree)
    (root : NodeId) (acyclic : tree.Acyclic) :
    let converter := Converter.ofCategories Unit categories options
    (∀ one two : Resolver, one.SameSymbols two →
      (∀ node, tree.isCandidate converter.catalog node = true →
        one.symbolAt node = two.symbolAt node) →
      converter.convert ⟨tree, root, some one⟩ = converter.convert ⟨tree, root, some two⟩) ∧
    ((∀ node, tree.isCandidate converter.catalog node = false) → ∀ resolver : Resolver,
      converter.convert ⟨tree, root, some resolver⟩ = converter.convert ⟨tree, root, none⟩) := by
  intro converter
  constructor
  · intro one two same bound
    have alike : (converter.context ⟨tree, root, none⟩).Alike one two :=
      Context.alike_of_candidates same bound
    exact Converter.convert_congr alike
  · intro plain resolver
    exact Converter.convert_of_plain acyclic plain root resolver

/-- The method `push` of arrays, bound at its name in `pushCall`. -/
def pushBindings : Bindings :=
  Bindings.empty.declare "Array" ⟨64⟩ "lib.d.ts"
    |>.declareMember 0 "push" .method
    |>.bind 1 1

/-- A construction whose callee is missing. -/
def constructsMissing : Tree :=
  { nodes := #[⟨.literal (.numeric "1"), 6, 7, some 1⟩,
      ⟨.expr (.construct 9 [] (some [0])), 0, 8, none⟩] }

/-- A symbol at the receiver of `push`, which is no candidate, changes nothing, and a missing callee
stops a run with a resolver as it stops one without. -/
theorem pushCall_asks_candidates :
    pushCall.Acyclic ∧
    (Converter.standard {}).convert ⟨pushCall, 4, some (pushBindings.bind 0 1).resolver⟩ =
      (Converter.standard {}).convert ⟨pushCall, 4, some pushBindings.resolver⟩ ∧
    (Converter.standard {}).convert ⟨pushCall, 4, some pushBindings.resolver⟩ =
      .ok ⟨"", " xs . add ( 1 )", []⟩ ∧
    (Converter.standard {}).convert ⟨constructsMissing, 1, some pushBindings.resolver⟩ =
      .error (.missing 9) := by
  have acyclic : pushCall.Acyclic := Tree.acyclic_of_childrenFirst (by decide)
  have same := pushBindings.sameSymbols_bind 0 1
  have bound : ∀ node, pushCall.isCandidate (Converter.standard {}).catalog node = true →
      (pushBindings.bind 0 1).resolver.symbolAt node = pushBindings.resolver.symbolAt node := by
    intro node candidate
    have other : node ≠ 0 := by
      rintro rfl
      exact absurd candidate (by decide +kernel)
    show List.lookup node ((0, 1) :: pushBindings.nodeSymbols) = _
    rw [List.lookup_cons, beq_false_of_ne other]
    rfl
  have plain : ∀ node,
      constructsMissing.isCandidate (Converter.standard {}).catalog node = false
    | 0 | 1 => by decide
    | _ + 2 => rfl
  refine ⟨acyclic, ?_, by decide, ?_⟩
  · exact (convert_asks_candidates Category.all {} pushCall 4 acyclic).1 _ _ same bound
  · have acyclic' : constructsMissing.Acyclic := Tree.acyclic_of_childrenFirst (by decide)
    calc _ = (Converter.standard {}).convert ⟨constructsMissing, 1, none⟩ :=
          (convert_asks_candidates Category.all {} constructsMissing 1 acyclic').2 plain _
      _ = .error (.missing 9) := by decide

end Dartify
