import Dartify.Proofs.Ancestry
import Dartify.Proofs.Quoting

/-!
# Constant contexts are inherited

A node is in a constant context when a decorator is among its ancestors, or when the nearest call
among them is one of `CONST_EXPR`.  Only calls and decorators matter to that, so a node whose parent
is neither is in a constant context exactly when the parent is (`Tree.Rooted.inConstContext_step`).
Along a line of ancestors without calls and decorators nothing changes
(`Tree.Rooted.inConstContext_eq`).

An array or an object is written with `const` in front when it is in a constant context.  Hence one
that is nested in another, through literals, conditionals, parentheses and constructions, has the
word when the other has it (`const_context_inherited`).
-/

namespace Dartify

/-! ## Ancestors that do not matter -/

/-- Whether a payload is a call or a decorator. -/
def Payload.isConstBoundary : Payload → Bool
  | .expr (.call _ _ _) => true
  | .decl (.decorator _) => true
  | _ => false

section

variable {payload : Payload} (passes : payload.isConstBoundary = false)

include passes

theorem Payload.callee?_eq_none : Tree.callee? payload = none := by
  unfold Tree.callee?
  split
  · cases passes
  · rfl

theorem Payload.isDecorator_eq_false : Tree.isDecorator payload = false := by
  unfold Tree.isDecorator
  split
  · cases passes
  · rfl

end

namespace Tree

variable {tree : Tree} {inner outer : NodeId}

theorem ancestors_of_absent {node parent : NodeId} (one : tree.ParentStep node parent)
    (absent : tree.get? parent = none) : tree.ancestors node = [] := by
  rw [ancestors, one, climb_of_absent absent]

/-- A node is in a constant context with its parent, unless that is a call or a decorator. -/
theorem Rooted.inConstContext_step (rooted : tree.Rooted) {node parent : NodeId} {found : Node}
    (one : tree.ParentStep node parent) (present : tree.get? parent = some found)
    (passes : found.payload.isConstBoundary = false) :
    tree.inConstContext node = tree.inConstContext parent := by
  have noCall := Payload.callee?_eq_none passes
  have noDecorator := Payload.isDecorator_eq_false passes
  have unfolds := rooted.ancestors_eq one present
  have decorated : tree.hasAncestor node isDecorator = tree.hasAncestor parent isDecorator := by
    rw [hasAncestor, unfolds, List.any_cons, noDecorator, Bool.false_or, hasAncestor]
  have called : tree.inConstExpr node = tree.inConstExpr parent := by
    rw [inConstExpr, unfolds, List.findSome?_cons, noCall, inConstExpr]
  rw [inConstContext, decorated, called, inConstContext]

/-- A node is in a constant context with an ancestor, unless a call or a decorator is between them
or the ancestor is one. -/
theorem Rooted.inConstContext_eq (rooted : tree.Rooted)
    (above : outer ∈ (tree.ancestors inner).map Prod.fst)
    (passes : ∀ entry ∈ tree.ancestors inner,
      entry.1 = outer ∨ outer ∈ (tree.ancestors entry.1).map Prod.fst →
      entry.2.payload.isConstBoundary = false) :
    tree.inConstContext inner = tree.inConstContext outer := by
  -- the induction goes up from the inner node, one link at a time
  induction inner using rooted.descends.induction with
  | onward inner ih =>
    cases linked : tree.parent? inner with
    | none =>
      rw [ancestors_of_none linked] at above
      cases above
    | some parent =>
      cases present : tree.get? parent with
      | none =>
        rw [ancestors_of_absent linked present] at above
        cases above
      | some found =>
        have unfolds := rooted.ancestors_eq linked present
        rw [unfolds] at above passes
        have head : (parent, found) ∈ (parent, found) :: tree.ancestors parent :=
          List.mem_cons_self ..
        rcases List.mem_cons.mp above with rfl | later
        · exact rooted.inConstContext_step linked present (passes _ head (.inl rfl))
        · have step := rooted.inConstContext_step linked present (passes _ head (.inr later))
          exact step.trans (ih parent (.single linked) later fun entry member =>
            passes entry (List.mem_cons_of_mem _ member))

end Tree

/-! ## Nested literals -/

/-- Whether a payload is a literal, a conditional, a parenthesis or a construction. -/
def Payload.carriesConst : Payload → Bool
  | .literal _ => true
  | .expr (.conditional _ _ _) | .expr (.parenthesized _) | .expr (.construct _ _ _) => true
  | _ => false

theorem Payload.isConstBoundary_of_carries {payload : Payload}
    (carries : payload.carriesConst = true) : payload.isConstBoundary = false := by
  unfold carriesConst at carries
  split at carries
  · rfl
  · rfl
  · rfl
  · rfl
  · cases carries

/-- A node is nested in another through literals, conditionals, parentheses and constructions. -/
inductive Tree.Nests (tree : Tree) : NodeId → NodeId → Prop where
  /-- The other is its parent. -/
  | directly {inner outer : NodeId} (one : tree.ParentStep inner outer) : Nests tree inner outer
  /-- Its parent is nested in the other. -/
  | through {inner middle outer : NodeId} {payload : Payload} (one : tree.ParentStep inner middle)
      (held : tree.payload? middle = some payload) (carries : payload.carriesConst = true)
      (rest : Nests tree middle outer) : Nests tree inner outer

/-- What is nested in a literal is in a constant context with it. -/
theorem Tree.Rooted.inConstContext_of_nests {tree : Tree} (rooted : tree.Rooted)
    {inner outer : NodeId} {form : Literal} (nests : tree.Nests inner outer)
    (held : tree.payload? outer = some (.literal form)) :
    tree.inConstContext inner = tree.inConstContext outer := by
  have step {node parent : NodeId} {payload : Payload} (one : tree.ParentStep node parent)
      (held : tree.payload? parent = some payload) (carries : payload.carriesConst = true) :
      tree.inConstContext node = tree.inConstContext parent := by
    obtain ⟨found, present, rfl⟩ := payload?_eq_some.mp held
    exact rooted.inConstContext_step one present (Payload.isConstBoundary_of_carries carries)
  induction nests with
  | directly one => exact step one held rfl
  | through one middle carries rest ih => exact (step one middle carries).trans (ih held)

/-- The bracket that an array or an object opens with. -/
def Literal.opening? : Literal → Option String
  | .array _ => some "["
  | .object _ => some Text.openBrace
  | _ => none

theorem Plan.events_transcript_tokens (context : Context) (walk : NodeId → Transcript)
    (words : List String) (rest : Plan) :
    (Plan.transcript context walk (words.map Directive.token ++ rest)).events =
      words.map Event.token ++ (rest.transcript context walk).events := by
  induction words with
  | nil => rfl
  | cons word words ih =>
    rw [List.map_cons, List.cons_append, Plan.transcript, Directive.transcript,
      Transcript.append_of_none rfl, ih]
    rfl

theorem Output.playAll_tokens (output : Output) (words : List String) :
    output.playAll (words.map Event.token) = words.foldl Output.token output := by
  rw [playAll, List.foldl_map]
  rfl

namespace Context

variable {context : Context} {node : NodeId} {form : Literal} {opening : String}

/-- Whatever a run has written, the tokens that a node opens with come next. -/
theorem Opens.exists_text {words : List String} (opens : context.Opens node words) {σ : Type}
    (budget : Nat) (state : RunState σ) :
    ∃ after,
      ((Run.walkWithin context (Category.all.map (Category.stage σ)) (budget + 2) node).run.run
        state).2.output.text = (words.foldl Output.token state.output).text ++ after := by
  obtain ⟨rest, performs⟩ := opens
  have follows : Run.Follows
      (Run.perform context
        (Run.walkWithin context (Category.all.map (Category.stage σ)) (budget + 1))
        (words.map Directive.token ++ rest))
      (Plan.transcript context (context.transcriptWithin Category.all (budget + 1))
        (words.map Directive.token ++ rest)) :=
    Run.follows_perform (Run.follows_walkWithin context Category.all (budget + 1)) _
  rw [performs σ budget, follows state, RunState.output_playAll, Plan.events_transcript_tokens,
    Output.playAll_concat, Output.playAll_tokens, Output.playAll_eq]
  exact ⟨_, rfl⟩

/-- An array or an object opens with its bracket, and has `const` before it in a constant
context. -/
theorem opens_of_opening (held : context.tree.payload? node = some (.literal form))
    (bracketed : form.opening? = some opening) :
    context.Opens node
      (if context.tree.inConstContext node then ["const", opening] else [opening]) := by
  obtain ⟨found, present, planned⟩ := exists_planAt .literals held rfl
  have bracket : ∃ closing items,
      form.plan context node = bracketedPlan context node opening closing items := by
    cases form <;> cases bracketed <;> exact ⟨_, _, rfl⟩
  obtain ⟨closing, items, same⟩ := bracket
  have listed : context.planAt Category.all node found =
      (if context.tree.inConstContext node then ["const", opening] else [opening]).map
        Directive.token ++ (Plan.commas items ++ [.token closing]) := by
    rw [planned, same, bracketedPlan]
    cases context.tree.inConstContext node <;> rfl
  exact opens_of_plan present listed

/-- An array or an object cannot open in both ways. -/
theorem Opens.not_opening (bracketed : form.opening? = some opening)
    (prefixed : context.Opens node ["const", opening]) : ¬context.Opens node [opening] := by
  intro bare
  -- with an attachment pending, one text would begin with `const` and with the bracket
  let start : RunState Unit := { output := ⟨"", true⟩, report := ⟨"", []⟩, user := () }
  obtain ⟨after, long⟩ := prefixed.exists_text 0 start
  obtain ⟨after', short⟩ := bare.exists_text 0 start
  have same := congrArg String.toList (long.symm.trans short)
  cases form <;> cases bracketed <;> simp [start, Output.token, Text.openBrace] at same

/-- An array or an object has `const` in front exactly in a constant context. -/
theorem opens_const_iff (held : context.tree.payload? node = some (.literal form))
    (bracketed : form.opening? = some opening) :
    (context.Opens node ["const", opening] ↔ context.tree.inConstContext node = true) ∧
    (context.Opens node [opening] ↔ context.tree.inConstContext node = false) := by
  have opens := opens_of_opening held bracketed
  cases constant : context.tree.inConstContext node with
  | true =>
    rw [constant] at opens
    exact ⟨iff_of_true opens rfl, iff_of_false (Opens.not_opening bracketed opens) (by decide)⟩
  | false =>
    rw [constant] at opens
    exact ⟨iff_of_false (fun prefixed => prefixed.not_opening bracketed opens) (by decide),
      iff_of_true opens rfl⟩

end Context

/-- On a tree whose parent links run in no circle, a node is in a constant context exactly when an
ancestor is, where no node from above the one up to the other is a call or a decorator.  Hence an
array or an object that is nested in another, through literals, conditionals, parentheses and
constructions, is written with `const` in front when the other is, and without it when the other
is. -/
theorem const_context_inherited (context : Context) (rooted : context.tree.Rooted)
    (inner outer : NodeId) :
    (outer ∈ (context.tree.ancestors inner).map Prod.fst →
      (∀ entry ∈ context.tree.ancestors inner,
        entry.1 = outer ∨ outer ∈ (context.tree.ancestors entry.1).map Prod.fst →
        entry.2.payload.isConstBoundary = false) →
      context.tree.inConstContext inner = context.tree.inConstContext outer) ∧
    ∀ form form' opening opening',
      context.tree.payload? inner = some (.literal form) → form.opening? = some opening →
      context.tree.payload? outer = some (.literal form') → form'.opening? = some opening' →
      context.tree.Nests inner outer →
      (context.Opens inner ["const", opening] ↔ context.Opens outer ["const", opening']) ∧
      (context.Opens inner [opening] ↔ context.Opens outer [opening']) := by
  refine ⟨rooted.inConstContext_eq, ?_⟩
  intro form form' opening opening' held bracketed held' bracketed' nests
  obtain ⟨prefixed, bare⟩ := Context.opens_const_iff held bracketed
  obtain ⟨prefixed', bare'⟩ := Context.opens_const_iff held' bracketed'
  have same := rooted.inConstContext_of_nests nests held'
  rw [prefixed, prefixed', bare, bare', same]
  exact ⟨Iff.rfl, Iff.rfl⟩

/-- A call with the argument `[{a: (c ? new F([]) : 1)}]`, in a statement or in a decorator. -/
def nestedLiterals (callee : String) (around : Payload) : Context where
  tree :=
    { nodes := #[⟨.name (.identifier callee), 0, 10, some 12⟩,
        ⟨.name (.identifier "a"), 13, 14, some 9⟩,
        ⟨.name (.identifier "c"), 17, 18, some 7⟩,
        ⟨.name (.identifier "F"), 25, 26, some 5⟩,
        ⟨.literal (.array []), 27, 29, some 5⟩,
        ⟨.expr (.construct 3 [] (some [4])), 21, 30, some 7⟩,
        ⟨.literal (.numeric "1"), 33, 34, some 7⟩,
        ⟨.expr (.conditional 2 5 6), 17, 34, some 8⟩,
        ⟨.expr (.parenthesized 7), 16, 35, some 9⟩,
        ⟨.literal (.property 1 8), 13, 35, some 10⟩,
        ⟨.literal (.object [9]), 12, 36, some 11⟩,
        ⟨.literal (.array [10]), 11, 37, some 12⟩,
        ⟨.expr (.call 0 [] [11]), 0, 38, some 13⟩,
        ⟨around, 0, 38, none⟩] }
  resolver := none
  catalog := .builtin
  basePath := none

theorem nestedLiterals_nests (callee : String) (around : Payload) :
    (nestedLiterals callee around).tree.Nests 4 11 :=
  .through rfl rfl rfl (.through rfl rfl rfl (.through rfl rfl rfl (.through rfl rfl rfl
    (.through rfl rfl rfl (.directly rfl)))))

/-- The innermost array has the word with the outermost one when the call is one of `CONST_EXPR` or
is in a decorator, and otherwise neither has it. -/
theorem nestedLiterals_inherited :
    ((nestedLiterals "CONST_EXPR" (.stmt (.exprStmt 12))).tree.Rooted ∧
      (nestedLiterals "CONST_EXPR" (.stmt (.exprStmt 12))).tree.inConstContext 4 = true ∧
      (nestedLiterals "CONST_EXPR" (.stmt (.exprStmt 12))).Opens 4 ["const", "["]) ∧
    ((nestedLiterals "f" (.decl (.decorator 12))).tree.Rooted ∧
      (nestedLiterals "f" (.decl (.decorator 12))).tree.inConstContext 4 = true ∧
      (nestedLiterals "f" (.decl (.decorator 12))).Opens 4 ["const", "["]) ∧
    (nestedLiterals "f" (.stmt (.exprStmt 12))).tree.Rooted ∧
    (nestedLiterals "f" (.stmt (.exprStmt 12))).tree.inConstContext 4 = false ∧
    (nestedLiterals "f" (.stmt (.exprStmt 12))).Opens 4 ["["] := by
  refine ⟨?called, ?decorated, ?neither⟩
  case called =>
    have rooted : (nestedLiterals "CONST_EXPR" (.stmt (.exprStmt 12))).tree.Rooted :=
      (Tree.ascending_of_links (by decide)).rooted
    have outermost :
        (nestedLiterals "CONST_EXPR" (.stmt (.exprStmt 12))).tree.inConstContext 11 = true := by
      decide
    obtain ⟨inherited, opens⟩ := const_context_inherited _ rooted 4 11
    have same := inherited (by decide) (by decide)
    have both := opens _ _ _ _ rfl rfl rfl rfl (nestedLiterals_nests _ _)
    exact ⟨rooted, same.trans outermost,
      both.1.mpr ((Context.opens_const_iff rfl rfl).1.mpr outermost)⟩
  case decorated =>
    have rooted : (nestedLiterals "f" (.decl (.decorator 12))).tree.Rooted :=
      (Tree.ascending_of_links (by decide)).rooted
    have outermost :
        (nestedLiterals "f" (.decl (.decorator 12))).tree.inConstContext 11 = true := by
      decide
    obtain ⟨inherited, opens⟩ := const_context_inherited _ rooted 4 11
    have same := inherited (by decide) (by decide)
    have both := opens _ _ _ _ rfl rfl rfl rfl (nestedLiterals_nests _ _)
    exact ⟨rooted, same.trans outermost,
      both.1.mpr ((Context.opens_const_iff rfl rfl).1.mpr outermost)⟩
  case neither =>
    have rooted : (nestedLiterals "f" (.stmt (.exprStmt 12))).tree.Rooted :=
      (Tree.ascending_of_links (by decide)).rooted
    have outermost :
        (nestedLiterals "f" (.stmt (.exprStmt 12))).tree.inConstContext 11 = false := by
      decide
    obtain ⟨inherited, opens⟩ := const_context_inherited _ rooted 4 11
    have same := inherited (by decide) (by decide)
    have both := opens _ _ _ _ rfl rfl rfl rfl (nestedLiterals_nests _ _)
    exact ⟨rooted, same.trans outermost,
      both.2.mpr ((Context.opens_const_iff rfl rfl).2.mpr outermost)⟩

end Dartify
