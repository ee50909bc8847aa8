import Dartify.Proofs.Appending
import Dartify.Proofs.Balance
import Dartify.Proofs.BareWords

/-!
# What a plan leaves outside brackets

A plan writes tokens and walks nodes between them.  `Plan.exposed` goes through a plan with the
brackets that are open and keeps what is outside all of them: the nodes that are walked there, and
the operators among the tokens there.  Where the walked nodes write nested brackets, every bare
operator of what the plan writes is one of these operators, or is bare in what one of these nodes
writes (`Plan.exposed_of_bare`).

No operator is made by putting texts next to each other.  A token comes after a space, and what a
node writes begins with a space, or is a text that no operator goes on with (`Context.soft_text`).
-/

namespace Dartify

open Plan Brackets

variable {context : Context} {inside : NodeId → Prop} {categories : List Category} {node : NodeId}

/-! ## Texts of plans -/

/-- What a directive writes where nothing is pending, with what the nodes write. -/
def Directive.written (text : NodeId → String) : Directive → String
  | .token word => " " ++ word
  | .glue word => word
  | .child node => text node
  | .attach | .complain _ _ | .abort _ => ""

/-- What a plan writes where nothing is pending. -/
def Plan.written (text : NodeId → String) (plan : Plan) : String :=
  String.join (plan.map (Directive.written text))

theorem Plan.written_cons (text : NodeId → String) (directive : Directive) (rest : Plan) :
    Plan.written text (directive :: rest) = directive.written text ++ Plan.written text rest := by
  rw [Plan.written, Plan.written, List.map_cons, String.join_cons]

/-- A plan without attachments writes what its directives write, one after the other. -/
theorem Plan.text_transcript {walk : NodeId → Transcript} {plan : Plan} (plain : .attach ∉ plan)
    (fine : (plan.transcript context walk).defect = none)
    (settled : ∀ child, .child child ∈ plan → Event.Settled (walk child).events) :
    Event.text (plan.transcript context walk).events false =
      plan.written fun child => Event.text (walk child).events false := by
  induction plan with
  | nil => rfl
  | cons directive rest ih =>
    obtain ⟨first, others⟩ := Transcript.defect_append_eq_none_iff.mp fine
    have onward := ih (fun member => plain (List.mem_cons_of_mem _ member)) others
      fun child member => settled child (List.mem_cons_of_mem _ member)
    have part : Event.Settled (directive.transcript context walk).events ∧
        Event.text (directive.transcript context walk).events false =
          directive.written fun child => Event.text (walk child).events false := by
      cases directive with
      | token word => exact ⟨Event.settled_token word, rfl⟩
      | glue word => exact ⟨Event.settled_glue word, by
          simp [Directive.transcript, Transcript.one, Event.text, Output.play, Output.glue,
            Directive.written]⟩
      | attach => exact absurd (List.mem_cons_self ..) plain
      | child child => exact ⟨settled child (List.mem_cons_self ..), rfl⟩
      | complain other cause =>
        cases present : context.tree.get? other with
        | none => simp [Directive.transcript, present, Transcript.stop] at first
        | some found =>
          simp only [Directive.transcript, present]
          exact ⟨Event.settled_complain other found cause, rfl⟩
      | abort defect => cases first
    rw [transcript, Transcript.events_append first, Event.text_append, part.1.pending,
      Bool.false_and, part.2, onward, written_cons]

/-! ## First characters -/

theorem soft_template {text : String} (soft : Soft text) : Soft (Quoted.template text) := by
  unfold Soft at *
  rw [Quoted.template, String.toList_ofList, Quoted.templateBody]
  cases start : text.toList with
  | nil => rfl
  | cons c rest =>
    rw [start] at soft
    rw [List.flatMap_cons, Quoted.templateChar]
    split
    · rfl
    · exact soft

/-- Where the nodes that a plan walks write soft texts and it glues soft texts, it writes one. -/
theorem Plan.soft_written {text : NodeId → String} {plan : Plan}
    (glued : ∀ word, .glue word ∈ plan → Soft word)
    (walked : ∀ child, .child child ∈ plan → Soft (text child)) : Soft (plan.written text) := by
  induction plan with
  | nil => rfl
  | cons directive rest ih =>
    rw [written_cons]
    refine .append ?_ (ih (fun word member => glued word (List.mem_cons_of_mem _ member))
      fun child member => walked child (List.mem_cons_of_mem _ member))
    cases directive with
    | token word => exact soft_space word
    | glue word => exact glued word (List.mem_cons_self ..)
    | child child => exact walked child (List.mem_cons_self ..)
    | _ => rfl

/-- A plan glues soft texts only. -/
def Demand.soft : Demand where
  child _ := True
  complain _ _ := True
  abort _ := True
  attach := True
  glue := Soft

namespace Demand

@[simp] theorem soft_child {node : NodeId} : soft.child node := trivial

@[simp] theorem soft_attach : soft.attach := trivial

@[simp] theorem soft_glue {text : String} : soft.glue text ↔ Soft text := Iff.rfl

end Demand

theorem Literal.soft_plan {form : Literal} (soft : Soft (Payload.literal form).leafText) :
    Meets .soft (form.plan context node) := by
  have key : ∀ name, Meets .soft (propertyKeyPlan context name) := by
    intro name
    unfold propertyKeyPlan
    split <;> simp
  have quotes : Soft "'''" := rfl
  have opening : Soft Quoted.openSpan := rfl
  have closing : Soft Text.closeBrace := rfl
  cases form with
  | templateMiddle text | templateTail text =>
    have soft : Soft text := soft
    simp [Literal.plan, soft_template soft, quotes]
  | templateSpan expression literal => simp [Literal.plan, opening, closing]
  | property name initializer | shorthandProperty name => simp [Literal.plan, key]
  | array elements | object properties => simp [Literal.plan, bracketedPlan]
  | _ => simp [Literal.plan]

/-- A text that the plan of a node glues is soft where the texts of literals are. -/
theorem Context.soft_of_glue (soft : ∀ {form : Literal},
      context.tree.payload? node = some (.literal form) → Soft (Payload.literal form).leafText)
    {found : Node} (present : context.tree.get? node = some found) {word : String}
    (glued : .glue word ∈ context.planAt categories node found) : Soft word := by
  rcases context.planAt_grounded categories present _ glued with rfl | ⟨form, held⟩
  · rfl
  have plain := soft held
  rw [Tree.payload?_of_get? present, Option.some.injEq] at held
  rcases context.planAt_cases categories node found with ⟨passed, -⟩ | ⟨category, -, planned⟩
  · rw [passed, passPlan] at glued
    split at glued <;> simp [Plan.each] at glued
  · rw [held] at planned
    generalize context.planAt categories node found = plan at planned glued
    cases category <;> cases planned
    exact Literal.soft_plan plain _ glued

/-- Where no node inside has a text that an operator could go on with, none writes one. -/
theorem Context.soft_text (free : context.Unbracketed inside)
    (soft : ∀ {other : NodeId} {payload : Payload}, inside other →
      context.tree.payload? other = some payload → Soft payload.leafText)
    (member : inside node) {budget : Nat}
    (fine : (context.transcriptWithin categories budget node).defect = none) :
    Soft (Event.text (context.transcriptWithin categories budget node).events false) := by
  induction budget generalizing node with
  | zero => cases fine
  | succ budget ih =>
    obtain ⟨-, found, -, present, -⟩ := exists_of_fine fine
    simp only [transcriptWithin, present] at fine ⊢
    have ends := defect_transcript_eq_none_iff.mp fine
    by_cases attaches : .attach ∈ context.planAt categories node found
    · -- a template span begins with the brace that it glues
      obtain ⟨expression, literal, planned⟩ := planAt_of_attach present attaches
      rw [planned, Literal.plan, Plan.transcript, Transcript.events_append rfl, Event.text_append]
      have opening : Event.text [.glue Quoted.openSpan] false = Quoted.openSpan := by decide
      show Soft (Event.text [.glue Quoted.openSpan] false ++ _)
      rw [opening, Soft, String.toList_append]
      rfl
    · rw [Plan.text_transcript attaches fine fun child among =>
        settled_transcriptWithin (ends _ among)]
      refine Plan.soft_written (fun word glued => ?_) fun child among => ?_
      · exact soft_of_glue (fun held => soft member held) present glued
      · have within := free.below member (below_of_planAt present among)
        exact ih within (ends _ among)

/-! ## Exposed parts -/

namespace Plan

/-- The nodes that a plan walks outside brackets, and the operators that it writes there, when
`depth` brackets are open before it. -/
def exposed : Int → Plan → Plan
  | _, [] => []
  | depth, .token word :: rest =>
    (standing depth true (' ' :: word.toList)).map .token ++ exposed (depth + net word.toList) rest
  | depth, .child node :: rest =>
    if depth = 0 then .child node :: exposed depth rest else exposed depth rest
  | depth, .glue word :: rest => exposed (depth + net word.toList) rest
  | depth, .attach :: rest | depth, .complain _ _ :: rest | depth, .abort _ :: rest =>
    exposed depth rest

/-- Whether a plan writes tokens only and walks no two nodes without a token between them.  Nor does
it walk a node behind a token with which the operator `is` could begin; `free` says whether a node
may come first. -/
def guarded : Bool → Plan → Bool
  | _, [] => true
  | _, .token word :: rest => guarded (word.toList.getLast?.all (· != 'i')) rest
  | free, .child _ :: rest => free && guarded false rest
  | free, .complain _ _ :: rest => guarded free rest
  | _, .glue _ :: _ | _, .attach :: _ | _, .abort _ :: _ => false

variable {text : NodeId → String} {plan : Plan}

/-- A plan walks the nodes that it exposes. -/
theorem child_mem_of_exposed {depth : Int} {child : NodeId}
    (shown : .child child ∈ plan.exposed depth) : .child child ∈ plan := by
  induction plan generalizing depth with
  | nil => cases shown
  | cons directive rest ih =>
    cases directive with
    | token word =>
      rcases List.mem_append.mp shown with sign | later
      · obtain ⟨operator, -, same⟩ := List.mem_map.mp sign
        cases same
      · exact List.mem_cons_of_mem _ (ih later)
    | child node =>
      rw [exposed] at shown
      split at shown
      · rcases List.mem_cons.mp shown with same | later
        · exact same ▸ List.mem_cons_self ..
        · exact List.mem_cons_of_mem _ (ih later)
      · exact List.mem_cons_of_mem _ (ih shown)
    | glue _ | attach | complain _ _ | abort _ => exact List.mem_cons_of_mem _ (ih shown)

theorem startsApart_written (closed : plan.guarded false = true) :
    startsApart (plan.written text).toList = true := by
  induction plan with
  | nil => rfl
  | cons directive rest ih =>
    rw [written_cons, String.toList_append]
    cases directive with
    | token word => simp [Directive.written, startsApart]
    | complain node cause => exact ih closed
    | _ => cases closed

/-- The directives of a guarded plan are guarded one by one. -/
theorem guarded_of_mem {free : Bool} (closed : plan.guarded free = true) {directive : Directive}
    (member : directive ∈ plan) : guarded true [directive] = true := by
  induction plan generalizing free with
  | nil => cases member
  | cons first rest ih =>
    rcases List.mem_cons.mp member with rfl | later
    · cases directive with
      | token | child | complain => rfl
      | _ => cases closed
    · cases first with
      | token | complain => exact ih closed later
      | child node => exact ih (Bool.and_eq_true_iff.mp closed).2 later
      | _ => cases closed

theorem exists_guarded_tail {free : Bool} {directive : Directive}
    (closed : guarded free (directive :: plan) = true) : ∃ free', plan.guarded free' = true := by
  cases directive with
  | token word => exact ⟨_, closed⟩
  | child node => exact ⟨_, (Bool.and_eq_true_iff.mp closed).2⟩
  | complain node cause => exact ⟨_, closed⟩
  | _ => cases closed

/-- What is exposed behind a directive is exposed in a plan that begins with it. -/
theorem mem_exposed_cons {free : Bool} {directive : Directive}
    (closed : guarded free (directive :: plan) = true)
    (nested : ∀ child, directive = .child child → Nested (ofText (text child))) {depth : Int}
    {other : Directive}
    (member : other ∈ plan.exposed (depth + net (directive.written text).toList)) :
    other ∈ exposed depth (directive :: plan) := by
  cases directive with
  | token word =>
    have count : net (" " ++ word).toList = net word.toList := by
      rw [String.toList_append, net_append]
      exact Int.zero_add _
    rw [Directive.written, count] at member
    exact List.mem_append_right _ member
  | child node =>
    have count : net (text node).toList = 0 := by
      rw [← net_filter]
      exact (nested node rfl).net_eq
    rw [Directive.written, count, Int.add_zero] at member
    rw [exposed]
    split
    · exact List.mem_cons_of_mem _ member
    · exact member
  | complain node cause =>
    have count : net "".toList = 0 := rfl
    rwa [Directive.written, count, Int.add_zero] at member
  | _ => cases closed

/-- No operator lies astride the end of what the first directive of a plan writes. -/
theorem parted_written (soft : Soft (plan.written text)) {free : Bool} {directive : Directive}
    (closed : guarded free (directive :: plan) = true) :
    startsApart (plan.written text).toList = true ∨
      (plan.written text).toList.head?.all (fun c => !isSymbol c) = true ∧
        (directive.written text).toList.getLast? ≠ some 'i' := by
  cases directive with
  | token word =>
    by_cases letter : word.toList.getLast? = some 'i'
    · rw [guarded, letter] at closed
      exact .inl (startsApart_written closed)
    · refine .inr ⟨soft, ?_⟩
      rw [Directive.written, String.toList_append, List.getLast?_append]
      cases ends : word.toList.getLast? with
      | none => simp
      | some c => rwa [ends] at letter
  | child node => exact .inl (startsApart_written (Bool.and_eq_true_iff.mp closed).2)
  | complain node cause => exact .inr ⟨soft, by simp [Directive.written]⟩
  | _ => cases closed

/-- An operator that is bare in a whole text and lies in the part of it that a plan writes is
exposed, or is bare in what an exposed node writes.  `before` stands in front of that part. -/
theorem exposed_of_stands {operator : String} (listed : operator ∈ looseOperators)
    (nested : ∀ child, .child child ∈ plan → Nested (ofText (text child)))
    (soft : ∀ child, .child child ∈ plan → Soft (text child)) {free : Bool}
    (closed : plan.guarded free = true) {before front back : List Char}
    (whole : (plan.written text).toList = front ++ operator.toList ++ back)
    (begins : endsApart (before ++ front) = true) (ends : startsApart back = true)
    (outside : Nested ((before ++ front).filter isBracket)) :
    .token operator ∈ plan.exposed (net before) ∨
      ∃ child, .child child ∈ plan.exposed (net before) ∧ Bare (text child) operator := by
  have named := toList_ne_nil_of_listed listed
  induction plan generalizing free before front with
  | nil =>
    have empty : front ++ operator.toList ++ back = [] := whole.symm
    exact absurd (List.append_eq_nil_iff.mp (List.append_eq_nil_iff.mp empty).1).2 named
  | cons directive rest ih =>
    have nested' : ∀ child, .child child ∈ rest → Nested (ofText (text child)) :=
      fun child member => nested child (List.mem_cons_of_mem _ member)
    have soft' : ∀ child, .child child ∈ rest → Soft (text child) :=
      fun child member => soft child (List.mem_cons_of_mem _ member)
    obtain ⟨free', closed'⟩ := exists_guarded_tail closed
    rw [written_cons, String.toList_append] at whole
    rcases piece_cases whole with ⟨after, ahead, onward⟩ | ⟨after, within, behind⟩ |
      ⟨left, right, starts, goesOn, split, begun, onward⟩
    · -- the operator is written behind the first directive
      subst ahead
      rw [← List.append_assoc] at begins outside
      have found := ih nested' soft' closed' onward begins outside
      rw [net_append] at found
      have held : ∀ child, directive = .child child → Nested (ofText (text child)) := by
        rintro child rfl
        exact nested child (List.mem_cons_self ..)
      rcases found with sign | ⟨child, shown, bare⟩
      · exact .inl (mem_exposed_cons closed held sign)
      · exact .inr ⟨child, mem_exposed_cons closed held shown, bare⟩
    · -- the operator is written by the first directive
      have apart := endsApart_of_append begins
      have parts := startsApart_of_append (behind ▸ ends)
      cases directive with
      | token word =>
        have level : net before + net front = 0 := by
          rw [← net_append, ← net_filter]
          exact outside.net_eq
        have spaced : ' ' :: word.toList = front ++ operator.toList ++ after := by
          rw [← within, Directive.written, String.toList_append]
          rfl
        have stands := mem_standing listed (fun _ => rfl) apart parts level
        rw [← spaced] at stands
        exact .inl (List.mem_append_left _ (List.mem_map_of_mem stands))
      | child node =>
        have whole : Nested (front.filter isBracket ++
            (operator.toList ++ after).filter isBracket) := by
          have inner := nested node (List.mem_cons_self ..)
          rw [ofText, show (text node).toList = _ from within, List.append_assoc,
            List.filter_append] at inner
          exact inner
        rw [List.filter_append] at outside
        obtain ⟨shut, inner⟩ := outside.of_append whole
        have top : net before = 0 := by
          rw [← net_filter]
          exact shut.net_eq
        refine .inr ⟨node, ?_, front, after, within, apart, parts, inner⟩
        rw [exposed, if_pos top]
        exact List.mem_cons_self ..
      | complain node cause =>
        have empty : front ++ operator.toList ++ after = [] := within.symm
        exact absurd (List.append_eq_nil_iff.mp (List.append_eq_nil_iff.mp empty).1).2 named
      | _ => cases closed
    · have softly : Soft (written text rest) :=
        soft_written (fun word member => Bool.noConfusion (guarded_of_mem closed' member)) soft'
      exact absurd (parted_written softly closed) fun parted =>
        not_astride listed split starts goesOn begun onward parted

/-- Every bare operator of what a plan writes is exposed, or is bare in what an exposed node
writes. -/
theorem exposed_of_bare {operator : String} (listed : operator ∈ looseOperators)
    (nested : ∀ child, .child child ∈ plan → Nested (ofText (text child)))
    (soft : ∀ child, .child child ∈ plan → Soft (text child)) (closed : plan.guarded true = true)
    (bare : Bare (plan.written text) operator) :
    .token operator ∈ plan.exposed 0 ∨
      ∃ child, .child child ∈ plan.exposed 0 ∧ Bare (text child) operator := by
  obtain ⟨front, back, whole, begins, ends, outside⟩ := bare
  have begins : endsApart ([] ++ front) = true := begins
  exact exposed_of_stands listed nested soft closed whole begins ends outside

variable {depth : Int} {rest : Plan}

/-! ## Pieces of plans -/

theorem exposed_nil : exposed depth [] = [] := by
  rw [exposed]

theorem exposed_complain {node : NodeId} {cause : Complaint} :
    exposed depth (.complain node cause :: rest) = exposed depth rest := by
  rw [exposed]

theorem exposed_token {word : String} (quiet : standing depth true (' ' :: word.toList) = []) :
    exposed depth (.token word :: rest) = exposed (depth + net word.toList) rest := by
  rw [exposed, quiet]
  rfl

theorem exposed_child_top {node : NodeId} (top : depth = 0) :
    exposed depth (.child node :: rest) = .child node :: exposed depth rest := if_pos top

theorem exposed_child_deep {node : NodeId} (deep : depth ≠ 0) :
    exposed depth (.child node :: rest) = exposed depth rest := if_neg deep

/-- The brackets of what comes first tell how deep the rest is. -/
theorem exposed_append (first second : Plan) :
    exposed depth (first ++ second) =
      exposed depth first ++ exposed (depth + net first.brackets) second := by
  induction first generalizing depth with
  | nil =>
    rw [brackets_nil, net_nil, Int.add_zero]
    rfl
  | cons directive others ih =>
    rw [List.cons_append]
    cases directive with
    | token word | glue word =>
      simp only [exposed, ih, brackets_token, brackets_glue, net_append, ofText, net_filter,
        Int.add_assoc, List.append_assoc]
    | child node =>
      simp only [exposed, ih, brackets_child]
      split <;> rfl
    | attach | complain _ _ | abort _ => exact ih

theorem exposed_each_top (nodes : List NodeId) (top : depth = 0) :
    exposed depth (each nodes) = each nodes := by
  induction nodes with
  | nil => exact exposed_nil
  | cons node others ih => exact (exposed_child_top top).trans (congrArg _ ih)

theorem exposed_each_deep (nodes : List NodeId) (deep : depth ≠ 0) :
    exposed depth (each nodes) = [] := by
  induction nodes with
  | nil => exact exposed_nil
  | cons node others ih => exact (exposed_child_deep deep).trans ih

/-- Commas are no operators, so a list of nodes exposes what the nodes one by one would. -/
theorem exposed_commas (nodes : List NodeId) :
    exposed depth (commas nodes) = exposed depth (each nodes) := by
  have comma : ∀ node, exposed depth [.token ",", .child node] = exposed depth [.child node] := by
    intro node
    have level : net ",".toList = 0 := by decide
    rw [exposed_token (standing_eq_nil (by decide) depth), level, Int.add_zero]
  have onward : ∀ others : List NodeId,
      exposed depth (others.flatMap fun node => [.token ",", .child node]) =
        exposed depth (each others) := by
    intro others
    induction others with
    | nil => rfl
    | cons node others ih =>
      have level : net (brackets [.token ",", .child node]) = 0 := rfl
      show _ = exposed depth ([.child node] ++ each others)
      rw [List.flatMap_cons, exposed_append, exposed_append, comma, level, brackets_child,
        brackets_nil, net_nil, Int.add_zero, ih]
  cases nodes with
  | nil => rfl
  | cons node others =>
    show exposed depth ([.child node] ++ others.flatMap _) =
      exposed depth ([.child node] ++ each others)
    rw [exposed_append, exposed_append, brackets_child, brackets_nil, net_nil, Int.add_zero, onward]

theorem exposed_typeArguments (nodes : List NodeId) (top : depth = 0) :
    exposed depth (typeArguments nodes) = each nodes := by
  subst top
  unfold typeArguments
  split
  · rename_i none
    rw [List.isEmpty_iff.mp none]
    rfl
  · simp (disch := decide) only [exposed_token, exposed_append, exposed_commas,
      exposed_each_top, brackets_commas, exposed_nil, List.append_nil]

/-- A closing parenthesis exposes nothing, however many brackets are open. -/
theorem exposed_closing : exposed depth [.token ")"] = [] := by
  rw [exposed_token (standing_eq_nil (by decide) depth), exposed_nil]

/-- A call exposes none of its arguments. -/
theorem exposed_namedCall {name : String} (arguments : List NodeId)
    (quiet : isQuiet true (' ' :: name.toList) = true) (level : net name.toList = 0)
    (outward : 0 ≤ depth) : exposed depth (namedCall name arguments) = [] := by
  have opening : net "(".toList = 1 := by decide
  have inside : depth + 1 ≠ 0 := by omega
  rw [namedCall, exposed_token (standing_eq_nil quiet depth), level, Int.add_zero,
    exposed_token (standing_eq_nil (by decide) depth), opening, exposed_append, exposed_commas,
    exposed_each_deep arguments inside, exposed_closing]
  rfl

theorem exposed_methodCall {name : String} (arguments : List NodeId)
    (quiet : isQuiet true (' ' :: name.toList) = true) (level : net name.toList = 0)
    (outward : 0 ≤ depth) : exposed depth (methodCall name arguments) = [] := by
  have dot : net ".".toList = 0 := by decide
  rw [methodCall, exposed_token (standing_eq_nil (by decide) depth), dot, Int.add_zero,
    exposed_namedCall arguments quiet level outward]

theorem guarded_mono {plan : Plan} (closed : plan.guarded false = true) (free : Bool) :
    plan.guarded free = true := by
  induction plan with
  | nil => rfl
  | cons directive others ih =>
    cases directive with
    | complain node cause => exact ih closed
    | token word => exact closed
    | _ => cases closed

/-- A plan that begins with a token may come after every other plan. -/
theorem guarded_append {free : Bool} {first second : Plan} (one : first.guarded free = true)
    (two : second.guarded false = true) : (first ++ second).guarded free = true := by
  induction first generalizing free with
  | nil => exact guarded_mono two free
  | cons directive others ih =>
    cases directive with
    | token word | complain node cause => exact ih one
    | child node =>
      obtain ⟨may, onward⟩ := Bool.and_eq_true_iff.mp one
      exact Bool.and_eq_true_iff.mpr ⟨may, ih onward⟩
    | _ => cases one

theorem guarded_maybe (node : Option NodeId) : guarded true (maybe node) = true := by
  cases node <;> rfl

theorem guarded_commas (nodes : List NodeId) : guarded true (commas nodes) = true := by
  cases nodes with
  | nil => rfl
  | cons node others =>
    show guarded false (others.flatMap _) = true
    induction others with
    | nil => rfl
    | cons other others ih => exact ih

theorem guarded_namedCall (name : String) (arguments : List NodeId) (free : Bool) :
    guarded free (namedCall name arguments) = true :=
  guarded_append (guarded_commas arguments) rfl

theorem guarded_methodCall (name : String) (arguments : List NodeId) (free : Bool) :
    guarded free (methodCall name arguments) = true :=
  guarded_namedCall name arguments true

theorem guarded_receiverCall (site : CallSite) (name : String) (arguments : List NodeId) :
    guarded true (receiverCall site name arguments) = true :=
  guarded_append (guarded_maybe _) (guarded_methodCall name arguments false)

end Plan

end Dartify
