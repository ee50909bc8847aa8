import Dartify.Proofs.Appending
import Dartify.Proofs.Refusal

/-!
# Templates are written as one text

A template is walked piece by piece: its head, and then its spans, each of them a substitution and
the literal text behind it.  The pieces know nothing of each other.  They hold together because a
span glues its braces and its text, and makes the first token of the substitution attach.

The attachment may be taken by a template inside the substitution, or be left over by one that
writes nothing, and the closing brace ends it in either case.  So the layout of a template does not
depend on what its substitutions are (`template_contiguous`), and holds at every depth of nesting.
-/

namespace Dartify

open Plan

/-- The spans of a template, each with its substitution and the literal text behind it.  The last
literal ends the template, and all before it go on. -/
inductive Tree.Spans (tree : Tree) : List NodeId → List (NodeId × String) → Prop where
  /-- The last span. -/
  | last {span expression literal : NodeId} {text : String}
      (held : tree.payload? span = some (.literal (.templateSpan expression literal)))
      (behind : tree.payload? literal = some (.literal (.templateTail text))) :
      Spans tree [span] [(expression, text)]
  /-- A span before others. -/
  | more {span expression literal : NodeId} {text : String} {spans : List NodeId}
      {parts : List (NodeId × String)}
      (held : tree.payload? span = some (.literal (.templateSpan expression literal)))
      (behind : tree.payload? literal = some (.literal (.templateMiddle text)))
      (rest : Spans tree spans parts) : Spans tree (span :: spans) ((expression, text) :: parts)

/-- A computation succeeds in every state in which an attachment is pending, and appends a text. -/
def Run.Inserts {σ : Type} (computation : Run σ Unit) (text : String) : Prop :=
  ∀ state, state.output.attached = true →
    ∃ final, computation.run.run state = (.ok (), final) ∧
      final.output.text = state.output.text ++ text

/-- A substitution between braces and the literal text behind it. -/
def spanText (inserted : NodeId → String) (part : NodeId × String) : String :=
  Quoted.openSpan ++ inserted part.1 ++ Text.closeBrace ++ Quoted.template part.2

/-- The text of a template: its head and its spans, between triple quotes. -/
def templateText (opening : String) (inserted : NodeId → String) (parts : List (NodeId × String)) :
    String :=
  "'''" ++ Quoted.template opening ++ String.join (parts.map (spanText inserted)) ++ "'''"

/-- A substitution takes the attachment or leaves it over, and the closing brace ends it. -/
theorem Output.playAll_span (output : Output) (inner after : List Event) :
    output.playAll
        (.glue Quoted.openSpan :: .attach :: (inner ++ .glue Text.closeBrace :: after)) =
      Output.playAll
        ⟨output.text ++ (Quoted.openSpan ++ Event.text inner true ++ Text.closeBrace), false⟩
        after := by
  rw [playAll_cons, playAll_cons, playAll_concat, playAll_cons, playAll_eq _ inner]
  simp only [play, glue, attach, String.append_assoc]

section

variable {context : Context} {budget : Nat} {node : NodeId}

theorem Context.transcriptWithin_span {expression literal : NodeId} {after : List Event}
    (held : context.tree.payload? node = some (.literal (.templateSpan expression literal)))
    (fine : (context.transcriptWithin Category.all budget expression).defect = none)
    (behind : context.transcriptWithin Category.all budget literal = ⟨after, none⟩) :
    context.transcriptWithin Category.all (budget + 1) node =
      ⟨.glue Quoted.openSpan :: .attach ::
        ((context.transcriptWithin Category.all budget expression).events ++
          .glue Text.closeBrace :: after), none⟩ := by
  rw [transcriptWithin_of_payload .literals held rfl]
  simp [Literal.plan, Plan.transcript, Directive.transcript, Transcript.append_of_none,
    Transcript.one, Transcript.empty, fine, behind]

/-- The text that a node appends where an attachment is pending. -/
def Context.insertedWithin (context : Context) (budget : Nat) (node : NodeId) : String :=
  Event.text (context.transcriptWithin Category.all budget node).events true

/-- The spans of a template are written one behind the other, up to the closing quotes. -/
theorem Tree.Spans.playAll_each {spans : List NodeId} {parts : List (NodeId × String)}
    (parted : context.tree.Spans spans parts)
    (fine : ∀ part ∈ parts,
      (context.transcriptWithin Category.all (budget + 1) part.1).defect = none) :
    let written := (each spans).transcript context
      (context.transcriptWithin Category.all (budget + 2))
    written.defect = none ∧
    ∀ output : Output, output.playAll written.events =
      ⟨output.text ++
        (String.join (parts.map (spanText (context.insertedWithin (budget + 1)))) ++ "'''"),
        false⟩ := by
  induction parted with
  | @last span expression literal text held behind =>
    have closing : context.transcriptWithin Category.all (budget + 1) literal =
        ⟨[.glue (Quoted.template text), .glue "'''"], none⟩ :=
      Context.transcriptWithin_of_payload .literals behind rfl
    have here := Context.transcriptWithin_span held (fine _ (List.mem_singleton_self _)) closing
    simp only [each, List.map_cons, List.map_nil, Plan.transcript, Directive.transcript, here,
      Transcript.append_of_none, Transcript.empty, List.append_nil, Output.playAll_span]
    simp [Output.play, Output.glue, spanText, Context.insertedWithin, String.append_assoc]
  | @more span expression literal text spans parts held behind rest ih =>
    have onward : context.transcriptWithin Category.all (budget + 1) literal =
        ⟨[.glue (Quoted.template text)], none⟩ :=
      Context.transcriptWithin_of_payload .literals behind rfl
    have here := Context.transcriptWithin_span held (fine _ (List.mem_cons_self ..)) onward
    obtain ⟨ends, played⟩ := ih fun part member => fine part (List.mem_cons_of_mem _ member)
    simp only [each, List.map_cons, Plan.transcript, Directive.transcript, here,
      Transcript.append_of_none, Output.playAll_concat, Output.playAll_span]
    refine ⟨ends, fun output => (played _).trans ?_⟩
    simp [Output.play, Output.glue, spanText, Context.insertedWithin, String.append_assoc]

/-- Success does not depend on the state, and neither does what is appended. -/
theorem Run.inserts_of_success {σ : Type} {state : RunState σ}
    (succeeds : ((Run.walkWithin context (Category.all.map (Category.stage σ)) budget node).run.run
      state).1 = .ok ()) :
    (context.transcriptWithin Category.all budget node).defect = none ∧
    Run.Inserts (Run.walkWithin context (Category.all.map (Category.stage σ)) budget node)
      (context.insertedWithin budget node) := by
  have follows := @Run.follows_walkWithin σ context Category.all budget node
  have fine := (follows.succeeds_iff state).mp succeeds
  refine ⟨fine, fun start pending => ⟨_, follows.run_of_fine fine start, ?_⟩⟩
  rw [RunState.output_playAll, Output.playAll_eq, pending]
  rfl

end

/-- A template is written as one text, in every state in which its substitutions succeed: a space
unless the template attaches, three quotes, the head, and for each span the text that its
substitution appends where an attachment is pending, between braces, and the literal text behind it,
and three quotes.  No attachment is pending afterwards. -/
theorem template_contiguous (context : Context) {node head : NodeId} {spans : List NodeId}
    {opening : String} {parts : List (NodeId × String)}
    (held : context.tree.payload? node = some (.literal (.template head spans)))
    (starts : context.tree.payload? head = some (.literal (.templateHead opening)))
    (parted : context.tree.Spans spans parts) {σ : Type} (budget : Nat) (state : RunState σ)
    (succeed : ∀ part ∈ parts,
      ((Run.walkWithin context (Category.all.map (Category.stage σ)) (budget + 1) part.1).run.run
        state).1 = .ok ()) :
    ∃ inserted : NodeId → String,
      (∀ part ∈ parts, Run.Inserts
        (Run.walkWithin context (Category.all.map (Category.stage σ)) (budget + 1) part.1)
        (inserted part.1)) ∧
      ∃ final,
        (Run.walkWithin context (Category.all.map (Category.stage σ)) (budget + 3) node).run.run
          state = (.ok (), final) ∧
        final.output =
          ⟨state.output.text ++ (if state.output.attached then "" else " ") ++
            templateText opening inserted parts, false⟩ := by
  have inserts := fun part member => Run.inserts_of_success (succeed part member)
  obtain ⟨ends, played⟩ := parted.playAll_each fun part member => (inserts part member).1
  have leading : context.transcriptWithin Category.all (budget + 2) head =
      ⟨[.token ("'''" ++ Quoted.template opening)], none⟩ :=
    Context.transcriptWithin_of_payload .literals starts rfl
  have whole : context.transcriptWithin Category.all (budget + 3) node =
      ⟨.token ("'''" ++ Quoted.template opening) ::
        ((each spans).transcript context
          (context.transcriptWithin Category.all (budget + 2))).events, none⟩ := by
    rw [Context.transcriptWithin_of_payload .literals held rfl, Literal.plan, Plan.transcript,
      Directive.transcript, leading, Transcript.append_of_none rfl, ends]
    rfl
  have follows := @Run.follows_walkWithin σ context Category.all (budget + 3) node
  rw [whole] at follows
  refine ⟨context.insertedWithin (budget + 1), fun part member => (inserts part member).2,
    _, follows.run_of_fine rfl state, ?_⟩
  rw [RunState.output_playAll, Output.playAll_cons, played]
  cases pending : state.output.attached <;>
    simp [Output.play, Output.token, templateText, pending, String.append_assoc]

/-- A template with two substitutions: a template in which `p in q` is substituted, and `z`. -/
def nestedTemplate : Context where
  tree :=
    { nodes := #[⟨.name (.identifier "p"), 0, 1, some 2⟩,
        ⟨.name (.identifier "q"), 2, 3, some 2⟩,
        ⟨.expr (.binary 0 .within 1), 0, 3, some 4⟩,
        ⟨.literal (.templateTail "b"), 4, 5, some 4⟩,
        ⟨.literal (.templateSpan 2 3), 0, 5, some 6⟩,
        ⟨.literal (.templateHead "a"), 6, 7, some 6⟩,
        ⟨.literal (.template 5 [4]), 0, 7, some 8⟩,
        ⟨.literal (.templateMiddle "$"), 8, 9, some 8⟩,
        ⟨.literal (.templateSpan 6 7), 0, 9, some 13⟩,
        ⟨.name (.identifier "z"), 10, 11, some 11⟩,
        ⟨.literal (.templateTail ""), 12, 13, some 11⟩,
        ⟨.literal (.templateSpan 9 10), 10, 13, some 13⟩,
        ⟨.literal (.templateHead "x"), 14, 15, some 13⟩,
        ⟨.literal (.template 12 [8, 11]), 0, 15, none⟩] }
  resolver := none
  catalog := .builtin
  basePath := none

/-- The refused operator inside the inner template leaves its attachment over, the inner template
takes that of the outer one, and neither reaches what follows. -/
theorem nestedTemplate_contiguous :
    ∃ final,
      (Run.walkWithin nestedTemplate (Category.all.map (Category.stage Unit)) 6 13).run.run
        { output := ⟨"=", false⟩, report := ⟨"unit", []⟩, user := () } = (.ok (), final) ∧
      final.output = ⟨"= '''x" ++ Quoted.openSpan ++ "'''a${}b'''" ++ Text.closeBrace ++
        "\\$${z}'''", false⟩ := by
  have held : nestedTemplate.tree.payload? 13 = some (.literal (.template 12 [8, 11])) := rfl
  have starts : nestedTemplate.tree.payload? 12 = some (.literal (.templateHead "x")) := rfl
  have parted : nestedTemplate.tree.Spans [8, 11] [(6, "$"), (9, "")] :=
    .more rfl rfl (.last rfl rfl)
  obtain ⟨inserted, inserts, final, ran, output⟩ := template_contiguous nestedTemplate held starts
    parted 3 { output := ⟨"=", false⟩, report := ⟨"unit", []⟩, user := () } (by
      simp only [List.forall_mem_cons]
      exact ⟨rfl, rfl, fun part member => absurd member List.not_mem_nil⟩)
  refine ⟨final, ran, output.trans ?_⟩
  -- what a substitution appends is the same in every state, so it can be read off in an empty one
  have read : ∀ part ∈ [(6, "$"), (9, "")],
      inserted part.1 = ((Run.walkWithin nestedTemplate (Category.all.map (Category.stage Unit))
        4 part.1).run.run
          { output := ⟨"", true⟩, report := ⟨"unit", []⟩, user := () }).2.output.text := by
    intro part member
    obtain ⟨after, walked, text⟩ :=
      inserts part member { output := ⟨"", true⟩, report := ⟨"unit", []⟩, user := () } rfl
    rw [walked, text, String.empty_append]
  have inner : inserted 6 = "'''a${}b'''" := read (6, "$") (List.mem_cons_self ..)
  have name : inserted 9 = "z" := read (9, "") (List.mem_cons_of_mem _ (List.mem_singleton_self _))
  simp only [templateText, spanText, List.map_cons, List.map_nil, inner, name]
  decide

end Dartify
