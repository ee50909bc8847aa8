import Dartify.Proofs.PlanBrackets

/-!
# Output is balanced

The brackets of a conversion are nested and closed, whenever no text of the tree, no Dart name of
the options and no import target has a bracket of its own (`convert_balanced`).

Nodes write nested words, which may stand anywhere, so a plan is read like its own brackets
(`Plan.scan_transcript`), and these are nested.  The imports in front have no bracket, because their
targets are all listed in the catalog.
-/

namespace Dartify

open Plan Brackets

variable {context : Context} {inside : NodeId → Prop} {node : NodeId}

/-! ## Nodes and walks -/

/-- The brackets of every plan that does not stop are nested. -/
theorem Context.nested_planAt (free : context.Unbracketed inside) (member : inside node)
    (categories : List Category) {found : Node} (present : context.tree.get? node = some found)
    (unstopped : Meets .unstopped (context.planAt categories node found)) :
    Nested (context.planAt categories node found).brackets := by
  have held := Tree.payload?_of_get? present
  rcases context.planAt_cases categories node found with ⟨passed, -⟩ | ⟨category, -, planned⟩
  · rw [passed, passPlan]
    split
    · exact .nil
    · rw [brackets_each]
      exact .nil
  · generalize context.planAt categories node found = plan at planned unstopped
    unfold Category.plan? at planned
    split at planned <;> cases planned
    all_goals rename_i form same; rw [same] at held
    · exact form.nested_plan free member held
    · exact Expr.nested_plan free held unstopped
    · exact Stmt.nested_plan free member held unstopped
    · exact Name.nested_plan free member held
    · exact TypeExpr.nested_plan free unstopped
    · exact Decl.nested_plan free member held unstopped

namespace Event

/-- The brackets that an event writes. -/
def brackets : Event → List Char
  | .token word => ofText word
  | .glue text => ofText text
  | .attach | .complain _ _ _ => []

/-- The brackets of a text after events are those of the text and those of the events. -/
theorem ofText_playAll (output : Output) (events : List Event) :
    ofText (output.playAll events).text = ofText output.text ++ events.flatMap brackets := by
  have space : ofText " " = [] := by decide
  induction events generalizing output with
  | nil => simp
  | cons event rest ih =>
    rw [Output.playAll_cons, ih, List.flatMap_cons, ← List.append_assoc]
    congr 1
    cases event with
    | token word =>
      cases attached : output.attached <;>
        simp [Output.play, Output.token, attached, space, brackets]
    | glue text => simp [Output.play, Output.glue, brackets]
    | attach | complain node found cause => simp [Output.play, Output.attach, brackets]

end Event

/-- Where the walked nodes write nested words, a plan is read like its own brackets. -/
theorem Plan.scan_transcript {walk : NodeId → Transcript} {plan : Plan}
    (fine : (plan.transcript context walk).defect = none)
    (walked : ∀ child, .child child ∈ plan → Nested ((walk child).events.flatMap Event.brackets))
    (awaited : List Char) :
    scan awaited ((plan.transcript context walk).events.flatMap Event.brackets) =
      scan awaited plan.brackets := by
  induction plan generalizing awaited with
  | nil => rfl
  | cons directive rest ih =>
    rw [Plan.transcript] at fine ⊢
    obtain ⟨first, others⟩ := Transcript.defect_append_eq_none_iff.mp fine
    have alike : ∀ awaited, scan awaited
        ((directive.transcript context walk).events.flatMap Event.brackets) =
          scan awaited directive.brackets := by
      intro awaited
      cases directive with
      | child child => exact (walked child (List.mem_cons_self ..)).scan_eq awaited
      | complain other cause =>
        cases present : context.tree.get? other <;>
          simp [Directive.transcript, present, Transcript.stop, Transcript.one, Event.brackets,
            Directive.brackets]
      | _ =>
        simp [Directive.transcript, Transcript.stop, Transcript.one, Event.brackets,
          Directive.brackets]
    have onward := ih others fun child member => walked child (List.mem_cons_of_mem _ member)
    rw [Transcript.events_append first, List.flatMap_append, scan_append, alike, brackets,
      List.flatMap_cons, scan_append]
    simp only [onward]
    rfl

/-- On any tree, a walk that ends without a defect within its budget writes nested brackets. -/
theorem Context.nested_transcriptWithin (free : context.Unbracketed inside) (member : inside node)
    {categories : List Category} {budget : Nat}
    (fine : (context.transcriptWithin categories budget node).defect = none) :
    Nested ((context.transcriptWithin categories budget node).events.flatMap Event.brackets) := by
  induction budget generalizing node with
  | zero => cases fine
  | succ budget ih =>
    obtain ⟨-, found, -, present, -⟩ := exists_of_fine fine
    simp only [transcriptWithin, present] at fine ⊢
    have walked : ∀ child, .child child ∈ context.planAt categories node found →
        Nested
          ((context.transcriptWithin categories budget child).events.flatMap Event.brackets) := by
      intro child among
      have within := free.below member (below_of_planAt present among)
      exact ih within (defect_transcript_eq_none_iff.mp fine _ among)
    rw [nested_iff_scan, Plan.scan_transcript fine walked, ← nested_iff_scan]
    exact nested_planAt free member categories present (unstopped_of_defect fine)

/-! ## Conversions -/

namespace Import

theorem forall_of_listed {good : String → Prop}
    (known : ∀ entry ∈ context.catalog.imports, good entry.2) {targets : List String}
    (before : ∀ target ∈ targets, good target) (payload : Payload) :
    ∀ target ∈ listed targets (target? context payload), good target := by
  cases needs : target? context payload with
  | none => exact before
  | some target =>
    have listed : good target := by
      unfold target? at needs
      split at needs
      · obtain ⟨text, -, found⟩ := Option.bind_eq_some_iff.mp needs
        obtain ⟨front, back, among, -⟩ := List.lookup_eq_some_iff.mp found
        exact known (text, target) (by simp [among])
      · cases needs
    intro other member
    unfold Import.listed at member
    simp only at member
    split at member
    · exact before other member
    · rcases List.mem_append.mp member with earlier | new
      · exact before other earlier
      · rw [List.mem_singleton.mp new]
        exact listed

/-- What holds of the targets before and of all targets of the catalog holds of what is
collected. -/
theorem forall_of_collect {good : String → Prop}
    (known : ∀ entry ∈ context.catalog.imports, good entry.2) {budget : Nat}
    {targets found : List String} (collected : collect context budget targets node = .ok found)
    (before : ∀ target ∈ targets, good target) : ∀ target ∈ found, good target := by
  induction budget generalizing targets found node with
  | zero => cases collected
  | succ budget ih =>
    unfold collect at collected
    split at collected
    · cases collected
    rename_i holder present
    have own := forall_of_listed known before holder.payload
    generalize listed targets (target? context holder.payload) = current at collected own
    generalize holder.payload.children = children at collected
    -- the children are scanned one after the other, each with what the ones before it found
    induction children generalizing current with
    | nil =>
      cases collected
      exact own
    | cons child rest onward =>
      rw [List.foldlM_cons] at collected
      cases first : collect context budget current child with
      | error defect =>
        rw [first] at collected
        cases collected
      | ok between =>
        rw [first] at collected
        exact onward between (ih first own) collected

/-- Every import that is needed is listed in the catalog. -/
theorem forall_of_needed {good : String → Prop}
    (known : ∀ entry ∈ context.catalog.imports, good entry.2) {root : NodeId}
    {targets : List String} (found : needed context root = .ok targets) :
    ∀ target ∈ targets, good target := by
  unfold needed at found
  split at found
  · cases found
    exact List.forall_mem_nil _
  · exact forall_of_collect known found (List.forall_mem_nil _)

end Import

/-- Imports of targets without brackets have none. -/
theorem RunState.ofText_addImports {σ : Type} {targets : List String}
    (plain : ∀ target ∈ targets, Free target) (state : RunState σ) :
    ofText (state.addImports targets).output.text = ofText state.output.text := by
  induction targets generalizing state with
  | nil => rfl
  | cons target rest ih =>
    have others := ih (fun other member => plain other (List.mem_cons_of_mem _ member))
      (state.addImport target)
    refine others.trans ?_
    unfold addImport
    split
    · rfl
    · have written : Free (Import.directive target) :=
        .append (.append (by decide) (plain target (List.mem_cons_self ..))) (by decide)
      have written : ofText (Import.directive target) = [] := written
      have space : ofText " " = [] := by decide
      simp only [Output.token, ofText_append, written]
      split <;> simp [space]

/-- The Dart names of types have no bracket where the options have none. -/
theorem Catalog.free_typeNames {options : Options}
    (names : ∀ group ∈ options.typeNames, ∀ entry ∈ group.2, Free entry.2) :
    ∀ entry ∈ (Catalog.builtin.extend options).typeNames.entries, Free entry.2 := by
  intro entry member
  rcases Assoc.mem_insertAll member with builtin | configured
  · have all : ∀ entry ∈ Catalog.builtin.typeNames.entries, Free entry.2 := by decide
    exact all entry builtin
  · obtain ⟨group, among, inside⟩ := List.mem_flatMap.mp configured
    obtain ⟨named, listed, rfl⟩ := List.mem_map.mp inside
    exact names group among named listed

/-- The catalog of a converter has no bracket where its options have none. -/
theorem Converter.unbracketed {σ : Type} (converter : Converter σ) {unit : SourceUnit}
    (texts : ∀ found ∈ unit.tree.nodes, Free found.payload.leafText)
    (names : ∀ group ∈ converter.options.typeNames, ∀ entry ∈ group.2, Free entry.2) :
    (converter.context unit).Unbracketed fun _ => True := by
  have free : ∀ {node payload}, unit.tree.payload? node = some payload → Free payload.leafText := by
    intro node payload held
    obtain ⟨found, present, rfl⟩ := Tree.payload?_eq_some.mp held
    exact texts found (Array.mem_of_getElem? present)
  refine ⟨fun _ _ => trivial, fun _ => free, ?_, Catalog.free_typeNames names⟩
  intro node name _ found
  unfold className? at found
  split at found
  · exact free (Tree.identifierText?_eq_some_iff.mp found)
  · cases found

/-- Where no text of the tree, no configured Dart name and no configured import target has a
bracket, the brackets of a conversion are nested and closed. -/
theorem convert_balanced (categories : List Category) (options : Options) (unit : SourceUnit)
    (conversion : Conversion) (acyclic : unit.tree.Acyclic)
    (texts : ∀ found ∈ unit.tree.nodes, Free found.payload.leafText)
    (names : ∀ group ∈ options.typeNames, ∀ entry ∈ group.2, Free entry.2)
    (targets : ∀ entry ∈ options.extraImports, Free entry.2)
    (converted : (Converter.ofCategories Unit categories options).convert unit = .ok conversion) :
    Nested (ofText conversion.text) := by
  let converter := Converter.ofCategories Unit categories options
  have free : (converter.context unit).Unbracketed fun _ => True :=
    converter.unbracketed texts names
  have known : ∀ entry ∈ (converter.context unit).catalog.imports, Free entry.2 := by
    intro entry member
    rcases Assoc.mem_insertAll member with builtin | configured
    · have all : ∀ entry ∈ Catalog.builtin.imports, Free entry.2 := by decide
      exact all entry builtin
    · exact targets entry configured
  obtain ⟨root, imported, found, fine, rfl⟩ := Converter.exists_of_convert acyclic converted
  have plain : ∀ target ∈ imported, Free target := by
    change converter.leadingImports unit = .ok imported at found
    unfold Converter.leadingImports at found
    split at found
    · exact Import.forall_of_needed known found
    · cases found
      exact List.forall_mem_nil _
  have front : ofText (Converter.afterImports root imported).output.text = [] :=
    RunState.ofText_addImports plain _
  rw [RunState.playAll_eq]
  simp only [Event.ofText_playAll, front, List.nil_append]
  exact Context.nested_transcriptWithin free trivial fine

/-- A function with an optional parameter, in which `unshift` has an argument without a Dart form
and a template as its arguments. -/
def optionalUnshift : SourceUnit where
  tree :=
    { nodes := #[⟨.name (.identifier "f"), 9, 10, some 21⟩,
        ⟨.name (.identifier "a"), 11, 12, some 2⟩,
        ⟨.decl (.parameter 1 none none false), 11, 12, some 21⟩,
        ⟨.name (.identifier "b"), 14, 15, some 5⟩,
        ⟨.literal (.numeric "1"), 18, 19, some 5⟩,
        ⟨.decl (.parameter 3 none (some 4) false), 14, 19, some 21⟩,
        ⟨.name (.identifier "a"), 23, 24, some 8⟩,
        ⟨.name (.identifier "unshift"), 25, 32, some 8⟩,
        ⟨.expr (.propertyAccess 6 7), 23, 32, some 18⟩,
        ⟨.name (.identifier "b"), 33, 34, some 11⟩,
        ⟨.name (.identifier "a"), 38, 39, some 11⟩,
        ⟨.expr (.binary 9 .within 10), 33, 39, some 18⟩,
        ⟨.name (.identifier "b"), 46, 47, some 13⟩,
        ⟨.literal (.array [12]), 45, 48, some 15⟩,
        ⟨.literal (.templateTail ""), 48, 50, some 15⟩,
        ⟨.literal (.templateSpan 13 14), 45, 50, some 17⟩,
        ⟨.literal (.templateHead "x"), 41, 45, some 17⟩,
        ⟨.literal (.template 16 [15]), 41, 50, some 18⟩,
        ⟨.expr (.call 8 [] [11, 17]), 23, 51, some 19⟩,
        ⟨.stmt (.exprStmt 18), 23, 52, some 20⟩,
        ⟨.stmt (.block [19]), 21, 54, some 21⟩,
        ⟨.decl (.function 0 [] [2, 5] none (some 20)), 0, 54, some 22⟩,
        ⟨.sourceFile "unit" [21], 0, 54, none⟩] }
  root := 22
  resolver := some (Bindings.empty.declare "Array" ⟨64⟩ "lib.d.ts"
    |>.declareMember 0 "unshift" .method
    |>.bind 7 1).resolver

/-- The group of optional parameters, the idiom and the template all close what they open, and the
argument that is left out opens nothing. -/
theorem optionalUnshift_balanced :
    optionalUnshift.tree.Acyclic ∧
    ∃ conversion, (Converter.standard {}).convert optionalUnshift = .ok conversion ∧
      conversion.diagnostics.length = 1 ∧
      ofText conversion.text = "([]){(([{[]}]))}".toList ∧
      Nested (ofText conversion.text) := by
  have acyclic : optionalUnshift.tree.Acyclic := Tree.acyclic_of_childrenFirst (by decide)
  have converted : (Converter.standard {}).convert optionalUnshift =
      .ok ⟨"unit", " f ( a , [ b = 1 ] ) " ++ Text.openBrace ++
          " ( a .. insertAll ( 0, [ , '''x${[ b ]}''' ]) ) . length ; " ++ Text.closeBrace,
        [.error "unit" 33 6 .unsupportedConstruct "in operator is unsupported"]⟩ := by
    decide +kernel
  refine ⟨acyclic, _, converted, rfl, by decide, ?_⟩
  exact convert_balanced Category.all {} optionalUnshift _ acyclic (by decide)
    (List.forall_mem_nil _) (List.forall_mem_nil _) converted

end Dartify
