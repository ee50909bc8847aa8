import Dartify.Proofs.Appending
import Dartify.Proofs.Preorder

/-!
# Extra imports in front

What the scan for extra imports means for runs and conversions.  The built-in catalog always has
imports, so the scan is always made where it is asked for (`Catalog.imports_extend`).

A call that writes extra imports writes those of its targets that were not written before, and
nothing else changes (`Run.run_writeImports`).  So over all calls of a run every target is written
once, where it was first needed (`Run.ImportCalls.portions`).  In a conversion there is one call, in
front of everything else.  Where it succeeds, the text behind the imports, the diagnostics and the
defects are those of a conversion without them (`Converter.convert_emitting`).
-/

namespace Dartify

/-- The built-in imports stay, whatever the options add. -/
theorem Catalog.imports_extend (options : Options) :
    (Catalog.builtin.extend options).imports.isEmpty = false := by
  have inserted : ∀ (key value : String) map, (Assoc.insert key value map).isEmpty = false := by
    intro key value map
    cases map with
    | nil => rfl
    | cons pair rest =>
      unfold Assoc.insert
      split <;> rfl
  have all : ∀ (pairs map : List (String × String)), map.isEmpty = false →
      (Assoc.insertAll map pairs).isEmpty = false := by
    intro pairs
    induction pairs with
    | nil => exact fun map filled => filled
    | cons pair rest ih => exact fun map _ => ih _ (inserted pair.1 pair.2 map)
  exact all options.extraImports _ rfl

/-! ## Calls -/

/-- The text of imports. -/
def Import.text (targets : List String) : String :=
  targets.foldr (fun target rest => " " ++ Import.directive target ++ rest) ""

namespace RunState

variable {σ : Type}

/-- The state after imports were written, each of them a token. -/
def importing (state : RunState σ) (targets : List String) : RunState σ :=
  { state with
    imports := state.imports ++ targets
    output := targets.foldl (fun output target => output.token (Import.directive target))
      state.output }

/-- Of the targets that are asked for, the fresh ones are written. -/
theorem addImports_eq (state : RunState σ) (targets : List String) :
    state.addImports targets = state.importing (Import.fresh state.imports targets) := by
  induction targets generalizing state with
  | nil => simp [addImports, importing, Import.fresh_nil]
  | cons target rest ih =>
    have onward : state.addImports (target :: rest) = (state.addImport target).addImports rest :=
      rfl
    by_cases known : target ∈ state.imports
    · rw [onward, addImport, if_pos known, ih, Import.fresh_cons_of_mem known]
    · rw [onward, addImport, if_neg known, ih, Import.fresh_cons_of_notMem known]
      simp [importing]

theorem output_importing (state : RunState σ) (apart : state.output.attached = false)
    (targets : List String) :
    (state.importing targets).output = ⟨state.output.text ++ Import.text targets, false⟩ := by
  obtain ⟨⟨text, attached⟩, report, imports, user⟩ := state
  cases apart
  simp only [importing]
  induction targets generalizing text with
  | nil => simp [Import.text]
  | cons target rest ih =>
    rw [List.foldl_cons, Output.token, ih]
    simp [Import.text, String.append_assoc]

end RunState

namespace Run

variable {σ : Type} {context : Context}

/-- A call that fails changes nothing, and one that succeeds writes what is fresh. -/
theorem run_writeImports (root : NodeId) (state : RunState σ) :
    (writeImports context root).run.run state =
      ((Import.needed context root).map fun _ => (),
        state.importing
          (Import.fresh state.imports ((Import.needed context root).toOption.getD []))) := by
  unfold writeImports
  cases Import.needed context root with
  | error defect => simp [Except.toOption, Import.fresh_nil, RunState.importing]; rfl
  | ok targets =>
    rw [run_writeImportsOf, RunState.addImports_eq]
    rfl

/-- A call that writes extra imports, with the states around it. -/
structure ImportCall (σ : Type) where
  /-- The node below which imports are looked for. -/
  root : NodeId
  /-- The state before. -/
  before : RunState σ
  /-- The state after. -/
  after : RunState σ

/-- Calls in the order in which a run makes them.  Whatever else happens between two calls, the list
of written imports is left as it is. -/
inductive ImportCalls (context : Context) : RunState σ → List (ImportCall σ) → Prop where
  /-- There is no further call. -/
  | done (state : RunState σ) : ImportCalls context state []
  /-- The next call, with what comes after it. -/
  | next {state : RunState σ} {call : ImportCall σ} {rest : List (ImportCall σ)}
      {result : Except Defect Unit} (kept : call.before.imports = state.imports)
      (ran : (writeImports context call.root).run.run call.before = (result, call.after))
      (onward : ImportCalls context call.after rest) : ImportCalls context state (call :: rest)

/-- The targets that calls ask for, one after the other. -/
def asked (context : Context) (calls : List (ImportCall σ)) : List String :=
  calls.flatMap fun call => (Import.needed context call.root).toOption.getD []

/-- Every call writes a portion of what all calls together ask for, without repetitions. -/
theorem ImportCalls.portions {state : RunState σ} {calls : List (ImportCall σ)}
    (made : ImportCalls context state calls) :
    ∃ portions : List (List String),
      List.Forall₂ (fun call portion => call.after = call.before.importing portion) calls
        portions ∧
      portions.flatten = Import.fresh state.imports (asked context calls) := by
  induction made with
  | done state => exact ⟨[], .nil, rfl⟩
  | @next state call rest result kept ran onward ih =>
    obtain ⟨portions, written, whole⟩ := ih
    rw [run_writeImports] at ran
    have after := (Prod.mk.inj ran).2.symm
    refine ⟨_, .cons after written, ?_⟩
    have listed : call.after.imports = state.imports ++
        Import.fresh state.imports ((Import.needed context call.root).toOption.getD []) := by
      rw [after, ← kept]
      rfl
    rw [List.flatten_cons, whole, listed, kept, ← Import.fresh_append]
    rfl

end Run

/-! ## Conversions -/

namespace Converter

/-- A reachable handle without a node stops a conversion that writes extra imports before any stage
is asked. -/
theorem run_of_missing {σ : Type} {converter : Converter σ} {unit : SourceUnit}
    (acyclic : unit.tree.Acyclic) (emitting : converter.options.emitExtraImports = true)
    {first : NodeId} (missing : unit.tree.firstMissing? unit.root = some first) (user : σ) :
    converter.run unit user = (.error (.missing first), user) := by
  cases present : unit.tree.get? unit.root with
  | none =>
    rw [Tree.firstMissing?, acyclic.preorder_eq, List.find?_cons, present] at missing
    cases missing
    simp only [run, present]
  | some root =>
    have imports : converter.leadingImports unit = .error (.missing first) := by
      rw [leadingImports, if_pos emitting]
      exact Import.needed_of_missing (show (converter.context unit).tree.Acyclic from acyclic)
        (Catalog.imports_extend converter.options) missing
    simp only [run, present, run_body, imports]

/-- The text of a conversion is that of the imports and then that of the walk. -/
theorem text_afterImports (root : Node) (targets : List String) (events : List Event) :
    ((afterImports root targets).playAll events).output.text =
      Import.text (Import.fresh [] targets) ++ Event.text events false := by
  have front := RunState.output_importing
    { report := ⟨fileName root.payload, []⟩, user := () } rfl (Import.fresh [] targets)
  rw [RunState.playAll_eq, afterImports, RunState.addImports_eq, Output.playAll_eq, front,
    String.empty_append]

/-- Where no handle is missing, asking for extra imports puts them in front of the text. -/
theorem convert_emitting (categories : List Category) (options : Options) {unit : SourceUnit}
    (acyclic : unit.tree.Acyclic) (complete : unit.tree.firstMissing? unit.root = none) :
    (ofCategories Unit categories { options with emitExtraImports := true }).convert unit =
      ((ofCategories Unit categories { options with emitExtraImports := false }).convert unit).map
        fun conversion =>
          { conversion with
            text := Import.text (Import.firstUses ((standard options).context unit) unit.root) ++
              conversion.text } := by
  cases present : unit.tree.get? unit.root with
  | none =>
    rw [Tree.firstMissing?, acyclic.preorder_eq, List.find?_cons, present] at complete
    cases complete
  | some root =>
    have acyclic' : ((standard options).context unit).tree.Acyclic := acyclic
    have imports :
        (ofCategories Unit categories { options with emitExtraImports := true }).leadingImports
          unit = .ok (Import.firstUses ((standard options).context unit) unit.root) :=
      Import.needed_of_complete acyclic' (Catalog.imports_extend options) complete
    have without :
        (ofCategories Unit categories { options with emitExtraImports := false }).leadingImports
          unit = .ok [] := rfl
    have same : (ofCategories Unit categories { options with emitExtraImports := true }).context
        unit = (ofCategories Unit categories { options with emitExtraImports := false }).context
          unit := rfl
    -- both conversions have the same walk behind their imports
    rw [convert_ofCategories acyclic present, convert_ofCategories acyclic present, imports,
      without, same]
    generalize ((ofCategories Unit categories
      { options with emitExtraImports := false }).context unit).transcript categories unit.root =
        transcript
    cases stopped : transcript.defect with
    | some defect => simp only [Except.map]
    | none =>
      have once : Import.fresh [] (Import.firstUses ((standard options).context unit) unit.root) =
          Import.firstUses ((standard options).context unit) unit.root := by
        rw [Import.firstUses, ← Import.fresh_of_unseen, Import.fresh_fresh]
      have reports : ∀ targets, ((afterImports root targets).playAll transcript.events).report =
          ((afterImports root []).playAll transcript.events).report := by
        intro targets
        rw [RunState.playAll_eq, RunState.playAll_eq, report_afterImports, report_afterImports]
      have bare : Import.text (Import.fresh [] []) = "" := rfl
      simp only [Except.map, text_afterImports, once, reports, bare, String.empty_append]

end Converter

/-! ## In order of first use -/

/-- The scan for extra imports is the recursive one.  It goes through the handles of the root and,
in turn, of its children; it fails at the first of them that has no node, and else gives the targets
of the references to types with an import, without repetitions and in the order of their first use.
A loop with a stack comes to the same.

So a conversion that asks for extra imports fails on every reachable handle without a node, whatever
its stages do.  Where there is none, the imports are put in front of what would be written without
them, and nothing else changes.  Over all calls of a run that write extra imports, each target that
was asked for is written once. -/
theorem extraImports_in_order_of_use {tree : Tree} (acyclic : tree.Acyclic) (options : Options) :
    (∀ node, tree.preorder node = node :: (tree.childrenOf node).flatMap tree.preorder) ∧
    (∀ context : Context, context.tree = tree →
      context.catalog = Catalog.builtin.extend options →
      (∀ node target, Import.targetAt? context node = some target ↔
        Import.Needs context node target) ∧
      (∀ root first, tree.firstMissing? root = some first →
        Import.needed context root = .error (.missing first)) ∧
      (∀ root, tree.firstMissing? root = none →
        Import.needed context root =
          .ok ((tree.preorder root).filterMap (Import.targetAt? context)).eraseDups) ∧
      (∀ root steps, (tree.preorder root).length ≤ steps →
        Import.scan context steps [root] [] = some (Import.needed context root)) ∧
      ∀ (σ : Type) (state : RunState σ) (calls : List (Run.ImportCall σ)), state.imports = [] →
        Run.ImportCalls context state calls →
        ∃ portions : List (List String),
          List.Forall₂ (fun call portion => call.after = call.before.importing portion) calls
            portions ∧
          portions.flatten = (Run.asked context calls).eraseDups ∧ portions.flatten.Nodup) ∧
    (∀ root handle, tree.Reaches root handle → tree.get? handle = none →
      ∃ first, tree.firstMissing? root = some first ∧
        ∀ (σ : Type) (stages : List (Stage σ)) (resolver : Option Resolver) (user : σ),
          options.emitExtraImports = true →
          (Converter.mk stages options).run ⟨tree, root, resolver⟩ user =
            (.error (.missing first), user)) ∧
    ∀ (root : NodeId) (resolver : Option Resolver) (categories : List Category),
      (∀ handle, tree.Reaches root handle → tree.get? handle ≠ none) →
      (Converter.ofCategories Unit categories { options with emitExtraImports := true }).convert
          ⟨tree, root, resolver⟩ =
        ((Converter.ofCategories Unit categories
          { options with emitExtraImports := false }).convert ⟨tree, root, resolver⟩).map
            fun conversion =>
              { conversion with
                text := Import.text (Import.firstUses
                  ((Converter.standard options).context ⟨tree, root, resolver⟩) root) ++
                    conversion.text } := by
  refine ⟨acyclic.preorder_eq, ?_, ?_, ?_⟩
  · rintro context rfl listed
    have known : context.catalog.imports.isEmpty = false :=
      listed ▸ Catalog.imports_extend options
    refine ⟨?_, ?_, ?_, ?_, ?_⟩
    · intro node target
      exact Import.targetAt?_eq_some_iff acyclic
    · intro root first missing
      exact Import.needed_of_missing acyclic known missing
    · intro root complete
      exact Import.needed_of_complete acyclic known complete
    · intro root steps enough
      exact Import.scan_eq_needed acyclic known enough
    · intro σ state calls fresh made
      obtain ⟨portions, written, whole⟩ := made.portions
      rw [fresh] at whole
      refine ⟨portions, written, whole.trans (Import.fresh_of_unseen _), ?_⟩
      rw [whole]
      exact Import.nodup_fresh [] _
  · intro root handle reached absent
    obtain ⟨first, missing⟩ := acyclic.firstMissing?_of_reaches reached absent
    refine ⟨first, missing, ?_⟩
    intro σ stages resolver user emitting
    exact Converter.run_of_missing acyclic emitting missing user
  · intro root resolver categories complete
    refine Converter.convert_emitting categories options acyclic ?_
    refine List.find?_eq_none.mpr fun handle met => ?_
    have present := complete handle (acyclic.mem_preorder_iff.mp met)
    simpa [Option.isNone_iff_eq_none] using present

/-- `ng.Bytes<XMLHttpRequest, XMLHttpRequest>`, where the arguments are one node. -/
def sharedReference : Tree where
  nodes := #[⟨.name (.identifier "XMLHttpRequest"), 9, 23, some 1⟩,
    ⟨.type (.reference 0 []), 9, 23, some 5⟩,
    ⟨.name (.identifier "ng"), 0, 2, some 4⟩,
    ⟨.name (.identifier "Bytes"), 3, 8, some 4⟩,
    ⟨.name (.qualified 2 3), 0, 8, some 5⟩,
    ⟨.type (.reference 4 [1, 1]), 0, 40, none⟩]

/-- A deletion whose operand is missing. -/
def deletesMissing : Tree where
  nodes := #[⟨.expr (.delete 9), 0, 8, none⟩]

/-- A shared reference is imported once, and a qualified name is looked up with its dots.  The
operand of a deletion is never walked, and yet a missing one stops the conversion. -/
theorem sharedReference_imports :
    sharedReference.Acyclic ∧ deletesMissing.Acyclic ∧
    (Converter.standard { extraImports := [("ng.Bytes", "ng.dart")] }).convert
        ⟨sharedReference, 5, none⟩ =
      .ok ⟨"", " import \"ng.dart\"; import \"dart:html\";" ++
        " ng . Bytes < XMLHttpRequest , XMLHttpRequest >", []⟩ ∧
    (Converter.standard {}).convert ⟨deletesMissing, 0, none⟩ = .error (.missing 9) ∧
    (Converter.standard { emitExtraImports := false }).convert ⟨deletesMissing, 0, none⟩ =
      .ok ⟨"", "", [.error "" 0 8 .unsupportedConstruct "delete operator is unsupported"]⟩ := by
  have acyclic : sharedReference.Acyclic := Tree.acyclic_of_childrenFirst (by decide)
  have acyclic' : deletesMissing.Acyclic := Tree.acyclic_of_childrenFirst (by decide)
  refine ⟨acyclic, acyclic', ?_, ?_, ?_⟩
  · obtain ⟨-, -, -, emitting⟩ :=
      extraImports_in_order_of_use acyclic { extraImports := [("ng.Bytes", "ng.dart")] }
    have met : ∀ handle ∈ sharedReference.preorder 5, sharedReference.get? handle ≠ none := by
      decide
    have complete : ∀ handle, sharedReference.Reaches 5 handle →
        sharedReference.get? handle ≠ none := by
      intro handle reached
      exact met handle (acyclic.mem_preorder_iff.mpr reached)
    refine (emitting 5 none Category.all complete).trans ?_
    decide +kernel
  · obtain ⟨-, -, failing, -⟩ := extraImports_in_order_of_use acyclic' {}
    have reached : deletesMissing.Reaches 0 9 :=
      .single ⟨_, rfl, List.mem_cons_self ..⟩
    obtain ⟨first, missing, failed⟩ := failing 0 9 reached rfl
    have nine : deletesMissing.firstMissing? 0 = some 9 := by decide
    cases nine.symm.trans missing
    exact congrArg Prod.fst (failed Unit _ none () rfl)
  · decide +kernel

end Dartify
