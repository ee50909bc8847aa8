import Dartify.Proofs.Success

/-!
# Diagnostics point into the unit

A diagnostic names a file and a span of bytes.  The span is that of a node which the root reaches,
whatever spans the nodes have and however malformed the tree is: stages complain about the node at
hand, about one of its children, or about a node that they looked up further down, and all of these
are reached (`Context.complain_grounded`).
-/

namespace Dartify

/-- A diagnostic that an event makes in a file comes from a complaint at a node. -/
theorem Event.exists_of_diagnostic {file : String} {events : List Event} {diagnostic : Diagnostic}
    (made : diagnostic ∈ Event.diagnostics events file) :
    ∃ node found cause, .complain node found cause ∈ events ∧
      diagnostic = .error file found.pos (found.stop - found.pos) cause.kind cause.message := by
  obtain ⟨event, done, gives⟩ := List.mem_filterMap.mp made
  cases event with
  | complain node found cause =>
    cases gives
    exact ⟨node, found, cause, done, rfl⟩
  | _ => cases gives

/-- Every diagnostic of a conversion with built-in stages is an error in the file of the unit, with
the number of its kind, and its span is that of a node which the root reaches; a node that ends
before it starts has length zero.  Without a resolver no diagnostic is about a library name or a
library call. -/
theorem diagnostics_located (categories : List Category) (options : Options) (unit : SourceUnit)
    (conversion : Conversion) (acyclic : unit.tree.Acyclic)
    (converted : (Converter.ofCategories Unit categories options).convert unit = .ok conversion)
    (diagnostic : Diagnostic) (made : diagnostic ∈ conversion.diagnostics) :
    diagnostic.file = conversion.fileName ∧ diagnostic.severity = .error ∧
    diagnostic.code = diagnostic.kind.code ∧
    (∃ node found, unit.tree.Reaches unit.root node ∧ unit.tree.get? node = some found ∧
      diagnostic.start = found.pos ∧
      diagnostic.length = if found.stop < found.pos then 0 else found.stop - found.pos) ∧
    (unit.resolver = none →
      diagnostic.kind ≠ .ambiguousSymbol ∧ diagnostic.kind ≠ .malformedUsage) := by
  obtain ⟨-, listed⟩ := Converter.diagnostics_eq_of_convert acyclic converted
  rw [listed] at made
  obtain ⟨node, found, cause, done, rfl⟩ := Event.exists_of_diagnostic made
  obtain ⟨reached, held, kind⟩ := Context.complain_grounded acyclic done
  refine ⟨rfl, rfl, rfl, ⟨node, found, reached, held, rfl, ?_⟩, fun offline => ?_⟩
  · show found.stop - found.pos = _
    split
    · rename_i inverted
      exact Nat.sub_eq_zero_of_le (Nat.le_of_lt inverted)
    · rfl
  · have silent : ((Converter.ofCategories Unit categories options).context unit).resolver =
        none := by
      simp [Converter.context, offline]
    have unsupported : cause.kind = .unsupportedConstruct := kind silent
    constructor
    · show cause.kind ≠ .ambiguousSymbol
      rw [unsupported]
      decide
    · show cause.kind ≠ .malformedUsage
      rw [unsupported]
      decide

/-- An enumeration whose member has a value and ends before it starts. -/
def numberedMember : SourceUnit where
  tree :=
    { nodes := #[⟨.name (.identifier "E"), 5, 6, some 4⟩,
        ⟨.name (.identifier "A"), 9, 10, some 3⟩,
        ⟨.literal (.numeric "1"), 13, 14, some 3⟩,
        ⟨.decl (.enumMember 1 (some 2)), 9, 7, some 4⟩,
        ⟨.decl (.enumDecl 0 [3]), 0, 16, some 5⟩,
        ⟨.sourceFile "unit" [4], 0, 16, none⟩] }
  root := 5

/-- The diagnostic stands at the member, two levels below the root, and has length zero. -/
theorem numberedMember_located :
    numberedMember.tree.Acyclic ∧
    (Converter.standard {}).convert numberedMember =
      .ok ⟨"unit", "", [.error "unit" 9 0 .unsupportedConstruct
        "enum initializers are unsupported"]⟩ ∧
    ∃ node found, numberedMember.tree.Reaches 5 node ∧
      numberedMember.tree.get? node = some found ∧ 9 = found.pos ∧
      0 = if found.stop < found.pos then 0 else found.stop - found.pos := by
  have acyclic : numberedMember.tree.Acyclic := Tree.acyclic_of_childrenFirst (by decide)
  have converted : (Converter.standard {}).convert numberedMember =
      .ok ⟨"unit", "", [.error "unit" 9 0 .unsupportedConstruct
        "enum initializers are unsupported"]⟩ := by decide
  obtain ⟨-, -, -, located, -⟩ := diagnostics_located Category.all {} numberedMember _ acyclic
    converted _ (List.mem_singleton_self _)
  exact ⟨acyclic, converted, located⟩

end Dartify
