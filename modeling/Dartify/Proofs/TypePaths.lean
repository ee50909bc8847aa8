import Dartify.Proofs.Prefilter
import Dartify.Proofs.Refusal

/-!
# Type names in references and in tests

A type is named in two places: in a reference, and on the right of `instanceof`.  A dotted name is
a qualified name in the first, which goes through the catalog as a whole, and a chain of property
accesses in the second, where only the last segment goes through the catalog and the path in front
of it is walked like any expression.

An undotted name reads the same in both, whether the catalog replaces it, complains of it or lets it
stand.  A dotted one reads the same as long as its last segment stands (`type_name_reads_alike`),
except that an expression inside a catch clause has the stack trace for `stack`.
-/

namespace Dartify

open Plan

/-- The segments of a dotted name, as an expression reads them. -/
inductive Path where
  /-- The first segment. -/
  | name (text : String)
  /-- A further segment. -/
  | member (front : Path) (text : String)
  /-- The segment `stack` inside a catch clause, which stands for the stack trace. -/
  | trace (front : Path)
  deriving DecidableEq, Repr

namespace Path

/-- How many segments there are. -/
def length : Path → Nat
  | name _ => 1
  | member front _ => front.length + 1
  | trace front => front.length + 1

/-- The segments. -/
def segments : Path → List String
  | name text => [text]
  | member front text => front.segments ++ [text]
  | trace front => front.segments ++ ["stack"]

/-- The path of the same segments outside of catch clauses. -/
def plain : Path → Path
  | name text => name text
  | member front text => member front.plain text
  | trace front => member front.plain "stack"

/-- The text of a path. -/
def text : Path → String
  | name text => " " ++ text
  | member front text => front.text ++ " . " ++ text
  | trace front => front.text ++ "_stack"

@[simp] theorem length_plain (path : Path) : path.plain.length = path.length := by
  induction path with
  | name text => rfl
  | member front text ih => simp [plain, length, ih]
  | trace front ih => simp [plain, length, ih]

/-- A path with a further segment leaves room for two steps. -/
theorem exists_succ_succ {front : Path} {budget : Nat} (enough : front.length + 1 ≤ budget) :
    ∃ least, budget = least + 1 + 1 := by
  have positive : 0 < front.length := by cases front <;> simp [length]
  exact ⟨budget - 2, by omega⟩

end Path

namespace Tree

/-- A node is the identifier or the qualified name of a path. -/
inductive Qualifies (tree : Tree) : NodeId → Path → Prop where
  /-- An identifier. -/
  | name {node : NodeId} {text : String}
      (held : tree.payload? node = some (.name (.identifier text))) :
      Qualifies tree node (.name text)
  /-- A qualified name. -/
  | member {node left right : NodeId} {front : Path} {text : String}
      (held : tree.payload? node = some (.name (.qualified left right)))
      (before : Qualifies tree left front)
      (last : tree.payload? right = some (.name (.identifier text))) :
      Qualifies tree node (.member front text)

/-- A node is the identifier or the property access that reads a path. -/
inductive Accesses (tree : Tree) : NodeId → Path → Prop where
  /-- An identifier. -/
  | name {node : NodeId} {text : String}
      (held : tree.payload? node = some (.name (.identifier text))) :
      Accesses tree node (.name text)
  /-- A property. -/
  | member {node expression property : NodeId} {front : Path} {text : String}
      (held : tree.payload? node = some (.expr (.propertyAccess expression property)))
      (before : Accesses tree expression front)
      (last : tree.payload? property = some (.name (.identifier text)))
      (ordinary : text = "stack" → tree.hasAncestor node Payload.isCatchClause = false) :
      Accesses tree node (.member front text)
  /-- The stack trace of a catch clause. -/
  | trace {node expression property : NodeId} {front : Path}
      (held : tree.payload? node = some (.expr (.propertyAccess expression property)))
      (before : Accesses tree expression front)
      (last : tree.payload? property = some (.name (.identifier "stack")))
      (caught : tree.hasAncestor node Payload.isCatchClause = true) :
      Accesses tree node (.trace front)

/-- A type name and the right side of a test spell the same name, which ends in `last`.  The right
side is looked up at `place`, and has `front` before the last segment. -/
inductive SpellsSame (tree : Tree) (last : String) :
    (name tested place : NodeId) → Option Path → Prop where
  /-- Two identifiers. -/
  | identifier {name tested : NodeId}
      (named : tree.payload? name = some (.name (.identifier last)))
      (read : tree.payload? tested = some (.name (.identifier last))) :
      SpellsSame tree last name tested tested none
  /-- A qualified name and a property access. -/
  | dotted {name left right tested expression property : NodeId} {front : Path}
      (named : tree.payload? name = some (.name (.qualified left right)))
      (qualifies : tree.Qualifies left front.plain)
      (ends : tree.payload? right = some (.name (.identifier last)))
      (read : tree.payload? tested = some (.expr (.propertyAccess expression property)))
      (accesses : tree.Accesses expression front)
      (reads : tree.payload? property = some (.name (.identifier last))) :
      SpellsSame tree last name tested property (some front)

end Tree

/-! ## Paths -/

namespace Context

variable {context : Context} {budget : Nat} {node : NodeId} {path : Path}

theorem adds_identifier {text : String}
    (held : context.tree.payload? node = some (.name (.identifier text))) :
    (context.transcriptWithin Category.all (budget + 1) node).Adds (" " ++ text) [] := by
  rw [transcriptWithin_of_payload .types held rfl]
  exact Transcript.adds_token text

/-- What a dot between two nodes adds. -/
theorem adds_member {walk : NodeId → Transcript} {left right : NodeId} {front text : String}
    (before : (walk left).Adds front []) (last : (walk right).Adds (" " ++ text) []) :
    (Plan.transcript context walk [.child left, .token ".", .child right]).Adds
      (front ++ " . " ++ text) [] := by
  have joined := before.append ((Transcript.adds_token ".").append last)
  simp only [Plan.transcript, Directive.transcript, Transcript.append_empty]
  have dot : " . " = " " ++ "." ++ " " := rfl
  rw [dot, String.append_assoc, String.append_assoc]
  exact joined

/-- A qualified name is written as its path stands. -/
theorem adds_of_qualifies (qualifies : context.tree.Qualifies node path)
    (enough : path.length ≤ budget) :
    (context.transcriptWithin Category.all budget node).Adds path.text [] := by
  induction qualifies generalizing budget with
  | name held =>
    obtain ⟨budget, rfl⟩ := Nat.exists_eq_add_of_le' enough
    exact adds_identifier held
  | @member node left right front text held before last ih =>
    obtain ⟨budget, rfl⟩ := Path.exists_succ_succ enough
    rw [transcriptWithin_of_payload .types held rfl]
    exact adds_member (ih (Nat.le_of_succ_le_succ enough)) (adds_identifier last)

/-- An access to a property that is no candidate and no stack trace is written as it stands. -/
theorem accessPlan_of_plain {expression property : NodeId} {text : String}
    (held : context.tree.payload? node = some (.expr (.propertyAccess expression property)))
    (last : context.tree.payload? property = some (.name (.identifier text)))
    (ordinary : text = "stack" → context.tree.hasAncestor node Payload.isCatchClause = false)
    (unknown : text ∉ context.catalog.propertyCandidates) :
    accessPlan context node expression property =
      [.child expression, .token ".", .child property] := by
  have named := Tree.identifierText?_eq_some_iff.mpr last
  have passed : context.recognizeProperty node = .ok .notHandled := by
    cases resolved : context.resolver with
    | none => simp only [recognizeProperty, resolved]
    | some resolver =>
      rw [recognizeProperty_eq_ok resolved held named, recognizeName_eq_ite, if_neg unknown]
  have outside : (context.tree.identifierText? property == some "stack" &&
      context.tree.hasAncestor node Payload.isCatchClause) = false := by
    rw [named]
    by_cases trace : text = "stack"
    · rw [ordinary trace, Bool.and_false]
    · simp [trace]
  rw [accessPlan, outside, passed]
  rfl

/-- A chain of accesses to properties that are no candidates is written as its path stands. -/
theorem adds_of_accesses (accesses : context.tree.Accesses node path)
    (enough : path.length ≤ budget)
    (unknown : ∀ segment ∈ path.segments, segment ∉ context.catalog.propertyCandidates) :
    (context.transcriptWithin Category.all budget node).Adds path.text [] := by
  induction accesses generalizing budget with
  | name held =>
    obtain ⟨budget, rfl⟩ := Nat.exists_eq_add_of_le' enough
    exact adds_identifier held
  | @member node expression property front text held before last ordinary ih =>
    obtain ⟨budget, rfl⟩ := Path.exists_succ_succ enough
    simp only [Path.segments, List.mem_append, List.mem_singleton] at unknown
    rw [transcriptWithin_of_payload .expressions held rfl, Expr.plan,
      accessPlan_of_plain held last ordinary (unknown text (.inr rfl))]
    exact adds_member (ih (Nat.le_of_succ_le_succ enough) fun segment member =>
      unknown segment (.inl member)) (adds_identifier last)
  | @trace node expression property front held before last caught ih =>
    obtain ⟨budget, rfl⟩ := Path.exists_succ_succ enough
    simp only [Path.segments, List.mem_append, List.mem_singleton] at unknown
    have planned : accessPlan context node expression property =
        [.child expression, .glue "_stack"] := by
      rw [accessPlan, Tree.identifierText?_eq_some_iff.mpr last, caught]
      rfl
    rw [transcriptWithin_of_payload .expressions held rfl, Expr.plan, planned]
    simp only [Plan.transcript, Directive.transcript, Transcript.append_empty]
    exact (ih (Nat.le_of_succ_le_succ enough) fun segment member =>
      unknown segment (.inl member)).append (Transcript.adds_glue "_stack")

/-! ## The last segment -/

/-- The resolver, if there is one, binds two nodes to the same symbol or neither to any. -/
def SameSymbol (context : Context) (one two : NodeId) : Prop :=
  ∀ resolver, context.resolver = some resolver → resolver.symbolAt one = resolver.symbolAt two

/-- The catalog lets a type name stand: its last segment is no candidate, or the name has a key
without an entry. -/
def Keeps (context : Context) (last : String) (node : NodeId) : Prop :=
  ∀ resolver, context.resolver = some resolver → last ∈ context.catalog.typeCandidates →
    ∃ key, context.lookup resolver last node = .ok key ∧
      context.catalog.typeNames.get? key = none

theorem SameSymbol.lookup_eq {one two : NodeId} {resolver : Resolver}
    (same : context.SameSymbol one two) (resolved : context.resolver = some resolver)
    (last : String) : context.lookup resolver last one = context.lookup resolver last two := by
  unfold lookup
  rw [same resolver resolved]

theorem SameSymbol.keeps {one two : NodeId} {last : String} (same : context.SameSymbol one two)
    (keeps : context.Keeps last one) : context.Keeps last two := by
  intro resolver resolved candidate
  rw [← same.lookup_eq resolved]
  exact keeps resolver resolved candidate

theorem typeName_of_keeps {form : Name} {last : String}
    (held : context.tree.payload? node = some (.name form)) (ends : context.lastName form = last)
    (keeps : context.Keeps last node) : typeName context node = [.child node] := by
  subst ends
  cases resolved : context.resolver with
  | none =>
    obtain ⟨found, present, content⟩ := Tree.payload?_eq_some.mp held
    simp only [typeName, withPayload, present, content, resolved]
  | some resolver =>
    rw [typeName_eq_ite resolved held]
    split
    · rename_i candidate
      obtain ⟨key, looked, absent⟩ := keeps resolver resolved candidate
      simp only [settleTypeName, looked, absent]
    · rfl

/-- Two identifiers that are bound alike are replaced, reported or let stand together. -/
theorem typeName_cases {one two : NodeId} {last : String}
    (first : context.tree.payload? one = some (.name (.identifier last)))
    (second : context.tree.payload? two = some (.name (.identifier last)))
    (same : context.SameSymbol one two) :
    (typeName context one = [.child one] ∧ typeName context two = [.child two]) ∨
    (∃ dart, typeName context one = [.token dart] ∧ typeName context two = [.token dart]) ∨
    ∃ cause, typeName context one = [.complain one cause] ∧
      typeName context two = [.complain two cause] := by
  by_cases keeps : context.Keeps last one
  · exact .inl ⟨typeName_of_keeps first rfl keeps, typeName_of_keeps second rfl (same.keeps keeps)⟩
  · simp only [Keeps, not_forall] at keeps
    obtain ⟨resolver, resolved, candidate, unkept⟩ := keeps
    rw [typeName_eq_ite resolved first, typeName_eq_ite resolved second]
    simp only [lastName, candidate, if_true, settleTypeName, ← same.lookup_eq resolved]
    cases looked : context.lookup resolver last one with
    | error cause => exact .inr (.inr ⟨cause, rfl, rfl⟩)
    | ok key =>
      cases entry : context.catalog.typeNames.get? key with
      | some dart => exact .inr (.inl ⟨dart, by simp only [entry], by simp only [entry]⟩)
      | none => exact absurd ⟨key, looked, entry⟩ unkept

/-- Two identifiers that are bound alike add the same text and the same kinds of diagnostics. -/
theorem adds_typeName {one two : NodeId} {last : String}
    (first : context.tree.payload? one = some (.name (.identifier last)))
    (second : context.tree.payload? two = some (.name (.identifier last)))
    (same : context.SameSymbol one two) :
    let walk := context.transcriptWithin Category.all (budget + 1)
    ∃ text kinds, ((typeName context one).transcript context walk).Adds text kinds ∧
      ((typeName context two).transcript context walk).Adds text kinds := by
  rcases typeName_cases first second same with ⟨here, there⟩ | ⟨dart, here, there⟩ |
      ⟨cause, here, there⟩ <;>
    simp only [here, there, Plan.transcript, Directive.transcript, Transcript.append_empty]
  · exact ⟨_, _, adds_identifier first, adds_identifier second⟩
  · exact ⟨_, _, Transcript.adds_token dart, Transcript.adds_token dart⟩
  · obtain ⟨found, present, -⟩ := Tree.payload?_eq_some.mp first
    obtain ⟨found', present', -⟩ := Tree.payload?_eq_some.mp second
    simp only [present, present']
    exact ⟨_, _, Transcript.adds_complain .., Transcript.adds_complain ..⟩

/-- A dotted name whose last segment stands adds its segments, in a reference and in a test. -/
theorem adds_dotted {name left right tested expression property : NodeId} {front : Path}
    {last : String} (named : context.tree.payload? name = some (.name (.qualified left right)))
    (qualifies : context.tree.Qualifies left front.plain)
    (ends : context.tree.payload? right = some (.name (.identifier last)))
    (read : context.tree.payload? tested = some (.expr (.propertyAccess expression property)))
    (accesses : context.tree.Accesses expression front)
    (reads : context.tree.payload? property = some (.name (.identifier last)))
    (same : context.SameSymbol name property) (keeps : context.Keeps last name)
    (unknown : ∀ segment ∈ front.segments, segment ∉ context.catalog.propertyCandidates)
    (enough : front.length ≤ budget) :
    let walk := context.transcriptWithin Category.all (budget + 1)
    ((typeName context name).transcript context walk).Adds (front.plain.text ++ " . " ++ last) [] ∧
    ((testedTypePlan context tested).transcript context walk).Adds
      (front.text ++ " . " ++ last) [] := by
  have lastName : context.lastName (.qualified left right) = last := by
    rw [Context.lastName, Tree.identifierText?_eq_some_iff.mpr ends, Option.getD_some]
  have reference : typeName context name = [.child name] :=
    typeName_of_keeps named lastName keeps
  have test : testedTypePlan context tested =
      [.child expression, .token ".", .child property] := by
    obtain ⟨found, present, content⟩ := Tree.payload?_eq_some.mp read
    simp only [testedTypePlan, withPayload, present, content,
      typeName_of_keeps reads rfl (same.keeps keeps)]
  rw [reference, test]
  constructor
  · simp only [Plan.transcript, Directive.transcript, Transcript.append_empty]
    exact adds_of_qualifies (.member named qualifies ends)
      (Nat.succ_le_succ (front.length_plain.trans_le enough))
  · exact adds_member (adds_of_accesses accesses (Nat.le_succ_of_le enough) unknown)
      (adds_identifier reads)

end Context

/-- A test walks its left side, writes `is` and then the type on its right. -/
theorem Run.walkWithin_test {σ : Type} {context : Context} {budget : Nat}
    {test operand tested : NodeId}
    (tests : context.tree.payload? test = some (.expr (.binary operand .instanceOf tested))) :
    Run.walkWithin context (Category.all.map (Category.stage σ)) (budget + 1) test = (do
      Run.walkWithin context (Category.all.map (Category.stage σ)) budget operand
      Run.write (·.token "is")
      Run.perform context (Run.walkWithin context (Category.all.map (Category.stage σ)) budget)
        (testedTypePlan context tested)) := by
  obtain ⟨found, present, planned⟩ := Context.exists_planAt .expressions tests rfl
  rw [Run.walkWithin_succ Category.all budget present, planned]
  rfl

theorem Context.transcriptWithin_reference {context : Context} {budget : Nat}
    {reference name : NodeId}
    (referenced : context.tree.payload? reference = some (.type (.reference name []))) :
    context.transcriptWithin Category.all (budget + 1) reference =
      (typeName context name).transcript context
        (context.transcriptWithin Category.all budget) := by
  rw [transcriptWithin_of_payload .types referenced rfl]
  simp [TypeExpr.plan, typeArguments]

/-- The type on the right of a test adds what a reference to it adds, in text and in kinds of
diagnostics, where the two spell the same name and are bound alike, no segment in front of the last
is a candidate, and the catalog lets a dotted name stand.  Only a segment `stack` inside a catch
clause differs, which a test has as the stack trace. -/
theorem type_name_reads_alike (context : Context)
    {reference test operand name tested place : NodeId} {last : String} {front : Option Path}
    (referenced : context.tree.payload? reference = some (.type (.reference name [])))
    (tests : context.tree.payload? test = some (.expr (.binary operand .instanceOf tested)))
    (spelled : context.tree.SpellsSame last name tested place front)
    (same : context.SameSymbol name place)
    (unknown : ∀ path ∈ front, ∀ segment ∈ path.segments,
      segment ∉ context.catalog.propertyCandidates)
    (kept : front = none ∨ context.Keeps last name) (σ : Type) (budget : Nat)
    (enough : ∀ path ∈ front, path.length ≤ budget) :
    let walkWithin := Run.walkWithin context (Category.all.map (Category.stage σ))
    let asked := Run.perform context (walkWithin (budget + 1)) (testedTypePlan context tested)
    walkWithin (budget + 2) test = (do
      walkWithin (budget + 1) operand
      Run.write (·.token "is")
      asked) ∧
    ∃ text text' kinds,
      Run.Adds (walkWithin (budget + 2) reference) text kinds ∧
      Run.Adds asked text' kinds ∧
      (front.map Path.plain = front → text' = text) ∧
      ∀ path ∈ front, text = path.plain.text ++ " . " ++ last ∧
        text' = path.text ++ " . " ++ last ∧ kinds = [] := by
  intro walkWithin asked
  refine ⟨Run.walkWithin_test tests, ?_⟩
  have walked := @Run.follows_walkWithin σ context Category.all (budget + 2) reference
  rw [Context.transcriptWithin_reference referenced] at walked
  have performed : Run.Follows asked ((testedTypePlan context tested).transcript context
      (context.transcriptWithin Category.all (budget + 1))) :=
    Run.follows_perform (Run.follows_walkWithin context Category.all (budget + 1)) _
  cases spelled with
  | identifier named read =>
    obtain ⟨text, kinds, first, second⟩ := Context.adds_typeName named read same
    have planned : testedTypePlan context tested = typeName context tested := by
      obtain ⟨found, present, content⟩ := Tree.payload?_eq_some.mp read
      simp only [testedTypePlan, withPayload, present, content]
    rw [← planned] at second
    exact ⟨text, text, kinds, walked.adds first, performed.adds second, fun _ => rfl,
      fun path member => by cases member⟩
  | @dotted _ _ _ _ _ front named qualifies ends read accesses reads =>
    have keeps : context.Keeps last name := kept.resolve_left (Option.some_ne_none front)
    obtain ⟨first, second⟩ := Context.adds_dotted named qualifies ends read accesses reads same
      keeps (unknown front rfl) (enough front rfl)
    refine ⟨_, _, [], walked.adds first, performed.adds second, ?_, ?_⟩
    · intro unmoved
      rw [Option.map_some, Option.some.injEq] at unmoved
      rw [unmoved]
    · rintro path ⟨⟩
      exact ⟨rfl, rfl, rfl⟩

/-- A catch clause with `<a.b.Observable>x` and `x instanceof a.b.Observable`, where `b` is
`segment`. -/
def caughtTest (segment : String) : Tree :=
  { nodes := #[⟨.name (.identifier "a"), 0, 1, some 2⟩,
      ⟨.name (.identifier segment), 2, 7, some 2⟩,
      ⟨.name (.qualified 0 1), 0, 7, some 4⟩,
      ⟨.name (.identifier "Observable"), 8, 18, some 4⟩,
      ⟨.name (.qualified 2 3), 0, 18, some 5⟩,
      ⟨.type (.reference 4 []), 0, 18, some 7⟩,
      ⟨.name (.identifier "x"), 19, 20, some 7⟩,
      ⟨.expr (.typeAssertion 5 6), 0, 20, some 8⟩,
      ⟨.stmt (.exprStmt 7), 0, 20, some 17⟩,
      ⟨.name (.identifier "a"), 21, 22, some 11⟩,
      ⟨.name (.identifier segment), 23, 28, some 11⟩,
      ⟨.expr (.propertyAccess 9 10), 21, 28, some 13⟩,
      ⟨.name (.identifier "Observable"), 29, 39, some 13⟩,
      ⟨.expr (.propertyAccess 11 12), 21, 39, some 15⟩,
      ⟨.name (.identifier "x"), 40, 41, some 15⟩,
      ⟨.expr (.binary 14 .instanceOf 13), 21, 41, some 16⟩,
      ⟨.stmt (.exprStmt 15), 21, 41, some 17⟩,
      ⟨.stmt (.block [8, 16]), 0, 41, some 20⟩,
      ⟨.name (.identifier "e"), 42, 43, some 19⟩,
      ⟨.decl (.variableDecl 18 none none), 42, 43, some 20⟩,
      ⟨.stmt (.catchClause 19 17), 0, 43, some 22⟩,
      ⟨.stmt (.block []), 44, 46, some 22⟩,
      ⟨.stmt (.tryCatch 21 (some 20) none), 0, 46, some 23⟩,
      ⟨.sourceFile "unit" [22], 0, 46, none⟩] }

/-- `Observable` as declared in a file, at both names in `caughtTest`. -/
def observableOf (file : String) : Bindings :=
  Bindings.empty.declare "Observable" ⟨32⟩ file |>.bind 4 0 |>.bind 12 0

/-- Without an entry in the catalog, `Observable` stands in both places, and only the trace
differs. -/
theorem caughtTest_reads_trace :
    let context := (Converter.standard {}).context
      ⟨caughtTest "stack", 23, some (observableOf "own.ts").resolver⟩
    let walkWithin := Run.walkWithin context (Category.all.map (Category.stage Unit))
    context.tree.payload? 5 = some (.type (.reference 4 [])) ∧
    context.tree.payload? 15 = some (.expr (.binary 14 .instanceOf 13)) ∧
    context.tree.SpellsSame "Observable" 4 13 12 (some (.trace (.name "a"))) ∧
    context.Keeps "Observable" 4 ∧
    Run.Adds (walkWithin 4 5) " a . stack . Observable" [] ∧
    Run.Adds (Run.perform context (walkWithin 3) (testedTypePlan context 13))
      " a_stack . Observable" [] := by
  intro context walkWithin
  have spelled : context.tree.SpellsSame "Observable" 4 13 12 (some (.trace (.name "a"))) :=
    .dotted rfl (.member rfl (.name rfl) rfl) rfl rfl
      (.trace rfl (.name rfl) rfl (by decide)) rfl
  have same : context.SameSymbol 4 12 := by
    rintro resolver ⟨⟩
    rfl
  have keeps : context.Keeps "Observable" 4 := by
    rintro resolver ⟨⟩ -
    exact ⟨⟨"own", "Observable"⟩, by decide +kernel, by decide +kernel⟩
  have unknown : ∀ segment ∈ ["a", "stack"], segment ∉ context.catalog.propertyCandidates := by
    decide +kernel
  have referenced : context.tree.payload? 5 = some (.type (.reference 4 [])) := rfl
  have tests : context.tree.payload? 15 = some (.expr (.binary 14 .instanceOf 13)) := rfl
  obtain ⟨-, text, text', kinds, written, asked, -, dotted⟩ := type_name_reads_alike context
    referenced tests spelled same (by rintro path ⟨⟩; exact unknown) (.inr keeps) Unit 2
    (by rintro path ⟨⟩; exact Nat.le_refl 2)
  obtain ⟨rfl, rfl, rfl⟩ := dotted _ rfl
  exact ⟨referenced, tests, spelled, keeps, written, asked⟩

/-- Where a dotted name is replaced or reported, a test keeps what stands in front of the last
segment and a reference does not, and inside a catch clause a test has the trace for `stack`. -/
theorem caughtTest_differs :
    let texts := fun segment bindings => ((Converter.standard {}).convert
      ⟨caughtTest segment, 23, some (Bindings.resolver bindings)⟩).toOption.map Conversion.text
    let caught := fun reference tested =>
      some (" try { } catch ( e , e_stack ) " ++ Text.openBrace ++ " ( x as" ++ reference ++
        " ) ; x is" ++ tested ++ " ; " ++ Text.closeBrace)
    texts "stack" (observableOf "own.ts") =
      caught " a . stack . Observable" " a_stack . Observable" ∧
    texts "b" (observableOf "node_modules/rxjs/Observable.ts") =
      caught " Stream" " a . b . Stream" ∧
    texts "b" Bindings.empty = caught "" " a . b ." := by
  decide +kernel

end Dartify
