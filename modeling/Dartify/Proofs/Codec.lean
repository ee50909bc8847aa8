import Dartify.Proofs.JsonText
import Dartify.Syntax.Tree
import Mathlib.Data.List.Nodup

/-!
# Reading back what was written

Decoding the JSON of a tree gives the tree again, in either layout of records
(`Tree.decode?_encode`).  The one fact behind it is about records (`Json.fields?_record`): the
values of a written record are read in their order, whether they stand under their names or in a
list, because no name occurs twice.  The rest goes slot by slot and form by form: the reader of each
form names the fields of its shape, in the same order, and reads each with the reader of its slot.

Numbers are read only below `Json.wordBound`, so this is about trees whose numbers are words
(`Tree.Fits`).  Nothing else is asked of a tree: its handles and links may lead anywhere.
-/

namespace Dartify

/-- A reading takes the fields of forms in a layout. -/
def Reading.Takes (reading : Reading) (layout : Layout) : Prop :=
  layout = .positional → reading = .lenient

/-! ## Records -/

namespace Json

variable {fields : List (String × Json)}

theorem keysOnce_of_nodup (distinct : (fields.map Prod.fst).Nodup) (names : List String) :
    keysOnce names fields = true := by
  refine List.all_eq_true.mpr fun name _ => decide_eq_true ?_
  have once := List.nodup_iff_count_le_one.mp distinct name
  rwa [List.count, List.countP_map, List.countP_eq_length_filter] at once

theorem lookup_of_nodup (distinct : (fields.map Prod.fst).Nodup) {field : String × Json}
    (member : field ∈ fields) : fields.lookup field.1 = some field.2 := by
  induction fields with
  | nil => cases member
  | cons first rest ih =>
    rw [List.map_cons, List.nodup_cons] at distinct
    rcases List.mem_cons.mp member with rfl | later
    · rw [List.lookup_cons, beq_self_eq_true]
    · have other : field.1 ≠ first.1 := fun same =>
        distinct.1 (List.mem_map.mpr ⟨field, later, same⟩)
      rw [List.lookup_cons, beq_false_of_ne other]
      exact ih distinct.2 later

/-- The fields of a written record are read in their order, in either layout. -/
theorem fields?_record (layout : Layout) {names : List String} {least : Nat}
    (named : fields.map Prod.fst = names) (distinct : names.Nodup) (few : least ≤ names.length) :
    fields? names least (layout.record fields) = some (fields.map fun field => some field.2) := by
  subst named
  cases layout with
  | named =>
    rw [Layout.record, fields?, if_pos (keysOnce_of_nodup distinct _), List.map_map]
    congr 1
    exact List.map_congr_left fun field member => lookup_of_nodup distinct member
  | positional =>
    rw [List.length_map] at few
    simp only [Layout.record, fields?, List.length_map]
    rw [if_pos ⟨few, Nat.le_refl _⟩]
    simp

theorem record?_record (layout : Layout) {names : List String}
    (named : fields.map Prod.fst = names) (distinct : names.Nodup) :
    record? names (layout.record fields) = some (fields.map fun field => some field.2) :=
  fields?_record layout named distinct (Nat.le_refl _)

end Json

namespace Form

variable {reading : Reading} {layout : Layout} {α β γ : Type}

theorem record?_record (takes : reading.Takes layout) {names : List String}
    {fields : List (String × Json)} (named : fields.map Prod.fst = names)
    (distinct : names.Nodup) :
    record? reading names (layout.record fields) = some (fields.map fun field => some field.2) := by
  rw [← Json.record?_record layout named distinct]
  cases reading with
  | lenient => rfl
  | strict =>
    cases layout with
    | named => rfl
    | positional => cases takes rfl

theorem one_record (takes : reading.Takes layout) {name : String} {value : Json}
    {read : Option Json → Option α} {make : α → β} {a : α} (first : read (some value) = some a) :
    one reading name read make (layout.record [(name, value)]) = some (make a) := by
  have fields : record? reading [name] (layout.record [(name, value)]) = some [some value] :=
    record?_record takes rfl (List.nodup_singleton name)
  simp only [one, fields, first]
  rfl

theorem two_record (takes : reading.Takes layout) {name name' : String} {value value' : Json}
    {readFirst : Option Json → Option α} {readSecond : Option Json → Option β}
    {make : α → β → γ} {a : α} {b : β} (first : readFirst (some value) = some a)
    (second : readSecond (some value') = some b) (distinct : name ≠ name' := by decide) :
    two reading (name, name') readFirst readSecond make
        (layout.record [(name, value), (name', value')]) = some (make a b) := by
  have fields : record? reading [name, name'] (layout.record [(name, value), (name', value')]) =
      some [some value, some value'] :=
    record?_record takes rfl (by simpa using distinct)
  simp only [two, fields, first, second]
  rfl

/-- A form of more fields goes on with the values of all of them. -/
theorem bind_record (takes : reading.Takes layout) {names : List String}
    {fields : List (String × Json)} {next : List (Option Json) → Option β} {result : Option β}
    (onward : next (fields.map fun field => some field.2) = result)
    (named : fields.map Prod.fst = names := by rfl) (distinct : names.Nodup := by decide) :
    (record? reading names (layout.record fields)).bind next = result := by
  rw [record?_record takes named distinct]
  exact onward

/-- A form is read from under the name of its category. -/
theorem bind_carried {make : α → β} {read : Option α} {a : α} (form : read = some a) :
    (read.bind fun a => some (make a)) = some (make a) := by
  rw [form, Option.bind_some]

end Form

/-! ## Slots -/

namespace FieldReader

@[simp] theorem text_encode (value : String) :
    text (some (Slot.text value).encode) = some value := rfl

@[simp] theorem flag_encode (value : Bool) :
    flag (some (Slot.flag value).encode) = some value := rfl

@[simp] theorem word_encode {α : Type} (named? : String → Option α) (name : String) :
    word named? (some (Slot.word name).encode) = named? name := rfl

theorem node_encode {handle : NodeId} (fits : handle < Json.wordBound) :
    node (some (Slot.node handle).encode) = some handle :=
  if_pos fits

theorem nodeOpt_encode {handle : Option NodeId} (fits : ∀ node ∈ handle, node < Json.wordBound) :
    nodeOpt (some (Slot.nodeOpt handle).encode) = some handle := by
  cases handle with
  | none => rfl
  | some node =>
    have word : Json.word? (.nat node) = some node := if_pos (fits node rfl)
    exact congrArg (Option.map some) word

theorem list?_handles {handles : List NodeId} (fits : ∀ node ∈ handles, node < Json.wordBound) :
    Json.list? Json.word? (Slot.handles handles) = some handles := by
  rw [Slot.handles, Json.list?, List.mapM_map]
  induction handles with
  | nil => rfl
  | cons node rest ih =>
    have word : Json.word? (.nat node) = some node := if_pos (fits node (List.mem_cons_self ..))
    have others := ih fun other member => fits other (List.mem_cons_of_mem _ member)
    simp [List.mapM_cons, word, others]

theorem nodes_encode {handles : List NodeId} (fits : ∀ node ∈ handles, node < Json.wordBound) :
    nodes (some (Slot.nodes handles).encode) = some handles :=
  list?_handles fits

/-- No handles and an empty list of handles are told apart. -/
theorem nodesOpt_encode {handles : Option (List NodeId)}
    (fits : ∀ node ∈ handles.getD [], node < Json.wordBound) :
    nodesOpt (some (Slot.nodesOpt handles).encode) = some handles := by
  cases handles with
  | none => rfl
  | some list => exact congrArg (Option.map some) (list?_handles fits)

end FieldReader

/-! ## Forms -/

section

variable {reading : Reading} {layout : Layout} (takes : reading.Takes layout)

include takes

open Form FieldReader

theorem Name.decode?_shape {form : Name} (fits : ∀ child ∈ form.children, child < Json.wordBound) :
    Name.decode? reading (form.shape.encode layout) = some form := by
  cases form with
  | identifier text => exact one_record takes (text_encode text)
  | qualified left right =>
    refine two_record takes (node_encode ?_) (node_encode ?_) <;>
      simp_all [Name.children]

theorem Literal.decode?_shape {form : Literal}
    (fits : ∀ child ∈ form.children, child < Json.wordBound) :
    Literal.decode? reading (form.shape.encode layout) = some form := by
  cases form with
  | numeric text | string text | regExp text | plainTemplate text | templateHead text
  | templateMiddle text | templateTail text => exact one_record takes (text_encode text)
  | template head spans =>
    refine two_record takes (node_encode ?_) (nodes_encode ?_) <;>
      simp_all [Literal.children]
  | templateSpan first second | property first second =>
    refine two_record takes (node_encode ?_) (node_encode ?_) <;>
      simp_all [Literal.children]
  | array items | object items => exact one_record takes (nodes_encode fits)
  | shorthandProperty name => exact one_record takes (node_encode (by simp_all [Literal.children]))
  | boolean value => cases value <;> rfl
  | null | thisRef => rfl

theorem Expr.decode?_shape {form : Expr} (fits : ∀ child ∈ form.children, child < Json.wordBound) :
    Expr.decode? reading (form.shape.encode layout) = some form := by
  cases form with
  | binary left operator right =>
    refine bind_record takes ?_
    simp_all [Expr.children, node_encode, BinaryOperator.ofName?_name]
  | prefixUnary operator operand =>
    exact two_record takes operator.ofName?_name
      (node_encode (by simp_all [Expr.children]))
  | postfixUnary operator operand =>
    exact two_record takes operator.ofName?_name
      (node_encode (by simp_all [Expr.children]))
  | conditional condition whenTrue whenFalse =>
    refine bind_record takes ?_
    simp_all [Expr.children, node_encode]
  | delete expression | void expression | typeOf expression | parenthesized expression =>
    exact one_record takes (node_encode (by simp_all [Expr.children]))
  | propertyAccess first second | elementAccess first second | typeAssertion first second =>
    refine two_record takes (node_encode ?_) (node_encode ?_) <;>
      simp_all [Expr.children]
  | call expression typeArguments arguments =>
    refine bind_record takes ?_
    simp_all [Expr.children, node_encode, nodes_encode, or_imp, forall_and]
  | construct expression typeArguments arguments =>
    refine bind_record takes ?_
    simp_all [Expr.children, node_encode, nodes_encode, nodesOpt_encode, or_imp, forall_and]
  | superRef => rfl

theorem Stmt.decode?_shape {form : Stmt} (fits : ∀ child ∈ form.children, child < Json.wordBound) :
    Stmt.decode? reading (form.shape.encode layout) = some form := by
  cases form with
  | block items | caseBlock items | defaultClause items =>
    exact one_record takes (nodes_encode fits)
  | empty => rfl
  | continueTo part | breakTo part | returnValue part =>
    exact one_record takes (nodeOpt_encode (by simp_all [Stmt.children]))
  | doWhile first second | whileLoop first second | switch first second | labeled first second
  | catchClause first second =>
    refine two_record takes (node_encode ?_) (node_encode ?_) <;>
      simp_all [Stmt.children]
  | caseClause expression statements =>
    refine two_record takes (node_encode ?_) (nodes_encode ?_) <;>
      simp_all [Stmt.children]
  | forIn _ _ _ | forOf _ _ _ =>
    refine bind_record takes ?_
    simp_all [Stmt.children, node_encode]
  | ifElse _ _ _ | forLoop _ _ _ _ | tryCatch _ _ _ =>
    refine bind_record takes ?_
    simp_all [Stmt.children, node_encode, nodeOpt_encode, or_imp, forall_and]
  | _ => exact one_record takes (node_encode (by simp_all [Stmt.children])) -- one handle

theorem TypeExpr.decode?_shape {form : TypeExpr}
    (fits : ∀ child ∈ form.children, child < Json.wordBound) :
    TypeExpr.decode? reading (form.shape.encode layout) = some form := by
  cases form with
  | keyword word =>
    show (KeywordType.ofName? word.name).bind (fun word => some (TypeExpr.keyword word)) = _
    rw [word.ofName?_name]
    rfl
  | reference first second | applied first second =>
    refine two_record takes (node_encode ?_) (nodes_encode ?_) <;>
      simp_all [TypeExpr.children]
  | literal items | union items => exact one_record takes (nodes_encode fits)
  | parameter name constraint =>
    refine two_record takes (node_encode ?_) (nodeOpt_encode ?_) <;>
      simp_all [TypeExpr.children]
  | array element => exact one_record takes (node_encode (by simp_all [TypeExpr.children]))
  | function typeParameters parameters result =>
    refine bind_record takes ?_
    simp_all [TypeExpr.children, node_encode, nodes_encode, or_imp, forall_and]

theorem Decl.decode?_shape {form : Decl} (fits : ∀ child ∈ form.children, child < Json.wordBound) :
    Decl.decode? reading (form.shape.encode layout) = some form := by
  cases form with
  | variableList kind declarations =>
    exact two_record takes kind.ofName?_name (nodes_encode fits)
  | heritageClause word types =>
    exact two_record takes word.ofName?_name (nodes_encode fits)
  | constructorDecl parameters body =>
    refine two_record takes (nodes_encode ?_) (nodeOpt_encode ?_) <;>
      simp_all [Decl.children, or_imp, forall_and]
  | propertySignature first second | enumMember first second =>
    refine two_record takes (node_encode ?_) (nodeOpt_encode ?_) <;>
      simp_all [Decl.children]
  | decorator expression => exact one_record takes (node_encode (by simp_all [Decl.children]))
  | enumDecl first second | namespaceDecl first second =>
    refine two_record takes (node_encode ?_) (nodes_encode ?_) <;>
      simp_all [Decl.children]
  | importDecl namedImports specifier =>
    refine two_record takes (nodes_encode ?_) (node_encode ?_) <;>
      simp_all [Decl.children, or_imp, forall_and]
  | importSpecifier propertyName name =>
    refine two_record takes (nodeOpt_encode ?_) (node_encode ?_) <;>
      simp_all [Decl.children, or_imp, forall_and]
  | importEquals name specifier =>
    refine two_record takes (node_encode ?_) (node_encode ?_) <;>
      simp_all [Decl.children]
  | _ =>
    refine bind_record takes ?_
    simp_all [Decl.children, node_encode, nodeOpt_encode, nodes_encode, or_imp, forall_and]

theorem Payload.decode?_encode_of_fits {payload : Payload}
    (fits : ∀ child ∈ payload.children, child < Json.wordBound) :
    Payload.decode? reading (payload.encode layout) = some payload := by
  cases payload with
  | sourceFile fileName statements =>
    exact two_record (fun _ => rfl) (text_encode fileName) (nodes_encode fits)
  | name form => exact bind_carried (Name.decode?_shape takes fits)
  | literal form => exact bind_carried (Literal.decode?_shape takes fits)
  | expr form => exact bind_carried (Expr.decode?_shape takes fits)
  | stmt form => exact bind_carried (Stmt.decode?_shape takes fits)
  | type form => exact bind_carried (TypeExpr.decode?_shape takes fits)
  | decl form => exact bind_carried (Decl.decode?_shape takes fits)

end

/-! ## Nodes and trees -/

/-- The numbers in a node: its handles, its offsets and its link. -/
def Node.words (node : Node) : List Nat :=
  node.payload.children ++ node.pos :: node.stop :: node.parent.toList

/-- Every number in a tree is a word of 32 bits. -/
def Tree.Fits (tree : Tree) : Prop :=
  tree.cursor < Json.wordBound ∧ ∀ node ∈ tree.nodes, ∀ word ∈ node.words, word < Json.wordBound

instance (tree : Tree) : Decidable tree.Fits :=
  inferInstanceAs (Decidable (_ ∧ _))

/-- A link is written as an optional handle is. -/
theorem encodeLink_eq (link : Option NodeId) : encodeLink link = (Slot.nodeOpt link).encode := by
  cases link <;> rfl

section

variable {reading : Reading} {layout : Layout} (takes : reading.Takes layout)

include takes

theorem Node.decode?_encode_of_fits {node : Node}
    (fits : ∀ word ∈ node.words, word < Json.wordBound) :
    Node.decode? reading (node.encode layout) = some node := by
  have payload : Payload.decode? reading (node.payload.encode layout) = some node.payload :=
    Payload.decode?_encode_of_fits takes fun child member => fits child (by simp [words, member])
  have pos : Json.word? (.nat node.pos) = some node.pos := if_pos (fits _ (by simp [words]))
  have stop : Json.word? (.nat node.stop) = some node.stop := if_pos (fits _ (by simp [words]))
  have parent : Json.optional Json.word? (some (encodeLink node.parent)) = some node.parent := by
    rw [encodeLink_eq]
    exact FieldReader.nodeOpt_encode fun parent member => fits parent (by simp_all [words])
  have fields : Json.record? ["data", "pos", "end", "parent"] (node.encode layout) =
      some [some (node.payload.encode layout), some (.nat node.pos), some (.nat node.stop),
        some (encodeLink node.parent)] :=
    Json.record?_record layout rfl (by decide)
  simp [Node.decode?, fields, Json.required, payload, pos, stop, parent]

theorem Tree.list?_nodes {nodes : List Node}
    (fits : ∀ node ∈ nodes, ∀ word ∈ node.words, word < Json.wordBound) :
    Json.list? (Node.decode? reading) (.list (nodes.map (Node.encode layout))) = some nodes := by
  rw [Json.list?, List.mapM_map]
  induction nodes with
  | nil => rfl
  | cons node rest ih =>
    have first : Node.decode? reading (node.encode layout) = some node :=
      Node.decode?_encode_of_fits takes (fits node List.mem_cons_self)
    have others := ih fun other member => fits other (List.mem_cons_of_mem _ member)
    simp [List.mapM_cons, first, others]

theorem Tree.decode?_encode_of_fits {tree : Tree} (fits : tree.Fits) :
    decode? reading (tree.encode layout) = some tree := by
  obtain ⟨cursorFits, nodesFit⟩ := fits
  have nodes : Json.list? (Node.decode? reading)
      (.list (tree.nodes.toList.map (Node.encode layout))) = some tree.nodes.toList :=
    list?_nodes takes fun node member => nodesFit node (Array.mem_def.mpr member)
  have source : Json.optional Json.text? (some (encodeSource tree.sourceText)) =
      some tree.sourceText := by
    cases tree.sourceText <;> rfl
  have cursor : Json.word? (.nat tree.cursor) = some tree.cursor := if_pos cursorFits
  have fields : Json.fields? ["nodes", "source_text", "cursor"] 1 (tree.encode layout) =
      some [some (.list (tree.nodes.toList.map (Node.encode layout))),
        some (encodeSource tree.sourceText), some (.nat tree.cursor)] :=
    Json.fields?_record layout rfl (by decide) (by decide)
  simp [decode?, fields, Json.required, Json.defaulted, nodes, source, cursor]

end

/-- **Round trip**: a tree is read back from the JSON that is written for it, whether records are
objects or lists of their values, and so it is from the text of that JSON. -/
theorem Tree.decode?_encode (tree : Tree) (fits : tree.Fits) :
    (∀ reading, decode? reading (tree.encode .named) = some tree) ∧
      decode? .lenient (tree.encode .positional) = some tree ∧
      ∀ layout, parse? (tree.encode layout).write = some tree := by
  have anyReading (reading : Reading) : reading.Takes .named := fun impossible => by
    cases impossible
  refine ⟨fun reading => decode?_encode_of_fits (anyReading reading) fits,
    decode?_encode_of_fits (fun _ => rfl) fits, fun layout => ?_⟩
  rw [parse?, Json.parse?_write, Option.bind_some]
  exact decode?_encode_of_fits (fun _ => rfl) fits

/-- Constructions with no list of arguments and with an empty one, a form without fields, a keyword
and a flag, over handles and links that lead nowhere, with a source text that needs escapes. -/
def Tree.unbuilt : Tree where
  nodes := #[
    ⟨.expr (.construct 7 [] none), 0, 4, some 1⟩,
    ⟨.expr (.construct 0 [2, 2] (some [])), 9, 3, some 0⟩,
    ⟨.stmt .empty, 0, 0, none⟩,
    ⟨.type (.keyword .any), 0, Json.wordBound - 1, some 3⟩,
    ⟨.decl (.parameter 0 none (some 1) true), 5, 5, some 90⟩,
    ⟨.sourceFile "a\"b\\.ts" [4, 0, 4], 0, 0, none⟩]
  sourceText := some "x\n\x01\t\"é\" 😀"
  cursor := 3

theorem Tree.decode?_encode_unbuilt :
    unbuilt.Fits ∧ decode? .strict (unbuilt.encode .named) = some unbuilt ∧
      parse? (unbuilt.encode .positional).write = some unbuilt := by
  have fits : unbuilt.Fits := by decide
  obtain ⟨named, -, text⟩ := decode?_encode unbuilt fits
  exact ⟨fits, named .strict, text .positional⟩

end Dartify
