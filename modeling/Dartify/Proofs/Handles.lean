import Dartify.Proofs.Codec

/-!
# The handles of a payload

Links, spans, the search for imports and the walk through unclaimed nodes all go by
`Payload.children`, which is laid down form by form.  The JSON of a payload is laid down form by
form too, as a record of its fields, and there every handle of every field is a number and nothing
else is one.  So the numbers of the JSON, read from the left, are a second list of the handles, and
the two lists are the same (`Payload.children_complete`): every handle of every field is listed,
once for each time that it occurs, in the order of the fields.

The numbers of a shape are those of its slots (`Shape.numbers_encode`), so what is left is one
equation between two lists of handles for each form.
-/

namespace Dartify

/-! ## Numbers of a value -/

namespace Json

mutual

/-- The numbers in a value, from the left. -/
def numbers : Json → List Nat
  | .nat value => [value]
  | .list items => itemNumbers items
  | .object fields => pairNumbers fields
  | .null | .bool _ | .text _ | .other => []
termination_by structural value => value

/-- The numbers in the items of a list. -/
def itemNumbers : List Json → List Nat
  | [] => []
  | item :: rest => numbers item ++ itemNumbers rest
termination_by structural items => items

/-- The numbers in the values of an object. -/
def pairNumbers : List (String × Json) → List Nat
  | [] => []
  | (_, value) :: rest => numbers value ++ pairNumbers rest
termination_by structural fields => fields

end

theorem numbers_list (items : List Json) : numbers (.list items) = items.flatMap numbers := by
  rw [numbers]
  induction items with
  | nil => rfl
  | cons item rest ih => rw [itemNumbers, ih, List.flatMap_cons]

theorem numbers_object (fields : List (String × Json)) :
    numbers (.object fields) = fields.flatMap fun field => numbers field.2 := by
  rw [numbers]
  induction fields with
  | nil => rfl
  | cons field rest ih => rw [pairNumbers, ih, List.flatMap_cons]

/-- A value under one name has the numbers of the value. -/
theorem numbers_named (name : String) (value : Json) :
    numbers (.object [(name, value)]) = numbers value := by
  rw [numbers_object, List.flatMap_singleton]

/-- A record has the numbers of its values in their order, in either layout. -/
theorem numbers_record (layout : Layout) (fields : List (String × Json)) :
    numbers (layout.record fields) = fields.flatMap fun field => numbers field.2 := by
  cases layout with
  | named => exact numbers_object fields
  | positional => rw [Layout.record, numbers_list, List.flatMap_map]

end Json

/-! ## Handles of a shape -/

/-- The handles in a slot. -/
def Slot.held : Slot → List NodeId
  | .text _ | .flag _ | .word _ => []
  | .node handle => [handle]
  | .nodeOpt handle => handle.toList
  | .nodes list => list
  | .nodesOpt list => list.getD []

theorem Slot.numbers_handles (list : List NodeId) : (handles list).numbers = list := by
  rw [handles, Json.numbers_list, List.flatMap_map]
  exact List.flatMap_singleton' list

/-- The numbers that a slot is written with are its handles. -/
theorem Slot.numbers_encode (slot : Slot) : slot.encode.numbers = slot.held := by
  cases slot with
  | text | flag | word | node => rfl
  | nodeOpt handle => cases handle <;> rfl
  | nodes list => exact numbers_handles list
  | nodesOpt list =>
    cases list with
    | none => rfl
    | some list => exact numbers_handles list

/-- The handles in the fields of a shape. -/
def Shape.held : Shape → List NodeId
  | .bare _ | .single _ _ => []
  | .record _ fields => fields.flatMap fun field => field.2.held

/-- The numbers that a shape is written with are its handles, in either layout. -/
theorem Shape.numbers_encode (layout : Layout) (shape : Shape) :
    (shape.encode layout).numbers = shape.held := by
  cases shape with
  | bare form => rfl
  | single form word => rfl
  | record form fields =>
    rw [Shape.encode, Json.numbers_named, Json.numbers_record, List.flatMap_map]
    exact List.flatMap_congr fun field _ => field.2.numbers_encode

/-! ## Forms -/

theorem Name.held_shape (form : Name) : form.shape.held = form.children := by
  cases form <;> rfl

theorem Literal.held_shape (form : Literal) : form.shape.held = form.children := by
  cases form with
  | boolean value => cases value <;> rfl
  | _ => simp [Literal.shape, Shape.held, Slot.held, Literal.children]

theorem Expr.held_shape (form : Expr) : form.shape.held = form.children := by
  cases form <;> simp [Expr.shape, Shape.held, Slot.held, Expr.children]

theorem Stmt.held_shape (form : Stmt) : form.shape.held = form.children := by
  cases form <;> simp [Stmt.shape, Shape.held, Slot.held, Stmt.children]

theorem TypeExpr.held_shape (form : TypeExpr) : form.shape.held = form.children := by
  cases form <;> simp [TypeExpr.shape, Shape.held, Slot.held, TypeExpr.children]

theorem Decl.held_shape (form : Decl) : form.shape.held = form.children := by
  cases form <;> simp [Decl.shape, Shape.held, Slot.held, Decl.children]

theorem Payload.numbers_encode (layout : Layout) (payload : Payload) :
    (payload.encode layout).numbers = payload.children := by
  -- inside its category a form is written by its shape
  have carried : ∀ (category : String) {shape : Shape} {children : List NodeId},
      shape.held = children → Json.numbers (.object [(category, shape.encode layout)]) = children :=
    fun category shape children listed => by
      rw [Json.numbers_named, Shape.numbers_encode, listed]
  cases payload with
  | sourceFile fileName statements =>
    rw [Payload.encode, Shape.numbers_encode]
    simp [Shape.held, Slot.held, Payload.children]
  | name form => exact carried "Name" form.held_shape
  | literal form => exact carried "Literal" form.held_shape
  | expr form => exact carried "Expr" form.held_shape
  | stmt form => exact carried "Stmt" form.held_shape
  | type form => exact carried "Type" form.held_shape
  | decl form => exact carried "Decl" form.held_shape

/-- The handles of a payload are the numbers of its JSON with every record as the list of its
values, read from the left.  That JSON is a form of the payload: it is read as the payload whenever
the handles are words. -/
theorem Payload.children_complete (payload : Payload) :
    (payload.encode .positional).numbers = payload.children ∧
    ((∀ child ∈ payload.children, child < Json.wordBound) →
      Payload.decode? .lenient (payload.encode .positional) = some payload) :=
  ⟨payload.numbers_encode .positional, Payload.decode?_encode_of_fits fun _ => rfl⟩

/-- A static method with one decorator twice, two parameters, no result type and a body. -/
def decoratedMethod : Payload := .decl (.method [4, 4] true 2 [9, 0] none (some 7))

/-- The flag and the absent type leave no gap, and the handle that comes twice is listed twice. -/
theorem decoratedMethod_children :
    decoratedMethod.encode .positional =
      .object [("Decl", .object [("Method", .list [.list [.nat 4, .nat 4], .bool true, .nat 2,
        .list [.nat 9, .nat 0], .null, .nat 7])])] ∧
    (decoratedMethod.encode .positional).numbers = [4, 4, 2, 9, 0, 7] ∧
    Payload.decode? .lenient (decoratedMethod.encode .positional) = some decoratedMethod := by
  have fits : ∀ child ∈ decoratedMethod.children, child < Json.wordBound := by decide
  obtain ⟨listed, read⟩ := Payload.children_complete decoratedMethod
  exact ⟨rfl, listed, read fits⟩

end Dartify
