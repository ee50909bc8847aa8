import Dartify.Proofs.Agreement
import Dartify.Proofs.Descent
import Dartify.Symbol.Bindings

/-!
# Re-exports

A front end declares an alias for every import and re-export of a symbol, and binds names to the
alias that stands in their file.  This module shows that it makes no difference to a conversion how
many aliases lie between a name and the symbol that it was bound to before (`convert_reexported`).

New aliases are numbered above the symbols that were there, and their targets are declared before
them.  So following them goes down, never meets a symbol twice, and comes to a symbol that was
there.  From then on the walk is the one that starts at this symbol (`Bindings.follow_leadsTo`): the
symbols that were there lead only to each other, so that the new ones among the symbols met are
never asked for.  This needs no assumption on the aliases that were there, which may run in circles
or end nowhere.  The two walks have different budgets, but both are enough for all symbols that
were there (`Resolver.follow_of_le`).
-/

namespace Dartify.Resolver

variable {resolver : Resolver}

/-! ## Walks along aliases -/

/-- The number of symbols below `bound` that were not met. -/
def unmet (bound : Nat) (met : List SymbolId) : Nat :=
  ((Finset.range bound).filter (· ∉ met)).card

theorem unmet_le (bound : Nat) (met : List SymbolId) : unmet bound met ≤ bound := by
  calc unmet bound met ≤ (Finset.range bound).card := Finset.card_filter_le _ _
    _ = bound := Finset.card_range bound

theorem unmet_cons_lt {bound : Nat} {met : List SymbolId} {id : SymbolId} (below : id < bound)
    (fresh : id ∉ met) : unmet bound (id :: met) < unmet bound met := by
  apply Finset.card_lt_card
  refine ⟨fun other unseen => ?_, fun contained => ?_⟩
  · simp only [Finset.mem_filter, List.mem_cons, not_or] at unseen ⊢
    exact ⟨unseen.1, unseen.2.2⟩
  · have start : id ∈ (Finset.range bound).filter (· ∉ met) :=
      Finset.mem_filter.mpr ⟨Finset.mem_range.mpr below, fresh⟩
    have still := (Finset.mem_filter.mp (contained start)).2
    exact still (List.mem_cons_self ..)

theorem nextAlias?_notMem {met : List SymbolId} {id target : SymbolId}
    (onward : resolver.nextAlias? met id = some target) : target ∉ met := by
  simp only [nextAlias?, Option.bind_eq_bind, Option.bind_eq_some_iff] at onward
  obtain ⟨symbol, -, onward⟩ := onward
  split at onward
  · obtain ⟨next, -, onward⟩ := Option.bind_eq_some_iff.mp onward
    split at onward
    · cases onward
    · rename_i fresh
      cases onward
      exact fresh
  · cases onward

/-- The walk along aliases stays at a symbol that nothing is known about. -/
theorem follow_of_unknown (resolver : Resolver) {id : SymbolId}
    (unknown : resolver.symbolCount ≤ id) (budget : Nat) (met : List SymbolId) :
    resolver.follow budget met id = id := by
  cases budget with
  | zero => rfl
  | succ budget =>
    have nothing : resolver.symbol id = none := by
      cases known : resolver.symbol id with
      | none => rfl
      | some symbol => exact absurd (resolver.symbol_lt known) (Nat.not_lt.mpr unknown)
    simp [follow, nextAlias?, nothing]

/-- One step more makes no difference when the budget is above the number of symbols not yet met. -/
theorem follow_succ {budget : Nat} {met : List SymbolId} {id : SymbolId}
    (enough : unmet resolver.symbolCount met < budget) :
    resolver.follow (budget + 1) met id = resolver.follow budget met id := by
  induction budget generalizing met id with
  | zero => exact absurd enough (Nat.not_lt_zero _)
  | succ budget ih =>
    rw [follow, follow]
    cases onward : resolver.nextAlias? met id with
    | none => rfl
    | some target =>
      by_cases known : target < resolver.symbolCount
      · have fewer := unmet_cons_lt known (nextAlias?_notMem onward)
        exact ih (Nat.lt_of_lt_of_le fewer (Nat.lt_succ_iff.mp enough))
      · have unknown := Nat.not_lt.mp known
        simp only [resolver.follow_of_unknown unknown]

theorem follow_of_le {small large : Nat} {met : List SymbolId} {id : SymbolId}
    (enough : unmet resolver.symbolCount met < small) (more : small ≤ large) :
    resolver.follow large met id = resolver.follow small met id := by
  induction more with
  | refl => rfl
  | step more ih => rw [follow_succ (Nat.lt_of_lt_of_le enough more), ih]

/-- Any budget above the number of symbols leads to the end of a chain of aliases, also when the
aliases run in a circle. -/
theorem follow_eq_terminal (resolver : Resolver) {budget : Nat}
    (enough : resolver.symbolCount < budget) (id : SymbolId) :
    resolver.follow budget [id] id = resolver.terminal id :=
  follow_of_le (Nat.lt_succ_of_le (unmet_le _ _)) enough

end Dartify.Resolver

namespace Dartify.Bindings

open Relation

/-! ## Bindings that lead nowhere else -/

/-- A symbol is a member of another one. -/
def ParentStep (bindings : Bindings) (id parent : SymbolId) : Prop :=
  ∃ symbol, bindings.symbols[id]? = some symbol ∧ symbol.parent = some parent

theorem ParentStep.lt_size {bindings : Bindings} {id parent : SymbolId}
    (step : bindings.ParentStep id parent) : id < bindings.symbols.size := by
  obtain ⟨symbol, present, -⟩ := step
  exact (Array.getElem?_eq_some_iff.mp present).1

/-- All symbols that are mentioned are declared. -/
structure Closed (bindings : Bindings) : Prop where
  /-- Symbols of names. -/
  names : ∀ {node : NodeId} {id : SymbolId},
    bindings.nodeSymbols.lookup node = some id → id < bindings.symbols.size
  /-- Symbols of types. -/
  types : ∀ {node : NodeId} {id : SymbolId},
    bindings.nodeTypes.lookup node = some id → id < bindings.symbols.size
  /-- Targets of aliases. -/
  targets : ∀ {id target : SymbolId},
    bindings.aliasTargets.lookup id = some target → target < bindings.symbols.size
  /-- Containers of members. -/
  parents : ∀ {id parent : SymbolId},
    bindings.ParentStep id parent → parent < bindings.symbols.size

theorem closed_of_entries {bindings : Bindings}
    (names : ∀ entry ∈ bindings.nodeSymbols, entry.2 < bindings.symbols.size)
    (types : ∀ entry ∈ bindings.nodeTypes, entry.2 < bindings.symbols.size)
    (targets : ∀ entry ∈ bindings.aliasTargets, entry.2 < bindings.symbols.size)
    (parents : ∀ symbol ∈ bindings.symbols.toList, ∀ parent ∈ symbol.parent,
      parent < bindings.symbols.size) : bindings.Closed := by
  have entry : ∀ {table : List (Nat × SymbolId)} {key : Nat} {id : SymbolId},
      table.lookup key = some id → (key, id) ∈ table := by
    intro table key id bound
    obtain ⟨before, after, rfl, -⟩ := List.lookup_eq_some_iff.mp bound
    simp
  refine ⟨fun bound => names _ (entry bound), fun bound => types _ (entry bound),
    fun leads => targets _ (entry leads), ?_⟩
  rintro id parent ⟨symbol, present, contained⟩
  exact parents symbol (Array.mem_toList_iff.mpr (Array.mem_of_getElem? present)) parent contained

/-- Members that are declared after their containers are contained in no circle. -/
theorem rooted_of_lt {bindings : Bindings}
    (down : ∀ {id parent : SymbolId}, bindings.ParentStep id parent → parent < id) :
    ∀ id, ¬TransGen bindings.ParentStep id id := by
  have descends : Descends bindings.ParentStep bindings.symbols.size :=
    .of_lt ParentStep.lt_size fun step => .inl (down step)
  exact descends.acyclic

/-! ## Names of containers -/

section

variable {bindings : Bindings}

theorem namesUp_none (bindings : Bindings) (budget : Nat) : bindings.namesUp budget none = [] := by
  cases budget <;> rfl

theorem descends_of_rooted (rooted : ∀ id, ¬TransGen bindings.ParentStep id id) :
    Descends bindings.ParentStep bindings.symbols.size :=
  ⟨ParentStep.lt_size, rooted⟩

/-- Two budgets for all containers of a symbol give the same names. -/
theorem namesUp_congr (rooted : ∀ id, ¬TransGen bindings.ParentStep id id) (id : SymbolId)
    {small large : Nat}
    (small_enough : rank bindings.ParentStep bindings.symbols.size id ≤ small)
    (large_enough : rank bindings.ParentStep bindings.symbols.size id ≤ large) :
    bindings.namesUp small (some id) = bindings.namesUp large (some id) := by
  refine (descends_of_rooted rooted).congr_of_rank_le
    (fun budget id => bindings.namesUp budget (some id)) ?_ ?_ id small_enough large_enough
  · have nothing : ∀ {id}, bindings.symbols.size ≤ id →
        ∀ budget, bindings.namesUp budget (some id) = [] := by
      intro id outside budget
      cases budget <;> simp only [namesUp, Array.getElem?_eq_none outside]
    intro id outside budget budget'
    rw [nothing outside, nothing outside]
  · intro id small large same
    simp only [namesUp]
    cases present : bindings.symbols[id]? with
    | none => rfl
    | some symbol =>
      refine congrArg (symbol.name :: ·) ?_
      cases contained : symbol.parent with
      | none => rw [namesUp_none, namesUp_none]
      | some parent => exact same parent (.single ⟨symbol, present, contained⟩)

theorem namesUp_eq (rooted : ∀ id, ¬TransGen bindings.ParentStep id id) {budget : Nat}
    (enough : bindings.symbols.size ≤ budget) (id : SymbolId) :
    bindings.namesUp budget (some id) = bindings.namesUp bindings.symbols.size (some id) := by
  have bounded : rank bindings.ParentStep bindings.symbols.size id ≤ bindings.symbols.size :=
    rank_le_size id
  exact namesUp_congr rooted id (Nat.le_trans bounded enough) bounded

end

/-! ## Added aliases -/

/-- Aliases of declared symbols are declared, one after the other. -/
inductive Reexports (base : Bindings) : Bindings → Prop where
  /-- None is declared. -/
  | none : Reexports base base
  /-- One more is declared. -/
  | more {grown : Bindings} {target : SymbolId} (name file : String)
      (earlier : Reexports base grown) (declared : target < grown.symbols.size) :
      Reexports base (grown.declareAlias name target file)

/-- Following added aliases from a symbol comes to `first` before any other symbol of `base`. -/
inductive LeadsTo (base grown : Bindings) : SymbolId → SymbolId → Prop where
  /-- The symbol is one of `base`. -/
  | here {id : SymbolId} (known : id < base.symbols.size) : LeadsTo base grown id id
  /-- The symbol is an added alias. -/
  | through {id target first : SymbolId} (added : base.symbols.size ≤ id)
      (declared : id < grown.symbols.size) (leads : grown.aliasTargets.lookup id = some target)
      (rest : LeadsTo base grown target first) : LeadsTo base grown id first

/-- Nodes are bound anew, each to something that leads to the symbol it has in `base`. -/
inductive Rebinds (base grown : Bindings) : Bindings → Prop where
  /-- None is bound anew. -/
  | none : Rebinds base grown grown
  /-- The name at one more node is bound anew. -/
  | name {bindings : Bindings} {node : NodeId} {first id : SymbolId}
      (earlier : Rebinds base grown bindings)
      (bound : base.nodeSymbols.lookup node = some first)
      (leads : LeadsTo base grown id first) : Rebinds base grown (bindings.bind node id)
  /-- The type of the expression at one more node is bound anew. -/
  | type {bindings : Bindings} {node : NodeId} {first id : SymbolId}
      (earlier : Rebinds base grown bindings)
      (bound : base.nodeTypes.lookup node = some first)
      (leads : LeadsTo base grown id first) : Rebinds base grown (bindings.bindType node id)

/-- The symbols of `base` are as they were, and all others are aliases that lead down. -/
structure Extends (base grown : Bindings) : Prop where
  /-- No symbol is gone. -/
  size_le : base.symbols.size ≤ grown.symbols.size
  /-- What is known about a symbol stays. -/
  symbol : ∀ {id : SymbolId}, id < base.symbols.size → grown.symbols[id]? = base.symbols[id]?
  /-- The target of a symbol stays. -/
  target : ∀ {id : SymbolId}, id < base.symbols.size →
    grown.aliasTargets.lookup id = base.aliasTargets.lookup id
  /-- What was added is an alias of a symbol declared before it. -/
  added : ∀ {id : SymbolId}, base.symbols.size ≤ id → id < grown.symbols.size →
    (∃ symbol, grown.symbols[id]? = some symbol ∧ symbol.isAlias = true) ∧
      ∀ {target : SymbolId}, grown.aliasTargets.lookup id = some target → target < id

variable {base grown : Bindings}

theorem Extends.refl (base : Bindings) : base.Extends base where
  size_le := Nat.le_refl _
  symbol _ := rfl
  target _ := rfl
  added above below := absurd below (Nat.not_lt.mpr above)

theorem Extends.declareAlias (extended : base.Extends grown) {target : SymbolId}
    (declared : target < grown.symbols.size) (name file : String) :
    base.Extends (grown.declareAlias name target file) := by
  have size : (grown.declareAlias name target file).symbols.size = grown.symbols.size + 1 :=
    Array.size_push _
  -- the next number is above all that were given out
  have older : ∀ {id : SymbolId}, id < grown.symbols.size →
      (grown.declareAlias name target file).symbols[id]? = grown.symbols[id]? ∧
      (grown.declareAlias name target file).aliasTargets.lookup id =
        grown.aliasTargets.lookup id := by
    intro id below
    have differs : (id == grown.symbols.size) = false := beq_false_of_ne (Nat.ne_of_lt below)
    constructor
    · show (grown.symbols.push _)[id]? = _
      rw [Array.getElem?_push, if_neg (Nat.ne_of_lt below)]
    · show List.lookup id ((grown.symbols.size, target) :: grown.aliasTargets) = _
      rw [List.lookup_cons, differs]
  refine ⟨?_, fun below => ?_, fun below => ?_, fun {id} above below => ?_⟩
  · rw [size]
    exact Nat.le_succ_of_le extended.size_le
  · rw [(older (Nat.lt_of_lt_of_le below extended.size_le)).1, extended.symbol below]
  · rw [(older (Nat.lt_of_lt_of_le below extended.size_le)).2, extended.target below]
  · rw [size] at below
    rcases Nat.lt_succ_iff_lt_or_eq.mp below with earlier | rfl
    · rw [(older earlier).1, (older earlier).2]
      exact extended.added above earlier
    · constructor
      · refine ⟨_, Array.getElem?_push_size, ?_⟩
        show SymbolFlags.importAlias.meets .importAlias = true
        decide
      · intro other leads
        have first : some target = some other := by
          rw [← leads]
          show _ = List.lookup grown.symbols.size ((grown.symbols.size, target) :: _)
          rw [List.lookup_cons, beq_self_eq_true]
        cases first
        exact declared

theorem Reexports.isExtension (reexports : Reexports base grown) : base.Extends grown := by
  induction reexports with
  | none => exact .refl base
  | more name file _ declared ih => exact ih.declareAlias declared name file

/-! ## Following aliases -/

theorem nextAlias?_eq_some {bindings : Bindings} {met : List SymbolId} {id target : SymbolId} :
    bindings.resolver.nextAlias? met id = some target ↔
      (∃ symbol, bindings.symbols[id]? = some symbol ∧ symbol.isAlias = true) ∧
      bindings.aliasTargets.lookup id = some target ∧ target ∉ met := by
  simp only [Resolver.nextAlias?, resolver]
  cases bindings.symbols[id]? with
  | none => simp
  | some symbol =>
    cases bindings.aliasTargets.lookup id with
    | none => simp
    | some other =>
      by_cases isAlias : symbol.isAlias = true
      · by_cases seen : other ∈ met
        · have stays : other = target → target ∈ met := fun same => same ▸ seen
          simpa [isAlias, seen] using stays
        · have fresh : other = target → target ∉ met := fun same => same ▸ seen
          simpa [isAlias, seen] using fresh
      · simp [isAlias]

section

variable (closed : base.Closed)

include closed

theorem follow_lt {budget : Nat} {met : List SymbolId} {id : SymbolId}
    (known : id < base.symbols.size) :
    base.resolver.follow budget met id < base.symbols.size := by
  induction budget generalizing met id with
  | zero => exact known
  | succ budget ih =>
    rw [Resolver.follow]
    split
    · rename_i target onward
      obtain ⟨-, leads, -⟩ := nextAlias?_eq_some.mp onward
      exact ih (closed.targets leads)
    · exact known

variable (extended : base.Extends grown)

include extended

/-- From a symbol of `base` the next one is the same, when the same symbols of `base` were met. -/
theorem nextAlias?_of_extends {met met' : List SymbolId} {id : SymbolId}
    (known : id < base.symbols.size)
    (same : ∀ other, other < base.symbols.size → (other ∈ met' ↔ other ∈ met)) :
    grown.resolver.nextAlias? met' id = base.resolver.nextAlias? met id := by
  ext target
  rw [nextAlias?_eq_some, nextAlias?_eq_some, extended.symbol known, extended.target known]
  refine and_congr_right fun _ => and_congr_right fun leads => ?_
  rw [same target (closed.targets leads)]

/-- From a symbol of `base` the aliases lead to the same symbol, when the same symbols of `base`
were met. -/
theorem follow_of_extends {budget : Nat} {met met' : List SymbolId} {id : SymbolId}
    (known : id < base.symbols.size)
    (same : ∀ other, other < base.symbols.size → (other ∈ met' ↔ other ∈ met)) :
    grown.resolver.follow budget met' id = base.resolver.follow budget met id := by
  induction budget generalizing met met' id with
  | zero => rfl
  | succ budget ih =>
    rw [Resolver.follow, Resolver.follow, nextAlias?_of_extends closed extended known same]
    split
    · rename_i target onward
      obtain ⟨-, leads, -⟩ := nextAlias?_eq_some.mp onward
      refine ih (closed.targets leads) fun other below => ?_
      rw [List.mem_cons, List.mem_cons, same other below]
    · rfl

/-- Added aliases are left behind one by one, and then the walk is the one in `base`. -/
theorem follow_leadsTo {budget : Nat} {met : List SymbolId} {id first : SymbolId}
    (leads : LeadsTo base grown id first) (start : id ∈ met)
    (above : ∀ other ∈ met, other = id ∨ id < other ∧ base.symbols.size ≤ other)
    (enough : id < budget) (enoughForBase : base.symbols.size ≤ budget) :
    grown.resolver.follow budget met id = base.resolver.terminal first := by
  induction leads generalizing budget met with
  | @here id known =>
    -- among the symbols met, only this one is of `base`
    have same : ∀ other, other < base.symbols.size → (other ∈ met ↔ other ∈ [id]) := by
      intro other below
      constructor
      · intro member
        rcases above other member with rfl | ⟨-, beyond⟩
        · exact List.mem_singleton_self _
        · omega
      · intro member
        rw [List.mem_singleton.mp member]
        exact start
    rw [follow_of_extends closed extended known same, Resolver.terminal]
    have few : Resolver.unmet base.resolver.symbolCount [id] < base.symbols.size :=
      Nat.lt_of_lt_of_le (Resolver.unmet_cons_lt known List.not_mem_nil) (Resolver.unmet_le _ _)
    rw [Resolver.follow_of_le few enoughForBase]
    exact (Resolver.follow_of_le few (Nat.le_succ _)).symm
  | @through id target first added declared leads rest ih =>
    -- the target lies below all symbols met, so it is not one of them
    obtain ⟨isAlias, lower⟩ := extended.added added declared
    have down := lower leads
    have fresh : target ∉ met := by
      intro member
      rcases above target member with rfl | ⟨beyond, -⟩
      · exact Nat.lt_irrefl _ down
      · exact Nat.lt_asymm down beyond
    have onward : grown.resolver.nextAlias? met id = some target :=
      nextAlias?_eq_some.mpr ⟨isAlias, leads, fresh⟩
    obtain ⟨budget, rfl⟩ := Nat.exists_eq_add_one_of_ne_zero (Nat.ne_zero_of_lt enough)
    have reserve : id ≤ budget := Nat.lt_succ_iff.mp enough
    rw [Resolver.follow, onward]
    refine ih (List.mem_cons_self ..) (fun other member => ?_) (Nat.lt_of_lt_of_le down reserve)
      (Nat.le_trans added reserve)
    rcases List.mem_cons.mp member with rfl | before
    · exact .inl rfl
    · rcases above other before with rfl | ⟨beyond, new⟩
      · exact .inr ⟨down, added⟩
      · exact .inr ⟨Nat.lt_trans down beyond, new⟩

theorem terminal_leadsTo {id first : SymbolId} (leads : LeadsTo base grown id first) :
    grown.resolver.terminal id = base.resolver.terminal first := by
  have declared : id < grown.symbols.size := by
    cases leads with
    | here known => exact Nat.lt_of_lt_of_le known extended.size_le
    | through added declared leads rest => exact declared
  refine follow_leadsTo closed extended leads (List.mem_singleton_self _) (fun other member => ?_)
    (Nat.lt_succ_of_lt declared) (Nat.le_succ_of_le extended.size_le)
  exact .inl (List.mem_singleton.mp member)

/-! ## Keys -/

/-- The containers of a symbol of `base` have the same names. -/
theorem namesUp_of_extends {id : SymbolId} (known : id < base.symbols.size) (budget : Nat) :
    grown.namesUp budget (some id) = base.namesUp budget (some id) := by
  induction budget generalizing id with
  | zero => rfl
  | succ budget ih =>
    rw [namesUp, namesUp, extended.symbol known]
    cases present : base.symbols[id]? with
    | none => rfl
    | some symbol =>
      cases contained : symbol.parent with
      | none => simp only [contained, namesUp_none]
      | some parent =>
        have same := ih (closed.parents ⟨symbol, present, contained⟩)
        simp only [contained, same]

variable (rooted : ∀ id, ¬TransGen base.ParentStep id id)

include rooted

theorem qualifiedName_of_extends {id : SymbolId} (known : id < base.symbols.size) :
    grown.qualifiedName id = base.qualifiedName id := by
  rw [qualifiedName, qualifiedName, namesUp_of_extends closed extended known,
    namesUp_eq rooted extended.size_le]

/-- A symbol has the key of the symbol of `base` that it leads to. -/
theorem key_leadsTo {id first : SymbolId} (leads : LeadsTo base grown id first)
    (known : first < base.symbols.size) (basePath : Option String) :
    grown.resolver.key id basePath = base.resolver.key first basePath := by
  have ends : base.resolver.terminal first < base.symbols.size := follow_lt closed known
  have symbol : grown.resolver.symbol (base.resolver.terminal first) =
      base.resolver.symbol (base.resolver.terminal first) := extended.symbol ends
  have named : grown.resolver.qualifiedName (base.resolver.terminal first) =
      base.resolver.qualifiedName (base.resolver.terminal first) :=
    qualifiedName_of_extends closed extended rooted ends
  simp only [Resolver.key, terminal_leadsTo closed extended leads, symbol, named]

end

/-! ## Bound nodes -/

/-- Nodes of one table lead to the symbols that they have in another, and no others are bound. -/
def BoundAlike (base grown : Bindings) (before after : List (NodeId × SymbolId)) : Prop :=
  ∀ node, Option.Rel (LeadsTo base grown) (after.lookup node) (before.lookup node)

theorem BoundAlike.bind {before after : List (NodeId × SymbolId)} {node : NodeId}
    {id first : SymbolId} (alike : BoundAlike base grown before after)
    (bound : before.lookup node = some first) (leads : LeadsTo base grown id first) :
    BoundAlike base grown before ((node, id) :: after) := by
  intro other
  by_cases same : other = node
  · subst same
    rw [List.lookup_cons, beq_self_eq_true, bound]
    exact .some leads
  · rw [List.lookup_cons, beq_false_of_ne same]
    exact alike other

/-- Bindings that are not changed are alike. -/
theorem BoundAlike.refl {table : List (NodeId × SymbolId)}
    (declared : ∀ {node : NodeId} {id : SymbolId}, table.lookup node = some id →
      id < base.symbols.size) : BoundAlike base grown table table := by
  intro node
  cases bound : table.lookup node with
  | none => exact .none
  | some id => exact .some (.here (declared bound))

theorem Reexports.nodes_eq (reexports : Reexports base grown) :
    grown.nodeSymbols = base.nodeSymbols ∧ grown.nodeTypes = base.nodeTypes := by
  induction reexports with
  | none => exact ⟨rfl, rfl⟩
  | more name file _ _ ih => exact ih

theorem LeadsTo.congr {rebound : Bindings} {id first : SymbolId}
    (leads : LeadsTo base grown id first) (symbols : rebound.symbols = grown.symbols)
    (targets : rebound.aliasTargets = grown.aliasTargets) : LeadsTo base rebound id first := by
  induction leads with
  | here known => exact .here known
  | through added declared leads _ ih =>
    exact .through added (symbols ▸ declared) (targets ▸ leads) ih

theorem Extends.congr {rebound : Bindings} (extended : base.Extends grown)
    (symbols : rebound.symbols = grown.symbols)
    (targets : rebound.aliasTargets = grown.aliasTargets) : base.Extends rebound := by
  obtain ⟨size_le, symbol, target, added⟩ := extended
  rw [← symbols] at size_le
  refine ⟨size_le, fun known => ?_, fun known => ?_, fun above below => ?_⟩
  · rw [symbols]
    exact symbol known
  · rw [targets]
    exact target known
  · rw [symbols] at below ⊢
    rw [targets]
    exact added above below

/-- Binding nodes anew changes neither symbols nor aliases, and every node leads to the symbol that
it had. -/
theorem Rebinds.boundAlike {rebound : Bindings} (rebinds : Rebinds base grown rebound)
    (closed : base.Closed) (reexports : Reexports base grown) :
    rebound.symbols = grown.symbols ∧ rebound.aliasTargets = grown.aliasTargets ∧
    BoundAlike base grown base.nodeSymbols rebound.nodeSymbols ∧
    BoundAlike base grown base.nodeTypes rebound.nodeTypes := by
  induction rebinds with
  | none =>
    obtain ⟨names, types⟩ := reexports.nodes_eq
    rw [names, types]
    exact ⟨rfl, rfl, .refl closed.names, .refl closed.types⟩
  | name _ bound leads ih =>
    obtain ⟨symbols, targets, names, types⟩ := ih
    exact ⟨symbols, targets, names.bind bound leads, types⟩
  | type _ bound leads ih =>
    obtain ⟨symbols, targets, names, types⟩ := ih
    exact ⟨symbols, targets, names, types.bind bound leads⟩

/-- Nodes that lead to the symbols that they had have the keys that they had. -/
theorem BoundAlike.key_eq {rebound : Bindings} {before after : List (NodeId × SymbolId)}
    (alike : BoundAlike base grown before after) (closed : base.Closed)
    (rooted : ∀ id, ¬TransGen base.ParentStep id id) (extended : base.Extends grown)
    (symbols : rebound.symbols = grown.symbols)
    (targets : rebound.aliasTargets = grown.aliasTargets)
    (declared : ∀ {node : NodeId} {id : SymbolId}, before.lookup node = some id →
      id < base.symbols.size) (node : NodeId) (basePath : Option String) :
    (before.lookup node).map (base.resolver.key · basePath) =
      (after.lookup node).map (rebound.resolver.key · basePath) := by
  have related := alike node
  cases bound : before.lookup node with
  | none =>
    rw [bound] at related
    cases anew : after.lookup node with
    | none => rfl
    | some id =>
      rw [anew] at related
      cases related
  | some first =>
    rw [bound] at related
    cases anew : after.lookup node with
    | none =>
      rw [anew] at related
      cases related
    | some id =>
      rw [anew] at related
      cases related with
      | some leads =>
        rw [Option.map_some, Option.map_some,
          key_leadsTo closed (extended.congr symbols targets) rooted (leads.congr symbols targets)
            (declared bound)]

end Dartify.Bindings

namespace Dartify

open Bindings

/-- Aliases that are declared on top of bindings, and names and types that are bound to them instead
of the symbols that they lead to, change nothing about a conversion. -/
theorem convert_reexported (base grown rebound : Bindings) (closed : base.Closed)
    (rooted : ∀ id, ¬Relation.TransGen base.ParentStep id id)
    (reexports : Reexports base grown) (rebinds : Rebinds base grown rebound)
    (categories : List Category) (options : Options) (tree : Tree) (root : NodeId) :
    (Converter.ofCategories Unit categories options).convert
        { tree, root, resolver := some rebound.resolver } =
      (Converter.ofCategories Unit categories options).convert
        { tree, root, resolver := some base.resolver } := by
  obtain ⟨symbols, targets, names, types⟩ := rebinds.boundAlike closed reexports
  have extended := reexports.isExtension
  let unit : SourceUnit := { tree, root }
  have alike : ((Converter.ofCategories Unit categories options).context unit).Alike
      base.resolver rebound.resolver := by
    constructor
    · intro name node _
      have key := names.key_eq closed rooted extended symbols targets closed.names node
      exact Context.lookup_congr (key _) name
    · intro node
      exact types.key_eq closed rooted extended symbols targets closed.types node _
  exact (Converter.convert_congr alike).symm

/-- A method of an array, and two aliases that lead to each other. -/
def circularBindings : Bindings :=
  Bindings.empty.declare "Array" ⟨64⟩ "lib.d.ts"
    |>.declareMember 0 "push" .method
    |>.declareAlias "left" 3 "left.ts"
    |>.declareAlias "right" 2 "right.ts"
    |>.bind 0 2
    |>.bind 1 1

/-- The bindings with two more aliases of the method and one of the circle. -/
def reexportedBindings : Bindings :=
  circularBindings.declareAlias "push" 1 "first.ts"
    |>.declareAlias "push" 4 "second.ts"
    |>.declareAlias "left" 2 "second.ts"

/-- A call of `push` on what an alias of the circle names. -/
def pushCall : Tree :=
  { nodes := #[⟨.name (.identifier "xs"), 0, 2, some 2⟩,
      ⟨.name (.identifier "push"), 3, 7, some 2⟩,
      ⟨.expr (.propertyAccess 0 1), 0, 7, some 4⟩,
      ⟨.literal (.numeric "1"), 8, 9, some 4⟩,
      ⟨.expr (.call 2 [] [3]), 0, 10, none⟩] }

/-- The method is found behind two aliases, and the circle is entered from outside. -/
theorem pushCall_reexported :
    circularBindings.Closed ∧
    (Converter.standard {}).convert ⟨pushCall, 4, some circularBindings.resolver⟩ =
      .ok ⟨"", " xs . add ( 1 )", []⟩ ∧
    (Converter.standard {}).convert
        ⟨pushCall, 4, some ((reexportedBindings.bind 1 5).bind 0 6).resolver⟩ =
      (Converter.standard {}).convert ⟨pushCall, 4, some circularBindings.resolver⟩ := by
  have closed : circularBindings.Closed :=
    closed_of_entries (by decide) (by decide) (by decide) (by decide)
  have rooted : ∀ id, ¬Relation.TransGen circularBindings.ParentStep id id := by
    have ordered : ∀ id < circularBindings.symbols.size,
        ∀ parent ∈ circularBindings.symbols[id]?.bind Symbol.parent, parent < id := by decide
    refine rooted_of_lt ?_
    rintro id parent ⟨symbol, present, contained⟩
    have below := (Array.getElem?_eq_some_iff.mp present).1
    exact ordered id below parent (by rw [present]; exact contained)
  have reexports : Reexports circularBindings reexportedBindings :=
    .more _ _ (.more _ _ (.more _ _ .none (by decide)) (by decide)) (by decide)
  have method : LeadsTo circularBindings reexportedBindings 5 1 :=
    .through (by decide) (by decide) (show _ = some 4 by decide)
      (.through (by decide) (by decide) (show _ = some 1 by decide) (.here (by decide)))
  have circle : LeadsTo circularBindings reexportedBindings 6 2 :=
    .through (by decide) (by decide) (show _ = some 2 by decide) (.here (by decide))
  have rebinds : Rebinds circularBindings reexportedBindings
      ((reexportedBindings.bind 1 5).bind 0 6) :=
    .name (.name .none (by decide) method) (by decide) circle
  refine ⟨closed, by decide, ?_⟩
  exact convert_reexported _ _ _ closed rooted reexports rebinds Category.all {} pushCall 4

end Dartify
