import Dartify.Proofs.Candidates

/-!
# The walk along aliases

`Resolver.terminal` follows aliases with a budget.  This module says what it computes without one.
`Resolver.AliasStep` leads from an alias to the symbol it stands for.  An `AliasWalk` is a path of
such steps that comes to no symbol twice and ends where there is no step left, or only one back to a
symbol on the path (`Resolver.StopsAt`).

There is a walk from every symbol, and it is the one that is followed (`AliasWalk.follow_eq`): the
symbols that it leaves are known and all different, so that it has at most one symbol more than
there are known ones (`AliasWalk.length_le`).  Aliases may run in circles, lead to symbols that are
not declared, or have no target at all.

The symbols met are part of the state of the walk, so a walk that starts later may end elsewhere.
On a circle it does: each of two aliases of each other leads to the other one.  Off the circles the
end depends only on where the aliases lead (`terminal_of_aliasStep`, `terminal_terminal`).
-/

namespace Dartify

open Relation

namespace Resolver

/-! ## Steps and stops -/

/-- An alias leads to the symbol that it stands for. -/
def AliasStep (resolver : Resolver) (id target : SymbolId) : Prop :=
  (∃ symbol, resolver.symbol id = some symbol ∧ symbol.isAlias = true) ∧
    resolver.aliasTarget id = some target

/-- Why following aliases stops at a symbol, when the symbols in `met` were met. -/
inductive StopsAt (resolver : Resolver) (met : List SymbolId) (id : SymbolId) : Prop where
  /-- Nothing is known about the symbol. -/
  | unknown (unknown : resolver.symbol id = none)
  /-- The symbol is no alias. -/
  | plain {symbol : Symbol} (known : resolver.symbol id = some symbol)
      (plain : symbol.isAlias = false)
  /-- The symbol is an alias without a target. -/
  | loose {symbol : Symbol} (known : resolver.symbol id = some symbol)
      (isAlias : symbol.isAlias = true) (loose : resolver.aliasTarget id = none)
  /-- The symbol is an alias whose target was met. -/
  | circle {target : SymbolId} (leads : resolver.AliasStep id target) (seen : target ∈ met)

/-- Following aliases from a symbol comes into a circle. -/
def Circles (resolver : Resolver) (id : SymbolId) : Prop :=
  ∃ other, ReflTransGen resolver.AliasStep id other ∧ TransGen resolver.AliasStep other other

variable {resolver : Resolver} {met : List SymbolId} {id target stop : SymbolId}

theorem AliasStep.lt_symbolCount (leads : resolver.AliasStep id target) :
    id < resolver.symbolCount := by
  obtain ⟨⟨symbol, known, -⟩, -⟩ := leads
  exact resolver.symbol_lt known

theorem StopsAt.mono {larger : List SymbolId} (stops : resolver.StopsAt met id)
    (contained : met ⊆ larger) : resolver.StopsAt larger id := by
  cases stops with
  | unknown unknown => exact .unknown unknown
  | plain known plain => exact .plain known plain
  | loose known isAlias loose => exact .loose known isAlias loose
  | circle leads seen => exact .circle leads (contained seen)

theorem nextAlias?_of_aliasStep (leads : resolver.AliasStep id target) (fresh : target ∉ met) :
    resolver.nextAlias? met id = some target := by
  obtain ⟨⟨symbol, known, isAlias⟩, leads⟩ := leads
  simp [nextAlias?, known, isAlias, leads, fresh]

theorem nextAlias?_of_stopsAt (stops : resolver.StopsAt met id) :
    resolver.nextAlias? met id = none := by
  cases stops with
  | unknown unknown => simp [nextAlias?, unknown]
  | plain known plain => simp [nextAlias?, known, plain]
  | loose known isAlias loose => simp [nextAlias?, known, loose]
  | circle leads seen =>
    obtain ⟨⟨symbol, known, -⟩, leads⟩ := leads
    simp [nextAlias?, known, leads, seen]

/-- The walk either stops at a symbol or has one way to go. -/
theorem stopsAt_or_exists_aliasStep (resolver : Resolver) (met : List SymbolId) (id : SymbolId) :
    resolver.StopsAt met id ∨ ∃ target, resolver.AliasStep id target ∧ target ∉ met := by
  cases known : resolver.symbol id with
  | none => exact .inl (.unknown known)
  | some symbol =>
    cases isAlias : symbol.isAlias with
    | false => exact .inl (.plain known isAlias)
    | true =>
      cases leads : resolver.aliasTarget id with
      | none => exact .inl (.loose known isAlias leads)
      | some target =>
        have step : resolver.AliasStep id target := ⟨⟨symbol, known, isAlias⟩, leads⟩
        by_cases seen : target ∈ met
        · exact .inl (.circle step seen)
        · exact .inr ⟨target, step, seen⟩

/-! ## Walks -/

/-- The walk along aliases from `id`, when the symbols in `met` were met: it comes to the symbols in
`rest`, one after the other, and stops at the last of them. -/
structure AliasWalk (resolver : Resolver) (met : List SymbolId) (id : SymbolId)
    (rest : List SymbolId) (stop : SymbolId) : Prop where
  /-- Each symbol is an alias of the next one. -/
  chain : (id :: rest).IsChain resolver.AliasStep
  /-- No symbol is come to twice. -/
  nodup : rest.Nodup
  /-- No symbol that was met is come to again. -/
  fresh : ∀ other ∈ rest, other ∉ met
  /-- The walk ends at `stop`. -/
  ends : (id :: rest).getLast? = some stop
  /-- There it has to stop. -/
  stops : resolver.StopsAt (rest ++ met) stop

namespace AliasWalk

variable {rest : List SymbolId}

theorem here (stops : resolver.StopsAt met id) : resolver.AliasWalk met id [] id where
  chain := .singleton id
  nodup := List.nodup_nil
  fresh _ member := absurd member List.not_mem_nil
  ends := rfl
  stops := stops

theorem onward (leads : resolver.AliasStep id target) (fresh : target ∉ met)
    (walk : resolver.AliasWalk (target :: met) target rest stop) :
    resolver.AliasWalk met id (target :: rest) stop where
  chain := .cons_cons leads walk.chain
  nodup := List.nodup_cons.mpr
    ⟨fun member => walk.fresh target member (List.mem_cons_self ..), walk.nodup⟩
  fresh other member := by
    rcases List.mem_cons.mp member with rfl | later
    · exact fresh
    · exact fun seen => walk.fresh other later (List.mem_cons_of_mem _ seen)
  ends := by
    rw [List.getLast?_cons_cons]
    exact walk.ends
  stops := walk.stops.mono (by simp)

theorem leads (walk : resolver.AliasWalk met id (target :: rest) stop) :
    resolver.AliasStep id target :=
  (List.isChain_cons_cons.mp walk.chain).1

/-- A walk without its first step. -/
theorem tail (walk : resolver.AliasWalk met id (target :: rest) stop) :
    resolver.AliasWalk (target :: met) target rest stop where
  chain := (List.isChain_cons_cons.mp walk.chain).2
  nodup := (List.nodup_cons.mp walk.nodup).2
  fresh other member := by
    rw [List.mem_cons, not_or]
    refine ⟨?_, walk.fresh other (List.mem_cons_of_mem _ member)⟩
    rintro rfl
    exact (List.nodup_cons.mp walk.nodup).1 member
  ends := by
    rw [← walk.ends, List.getLast?_cons_cons]
  stops := walk.stops.mono (by simp)

/-- What is followed, with any budget for the whole walk, is the walk. -/
theorem follow_eq {budget : Nat} (walk : resolver.AliasWalk met id rest stop)
    (enough : (id :: rest).length ≤ budget) : resolver.follow budget met id = stop := by
  induction rest generalizing met id budget with
  | nil =>
    obtain ⟨budget, rfl⟩ := Nat.exists_eq_add_one_of_ne_zero (Nat.ne_zero_of_lt enough)
    obtain rfl : id = stop := Option.some.inj walk.ends
    have stays : resolver.nextAlias? met id = none := nextAlias?_of_stopsAt walk.stops
    rw [follow, stays]
  | cons target rest ih =>
    obtain ⟨budget, rfl⟩ := Nat.exists_eq_add_one_of_ne_zero (Nat.ne_zero_of_lt enough)
    rw [follow, nextAlias?_of_aliasStep walk.leads (walk.fresh target (List.mem_cons_self ..))]
    exact ih walk.tail (Nat.le_of_succ_le_succ enough)

/-- From every symbol there is a walk. -/
theorem exists_of_unmet_lt {budget : Nat}
    (enough : unmet resolver.symbolCount met < budget) (id : SymbolId) :
    ∃ rest stop, resolver.AliasWalk met id rest stop := by
  induction budget generalizing met id with
  | zero => exact absurd enough (Nat.not_lt_zero _)
  | succ budget ih =>
    rcases resolver.stopsAt_or_exists_aliasStep met id with stops | ⟨target, leads, fresh⟩
    · exact ⟨[], id, here stops⟩
    · by_cases known : target < resolver.symbolCount
      · have fewer := unmet_cons_lt known fresh
        obtain ⟨rest, stop, walk⟩ :=
          ih (Nat.lt_of_lt_of_le fewer (Nat.lt_succ_iff.mp enough)) target
        exact ⟨target :: rest, stop, onward leads fresh walk⟩
      · -- a target that is not declared leads no further
        rcases resolver.stopsAt_or_exists_aliasStep (target :: met) target with stops | more
        · exact ⟨[target], target, onward leads fresh (here stops)⟩
        · obtain ⟨next, further, -⟩ := more
          exact absurd further.lt_symbolCount known

/-- Every symbol of a walk but the last is a known one, and they are all different. -/
theorem length_le (walk : resolver.AliasWalk [id] id rest stop) :
    (id :: rest).length ≤ resolver.symbolCount + 1 := by
  have distinct : (id :: rest).Nodup := by
    refine List.nodup_cons.mpr ⟨fun member => ?_, walk.nodup⟩
    exact walk.fresh id member (List.mem_singleton_self _)
  have known : (id :: rest).dropLast ⊆ List.range resolver.symbolCount := by
    intro other member
    obtain ⟨place, inside, rfl⟩ := List.getElem_of_mem member
    rw [List.length_dropLast] at inside
    have leads := walk.chain.getElem place (by omega)
    rw [List.getElem_dropLast, List.mem_range]
    exact leads.lt_symbolCount
  have short : (id :: rest).dropLast.length ≤ (List.range resolver.symbolCount).length :=
    ((distinct.sublist (List.dropLast_sublist _)).subperm known).length_le
  rw [List.length_dropLast, List.length_range] at short
  omega

/-- The symbols of a walk lie on the way from its start to its end. -/
theorem reaches (walk : resolver.AliasWalk met id rest stop) :
    ∀ other ∈ id :: rest,
      ReflTransGen resolver.AliasStep id other ∧ ReflTransGen resolver.AliasStep other stop := by
  induction rest generalizing met id with
  | nil =>
    obtain rfl : id = stop := Option.some.inj walk.ends
    intro other member
    obtain rfl := List.mem_singleton.mp member
    exact ⟨.refl, .refl⟩
  | cons target rest ih =>
    have onward := ih walk.tail
    intro other member
    rcases List.mem_cons.mp member with rfl | later
    · exact ⟨.refl, .head walk.leads (onward target (List.mem_cons_self ..)).2⟩
    · obtain ⟨before, after⟩ := onward other later
      exact ⟨.head walk.leads before, after⟩

end AliasWalk

/-! ## Where walks end -/

theorem AliasWalk.terminal_eq {rest : List SymbolId}
    (walk : resolver.AliasWalk [id] id rest stop) : resolver.terminal id = stop :=
  walk.follow_eq walk.length_le

theorem exists_aliasWalk (resolver : Resolver) (id : SymbolId) :
    ∃ rest, resolver.AliasWalk [id] id rest (resolver.terminal id) := by
  have enough : unmet resolver.symbolCount [id] < resolver.symbolCount + 1 :=
    Nat.lt_succ_of_le (unmet_le _ _)
  obtain ⟨rest, stop, walk⟩ := AliasWalk.exists_of_unmet_lt enough id
  exact ⟨rest, walk.terminal_eq ▸ walk⟩

/-- An alias that lies on no circle leads where its target leads. -/
theorem terminal_of_aliasStep (leads : resolver.AliasStep id target)
    (clear : ¬TransGen resolver.AliasStep id id) :
    resolver.terminal id = resolver.terminal target := by
  obtain ⟨rest, walk⟩ := resolver.exists_aliasWalk target
  -- the walk from the target does not come back to the alias
  have away : id ∉ target :: rest := by
    intro member
    exact clear (.head' leads (walk.reaches id member).1)
  obtain ⟨differs, absent⟩ := not_or.mp (mt List.mem_cons.mpr away)
  have fresh : target ∉ [id] := fun same => differs (List.mem_singleton.mp same).symm
  have longer : resolver.AliasWalk [target, id] target rest (resolver.terminal target) := by
    refine { walk with fresh := fun other member => ?_, stops := walk.stops.mono (by simp) }
    rw [List.mem_cons, List.mem_singleton, not_or]
    refine ⟨fun same => walk.fresh other member (List.mem_singleton.mpr same), ?_⟩
    rintro rfl
    exact absent member
  exact (AliasWalk.onward leads fresh longer).terminal_eq

/-- Where the aliases come into no circle, the end of a walk is an end from anywhere. -/
theorem terminal_terminal (clear : ¬resolver.Circles id) :
    resolver.terminal (resolver.terminal id) = resolver.terminal id := by
  obtain ⟨rest, walk⟩ := resolver.exists_aliasWalk id
  have stops : resolver.StopsAt [resolver.terminal id] (resolver.terminal id) := by
    cases walk.stops with
    | unknown unknown => exact .unknown unknown
    | plain known plain => exact .plain known plain
    | loose known isAlias loose => exact .loose known isAlias loose
    | @circle target leads seen =>
      have member : target ∈ id :: rest := by simpa [or_comm] using seen
      obtain ⟨before, after⟩ := walk.reaches target member
      exact absurd ⟨target, before, .tail' after leads⟩ clear
  exact (AliasWalk.here stops).terminal_eq

/-- Symbols that lead to the same end have the same key. -/
theorem key_of_terminal_eq {other : SymbolId}
    (same : resolver.terminal id = resolver.terminal other) (basePath : Option String) :
    resolver.key id basePath = resolver.key other basePath := by
  simp only [key, same]

/-- Aliases that lead down come into no circle. -/
theorem not_circles_of_lt (bound : SymbolId)
    (down : ∀ {id target}, id ≤ bound → resolver.AliasStep id target → target < id)
    (below : id ≤ bound) : ¬resolver.Circles id := by
  have within : ∀ {other}, ReflTransGen resolver.AliasStep id other → other ≤ bound := by
    intro other path
    induction path with
    | refl => exact below
    | tail _ leads ih => exact Nat.le_trans (Nat.le_of_lt (down ih leads)) ih
  have lower : ∀ {first last}, first ≤ bound → TransGen resolver.AliasStep first last →
      last < first := by
    intro first last inside path
    induction path with
    | single leads => exact down inside leads
    | tail _ leads ih =>
      exact Nat.lt_trans (down (Nat.le_trans (Nat.le_of_lt ih) inside) leads) ih
  rintro ⟨other, reached, circle⟩
  exact Nat.lt_irrefl _ (lower (within reached) circle)

end Resolver

/-- Following aliases through declared symbols ends after at most one symbol more than are declared,
at a symbol where there is no new one to go to.  Where the aliases come into no circle, an alias
stands for the same symbol, under the same key, as its target, and that symbol stands for itself. -/
theorem alias_resolution_exact (bindings : Bindings) (id : SymbolId) :
    (∃ rest, bindings.resolver.AliasWalk [id] id rest (bindings.resolver.terminal id) ∧
      (id :: rest).length ≤ bindings.symbols.size + 1 ∧
      ∀ budget, (id :: rest).length ≤ budget →
        bindings.resolver.follow budget [id] id = bindings.resolver.terminal id) ∧
    (¬bindings.resolver.Circles id →
      (∀ target, bindings.resolver.AliasStep id target →
        bindings.resolver.terminal id = bindings.resolver.terminal target ∧
        ∀ basePath,
          bindings.resolver.key id basePath = bindings.resolver.key target basePath) ∧
      bindings.resolver.terminal (bindings.resolver.terminal id) =
        bindings.resolver.terminal id) := by
  constructor
  · obtain ⟨rest, walk⟩ := bindings.resolver.exists_aliasWalk id
    exact ⟨rest, walk, walk.length_le, fun budget enough => walk.follow_eq enough⟩
  · intro clear
    refine ⟨fun target leads => ?_, Resolver.terminal_terminal clear⟩
    have same : bindings.resolver.terminal id = bindings.resolver.terminal target :=
      Resolver.terminal_of_aliasStep leads fun circle => clear ⟨id, .refl, circle⟩
    exact ⟨same, Resolver.key_of_terminal_eq same⟩

/-- A function with an alias of an alias, two aliases of each other, an alias of a symbol that is
not declared, and an alias without a target. -/
def aliasedFunction : Bindings :=
  Bindings.empty.declare "CONST_EXPR" .function "/p/facade/lang.ts"
    |>.declareAlias "CONST_EXPR" 0 "/p/facade/index.ts"
    |>.declareAlias "CONST_EXPR" 1 "/p/app.ts"
    |>.declareAlias "f" 4 "/p/f.ts" |>.declareAlias "g" 3 "/p/g.ts"
    |>.declareAlias "h" 9 "/p/h.ts" |>.declare "i" .importAlias "/p/i.ts"

theorem aliasedFunction_resolution :
    ¬aliasedFunction.resolver.Circles 2 ∧
    aliasedFunction.resolver.AliasStep 2 1 ∧
    aliasedFunction.resolver.terminal 2 = aliasedFunction.resolver.terminal 1 ∧
    aliasedFunction.resolver.terminal 1 = 0 ∧
    aliasedFunction.resolver.key 2 (some "/p") = aliasedFunction.resolver.key 1 (some "/p") ∧
    aliasedFunction.resolver.key 1 (some "/p") = .ok ⟨"facade/lang", "CONST_EXPR"⟩ ∧
    aliasedFunction.resolver.terminal (aliasedFunction.resolver.terminal 2) =
      aliasedFunction.resolver.terminal 2 := by
  have clear : ¬aliasedFunction.resolver.Circles 2 := by
    refine Resolver.not_circles_of_lt 2 (fun {id target} below leads => ?_) (Nat.le_refl 2)
    have declared : aliasedFunction.aliasTargets.lookup id = some target := leads.2
    rcases Nat.le_iff_lt_or_eq.mp below with lower | rfl
    · rcases Nat.le_one_iff_eq_zero_or_eq_one.mp (Nat.le_of_lt_succ lower) with rfl | rfl
      · cases declared
      · cases declared
        exact Nat.zero_lt_one
    · cases declared
      exact Nat.one_lt_two
  have leads : aliasedFunction.resolver.AliasStep 2 1 := ⟨⟨_, rfl, by decide⟩, rfl⟩
  obtain ⟨along, last⟩ := (alias_resolution_exact aliasedFunction 2).2 clear
  obtain ⟨same, keyed⟩ := along 1 leads
  exact ⟨clear, leads, same, by decide, keyed (some "/p"), by decide, last⟩

end Dartify
