import Dartify.Converter
import Dartify.Proofs.Descent
import Mathlib.Data.List.Nodup

/-!
# Candidates hide no entry

Before a resolver is asked about a name, the name has to be a candidate: the last dotted segment of
some name in a table.  Candidates are gathered from the names alone, over all modules and over the
built-in and the configured entries together, while an entry is found by module path and full name.

The first section says what a table holds after it was extended: the configured entry of a key if
there is one, and otherwise the entry that was there (`Table.prefers_extend`).  Options are maps, in
which a key stands once (`Options.Distinct`), so the order of their entries does not count.

Then recognition is written down without the test for candidates (`Context.settleCallee`,
`Context.settleProperty`, `Context.settleTypeName`).  At a site that goes by the last segment of the
name it resolves to, it comes to the same as recognition with the test (`prefilter_hides_nothing`).
-/

namespace Dartify

/-! ## Extended tables -/

namespace Assoc

variable {α β : Type} [DecidableEq α]

theorem lookup_insertAll_of_notMem {key : α} {pairs : List (α × β)}
    (unset : ∀ pair ∈ pairs, pair.1 ≠ key) (map : List (α × β)) :
    (insertAll map pairs).lookup key = map.lookup key := by
  induction pairs generalizing map with
  | nil => rfl
  | cons pair rest ih =>
    obtain ⟨differs, others⟩ := List.forall_mem_cons.mp unset
    have onward := ih others (insert pair.1 pair.2 map)
    rw [lookup_insert_of_ne differs.symm] at onward
    exact onward

/-- Of pairs with different keys, each is found after all of them were set. -/
theorem lookup_insertAll_of_mem {key : α} {value : β} {pairs : List (α × β)}
    (distinct : (pairs.map Prod.fst).Nodup) (member : (key, value) ∈ pairs)
    (map : List (α × β)) : (insertAll map pairs).lookup key = some value := by
  induction pairs generalizing map with
  | nil => cases member
  | cons pair rest ih =>
    obtain ⟨fresh, distinct⟩ := List.nodup_cons.mp distinct
    rcases List.mem_cons.mp member with rfl | later
    · have unset : ∀ other ∈ rest, other.1 ≠ key := by
        intro other among same
        exact fresh (List.mem_map.mpr ⟨other, among, same⟩)
      exact (lookup_insertAll_of_notMem unset _).trans (lookup_insert_self key value map)
    · exact ih distinct later (insert pair.1 pair.2 map)

end Assoc

namespace ModuleTable

variable {α : Type}

/-- A key stands once: a module once in the table, and a name once in its module. -/
structure Distinct (table : ModuleTable α) : Prop where
  /-- Modules. -/
  modules : (table.map Prod.fst).Nodup
  /-- Names of a module. -/
  names : ∀ group ∈ table, (group.2.map Prod.fst).Nodup

/-- The table lists an entry under a key. -/
def Lists (table : ModuleTable α) (key : SymbolKey) (entry : α) : Prop :=
  ∃ named, (key.modulePath, named) ∈ table ∧ (key.name, entry) ∈ named

theorem mem_flatten {table : ModuleTable α} {key : SymbolKey} {entry : α} :
    (key, entry) ∈ Table.flatten table ↔ Lists table key entry := by
  obtain ⟨path, name⟩ := key
  simp only [Table.flatten, List.mem_flatMap, List.mem_map, Lists, Prod.mk.injEq,
    SymbolKey.mk.injEq, Prod.exists]
  constructor
  · rintro ⟨_, named, group, _, _, within, ⟨rfl, rfl⟩, rfl⟩
    exact ⟨named, group, within⟩
  · rintro ⟨named, group, within⟩
    exact ⟨path, named, group, name, entry, within, ⟨rfl, rfl⟩, rfl⟩

theorem Distinct.nodup_flatten {table : ModuleTable α} (distinct : Distinct table) :
    ((Table.flatten table).map Prod.fst).Nodup := by
  induction table with
  | nil => exact List.nodup_nil
  | cons group rest ih =>
    obtain ⟨path, named⟩ := group
    obtain ⟨modules, names⟩ := distinct
    obtain ⟨fresh, modules⟩ := List.nodup_cons.mp modules
    obtain ⟨here, names⟩ := List.forall_mem_cons.mp names
    have first : (named.map fun entry => (⟨path, entry.1⟩ : SymbolKey)).Nodup := by
      have spread := here.map (f := fun name => (⟨path, name⟩ : SymbolKey)) fun one two same => by
        cases same
        rfl
      rwa [List.map_map] at spread
    have apart : ∀ key ∈ named.map fun entry => (⟨path, entry.1⟩ : SymbolKey),
        key ∉ (Table.flatten rest).map Prod.fst := by
      intro key inside outside
      obtain ⟨entry, -, rfl⟩ := List.mem_map.mp inside
      obtain ⟨⟨key, value⟩, listed, same⟩ := List.mem_map.mp outside
      cases same
      obtain ⟨others, among, -⟩ := mem_flatten.mp listed
      exact fresh (List.mem_map.mpr ⟨_, among, rfl⟩)
    have split : (Table.flatten ((path, named) :: rest)).map Prod.fst =
        (named.map fun entry => ⟨path, entry.1⟩) ++ (Table.flatten rest).map Prod.fst := by
      simp [Table.flatten]
    rw [split]
    exact first.append (ih ⟨modules, names⟩) apart

end ModuleTable

/-- An extended table goes by the configured entry of a key when there is one, and else by the
entry that was there. -/
def Table.Prefers {α : Type} (extended : Table α) (configured : ModuleTable α)
    (table : Table α) : Prop :=
  ∀ key entry, extended.get? key = some entry ↔
    ModuleTable.Lists configured key entry ∨
      (∀ other, ¬ModuleTable.Lists configured key other) ∧ table.get? key = some entry

theorem Table.prefers_extend {α : Type} (table : Table α) {configured : ModuleTable α}
    (distinct : ModuleTable.Distinct configured) :
    (table.extend configured).Prefers configured table := by
  intro key entry
  have found : ∀ value, ModuleTable.Lists configured key value →
      (table.extend configured).get? key = some value := by
    intro value listed
    exact Assoc.lookup_insertAll_of_mem distinct.nodup_flatten (ModuleTable.mem_flatten.mpr listed)
      _
  by_cases any : ∃ value, ModuleTable.Lists configured key value
  · obtain ⟨value, listed⟩ := any
    rw [found value listed, Option.some.injEq]
    constructor
    · rintro rfl
      exact .inl listed
    · rintro (also | ⟨unlisted, -⟩)
      · exact Option.some.inj ((found value listed).symm.trans (found entry also))
      · exact absurd listed (unlisted value)
  · have unlisted : ∀ value, ¬ModuleTable.Lists configured key value := not_exists.mp any
    have unset : ∀ pair ∈ Table.flatten configured, pair.1 ≠ key := by
      rintro ⟨other, value⟩ member rfl
      exact unlisted value (ModuleTable.mem_flatten.mp member)
    have same : (table.extend configured).get? key = table.get? key :=
      Assoc.lookup_insertAll_of_notMem unset _
    rw [same]
    simp [unlisted]

/-- Two configured tables with the same entries, in whatever order, extend a table alike. -/
theorem Table.get?_extend_congr {α : Type} (table : Table α) {one two : ModuleTable α}
    (distinct : ModuleTable.Distinct one) (distinct' : ModuleTable.Distinct two)
    (same : ∀ key entry, ModuleTable.Lists one key entry ↔ ModuleTable.Lists two key entry)
    (key : SymbolKey) : (table.extend one).get? key = (table.extend two).get? key := by
  apply Option.ext
  intro entry
  rw [prefers_extend table distinct, prefers_extend table distinct']
  simp only [same]

/-! ## Candidates -/

/-- `last` is what follows the last dot of a name, or the whole name when it has none. -/
def IsLastSegment (name last : String) : Prop :=
  '.' ∉ last.toList ∧ (name = last ∨ ∃ front, name = front ++ "." ++ last)

theorem lastDotted_of_isLastSegment {name last : String} (segment : IsLastSegment name last) :
    Table.lastDotted name = last := by
  obtain ⟨plain, whole⟩ := segment
  have reversed : ∀ c ∈ last.toList.reverse, (c != '.') = true := by
    intro c member
    simp only [bne_iff_ne, ne_eq]
    rintro rfl
    exact plain (List.mem_reverse.mp member)
  rcases whole with rfl | ⟨front, rfl⟩
  · have whole : (name.toList.reverse ++ []).takeWhile (· != '.') =
        name.toList.reverse ++ [].takeWhile (· != '.') := List.takeWhile_append_of_pos reversed
    rw [List.append_nil, List.takeWhile_nil, List.append_nil] at whole
    rw [Table.lastDotted, whole, List.reverse_reverse, String.ofList_toList]
  · have behind : (front ++ "." ++ last).toList.reverse =
        last.toList.reverse ++ '.' :: front.toList.reverse := by simp
    rw [Table.lastDotted, behind, List.takeWhile_append_of_pos reversed]
    simp

/-- The last segment of every name with an entry is a candidate. -/
theorem Table.mem_candidates_of_get? {α : Type} {table : Table α} {key : SymbolKey} {entry : α}
    {last : String} (found : table.get? key = some entry) (segment : IsLastSegment key.name last) :
    last ∈ table.candidates := by
  obtain ⟨before, after, listed, -⟩ := List.lookup_eq_some_iff.mp found
  refine List.mem_map.mpr ⟨(key, entry), ?_, lastDotted_of_isLastSegment segment⟩
  rw [listed]
  exact List.mem_append_right _ (List.mem_cons_self ..)

/-! ## Recognition without the test for candidates -/

/-- What an idiom comes to at a call. -/
def CallIdiom.recognition (context : Context) (site : CallSite) (idiom : CallIdiom) : Recognition :=
  match idiom.plan? context site with
  | some plan => .recognized plan
  | none => .notHandled

namespace Context

/-- A call or a construction with its callee. -/
structure CallAt (context : Context) (call : NodeId) (callee : Callee) (site : CallSite) :
    Prop where
  /-- The site is the call. -/
  node_eq : site.node = call
  /-- The receiver is the one of the callee. -/
  receiver_eq : site.receiver = callee.receiver
  /-- The callee is the one that the call has. -/
  parts : ∃ payload calleeNode calleePayload, context.tree.payload? call = some payload ∧
    callParts? payload = some (calleeNode, site.typeArguments, site.arguments) ∧
    context.tree.payload? calleeNode = some calleePayload ∧
    context.callee? calleeNode calleePayload = some callee

variable (context : Context)

/-- Recognizes a call by its callee, whatever name that goes by. -/
def settleCallee (resolver : Resolver) (callee : Callee) (site : CallSite) : Recognition :=
  match context.lookup resolver callee.name callee.node with
  | .error cause => .unresolved [.complain site.node cause]
  | .ok key =>
    match (context.catalog.calls.get? key).bind (CallIdiom.plan? context site) with
    | some plan => .recognized plan
    | none => .notHandled

/-- Recognizes a property, whatever name it goes by. -/
def settleProperty (resolver : Resolver) (access expression : NodeId) (name : NodeId)
    (text : String) : Recognition :=
  match context.lookup resolver text name with
  | .error cause => .unresolved [.complain access cause]
  | .ok key =>
    match context.catalog.properties.get? key with
    | some idiom => .recognized (idiom.plan expression)
    | none => .notHandled

/-- Writes a type name or the Dart name that the catalog has for it, whatever its last part is. -/
def settleTypeName (resolver : Resolver) (node : NodeId) (last : String) : Plan :=
  match context.lookup resolver last node with
  | .error cause => [.complain node cause]
  | .ok key =>
    match context.catalog.typeNames.get? key with
    | some replacement => [.token replacement]
    | none => [.child node]

variable {context} {resolver : Resolver} {key : SymbolKey}

theorem recognizeCallee_eq_ite (callee : Callee) (site : CallSite) :
    context.recognizeCallee resolver callee site =
      if callee.name ∈ context.catalog.propertyCandidates then
        context.settleCallee resolver callee site
      else .notHandled :=
  rfl

theorem recognizeName_eq_ite (access expression name : NodeId) (text : String) :
    context.recognizeName resolver access expression name text =
      if text ∈ context.catalog.propertyCandidates then
        context.settleProperty resolver access expression name text
      else .notHandled :=
  rfl

theorem typeName_eq_ite {node : NodeId} {form : Name} (resolved : context.resolver = some resolver)
    (held : context.tree.payload? node = some (.name form)) :
    Plan.typeName context node =
      if context.lastName form ∈ context.catalog.typeCandidates then
        context.settleTypeName resolver node (context.lastName form)
      else [.child node] := by
  obtain ⟨found, present, content⟩ := Tree.payload?_eq_some.mp held
  by_cases candidate : context.lastName form ∈ context.catalog.typeCandidates
  · cases looked : context.lookup resolver (context.lastName form) node with
    | error cause =>
      simp only [Plan.typeName, Plan.withPayload, present, content, resolved, candidate, if_true,
        looked, settleTypeName]
    | ok key =>
      cases entry : context.catalog.typeNames.get? key <;>
        simp only [Plan.typeName, Plan.withPayload, present, content, resolved, candidate, if_true,
          looked, entry, settleTypeName]
  · simp only [Plan.typeName, Plan.withPayload, present, content, resolved, candidate, if_false]

/-! ## Sites that go by the last segment of their name -/

theorem settleCallee_eq {callee : Callee} (site : CallSite)
    (known : context.lookup resolver callee.name callee.node = .ok key) :
    context.settleCallee resolver callee site =
      (context.catalog.calls.get? key).elim .notHandled (CallIdiom.recognition context site) := by
  cases entry : context.catalog.calls.get? key with
  | none => simp only [settleCallee, known, entry, Option.bind_none, Option.elim_none]
  | some idiom =>
    cases planned : idiom.plan? context site <;>
      simp only [settleCallee, known, entry, Option.bind_some, planned, CallIdiom.recognition,
        Option.elim_some]

theorem settleProperty_eq {access expression name : NodeId} {text : String}
    (known : context.lookup resolver text name = .ok key) :
    context.settleProperty resolver access expression name text =
      (context.catalog.properties.get? key).elim .notHandled
        fun idiom => .recognized (idiom.plan expression) := by
  cases entry : context.catalog.properties.get? key <;>
    simp only [settleProperty, known, entry, Option.elim_none, Option.elim_some]

theorem settleTypeName_eq {node : NodeId} {last : String}
    (known : context.lookup resolver last node = .ok key) :
    context.settleTypeName resolver node last =
      (context.catalog.typeNames.get? key).elim [.child node]
        fun replacement => [.token replacement] := by
  cases entry : context.catalog.typeNames.get? key <;>
    simp only [settleTypeName, known, entry, Option.elim_none, Option.elim_some]

/-- A name that is no candidate has no entry, so nothing is lost when it is not looked up. -/
theorem recognizeCallee_eq_settleCallee {callee : Callee} (site : CallSite)
    (known : context.lookup resolver callee.name callee.node = .ok key)
    (segment : IsLastSegment key.name callee.name) :
    context.recognizeCallee resolver callee site =
      context.settleCallee resolver callee site := by
  rw [recognizeCallee_eq_ite]
  split
  · rfl
  · rename_i unlisted
    have absent : context.catalog.calls.get? key = none := by
      refine Option.eq_none_iff_forall_ne_some.mpr fun idiom entry => unlisted ?_
      exact List.mem_append_left _ (Table.mem_candidates_of_get? entry segment)
    rw [settleCallee_eq site known, absent, Option.elim_none]

theorem recognizeName_eq_settleProperty {access expression name : NodeId} {text : String}
    (known : context.lookup resolver text name = .ok key)
    (segment : IsLastSegment key.name text) :
    context.recognizeName resolver access expression name text =
      context.settleProperty resolver access expression name text := by
  rw [recognizeName_eq_ite]
  split
  · rfl
  · rename_i unlisted
    have absent : context.catalog.properties.get? key = none := by
      refine Option.eq_none_iff_forall_ne_some.mpr fun idiom entry => unlisted ?_
      exact List.mem_append_right _ (Table.mem_candidates_of_get? entry segment)
    rw [settleProperty_eq known, absent, Option.elim_none]

theorem typeName_eq_settleTypeName {node : NodeId} {form : Name}
    (resolved : context.resolver = some resolver)
    (held : context.tree.payload? node = some (.name form))
    (known : context.lookup resolver (context.lastName form) node = .ok key)
    (segment : IsLastSegment key.name (context.lastName form)) :
    Plan.typeName context node = context.settleTypeName resolver node (context.lastName form) := by
  rw [typeName_eq_ite resolved held]
  split
  · rfl
  · rename_i unlisted
    have absent : context.catalog.typeNames.get? key = none := by
      refine Option.eq_none_iff_forall_ne_some.mpr fun replacement entry => unlisted ?_
      exact Table.mem_candidates_of_get? entry segment
    rw [settleTypeName_eq known, absent, Option.elim_none]

theorem CallAt.recognizeCall_eq {call : NodeId} {callee : Callee} {site : CallSite}
    (here : context.CallAt call callee site) (resolved : context.resolver = some resolver) :
    context.recognizeCall call = .ok (context.recognizeCallee resolver callee site) := by
  obtain ⟨rfl, receiver, payload, calleeNode, calleePayload, held, parts, called, named⟩ := here
  obtain ⟨found, present, rfl⟩ := Tree.payload?_eq_some.mp held
  obtain ⟨calleeFound, calleePresent, rfl⟩ := Tree.payload?_eq_some.mp called
  simp only [recognizeCall, resolved, present, parts, calleePresent, named, ← receiver]

theorem recognizeProperty_eq_ok {access expression name : NodeId} {text : String}
    (resolved : context.resolver = some resolver)
    (held : context.tree.payload? access = some (.expr (.propertyAccess expression name)))
    (named : context.tree.identifierText? name = some text) :
    context.recognizeProperty access =
      .ok (context.recognizeName resolver access expression name text) := by
  obtain ⟨found, present, content⟩ := Tree.payload?_eq_some.mp held
  simp only [recognizeProperty, resolved, present, content, named]

end Context

/-! ## Options -/

/-- A key stands once in every table of the options. -/
structure Options.Distinct (options : Options) : Prop where
  /-- Call idioms. -/
  callIdioms : ModuleTable.Distinct options.callIdioms
  /-- Property idioms. -/
  propertyIdioms : ModuleTable.Distinct options.propertyIdioms
  /-- Type names. -/
  typeNames : ModuleTable.Distinct options.typeNames

/-- Two options list the same entries, in whatever order. -/
structure Options.SameEntries (one two : Options) : Prop where
  /-- Call idioms. -/
  callIdioms : ∀ key idiom, ModuleTable.Lists one.callIdioms key idiom ↔
    ModuleTable.Lists two.callIdioms key idiom
  /-- Property idioms. -/
  propertyIdioms : ∀ key idiom, ModuleTable.Lists one.propertyIdioms key idiom ↔
    ModuleTable.Lists two.propertyIdioms key idiom
  /-- Type names. -/
  typeNames : ∀ key name, ModuleTable.Lists one.typeNames key name ↔
    ModuleTable.Lists two.typeNames key name

namespace Assoc

variable {α β : Type} [DecidableEq α]

theorem nodup_insert {map : List (α × β)} (distinct : (map.map Prod.fst).Nodup) (key : α)
    (value : β) : ((insert key value map).map Prod.fst).Nodup := by
  induction map with
  | nil => simp [insert]
  | cons pair rest ih =>
    obtain ⟨fresh, others⟩ := List.nodup_cons.mp distinct
    unfold insert
    split
    · rename_i same
      rw [List.map_cons, ← same]
      exact distinct
    · rename_i differs
      refine List.nodup_cons.mpr ⟨fun again => ?_, ih others⟩
      obtain ⟨entry, member, same⟩ := List.mem_map.mp again
      rcases mem_insert member with rfl | old
      · exact differs same.symm
      · exact fresh (List.mem_map.mpr ⟨entry, old, same⟩)

theorem nodup_insertAll {map : List (α × β)} (distinct : (map.map Prod.fst).Nodup)
    (pairs : List (α × β)) : ((insertAll map pairs).map Prod.fst).Nodup := by
  induction pairs generalizing map with
  | nil => exact distinct
  | cons pair rest ih => exact ih (nodup_insert distinct pair.1 pair.2)

theorem nodup_ofList (pairs : List (α × β)) : ((ofList pairs).map Prod.fst).Nodup := by
  have start : (([] : List (α × β)).map Prod.fst).Nodup := List.nodup_nil
  exact nodup_insertAll start pairs

end Assoc

namespace Json

variable {α : Type} {value? : Json → Option α} {value : Json}

theorem exists_of_mem_mapM {β : Type} {read : β → Option α} {items : List β} {values : List α}
    (all : items.mapM read = some values) {value : α} (member : value ∈ values) :
    ∃ item, read item = some value := by
  induction items generalizing values with
  | nil =>
    cases all
    cases member
  | cons item rest ih =>
    simp only [List.mapM_cons, Option.bind_eq_bind, Option.bind_eq_some_iff, Option.pure_def,
      Option.some.injEq] at all
    obtain ⟨first, here, others, later, rfl⟩ := all
    rcases List.mem_cons.mp member with rfl | among
    · exact ⟨item, here⟩
    · exact ih later among

/-- A key of a map stands once, and its values were read. -/
theorem map?_eq_some {map : List (String × α)} (read : map? value? value = some map) :
    (map.map Prod.fst).Nodup ∧ ∀ entry ∈ map, ∃ item, value? item = some entry.2 := by
  cases value with
  | object pairs =>
    simp only [map?, Option.bind_eq_bind, Option.bind_eq_some_iff, Option.pure_def,
      Option.some.injEq] at read
    obtain ⟨values, all, rfl⟩ := read
    refine ⟨Assoc.nodup_ofList values, fun entry member => ?_⟩
    rcases Assoc.mem_insertAll member with old | among
    · cases old
    · obtain ⟨pair, here⟩ := exists_of_mem_mapM all among
      obtain ⟨item, found, rfl⟩ := Option.map_eq_some_iff.mp here
      exact ⟨pair.2, found⟩
  | _ => cases read

theorem distinct_of_table? {field : Option Json} {table : ModuleTable α}
    (read : defaulted [] (Options.table? value?) field = some table) :
    ModuleTable.Distinct table := by
  cases field with
  | none =>
    cases read
    exact ⟨List.nodup_nil, fun _ member => nomatch member⟩
  | some field =>
    obtain ⟨modules, groups⟩ := map?_eq_some read
    refine ⟨modules, fun group member => ?_⟩
    obtain ⟨item, named⟩ := groups group member
    exact (map?_eq_some named).1

end Json

/-- Options that were read have every key once. -/
theorem Options.distinct_of_decode? {value : Json} {options : Options}
    (read : Options.decode? value = some options) : options.Distinct := by
  unfold Options.decode? at read
  obtain ⟨fields, -, read⟩ := Option.bind_eq_some_iff.mp read
  split at read
  · simp only [Option.bind_eq_bind, Option.bind_eq_some_iff, Option.pure_def,
      Option.some.injEq] at read
    obtain ⟨_, _, _, _, _, _, calls, readCalls, properties, readProperties, names, readNames, _, _,
      rfl⟩ := read
    exact ⟨Json.distinct_of_table? readCalls, Json.distinct_of_table? readProperties,
      Json.distinct_of_table? readNames⟩
  · cases read

/-! ## Nothing is hidden -/

/-- The symbol at a node has a key, and `text` is the last segment of the name in it. -/
structure Context.NamedBy (context : Context) (resolver : Resolver) (node : NodeId) (text : String)
    (key : SymbolKey) : Prop where
  /-- The resolver is the one that is asked. -/
  resolver_eq : context.resolver = some resolver
  /-- The symbol and its key. -/
  keyed : ∃ id, resolver.symbolAt node = some id ∧ resolver.key id context.basePath = .ok key
  /-- The name. -/
  segment : IsLastSegment key.name text

theorem Context.NamedBy.lookup_eq {context : Context} {resolver : Resolver} {node : NodeId}
    {text : String} {key : SymbolKey} (named : context.NamedBy resolver node text key) :
    context.lookup resolver text node = .ok key := by
  obtain ⟨id, bound, keyed⟩ := named.keyed
  simp only [lookup, bound, keyed]

/-- Every table of the catalog has the configured entry of a key when there is one and else the
built-in one, whatever order the entries come in.  At a call, a construction, a property access or
a type name whose symbol has a key, and which goes by the last segment of the name in that key, the
test for candidates makes no difference: the site is written by the entry of the key if the
catalog has one, and as it stands if not. -/
theorem prefilter_hides_nothing (options : Options) :
    (options.Distinct →
      ((Catalog.builtin.extend options).calls.Prefers options.callIdioms Catalog.builtin.calls ∧
        (Catalog.builtin.extend options).properties.Prefers options.propertyIdioms
          Catalog.builtin.properties ∧
        (Catalog.builtin.extend options).typeNames.Prefers options.typeNames
          Catalog.builtin.typeNames) ∧
      ∀ other : Options, other.Distinct → options.SameEntries other → ∀ key,
        (Catalog.builtin.extend options).calls.get? key =
            (Catalog.builtin.extend other).calls.get? key ∧
          (Catalog.builtin.extend options).properties.get? key =
            (Catalog.builtin.extend other).properties.get? key ∧
          (Catalog.builtin.extend options).typeNames.get? key =
            (Catalog.builtin.extend other).typeNames.get? key) ∧
    ∀ (context : Context) (resolver : Resolver) (key : SymbolKey),
      context.catalog = Catalog.builtin.extend options →
      (∀ call callee site, context.CallAt call callee site →
        context.NamedBy resolver callee.node callee.name key →
        context.recognizeCall call = .ok (context.settleCallee resolver callee site) ∧
        context.recognizeCall call =
          .ok (((Catalog.builtin.extend options).calls.get? key).elim .notHandled
            (CallIdiom.recognition context site))) ∧
      (∀ access expression name text,
        context.tree.payload? access = some (.expr (.propertyAccess expression name)) →
        context.tree.identifierText? name = some text →
        context.NamedBy resolver name text key →
        context.recognizeProperty access =
          .ok (context.settleProperty resolver access expression name text) ∧
        context.recognizeProperty access =
          .ok (((Catalog.builtin.extend options).properties.get? key).elim .notHandled
            fun idiom => .recognized (idiom.plan expression))) ∧
      ∀ node form, context.tree.payload? node = some (.name form) →
        context.NamedBy resolver node (context.lastName form) key →
        Plan.typeName context node =
          context.settleTypeName resolver node (context.lastName form) ∧
        Plan.typeName context node =
          ((Catalog.builtin.extend options).typeNames.get? key).elim [.child node]
            fun replacement => [.token replacement] := by
  constructor
  · intro distinct
    refine ⟨⟨?_, ?_, ?_⟩, fun other distinct' same key => ⟨?_, ?_, ?_⟩⟩
    · exact Table.prefers_extend _ distinct.callIdioms
    · exact Table.prefers_extend _ distinct.propertyIdioms
    · exact Table.prefers_extend _ distinct.typeNames
    · exact Table.get?_extend_congr _ distinct.callIdioms distinct'.callIdioms same.callIdioms key
    · exact Table.get?_extend_congr _ distinct.propertyIdioms distinct'.propertyIdioms
        same.propertyIdioms key
    · exact Table.get?_extend_congr _ distinct.typeNames distinct'.typeNames same.typeNames key
  · intro context resolver key listed
    rw [← listed]
    refine ⟨?_, ?_, ?_⟩
    · intro call callee site here named
      rw [here.recognizeCall_eq named.resolver_eq,
        Context.recognizeCallee_eq_settleCallee site named.lookup_eq named.segment]
      exact ⟨rfl, congrArg _ (Context.settleCallee_eq site named.lookup_eq)⟩
    · intro access expression name text held text_eq named
      rw [Context.recognizeProperty_eq_ok named.resolver_eq held text_eq,
        Context.recognizeName_eq_settleProperty named.lookup_eq named.segment]
      exact ⟨rfl, congrArg _ (Context.settleProperty_eq named.lookup_eq)⟩
    · intro node form held named
      rw [Context.typeName_eq_settleTypeName named.resolver_eq held named.lookup_eq named.segment]
      exact ⟨rfl, Context.settleTypeName_eq named.lookup_eq⟩

/-- Options that add a call with several dots in its name and replace a built-in one. -/
def appendOptions : Options where
  callIdioms :=
    [("my/list", [("Deep.List.append", .arrayPush)]), ("lib", [("Array.push", .arrayConcat)])]

/-- `xs.append(1)` on a list of a module of its own. -/
def appendCall : Context :=
  (Converter.standard appendOptions).context
    { tree :=
        { nodes := #[⟨.name (.identifier "xs"), 0, 2, some 2⟩,
            ⟨.name (.identifier "append"), 3, 9, some 2⟩,
            ⟨.expr (.propertyAccess 0 1), 0, 9, some 4⟩,
            ⟨.literal (.numeric "1"), 10, 11, some 4⟩,
            ⟨.expr (.call 2 [] [3]), 0, 12, none⟩] }
      root := 4
      resolver := some (Bindings.empty.declare "Deep" .valueModule "my/list.d.ts"
        |>.declareMember 0 "List" .classType
        |>.declareMember 1 "append" .method
        |>.bind 1 2).resolver }

/-- The name before the last dot plays no part in the test, and a built-in entry gives way to the
configured one of its key. -/
theorem appendCall_hides_nothing :
    Options.decode? (.object [("callRewrites", .object
        [("my/list", .object [("Deep.List.append", .text "arrayPush")]),
          ("lib", .object [("Array.push", .text "arrayConcat")])])]) = some appendOptions ∧
    (Catalog.builtin.extend appendOptions).calls.get? ⟨"lib", "Array.push"⟩ =
      some .arrayConcat ∧
    appendCall.recognizeCall 4 =
      .ok (.recognized [.child 0, .token ".", .token "add", .token "(", .child 3, .token ")"]) := by
  have read : Options.decode? (.object [("callRewrites", .object
      [("my/list", .object [("Deep.List.append", .text "arrayPush")]),
        ("lib", .object [("Array.push", .text "arrayConcat")])])]) = some appendOptions := by
    decide +kernel
  obtain ⟨tables, sites⟩ := prefilter_hides_nothing appendOptions
  obtain ⟨⟨calls, -⟩, -⟩ := tables (Options.distinct_of_decode? read)
  have here : appendCall.CallAt 4 ⟨"append", 1, some 0⟩ ⟨4, some 0, [], [3]⟩ :=
    ⟨rfl, rfl, _, 2, _, rfl, rfl, rfl, rfl⟩
  have named : appendCall.NamedBy _ 1 "append" ⟨"my/list", "Deep.List.append"⟩ :=
    ⟨rfl, ⟨2, rfl, by decide +kernel⟩, by decide, .inr ⟨"Deep.List", rfl⟩⟩
  refine ⟨read, ?_, ?_⟩
  · refine (calls _ _).mpr (.inl ⟨[("Array.push", .arrayConcat)], ?_, List.mem_cons_self ..⟩)
    exact List.mem_cons_of_mem _ (List.mem_cons_self ..)
  · have added : (Catalog.builtin.extend appendOptions).calls.get?
        ⟨"my/list", "Deep.List.append"⟩ = some .arrayPush :=
      (calls _ _).mpr (.inl ⟨_, List.mem_cons_self .., List.mem_cons_self ..⟩)
    rw [((sites appendCall _ _ rfl).1 _ _ _ here named).2, added]
    rfl

end Dartify
