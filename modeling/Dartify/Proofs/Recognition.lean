import Dartify.Proofs.Descent
import Dartify.Plan.CallIdiom

/-!
# What is recognized

Recognizing a call or a property access has a few outcomes, and what else is known in each of them
is said here once.  `Context.CallOutcome` and `Context.AccessOutcome` list the outcomes, and
`Context.callOutcome` and `Context.accessOutcome` say that there are no others.  Proofs about plans
of calls go by cases on them.
-/

namespace Dartify

/-- A call has an idiom: its callee goes by a candidate name, and the catalog lists the idiom under
the key of that name.  The parts of the call are those of `site`. -/
structure Context.IdiomAt (context : Context) (call : NodeId) (site : CallSite)
    (idiom : CallIdiom) : Prop where
  /-- The site is the call. -/
  node_eq : site.node = call
  /-- The callee of the call, and what it is known by. -/
  listed : ∃ resolver payload calleeNode calleePayload callee key,
    context.resolver = some resolver ∧
    context.tree.payload? call = some payload ∧
    callParts? payload = some (calleeNode, site.typeArguments, site.arguments) ∧
    context.tree.payload? calleeNode = some calleePayload ∧
    context.callee? calleeNode calleePayload = some callee ∧
    site.receiver = callee.receiver ∧
    callee.name ∈ context.catalog.propertyCandidates ∧
    context.lookup resolver callee.name callee.node = .ok key ∧
    context.catalog.calls.get? key = some idiom

namespace Context

/-- What can come of recognizing a call or a construction. -/
inductive CallOutcome (context : Context) (node : NodeId) : Except Defect Recognition → Prop where
  /-- The call is written as it stands. -/
  | notHandled : CallOutcome context node (.ok .notHandled)
  /-- The callee is missing. -/
  | missing {payload : Payload} {callee : NodeId} {typeArguments arguments : List NodeId}
      (held : context.tree.payload? node = some payload)
      (parts : callParts? payload = some (callee, typeArguments, arguments))
      (absent : context.tree.get? callee = none) :
      CallOutcome context node (.error (.missing callee))
  /-- The callee is a candidate without a key. -/
  | unresolved {cause : Complaint} (resolved : context.resolver ≠ none)
      (asked : cause.kind = .ambiguousSymbol) :
      CallOutcome context node (.ok (.unresolved [.complain node cause]))
  /-- The call has an idiom. -/
  | recognized {site : CallSite} {idiom : CallIdiom} {plan : Plan}
      (here : context.IdiomAt node site idiom) (planned : idiom.plan? context site = some plan) :
      CallOutcome context node (.ok (.recognized plan))

/-- What can come of recognizing an access to a property. -/
inductive AccessOutcome (context : Context) (node expression : NodeId) :
    Except Defect Recognition → Prop where
  /-- The access is written as it stands. -/
  | notHandled : AccessOutcome context node expression (.ok .notHandled)
  /-- The name is a candidate without a key. -/
  | unresolved {cause : Complaint} (resolved : context.resolver ≠ none)
      (asked : cause.kind = .ambiguousSymbol) :
      AccessOutcome context node expression (.ok (.unresolved [.complain node cause]))
  /-- The property has an idiom. -/
  | recognized (idiom : PropertyIdiom) :
      AccessOutcome context node expression (.ok (.recognized (idiom.plan expression)))

variable {context : Context} {node : NodeId} {payload : Payload}

/-- A name without a key is an ambiguous symbol. -/
theorem kind_of_lookup {resolver : Resolver} {name : String} {cause : Complaint}
    (failed : context.lookup resolver name node = .error cause) :
    cause.kind = .ambiguousSymbol := by
  unfold lookup at failed
  split at failed
  · cases failed
    rfl
  · split at failed
    · cases failed
    · cases failed
      rfl

theorem children_of_callParts? {callee : NodeId} {typeArguments arguments : List NodeId}
    (parts : callParts? payload = some (callee, typeArguments, arguments)) :
    payload.children = callee :: (typeArguments ++ arguments) := by
  unfold callParts? at parts
  split at parts
  · cases parts
    rfl
  · cases parts
    rfl
  · cases parts

theorem callOutcome (held : context.tree.payload? node = some payload) :
    context.CallOutcome node (context.recognizeCall node) := by
  obtain ⟨found, present, rfl⟩ := Tree.payload?_eq_some.mp held
  unfold recognizeCall
  split
  · exact .notHandled
  rename_i resolver resolved
  simp only [present]
  split
  · exact .notHandled
  rename_i calleeNode typeArguments arguments parts
  split
  · rename_i absent
    exact .missing held parts absent
  rename_i calleeFound calleePresent
  split
  · exact .notHandled
  rename_i callee named
  unfold recognizeCallee
  split
  · rename_i candidate
    split
    · rename_i failed
      exact .unresolved (by simp [resolved]) (kind_of_lookup failed)
    · rename_i key known
      split
      · rename_i plan chosen
        obtain ⟨idiom, entry, planned⟩ := Option.bind_eq_some_iff.mp chosen
        have here : context.IdiomAt node ⟨node, callee.receiver, typeArguments, arguments⟩ idiom :=
          ⟨rfl, resolver, _, calleeNode, _, callee, key, resolved, held, parts,
            Tree.payload?_of_get? calleePresent, named, rfl, candidate, known, entry⟩
        exact .recognized here planned
      · exact .notHandled
  · exact .notHandled

theorem accessOutcome {expression name : NodeId}
    (held : context.tree.payload? node = some (.expr (.propertyAccess expression name))) :
    context.AccessOutcome node expression (context.recognizeProperty node) := by
  obtain ⟨found, present, same⟩ := Tree.payload?_eq_some.mp held
  unfold recognizeProperty
  split
  · exact .notHandled
  rename_i resolver resolved
  simp only [present, same]
  split
  · exact .notHandled
  unfold recognizeName
  split
  · split
    · rename_i failed
      exact .unresolved (by simp [resolved]) (kind_of_lookup failed)
    · split
      · exact .recognized _
      · exact .notHandled
  · exact .notHandled

end Context

end Dartify
