import Dartify.Plan.TypeName

/-!
# Dart forms of library calls

The plan of each idiom at a call, and the recognition of calls and property accesses that an idiom
stands for.  A call with too few arguments, or with arguments that the Dart form cannot take, gives
rise to a diagnostic.
-/

namespace Dartify

/-- A call or a construction that an idiom is applied to. -/
structure CallSite where
  /-- The call. -/
  node : NodeId
  /-- The expression whose member is called, if there is one. -/
  receiver : Option NodeId
  /-- The type arguments. -/
  typeArguments : List NodeId
  /-- The arguments. -/
  arguments : List NodeId
  deriving DecidableEq, Repr

/-! ## Pieces -/

namespace Plan

/-- Writes a name and arguments in parentheses. -/
def namedCall (name : String) (arguments : List NodeId) : Plan :=
  .token name :: .token "(" :: (commas arguments ++ [.token ")"])

/-- Writes a call of a member of what stands before. -/
def methodCall (name : String) (arguments : List NodeId) : Plan :=
  .token "." :: namedCall name arguments

/-- Writes the receiver of a call and then a call of one of its members. -/
def receiverCall (site : CallSite) (name : String) (arguments : List NodeId) : Plan :=
  maybe site.receiver ++ methodCall name arguments

/-- Complains that a call has too few arguments. -/
def tooFew (site : CallSite) (callee : String) (count : Nat) : Plan :=
  [.complain site.node (.missingArguments callee count)]

end Plan

open Plan

/-! ## Idioms with a form of their own -/

/-- `unshift`: inserts in front and gives the new length. -/
def unshiftPlan (site : CallSite) : Plan :=
  .token "(" :: (maybe site.receiver ++
    match site.arguments with
    | [single] => [.token ".. insert ( 0,", .child single, .token ") ) . length"]
    | arguments =>
      .token ".. insertAll ( 0, [" :: (commas arguments ++ [.token "]) ) . length"]))

/-- One argument of `concat`, which has to be an array. -/
def concatArgumentPlan (context : Context) (argument : NodeId) : Plan :=
  (if context.isNamedType argument "lib" "Array" then []
    else [.complain argument .concatArgument]) ++
    [.token ".. addAll (", .child argument, .token ")"]

/-- `concat`: a copy of the receiver to which every argument is added. -/
def concatPlan (context : Context) (site : CallSite) : Plan :=
  .token "( new List . from (" :: (maybe site.receiver ++ .token ")" ::
    (site.arguments.flatMap (concatArgumentPlan context) ++ [.token ")"]))

/-- `reduce`: Dart's `fold` takes the initial value first. -/
def reducePlan (site : CallSite) : Plan :=
  match site.arguments with
  | [] => tooFew site "Array.reduce" 1
  | [callback] =>
    maybe site.receiver ++ [.token ". fold ( null ,", .child callback, .token ")"]
  | callback :: initial :: _ => receiverCall site "fold" [initial, callback]

/-- `Map.delete` tells whether the key was there, so the key is looked for before it is removed. -/
def mapDeletePlan (site : CallSite) : Plan :=
  .token "(" :: (receiverCall site "containsKey" site.arguments ++ .token "&& (" ::
    (receiverCall site "remove" site.arguments ++ [.token "!= null || true ) )"]))

/-- `Map.forEach` with a function as its callback: the callback takes the key first in Dart. -/
def forEachFunctionPlan (site : CallSite) (parameters : List NodeId) (body : Plan) : Plan :=
  match parameters with
  | [value, key] =>
    maybe site.receiver ++
      [.token ". forEach ( (", .child key, .token ",", .child value, .token ")"] ++
      body ++ [.token ")"]
  | _ => [.complain site.node .forEachParameters]

/-- `Map.forEach` with `callback` as its first argument. -/
def forEachPlan (context : Context) (site : CallSite) (callback : NodeId) : Plan :=
  withPayload context callback fun payload =>
    match payload with
    | .decl (.functionExpr _ parameters _ body) =>
      forEachFunctionPlan site parameters [.child body]
    | .decl (.arrow parameters _ body) =>
      forEachFunctionPlan site parameters (arrowBody context body)
    | _ =>
      maybe site.receiver ++
        [.token ". forEach ( ( k , v ) => (", .child callback, .token ") ( v , k ) )"]

/-- `forwardRef` of an arrow function: only the body is written. -/
def forwardRefPlan (context : Context) (site : CallSite) (argument : NodeId) : Plan :=
  withPayload context argument fun payload =>
    match payload with
    | .decl (.arrow _ _ body) => [.child body]
    | _ => [.complain site.node .forwardRefArgument]

/-- A map in a constant expression is an empty literal. -/
def constMapPlan (site : CallSite) : Plan :=
  (if site.arguments.isEmpty then [] else [.complain site.node .constMapArguments]) ++
    .token "const" :: (typeArguments site.typeArguments ++ [.token "{ }"])

/-- The plan of an idiom at a call, `none` when the call is written as it stands. -/
def CallIdiom.plan? (context : Context) (site : CallSite) : CallIdiom → Option Plan
  | .arrayPush => some (receiverCall site "add" site.arguments)
  | .arrayPop => some (receiverCall site "removeLast" [])
  | .arrayShift => some (maybe site.receiver ++ [.token ". removeAt ( 0 )"])
  | .arrayUnshift => some (unshiftPlan site)
  | .arrayMap => some (receiverCall site "map" site.arguments ++ methodCall "toList" [])
  | .arrayFilter => some (receiverCall site "where" site.arguments ++ methodCall "toList" [])
  | .arraySome => some (receiverCall site "any" site.arguments)
  | .arraySlice => some (namedCall "ListWrapper.slice" (site.receiver.toList ++ site.arguments))
  | .arraySplice => some (namedCall "ListWrapper.splice" (site.receiver.toList ++ site.arguments))
  | .arrayConcat => some (concatPlan context site)
  | .arrayJoin =>
    if site.arguments.isEmpty then
      some (maybe site.receiver ++ [.token ". join ( \",\" )"])
    else some (receiverCall site "join" site.arguments)
  | .arrayReduce => some (reducePlan site)
  | .arrayIsArray =>
    if site.arguments.isEmpty then some (tooFew site "Array.isArray" 1)
    else some (.token "( (" :: (commas site.arguments ++
      [.token ")", .token "is List", .token ")"]))
  | .arrayFind =>
    match site.arguments with
    | [] => some (tooFew site "Array.find" 1)
    | test :: _ => some (maybe site.receiver ++
        [.token ". firstWhere (", .child test, .token ", orElse : ( ) => null )"])
  | .regExpTest => some (receiverCall site "hasMatch" site.arguments)
  | .regExpExec =>
    some (receiverCall site "allMatches" site.arguments ++ methodCall "toList" [])
  | .mapSet =>
    match site.arguments with
    | key :: value :: _ => some (maybe site.receiver ++
        [.token "[", .child key, .token "]", .token "=", .child value])
    | _ => some (tooFew site "Map.set" 2)
  | .mapGet =>
    match site.arguments with
    | key :: _ => some (maybe site.receiver ++ [.token "[", .child key, .token "]"])
    | [] => some (tooFew site "Map.get" 1)
  | .mapHas => some (receiverCall site "containsKey" site.arguments)
  | .mapDelete => some (mapDeletePlan site)
  | .mapForEach =>
    match site.arguments with
    | callback :: _ => some (forEachPlan context site callback)
    | [] => some (tooFew site "Map.forEach" 1)
  | .constMapConstructor =>
    if context.tree.inConstExpr site.node then some (constMapPlan site) else none
  | .forwardRef =>
    match site.arguments with
    | argument :: _ => some (forwardRefPlan context site argument)
    | [] => some (tooFew site "forwardRef" 1)
  | .constExpr | .normalizeBlank => some (commas site.arguments)

/-- The plan of a property idiom on a receiver. -/
def PropertyIdiom.plan (receiver : NodeId) : PropertyIdiom → Plan
  | .mapSize => [.child receiver, .token ".", .token "length"]

/-! ## Recognition -/

/-- What the catalog has to say about a node. -/
inductive Recognition where
  /-- Nothing: the node is written as it stands. -/
  | notHandled
  /-- A candidate that could not be resolved: only a diagnostic is made. -/
  | unresolved (plan : Plan)
  /-- An idiom with its plan. -/
  | recognized (plan : Plan)
  deriving DecidableEq, Repr

/-- A callee that may be in the catalog. -/
structure Callee where
  /-- The name by which it is a candidate. -/
  name : String
  /-- The node whose symbol is asked for. -/
  node : NodeId
  /-- The expression whose member it is. -/
  receiver : Option NodeId
  deriving DecidableEq, Repr

namespace Context

/-- The callee, the type arguments and the arguments of a call or a construction. -/
def callParts? : Payload → Option (NodeId × List NodeId × List NodeId)
  | .expr (.call callee typeArguments arguments) => some (callee, typeArguments, arguments)
  | .expr (.construct callee typeArguments arguments) =>
    some (callee, typeArguments, arguments.getD [])
  | _ => none

/-- The name that a callee is known by. -/
def callee? (context : Context) (node : NodeId) : Payload → Option Callee
  | .name (.identifier text) => some ⟨text, node, none⟩
  | .expr (.propertyAccess expression name) =>
    (context.tree.identifierText? name).map fun text => ⟨text, name, some expression⟩
  | _ => none

/-- Recognizes a call by its callee. -/
def recognizeCallee (context : Context) (resolver : Resolver) (callee : Callee)
    (site : CallSite) : Recognition :=
  if callee.name ∈ context.catalog.propertyCandidates then
    match context.lookup resolver callee.name callee.node with
    | .error cause => .unresolved [.complain site.node cause]
    | .ok key =>
      match (context.catalog.calls.get? key).bind (CallIdiom.plan? context site) with
      | some plan => .recognized plan
      | none => .notHandled
  else .notHandled

/-- Recognizes a call or a construction. -/
def recognizeCall (context : Context) (call : NodeId) : Except Defect Recognition :=
  match context.resolver with
  | none => .ok .notHandled
  | some resolver =>
    match context.tree.get? call with
    | none => .error (.missing call)
    | some node =>
      match callParts? node.payload with
      | none => .ok .notHandled
      | some (calleeNode, typeArguments, arguments) =>
        match context.tree.get? calleeNode with
        | none => .error (.missing calleeNode)
        | some found =>
          match context.callee? calleeNode found.payload with
          | none => .ok .notHandled
          | some callee =>
            .ok (context.recognizeCallee resolver callee
              ⟨call, callee.receiver, typeArguments, arguments⟩)

/-- Recognizes a property by its name. -/
def recognizeName (context : Context) (resolver : Resolver)
    (access expression : NodeId) (name : NodeId) (text : String) : Recognition :=
  if text ∈ context.catalog.propertyCandidates then
    match context.lookup resolver text name with
    | .error cause => .unresolved [.complain access cause]
    | .ok key =>
      match context.catalog.properties.get? key with
      | some idiom => .recognized (idiom.plan expression)
      | none => .notHandled
  else .notHandled

/-- Recognizes a property access that is no callee. -/
def recognizeProperty (context : Context) (access : NodeId) : Except Defect Recognition :=
  match context.resolver with
  | none => .ok .notHandled
  | some resolver =>
    match context.tree.get? access with
    | none => .error (.missing access)
    | some node =>
      match node.payload with
      | .expr (.propertyAccess expression name) =>
        match context.tree.identifierText? name with
        | none => .ok .notHandled
        | some text => .ok (context.recognizeName resolver access expression name text)
      | _ => .ok .notHandled

end Context

/-- The plan of a recognition, with the plan of the node as it stands. -/
def Plan.ofRecognition (asItStands : Plan) : Except Defect Recognition → Plan
  | .error defect => [.abort defect]
  | .ok .notHandled => asItStands
  | .ok (.unresolved plan) => plan
  | .ok (.recognized plan) => plan

end Dartify
