/-!
# Idioms

The library calls and properties that have a Dart form of their own, each named for the member it
stands for.  Option files select them by name.
-/

namespace Dartify

/-- A library call or construction with a Dart form of its own. -/
inductive CallIdiom where
  | arrayPush | arrayPop | arrayShift | arrayUnshift | arrayMap | arrayFilter | arraySome
  | arraySlice | arraySplice | arrayConcat | arrayJoin | arrayReduce | arrayIsArray | arrayFind
  | regExpTest | regExpExec
  | mapSet | mapGet | mapHas | mapDelete | mapForEach
  | constMapConstructor | forwardRef | constExpr | normalizeBlank
  deriving DecidableEq, Repr

namespace CallIdiom

/-- Every call idiom. -/
def all : List CallIdiom :=
  [arrayPush, arrayPop, arrayShift, arrayUnshift, arrayMap, arrayFilter, arraySome, arraySlice,
    arraySplice, arrayConcat, arrayJoin, arrayReduce, arrayIsArray, arrayFind, regExpTest,
    regExpExec, mapSet, mapGet, mapHas, mapDelete, mapForEach, constMapConstructor, forwardRef,
    constExpr, normalizeBlank]

/-- The name of a call idiom. -/
def name : CallIdiom → String
  | arrayPush => "arrayPush"
  | arrayPop => "arrayPop"
  | arrayShift => "arrayShift"
  | arrayUnshift => "arrayUnshift"
  | arrayMap => "arrayMap"
  | arrayFilter => "arrayFilter"
  | arraySome => "arraySome"
  | arraySlice => "arraySlice"
  | arraySplice => "arraySplice"
  | arrayConcat => "arrayConcat"
  | arrayJoin => "arrayJoin"
  | arrayReduce => "arrayReduce"
  | arrayIsArray => "arrayIsArray"
  | arrayFind => "arrayFind"
  | regExpTest => "regExpTest"
  | regExpExec => "regExpExec"
  | mapSet => "mapSet"
  | mapGet => "mapGet"
  | mapHas => "mapHas"
  | mapDelete => "mapDelete"
  | mapForEach => "mapForEach"
  | constMapConstructor => "constMapConstructor"
  | forwardRef => "forwardRef"
  | constExpr => "constExpr"
  | normalizeBlank => "normalizeBlank"

/-- The call idiom with a name. -/
def ofName? (name : String) : Option CallIdiom :=
  all.find? fun idiom => idiom.name == name

end CallIdiom

/-- A library property with a Dart form of its own. -/
inductive PropertyIdiom where
  | mapSize
  deriving DecidableEq, Repr

namespace PropertyIdiom

/-- Every property idiom. -/
def all : List PropertyIdiom := [mapSize]

/-- The name of a property idiom. -/
def name : PropertyIdiom → String
  | mapSize => "mapSize"

/-- The property idiom with a name. -/
def ofName? (name : String) : Option PropertyIdiom :=
  all.find? fun idiom => idiom.name == name

end PropertyIdiom

end Dartify
