/-!
# Operators and keywords

The closed word lists of the source language that nodes carry: operators of expressions, type
keywords, kinds of variables and heritage words.  Each word has the name under which trees are
stored, and `ofName?` finds the word again.  Operators also have their spelling in source text.
-/

namespace Dartify

/-- The operator of an expression with two operands. -/
inductive BinaryOperator where
  | plus | minus | times | divide | remainder
  | less | greater | lessEq | greaterEq
  | looseEq | looseNe | strictEq | strictNe
  | and | or | bitAnd | bitOr | bitXor
  | shiftLeft | shiftRight | shiftRightZero
  | assign | plusAssign | minusAssign | timesAssign | divideAssign | remainderAssign
  | bitAndAssign | bitOrAssign | bitXorAssign
  | shiftLeftAssign | shiftRightAssign | shiftRightZeroAssign
  | comma | instanceOf | within
  deriving DecidableEq, Repr

namespace BinaryOperator

/-- Every operator with two operands. -/
def all : List BinaryOperator :=
  [plus, minus, times, divide, remainder, less, greater, lessEq, greaterEq, looseEq, looseNe,
    strictEq, strictNe, and, or, bitAnd, bitOr, bitXor, shiftLeft, shiftRight, shiftRightZero,
    assign, plusAssign, minusAssign, timesAssign, divideAssign, remainderAssign, bitAndAssign,
    bitOrAssign, bitXorAssign, shiftLeftAssign, shiftRightAssign, shiftRightZeroAssign, comma,
    instanceOf, within]

/-- The stored name of an operator and its spelling. -/
def entry : BinaryOperator → String × String
  | plus => ("Plus", "+")
  | minus => ("Minus", "-")
  | times => ("Asterisk", "*")
  | divide => ("Slash", "/")
  | remainder => ("Percent", "%")
  | less => ("LessThan", "<")
  | greater => ("GreaterThan", ">")
  | lessEq => ("LessThanEquals", "<=")
  | greaterEq => ("GreaterThanEquals", ">=")
  | looseEq => ("EqualsEquals", "==")
  | looseNe => ("ExclamationEquals", "!=")
  | strictEq => ("EqualsEqualsEquals", "===")
  | strictNe => ("ExclamationEqualsEquals", "!==")
  | and => ("AmpersandAmpersand", "&&")
  | or => ("BarBar", "||")
  | bitAnd => ("Ampersand", "&")
  | bitOr => ("Bar", "|")
  | bitXor => ("Caret", "^")
  | shiftLeft => ("LessThanLessThan", "<<")
  | shiftRight => ("GreaterThanGreaterThan", ">>")
  | shiftRightZero => ("GreaterThanGreaterThanGreaterThan", ">>>")
  | assign => ("Equals", "=")
  | plusAssign => ("PlusEquals", "+=")
  | minusAssign => ("MinusEquals", "-=")
  | timesAssign => ("AsteriskEquals", "*=")
  | divideAssign => ("SlashEquals", "/=")
  | remainderAssign => ("PercentEquals", "%=")
  | bitAndAssign => ("AmpersandEquals", "&=")
  | bitOrAssign => ("BarEquals", "|=")
  | bitXorAssign => ("CaretEquals", "^=")
  | shiftLeftAssign => ("LessThanLessThanEquals", "<<=")
  | shiftRightAssign => ("GreaterThanGreaterThanEquals", ">>=")
  | shiftRightZeroAssign => ("GreaterThanGreaterThanGreaterThanEquals", ">>>=")
  | comma => ("Comma", ",")
  | instanceOf => ("InstanceOf", "instanceof")
  | within => ("In", "in")

/-- The stored name of an operator. -/
def name (operator : BinaryOperator) : String := operator.entry.1

/-- The spelling of an operator. -/
def spelling (operator : BinaryOperator) : String := operator.entry.2

/-- The operator with a stored name. -/
def ofName? (name : String) : Option BinaryOperator :=
  all.find? fun operator => operator.name == name

/-- A stored name leads back to its operator. -/
theorem ofName?_name (operator : BinaryOperator) : ofName? operator.name = some operator := by
  cases operator <;> decide

end BinaryOperator

/-- The operator in front of its operand. -/
inductive PrefixOperator where
  | plus | minus | complement | negation | increment | decrement
  deriving DecidableEq, Repr

namespace PrefixOperator

/-- Every operator in front of its operand. -/
def all : List PrefixOperator := [plus, minus, complement, negation, increment, decrement]

/-- The stored name of an operator and its spelling. -/
def entry : PrefixOperator → String × String
  | plus => ("Plus", "+")
  | minus => ("Minus", "-")
  | complement => ("Tilde", "~")
  | negation => ("Exclamation", "!")
  | increment => ("PlusPlus", "++")
  | decrement => ("MinusMinus", "--")

/-- The stored name of an operator. -/
def name (operator : PrefixOperator) : String := operator.entry.1

/-- The spelling of an operator. -/
def spelling (operator : PrefixOperator) : String := operator.entry.2

/-- The operator with a stored name. -/
def ofName? (name : String) : Option PrefixOperator :=
  all.find? fun operator => operator.name == name

/-- A stored name leads back to its operator. -/
theorem ofName?_name (operator : PrefixOperator) : ofName? operator.name = some operator := by
  cases operator <;> decide

end PrefixOperator

/-- The operator behind its operand. -/
inductive PostfixOperator where
  | increment | decrement
  deriving DecidableEq, Repr

namespace PostfixOperator

/-- Every operator behind its operand. -/
def all : List PostfixOperator := [increment, decrement]

/-- The stored name of an operator and its spelling. -/
def entry : PostfixOperator → String × String
  | increment => ("PlusPlus", "++")
  | decrement => ("MinusMinus", "--")

/-- The stored name of an operator. -/
def name (operator : PostfixOperator) : String := operator.entry.1

/-- The spelling of an operator. -/
def spelling (operator : PostfixOperator) : String := operator.entry.2

/-- The operator with a stored name. -/
def ofName? (name : String) : Option PostfixOperator :=
  all.find? fun operator => operator.name == name

/-- A stored name leads back to its operator. -/
theorem ofName?_name (operator : PostfixOperator) : ofName? operator.name = some operator := by
  cases operator <;> decide

end PostfixOperator

/-- A type that is a keyword. -/
inductive KeywordType where
  | any | number | string | boolean | void
  deriving DecidableEq, Repr

namespace KeywordType

/-- Every type keyword. -/
def all : List KeywordType := [any, number, string, boolean, void]

/-- The stored name of a type keyword. -/
def name : KeywordType → String
  | any => "Any"
  | number => "Number"
  | string => "String"
  | boolean => "Boolean"
  | void => "Void"

/-- The type keyword with a stored name. -/
def ofName? (name : String) : Option KeywordType :=
  all.find? fun keyword => keyword.name == name

/-- A stored name leads back to its type keyword. -/
theorem ofName?_name (keyword : KeywordType) : ofName? keyword.name = some keyword := by
  cases keyword <;> decide

end KeywordType

/-- The word that starts a list of variables. -/
inductive VariableKind where
  | var | blockScoped | const
  deriving DecidableEq, Repr

namespace VariableKind

/-- Every kind of variable. -/
def all : List VariableKind := [var, blockScoped, const]

/-- The stored name of a kind of variable. -/
def name : VariableKind → String
  | var => "Var"
  | blockScoped => "Let"
  | const => "Const"

/-- The kind of variable with a stored name. -/
def ofName? (name : String) : Option VariableKind :=
  all.find? fun kind => kind.name == name

/-- A stored name leads back to its kind of variable. -/
theorem ofName?_name (kind : VariableKind) : ofName? kind.name = some kind := by
  cases kind <;> decide

end VariableKind

/-- The word that starts a heritage clause. -/
inductive HeritageWord where
  | extending | implementing
  deriving DecidableEq, Repr

namespace HeritageWord

/-- Every heritage word. -/
def all : List HeritageWord := [extending, implementing]

/-- The stored name of a heritage word. -/
def name : HeritageWord → String
  | extending => "Extends"
  | implementing => "Implements"

/-- The heritage word with a stored name. -/
def ofName? (name : String) : Option HeritageWord :=
  all.find? fun word => word.name == name

/-- A stored name leads back to its heritage word. -/
theorem ofName?_name (word : HeritageWord) : ofName? word.name = some word := by
  cases word <;> decide

end HeritageWord

end Dartify
