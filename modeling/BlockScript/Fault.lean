import BlockScript.Expr.Parser
import BlockScript.Text.Printable

/-!
# Faults

A fault is the one reason a statement stopped: a cause, and the expression text it arose in when it
arose in one. Causes carry what their messages show; every cause has a code of its own.
-/

set_option autoImplicit false

namespace BlockScript

/-- What is wrong with an expression text, without its place. -/
def SyntaxCause.message : SyntaxCause → String
  | .unexpected actual expected => "Expected " ++ expected.shown ++ " but got " ++ actual.shown
  | .notOperand actual => "Expected an operand but got " ++ actual.shown
  | .literalTooLarge => "Integer literal is too large"
  | .tooDeep => "Expression is nested too deeply"
  | .unrecognized character => "Unrecognized character " ++ Text.quoteChar character

/-- What is wrong with an expression text, and where. -/
def SyntaxError.message (e : SyntaxError) : String :=
  e.cause.message ++ " at position " ++ toString e.span.start

/-- Why a statement can stop. -/
inductive Cause where
  | syntaxError (error : SyntaxError)
  /-- A variable was read that is not bound. -/
  | unknownIdentifier (name : String)
  /-- An element was read of an array that is not bound. -/
  | unknownArray (name : String)
  /-- A text stands where a name has to be declared. -/
  | invalidIdentifier (text : String)
  /-- A variable was written that is not bound. -/
  | undeclaredVariable (name : String)
  /-- An array was written that is not bound. -/
  | undeclaredArray (name : String)
  | indexOutOfBounds (name : String) (index : Value)
  | invalidOperator (text : String)
  | divisionByZero
  | overflow
  | invalidArraySize (size : Value)
  | zeroStep
  /-- A loop wanted to run its body once more than the ceiling allows. -/
  | possibleInfiniteLoop (ceiling : Nat)
  | incompatibleSwap
  | invalidSwapOperand (text : String)
deriving DecidableEq

/-- The code of a cause. -/
def Cause.code : Cause → String
  | .syntaxError _ => "RT001"
  | .unknownIdentifier _ => "RT002"
  | .unknownArray _ => "RT003"
  | .invalidIdentifier _ => "RT004"
  | .undeclaredVariable _ => "RT005"
  | .undeclaredArray _ => "RT006"
  | .indexOutOfBounds _ _ => "RT007"
  | .invalidOperator _ => "RT008"
  | .divisionByZero => "RT009"
  | .overflow => "RT010"
  | .invalidArraySize _ => "RT011"
  | .zeroStep => "RT012"
  | .possibleInfiniteLoop _ => "RT013"
  | .incompatibleSwap => "RT014"
  | .invalidSwapOperand _ => "RT015"

/-- The message of a cause. -/
def Cause.message : Cause → String
  | .syntaxError error => "Syntax Error: " ++ error.message
  | .unknownIdentifier name => "Unknown Identifier: " ++ name
  | .unknownArray name => "Unknown Array: " ++ name
  | .invalidIdentifier text => "Invalid Identifier: '" ++ text ++ "'"
  | .undeclaredVariable name => "Undeclared Variable: " ++ name
  | .undeclaredArray name => "Undeclared Array: " ++ name
  | .indexOutOfBounds name index => "Index Out Of Bounds: " ++ name ++ "[" ++ index.text ++ "]"
  | .invalidOperator text => "Invalid Operator: '" ++ text ++ "'"
  | .divisionByZero => "Division By Zero"
  | .overflow => "Integer Overflow"
  | .invalidArraySize size => "Invalid Array Size: " ++ size.text
  | .zeroStep => "Zero Step"
  | .possibleInfiniteLoop ceiling =>
    "Possible Infinite Loop: exceeded " ++ toString ceiling ++ " iterations"
  | .incompatibleSwap => "Incompatible Swap: cannot swap a variable with an array element"
  | .invalidSwapOperand text => "Invalid Swap Operand: '" ++ text ++ "'"

/-- The expression text a fault arose in, and the part of it that is to blame. -/
structure Origin where
  text : String
  span : Span
deriving DecidableEq

/-- A cause with the expression text it arose in, if it arose in one. -/
structure Fault where
  cause : Cause
  origin : Option Origin
deriving DecidableEq

namespace Fault

/-- A fault outside of any expression. -/
def bare (cause : Cause) : Fault :=
  ⟨cause, none⟩

/-- A fault at `span` of the expression `text`. -/
def inText (text : String) (cause : Cause) (span : Span) : Fault :=
  ⟨cause, some ⟨text, span⟩⟩

/-- The message of a fault is that of its cause. -/
def message (f : Fault) : String :=
  f.cause.message

/-- The code of a fault is that of its cause. -/
def code (f : Fault) : String :=
  f.cause.code

end Fault

end BlockScript
