import BlockScript.State

/-!
# The value of an expression

Evaluation goes from left to right and stops at the first node that has no value; the fault points
at that node. A text is parsed whole before anything in it is evaluated.
-/

set_option autoImplicit false

namespace BlockScript

/-- A result that may be missing because it is out of range. -/
def Value.orOverflow : Option Value → Except Cause Value
  | some v => .ok v
  | none => .error .overflow

/-- Applies a sign. -/
def Sign.apply : Sign → Value → Except Cause Value
  | .plus, a => .ok a
  | .minus, a => Value.orOverflow a.negate?

/-- Applies an operator. -/
def Operator.apply : Operator → Value → Value → Except Cause Value
  | .add, a, b => Value.orOverflow (a.add? b)
  | .subtract, a, b => Value.orOverflow (a.subtract? b)
  | .multiply, a, b => Value.orOverflow (a.multiply? b)
  | .divide, a, b => if b = 0 then .error .divisionByZero else Value.orOverflow (a.divide? b)
  | .modulo, a, b => if b = 0 then .error .divisionByZero else Value.orOverflow (a.remainder? b)

namespace Expr

/-- Blames `span` for a cause. -/
def blame {α : Type} (span : Span) : Except Cause α → Except (Cause × Span) α
  | .ok a => .ok a
  | .error cause => .error (cause, span)

/-- Reads a variable. -/
def readVariable (s : State) (name : String) : Except Cause Value :=
  match s.valueOf? name with
  | some value => .ok value
  | none => .error (.unknownIdentifier name)

/-- The value of an expression in a state, or what went wrong and at which node. -/
def eval (s : State) : Expr → Except (Cause × Span) Value
  | .number value _ => .ok value
  | .var name span => blame span (readVariable s name)
  | .element name index span => do
    let i ← index.eval s
    blame span (s.element name i)
  | .signed sign operand span => do
    let a ← operand.eval s
    blame span (sign.apply a)
  | .binary operator left right span => do
    let a ← left.eval s
    let b ← right.eval s
    blame span (operator.apply a b)

end Expr

/-- The expression that a text holds. -/
def parseText (text : String) : Except Fault Expr :=
  match Expr.parse text with
  | .ok e => .ok e
  | .error error => .error (.inText text (.syntaxError error) error.span)

/-- Points a fault of an expression at the text of the expression. -/
def Fault.within {α : Type} (text : String) : Except (Cause × Span) α → Except Fault α
  | .ok a => .ok a
  | .error (cause, span) => .error (.inText text cause span)

/-- The value of an expression text in a state. -/
def evaluate (text : String) (s : State) : Except Fault Value := do
  let e ← parseText text
  Fault.within text (e.eval s)

end BlockScript
