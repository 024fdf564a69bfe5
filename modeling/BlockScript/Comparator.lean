import BlockScript.Fault

/-!
# Comparators

The six comparisons of a condition, by the symbol that is typed for them. Blank characters around
a symbol do not count.
-/

set_option autoImplicit false

namespace BlockScript

/-- A comparison of two values. -/
inductive Comparator where
  | greater
  | less
  | equal
  | notEqual
  | greaterOrEqual
  | lessOrEqual
deriving DecidableEq

namespace Comparator

/-- The symbol of a comparison. -/
def symbol : Comparator → String
  | .greater => ">"
  | .less => "<"
  | .equal => "=="
  | .notEqual => "!="
  | .greaterOrEqual => ">="
  | .lessOrEqual => "<="

/-- Whether the comparison holds. -/
def compare (c : Comparator) (a b : Value) : Bool :=
  match c with
  | .greater => b < a
  | .less => a < b
  | .equal => a == b
  | .notEqual => a != b
  | .greaterOrEqual => b ≤ a
  | .lessOrEqual => a ≤ b

/-- Every comparison. -/
def all : List Comparator :=
  [.greater, .less, .equal, .notEqual, .greaterOrEqual, .lessOrEqual]

/-- The comparison that a text stands for. -/
def parse (text : String) : Except Cause Comparator :=
  let symbol := Text.trim text
  match all.find? (·.symbol == symbol) with
  | some c => .ok c
  | none => .error (.invalidOperator symbol)

end Comparator

end BlockScript
