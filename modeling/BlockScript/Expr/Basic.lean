import BlockScript.Text.Span
import BlockScript.Value

/-!
# Expressions

An expression is a tree of operations over numbers, variables and array elements. Every node keeps
the span it is reported at: its own text for a number or a variable, name to closing bracket for an
element, the operator's token for an operation. `Expr.nodes` lists the nodes of a tree with every
child before its parent, and refers to children by their place in the list.
-/

set_option autoImplicit false

namespace BlockScript

/-- The signs an operand may carry. -/
inductive Sign where
  | plus
  | minus
deriving DecidableEq

/-- The symbol of a sign. -/
def Sign.symbol : Sign → String
  | .plus => "+"
  | .minus => "-"

/-- The operators between two operands. -/
inductive Operator where
  | multiply
  | divide
  | modulo
  | add
  | subtract
deriving DecidableEq

/-- The symbol of an operator. -/
def Operator.symbol : Operator → String
  | .multiply => "*"
  | .divide => "/"
  | .modulo => "%"
  | .add => "+"
  | .subtract => "-"

/-- An expression. -/
inductive Expr where
  | number (value : Value) (span : Span)
  | var (name : String) (span : Span)
  | element (name : String) (index : Expr) (span : Span)
  | signed (sign : Sign) (operand : Expr) (span : Span)
  | binary (operator : Operator) (left right : Expr) (span : Span)
deriving DecidableEq

namespace Expr

/-- Where a node is reported. -/
def span : Expr → Span
  | .number _ span => span
  | .var _ span => span
  | .element _ _ span => span
  | .signed _ _ span => span
  | .binary _ _ _ span => span

/-- The number of nodes on the longest path from the root to a leaf. -/
def height : Expr → Nat
  | .number _ _ => 1
  | .var _ _ => 1
  | .element _ index _ => index.height + 1
  | .signed _ operand _ => operand.height + 1
  | .binary _ left right _ => max left.height right.height + 1

/-- The number of nodes. -/
def size : Expr → Nat
  | .number _ _ => 1
  | .var _ _ => 1
  | .element _ index _ => index.size + 1
  | .signed _ operand _ => operand.size + 1
  | .binary _ left right _ => left.size + right.size + 1

end Expr

/-- A node of an expression whose children are named by their place in a list of nodes. -/
inductive Node where
  | number (value : Value) (span : Span)
  | var (name : String) (span : Span)
  | element (name : String) (index : Nat) (span : Span)
  | signed (sign : Sign) (operand : Nat) (span : Span)
  | binary (operator : Operator) (left right : Nat) (span : Span)
deriving DecidableEq

namespace Expr

/-- The nodes of a tree, children first and left to right, when `base` nodes stand before them.
The root is the last. -/
def nodesFrom (base : Nat) : Expr → List Node
  | .number value span => [.number value span]
  | .var name span => [.var name span]
  | .element name index span =>
    index.nodesFrom base ++ [.element name (base + index.size - 1) span]
  | .signed sign operand span =>
    operand.nodesFrom base ++ [.signed sign (base + operand.size - 1) span]
  | .binary operator left right span =>
    left.nodesFrom base ++ right.nodesFrom (base + left.size) ++
      [.binary operator (base + left.size - 1) (base + left.size + right.size - 1) span]

/-- The nodes of a whole tree. -/
def nodes (e : Expr) : List Node :=
  e.nodesFrom 0

theorem length_nodesFrom (base : Nat) (e : Expr) : (e.nodesFrom base).length = e.size := by
  induction e generalizing base with
  | number => rfl
  | var => rfl
  | element _ _ _ ih => simp [nodesFrom, size, ih]
  | signed _ _ _ ih => simp [nodesFrom, size, ih]
  | binary _ _ _ _ ihl ihr => simp [nodesFrom, size, ihl, ihr, Nat.add_assoc]

end Expr

end BlockScript
