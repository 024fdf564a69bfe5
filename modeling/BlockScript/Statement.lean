/-!
# Statements

A program is made of statements, and some statements hold further statements. Every other part of
a statement is the text that was typed for it; nothing is parsed before the statement runs.
-/

set_option autoImplicit false

namespace BlockScript

/-- A comparison of two expressions. -/
structure Condition where
  left : String
  operator : String
  right : String
deriving DecidableEq

/-- One statement of a program. -/
inductive Statement where
  /-- Declares variables, separated by commas. -/
  | declareVariables (names : String)
  /-- Writes a variable. -/
  | assign (target expression : String)
  /-- Writes the value of an expression to the outputs. -/
  | output (expression : String)
  /-- Runs the body of the first condition that holds, or else `otherwise` if it is there. -/
  | ifElse (condition : Condition) (body : List Statement)
      (elseIfs : List (Condition × List Statement)) (otherwise : Option (List Statement))
  /-- Runs the body as long as the condition holds. -/
  | whileLoop (condition : Condition) (body : List Statement)
  /-- Runs the body for every value of a counter. -/
  | forLoop (counter first last step : String) (body : List Statement)
  /-- Declares an array of zeros. -/
  | declareArray (name size : String)
  /-- Writes an element of an array. -/
  | assignElement (name index expression : String)
  /-- Exchanges two variables or two elements. -/
  | swap (first second : String)
  /-- Replaces all elements of an array by values, separated by commas. -/
  | fill (name values : String)

namespace Statement

/-- Adds a further condition with its body to a choice. Other statements stay as they are. -/
def withElseIf (condition : Condition) (body : List Statement) : Statement → Statement
  | .ifElse c b elseIfs otherwise => .ifElse c b (elseIfs ++ [(condition, body)]) otherwise
  | s => s

/-- Sets what a choice runs when no condition holds. Other statements stay as they are. -/
def withElse (body : List Statement) : Statement → Statement
  | .ifElse c b elseIfs _ => .ifElse c b elseIfs (some body)
  | s => s

/-! ## Equality -/

mutual

/-- Whether two statements are equal, part by part. -/
def beq : Statement → Statement → Bool
  | .declareVariables a, .declareVariables b => a == b
  | .assign a x, .assign b y => a == b && x == y
  | .output x, .output y => x == y
  | .ifElse c b e o, .ifElse c' b' e' o' =>
    c == c' && beqBlock b b' && beqBranches e e' && beqOtherwise o o'
  | .whileLoop c b, .whileLoop c' b' => c == c' && beqBlock b b'
  | .forLoop v x y z b, .forLoop v' x' y' z' b' =>
    v == v' && x == x' && y == y' && z == z' && beqBlock b b'
  | .declareArray a x, .declareArray b y => a == b && x == y
  | .assignElement a i x, .assignElement b j y => a == b && i == j && x == y
  | .swap a x, .swap b y => a == b && x == y
  | .fill a x, .fill b y => a == b && x == y
  | _, _ => false

/-- Whether two lists of statements are equal. -/
def beqBlock : List Statement → List Statement → Bool
  | [], [] => true
  | a :: as, b :: bs => beq a b && beqBlock as bs
  | _, _ => false

/-- Whether the further branches of two choices are equal. -/
def beqBranches :
    List (Condition × List Statement) → List (Condition × List Statement) → Bool
  | [], [] => true
  | (c, b) :: as, (c', b') :: bs => c == c' && beqBlock b b' && beqBranches as bs
  | _, _ => false

/-- Whether the last branches of two choices are equal. -/
def beqOtherwise : Option (List Statement) → Option (List Statement) → Bool
  | none, none => true
  | some b, some b' => beqBlock b b'
  | _, _ => false

end

instance : BEq Statement :=
  ⟨beq⟩

end Statement

end BlockScript
