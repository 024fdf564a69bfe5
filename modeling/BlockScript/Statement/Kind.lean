import BlockScript.Statement

/-!
# Kinds of statements

Every statement is of one of ten kinds. A kind has a tag by which it is stored, a title by which it
is shown, and the names of its fields in the order in which they are stored.
-/

set_option autoImplicit false

namespace BlockScript

namespace Statement

/-- The kinds of statements. -/
inductive Kind where
  | variableDeclaration
  | assignment
  | expression
  | if_
  | while_
  | for_
  | arrayDeclaration
  | arrayAssignment
  | swap
  | arrayFill
deriving DecidableEq

namespace Kind

/-- All kinds, in the order by which they are numbered. -/
def all : List Kind :=
  [.variableDeclaration, .assignment, .expression, .if_, .while_, .for_, .arrayDeclaration,
    .arrayAssignment, .swap, .arrayFill]

/-- How a kind is written. -/
def tag : Kind → String
  | .variableDeclaration => "variable_declaration"
  | .assignment => "assignment"
  | .expression => "expression"
  | .if_ => "if"
  | .while_ => "while"
  | .for_ => "for"
  | .arrayDeclaration => "array_declaration"
  | .arrayAssignment => "array_assignment"
  | .swap => "swap"
  | .arrayFill => "array_fill"

/-- What a statement of a kind is called. -/
def title : Kind → String
  | .variableDeclaration => "variable declaration"
  | .assignment => "assignment"
  | .expression => "expression"
  | .if_ => "if"
  | .while_ => "while"
  | .for_ => "for"
  | .arrayDeclaration => "array declaration"
  | .arrayAssignment => "array assignment"
  | .swap => "swap"
  | .arrayFill => "array fill"

/-- The fields of a kind, in order. -/
def fields : Kind → List String
  | .variableDeclaration => ["names"]
  | .assignment => ["variable", "expression"]
  | .expression => ["expression"]
  | .if_ => ["condition", "body", "else_ifs", "otherwise"]
  | .while_ => ["condition", "body"]
  | .for_ => ["variable", "from", "to", "step", "body"]
  | .arrayDeclaration => ["name", "size"]
  | .arrayAssignment => ["name", "index", "expression"]
  | .swap => ["first", "second"]
  | .arrayFill => ["name", "values"]

/-- A statement of a kind as it is before anything has been typed: texts and bodies are empty,
but a counter is called `i` and goes up by one. -/
def untouched : Kind → Statement
  | .variableDeclaration => .declareVariables ""
  | .assignment => .assign "" ""
  | .expression => .output ""
  | .if_ => .ifElse ⟨"", "", ""⟩ [] [] none
  | .while_ => .whileLoop ⟨"", "", ""⟩ []
  | .for_ => .forLoop "i" "" "" "1" []
  | .arrayDeclaration => .declareArray "" ""
  | .arrayAssignment => .assignElement "" "" ""
  | .swap => .swap "" ""
  | .arrayFill => .fill "" ""

end Kind

/-- The kind of a statement. -/
def kind : Statement → Kind
  | .declareVariables _ => .variableDeclaration
  | .assign _ _ => .assignment
  | .output _ => .expression
  | .ifElse _ _ _ _ => .if_
  | .whileLoop _ _ => .while_
  | .forLoop _ _ _ _ _ => .for_
  | .declareArray _ _ => .arrayDeclaration
  | .assignElement _ _ _ => .arrayAssignment
  | .swap _ _ => .swap
  | .fill _ _ => .arrayFill

end Statement

end BlockScript
