import BlockScript.Json.Basic
import BlockScript.Program
import BlockScript.Statement.Kind

/-!
# Program files

A program is stored as a JSON document: its statements, and optionally the ceiling for its loops.
Every part is a record, and all fields of a record are written, in a fixed order. The kind of a
statement comes before its fields.
-/

set_option autoImplicit false

namespace BlockScript

/-- Settings that a program can bring along. -/
structure Config where
  /-- How often a loop may run its body. -/
  maxIterations : UInt64
deriving DecidableEq

/-- A program with its settings. -/
structure ProgramFile where
  config : Option Config
  program : Program

/-- The ceiling for loops that a program file asks for, or else the default. -/
def ProgramFile.ceiling (f : ProgramFile) : Nat :=
  match f.config with
  | some config => config.maxIterations.toNat
  | none => Program.defaultCeiling

/-! ## Writing -/

/-- A condition as a record. -/
def Condition.toJson (c : Condition) : Json :=
  .record [("left", .ofString c.left), ("operator", .ofString c.operator),
    ("right", .ofString c.right)]

namespace Statement

/-- A statement of a kind with the documents of its fields. -/
def tagged (kind : Kind) (values : List Json) : Json :=
  .record (("kind", .ofString kind.tag) :: kind.fields.zip values)

/-- A further branch of a choice as a record. -/
def branchToJson (condition : Condition) (body : List Json) : Json :=
  .record [("condition", condition.toJson), ("body", .array body)]

mutual

/-- A statement as a record. -/
def toJson : Statement → Json
  | .declareVariables names => tagged .variableDeclaration [.ofString names]
  | .assign target expression => tagged .assignment [.ofString target, .ofString expression]
  | .output expression => tagged .expression [.ofString expression]
  | .ifElse condition body elseIfs otherwise =>
    tagged .if_ [condition.toJson, .array (blockToJson body), .array (branchesToJson elseIfs),
      otherwiseToJson otherwise]
  | .whileLoop condition body => tagged .while_ [condition.toJson, .array (blockToJson body)]
  | .forLoop counter first last step body =>
    tagged .for_ [.ofString counter, .ofString first, .ofString last, .ofString step,
      .array (blockToJson body)]
  | .declareArray name size => tagged .arrayDeclaration [.ofString name, .ofString size]
  | .assignElement name index expression =>
    tagged .arrayAssignment [.ofString name, .ofString index, .ofString expression]
  | .swap first second => tagged .swap [.ofString first, .ofString second]
  | .fill name values => tagged .arrayFill [.ofString name, .ofString values]

/-- The documents of a list of statements. -/
def blockToJson : List Statement → List Json
  | [] => []
  | s :: rest => s.toJson :: blockToJson rest

/-- The documents of the further branches of a choice. -/
def branchesToJson : List (Condition × List Statement) → List Json
  | [] => []
  | (condition, body) :: rest => branchToJson condition (blockToJson body) :: branchesToJson rest

/-- The document of the last branch of a choice. -/
def otherwiseToJson : Option (List Statement) → Json
  | none => .null
  | some body => .array (blockToJson body)

end

end Statement

/-- A program as an array. -/
def Program.toJson (p : Program) : Json :=
  .array (Statement.blockToJson p.statements)

/-- Settings as a record. -/
def Config.toJson (c : Config) : Json :=
  .record [("max_iterations", .ofInt c.maxIterations.toNat)]

/-- A program file as a record. -/
def ProgramFile.toJson (f : ProgramFile) : Json :=
  .record [("config", (f.config.map Config.toJson).getD .null), ("statements", f.program.toJson)]

/-- Writes a program file. -/
def ProgramFile.encode (f : ProgramFile) : String :=
  f.toJson.compact

end BlockScript
