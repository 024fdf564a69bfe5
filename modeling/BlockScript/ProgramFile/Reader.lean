import BlockScript.Json.Reader
import BlockScript.Json.Sound
import BlockScript.ProgramFile

/-!
# Reading program files

Reading is more generous than writing: the members of a record may come in any order, members that
it does not have are skipped, fields with a default may be missing, and a record may be an array of
its fields instead of an object. A member that occurs twice is refused.

A statement is read only if it is sound and nests no deeper than the limit, the arrays and objects
around it included; what is skipped outside of statements is not held to that.
-/

set_option autoImplicit false

namespace BlockScript

/-- How deep arrays and objects may nest. -/
def maxDepth : Nat := 127

/-! ## Records -/

namespace Json

/-- The value of a member that may be missing but not occur twice. -/
def member? (name : String) (members : List (Option String × Json)) : Option (Option Json) :=
  match members.filter fun (key, _) => key == some name with
  | [] => some none
  | [(_, value)] => some (some value)
  | _ => none

/-- The values of the fields `names` of a record, in either of its two forms. -/
def fields? (names : List String) : Json → Option (List (Option Json))
  | .object members =>
    if members.all fun (key, _) => key.isSome then names.mapM (member? · members) else none
  | .array items =>
    if items.length ≤ names.length then
      some (items.map some ++ List.replicate (names.length - items.length) none)
    else none
  | _ => none

end Json

/-! ## Reading -/

/-- Reads a condition. -/
def Condition.ofJson? (j : Json) : Option Condition :=
  match Json.fields? ["left", "operator", "right"] j with
  | some [some (.string (some left)), some (.string (some operator)),
      some (.string (some right))] => some ⟨left, operator, right⟩
  | _ => none

namespace Statement

/-- Reads a kind. Inside another statement its number will do. -/
def Kind.ofJson? (nested : Bool) : Json → Option Kind
  | .string (some tag) => Kind.all.find? (·.tag == tag)
  | .number n => if nested then n.natural?.bind (Kind.all[·]?) else none
  | _ => none

/-- Takes the kind off a statement; the rest is a record of the fields of that kind. -/
def untag? (nested : Bool) : Json → Option (Kind × Json)
  | .object members => do
    let tag ← Json.member? "kind" members
    let kind ← Kind.ofJson? nested (← tag)
    some (kind, .object members)
  | .array (tag :: items) => do
    let kind ← Kind.ofJson? nested tag
    some (kind, .array items)
  | _ => none

/-- Reads a list of statements with a reader of statements. It is empty if it is missing. -/
def blockOfJson? (read : Json → Option Statement) : Option Json → Option (List Statement)
  | none => some []
  | some (.array items) => items.mapM read
  | some _ => none

/-- Reads a further branch of a choice with a reader of statements. -/
def branchOfJson? (read : Json → Option Statement) (j : Json) :
    Option (Condition × List Statement) :=
  match Json.fields? ["condition", "body"] j with
  | some [some condition, body] => do
    let condition ← Condition.ofJson? condition
    let body ← blockOfJson? read body
    some (condition, body)
  | _ => none

/-- Reads the further branches of a choice with a reader of statements. -/
def branchesOfJson? (read : Json → Option Statement) :
    Option Json → Option (List (Condition × List Statement))
  | none => some []
  | some (.array items) => items.mapM (branchOfJson? read)
  | some _ => none

/-- Reads the last branch of a choice with a reader of statements. -/
def otherwiseOfJson? (read : Json → Option Statement) :
    Option Json → Option (Option (List Statement))
  | none => some none
  | some .null => some none
  | some j => (blockOfJson? read (some j)).map some

/-- Reads the fields of a statement of a kind, its bodies with a reader of statements. -/
def ofFields? (read : Json → Option Statement) : Kind → List (Option Json) → Option Statement
  | .variableDeclaration, [some (.string (some names))] => some (.declareVariables names)
  | .assignment, [some (.string (some target)), some (.string (some expression))] =>
    some (.assign target expression)
  | .expression, [some (.string (some expression))] => some (.output expression)
  | .if_, [some condition, body, elseIfs, otherwise] => do
    let condition ← Condition.ofJson? condition
    let body ← blockOfJson? read body
    let elseIfs ← branchesOfJson? read elseIfs
    let otherwise ← otherwiseOfJson? read otherwise
    some (.ifElse condition body elseIfs otherwise)
  | .while_, [some condition, body] => do
    let condition ← Condition.ofJson? condition
    let body ← blockOfJson? read body
    some (.whileLoop condition body)
  | .for_, [some (.string (some counter)), some (.string (some first)),
      some (.string (some last)), step, body] => do
    let step ← match step with
      | none => some "1"
      | some (.string (some step)) => some step
      | some _ => none
    let body ← blockOfJson? read body
    some (.forLoop counter first last step body)
  | .arrayDeclaration, [some (.string (some name)), some (.string (some size))] =>
    some (.declareArray name size)
  | .arrayAssignment, [some (.string (some name)), some (.string (some index)),
      some (.string (some expression))] => some (.assignElement name index expression)
  | .swap, [some (.string (some first)), some (.string (some second))] =>
    some (.swap first second)
  | .arrayFill, [some (.string (some name)), some (.string (some values))] =>
    some (.fill name values)
  | _, _ => none

/-- Reads a statement that holds at most `n` levels of statements. -/
def ofJsonWithin? : (n : Nat) → (nested : Bool) → Json → Option Statement
  | 0, _, _ => none
  | n + 1, nested, j => do
    let (kind, record) ← untag? nested j
    let fields ← Json.fields? kind.fields record
    ofFields? (ofJsonWithin? n true) kind fields

/-- Reads a statement that may nest `room` deep. -/
def ofJson? (room : Nat) (j : Json) : Option Statement :=
  if j.isSound ∧ j.depth ≤ room then ofJsonWithin? j.depth false j else none

/-- Reads a further branch of a choice on its own. -/
def branchOfRoot? (room : Nat) (j : Json) : Option (Condition × List Statement) :=
  branchOfJson? (ofJson? (room - 2)) j

end Statement

/-- Reads a program. -/
def Program.ofJson? (room : Nat) : Json → Option Program
  | .array items => (items.mapM (Statement.ofJson? (room - 1))).map Program.mk
  | _ => none

/-- Reads settings. -/
def Config.ofJson? (j : Json) : Option Config :=
  match Json.fields? ["max_iterations"] j with
  | some [none] => some ⟨Program.defaultCeiling.toUInt64⟩
  | some [some (.number n)] =>
    match n.natural? with
    | some value => if value < UInt64.size then some ⟨value.toUInt64⟩ else none
    | none => none
  | _ => none

/-- Reads a program file. -/
def ProgramFile.ofJson? (room : Nat) (j : Json) : Option ProgramFile :=
  match Json.fields? ["config", "statements"] j with
  | some [config, some statements] => do
    let config ← match config with
      | none => some none
      | some .null => some none
      | some j => (Config.ofJson? j).map some
    let program ← Program.ofJson? (room - 1) statements
    some ⟨config, program⟩
  | _ => none

/-- Reads the text of a program file. -/
def ProgramFile.decode? (text : String) : Option ProgramFile :=
  (Json.read? text).bind (ProgramFile.ofJson? maxDepth)

end BlockScript
