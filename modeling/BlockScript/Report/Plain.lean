import BlockScript.Program

/-!
# Plain reports

One line for every variable, then one for every array, then the outputs. A part that shows nothing
is left out with its line break.
-/

set_option autoImplicit false

namespace BlockScript

/-- Joins texts with a separator between them. -/
def joinWith (separator : String) (parts : List String) : String :=
  separator.intercalate parts

/-- The values of an array, separated by commas and in brackets. -/
def showElements (elements : Array Value) : String :=
  "[" ++ joinWith ", " (elements.toList.map Value.text) ++ "]"

/-- The line of a variable. -/
def variableLine (entry : String × Value) : String :=
  entry.1 ++ " = " ++ entry.2.text

/-- The line of an array. -/
def arrayLine (entry : String × Array Value) : String :=
  entry.1 ++ " = " ++ showElements entry.2

namespace State

/-- Variables, arrays and outputs, a line each. -/
def plain (s : State) : String :=
  let vars := joinWith "\n" (s.vars.entries.map variableLine)
  let arrays := joinWith "\n" (s.arrays.entries.map arrayLine)
  let outputs := joinWith "\n" s.outputs.toList
  joinWith "\n" ([vars, arrays, outputs].filter fun part => Text.trim part != "")

end State

/-- A fault in one line. -/
def Fault.plain (f : Fault) : String :=
  "Error: " ++ f.message

end BlockScript
