import BlockScript.Json.Basic
import BlockScript.Program

/-!
# Reports as documents

A report as a JSON document. Members come in alphabetical order; variables, arrays and outputs in
the order of the report.
-/

set_option autoImplicit false

namespace BlockScript

/-- A failure as a record; the position is that of the origin. -/
def Failure.toJson (f : Failure) : Json :=
  .record [("code", .ofString f.fault.code), ("message", .ofString f.fault.message),
    ("position", (f.fault.origin.map fun o => Json.ofInt o.span.start).getD .null),
    ("statement", .ofInt f.statement)]

/-- An array as a record. -/
def arrayToJson (entry : String × Array Value) : Json :=
  .record [("name", .ofString entry.1),
    ("values", .array (entry.2.toList.map fun value => .ofInt value.toInt))]

/-- A variable as a record. -/
def variableToJson (entry : String × Value) : Json :=
  .record [("name", .ofString entry.1), ("value", .ofInt entry.2.toInt)]

/-- A report as a record. -/
def Report.toJson (r : Report) : Json :=
  .record [("arrays", .array (r.state.arrays.entries.map arrayToJson)),
    ("error", (r.failure.map Failure.toJson).getD .null),
    ("outputs", .array (r.state.outputs.toList.map .ofString)),
    ("variables", .array (r.state.vars.entries.map variableToJson))]

end BlockScript
