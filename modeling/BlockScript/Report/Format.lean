import BlockScript.Report.Debug
import BlockScript.Report.Snippet
import BlockScript.Report.Document

/-!
# Formats

The formats in which a value, a fault or a whole report is shown.
-/

set_option autoImplicit false

namespace BlockScript

/-- The formats of a report. -/
inductive Format where
  | basic
  | debug
  | snippet (painter : Snippet.Painter)
  | document
deriving DecidableEq

namespace Format

/-- The state at the end of a run. A document holds the failure as well. -/
def body (format : Format) (r : Report) : String :=
  match format with
  | .basic => r.state.plain
  | .debug => Debug.state r.state
  | .snippet _ => r.state.plain
  | .document => r.toJson.pretty

/-- The failure of a run, if it can be shown. -/
def failure (format : Format) (f : Failure) : Option String :=
  match format with
  | .basic => some f.fault.plain
  | .debug => some (Debug.failure f)
  | .snippet painter =>
    Snippet.render painter ("statement " ++ toString (f.statement + 1)) f.fault
  | .document => some f.toJson.compact

/-- The whole report: the state, and the failure if there is one, whichever are not empty. There is
none if the failure cannot be shown. -/
def render (format : Format) (r : Report) : Option String :=
  match format with
  | .document => some (format.body r)
  | _ => do
    let failure ← r.failure.mapM format.failure
    let parts := format.body r :: failure.toList
    some (joinWith "\n" (parts.filter (· != "")))

end Format

/-- The formats of a single value. -/
inductive ValueFormat where
  | basic
  | debug
  | snippet (painter : Snippet.Painter)
deriving DecidableEq

namespace ValueFormat

/-- A fault, if it can be shown; the snippet is named by `label`. -/
def fault (format : ValueFormat) (label : String) (f : Fault) : Option String :=
  match format with
  | .basic => some f.plain
  | .debug => some (Debug.fault f)
  | .snippet painter => Snippet.render painter label f

/-- A value or the fault that stands in its place. -/
def result (format : ValueFormat) (label : String) : Except Fault Value → Option String
  | .ok value => some value.text
  | .error f => format.fault label f

end ValueFormat

end BlockScript
