import BlockScript.Exec

/-!
# Programs

A program is a list of statements that can be edited by position and run from top to bottom. A run
ends with a report: the state it reached, and the statement that failed if one did.
-/

set_option autoImplicit false

namespace BlockScript

/-- The root statements of a program. -/
structure Program where
  statements : List Statement

namespace Program

/-! ## Editing -/

/-- No statements. -/
def empty : Program :=
  ⟨[]⟩

/-- The number of root statements. -/
def length (p : Program) : Nat :=
  p.statements.length

/-- The statement at a position. -/
def get? (p : Program) (i : Nat) : Option Statement :=
  p.statements[i]?

/-- Adds a statement at the end. -/
def push (p : Program) (s : Statement) : Program :=
  ⟨p.statements ++ [s]⟩

/-- Adds a statement at a position, or at the end if the position is past it. -/
def insert (p : Program) (i : Nat) (s : Statement) : Program :=
  ⟨p.statements.insertIdx (min i p.length) s⟩

/-- Removes the statement at a position, if there is one. -/
def remove (p : Program) (i : Nat) : Program :=
  ⟨p.statements.eraseIdx i⟩

/-- Takes the statement at a position out of a program and gives it. There is none to take past the
end, and the program stays as it is. -/
def takeOut (p : Program) (i : Nat) : Option Statement × Program :=
  if h : i < p.length then (some (p.statements.get ⟨i, h⟩), p.remove i) else (none, p)

/-- Overwrites the statement at a position, if there is one. -/
def set (p : Program) (i : Nat) (s : Statement) : Program :=
  ⟨p.statements.set i s⟩

/-- Moves the statement at `source` so that it ends up at `target`; there is no such move when a
position is past the end. -/
def move? (p : Program) (source target : Nat) : Option Program :=
  if target < p.length then
    (p.get? source).map fun s => (p.remove source).insert target s
  else none

/-- Moves a statement and tells so, or leaves a program as it is when there is no such move. -/
def move (p : Program) (source target : Nat) : Bool × Program :=
  match p.move? source target with
  | some q => (true, q)
  | none => (false, p)

end Program

/-! ## Running -/

/-- The root statement that stopped a run, and why. -/
structure Failure where
  statement : Nat
  fault : Fault
deriving DecidableEq

/-- A failure in one line. -/
def Failure.message (f : Failure) : String :=
  "Statement " ++ toString f.statement ++ ": " ++ f.fault.message

/-- How a run ended. -/
structure Report where
  state : State
  failure : Option Failure
deriving DecidableEq

namespace Program

/-- The number of times a loop may run its body when nothing else is said. -/
def defaultCeiling : Nat := 1000

/-- Runs statements that stand at position `index` and after it. -/
def runFrom (ceiling : Nat) (index : Nat) : List Statement → State → Report
  | [], s => ⟨s, none⟩
  | statement :: rest, s =>
    match statement.exec ceiling s with
    | .done s' => runFrom ceiling (index + 1) rest s'
    | .failed f s' => ⟨s', some ⟨index, f⟩⟩

/-- Runs a program on a state, up to the first statement that fails. -/
def execute (ceiling : Nat) (p : Program) (s : State) : Report :=
  runFrom ceiling 0 p.statements s

/-- Runs a program from the empty state. -/
def run (ceiling : Nat) (p : Program) : Report :=
  p.execute ceiling .empty

end Program

end BlockScript
