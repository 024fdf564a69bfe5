import BlockScript.Bindings
import BlockScript.Fault

/-!
# The state of a run

A state holds variables, arrays and the lines written so far. Variables and arrays live in separate
name spaces. A step on a state either is done, with a new state, or fails with a fault and the state
it had reached; the operations here leave the state as it was when they fail.
-/

set_option autoImplicit false

namespace BlockScript

/-- Variables, arrays and outputs of a run. -/
structure State where
  vars : Bindings Value
  arrays : Bindings (Array Value)
  outputs : Array String
deriving DecidableEq

/-- How a step on a state ends. -/
inductive Outcome where
  | done (state : State)
  | failed (fault : Fault) (state : State)
deriving DecidableEq

namespace Outcome

/-- The state at the end, done or failed. -/
def state : Outcome → State
  | .done s => s
  | .failed _ s => s

/-- The fault, if the step failed. -/
def fault? : Outcome → Option Fault
  | .done _ => none
  | .failed f _ => some f

/-- Goes on with `next` unless the step failed. -/
def andThen (o : Outcome) (next : State → Outcome) : Outcome :=
  match o with
  | .done s => next s
  | .failed f s => .failed f s

/-- Goes on with what was computed from the state `s`, or fails there. -/
@[inline] def given {α : Type} (s : State) (computed : Except Fault α) (next : α → Outcome) :
    Outcome :=
  match computed with
  | .ok a => next a
  | .error f => .failed f s

@[simp] theorem done_andThen (s : State) (next : State → Outcome) :
    (done s).andThen next = next s := rfl

@[simp] theorem failed_andThen (f : Fault) (s : State) (next : State → Outcome) :
    (failed f s).andThen next = failed f s := rfl

end Outcome

namespace State

/-- Nothing declared and nothing written. -/
def empty : State :=
  ⟨.empty, .empty, #[]⟩

/-- The most elements a declared array can have. -/
def maxArrayLength : Nat := 1048576

/-! ## Variables -/

/-- The value of a variable. -/
def valueOf? (s : State) (name : String) : Option Value :=
  s.vars.get? name

/-- Binds a variable, declared or not. -/
def bindVariable (s : State) (name : String) (value : Value) : State :=
  { s with vars := s.vars.insert name value }

/-- Declares a variable with the value zero. -/
def declareVariable (s : State) (name : String) : State :=
  s.bindVariable name 0

/-- Unbinds a variable. -/
def removeVariable (s : State) (name : String) : State :=
  { s with vars := s.vars.erase name }

/-- Writes a declared variable. -/
def setVariable (s : State) (name : String) (value : Value) : Outcome :=
  if s.vars.contains name then .done (s.bindVariable name value)
  else .failed (.bare (.undeclaredVariable name)) s

/-! ## Arrays -/

/-- The elements of an array. -/
def elementsOf? (s : State) (name : String) : Option (Array Value) :=
  s.arrays.get? name

/-- Declares an array of zeros. -/
def declareArray (s : State) (name : String) (size : Value) : Outcome :=
  if 0 < size.toInt ∧ size.toInt ≤ maxArrayLength then
    .done { s with arrays := s.arrays.insert name (Array.replicate size.toInt.toNat 0) }
  else .failed (.bare (.invalidArraySize size)) s

/-- The position that an index names in an array of `length` elements. -/
def position? (index : Value) (length : Nat) : Option Nat :=
  if 0 ≤ index.toInt ∧ index.toInt < length then some index.toInt.toNat else none

/-- Reads an element. -/
def element (s : State) (name : String) (index : Value) : Except Cause Value :=
  match s.arrays.get? name with
  | none => .error (.unknownArray name)
  | some elements =>
    match (position? index elements.size).bind (elements[·]?) with
    | none => .error (.indexOutOfBounds name index)
    | some value => .ok value

/-- Writes an element of a declared array. -/
def setElement (s : State) (name : String) (index value : Value) : Outcome :=
  match (s.arrays.get? name).map Array.size with
  | none => .failed (.bare (.undeclaredArray name)) s
  | some length =>
    match position? index length with
    | none => .failed (.bare (.indexOutOfBounds name index)) s
    | some i =>
      .done { s with arrays := s.arrays.modify name fun elements => elements.setIfInBounds i value }

/-- Replaces all elements of a declared array. The length may change. -/
def replaceArray (s : State) (name : String) (elements : Array Value) : Outcome :=
  if s.arrays.contains name then
    .done { s with arrays := s.arrays.modify name fun _ => elements }
  else .failed (.bare (.undeclaredArray name)) s

/-! ## Outputs -/

/-- Writes a line. -/
def appendOutput (s : State) (line : String) : State :=
  { s with outputs := s.outputs.push line }

end State

end BlockScript
