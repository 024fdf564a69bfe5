import BlockScript.Place
import BlockScript.Comparator
import BlockScript.Statement

/-!
# Running statements

A statement is run on a state under a ceiling: the number of times that any single loop may run
its body. A block is run statement by statement and stops at the first that fails, with whatever
was changed before it.
-/

set_option autoImplicit false

namespace BlockScript

open Outcome

/-- Turns a cause into a fault outside of any expression. -/
def Fault.ofCause {α : Type} : Except Cause α → Except Fault α
  | .ok a => .ok a
  | .error cause => .error (.bare cause)

/-- Whether a condition holds: the left side is evaluated, then the right side, and only then is
the operator looked at. -/
def Condition.holds (c : Condition) (s : State) : Except Fault Bool := do
  let a ← evaluate c.left s
  let b ← evaluate c.right s
  let comparator ← Fault.ofCause (Comparator.parse c.operator)
  .ok (comparator.compare a b)

/-! ## Loops -/

/-- Runs `body` while `test` holds, `n` more times at most. -/
def repeatWhile (ceiling : Nat) (test : State → Except Fault Bool) (body : State → Outcome) :
    (n : Nat) → State → Outcome
  | 0, s => given s (test s) fun again =>
    if again then .failed (.bare (.possibleInfiniteLoop ceiling)) s else .done s
  | n + 1, s => given s (test s) fun again =>
    if again then
      match body s with
      | .done s' => repeatWhile ceiling test body n s'
      | .failed f s' => .failed f s'
    else .done s

/-- Whether a counter has not passed the last value, going by `step`. -/
def notPassed (step last current : Value) : Bool :=
  (0 < step && current ≤ last) || (step < 0 && last ≤ current)

/-- Runs `body` for every value of the counter from `current` on, `n` more times at most. A counter
that would leave the range of values has passed every last value. -/
def repeatFor (ceiling : Nat) (counter : String) (step last : Value) (body : State → Outcome) :
    (n : Nat) → (current : Value) → State → Outcome
  | 0, current, s =>
    if notPassed step last current then .failed (.bare (.possibleInfiniteLoop ceiling)) s
    else .done s
  | n + 1, current, s =>
    if notPassed step last current then
      match body (s.bindVariable counter current) with
      | .failed f s' => .failed f s'
      | .done s' =>
        match Value.add? current step with
        | none => .done s'
        | some next => repeatFor ceiling counter step last body n next s'
    else .done s

/-- Gives the counter of a loop back the value it had before, if it had one. -/
def restoreVariable (name : String) (before : Option Value) (s : State) : State :=
  match before with
  | some value => s.bindVariable name value
  | none => s.removeVariable name

/-! ## Statements without a body -/

/-- Declares all variables of a list, or none if one of the names is no name. -/
def runDeclareVariables (names : String) (s : State) : Outcome :=
  let names := Text.splitList names
  match names.find? fun name => !Text.isName name with
  | some name => .failed (.bare (.invalidIdentifier name)) s
  | none => .done (names.foldl State.declareVariable s)

/-- Declares an array; its name is looked at before its size. -/
def runDeclareArray (name size : String) (s : State) : Outcome :=
  let name := Text.trim name
  if Text.isName name then given s (evaluate size s) (s.declareArray name)
  else .failed (.bare (.invalidIdentifier name)) s

/-- Writes an element of an array. -/
def runAssignElement (name index expression : String) (s : State) : Outcome :=
  given s (evaluate index s) fun i =>
  given s (evaluate expression s) fun value =>
  s.setElement (Text.trim name) i value

/-- Replaces the elements of an array; all values are computed before any is stored. -/
def runFill (name values : String) (s : State) : Outcome :=
  let name := Text.trim name
  if s.arrays.contains name then
    given s ((Text.splitList values).mapM (evaluate · s)) fun elements =>
    s.replaceArray name elements.toArray
  else .failed (.bare (.undeclaredArray name)) s

/-- The fault of a text that is no place. -/
def orNoOperand {α : Type} (text : String) : Option α → Except Fault α
  | some a => .ok a
  | none => .error (.bare (.invalidSwapOperand text))

/-- Exchanges the values at two places of one kind, both found before anything is written. -/
def runSwap (first second : String) (s : State) : Outcome :=
  let first := Text.trim first
  let second := Text.trim second
  given s (Place.classify first >>= orNoOperand first) fun firstKind =>
  given s (Place.classify second >>= orNoOperand second) fun secondKind =>
  if firstKind = secondKind then
    given s (Place.resolve s first >>= orNoOperand first) fun p =>
    given s (Place.resolve s second >>= orNoOperand second) fun q =>
    given s (Fault.ofCause (Place.read s p)) fun a =>
    given s (Fault.ofCause (Place.read s q)) fun b =>
    (Place.write s b p).andThen fun s' => Place.write s' a q
  else .failed (.bare .incompatibleSwap) s

/-! ## All statements -/

namespace Statement

mutual

/-- Runs a statement. -/
def exec (ceiling : Nat) : Statement → State → Outcome
  | .declareVariables names, s => runDeclareVariables names s
  | .assign target expression, s =>
    given s (evaluate expression s) (s.setVariable (Text.trim target))
  | .output expression, s =>
    given s (evaluate expression s) fun value =>
    .done (s.appendOutput ("answer = " ++ value.text))
  | .ifElse condition body elseIfs otherwise, s =>
    given s (condition.holds s) fun holds =>
    if holds then execBlock ceiling body s
    else execBranches ceiling elseIfs (execOtherwise ceiling otherwise) s
  | .whileLoop condition body, s =>
    repeatWhile ceiling condition.holds (execBlock ceiling body) ceiling s
  | .forLoop counter first last step body, s =>
    given s (evaluate first s) fun first =>
    given s (evaluate last s) fun last =>
    given s (evaluate step s) fun step =>
    let counter := Text.trim counter
    if !Text.isName counter then .failed (.bare (.invalidIdentifier counter)) s
    else if step = 0 then .failed (.bare .zeroStep) s
    else
      let before := s.valueOf? counter
      (repeatFor ceiling counter step last (execBlock ceiling body) ceiling first s).andThen
        fun s' => .done (restoreVariable counter before s')
  | .declareArray name size, s => runDeclareArray name size s
  | .assignElement name index expression, s => runAssignElement name index expression s
  | .swap first second, s => runSwap first second s
  | .fill name values, s => runFill name values s

/-- Runs statements in turn. -/
def execBlock (ceiling : Nat) : List Statement → State → Outcome
  | [], s => .done s
  | statement :: rest, s =>
    match exec ceiling statement s with
    | .done s' => execBlock ceiling rest s'
    | .failed f s' => .failed f s'

/-- Runs the first branch whose condition holds, or `fallback`. -/
def execBranches (ceiling : Nat) :
    List (Condition × List Statement) → (fallback : State → Outcome) → State → Outcome
  | [], fallback, s => fallback s
  | (condition, body) :: rest, fallback, s =>
    given s (condition.holds s) fun holds =>
    if holds then execBlock ceiling body s else execBranches ceiling rest fallback s

/-- Runs the last branch, if it is there. -/
def execOtherwise (ceiling : Nat) : Option (List Statement) → State → Outcome
  | none, s => .done s
  | some body, s => execBlock ceiling body s

end

end Statement

end BlockScript
