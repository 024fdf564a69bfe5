import BlockScript.Expr.Eval

/-!
# Places

A place is a slot of the state that can be read and written: a variable or an element of an array.
A text names a place when, apart from blank characters around it, it is a bare variable or element;
parentheses, signs and operators make an expression that is no place.
-/

set_option autoImplicit false

namespace BlockScript

/-- A variable, or an element of an array. -/
inductive Place where
  | variable (name : String)
  | element (name : String) (index : Value)
deriving DecidableEq

/-- The two kinds of places. -/
inductive PlaceKind where
  | variable
  | element
deriving DecidableEq

namespace Place

/-- The kind of a place. -/
def kind : Place → PlaceKind
  | .variable _ => .variable
  | .element _ _ => .element

/-- Whether a node covers all of `text` apart from the blank characters around it. -/
def covers (text : String) (e : Expr) : Bool :=
  let cs := text.toList
  e.span.start == Text.byteLength cs - Text.byteLength (Text.dropBlankStart cs) &&
    e.span.stop == Text.byteLength (Text.dropBlankEnd cs)

/-- Which kind of place a text names, without looking anything up. -/
def classify (text : String) : Except Fault (Option PlaceKind) := do
  let e ← parseText text
  match covers text e, e with
  | true, .var _ _ => .ok (some .variable)
  | true, .element _ _ _ => .ok (some .element)
  | _, _ => .ok none

/-- The place that a text names. The variable or element has to exist. -/
def resolve (s : State) (text : String) : Except Fault (Option Place) := do
  let e ← parseText text
  match covers text e, e with
  | true, .var name span =>
    let _ ← Fault.within text (Expr.blame span (Expr.readVariable s name))
    .ok (some (.variable name))
  | true, .element name index span =>
    let i ← Fault.within text (index.eval s)
    let _ ← Fault.within text (Expr.blame span (s.element name i))
    .ok (some (.element name i))
  | _, _ => .ok none

/-- The value at a place. -/
def read (s : State) : Place → Except Cause Value
  | .variable name => Expr.readVariable s name
  | .element name index => s.element name index

/-- Writes the value at a place. -/
def write (s : State) (value : Value) : Place → Outcome
  | .variable name => s.setVariable name value
  | .element name index => s.setElement name index value

end Place

end BlockScript
