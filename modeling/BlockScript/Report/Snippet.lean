import BlockScript.Report.Plain
import BlockScript.Text.Width

/-!
# Snippets

A fault that arose in an expression is shown under the text of the expression: a headline, the text
on a numbered line, a rule under the part to blame and a note that hangs from the middle of the
rule. Rule and bend are drawn character by character of the text above, each over as many columns as
that character takes. A fault of no expression takes one line. Colours are laid over the same text:
every piece of a snippet has a colour, and a painter either applies it or leaves the piece as it is.
-/

set_option autoImplicit false

namespace BlockScript.Snippet

/-- The colours of the pieces of a snippet. -/
inductive Colour where
  | heading
  | margin
  | quiet
  | gutter
  | accent
deriving DecidableEq

/-- The terminal code of a colour. -/
def Colour.code : Colour → String
  | .heading => "31"
  | .margin => "38;5;246"
  | .quiet => "38;5;249"
  | .gutter => "38;5;240"
  | .accent => "91"

/-- Whether pieces are painted. -/
inductive Painter where
  | plain
  | terminal
deriving DecidableEq

namespace Painter

/-- Paints a piece. -/
def paint : Painter → Colour → String → String
  | .plain, _, piece => piece
  | .terminal, colour, piece => "\x1b[" ++ colour.code ++ "m" ++ piece ++ "\x1b[0m"

/-- Paints characters one by one. -/
def paintEach (p : Painter) (colour : Colour) (cs : List Char) : String :=
  String.join (cs.map fun c => p.paint colour c.toString)

end Painter

/-- What a cause amounts to. -/
def headline : Cause → String
  | .syntaxError _ => "Could not parse the expression"
  | .unknownIdentifier _ => "Read a variable that does not exist"
  | .unknownArray _ => "Read an array that does not exist"
  | .indexOutOfBounds _ _ => "Array index is out of bounds"
  | .divisionByZero => "Divided by zero"
  | .overflow => "Result does not fit in a 64-bit integer"
  | _ => "Could not run the block"

/-- The note under the part to blame. -/
def note (p : Painter) : Cause → String
  | .syntaxError error => error.cause.message
  | .unknownIdentifier name => "`" ++ p.paint .accent name ++ "` has not been declared"
  | .unknownArray name => "`" ++ p.paint .accent name ++ "` is not an array"
  | .indexOutOfBounds name index =>
    "index " ++ p.paint .accent index.text ++ " is outside of `" ++ name ++ "`"
  | .divisionByZero => "the right hand side is zero"
  | cause => cause.message

/-- The part of a text that is marked: an empty span is widened to the byte before it. -/
def marked (a : Span) : Span :=
  if a.length = 0 ∧ 0 < a.start then ⟨a.start - 1, 1⟩ else a

/-- The number of characters that start before a byte. -/
def charsBefore : List Char → Nat → Nat
  | [], _ => 0
  | _ :: _, 0 => 0
  | c :: cs, n + 1 => charsBefore cs (n + 1 - c.utf8Size) + 1

/-! ## The marked text -/

/-- The characters of a text that are marked, by position. -/
structure Mark where
  start : Nat
  length : Nat
deriving DecidableEq

namespace Mark

/-- The characters under a span of bytes. -/
def ofSpan (text : List Char) (a : Span) : Mark :=
  let start := charsBefore text a.start
  ⟨start, charsBefore text a.stop - start⟩

/-- The position behind the last marked character. -/
def stop (m : Mark) : Nat :=
  m.start + m.length

/-- The position that the note hangs from. -/
def middle (m : Mark) : Nat :=
  m.start + m.length / 2

/-- Whether the character at a position is marked. -/
def covers (m : Mark) (i : Nat) : Bool :=
  m.start ≤ i && i < m.stop

end Mark

/-- The columns that the character at a position takes. A tab reaches to the next multiple of four,
every other blank character takes one. -/
def columns (c : Char) (i : Nat) : Nat :=
  if c = '\t' then 4 - i % 4 else if Text.isBlank c then 1 else Text.columns c

/-- What is written for the character at a position: spaces for a blank one, the character itself
for any other. -/
def written (c : Char) (i : Nat) : List Char :=
  if Text.isBlank c then List.replicate (columns c i) ' ' else [c]

/-- A text with its marked characters in another colour. -/
def markedText (p : Painter) (text : List Char) (m : Mark) : String :=
  String.join (text.zipIdx.map fun (c, i) =>
    p.paintEach (if m.covers i then .accent else .quiet) (written c i))

/-! ## Rule and bend -/

/-- What is drawn below one character: the first column and how the others are filled. -/
structure Stroke where
  first : Char
  fill : Char
deriving DecidableEq

/-- A level line. -/
def Stroke.level : Stroke :=
  ⟨'─', '─'⟩

/-- A stroke over a number of columns; without a stroke they stay empty. -/
def Stroke.draw (p : Painter) (width : Nat) : Option Stroke → String
  | none => String.ofList (List.replicate width ' ')
  | some k => p.paintEach .accent ((k.first :: List.replicate width k.fill).take width)

/-- The rule below the marked characters, with the stem of the note in its middle. An empty mark has
the stem alone. -/
def rule (m : Mark) (i : Nat) : Option Stroke :=
  if i = m.middle then some (if m.length = 0 then ⟨'│', ' '⟩ else ⟨'┬', '─'⟩)
  else if m.covers i then some .level
  else none

/-- The bend from the stem to the note. -/
def bend (m : Mark) (i : Nat) : Option Stroke :=
  if i = m.middle then some ⟨'╰', '─'⟩
  else if m.middle < i then some .level
  else none

/-- The columns of the positions up to two behind the mark. A position behind the text takes one. -/
def widths (text : List Char) (m : Mark) : List Nat :=
  let count := m.stop + 2
  ((text.zipIdx.map fun (c, i) => columns c i) ++ List.replicate count 1).take count

/-- The strokes below a text. -/
def drawn (p : Painter) (text : List Char) (m : Mark) (stroke : Nat → Option Stroke) : String :=
  String.join ((widths text m).zipIdx.map fun (width, i) => Stroke.draw p width (stroke i))

/-- The lines of a snippet. -/
def lines (p : Painter) (label : String) (cause : Cause) (o : Origin) : List String :=
  let m := Mark.ofSpan o.text.toList (marked o.span)
  let text := Text.dropBlankEnd o.text.toList
  let gutter := " " ++ p.paint .gutter "  │" ++ " "
  [p.paint .heading ("[" ++ cause.code ++ "] Error:") ++ " " ++ headline cause,
    "   " ++ p.paintEach .margin ['╭', '─', '['] ++ " " ++ label ++ ":1:" ++
      toString (m.start + 1) ++ " " ++ p.paint .margin "]",
    "   " ++ p.paint .margin "│",
    " " ++ p.paint .margin "1 │" ++ " " ++ markedText p text m,
    gutter ++ drawn p text m (rule m),
    gutter ++ drawn p text m (bend m) ++ " " ++ note p cause,
    p.paint .margin "───╯"]

/-- A fault, with the expression it arose in named by a label. Whole characters are drawn, so that
there is no snippet for a mark that cuts one. -/
def render (p : Painter) (label : String) (f : Fault) : Option String :=
  match f.origin with
  | some o =>
    ((marked o.span).lexeme? o.text).map fun _ =>
      String.join ((lines p label f.cause o).map (· ++ "\n"))
  | none => some ("[" ++ f.code ++ "] " ++ p.paint .heading "Error" ++ ": " ++ f.message)

end BlockScript.Snippet
