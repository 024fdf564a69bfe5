import BlockScript.Report.Plain

/-!
# Debug reports

Everything a report holds on a few lines: texts in quotes, lists in brackets, and faults as nested
records with all of their fields.
-/

set_option autoImplicit false

namespace BlockScript.Debug

/-- A list in brackets. -/
def list (items : List String) : String :=
  "[" ++ joinWith ", " items ++ "]"

/-- A record with named fields. -/
def record (name : String) (fields : List (String × String)) : String :=
  name ++ " \x7b " ++ joinWith ", " (fields.map fun (field, value) => field ++ ": " ++ value) ++
    " \x7d"

/-- A constructor with one argument. -/
def wrap (name value : String) : String :=
  name ++ "(" ++ value ++ ")"

/-- The name of a kind of token. -/
def tokenKind : TokenKind → String
  | .leftParenthesis => "LeftParenthesis"
  | .rightParenthesis => "RightParenthesis"
  | .leftBracket => "LeftBracket"
  | .rightBracket => "RightBracket"
  | .plus => "Plus"
  | .minus => "Minus"
  | .star => "Star"
  | .slash => "Slash"
  | .percent => "Percent"
  | .number => "Number"
  | .name => "Ident"
  | .finish => "Eof"

/-- A span. -/
def span (a : Span) : String :=
  record "Span" [("start", toString a.start), ("length", toString a.length)]

/-- The cause of a syntax error at a span. -/
def syntaxCause (place : Span) : SyntaxCause → String
  | .unexpected actual expected =>
    record "UnexpectedToken" [("actual", tokenKind actual), ("expected", tokenKind expected)]
  | .notOperand actual => wrap "NonExpression" (tokenKind actual)
  | .literalTooLarge => "LiteralTooLarge"
  | .tooDeep => "TooDeep"
  | .unrecognized character =>
    wrap "LexicalError" (record "LexicalError"
      [("kind", wrap "Unrecognized" (Text.quoteChar character)), ("span", span place)])

/-- The cause of a fault. -/
def cause : Cause → String
  | .syntaxError error =>
    wrap "SyntaxError" (record "ParserError"
      [("kind", syntaxCause error.span error.cause), ("span", span error.span)])
  | .unknownIdentifier name => wrap "UnknownIdentifier" (Text.quote name)
  | .unknownArray name => wrap "UnknownArray" (Text.quote name)
  | .invalidIdentifier text => wrap "InvalidIdentifier" (Text.quote text)
  | .undeclaredVariable name => wrap "UndeclaredVariable" (Text.quote name)
  | .undeclaredArray name => wrap "UndeclaredArray" (Text.quote name)
  | .indexOutOfBounds name index =>
    record "IndexOutOfBounds" [("name", Text.quote name), ("index", index.text)]
  | .invalidOperator text => wrap "InvalidOperator" (Text.quote text)
  | .divisionByZero => "DivisionByZero"
  | .overflow => "Overflow"
  | .invalidArraySize size => wrap "InvalidArraySize" size.text
  | .zeroStep => "ZeroStep"
  | .possibleInfiniteLoop ceiling => wrap "PossibleInfiniteLoop" (toString ceiling)
  | .incompatibleSwap => "IncompatibleSwap"
  | .invalidSwapOperand text => wrap "InvalidSwapOperand" (Text.quote text)

/-- The origin of a fault. -/
def origin : Option Origin → String
  | none => "None"
  | some o =>
    wrap "Some" (record "ExpressionOrigin" [("text", Text.quote o.text), ("span", span o.span)])

/-- A fault. -/
def fault (f : Fault) : String :=
  record "RuntimeError" [("kind", cause f.cause), ("origin", origin f.origin)]

/-- A failure. -/
def failure (f : Failure) : String :=
  record "RunError" [("statement", toString f.statement), ("error", fault f.fault)]

/-- A name with its contents. -/
def entry (name contents : String) : String :=
  "(" ++ Text.quote name ++ ", " ++ contents ++ ")"

/-- Variables, arrays and outputs, a line each. -/
def state (s : State) : String :=
  joinWith "\n"
    [list (s.vars.entries.map fun (name, value) => entry name value.text),
      list (s.arrays.entries.map fun (name, elements) => entry name (showElements elements)),
      list (s.outputs.toList.map Text.quote)]

end BlockScript.Debug
