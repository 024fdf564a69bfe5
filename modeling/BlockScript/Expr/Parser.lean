import BlockScript.Expr.Token
import BlockScript.Expr.Basic
import BlockScript.Text.Words

/-!
# Reading expressions

The grammar, from loosest to tightest:

* a sum is products joined by `+` and `-`,
* a product is operands joined by `*`, `/` and `%`,
* an operand is a sign and an operand, a number, a name, a name with a sum in brackets, or a sum
  in parentheses.

Both kinds of operators associate to the left. Two limits keep trees small: at most `maxNesting`
operands are open at once, and no tree is higher than `maxHeight`. A fault is reported at the first
piece that no expression could go on with; an operand too many is reported before it is looked at.
-/

set_option autoImplicit false

namespace BlockScript

/-- Why a text is not an expression. -/
inductive SyntaxCause where
  /-- One kind of token was needed and another found. -/
  | unexpected (actual expected : TokenKind)
  /-- An operand was needed and this found. -/
  | notOperand (actual : TokenKind)
  | literalTooLarge
  | tooDeep
  | unrecognized (character : Char)
deriving DecidableEq

/-- A cause and where in the text it lies. -/
structure SyntaxError where
  cause : SyntaxCause
  span : Span
deriving DecidableEq

namespace Expr

/-- How many operands may be open at once. -/
def maxNesting : Nat := 256

/-- How high a tree may be. -/
def maxHeight : Nat := 1024

/-- What was read from the front of `pieces`, and what is left of them. -/
structure Parsed (pieces : List Piece) where
  expr : Expr
  rest : List Piece
  shorter : rest.length < pieces.length

/-- A parser of expressions. -/
abbrev Parser := (pieces : List Piece) → Except SyntaxError (Parsed pieces)

/-- The kind and place of the first piece; at the end of the text, the end itself. -/
def peek (finish : Span) : List Piece → Except SyntaxError (TokenKind × Span)
  | [] => .ok (.finish, finish)
  | .token t :: _ => .ok (t.kind, t.span)
  | .unrecognized f :: _ => .error ⟨.unrecognized f.character, f.span⟩

/-- Takes the token of kind `kind` that has to come first. -/
def expect (finish : Span) (kind : TokenKind) (pieces : List Piece) :
    Except SyntaxError (Span × { rest : List Piece // rest.length < pieces.length }) :=
  match pieces with
  | .token t :: rest =>
    if t.kind = kind then .ok (t.span, ⟨rest, by simp⟩)
    else .error ⟨.unexpected t.kind kind, t.span⟩
  | .unrecognized f :: _ => .error ⟨.unrecognized f.character, f.span⟩
  | [] => .error ⟨.unexpected .finish kind, finish⟩

/-- A new node, if it is not too high. -/
def checkHeight (e : Expr) : Except SyntaxError Expr :=
  if e.height ≤ maxHeight then .ok e else .error ⟨.tooDeep, e.span⟩

/-- The sign that a token stands for in front of an operand. -/
def sign? : TokenKind → Option Sign
  | .plus => some .plus
  | .minus => some .minus
  | _ => none

/-- The operator that a token stands for between two products. -/
def additive? : TokenKind → Option Operator
  | .plus => some .add
  | .minus => some .subtract
  | _ => none

/-- The operator that a token stands for between two operands. -/
def multiplicative? : TokenKind → Option Operator
  | .star => some .multiply
  | .slash => some .divide
  | .percent => some .modulo
  | _ => none

/-- Goes on after `left` with operators of one level and their right sides. -/
def chainFrom (operator? : TokenKind → Option Operator) (parser : Parser) (left : Expr)
    (pieces : List Piece) :
    Except SyntaxError (Expr × { rest : List Piece // rest.length ≤ pieces.length }) :=
  match pieces with
  | [] => .ok (left, ⟨[], Nat.le_refl _⟩)
  | .unrecognized f :: _ => .error ⟨.unrecognized f.character, f.span⟩
  | .token t :: rest =>
    match operator? t.kind with
    | none => .ok (left, ⟨.token t :: rest, Nat.le_refl _⟩)
    | some operator =>
      match parser rest with
      | .error fault => .error fault
      | .ok right =>
        have := right.shorter
        match checkHeight (.binary operator left right.expr t.span) with
        | .error fault => .error fault
        | .ok joined =>
          match chainFrom operator? parser joined right.rest with
          | .error fault => .error fault
          | .ok (whole, ⟨rest', le⟩) =>
            .ok (whole, ⟨rest', by simp only [List.length_cons]; omega⟩)
termination_by pieces.length
decreasing_by
  simp only [List.length_cons]
  omega

/-- Operands of `parser` joined by the operators of one level, grouped to the left. -/
def chain (operator? : TokenKind → Option Operator) (parser : Parser) : Parser :=
  fun pieces =>
    match parser pieces with
    | .error fault => .error fault
    | .ok first =>
      match chainFrom operator? parser first.expr first.rest with
      | .error fault => .error fault
      | .ok (whole, ⟨rest, le⟩) => .ok ⟨whole, rest, Nat.lt_of_le_of_lt le first.shorter⟩

/-- A sum over operands of `parser`. -/
def sum (parser : Parser) : Parser :=
  chain additive? (chain multiplicative? parser)

/-- A sum over operands of `parser` and the token that has to close it, whose place is given too. -/
def closedSum (finish : Span) (closing : TokenKind) (parser : Parser) (pieces : List Piece) :
    Except SyntaxError (Parsed pieces × Span) := do
  let inner ← sum parser pieces
  let (span, ⟨rest, lt⟩) ← expect finish closing inner.rest
  .ok (⟨inner.expr, rest, Nat.lt_trans lt inner.shorter⟩, span)

/-- An operand, when `budget` more operands may be open. -/
def operand (finish : Span) : (budget : Nat) → Parser
  | 0, pieces => do
    let (_, span) ← peek finish pieces
    .error ⟨.tooDeep, span⟩
  | budget + 1, pieces =>
    match pieces with
    | [] => .error ⟨.notOperand .finish, finish⟩
    | .unrecognized f :: _ => .error ⟨.unrecognized f.character, f.span⟩
    | .token t :: rest =>
      match sign? t.kind with
      | some sign => do
        let inner ← operand finish budget rest
        let node ← checkHeight (.signed sign inner.expr t.span)
        .ok ⟨node, inner.rest, Nat.lt_succ_of_lt inner.shorter⟩
      | none =>
        match t.kind with
        | .number =>
          match Value.ofInt? (Text.ofDigits t.lexeme) with
          | some value => .ok ⟨.number value t.span, rest, Nat.lt_succ_self _⟩
          | none => .error ⟨.literalTooLarge, t.span⟩
        | .name =>
          let name := String.ofList t.lexeme
          match rest with
          | [] => .ok ⟨.var name t.span, [], Nat.lt_succ_self _⟩
          | .unrecognized f :: _ => .error ⟨.unrecognized f.character, f.span⟩
          | .token next :: inside =>
            if next.kind = .leftBracket then do
              let (index, closing) ←
                closedSum finish .rightBracket (operand finish budget) inside
              let node ← checkHeight (.element name index.expr (t.span.merge closing))
              .ok ⟨node, index.rest, Nat.lt_succ_of_lt (Nat.lt_succ_of_lt index.shorter)⟩
            else .ok ⟨.var name t.span, .token next :: inside, Nat.lt_succ_self _⟩
        | .leftParenthesis => do
          let (inner, _) ← closedSum finish .rightParenthesis (operand finish budget) rest
          .ok ⟨inner.expr, inner.rest, Nat.lt_succ_of_lt inner.shorter⟩
        | kind => .error ⟨.notOperand kind, t.span⟩

/-- Reads the pieces of a text that ends at `finish` as one expression. -/
def ofPieces (finish : Span) (pieces : List Piece) : Except SyntaxError Expr := do
  let whole ← sum (operand finish maxNesting) pieces
  match ← peek finish whole.rest with
  | (.finish, _) => .ok whole.expr
  | (kind, span) => .error ⟨.unexpected kind .finish, span⟩

/-- Reads a whole text as one expression. -/
def parse (source : String) : Except SyntaxError Expr :=
  ofPieces (.endOf source) (Piece.scan source)

end Expr

end BlockScript
