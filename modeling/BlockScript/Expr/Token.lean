import BlockScript.Text.Span
import BlockScript.Text.Words

/-!
# Tokens of an expression

An expression text is scanned from left to right into symbols, runs of digits and names, each as
long as it can be. Blank characters separate tokens and belong to none. A character that can start
no token is reported in its place and scanning goes on after it, so that tokens and unrecognized
characters together cover everything in the text that is not blank.
-/

set_option autoImplicit false

namespace BlockScript

/-- What a token is. The end of the text counts as a token of its own where one is expected. -/
inductive TokenKind where
  | leftParenthesis
  | rightParenthesis
  | leftBracket
  | rightBracket
  | plus
  | minus
  | star
  | slash
  | percent
  | number
  | name
  | finish
deriving DecidableEq

/-- How a kind of token is shown to the user. -/
def TokenKind.shown : TokenKind → String
  | .leftParenthesis => "'('"
  | .rightParenthesis => "')'"
  | .leftBracket => "'['"
  | .rightBracket => "']'"
  | .plus => "'+'"
  | .minus => "'-'"
  | .star => "'*'"
  | .slash => "'/'"
  | .percent => "'%'"
  | .number => "number"
  | .name => "identifier"
  | .finish => "end of expression"

/-- The kinds of the one-character symbols. -/
def TokenKind.ofSymbol? : Char → Option TokenKind
  | '(' => some .leftParenthesis
  | ')' => some .rightParenthesis
  | '[' => some .leftBracket
  | ']' => some .rightBracket
  | '+' => some .plus
  | '-' => some .minus
  | '*' => some .star
  | '/' => some .slash
  | '%' => some .percent
  | _ => none

/-- A token with the text it was read from and the place of that text. -/
structure Token where
  kind : TokenKind
  lexeme : List Char
  span : Span
deriving DecidableEq

/-- A character that can start no token. -/
structure Unrecognized where
  character : Char
  span : Span
deriving DecidableEq

/-- One piece of a scanned text. -/
inductive Piece where
  | token (token : Token)
  | unrecognized (fault : Unrecognized)
deriving DecidableEq

namespace Piece

/-- The place of a piece. -/
def span : Piece → Span
  | .token t => t.span
  | .unrecognized f => f.span

/-- The text of a piece. -/
def lexeme : Piece → List Char
  | .token t => t.lexeme
  | .unrecognized f => [f.character]

/-- The piece that starts with `c` at byte `start`, when `rest` follows and `c` is not blank. -/
def read (start : Nat) (c : Char) (rest : List Char) : Piece :=
  let token (kind : TokenKind) (lexeme : List Char) : Piece :=
    .token ⟨kind, lexeme, ⟨start, Text.byteLength lexeme⟩⟩
  match TokenKind.ofSymbol? c with
  | some kind => token kind [c]
  | none =>
    if c.isDigit then token .number (c :: rest.takeWhile Char.isDigit)
    else if Text.isNameStart c then token .name (c :: rest.takeWhile Text.isNameChar)
    else .unrecognized ⟨c, ⟨start, c.utf8Size⟩⟩

/-- What `read` leaves unread. -/
def remainder (c : Char) (rest : List Char) : List Char :=
  match TokenKind.ofSymbol? c with
  | some _ => rest
  | none =>
    if c.isDigit then rest.dropWhile Char.isDigit
    else if Text.isNameStart c then rest.dropWhile Text.isNameChar
    else rest

theorem length_remainder_le (c : Char) (rest : List Char) :
    (remainder c rest).length ≤ rest.length := by
  unfold remainder
  split
  · exact Nat.le_refl _
  · split
    · exact (List.dropWhile_suffix _).length_le
    · split
      · exact (List.dropWhile_suffix _).length_le
      · exact Nat.le_refl _

/-- The pieces of a text that starts at byte `start`. -/
def scanFrom (start : Nat) : List Char → List Piece
  | [] => []
  | c :: rest =>
    if Text.isBlank c then scanFrom (start + c.utf8Size) rest
    else
      let piece := read start c rest
      piece :: scanFrom piece.span.stop (remainder c rest)
termination_by cs => cs.length
decreasing_by
  · simp
  · have := length_remainder_le c rest
    simp only [List.length_cons]
    omega

/-- The pieces of a text, in order. -/
def scan (source : String) : List Piece :=
  scanFrom 0 source.toList

end Piece

end BlockScript
