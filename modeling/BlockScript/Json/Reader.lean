import BlockScript.Json.Basic
import BlockScript.Text.Words

/-!
# Reading JSON

A text is first cut into lexemes, and the lexemes are then read by a machine with a stack of open
arrays and objects. The grammar is followed strictly: no comments, no trailing commas or text, no
leading zeros, no raw control characters in strings, and only space, tab, line feed and carriage
return between lexemes. How deep a text nests is not limited here.
-/

set_option autoImplicit false

namespace BlockScript.Json

/-! ## Strings -/

/-- The value of a hexadecimal digit. -/
def hexDigit? (c : Char) : Option Nat :=
  if c.isDigit then some (c.toNat - '0'.toNat)
  else if 'a' ≤ c ∧ c ≤ 'f' then some (c.toNat - 'a'.toNat + 10)
  else if 'A' ≤ c ∧ c ≤ 'F' then some (c.toNat - 'A'.toNat + 10)
  else none

/-- The character that a one-letter escape stands for. -/
def shortEscape? : Char → Option Char
  | '"' => some '"'
  | '\\' => some '\\'
  | '/' => some '/'
  | 'b' => some '\x08'
  | 'f' => some '\x0c'
  | 'n' => some '\n'
  | 'r' => some '\r'
  | 't' => some '\t'
  | _ => none

/-- The codes of a string up to its closing quote, and what follows the quote. A code is that of a
character, or the 16-bit unit that an escape names. -/
def scanString : List Char → Option (List Nat × List Char)
  | [] => none
  | '"' :: rest => some ([], rest)
  | '\\' :: 'u' :: a :: b :: c :: d :: rest => do
    let a ← hexDigit? a
    let b ← hexDigit? b
    let c ← hexDigit? c
    let d ← hexDigit? d
    let (codes, rest) ← scanString rest
    some ((((a * 16 + b) * 16 + c) * 16 + d) :: codes, rest)
  | '\\' :: e :: rest => do
    let c ← shortEscape? e
    let (codes, rest) ← scanString rest
    some (c.toNat :: codes, rest)
  | c :: rest =>
    if c = '\\' ∨ c.toNat < 0x20 then none
    else do
      let (codes, rest) ← scanString rest
      some (c.toNat :: codes, rest)

/-- Whether a unit is the first half of a surrogate pair. -/
def isHighHalf (n : Nat) : Bool :=
  0xd800 ≤ n && n ≤ 0xdbff

/-- Whether a unit is the second half of a surrogate pair. -/
def isLowHalf (n : Nat) : Bool :=
  0xdc00 ≤ n && n ≤ 0xdfff

/-- The characters that codes stand for. Half of a surrogate pair stands for none. -/
def joinHalves : List Nat → Option (List Char)
  | [] => some []
  | [n] => if isHighHalf n || isLowHalf n then none else some [Char.ofNat n]
  | n :: m :: rest =>
    if isHighHalf n then
      if isLowHalf m then
        (joinHalves rest).map
          (Char.ofNat (0x10000 + (n - 0xd800) * 0x400 + (m - 0xdc00)) :: ·)
      else none
    else if isLowHalf n then none
    else (joinHalves (m :: rest)).map (Char.ofNat n :: ·)

/-- The text that codes stand for. -/
def textOfCodes (codes : List Nat) : Option String :=
  (joinHalves codes).map String.ofList

/-! ## Numbers -/

/-- The digits that a text starts with, and the rest. There has to be one. -/
def scanDigits (cs : List Char) : Option (List Char × List Char) :=
  match cs.takeWhile Char.isDigit with
  | [] => none
  | digits => some (digits, cs.dropWhile Char.isDigit)

/-- The part of a number before the point: a lone zero, or digits that start with no zero. -/
def scanWhole : List Char → Option (Nat × List Char)
  | '0' :: rest => some (0, rest)
  | cs => (scanDigits cs).map fun (digits, rest) => (Text.ofDigits digits, rest)

/-- The part of a number from the point on. -/
def scanFraction : List Char → Option (List Char × List Char)
  | '.' :: rest => scanDigits rest
  | cs => some ([], cs)

/-- The exponent of a number without its letter. -/
def scanPower : List Char → Option (Int × List Char)
  | '+' :: rest => (scanDigits rest).map fun (digits, rest) => (Text.ofDigits digits, rest)
  | '-' :: rest => (scanDigits rest).map fun (digits, rest) => (-Text.ofDigits digits, rest)
  | cs => (scanDigits cs).map fun (digits, rest) => (Text.ofDigits digits, rest)

/-- The exponent of a number, if it has one. -/
def scanExponent : List Char → Option (Option Int × List Char)
  | 'e' :: rest => (scanPower rest).map fun (e, rest) => (some e, rest)
  | 'E' :: rest => (scanPower rest).map fun (e, rest) => (some e, rest)
  | cs => some (none, cs)

/-- A number after its sign. -/
def scanUnsigned (negative : Bool) (cs : List Char) : Option (Number × List Char) := do
  let (whole, cs) ← scanWhole cs
  let (fraction, cs) ← scanFraction cs
  let (exponent, cs) ← scanExponent cs
  some (⟨negative, whole, fraction, exponent⟩, cs)

/-! ## Lexemes -/

/-- The words of a document. -/
inductive Lexeme where
  | leftBracket
  | rightBracket
  | leftBrace
  | rightBrace
  | comma
  | colon
  | null
  | bool (b : Bool)
  | number (n : Number)
  | string (text : Option String)
deriving DecidableEq

/-- The lexeme that starts with `c`, and what follows it. -/
def scanLexeme (c : Char) (rest : List Char) : Option (Lexeme × List Char) :=
  match c, rest with
  | '[', _ => some (.leftBracket, rest)
  | ']', _ => some (.rightBracket, rest)
  | '\x7b', _ => some (.leftBrace, rest)
  | '\x7d', _ => some (.rightBrace, rest)
  | ',', _ => some (.comma, rest)
  | ':', _ => some (.colon, rest)
  | 'n', 'u' :: 'l' :: 'l' :: rest => some (.null, rest)
  | 't', 'r' :: 'u' :: 'e' :: rest => some (.bool true, rest)
  | 'f', 'a' :: 'l' :: 's' :: 'e' :: rest => some (.bool false, rest)
  | '"', _ => (scanString rest).map fun (codes, rest) => (.string (textOfCodes codes), rest)
  | '-', _ => (scanUnsigned true rest).map fun (n, rest) => (.number n, rest)
  | c, _ => (scanUnsigned false (c :: rest)).map fun (n, rest) => (.number n, rest)

/-- The characters between lexemes. -/
def isSpace (c : Char) : Bool :=
  c == ' ' || c == '\t' || c == '\n' || c == '\r'

/-- The lexemes of a text. A lexeme takes at least one character, so no text has more of them than
it has characters; `n` is a bound for both. -/
def scanWithin : (n : Nat) → List Char → Option (List Lexeme)
  | _, [] => some []
  | 0, _ :: _ => none
  | n + 1, c :: rest =>
    if isSpace c then scanWithin n rest
    else do
      let (lexeme, rest) ← scanLexeme c rest
      let lexemes ← scanWithin n rest
      some (lexeme :: lexemes)

/-- The lexemes of a text. -/
def scan (cs : List Char) : Option (List Lexeme) :=
  scanWithin cs.length cs

/-! ## The machine -/

/-- An array or object that is still open, its parts newest first. -/
inductive Frame where
  | array (items : List Json)
  | object (members : List (Option String × Json)) (key : Option String)

/-- What the machine is waiting for. -/
inductive Phase where
  | value
  /-- After an opening bracket. -/
  | valueOrClose
  /-- After an opening brace. -/
  | keyOrClose
  /-- After a comma in an object with these members. -/
  | key (members : List (Option String × Json))
  | colon (members : List (Option String × Json)) (key : Option String)
  /-- A document has just ended. -/
  | ended (j : Json)

/-- The phase, and the open arrays and objects, innermost first. -/
structure Machine where
  phase : Phase
  frames : List Frame

namespace Machine

/-- The machine before the first lexeme. -/
def start : Machine :=
  ⟨.value, []⟩

/-- Starts a document. -/
def enter (frames : List Frame) : Lexeme → Option Machine
  | .leftBracket => some ⟨.valueOrClose, .array [] :: frames⟩
  | .leftBrace => some ⟨.keyOrClose, frames⟩
  | .null => some ⟨.ended .null, frames⟩
  | .bool b => some ⟨.ended (.bool b), frames⟩
  | .number n => some ⟨.ended (.number n), frames⟩
  | .string text => some ⟨.ended (.string text), frames⟩
  | _ => none

/-- Goes on after the document `j` has ended. -/
def leave (j : Json) : List Frame → Lexeme → Option Machine
  | .array items :: frames, .comma => some ⟨.value, .array (j :: items) :: frames⟩
  | .array items :: frames, .rightBracket => some ⟨.ended (.array (j :: items).reverse), frames⟩
  | .object members key :: frames, .comma => some ⟨.key ((key, j) :: members), frames⟩
  | .object members key :: frames, .rightBrace =>
    some ⟨.ended (.object ((key, j) :: members).reverse), frames⟩
  | _, _ => none

/-- Takes one lexeme. -/
def step (m : Machine) (lexeme : Lexeme) : Option Machine :=
  match m.phase, lexeme with
  | .value, _ => enter m.frames lexeme
  | .valueOrClose, .rightBracket =>
    match m.frames with
    | .array items :: frames => some ⟨.ended (.array items.reverse), frames⟩
    | _ => none
  | .valueOrClose, _ => enter m.frames lexeme
  | .keyOrClose, .rightBrace => some ⟨.ended (.object []), m.frames⟩
  | .keyOrClose, .string key => some ⟨.colon [] key, m.frames⟩
  | .key members, .string key => some ⟨.colon members key, m.frames⟩
  | .colon members key, .colon => some ⟨.value, .object members key :: m.frames⟩
  | .ended j, _ => leave j m.frames lexeme
  | _, _ => none

/-- Takes lexemes in turn. -/
def run : Machine → List Lexeme → Option Machine
  | m, [] => some m
  | m, lexeme :: rest => (m.step lexeme).bind (run · rest)

/-- The document, when nothing is open any more. -/
def result? (m : Machine) : Option Json :=
  match m.phase, m.frames with
  | .ended j, [] => some j
  | _, _ => none

end Machine

/-- The document that lexemes spell. -/
def ofLexemes? (lexemes : List Lexeme) : Option Json :=
  (Machine.start.run lexemes).bind Machine.result?

/-- The document that a text holds. -/
def read? (text : String) : Option Json :=
  (scan text.toList).bind ofLexemes?

end BlockScript.Json
