/-!
# JSON documents

A document keeps everything a reader of it can tell apart: the order of members, members that occur
twice, and how a number is written. A string escape may name half of a surrogate pair, so that the
string is no text; such a string is kept as `none`.

`compact` writes a document without any space, `pretty` with one member or item a line.
-/

set_option autoImplicit false

namespace BlockScript

/-- A number as it is written. -/
structure Json.Number where
  negative : Bool
  whole : Nat
  /-- The digits after the point; there is no point if there are none. -/
  fraction : List Char
  exponent : Option Int
deriving DecidableEq

/-- A JSON document. -/
inductive Json where
  | null
  | bool (b : Bool)
  | number (n : Json.Number)
  | string (text : Option String)
  | array (items : List Json)
  | object (members : List (Option String × Json))

namespace Json

namespace Number

/-- An integer, written without point and exponent. -/
def ofInt (n : Int) : Number :=
  ⟨decide (n < 0), n.natAbs, [], none⟩

/-- The value of a number that is written as a natural number. -/
def natural? (n : Number) : Option Nat :=
  if n.negative = false ∧ n.fraction = [] ∧ n.exponent = none then some n.whole else none

/-- The digits of a number as it is written. -/
def chars (n : Number) : List Char :=
  (if n.negative then ['-'] else []) ++ Nat.toDigits 10 n.whole ++
    (if n.fraction = [] then [] else '.' :: n.fraction) ++
    match n.exponent with
    | none => []
    | some e => 'e' :: (if e < 0 then ['-'] else []) ++ Nat.toDigits 10 e.natAbs

end Number

/-- A text. -/
def ofString (s : String) : Json :=
  .string (some s)

/-- An integer. -/
def ofInt (n : Int) : Json :=
  .number (.ofInt n)

/-- An object with texts as keys. -/
def record (members : List (String × Json)) : Json :=
  .object (members.map fun (key, value) => (some key, value))

/-! ## Depth -/

mutual

/-- How many arrays and objects are open at once. -/
def depth : Json → Nat
  | .null => 0
  | .bool _ => 0
  | .number _ => 0
  | .string _ => 0
  | .array items => depthItems items + 1
  | .object members => depthMembers members + 1

/-- The greatest depth among items. -/
def depthItems : List Json → Nat
  | [] => 0
  | item :: rest => max item.depth (depthItems rest)

/-- The greatest depth among members. -/
def depthMembers : List (Option String × Json) → Nat
  | [] => 0
  | (_, value) :: rest => max value.depth (depthMembers rest)

end

/-! ## Writing -/

/-- A character inside a string: quote, backslash and control characters are escaped. -/
def escape (c : Char) : List Char :=
  if c = '"' then ['\\', '"']
  else if c = '\\' then ['\\', '\\']
  else if c = '\x08' then ['\\', 'b']
  else if c = '\x0c' then ['\\', 'f']
  else if c = '\n' then ['\\', 'n']
  else if c = '\r' then ['\\', 'r']
  else if c = '\t' then ['\\', 't']
  else if c.toNat < 0x20 then
    ['\\', 'u', '0', '0', Nat.digitChar (c.toNat / 16), Nat.digitChar (c.toNat % 16)]
  else [c]

/-- A string in quotes. A string that is no text is written as half of a surrogate pair. -/
def quoteChars : Option String → List Char
  | some s => '"' :: s.toList.flatMap escape ++ ['"']
  | none => ['"', '\\', 'u', 'd', '8', '0', '0', '"']

/-- A document that holds no other document. -/
def scalarChars : Json → List Char
  | .null => ['n', 'u', 'l', 'l']
  | .bool true => ['t', 'r', 'u', 'e']
  | .bool false => ['f', 'a', 'l', 's', 'e']
  | .number n => n.chars
  | .string text => quoteChars text
  | .array _ => []
  | .object _ => []

mutual

/-- A document without any space. -/
def compactChars : Json → List Char
  | .array items => '[' :: compactItems items ++ [']']
  | .object members => '\x7b' :: compactMembers members ++ ['\x7d']
  | scalar => scalarChars scalar

/-- Items, separated by commas. -/
def compactItems : List Json → List Char
  | [] => []
  | [item] => compactChars item
  | item :: next :: rest => compactChars item ++ ',' :: compactItems (next :: rest)

/-- Members, separated by commas. -/
def compactMembers : List (Option String × Json) → List Char
  | [] => []
  | [(key, value)] => quoteChars key ++ ':' :: compactChars value
  | (key, value) :: next :: rest =>
    quoteChars key ++ ':' :: compactChars value ++ ',' :: compactMembers (next :: rest)

end

/-- A document without any space. -/
def compact (j : Json) : String :=
  String.ofList (compactChars j)

/-- The start of a new line at a level. -/
def newLine (level : Nat) : List Char :=
  '\n' :: List.replicate (2 * level) ' '

mutual

/-- A document at a level, its items and members one a line at the next level. -/
def prettyChars (level : Nat) : Json → List Char
  | .array [] => ['[', ']']
  | .array (item :: rest) => '[' :: prettyItems (level + 1) (item :: rest) ++ newLine level ++ [']']
  | .object [] => ['\x7b', '\x7d']
  | .object (member :: rest) =>
    '\x7b' :: prettyMembers (level + 1) (member :: rest) ++ newLine level ++ ['\x7d']
  | scalar => scalarChars scalar

/-- Items, one a line. -/
def prettyItems (level : Nat) : List Json → List Char
  | [] => []
  | [item] => newLine level ++ prettyChars level item
  | item :: next :: rest =>
    newLine level ++ prettyChars level item ++ ',' :: prettyItems level (next :: rest)

/-- Members, one a line. -/
def prettyMembers (level : Nat) : List (Option String × Json) → List Char
  | [] => []
  | [(key, value)] => newLine level ++ quoteChars key ++ ':' :: ' ' :: prettyChars level value
  | (key, value) :: next :: rest =>
    newLine level ++ quoteChars key ++ ':' :: ' ' :: prettyChars level value ++
      ',' :: prettyMembers level (next :: rest)

end

/-- A document with its items and members one a line, indented by two spaces a level. -/
def pretty (j : Json) : String :=
  String.ofList (prettyChars 0 j)

end Json

end BlockScript
