/-!
# Words of a text

A character is blank when it has the Unicode property `White_Space`. Trimming removes the blank
characters at the two ends of a text and nothing else.

A name is a letter or underscore followed by letters, digits and underscores, ASCII only. A list is
written with commas; every item is trimmed, and a text without a comma is a list of one item, the
empty text included. A run of decimal digits stands for a natural number of any size; leading zeros
do not count.
-/

set_option autoImplicit false

namespace BlockScript.Text

/-! ## Blanks -/

/-- The characters with the property `White_Space`, twenty-five of them. -/
def isBlank (c : Char) : Bool :=
  let n := c.toNat
  (0x09 ≤ n && n ≤ 0x0d) || n == 0x20 || n == 0x85 || n == 0xa0 || n == 0x1680 ||
    (0x2000 ≤ n && n ≤ 0x200a) || n == 0x2028 || n == 0x2029 || n == 0x202f || n == 0x205f ||
    n == 0x3000

/-- A text without its leading blank characters. -/
def dropBlankStart (cs : List Char) : List Char :=
  cs.dropWhile isBlank

/-- A text without its trailing blank characters. -/
def dropBlankEnd (cs : List Char) : List Char :=
  (cs.reverse.dropWhile isBlank).reverse

/-- A text without blank characters at its ends. -/
def trimChars (cs : List Char) : List Char :=
  dropBlankEnd (dropBlankStart cs)

/-- A string without blank characters at its ends. -/
def trim (s : String) : String :=
  String.ofList (trimChars s.toList)

/-! ## Names and lists -/

/-- The characters a name may start with. -/
def isNameStart (c : Char) : Bool :=
  c.isAlpha || c == '_'

/-- The characters a name may go on with. -/
def isNameChar (c : Char) : Bool :=
  c.isAlphanum || c == '_'

/-- A name, as a list of characters. -/
def isNameChars : List Char → Bool
  | [] => false
  | c :: cs => isNameStart c && cs.all isNameChar

/-- Whether a text is a name. -/
def isName (s : String) : Bool :=
  isNameChars s.toList

/-- The pieces of a text between its commas, always at least one. -/
def splitCommas : List Char → List (List Char)
  | [] => [[]]
  | c :: cs =>
    if c == ',' then [] :: splitCommas cs
    else
      match splitCommas cs with
      | [] => [[c]]
      | piece :: pieces => (c :: piece) :: pieces

/-- The trimmed items of a comma separated list. -/
def splitList (s : String) : List String :=
  (splitCommas s.toList).map fun piece => String.ofList (trimChars piece)

/-! ## Digits -/

/-- The number that a run of decimal digits stands for. -/
def ofDigits (digits : List Char) : Nat :=
  digits.foldl (fun n c => 10 * n + (c.toNat - '0'.toNat)) 0

end BlockScript.Text
