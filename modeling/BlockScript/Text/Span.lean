/-!
# Positions in bytes

A text is a list of characters where it is taken apart. Positions and lengths count the bytes of its
UTF-8 form, so that a position may fall between two characters or inside of one.

A span is a range of bytes of a source text. `Span.lexeme?` reads the text under it and fails
where the range leaves the source or cuts a character.
-/

set_option autoImplicit false

namespace BlockScript

namespace Text

/-- The number of bytes that a list of characters takes in UTF-8. -/
def byteLength : List Char → Nat
  | [] => 0
  | c :: cs => c.utf8Size + byteLength cs

@[simp] theorem byteLength_nil : byteLength [] = 0 := rfl

@[simp] theorem byteLength_cons (c : Char) (cs : List Char) :
    byteLength (c :: cs) = c.utf8Size + byteLength cs := rfl

@[simp] theorem byteLength_append (cs ds : List Char) :
    byteLength (cs ++ ds) = byteLength cs + byteLength ds := by
  induction cs with
  | nil => simp
  | cons c cs ih => simp [ih, Nat.add_assoc]

/-- Cuts a text after `n` bytes. There is no cut past the end or inside a character. -/
def splitAtByte : List Char → Nat → Option (List Char × List Char)
  | cs, 0 => some ([], cs)
  | [], _ + 1 => none
  | c :: cs, n + 1 =>
    if c.utf8Size ≤ n + 1 then
      (splitAtByte cs (n + 1 - c.utf8Size)).map fun (front, back) => (c :: front, back)
    else none

end Text

/-! ## Spans -/

/-- A range of a source text, in bytes. -/
structure Span where
  /-- The first byte. -/
  start : Nat
  /-- How many bytes. -/
  length : Nat
deriving DecidableEq, Repr, Inhabited

namespace Span

/-- The first byte after the range. -/
def stop (a : Span) : Nat :=
  a.start + a.length

/-- The empty range after the last byte of a text. -/
def endOf (source : String) : Span :=
  ⟨Text.byteLength source.toList, 0⟩

/-- The least range that holds both. -/
def merge (a b : Span) : Span :=
  let start := min a.start b.start
  ⟨start, max a.stop b.stop - start⟩

/-- The characters of `cs` under the range. -/
def chars? (a : Span) (cs : List Char) : Option (List Char) := do
  let (_, back) ← Text.splitAtByte cs a.start
  let (middle, _) ← Text.splitAtByte back a.length
  some middle

/-- The text of `source` under the range. -/
def lexeme? (a : Span) (source : String) : Option String :=
  (a.chars? source.toList).map String.ofList

end Span

end BlockScript
