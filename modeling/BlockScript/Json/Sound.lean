import BlockScript.Json.Basic

/-!
# Sound documents

A document is sound when every string in it is a text and every number in it has a finite
double-precision value. The value of a number is computed from its first digits, as many as fit in
64 bits, times a power of ten, with both factors and the product rounded to 53 bits.
-/

set_option autoImplicit false

namespace BlockScript.Json

/-- Rounds to the nearest number with at most `bits` significant bits, a tie to the even one. -/
def roundBits (bits n : Nat) : Nat :=
  if n.log2 < bits then n
  else
    let unit := Nat.pow 2 (n.log2 + 1 - bits)
    let quotient := n / unit
    let rest := 2 * (n % unit)
    if unit < rest ∨ (rest = unit ∧ quotient % 2 = 1) then (quotient + 1) * unit
    else quotient * unit

namespace Number

/-- Appends digits to `m` as long as the result fits in 64 bits. Also gives the digits left over. -/
def appendDigits (m : Nat) : List Char → Nat × List Char
  | [] => (m, [])
  | d :: ds =>
    let next := 10 * m + (d.toNat - '0'.toNat)
    if next < UInt64.size then appendDigits next ds else (m, d :: ds)

/-- Whether the value of a number is a finite double. -/
def isFinite (n : Number) : Bool :=
  let (m, wholeLeft) := appendDigits 0 (Nat.toDigits 10 n.whole)
  let (m, fractionLeft) := appendDigits m n.fraction
  let power : Int :=
    wholeLeft.length - (n.fraction.length - fractionLeft.length) + n.exponent.getD 0
  let product := roundBits 53 m * roundBits 53 (Nat.pow 10 (min power 308).toNat)
  m == 0 || power < 0 || (power ≤ 308 && (roundBits 53 product).log2 < 1024)

end Number

mutual

/-- Whether all strings are texts and all numbers finite. -/
def isSound : Json → Bool
  | .null => true
  | .bool _ => true
  | .number n => n.isFinite
  | .string text => text.isSome
  | .array items => isSoundItems items
  | .object members => isSoundMembers members

/-- Whether all items are sound. -/
def isSoundItems : List Json → Bool
  | [] => true
  | item :: rest => item.isSound && isSoundItems rest

/-- Whether all members are sound, their keys included. -/
def isSoundMembers : List (Option String × Json) → Bool
  | [] => true
  | (key, value) :: rest => key.isSome && value.isSound && isSoundMembers rest

end

end BlockScript.Json
