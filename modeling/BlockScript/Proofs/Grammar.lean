import BlockScript.Expr.Parser

/-!
# The grammar of expressions

The grammar on its own, without a reader for it. Phrases come in three levels:

* a sum is a product, or a sum, `+` or `-`, and a product: `E := M (('+' | '-') M)*`,
* a product is an operand, or a product, `*`, `/` or `%`, and an operand:
  `M := U (('*' | '/' | '%') U)*`,
* an operand is a sign and an operand, a number, a name, a name with a sum in brackets, or a sum
  in parentheses.

A phrase is a derivation together with the tokens it is made of. `Phrase.tokens` spells it out,
`Phrase.tree` is the expression it stands for, grouped to the left at both levels,
`Phrase.nesting` counts the operands around its innermost operand and `Phrase.height` is the
height of its tree.
-/

set_option autoImplicit false

namespace BlockScript

/-- The token of a sign. -/
def Sign.token : Sign → TokenKind
  | .plus => .plus
  | .minus => .minus

/-- The token of an operator. -/
def Operator.token : Operator → TokenKind
  | .multiply => .star
  | .divide => .slash
  | .modulo => .percent
  | .add => .plus
  | .subtract => .minus

/-- The levels of the grammar, from tightest to loosest. -/
inductive Level where
  | operand
  | product
  | sum
deriving DecidableEq

/-- The level at which an operator joins. -/
def Operator.level : Operator → Level
  | .multiply => .product
  | .divide => .product
  | .modulo => .product
  | .add => .sum
  | .subtract => .sum

/-- `l.Below m`: phrases of level `m` are joined from phrases of level `l`. -/
inductive Level.Below : Level → Level → Prop
  | operand : Below .operand .product
  | product : Below .product .sum

namespace Token

/-- The value of a run of digits that is not too large. -/
def value (t : Token) : Value :=
  Int64.ofInt (Text.ofDigits t.lexeme)

/-- The text of a name. -/
def name (t : Token) : String :=
  String.ofList t.lexeme

/-- A number stands for at most the largest value; other tokens always fit. -/
def Fits (t : Token) : Prop :=
  t.kind = .number → Text.ofDigits t.lexeme ≤ 9223372036854775807

/-- One token ends before the other starts. -/
def Before (t u : Token) : Prop :=
  t.span.stop ≤ u.span.start

theorem fits_of_ne {t : Token} (h : t.kind ≠ .number) : t.Fits :=
  fun ht => absurd ht h

end Token

theorem Sign.token_ne_number (sign : Sign) : sign.token ≠ .number := by
  cases sign <;> decide

theorem Operator.token_ne_number (operator : Operator) : operator.token ≠ .number := by
  cases operator <;> decide

/-- The range from the start of one token to the end of another. -/
def Span.through (first last : Span) : Span :=
  ⟨first.start, last.stop - first.start⟩

/-- A derivation of a phrase. -/
inductive Phrase : Level → Type where
  | number (t : Token) (ht : t.kind = .number) : Phrase .operand
  | name (t : Token) (ht : t.kind = .name) : Phrase .operand
  | element (t opening : Token) (index : Phrase .sum) (closing : Token) (ht : t.kind = .name)
      (ho : opening.kind = .leftBracket) (hc : closing.kind = .rightBracket) : Phrase .operand
  | group (opening : Token) (inner : Phrase .sum) (closing : Token)
      (ho : opening.kind = .leftParenthesis) (hc : closing.kind = .rightParenthesis) :
      Phrase .operand
  | signed (t : Token) (sign : Sign) (operand : Phrase .operand) (ht : t.kind = sign.token) :
      Phrase .operand
  | single {l m : Level} (hl : l.Below m) (item : Phrase l) : Phrase m
  | join {l m : Level} (hl : l.Below m) (left : Phrase m) (t : Token) (operator : Operator)
      (right : Phrase l) (ht : t.kind = operator.token) (hm : operator.level = m) : Phrase m

namespace Phrase

/-- The tokens of a phrase, in order. -/
def tokens {l : Level} : Phrase l → List Token
  | .number t _ => [t]
  | .name t _ => [t]
  | .element t opening index closing _ _ _ => t :: opening :: (index.tokens ++ [closing])
  | .group opening inner closing _ _ => opening :: (inner.tokens ++ [closing])
  | .signed t _ operand _ => t :: operand.tokens
  | .single _ item => item.tokens
  | .join _ left t _ right _ _ => left.tokens ++ t :: right.tokens

/-- The expression that a phrase stands for. Parentheses leave no trace. -/
def tree {l : Level} : Phrase l → Expr
  | .number t _ => .number t.value t.span
  | .name t _ => .var t.name t.span
  | .element t _ index closing _ _ _ =>
    .element t.name index.tree (t.span.through closing.span)
  | .group _ inner _ _ _ => inner.tree
  | .signed t sign operand _ => .signed sign operand.tree t.span
  | .single _ item => item.tree
  | .join _ left t operator right _ _ => .binary operator left.tree right.tree t.span

/-- The largest number of operands that are open at once: those around an operand, itself
included. -/
def nesting {l : Level} : Phrase l → Nat
  | .number _ _ => 1
  | .name _ _ => 1
  | .element _ _ index _ _ _ _ => index.nesting + 1
  | .group _ inner _ _ _ => inner.nesting + 1
  | .signed _ _ operand _ => operand.nesting + 1
  | .single _ item => item.nesting
  | .join _ left _ _ right _ _ => max left.nesting right.nesting

/-- The height of the tree of a phrase, to which parentheses add nothing. -/
def height {l : Level} : Phrase l → Nat
  | .number _ _ => 1
  | .name _ _ => 1
  | .element _ _ index _ _ _ _ => index.height + 1
  | .group _ inner _ _ _ => inner.height
  | .signed _ _ operand _ => operand.height + 1
  | .single _ item => item.height
  | .join _ left _ _ right _ _ => max left.height right.height + 1

@[simp] theorem height_tree {l : Level} (d : Phrase l) : d.tree.height = d.height := by
  induction d with
  | number | name => rfl
  | element _ _ _ _ _ _ _ ih => simp [tree, height, Expr.height, ih]
  | group _ _ _ _ _ ih => simp [tree, height, ih]
  | signed _ _ _ _ ih => simp [tree, height, Expr.height, ih]
  | single _ _ ih => simp [tree, height, ih]
  | join _ _ _ _ _ _ _ ihl ihr => simp [tree, height, Expr.height, ihl, ihr]

end Phrase

end BlockScript
