import BlockScript.Proofs.Grammar

/-!
# How far tokens have come

The kinds of tokens that may come next in an expression depend on little of what came before: on
what the tokens end with, and on the closing tokens that are still owed. `Standing` is this much,
`Standing.next` takes one more kind, and `Standing.run` takes many. A phrase brings the tokens from
where an operand is due to behind an operand and owes nothing new (`Phrase.run_kinds`). Where
`Standing.next` has no answer, no phrase goes on (`Phrase.not_prefix_of_run`).
-/

set_option autoImplicit false

namespace BlockScript

/-- What tokens end with. -/
inductive Ending where
  /-- Nothing yet, or a token behind which an operand is due. -/
  | due
  /-- A name, behind which an index may follow. -/
  | name
  /-- Another operand. -/
  | operand
deriving DecidableEq

/-- How far tokens have come in an expression. -/
structure Standing where
  ending : Ending
  /-- The closing tokens that are still to come, the next one first. -/
  owed : List TokenKind

namespace Standing

/-- The standing with one more token, unless there is no place for it. -/
def next (s : Standing) (kind : TokenKind) : Option Standing :=
  match s.ending with
  | .due =>
    match kind with
    | .plus | .minus => some s
    | .number => some { s with ending := .operand }
    | .name => some { s with ending := .name }
    | .leftParenthesis => some { s with owed := .rightParenthesis :: s.owed }
    | _ => none
  | ending =>
    if ending = .name ∧ kind = .leftBracket then some ⟨.due, .rightBracket :: s.owed⟩
    else if (Expr.additive? kind).isSome ∨ (Expr.multiplicative? kind).isSome then
      some { s with ending := .due }
    else
      match s.owed with
      | [] => none
      | closing :: owed => if kind = closing then some ⟨.operand, owed⟩ else none

/-- The standing with more tokens. -/
def run (s : Standing) (kinds : List TokenKind) : Option Standing :=
  kinds.foldlM next s

/-- Nothing is due and nothing is owed. -/
def Complete (s : Standing) : Prop :=
  s.ending ≠ .due ∧ s.owed = []

section
variable {s s' : Standing} {kind : TokenKind} {kinds more : List TokenKind}

theorem run_cons (h : s.next kind = some s') : s.run (kind :: kinds) = s'.run kinds := by
  rw [run, List.foldlM_cons, h]
  rfl

theorem run_append (h : s.run kinds = some s') : s.run (kinds ++ more) = s'.run more := by
  rw [run, List.foldlM_append, ← run, h]
  rfl

/-- Where a token has no place, no further tokens help. -/
theorem run_append_of_stuck (h : s.run kinds = some s') (hn : s'.next kind = none) :
    s.run (kinds ++ kind :: more) = none := by
  rw [run_append h, run, List.foldlM_cons, hn]
  rfl

theorem next_sign (sign : Sign) (owed : List TokenKind) :
    next ⟨.due, owed⟩ sign.token = some ⟨.due, owed⟩ := by
  cases sign <;> rfl

theorem next_operator {ending : Ending} (h : ending ≠ .due) (operator : Operator)
    (owed : List TokenKind) : next ⟨ending, owed⟩ operator.token = some ⟨.due, owed⟩ := by
  cases ending with
  | due => exact absurd rfl h
  | name | operand => cases operator <;> rfl

theorem next_closing {ending : Ending} (h : ending ≠ .due) {closing : TokenKind}
    (hc : closing = .rightParenthesis ∨ closing = .rightBracket) (owed : List TokenKind) :
    next ⟨ending, closing :: owed⟩ closing = some ⟨.operand, owed⟩ := by
  cases ending with
  | due => exact absurd rfl h
  | name | operand => rcases hc with rfl | rfl <;> rfl

/-- A token that is no operator and opens no index has to close what was opened last. -/
theorem next_eq_none {ending : Ending} {owed : List TokenKind} (hd : ending ≠ .due)
    (hb : ending = .name → kind ≠ .leftBracket) (ha : Expr.additive? kind = none)
    (hm : Expr.multiplicative? kind = none)
    (hc : ∀ closing rest, owed = closing :: rest → kind ≠ closing) :
    next ⟨ending, owed⟩ kind = none := by
  have hi : ¬(ending = .name ∧ kind = .leftBracket) := fun h => hb h.1 h.2
  have ho : ¬((Expr.additive? kind).isSome ∨ (Expr.multiplicative? kind).isSome) := by
    simp [ha, hm]
  have hn : (match owed with
      | [] => none
      | closing :: owed => if kind = closing then some (⟨.operand, owed⟩ : Standing) else none) =
      none := by
    cases owed with
    | nil => rfl
    | cons closing rest => exact if_neg (hc closing rest rfl)
  cases ending with
  | due => exact absurd rfl hd
  | name | operand =>
    unfold next
    dsimp only
    rw [if_neg hi, if_neg ho, hn]

end

end Standing

namespace Phrase

/-- The kinds of the tokens of a phrase. -/
def kinds {l : Level} (d : Phrase l) : List TokenKind :=
  d.tokens.map Token.kind

/-- What the tokens of a phrase end with. -/
def ending {l : Level} : Phrase l → Ending
  | .number _ _ => .operand
  | .name _ _ => .name
  | .element _ _ _ _ _ _ _ => .operand
  | .group _ _ _ _ _ => .operand
  | .signed _ _ operand _ => operand.ending
  | .single _ item => item.ending
  | .join _ _ _ _ right _ _ => right.ending

theorem ending_ne_due {l : Level} (d : Phrase l) : d.ending ≠ .due := by
  induction d with
  | number | name | element | group => nofun
  | signed _ _ _ _ ih => exact ih
  | single _ _ ih => exact ih
  | join _ _ _ _ _ _ _ _ ihr => exact ihr

/-- A phrase is complete in itself, whatever is owed around it. -/
theorem run_kinds {l : Level} (d : Phrase l) (owed : List TokenKind) :
    Standing.run ⟨.due, owed⟩ d.kinds = some ⟨d.ending, owed⟩ := by
  induction d generalizing owed with
  | number t ht | name t ht =>
    simp only [kinds, tokens, List.map_cons, List.map_nil, ht]
    rfl
  | element t opening index closing ht ho hc ih =>
    have hi := ih (.rightBracket :: owed)
    simp only [kinds, tokens, List.map_cons, List.map_append, List.map_nil, ht, ho, hc] at hi ⊢
    rw [Standing.run_cons rfl, Standing.run_cons rfl, Standing.run_append hi,
      Standing.run_cons (Standing.next_closing index.ending_ne_due (.inr rfl) owed)]
    rfl
  | group opening inner closing ho hc ih =>
    have hi := ih (.rightParenthesis :: owed)
    simp only [kinds, tokens, List.map_cons, List.map_append, List.map_nil, ho, hc] at hi ⊢
    rw [Standing.run_cons rfl, Standing.run_append hi,
      Standing.run_cons (Standing.next_closing inner.ending_ne_due (.inl rfl) owed)]
    rfl
  | signed t sign operand ht ih =>
    simp only [kinds, tokens, List.map_cons, ht]
    rw [Standing.run_cons (Standing.next_sign sign owed)]
    exact ih owed
  | single hl item ih => exact ih owed
  | join hl left t operator right ht hm ihl ihr =>
    have hleft := ihl owed
    simp only [kinds, tokens, List.map_append, List.map_cons, ht] at hleft ⊢
    rw [Standing.run_append hleft,
      Standing.run_cons (Standing.next_operator left.ending_ne_due operator owed)]
    exact ihr owed

/-- No sum begins with tokens behind which the next one has no place. -/
theorem not_prefix_of_run {kinds : List TokenKind} {kind : TokenKind} {s : Standing}
    (h : Standing.run ⟨.due, []⟩ kinds = some s) (hn : s.next kind = none) (d : Phrase .sum) :
    ¬(kinds ++ [kind]) <+: d.kinds := by
  rintro ⟨more, hd⟩
  have hr := d.run_kinds []
  rw [← hd, List.append_assoc, List.singleton_append, Standing.run_append_of_stuck h hn] at hr
  cases hr

/-- No sum ends where an operand is due or a closing token is owed. -/
theorem kinds_ne_of_run {kinds : List TokenKind} {s : Standing}
    (h : Standing.run ⟨.due, []⟩ kinds = some s) (hs : ¬s.Complete) (d : Phrase .sum) :
    d.kinds ≠ kinds := by
  rintro rfl
  rw [d.run_kinds []] at h
  cases h
  exact hs ⟨d.ending_ne_due, rfl⟩

end Phrase

end BlockScript
