import BlockScript.Proofs.Arena
import BlockScript.Proofs.Grammar
import BlockScript.Proofs.Results
import BlockScript.Proofs.Tokens

/-!
# Parsing follows the grammar

A text is read as an expression exactly when its tokens are a phrase of the grammar that keeps
within the limits, and then the expression is the tree of that phrase (`parse_iff_grammar`). The
limits are those of values for numbers, 256 for operands one inside another, and 1024 for the height
of the tree.

* `Expr.reading` is what a parser reads and leaves, without the proofs that its result carries. The
  parsers are characterized by equations on it, and only these are used afterwards.
* Every phrase is read (`Expr.settles_phrase`): with its tree if it keeps within the limits, and
  with a refusal for its depth if not. This needs a token behind the phrase that is not taken for a
  part of it (`Level.Free`).
* Whatever is read is a phrase (`Expr.sound_operand`, `Expr.Sound.next`).
-/

set_option autoImplicit false

namespace BlockScript

namespace Expr

/-! ## What a parser reads -/

/-- What a parser reads from the front of `pieces`, and what it leaves of them. -/
def reading (parser : Parser) (pieces : List Piece) : Except SyntaxError (Expr × List Piece) :=
  (parser pieces).map fun r => (r.expr, r.rest)

/-- What is read from the front of `pieces` when `left` stands before them. -/
def readingFrom (operator? : TokenKind → Option Operator) (parser : Parser) (left : Expr)
    (pieces : List Piece) : Except SyntaxError (Expr × List Piece) :=
  (chainFrom operator? parser left pieces).map fun r => (r.1, r.2.1)

/-- What is read from the front of `pieces` up to a closing token, with the place of that token. -/
def readingClosed (finish : Span) (closing : TokenKind) (parser : Parser) (pieces : List Piece) :
    Except SyntaxError (Expr × Span × List Piece) :=
  (closedSum finish closing parser pieces).map fun r => (r.1.expr, r.2, r.1.rest)

section
variable {operator? : TokenKind → Option Operator} {parser : Parser} {pieces : List Piece}

theorem reading_chain (operator? : TokenKind → Option Operator) (parser : Parser)
    (pieces : List Piece) :
    reading (chain operator? parser) pieces =
      reading parser pieces >>= fun r => readingFrom operator? parser r.1 r.2 := by
  unfold reading chain readingFrom
  cases parser pieces with
  | error fault => rfl
  | ok first =>
    simp only [Except.map, ok_bind]
    cases chainFrom operator? parser first.expr first.rest <;> rfl

theorem readingFrom_nil (left : Expr) : readingFrom operator? parser left [] = .ok (left, []) := by
  rw [readingFrom, chainFrom]; rfl

theorem readingFrom_unrecognized (left : Expr) (f : Unrecognized) :
    readingFrom operator? parser left (.unrecognized f :: pieces) =
      .error ⟨.unrecognized f.character, f.span⟩ := by
  rw [readingFrom, chainFrom]; rfl

/-- A chain ends before a token that is no operator of its level. -/
theorem readingFrom_stop {t : Token} (ht : operator? t.kind = none) (left : Expr) :
    readingFrom operator? parser left (.token t :: pieces) = .ok (left, .token t :: pieces) := by
  rw [readingFrom, chainFrom, ht]; rfl

theorem readingFrom_operator {t : Token} {operator : Operator}
    (ht : operator? t.kind = some operator) (left : Expr) :
    readingFrom operator? parser left (.token t :: pieces) = (do
      let right ← reading parser pieces
      let joined ← checkHeight (.binary operator left right.1 t.span)
      readingFrom operator? parser joined right.2) := by
  unfold readingFrom reading
  rw [chainFrom, ht]
  dsimp only
  cases parser pieces with
  | error fault => rfl
  | ok right =>
    simp only [Except.map, ok_bind]
    cases checkHeight (.binary operator left right.expr t.span) with
    | error fault => rfl
    | ok joined =>
      simp only [ok_bind]
      cases chainFrom operator? parser joined right.rest <;> rfl

end

/-- A parser takes at least one piece. -/
theorem length_lt_of_reading {parser : Parser} {pieces : List Piece} {r : Expr × List Piece}
    (h : reading parser pieces = .ok r) : r.2.length < pieces.length := by
  unfold reading at h
  cases hp : parser pieces with
  | error fault => rw [hp] at h; cases h
  | ok read =>
    rw [hp] at h
    cases h
    exact read.shorter

/-- The place of a token that has to come first, and what is left behind it. -/
def taking (finish : Span) (kind : TokenKind) (pieces : List Piece) :
    Except SyntaxError (Span × List Piece) :=
  (expect finish kind pieces).map fun r => (r.1, r.2.1)

theorem readingClosed_eq (finish : Span) (closing : TokenKind) (parser : Parser)
    (pieces : List Piece) :
    readingClosed finish closing parser pieces = (do
      let inner ← reading (sum parser) pieces
      let last ← taking finish closing inner.2
      .ok (inner.1, last)) := by
  unfold readingClosed closedSum reading taking
  cases sum parser pieces with
  | error fault => rfl
  | ok inner =>
    simp only [Except.map, ok_bind]
    cases expect finish closing inner.rest <;> rfl

/-- What is read up to a closing token is a sum, and the token follows it. -/
theorem readingClosed_eq_ok {finish : Span} {closing : TokenKind} {parser : Parser}
    {pieces rest : List Piece} {e : Expr} {span : Span}
    (h : readingClosed finish closing parser pieces = .ok (e, span, rest)) :
    ∃ c : Token, c.kind = closing ∧ c.span = span ∧
      reading (sum parser) pieces = .ok (e, .token c :: rest) := by
  unfold readingClosed closedSum at h
  unfold reading
  cases hs : sum parser pieces with
  | error fault => rw [hs] at h; cases h
  | ok inner =>
    obtain ⟨expr, left, shorter⟩ := inner
    rw [hs, ok_bind] at h
    match left with
    | [] => cases h
    | .unrecognized f :: _ => cases h
    | .token c :: _ =>
      simp only [expect] at h
      split at h
      · next hc => cases h; exact ⟨c, hc, rfl, rfl⟩
      · cases h

theorem readingClosed_of_ok {finish : Span} {parser : Parser} {pieces rest : List Piece} {e : Expr}
    {c : Token} (h : reading (sum parser) pieces = .ok (e, .token c :: rest)) :
    readingClosed finish c.kind parser pieces = .ok (e, c.span, rest) := by
  unfold reading at h
  unfold readingClosed closedSum
  cases hs : sum parser pieces with
  | error fault => rw [hs] at h; cases h
  | ok inner =>
    obtain ⟨expr, left, shorter⟩ := inner
    rw [hs] at h
    cases h
    simp [expect, Except.map]

theorem readingClosed_of_error {finish : Span} {closing : TokenKind} {parser : Parser}
    {pieces : List Piece} {fault : SyntaxError}
    (h : reading (sum parser) pieces = .error fault) :
    readingClosed finish closing parser pieces = .error fault := by
  unfold reading at h
  unfold readingClosed closedSum
  cases hs : sum parser pieces with
  | error fault => rw [hs] at h; cases h; rfl
  | ok inner => rw [hs] at h; cases h

/-! ## Operands, by the token they start with -/

section
variable {finish : Span} {budget : Nat} {t : Token} {pieces : List Piece}

theorem reading_operand_zero :
    reading (operand finish 0) (.token t :: pieces) = .error ⟨.tooDeep, t.span⟩ := by
  rw [reading, operand]; rfl

theorem reading_operand_signed {sign : Sign} (ht : t.kind = sign.token) :
    reading (operand finish (budget + 1)) (.token t :: pieces) = (do
      let inner ← reading (operand finish budget) pieces
      let node ← checkHeight (.signed sign inner.1 t.span)
      .ok (node, inner.2)) := by
  have hs : sign? t.kind = some sign := by rw [ht]; cases sign <;> rfl
  unfold reading
  rw [operand, hs]
  dsimp only
  cases operand finish budget pieces with
  | error fault => rfl
  | ok inner =>
    simp only [Except.map, ok_bind]
    cases checkHeight (.signed sign inner.expr t.span) <;> rfl

theorem reading_operand_number (ht : t.kind = .number) :
    reading (operand finish (budget + 1)) (.token t :: pieces) =
      match Value.ofInt? (Text.ofDigits t.lexeme) with
      | some value => .ok (.number value t.span, pieces)
      | none => .error ⟨.literalTooLarge, t.span⟩ := by
  unfold reading
  rw [operand, ht]
  dsimp only [sign?]
  cases Value.ofInt? (Text.ofDigits t.lexeme) <;> rfl

theorem reading_operand_group (ht : t.kind = .leftParenthesis) :
    reading (operand finish (budget + 1)) (.token t :: pieces) = (do
      let inner ← readingClosed finish .rightParenthesis (operand finish budget) pieces
      .ok (inner.1, inner.2.2)) := by
  unfold reading readingClosed
  rw [operand, ht]
  dsimp only [sign?]
  cases closedSum finish .rightParenthesis (operand finish budget) pieces <;> rfl

theorem reading_operand_element {opening : Token} (ht : t.kind = .name)
    (ho : opening.kind = .leftBracket) :
    reading (operand finish (budget + 1)) (.token t :: .token opening :: pieces) = (do
      let index ← readingClosed finish .rightBracket (operand finish budget) pieces
      let node ← checkHeight (.element t.name index.1 (t.span.merge index.2.1))
      .ok (node, index.2.2)) := by
  unfold reading readingClosed Token.name
  rw [operand, ht]
  dsimp only [sign?]
  rw [if_pos ho]
  cases closedSum finish .rightBracket (operand finish budget) pieces with
  | error fault => rfl
  | ok index =>
    simp only [Except.map, ok_bind]
    cases checkHeight (.element (String.ofList t.lexeme) index.1.expr (t.span.merge index.2)) <;>
      rfl

/-- A name stands alone unless a bracket follows. -/
theorem reading_operand_name {kind : TokenKind} {span : Span} (ht : t.kind = .name)
    (hp : peek finish pieces = .ok (kind, span)) (hk : kind ≠ .leftBracket) :
    reading (operand finish (budget + 1)) (.token t :: pieces) =
      .ok (.var t.name t.span, pieces) := by
  unfold reading
  rw [operand, ht]
  dsimp only [sign?]
  match pieces with
  | [] => rfl
  | .unrecognized f :: _ => cases hp
  | .token next :: inside =>
    cases hp
    dsimp only
    rw [if_neg hk]
    rfl

end

end Expr

/-! ## Levels -/

namespace Level

/-- The operators of a level. -/
def operator? : Level → TokenKind → Option Operator
  | .operand => fun _ => none
  | .product => Expr.multiplicative?
  | .sum => Expr.additive?

theorem operator?_eq_some_iff {l : Level} {kind : TokenKind} {operator : Operator} :
    l.operator? kind = some operator ↔ operator.level = l ∧ operator.token = kind := by
  cases l <;> cases operator <;> cases kind <;>
    simp [operator?, Expr.multiplicative?, Expr.additive?, Operator.level, Operator.token]

/-- A token of kind `kind` behind a phrase of level `l` is not taken for a part of one of its
items. -/
def Free (l : Level) (kind : TokenKind) : Prop :=
  kind ≠ .leftBracket ∧ ∀ m : Level, m.Below l → m.operator? kind = none

theorem Free.below {l m : Level} {kind : TokenKind} (h : m.Free kind) (hl : l.Below m) :
    l.Free kind := by
  refine ⟨h.1, fun j hj => ?_⟩
  cases hl <;> cases hj
  rfl

/-- An operator of a level may follow a phrase of that level. -/
theorem free_operator (operator : Operator) : operator.level.Free operator.token := by
  refine ⟨by cases operator <;> decide, fun m hm => ?_⟩
  cases operator <;> cases hm <;> rfl

/-- A token that opens no index and starts no further item may follow a sum. -/
theorem free_sum {kind : TokenKind} (hb : kind ≠ .leftBracket)
    (ho : Expr.multiplicative? kind = none) : Level.sum.Free kind := by
  refine ⟨hb, fun m hm => ?_⟩
  cases hm
  exact ho

end Level

namespace Expr

/-- The parser of a level. -/
def levelParser (finish : Span) (budget : Nat) : Level → Parser
  | .operand => operand finish budget
  | .product => chain multiplicative? (operand finish budget)
  | .sum => sum (operand finish budget)

/-- How the parser of a level goes on when it has read `left`. -/
def goOn (finish : Span) (budget : Nat) (l : Level) (left : Expr) (pieces : List Piece) :
    Except SyntaxError (Expr × List Piece) :=
  match l with
  | .operand => .ok (left, pieces)
  | .product => readingFrom multiplicative? (levelParser finish budget .operand) left pieces
  | .sum => readingFrom additive? (levelParser finish budget .product) left pieces

section
variable {finish : Span} {budget : Nat} {l m : Level}

theorem goOn_eq (hl : l.Below m) (left : Expr) (pieces : List Piece) :
    goOn finish budget m left pieces =
      readingFrom m.operator? (levelParser finish budget l) left pieces := by
  cases hl <;> rfl

theorem reading_levelParser (hl : l.Below m) (pieces : List Piece) :
    reading (levelParser finish budget m) pieces =
      reading (levelParser finish budget l) pieces >>= fun r => goOn finish budget m r.1 r.2 := by
  cases hl <;> exact reading_chain ..

/-- An item is read up to the token behind it. -/
theorem goOn_of_free (hl : l.Below m) {rest : List Piece} {kind : TokenKind} {span : Span}
    (hp : peek finish rest = .ok (kind, span)) (hk : m.Free kind) (left : Expr) :
    goOn finish budget l left rest = .ok (left, rest) := by
  cases hl with
  | operand => rfl
  | product =>
    match rest with
    | [] => exact readingFrom_nil left
    | .unrecognized f :: _ => cases hp
    | .token t :: _ =>
      cases hp
      exact readingFrom_stop (hk.2 .product .product) left

theorem goOn_closing {c : Token} (hc : additive? c.kind = none) (left : Expr) (rest : List Piece) :
    goOn finish budget .sum left (.token c :: rest) = .ok (left, .token c :: rest) :=
  readingFrom_stop hc left

end

end Expr

/-! ## Every phrase is read -/

/-- Tokens as they stand in a text, none of them too large. -/
structure Legible (ts : List Token) : Prop where
  inOrder : ts.Pairwise Token.Before
  fits : ∀ t ∈ ts, t.Fits

theorem Legible.sublist {ts us : List Token} (h : Legible us) (hs : ts.Sublist us) : Legible ts :=
  ⟨h.inOrder.sublist hs, fun t ht => h.fits t (hs.subset ht)⟩

theorem Token.ofInt?_of_fits {t : Token} (h : t.Fits) (ht : t.kind = .number) :
    Value.ofInt? (Text.ofDigits t.lexeme) = some t.value := by
  have hn := h ht
  refine if_pos ⟨?_, ?_⟩ <;> omega

theorem Token.fits_of_ofInt? {t : Token} {value : Value}
    (h : Value.ofInt? (Text.ofDigits t.lexeme) = some value) : t.Fits ∧ value = t.value := by
  unfold Value.ofInt? at h
  split at h
  · next hr =>
    cases h
    exact ⟨fun _ => by have := hr.2; omega, rfl⟩
  · cases h

/-- The least range that holds two tokens goes from the first through the last. -/
theorem Span.merge_of_stop_le {a b : Span} (h : a.stop ≤ b.start) : a.merge b = a.through b := by
  have ha : a.start ≤ a.stop := Nat.le_add_right _ _
  have hb : b.start ≤ b.stop := Nat.le_add_right _ _
  have hs : min a.start b.start = a.start := by omega
  have ht : max a.stop b.stop = b.stop := by omega
  simp only [merge, through, hs, ht]

/-- A phrase keeps within the limits. -/
def Phrase.Within {l : Level} (budget : Nat) (d : Phrase l) : Prop :=
  d.nesting ≤ budget ∧ d.height ≤ Expr.maxHeight

/-- The result `r` is `r'` within the limits, and a refusal for depth outside of them. -/
def Settles {α : Type} (r : Except SyntaxError α) (within : Prop) (r' : Except SyntaxError α) :
    Prop :=
  (within → r = r') ∧ (¬within → ∃ span, r = .error ⟨.tooDeep, span⟩)

namespace Settles

variable {α β : Type} {x y z : Except SyntaxError α} {w w' : Prop}

theorem congr (hx : Settles x w y) (h : w ↔ w') : Settles x w' y :=
  ⟨fun hw => hx.1 (h.2 hw), fun hw => hx.2 fun h' => hw (h.1 h')⟩

theorem trans (hx : Settles x w y) (hy : Settles y w' z) : Settles x (w ∧ w') z := by
  refine ⟨fun h => (hx.1 h.1).trans (hy.1 h.2), fun h => ?_⟩
  by_cases hw : w
  · rw [hx.1 hw]
    exact hy.2 fun hw' => h ⟨hw, hw'⟩
  · exact hx.2 hw

theorem bind {a : α} {f : α → Except SyntaxError β} (hx : Settles x w (.ok a)) :
    Settles (x >>= f) w (f a) := by
  refine ⟨fun hw => by rw [hx.1 hw, ok_bind], fun hw => ?_⟩
  obtain ⟨span, hs⟩ := hx.2 hw
  exact ⟨span, by rw [hs, error_bind]⟩

end Settles

namespace Expr

theorem settles_checkHeight (e : Expr) : Settles (checkHeight e) (e.height ≤ maxHeight) (.ok e) :=
  ⟨fun h => if_pos h, fun h => ⟨e.span, if_neg h⟩⟩

theorem settles_readingClosed {finish : Span} {parser : Parser} {pieces rest : List Piece}
    {w : Prop} {e : Expr} {c : Token}
    (h : Settles (reading (sum parser) pieces) w (.ok (e, .token c :: rest))) :
    Settles (readingClosed finish c.kind parser pieces) w (.ok (e, c.span, rest)) := by
  refine ⟨fun hw => readingClosed_of_ok (h.1 hw), fun hw => ?_⟩
  obtain ⟨span, hs⟩ := h.2 hw
  exact ⟨span, readingClosed_of_error hs⟩

section
variable {finish : Span} {budget : Nat} {t : Token} {pieces rest : List Piece} {w : Prop} {e : Expr}

theorem settles_zero {r : Except SyntaxError (Expr × List Piece)} (hw : ¬w) :
    Settles (reading (operand finish 0) (.token t :: pieces)) w r :=
  ⟨fun h => absurd h hw, fun _ => ⟨t.span, reading_operand_zero⟩⟩

theorem settles_signed {sign : Sign} (ht : t.kind = sign.token)
    (h : Settles (reading (operand finish budget) pieces) w (.ok (e, rest))) :
    Settles (reading (operand finish (budget + 1)) (.token t :: pieces))
      (w ∧ e.height + 1 ≤ maxHeight) (.ok (.signed sign e t.span, rest)) := by
  rw [reading_operand_signed ht]
  exact h.bind.trans (settles_checkHeight (.signed sign e t.span)).bind

theorem settles_group {closing : Token} (ht : t.kind = .leftParenthesis)
    (hc : closing.kind = .rightParenthesis)
    (h : Settles (reading (sum (operand finish budget)) pieces) w
      (.ok (e, .token closing :: rest))) :
    Settles (reading (operand finish (budget + 1)) (.token t :: pieces)) w (.ok (e, rest)) := by
  rw [reading_operand_group ht, ← hc]
  exact (settles_readingClosed h).bind

theorem settles_element {opening closing : Token} (ht : t.kind = .name)
    (ho : opening.kind = .leftBracket) (hc : closing.kind = .rightBracket)
    (hb : t.Before closing)
    (h : Settles (reading (sum (operand finish budget)) pieces) w
      (.ok (e, .token closing :: rest))) :
    Settles (reading (operand finish (budget + 1)) (.token t :: .token opening :: pieces))
      (w ∧ e.height + 1 ≤ maxHeight)
      (.ok (.element t.name e (t.span.through closing.span), rest)) := by
  rw [reading_operand_element ht ho, ← hc, ← Span.merge_of_stop_le hb]
  exact (settles_readingClosed h).bind.trans
    (settles_checkHeight (.element t.name e (t.span.merge closing.span))).bind

theorem settles_join {l m : Level} {operator : Operator} {left : Expr} (hl : l.Below m)
    (ht : t.kind = operator.token) (hm : operator.level = m)
    (h : Settles (reading (levelParser finish budget l) pieces) w (.ok (e, rest))) :
    Settles (goOn finish budget m left (.token t :: pieces))
      (w ∧ max left.height e.height + 1 ≤ maxHeight)
      (goOn finish budget m (.binary operator left e t.span) rest) := by
  have ho : m.operator? t.kind = some operator := Level.operator?_eq_some_iff.2 ⟨hm, ht.symm⟩
  rw [goOn_eq hl, goOn_eq hl, readingFrom_operator ho]
  exact h.bind.trans (settles_checkHeight (.binary operator left e t.span)).bind

end

/-- Reading a phrase gives its tree and goes on behind it, or is refused for the depth of the
phrase. -/
theorem settles_phrase {finish : Span} {l : Level} (d : Phrase l) (budget : Nat)
    (rest : List Piece) {kind : TokenKind} {span : Span} (hd : Legible d.tokens)
    (hp : peek finish rest = .ok (kind, span)) (hk : l.Free kind) :
    Settles (reading (levelParser finish budget l) (d.tokens.map .token ++ rest))
      (d.Within budget) (goOn finish budget l d.tree rest) := by
  -- The left part of a join is read with its operator still to come, so the induction is on how
  -- reading goes on behind the phrase and not on its end.
  induction d generalizing budget rest kind span with
  | number t ht =>
    cases budget with
    | zero => exact settles_zero (by simp [Phrase.Within, Phrase.nesting])
    | succ budget =>
      have hw : (Phrase.number t ht).Within (budget + 1) :=
        ⟨Nat.le_add_left _ _, (by decide : 1 ≤ maxHeight)⟩
      have hv := Token.ofInt?_of_fits (hd.fits t List.mem_cons_self) ht
      refine ⟨fun _ => (reading_operand_number ht).trans ?_, fun h => absurd hw h⟩
      rw [hv]
      rfl
  | name t ht =>
    cases budget with
    | zero => exact settles_zero (by simp [Phrase.Within, Phrase.nesting])
    | succ budget =>
      have hw : (Phrase.name t ht).Within (budget + 1) :=
        ⟨Nat.le_add_left _ _, (by decide : 1 ≤ maxHeight)⟩
      exact ⟨fun _ => reading_operand_name ht hp hk.1, fun h => absurd hw h⟩
  | element t opening index closing ht ho hc ih =>
    cases budget with
    | zero => exact settles_zero (by simp [Phrase.Within, Phrase.nesting])
    | succ budget =>
      have hb : t.Before closing := (List.pairwise_cons.1 hd.inOrder).1 closing (by simp)
      have hs : index.tokens.Sublist (t :: opening :: (index.tokens ++ [closing])) :=
        ((List.sublist_append_left ..).cons _).cons _
      have hf : Level.sum.Free closing.kind := by rw [hc]; exact Level.free_sum (by decide) rfl
      have hi := ih budget (.token closing :: rest) (hd.sublist hs) rfl hf
      rw [goOn_closing (by rw [hc]; rfl)] at hi
      rw [Phrase.tokens, List.map_cons, List.map_cons, List.map_append, List.cons_append,
        List.cons_append, List.append_assoc]
      refine (settles_element ht ho hc hb hi).congr ?_
      simp only [Phrase.Within, Phrase.nesting, Phrase.height, Phrase.height_tree]
      omega
  | group opening inner closing ho hc ih =>
    cases budget with
    | zero => exact settles_zero (by simp [Phrase.Within, Phrase.nesting])
    | succ budget =>
      have hs : inner.tokens.Sublist (opening :: (inner.tokens ++ [closing])) :=
        (List.sublist_append_left ..).cons _
      have hf : Level.sum.Free closing.kind := by rw [hc]; exact Level.free_sum (by decide) rfl
      have hi := ih budget (.token closing :: rest) (hd.sublist hs) rfl hf
      rw [goOn_closing (by rw [hc]; rfl)] at hi
      rw [Phrase.tokens, List.map_cons, List.map_append, List.cons_append, List.append_assoc]
      refine (settles_group ho hc hi).congr ?_
      simp only [Phrase.Within, Phrase.nesting, Phrase.height]
      omega
  | signed t sign operand ht ih =>
    cases budget with
    | zero => exact settles_zero (by simp [Phrase.Within, Phrase.nesting])
    | succ budget =>
      have hi := ih budget rest (hd.sublist (List.sublist_cons_self ..)) hp hk
      refine (settles_signed ht hi).congr ?_
      simp only [Phrase.Within, Phrase.nesting, Phrase.height, Phrase.height_tree]
      omega
  | single hl item ih =>
    have hi := ih budget rest hd hp (hk.below hl)
    rw [goOn_of_free hl hp hk] at hi
    rw [reading_levelParser hl]
    exact hi.bind
  | join hl left t operator right ht hm ihl ihr =>
    have hs : right.tokens.Sublist (left.tokens ++ t :: right.tokens) :=
      (List.sublist_cons_self ..).trans (List.sublist_append_right ..)
    have hr := ihr budget rest (hd.sublist hs) hp (hk.below hl)
    rw [goOn_of_free hl hp hk] at hr
    have hi := ihl budget (.token t :: (right.tokens.map .token ++ rest))
      (hd.sublist (List.sublist_append_left ..)) rfl (ht ▸ hm ▸ Level.free_operator operator)
    rw [Phrase.tokens, List.map_append, List.map_cons, List.append_assoc, List.cons_append]
    refine (hi.trans (settles_join hl ht hm hr)).congr ?_
    simp only [Phrase.Within, Phrase.nesting, Phrase.height, Phrase.height_tree]
    omega

/-! ## Whatever is read is a phrase -/

/-- Pieces as they stand in a text. -/
def InOrder (pieces : List Piece) : Prop :=
  pieces.Pairwise fun p q => p.span.stop ≤ q.span.start

theorem InOrder.of_append {as bs : List Piece} (h : InOrder (as ++ bs)) : InOrder bs :=
  List.Pairwise.sublist (List.sublist_append_right ..) h

/-- The front of `pieces`, up to `rest`, is a phrase with tree `e` that keeps within the limits. -/
def Derives (l : Level) (budget : Nat) (pieces : List Piece) (e : Expr) (rest : List Piece) :
    Prop :=
  ∃ d : Phrase l, pieces = d.tokens.map .token ++ rest ∧ d.tree = e ∧ d.Within budget ∧
    ∀ t ∈ d.tokens, t.Fits

/-- Whatever a parser reads is a phrase. -/
def Sound (l : Level) (budget : Nat) (parser : Parser) : Prop :=
  ∀ {pieces : List Piece} {e : Expr} {rest : List Piece}, InOrder pieces →
    reading parser pieces = .ok (e, rest) → Derives l budget pieces e rest

theorem checkHeight_eq_ok {e e' : Expr} (h : checkHeight e = .ok e') :
    e' = e ∧ e.height ≤ maxHeight := by
  unfold checkHeight at h
  split at h
  · next hh => cases h; exact ⟨rfl, hh⟩
  · cases h

/-- Going on from a phrase reads a phrase. The induction is on what is left to read. -/
theorem derives_readingFrom {l m : Level} {budget : Nat} {parser : Parser} (hl : l.Below m)
    (hs : Sound l budget parser) (n : Nat) (d : Phrase m) {pieces rest : List Piece} {e : Expr}
    (hn : pieces.length < n) (hw : d.Within budget) (hf : ∀ t ∈ d.tokens, t.Fits)
    (ho : InOrder pieces) (h : readingFrom m.operator? parser d.tree pieces = .ok (e, rest)) :
    Derives m budget (d.tokens.map .token ++ pieces) e rest := by
  induction n generalizing d pieces with
  | zero => exact absurd hn (Nat.not_lt_zero _)
  | succ n ih =>
    match pieces with
    | [] =>
      rw [readingFrom_nil] at h
      cases h
      exact ⟨d, rfl, rfl, hw, hf⟩
    | .unrecognized f :: _ =>
      rw [readingFrom_unrecognized] at h
      cases h
    | .token t :: pieces =>
      cases hk : m.operator? t.kind with
      | none =>
        rw [readingFrom_stop hk] at h
        cases h
        exact ⟨d, rfl, rfl, hw, hf⟩
      | some operator =>
        obtain ⟨hm, ht⟩ := Level.operator?_eq_some_iff.1 hk
        rw [readingFrom_operator hk] at h
        obtain ⟨⟨right, rest'⟩, hr, h⟩ := bind_eq_ok.1 h
        obtain ⟨joined, hj, h⟩ := bind_eq_ok.1 h
        obtain ⟨rfl, hh⟩ := checkHeight_eq_ok hj
        obtain ⟨d', rfl, rfl, hw', hf'⟩ := hs ho.of_cons hr
        have hn' : rest'.length < n := by
          simp only [List.length_cons, List.length_append] at hn
          omega
        have hwj : (Phrase.join hl d t operator d' ht.symm hm).Within budget := by
          refine ⟨Nat.max_le.2 ⟨hw.1, hw'.1⟩, ?_⟩
          rw [← Phrase.height_tree]
          exact hh
        have hft : t.Fits := Token.fits_of_ne (ht ▸ operator.token_ne_number)
        have hfj : ∀ u ∈ (Phrase.join hl d t operator d' ht.symm hm).tokens, u.Fits :=
          List.forall_mem_append.2 ⟨hf, List.forall_mem_cons.2 ⟨hft, hf'⟩⟩
        have hd := ih _ hn' hwj hfj (InOrder.of_append ho.of_cons) h
        rw [Phrase.tokens, List.map_append, List.map_cons, List.append_assoc,
          List.cons_append] at hd
        exact hd

/-- A level is read soundly when the level below it is. -/
theorem Sound.next {finish : Span} {l m : Level} {budget : Nat} (hl : l.Below m)
    (hs : Sound l budget (levelParser finish budget l)) :
    Sound m budget (levelParser finish budget m) := by
  intro pieces e rest ho h
  rw [reading_levelParser hl] at h
  obtain ⟨⟨first, rest'⟩, hr, h⟩ := bind_eq_ok.1 h
  rw [goOn_eq hl] at h
  obtain ⟨d, rfl, rfl, hw, hf⟩ := hs ho hr
  exact derives_readingFrom hl hs _ (.single hl d) (Nat.lt_succ_self _) hw hf ho.of_append h

section
variable {finish : Span} {budget : Nat} {t : Token} {pieces rest : List Piece} {e : Expr}

theorem derives_signed {sign : Sign} (ht : t.kind = sign.token)
    (hs : Sound .operand budget (operand finish budget)) (ho : InOrder (.token t :: pieces))
    (h : reading (operand finish (budget + 1)) (.token t :: pieces) = .ok (e, rest)) :
    Derives .operand (budget + 1) (.token t :: pieces) e rest := by
  rw [reading_operand_signed ht] at h
  obtain ⟨⟨inner, rest'⟩, hi, h⟩ := bind_eq_ok.1 h
  obtain ⟨node, hj, h⟩ := bind_eq_ok.1 h
  obtain ⟨rfl, hh⟩ := checkHeight_eq_ok hj
  cases h
  obtain ⟨d, rfl, rfl, hw, hf⟩ := hs ho.of_cons hi
  refine ⟨.signed t sign d ht, rfl, rfl, ⟨Nat.succ_le_succ hw.1, ?_⟩, ?_⟩
  · rw [← Phrase.height_tree]
    exact hh
  · exact List.forall_mem_cons.2 ⟨Token.fits_of_ne (ht ▸ sign.token_ne_number), hf⟩

/-- Up to a closing token stands a sum. -/
theorem derives_closed {closing : TokenKind} {span : Span}
    (hs : Sound .sum budget (sum (operand finish budget))) (ho : InOrder pieces)
    (h : readingClosed finish closing (operand finish budget) pieces = .ok (e, span, rest)) :
    ∃ c : Token, c.kind = closing ∧ c.span = span ∧
      Derives .sum budget pieces e (.token c :: rest) := by
  obtain ⟨c, hc, hsp, h⟩ := readingClosed_eq_ok h
  exact ⟨c, hc, hsp, hs ho h⟩

theorem derives_group (ht : t.kind = .leftParenthesis)
    (hs : Sound .sum budget (sum (operand finish budget))) (ho : InOrder (.token t :: pieces))
    (h : reading (operand finish (budget + 1)) (.token t :: pieces) = .ok (e, rest)) :
    Derives .operand (budget + 1) (.token t :: pieces) e rest := by
  rw [reading_operand_group ht] at h
  obtain ⟨⟨inner, span, rest'⟩, hi, h⟩ := bind_eq_ok.1 h
  cases h
  obtain ⟨c, hc, -, d, rfl, rfl, hw, hf⟩ := derives_closed hs ho.of_cons hi
  refine ⟨.group t d c ht hc, ?_, rfl, ⟨Nat.succ_le_succ hw.1, hw.2⟩, ?_⟩
  · simp [Phrase.tokens]
  · have hft : t.Fits := Token.fits_of_ne (by rw [ht]; decide)
    have hfc : c.Fits := Token.fits_of_ne (by rw [hc]; decide)
    exact List.forall_mem_cons.2 ⟨hft,
      List.forall_mem_append.2 ⟨hf, List.forall_mem_singleton.2 hfc⟩⟩

theorem derives_element {opening : Token} (ht : t.kind = .name) (hb : opening.kind = .leftBracket)
    (hs : Sound .sum budget (sum (operand finish budget)))
    (ho : InOrder (.token t :: .token opening :: pieces))
    (h : reading (operand finish (budget + 1)) (.token t :: .token opening :: pieces) =
      .ok (e, rest)) :
    Derives .operand (budget + 1) (.token t :: .token opening :: pieces) e rest := by
  rw [reading_operand_element ht hb] at h
  obtain ⟨⟨index, span, rest'⟩, hi, h⟩ := bind_eq_ok.1 h
  obtain ⟨node, hj, h⟩ := bind_eq_ok.1 h
  obtain ⟨rfl, hh⟩ := checkHeight_eq_ok hj
  cases h
  obtain ⟨c, hc, rfl, d, rfl, rfl, hw, hf⟩ := derives_closed hs ho.of_cons.of_cons hi
  have htc : t.span.stop ≤ c.span.start :=
    (List.pairwise_cons.1 ho).1 (.token c) (by simp)
  refine ⟨.element t opening d c ht hb hc, ?_, ?_, ⟨Nat.succ_le_succ hw.1, ?_⟩, ?_⟩
  · simp [Phrase.tokens]
  · rw [Span.merge_of_stop_le htc, Phrase.tree]
  · rw [← Phrase.height_tree]
    exact hh
  · have hft : t.Fits := Token.fits_of_ne (by rw [ht]; decide)
    have hfo : opening.Fits := Token.fits_of_ne (by rw [hb]; decide)
    have hfc : c.Fits := Token.fits_of_ne (by rw [hc]; decide)
    exact List.forall_mem_cons.2 ⟨hft, List.forall_mem_cons.2 ⟨hfo,
      List.forall_mem_append.2 ⟨hf, List.forall_mem_singleton.2 hfc⟩⟩⟩

theorem derives_number (ht : t.kind = .number)
    (h : reading (operand finish (budget + 1)) (.token t :: pieces) = .ok (e, rest)) :
    Derives .operand (budget + 1) (.token t :: pieces) e rest := by
  rw [reading_operand_number ht] at h
  cases hv : Value.ofInt? (Text.ofDigits t.lexeme) with
  | none => rw [hv] at h; cases h
  | some value =>
    rw [hv] at h
    cases h
    obtain ⟨hf, rfl⟩ := Token.fits_of_ofInt? hv
    exact ⟨.number t ht, rfl, rfl, ⟨Nat.le_add_left _ _, (by decide : 1 ≤ maxHeight)⟩,
      List.forall_mem_singleton.2 hf⟩

theorem derives_name {kind : TokenKind} {span : Span} (ht : t.kind = .name)
    (hp : peek finish pieces = .ok (kind, span)) (hk : kind ≠ .leftBracket)
    (h : reading (operand finish (budget + 1)) (.token t :: pieces) = .ok (e, rest)) :
    Derives .operand (budget + 1) (.token t :: pieces) e rest := by
  rw [reading_operand_name ht hp hk] at h
  cases h
  exact ⟨.name t ht, rfl, rfl, ⟨Nat.le_add_left _ _, (by decide : 1 ≤ maxHeight)⟩,
    List.forall_mem_singleton.2 (Token.fits_of_ne (by rw [ht]; decide))⟩

end

theorem sound_sum {finish : Span} {budget : Nat}
    (hs : Sound .operand budget (operand finish budget)) :
    Sound .sum budget (sum (operand finish budget)) :=
  Sound.next (m := .sum) .product (Sound.next (m := .product) .operand hs)

/-- Every operand that is read is one of the grammar. The induction is on the number of operands
that may still be open. -/
theorem sound_operand (finish : Span) (budget : Nat) :
    Sound .operand budget (operand finish budget) := by
  induction budget with
  | zero =>
    intro pieces e rest _ h
    rw [reading, operand] at h
    cases hp : peek finish pieces <;> rw [hp] at h <;> cases h
  | succ budget ih =>
    intro pieces e rest ho h
    match pieces with
    | [] => rw [reading, operand] at h; cases h
    | .unrecognized f :: _ => rw [reading, operand] at h; cases h
    | .token t :: pieces =>
      cases ht : t.kind with
      | plus => exact derives_signed (show t.kind = Sign.plus.token from ht) ih ho h
      | minus => exact derives_signed (show t.kind = Sign.minus.token from ht) ih ho h
      | number => exact derives_number ht h
      | leftParenthesis => exact derives_group ht (sound_sum ih) ho h
      | name =>
        match pieces with
        | [] => exact derives_name ht rfl (by decide) h
        | .unrecognized f :: _ => rw [reading, operand, ht] at h; cases h
        | .token next :: inside =>
          by_cases hn : next.kind = .leftBracket
          · exact derives_element ht hn (sound_sum ih) ho h
          · exact derives_name ht rfl hn h
      | rightParenthesis | leftBracket | rightBracket | star | slash | percent | finish =>
        rw [reading, operand, ht] at h
        cases h

/-! ## Whole texts -/

theorem ofPieces_eq (finish : Span) (pieces : List Piece) :
    ofPieces finish pieces = (do
      let whole ← reading (sum (operand finish maxNesting)) pieces
      let next ← peek finish whole.2
      if next.1 = .finish then .ok whole.1 else .error ⟨.unexpected next.1 .finish, next.2⟩) := by
  unfold ofPieces reading
  cases sum (operand finish maxNesting) pieces with
  | error fault => rfl
  | ok whole =>
    simp only [Except.map, ok_bind]
    cases peek finish whole.rest with
    | error fault => rfl
    | ok next =>
      obtain ⟨kind, span⟩ := next
      cases kind <;> rfl

/-- A text that is read is a sum. -/
theorem derives_parse {source : String} {e : Expr} (h : parse source = .ok e) :
    Derives .sum maxNesting (Piece.scan source) e [] := by
  rw [parse, ofPieces_eq] at h
  obtain ⟨⟨whole, rest⟩, hw, h⟩ := bind_eq_ok.1 h
  obtain ⟨⟨kind, span⟩, hp, h⟩ := bind_eq_ok.1 h
  dsimp only at h
  split at h
  · next hk =>
    cases h
    cases hk
    have hd := sound_sum (sound_operand _ _) (Piece.scanFrom_inOrder 0 source.toList) hw
    match rest with
    | [] => exact hd
    | .unrecognized f :: _ => cases hp
    | .token t :: rest =>
      obtain ⟨d, hs, -⟩ := hd
      have ht : .token t ∈ Piece.scanFrom 0 source.toList := by rw [hs]; simp
      have hk : t.kind = .finish := congrArg Prod.fst (Except.ok.inj hp)
      exact absurd hk (Piece.kind_ne_finish_of_mem_scanFrom ht)
  · cases h

/-- A text that is a sum is read as its tree, or refused for its depth. -/
theorem settles_parse {source : String} (d : Phrase .sum)
    (hd : Piece.scan source = d.tokens.map .token) (hf : ∀ t ∈ d.tokens, t.Fits) :
    Settles (parse source) (d.Within maxNesting) (.ok d.tree) := by
  have ho : d.tokens.Pairwise Token.Before := by
    have h := Piece.scanFrom_inOrder 0 source.toList
    rw [← Piece.scan, hd, List.pairwise_map] at h
    exact h
  have hp : peek (.endOf source) [] = .ok (.finish, .endOf source) := rfl
  have hs := settles_phrase d maxNesting [] ⟨ho, hf⟩ hp (Level.free_sum (by decide) rfl)
  rw [List.append_nil, ← hd, goOn_eq .product, readingFrom_nil] at hs
  rw [parse, ofPieces_eq]
  exact hs.bind

/-- All sums that the tokens of a text make have the tree that is read. -/
theorem eq_tree_of_parse {source : String} {e : Expr} (h : parse source = .ok e) (d : Phrase .sum)
    (hd : Piece.scan source = d.tokens.map .token) : e = d.tree ∧ ∀ t ∈ d.tokens, t.Fits := by
  obtain ⟨d', hd', -, -, hf⟩ := derives_parse h
  have ht : d.tokens = d'.tokens := by
    rw [List.append_nil, hd] at hd'
    exact (List.map_inj_right fun _ _ => Piece.token.inj).1 hd'
  rw [← ht] at hf
  have hs := settles_parse d hd hf
  refine ⟨?_, hf⟩
  by_cases hw : d.Within maxNesting
  · exact Except.ok.inj (h.symm.trans (hs.1 hw))
  · obtain ⟨span, he⟩ := hs.2 hw
    rw [h] at he
    cases he

end Expr

/-- A text is read exactly when its tokens are a sum of the grammar whose numbers are values and
that keeps within the limits, and its nodes are then the tree of that sum and no other. A sum of
such numbers outside of the limits is refused for its depth. -/
theorem parse_iff_grammar (source : String) :
    ((∃ e, Expr.parse source = .ok e) ↔
      ∃ ts : List Token, Piece.scan source = ts.map .token ∧
        ∃ d : Phrase .sum, d.tokens = ts ∧
          (∀ t ∈ ts, t.kind = .number → Text.ofDigits t.lexeme ≤ 9223372036854775807) ∧
          d.nesting ≤ 256 ∧ d.height ≤ 1024) ∧
    (∀ e, Expr.parse source = .ok e →
      ∀ d : Phrase .sum, Piece.scan source = d.tokens.map .token →
        (∀ e', Node.TreeAt e.nodes (e.nodes.length - 1) e' ↔ e' = d.tree) ∧
        ∀ t ∈ d.tokens, t.kind = .number → t.value.toInt = (Text.ofDigits t.lexeme : Int)) ∧
    ∀ d : Phrase .sum, Piece.scan source = d.tokens.map .token →
      (∀ t ∈ d.tokens, t.kind = .number → Text.ofDigits t.lexeme ≤ 9223372036854775807) →
      ¬(d.nesting ≤ 256 ∧ d.height ≤ 1024) →
      ∃ span, Expr.parse source = .error ⟨.tooDeep, span⟩ := by
  refine ⟨⟨?_, ?_⟩, ?_, ?_⟩
  · rintro ⟨e, h⟩
    obtain ⟨d, hs, -, hw, hf⟩ := Expr.derives_parse h
    rw [List.append_nil] at hs
    exact ⟨d.tokens, hs, d, rfl, hf, hw.1, hw.2⟩
  · rintro ⟨ts, hs, d, rfl, hf, hn, hh⟩
    exact ⟨d.tree, (Expr.settles_parse d hs hf).1 ⟨hn, hh⟩⟩
  · intro e h d hs
    obtain ⟨rfl, hf⟩ := Expr.eq_tree_of_parse h d hs
    refine ⟨fun e' => ⟨fun h' => h'.unique d.tree.treeAt_nodes, ?_⟩, fun t ht hk => ?_⟩
    · rintro rfl
      exact d.tree.treeAt_nodes
    · exact Value.toInt_of_ofInt? (Token.ofInt?_of_fits (hf t ht) hk)
  · intro d hs hf hw
    exact (Expr.settles_parse d hs hf).2 hw

/-- In `7-2-x` the differences are grouped to the left. -/
theorem parse_iff_grammar_differences :
    ∃ e, Expr.parse "7-2-x" = .ok e ∧
      Node.TreeAt e.nodes (e.nodes.length - 1)
        (.binary .subtract (.binary .subtract (.number 7 ⟨0, 1⟩) (.number 2 ⟨2, 1⟩) ⟨1, 1⟩)
          (.var "x" ⟨4, 1⟩) ⟨3, 1⟩) := by
  let d : Phrase .sum :=
    .join .product
      (.join .product (.single .product (.single .operand (.number ⟨.number, ['7'], ⟨0, 1⟩⟩ rfl)))
        ⟨.minus, ['-'], ⟨1, 1⟩⟩ .subtract
        (.single .operand (.number ⟨.number, ['2'], ⟨2, 1⟩⟩ rfl)) rfl rfl)
      ⟨.minus, ['-'], ⟨3, 1⟩⟩ .subtract
      (.single .operand (.name ⟨.name, ['x'], ⟨4, 1⟩⟩ rfl)) rfl rfl
  have hs : Piece.scan "7-2-x" = d.tokens.map .token := by decide +kernel
  have hf : ∀ t ∈ d.tokens, t.kind = .number → Text.ofDigits t.lexeme ≤ 9223372036854775807 := by
    decide +kernel
  have h := parse_iff_grammar "7-2-x"
  obtain ⟨e, he⟩ := h.1.2 ⟨d.tokens, hs, d, rfl, hf, by decide +kernel, by decide +kernel⟩
  exact ⟨e, he, ((h.2.1 e he d hs).1 _).2 (by decide +kernel)⟩

end BlockScript
