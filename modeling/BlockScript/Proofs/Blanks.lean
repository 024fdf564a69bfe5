import BlockScript.Place
import BlockScript.Proofs.Parsing
import BlockScript.Proofs.Partition

/-!
# Blanks between tokens make no difference

Two texts with the same pieces, whatever stands between them, are parsed to the same nodes or
refused for the same cause, have the same value and name the same place
(`blanks_insignificant`). Spans are the only thing that differs, and they go with each other: where
one text is blamed from one piece through another, the other text is blamed from the piece with the
same number through the other (`Span.SameTokens`).

No decision of the parser looks at a span. This is said for any relation between the spans of two
texts that is kept when a node takes its span from tokens (`Correspondence`): pieces that are alike
are parsed alike (`Expr.parsesAlike_operand`, `Expr.ParsesAlike.next`).
The one decision that does look at spans, whether a node covers its text, is a decision on the
numbers of its first and last piece (`Place.covers_iff`).
-/

set_option autoImplicit false

namespace BlockScript

/-! ## Results that agree -/

/-- Two computations agree: both have results that `V` relates, or both end in faults that `F`
relates. -/
inductive Agree {ε α : Type} (F : ε → ε → Prop) (V : α → α → Prop) :
    Except ε α → Except ε α → Prop
  | ok {a b : α} (h : V a b) : Agree F V (.ok a) (.ok b)
  | error {x y : ε} (h : F x y) : Agree F V (.error x) (.error y)

namespace Agree

variable {ε α β : Type} {F : ε → ε → Prop} {V : α → α → Prop} {W : β → β → Prop}
  {x y : Except ε α}

theorem bind {f g : α → Except ε β} (h : Agree F V x y)
    (hf : ∀ a b, x = .ok a → V a b → Agree F W (f a) (g b)) : Agree F W (x >>= f) (y >>= g) := by
  cases h with
  | ok h => exact hf _ _ rfl h
  | error h => exact .error h

theorem mono {V' : α → α → Prop} (h : Agree F V x y) (hv : ∀ a b, V a b → V' a b) :
    Agree F V' x y := by
  cases h with
  | ok h => exact .ok (hv _ _ h)
  | error h => exact .error h

end Agree

/-! ## What goes with what -/

/-- How the spans of one text go with the spans of another: those of tokens, those of nodes and
those of faults. A node stands at a token or from one token to another. -/
structure Correspondence where
  token : Span → Span → Prop
  node : Span → Span → Prop
  fault : Span → Span → Prop
  node_of_token : ∀ {a b : Span}, token a b → node a b
  node_merge : ∀ {a b c d : Span}, token a b → token c d → node (a.merge c) (b.merge d)
  fault_of_node : ∀ {a b : Span}, node a b → fault a b

theorem Correspondence.fault_of_token (k : Correspondence) {a b : Span} (h : k.token a b) :
    k.fault a b :=
  k.fault_of_node (k.node_of_token h)

/-- Pieces that differ in their spans alone. -/
inductive Piece.Alike (k : Correspondence) : Piece → Piece → Prop
  | token {kind : TokenKind} {lexeme : List Char} {a b : Span} (h : k.token a b) :
      Alike k (.token ⟨kind, lexeme, a⟩) (.token ⟨kind, lexeme, b⟩)
  | unrecognized {c : Char} {a b : Span} (h : k.token a b) :
      Alike k (.unrecognized ⟨c, a⟩) (.unrecognized ⟨c, b⟩)

/-- Expressions that differ in their spans alone. -/
inductive Expr.Alike (k : Correspondence) : Expr → Expr → Prop
  | number {value : Value} {a b : Span} (h : k.node a b) :
      Alike k (.number value a) (.number value b)
  | var {name : String} {a b : Span} (h : k.node a b) : Alike k (.var name a) (.var name b)
  | element {name : String} {index index' : Expr} {a b : Span} (hi : Alike k index index')
      (h : k.node a b) : Alike k (.element name index a) (.element name index' b)
  | signed {sign : Sign} {operand operand' : Expr} {a b : Span} (ho : Alike k operand operand')
      (h : k.node a b) : Alike k (.signed sign operand a) (.signed sign operand' b)
  | binary {operator : Operator} {left left' right right' : Expr} {a b : Span}
      (hl : Alike k left left') (hr : Alike k right right') (h : k.node a b) :
      Alike k (.binary operator left right a) (.binary operator left' right' b)

/-- Refusals for the same cause. -/
def SyntaxError.Alike (R : Span → Span → Prop) (x y : SyntaxError) : Prop :=
  x.cause = y.cause ∧ R x.span y.span

namespace Expr

section
variable {k : Correspondence} {e e' : Expr}

theorem Alike.span (h : Alike k e e') : k.node e.span e'.span := by
  cases h <;> assumption

theorem Alike.height_eq (h : Alike k e e') : e.height = e'.height := by
  induction h with
  | number | var => rfl
  | element _ _ ih => rw [height, height, ih]
  | signed _ _ ih => rw [height, height, ih]
  | binary _ _ _ ihl ihr => rw [height, height, ihl, ihr]

theorem Alike.size_eq (h : Alike k e e') : e.size = e'.size := by
  induction h with
  | number | var => rfl
  | element _ _ ih => rw [size, size, ih]
  | signed _ _ ih => rw [size, size, ih]
  | binary _ _ _ ihl ihr => rw [size, size, ihl, ihr]

end

/-! ## Parsing -/

section
variable {k : Correspondence} {finish finish' : Span}

/-- What is read from pieces that are alike, and what is left of them. -/
def ReadAlike (k : Correspondence) (r r' : Expr × List Piece) : Prop :=
  Alike k r.1 r'.1 ∧ List.Forall₂ (Piece.Alike k) r.2 r'.2

/-- Two parsers do the same with pieces that are alike. -/
def ParsesAlike (k : Correspondence) (parser parser' : Parser) : Prop :=
  ∀ ps ps', List.Forall₂ (Piece.Alike k) ps ps' →
    Agree (SyntaxError.Alike k.fault) (ReadAlike k) (reading parser ps) (reading parser' ps')

theorem agree_checkHeight {e e' : Expr} (h : Alike k e e') :
    Agree (SyntaxError.Alike k.fault) (Alike k) (checkHeight e) (checkHeight e') := by
  unfold checkHeight
  rw [← h.height_eq]
  split
  · exact .ok h
  · exact .error ⟨rfl, k.fault_of_node h.span⟩

/-- Chains go on alike. The induction is on what is left to read. -/
theorem agree_readingFrom {operator? : TokenKind → Option Operator} {parser parser' : Parser}
    (hp : ParsesAlike k parser parser') (n : Nat) {left left' : Expr} {ps ps' : List Piece}
    (hn : ps.length < n) (hl : Alike k left left') (h : List.Forall₂ (Piece.Alike k) ps ps') :
    Agree (SyntaxError.Alike k.fault) (ReadAlike k) (readingFrom operator? parser left ps)
      (readingFrom operator? parser' left' ps') := by
  induction n generalizing left left' ps ps' with
  | zero => exact absurd hn (Nat.not_lt_zero _)
  | succ n ih =>
    cases h with
    | nil =>
      rw [readingFrom_nil, readingFrom_nil]
      exact .ok ⟨hl, .nil⟩
    | cons hfirst hrest =>
      cases hfirst with
      | unrecognized h =>
        rw [readingFrom_unrecognized, readingFrom_unrecognized]
        exact .error ⟨rfl, k.fault_of_token h⟩
      | @token kind lexeme a b h =>
        cases hk : operator? kind with
        | none =>
          rw [readingFrom_stop hk, readingFrom_stop hk]
          exact .ok ⟨hl, .cons (.token h) hrest⟩
        | some operator =>
          rw [readingFrom_operator hk, readingFrom_operator hk]
          refine (hp _ _ hrest).bind fun right right' hright hr => ?_
          refine (agree_checkHeight (.binary hl hr.1 (k.node_of_token h))).bind ?_
          intro joined joined' _ hj
          have hshort := length_lt_of_reading hright
          rw [List.length_cons] at hn
          exact ih (by omega) hj hr.2

theorem agree_taking (hf : k.fault finish finish') (kind : TokenKind) {ps ps' : List Piece}
    (h : List.Forall₂ (Piece.Alike k) ps ps') :
    Agree (SyntaxError.Alike k.fault)
      (fun r r' => k.token r.1 r'.1 ∧ List.Forall₂ (Piece.Alike k) r.2 r'.2)
      (taking finish kind ps) (taking finish' kind ps') := by
  cases h with
  | nil => exact .error ⟨rfl, hf⟩
  | cons hfirst hrest =>
    cases hfirst with
    | unrecognized h => exact .error ⟨rfl, k.fault_of_token h⟩
    | @token actual lexeme a b h =>
      unfold taking expect
      by_cases hk : actual = kind
      · simp only [hk, if_true]
        exact .ok ⟨h, hrest⟩
      · simp only [hk, if_false]
        exact .error ⟨rfl, k.fault_of_token h⟩

theorem agree_readingClosed {parser parser' : Parser} (hf : k.fault finish finish')
    (hp : ParsesAlike k (sum parser) (sum parser')) (closing : TokenKind) {ps ps' : List Piece}
    (h : List.Forall₂ (Piece.Alike k) ps ps') :
    Agree (SyntaxError.Alike k.fault)
      (fun r r' => Alike k r.1 r'.1 ∧ k.token r.2.1 r'.2.1 ∧
        List.Forall₂ (Piece.Alike k) r.2.2 r'.2.2)
      (readingClosed finish closing parser ps) (readingClosed finish' closing parser' ps') := by
  rw [readingClosed_eq, readingClosed_eq]
  refine (hp _ _ h).bind fun inner inner' _ hi => ?_
  exact (agree_taking hf closing hi.2).bind fun last last' _ hl => .ok ⟨hi.1, hl⟩

/-- A level is parsed alike when the level below it is. -/
theorem ParsesAlike.next {budget : Nat} {l m : Level} (hl : l.Below m)
    (hp : ParsesAlike k (levelParser finish budget l) (levelParser finish' budget l)) :
    ParsesAlike k (levelParser finish budget m) (levelParser finish' budget m) := by
  intro ps ps' h
  rw [reading_levelParser hl, reading_levelParser hl]
  refine (hp _ _ h).bind fun first first' _ hr => ?_
  rw [goOn_eq hl, goOn_eq hl]
  exact agree_readingFrom hp _ (Nat.lt_succ_self _) hr.1 hr.2

theorem parsesAlike_sum {budget : Nat}
    (hp : ParsesAlike k (operand finish budget) (operand finish' budget)) :
    ParsesAlike k (sum (operand finish budget)) (sum (operand finish' budget)) :=
  ParsesAlike.next (m := .sum) .product (ParsesAlike.next (m := .product) .operand hp)

/-! ### Operands, by the token they start with -/

section
variable {budget : Nat} {kind : TokenKind} {lexeme : List Char} {a b : Span} {ps ps' : List Piece}

theorem agree_signed (sign : Sign) (hk : kind = sign.token) (h : k.token a b)
    (hp : ParsesAlike k (operand finish budget) (operand finish' budget))
    (hrest : List.Forall₂ (Piece.Alike k) ps ps') :
    Agree (SyntaxError.Alike k.fault) (ReadAlike k)
      (reading (operand finish (budget + 1)) (.token ⟨kind, lexeme, a⟩ :: ps))
      (reading (operand finish' (budget + 1)) (.token ⟨kind, lexeme, b⟩ :: ps')) := by
  rw [reading_operand_signed hk, reading_operand_signed hk]
  refine (hp _ _ hrest).bind fun inner inner' _ hi => ?_
  refine (agree_checkHeight (.signed hi.1 (k.node_of_token h))).bind fun node node' _ hn => ?_
  exact .ok ⟨hn, hi.2⟩

theorem agree_number (h : k.token a b) (hrest : List.Forall₂ (Piece.Alike k) ps ps') :
    Agree (SyntaxError.Alike k.fault) (ReadAlike k)
      (reading (operand finish (budget + 1)) (.token ⟨.number, lexeme, a⟩ :: ps))
      (reading (operand finish' (budget + 1)) (.token ⟨.number, lexeme, b⟩ :: ps')) := by
  rw [reading_operand_number rfl, reading_operand_number rfl]
  cases Value.ofInt? (Text.ofDigits lexeme) with
  | some value => exact .ok ⟨.number (k.node_of_token h), hrest⟩
  | none => exact .error ⟨rfl, k.fault_of_token h⟩

theorem agree_group (hf : k.fault finish finish')
    (hp : ParsesAlike k (sum (operand finish budget)) (sum (operand finish' budget)))
    (hrest : List.Forall₂ (Piece.Alike k) ps ps') :
    Agree (SyntaxError.Alike k.fault) (ReadAlike k)
      (reading (operand finish (budget + 1)) (.token ⟨.leftParenthesis, lexeme, a⟩ :: ps))
      (reading (operand finish' (budget + 1)) (.token ⟨.leftParenthesis, lexeme, b⟩ :: ps')) := by
  rw [reading_operand_group rfl, reading_operand_group rfl]
  refine (agree_readingClosed hf hp .rightParenthesis hrest).bind fun inner inner' _ hi => ?_
  exact .ok ⟨hi.1, hi.2.2⟩

theorem agree_name (hf : k.fault finish finish') (h : k.token a b)
    (hp : ParsesAlike k (sum (operand finish budget)) (sum (operand finish' budget)))
    (hrest : List.Forall₂ (Piece.Alike k) ps ps') :
    Agree (SyntaxError.Alike k.fault) (ReadAlike k)
      (reading (operand finish (budget + 1)) (.token ⟨.name, lexeme, a⟩ :: ps))
      (reading (operand finish' (budget + 1)) (.token ⟨.name, lexeme, b⟩ :: ps')) := by
  have hvar : Alike k (.var (String.ofList lexeme) a) (.var (String.ofList lexeme) b) :=
    .var (k.node_of_token h)
  cases hrest with
  | nil =>
    rw [reading_operand_name rfl rfl (by decide), reading_operand_name rfl rfl (by decide)]
    exact .ok ⟨hvar, .nil⟩
  | cons hnext hinside =>
    cases hnext with
    | unrecognized h => exact .error ⟨rfl, k.fault_of_token h⟩
    | @token next lexeme' c d hnext =>
      by_cases hb : next = .leftBracket
      · rw [reading_operand_element rfl hb, reading_operand_element rfl hb]
        refine (agree_readingClosed hf hp .rightBracket hinside).bind fun i i' _ hi => ?_
        have hnode : Alike k (.element (String.ofList lexeme) i.1 (a.merge i.2.1))
            (.element (String.ofList lexeme) i'.1 (b.merge i'.2.1)) :=
          .element hi.1 (k.node_merge h hi.2.1)
        exact (agree_checkHeight hnode).bind fun node node' _ hn => .ok ⟨hn, hi.2.2⟩
      · rw [reading_operand_name rfl rfl hb, reading_operand_name rfl rfl hb]
        exact .ok ⟨hvar, .cons (.token hnext) hinside⟩

end

/-- Operands are parsed alike. The induction is on the number of operands that may still be open. -/
theorem parsesAlike_operand (hf : k.fault finish finish') (budget : Nat) :
    ParsesAlike k (operand finish budget) (operand finish' budget) := by
  induction budget with
  | zero =>
    intro ps ps' h
    cases h with
    | nil => exact .error ⟨rfl, hf⟩
    | cons hfirst _ => cases hfirst <;> exact .error ⟨rfl, k.fault_of_token ‹_›⟩
  | succ budget ih =>
    intro ps ps' h
    cases h with
    | nil => exact .error ⟨rfl, hf⟩
    | cons hfirst hrest =>
      cases hfirst with
      | unrecognized h => exact .error ⟨rfl, k.fault_of_token h⟩
      | @token kind lexeme a b h =>
        cases kind with
        | plus => exact agree_signed .plus rfl h ih hrest
        | minus => exact agree_signed .minus rfl h ih hrest
        | number => exact agree_number h hrest
        | name => exact agree_name hf h (parsesAlike_sum ih) hrest
        | leftParenthesis => exact agree_group hf (parsesAlike_sum ih) hrest
        | rightParenthesis | leftBracket | rightBracket | star | slash | percent | finish =>
          exact .error ⟨rfl, k.fault_of_token h⟩

theorem agree_ofPieces (hf : k.fault finish finish') {ps ps' : List Piece}
    (h : List.Forall₂ (Piece.Alike k) ps ps') :
    Agree (SyntaxError.Alike k.fault) (Alike k) (ofPieces finish ps) (ofPieces finish' ps') := by
  rw [ofPieces_eq, ofPieces_eq]
  refine (parsesAlike_sum (parsesAlike_operand hf maxNesting) _ _ h).bind ?_
  rintro ⟨whole, rest⟩ ⟨whole', rest'⟩ - ⟨hw, hrest⟩
  cases hrest with
  | nil => exact .ok hw
  | cons hfirst _ =>
    cases hfirst with
    | unrecognized h => exact .error ⟨rfl, k.fault_of_token h⟩
    | @token kind lexeme a b h =>
      simp only [peek, ok_bind]
      split
      · exact .ok hw
      · exact .error ⟨rfl, k.fault_of_token h⟩

end

/-! ## Evaluation -/

section
variable {k : Correspondence} {s : State}

theorem agree_blame {α : Type} {a b : Span} (h : k.node a b) (x : Except Cause α) :
    Agree (fun x y => x.1 = y.1 ∧ k.node x.2 y.2) Eq (blame a x) (blame b x) := by
  cases x with
  | ok value => exact .ok rfl
  | error cause => exact .error ⟨rfl, h⟩

/-- Expressions that are alike have the same value, or fail for the same cause at nodes that go with
each other. -/
theorem Alike.agree_eval {e e' : Expr} (h : Alike k e e') (s : State) :
    Agree (fun x y => x.1 = y.1 ∧ k.node x.2 y.2) Eq (e.eval s) (e'.eval s) := by
  induction h with
  | number => exact .ok rfl
  | var h => exact agree_blame h _
  | element _ h ih =>
    refine ih.bind fun i i' _ hi => ?_
    subst hi
    exact agree_blame h _
  | signed _ h ih =>
    refine ih.bind fun a a' _ ha => ?_
    subst ha
    exact agree_blame h _
  | binary _ _ h ihl ihr =>
    refine ihl.bind fun a a' _ ha => ihr.bind fun b b' _ hb => ?_
    subst ha hb
    exact agree_blame h _

end

end Expr

/-! ## Nodes -/

/-- Nodes that differ in their spans alone. -/
inductive Node.Alike (R : Span → Span → Prop) : Node → Node → Prop
  | number {value : Value} {a b : Span} (h : R a b) : Alike R (.number value a) (.number value b)
  | var {name : String} {a b : Span} (h : R a b) : Alike R (.var name a) (.var name b)
  | element {name : String} {index : Nat} {a b : Span} (h : R a b) :
      Alike R (.element name index a) (.element name index b)
  | signed {sign : Sign} {operand : Nat} {a b : Span} (h : R a b) :
      Alike R (.signed sign operand a) (.signed sign operand b)
  | binary {operator : Operator} {left right : Nat} {a b : Span} (h : R a b) :
      Alike R (.binary operator left right a) (.binary operator left right b)

theorem Expr.Alike.nodesFrom {k : Correspondence} {e e' : Expr} (h : Alike k e e') (base : Nat) :
    List.Forall₂ (Node.Alike k.fault) (e.nodesFrom base) (e'.nodesFrom base) := by
  induction h generalizing base with
  | number h => exact .cons (.number (k.fault_of_node h)) .nil
  | var h => exact .cons (.var (k.fault_of_node h)) .nil
  | element hi h ih =>
    rw [Expr.nodesFrom, Expr.nodesFrom, hi.size_eq]
    exact List.rel_append (ih base) (.cons (.element (k.fault_of_node h)) .nil)
  | signed ho h ih =>
    rw [Expr.nodesFrom, Expr.nodesFrom, ho.size_eq]
    exact List.rel_append (ih base) (.cons (.signed (k.fault_of_node h)) .nil)
  | binary hl hr h ihl ihr =>
    rw [Expr.nodesFrom, Expr.nodesFrom, hl.size_eq, hr.size_eq]
    exact List.rel_append (List.rel_append (ihl base) (ihr _))
      (.cons (.binary (k.fault_of_node h)) .nil)

/-! ## Places in two texts -/

namespace Span

theorem merge_self (a : Span) : a.merge a = a := by
  cases a
  simp [merge, stop]

theorem merge_comm (a b : Span) : a.merge b = b.merge a := by
  simp only [merge, Nat.min_comm, Nat.max_comm]

/-- Merged with a later span, a span keeps its start and takes the end of the other. -/
theorem merge_of_le {a b : Span} (hs : a.start ≤ b.start) (ht : a.stop ≤ b.stop) :
    (a.merge b).start = a.start ∧ (a.merge b).stop = b.stop := by
  simp only [merge, stop] at *
  omega

/-- The span from number `i` of `marks` through number `j`. -/
def Through (marks : List Span) (i j : Nat) (a : Span) : Prop :=
  ∃ first last, marks[i]? = some first ∧ marks[j]? = some last ∧ a = first.merge last

theorem Through.append {marks : List Span} {i j : Nat} {a : Span} (h : Through marks i j a)
    (more : List Span) : Through (marks ++ more) i j a := by
  obtain ⟨first, last, hi, hj, rfl⟩ := h
  obtain ⟨hlt, -⟩ := List.getElem?_eq_some_iff.1 hi
  obtain ⟨hlt', -⟩ := List.getElem?_eq_some_iff.1 hj
  refine ⟨first, last, ?_, ?_, rfl⟩
  · rw [List.getElem?_append_left hlt, hi]
  · rw [List.getElem?_append_left hlt', hj]

/-- Spans that go from the same number through the same number, each in its own list. -/
def SameRange (marks marks' : List Span) (a b : Span) : Prop :=
  ∃ i j, i ≤ j ∧ Through marks i j a ∧ Through marks' i j b

/-- Spans of two texts that go from the same piece through the same piece, by the numbers of these
pieces. The end of a text counts as its last piece. -/
def SameTokens (source source' : String) : Span → Span → Prop :=
  SameRange ((Piece.scan source).map Piece.span ++ [endOf source])
    ((Piece.scan source').map Piece.span ++ [endOf source'])

end Span

/-- The spans of two texts, by the numbers of their pieces. -/
def Correspondence.between (source source' : String) : Correspondence where
  token a b := ∃ i : Nat, ((Piece.scan source).map Piece.span)[i]? = some a ∧
    ((Piece.scan source').map Piece.span)[i]? = some b
  node := Span.SameRange ((Piece.scan source).map Piece.span) ((Piece.scan source').map Piece.span)
  fault := Span.SameTokens source source'
  node_of_token := by
    rintro a b ⟨i, ha, hb⟩
    exact ⟨i, i, Nat.le_refl i, ⟨a, a, ha, ha, a.merge_self.symm⟩,
      ⟨b, b, hb, hb, b.merge_self.symm⟩⟩
  node_merge := by
    rintro a b c d ⟨i, ha, hb⟩ ⟨j, hc, hd⟩
    rcases Nat.le_total i j with hij | hij
    · exact ⟨i, j, hij, ⟨a, c, ha, hc, rfl⟩, ⟨b, d, hb, hd, rfl⟩⟩
    · exact ⟨j, i, hij, ⟨c, a, hc, ha, a.merge_comm c⟩, ⟨d, b, hd, hb, b.merge_comm d⟩⟩
  fault_of_node := by
    rintro a b ⟨i, j, hij, ha, hb⟩
    exact ⟨i, j, hij, ha.append _, hb.append _⟩

/-- What a piece is, apart from where it stands: its kind, if it is a token, and its lexeme. -/
def Piece.face : Piece → Option TokenKind × List Char
  | .token t => (some t.kind, t.lexeme)
  | .unrecognized f => (none, [f.character])

section
variable {source source' : String}

theorem Piece.alike_of_face {k : Correspondence} {p q : Piece} (h : p.face = q.face)
    (hs : k.token p.span q.span) : Alike k p q := by
  match p, q with
  | .token ⟨_, _, _⟩, .token ⟨_, _, _⟩ => cases h; exact .token hs
  | .unrecognized ⟨_, _⟩, .unrecognized ⟨_, _⟩ => cases h; exact .unrecognized hs
  | .token _, .unrecognized _ => cases h
  | .unrecognized _, .token _ => cases h

theorem Piece.alike_scan (h : (scan source).map face = (scan source').map face) :
    List.Forall₂ (Alike (.between source source')) (scan source) (scan source') := by
  have hl : (scan source).length = (scan source').length := by
    simpa using congrArg List.length h
  refine List.forall₂_iff_get.2 ⟨hl, fun i hi hi' => alike_of_face ?_ ⟨i, ?_, ?_⟩⟩
  · have hf := congrArg (·[i]?) h
    simp only [List.getElem?_map, List.getElem?_eq_getElem hi, List.getElem?_eq_getElem hi'] at hf
    exact Option.some.inj hf
  · simp [hi]
  · simp [hi']

theorem Span.sameTokens_endOf (h : (Piece.scan source).length = (Piece.scan source').length) :
    SameTokens source source' (.endOf source) (.endOf source') := by
  refine ⟨(Piece.scan source).length, _, Nat.le_refl _, ⟨_, _, ?_, ?_, (merge_self _).symm⟩,
    ⟨_, _, ?_, ?_, (merge_self _).symm⟩⟩
  · simp
  · simp
  · simp [h]
  · simp [h]

end

/-! ## Covering a text -/

/-- Blanks before a word are dropped, and nothing else. -/
theorem Text.dropWhile_isBlank_append {blanks word rest : List Char}
    (hb : ∀ c ∈ blanks, isBlank c) (hw : ∀ c ∈ word, isBlank c = false) (hne : word ≠ []) :
    (blanks ++ (word ++ rest)).dropWhile isBlank = word ++ rest := by
  rw [List.dropWhile_append_of_pos hb]
  cases word with
  | nil => exact absurd rfl hne
  | cons c word => simp [hw c List.mem_cons_self]

/-- Blanks behind a word are dropped, and nothing else. -/
theorem Text.dropBlankEnd_append {front word back : List Char}
    (hw : ∀ c ∈ word, isBlank c = false) (hne : word ≠ []) (hb : ∀ c ∈ back, isBlank c) :
    dropBlankEnd (front ++ (word ++ back)) = front ++ word := by
  have hback : ∀ c ∈ back.reverse, isBlank c := fun c hc => hb c (List.mem_reverse.1 hc)
  have hword : ∀ c ∈ word.reverse, isBlank c = false := fun c hc => hw c (List.mem_reverse.1 hc)
  rw [dropBlankEnd, List.reverse_append, List.reverse_append, List.append_assoc,
    dropWhile_isBlank_append hback hword (by simpa using hne), List.reverse_append,
    List.reverse_reverse, List.reverse_reverse]

namespace Piece

theorem isBlank_of_scanFrom_eq_nil {start : Nat} {cs : List Char} (h : scanFrom start cs = []) :
    ∀ c ∈ cs, Text.isBlank c := by
  intro c hc
  obtain ⟨front, back, hcs⟩ := List.append_of_mem hc
  have hiff := isBlank_eq_false_iff start hcs
  rw [h] at hiff
  simpa using hiff

theorem lexeme_ne_nil_of_mem {source : String} {p : Piece} (h : p ∈ scan source) :
    p.lexeme ≠ [] := by
  intro hl
  obtain ⟨before, after, hs⟩ := List.append_of_mem h
  obtain ⟨front, back, -, hspan, -⟩ := scanFrom_eq_append_cons hs
  have hpos := length_pos_of_mem_scanFrom h
  rw [hspan, hl] at hpos
  exact absurd hpos (Nat.lt_irrefl 0)

/-- The first piece starts behind the blanks that a text starts with. -/
theorem start_first {source : String} {p : Piece} {after : List Piece}
    (h : scan source = p :: after) :
    Text.byteLength source.toList - Text.byteLength (Text.dropBlankStart source.toList) =
      p.span.start := by
  obtain ⟨front, back, hcs, hspan, hf, -, hw⟩ :=
    scanFrom_eq_append_cons (show scan source = [] ++ p :: after from h)
  have hne : p.lexeme ≠ [] := lexeme_ne_nil_of_mem (by rw [h]; exact List.mem_cons_self)
  have hd : Text.dropBlankStart source.toList = p.lexeme ++ back := by
    rw [Text.dropBlankStart, hcs]
    exact Text.dropWhile_isBlank_append (isBlank_of_scanFrom_eq_nil hf) hw.isBlank_eq_false hne
  rw [hd, hcs, hspan]
  simp

/-- The last piece ends before the blanks that a text ends with. -/
theorem stop_last {source : String} {p : Piece} {before : List Piece}
    (h : scan source = before ++ [p]) :
    Text.byteLength (Text.dropBlankEnd source.toList) = p.span.stop := by
  obtain ⟨front, back, hcs, hspan, -, hb, hw⟩ := scanFrom_eq_append_cons h
  have hne : p.lexeme ≠ [] := lexeme_ne_nil_of_mem (by rw [h]; simp)
  have hd : Text.dropBlankEnd source.toList = front ++ p.lexeme := by
    rw [hcs]
    exact Text.dropBlankEnd_append hw.isBlank_eq_false hne (isBlank_of_scanFrom_eq_nil hb)
  rw [hd, Span.stop, hspan]
  simp

/-- Pieces with smaller numbers start and end earlier. -/
theorem lt_of_getElem? {source : String} {i j : Nat} {p q : Piece} (hij : i < j)
    (hp : (scan source)[i]? = some p) (hq : (scan source)[j]? = some q) :
    p.span.start < q.span.start ∧ p.span.stop < q.span.stop := by
  obtain ⟨hi, rfl⟩ := List.getElem?_eq_some_iff.1 hp
  obtain ⟨hj, rfl⟩ := List.getElem?_eq_some_iff.1 hq
  have ho : (scan source)[i].span.stop ≤ (scan source)[j].span.start :=
    List.pairwise_iff_getElem.1 (scanFrom_inOrder 0 source.toList) i j hi hj hij
  have hp := length_pos_of_mem_scanFrom (List.mem_of_getElem? hp)
  have hq := length_pos_of_mem_scanFrom (List.mem_of_getElem? hq)
  simp only [Span.stop] at *
  omega

/-- A piece that starts where the text does, apart from blanks, is the first. -/
theorem start_eq_iff {source : String} {i : Nat} {p : Piece} (hp : (scan source)[i]? = some p) :
    p.span.start =
        Text.byteLength source.toList - Text.byteLength (Text.dropBlankStart source.toList) ↔
      i = 0 := by
  cases hs : scan source with
  | nil => rw [hs] at hp; cases hp
  | cons first after =>
    have hfirst : (scan source)[0]? = some first := by rw [hs]; rfl
    rw [start_first hs]
    constructor
    · intro he
      by_contra hi
      have hlt := lt_of_getElem? (Nat.pos_of_ne_zero hi) hfirst hp
      omega
    · rintro rfl
      cases hfirst.symm.trans hp
      rfl

/-- A piece that ends where the text does, apart from blanks, is the last. -/
theorem stop_eq_iff {source : String} {i : Nat} {p : Piece} (hp : (scan source)[i]? = some p) :
    p.span.stop = Text.byteLength (Text.dropBlankEnd source.toList) ↔
      i + 1 = (scan source).length := by
  obtain ⟨hi, -⟩ := List.getElem?_eq_some_iff.1 hp
  rcases List.eq_nil_or_concat (scan source) with hs | ⟨before, last, hs⟩
  · rw [hs] at hp
    cases hp
  rw [List.concat_eq_append] at hs
  rw [stop_last hs]
  have hlen : (scan source).length = before.length + 1 := by rw [hs]; simp
  have hlast : (scan source)[before.length]? = some last := by rw [hs]; simp
  constructor
  · intro he
    by_contra hne
    have hlt := lt_of_getElem? (show i < before.length by omega) hp hlast
    omega
  · intro he
    obtain rfl : i = before.length := by omega
    cases hlast.symm.trans hp
    rfl

end Piece

/-- A node covers its text when it goes from the first piece through the last. -/
theorem Place.covers_iff {source : String} {e : Expr} {i j : Nat} (hij : i ≤ j)
    (h : Span.Through ((Piece.scan source).map Piece.span) i j e.span) :
    covers source e ↔ i = 0 ∧ j + 1 = (Piece.scan source).length := by
  obtain ⟨first, last, hi, hj, he⟩ := h
  rw [List.getElem?_map, Option.map_eq_some_iff] at hi hj
  obtain ⟨p, hp, rfl⟩ := hi
  obtain ⟨q, hq, rfl⟩ := hj
  have hle : p.span.start ≤ q.span.start ∧ p.span.stop ≤ q.span.stop := by
    rcases Nat.eq_or_lt_of_le hij with rfl | hlt
    · cases hp.symm.trans hq
      exact ⟨Nat.le_refl _, Nat.le_refl _⟩
    · have := Piece.lt_of_getElem? hlt hp hq
      omega
  obtain ⟨hstart, hstop⟩ := Span.merge_of_le hle.1 hle.2
  rw [covers, he, hstart, hstop, Bool.and_eq_true, beq_iff_eq, beq_iff_eq]
  exact and_congr (Piece.start_eq_iff hp) (Piece.stop_eq_iff hq)

/-! ## Whole texts -/

/-- Causes that differ in the spans of syntax errors alone. -/
inductive Cause.Alike (R : Span → Span → Prop) : Cause → Cause → Prop
  | syntaxError {x y : SyntaxError} (h : x.Alike R y) : Alike R (.syntaxError x) (.syntaxError y)
  | same (cause : Cause) : Alike R cause cause

/-- Faults of two texts that have the same cause and blame the same pieces. -/
structure Fault.Alike (source source' : String) (x y : Fault) : Prop where
  cause : x.cause.Alike (Span.SameTokens source source') y.cause
  origin : ∃ a b, x.origin = some ⟨source, a⟩ ∧ y.origin = some ⟨source', b⟩ ∧
    Span.SameTokens source source' a b

section
variable {source source' : String}

theorem agree_parse (h : (Piece.scan source).map Piece.face = (Piece.scan source').map Piece.face) :
    Agree (SyntaxError.Alike (Span.SameTokens source source'))
      (Expr.Alike (.between source source')) (Expr.parse source) (Expr.parse source') := by
  have hl : (Piece.scan source).length = (Piece.scan source').length := by
    simpa using congrArg List.length h
  exact Expr.agree_ofPieces (k := .between source source') (Span.sameTokens_endOf hl)
    (Piece.alike_scan h)

theorem agree_parseText
    (h : (Piece.scan source).map Piece.face = (Piece.scan source').map Piece.face) :
    Agree (Fault.Alike source source') (Expr.Alike (.between source source'))
      (parseText source) (parseText source') := by
  have hp := agree_parse h
  unfold parseText
  generalize Expr.parse source = x at hp
  generalize Expr.parse source' = y at hp
  cases hp with
  | ok h => exact .ok h
  | error h => exact .error ⟨.syntaxError h, _, _, rfl, rfl, h.2⟩

theorem agree_within {α : Type} {x y : Except (Cause × Span) α}
    (h : Agree (fun x y => x.1 = y.1 ∧ (Correspondence.between source source').node x.2 y.2) Eq
      x y) :
    Agree (Fault.Alike source source') Eq (Fault.within source x) (Fault.within source' y) := by
  cases h with
  | ok h => exact .ok h
  | @error x y h =>
    obtain ⟨cause, a⟩ := x
    obtain ⟨cause', b⟩ := y
    obtain ⟨rfl, hspan⟩ := h
    exact .error ⟨.same cause, a, b, rfl, rfl,
      (Correspondence.between source source').fault_of_node hspan⟩

theorem covers_eq (hl : (Piece.scan source).length = (Piece.scan source').length) {e e' : Expr}
    (h : Expr.Alike (.between source source') e e') :
    Place.covers source e = Place.covers source' e' := by
  obtain ⟨i, j, hij, ha, hb⟩ := h.span
  rw [Bool.eq_iff_iff, Place.covers_iff hij ha, Place.covers_iff hij hb, hl]

theorem agree_classify
    (h : (Piece.scan source).map Piece.face = (Piece.scan source').map Piece.face) :
    Agree (Fault.Alike source source') Eq (Place.classify source) (Place.classify source') := by
  have hl : (Piece.scan source).length = (Piece.scan source').length := by
    simpa using congrArg List.length h
  refine (agree_parseText h).bind fun e e' _ he => ?_
  rw [covers_eq hl he]
  cases he <;> cases Place.covers source' _ <;> exact .ok rfl

theorem agree_resolve (s : State)
    (h : (Piece.scan source).map Piece.face = (Piece.scan source').map Piece.face) :
    Agree (Fault.Alike source source') Eq (Place.resolve s source) (Place.resolve s source') := by
  have hl : (Piece.scan source).length = (Piece.scan source').length := by
    simpa using congrArg List.length h
  refine (agree_parseText h).bind fun e e' _ he => ?_
  rw [covers_eq hl he]
  cases Place.covers source' e' with
  | false => exact .ok rfl
  | true =>
    cases he with
    | number | signed | binary => exact .ok rfl
    | var h => exact (agree_within (Expr.agree_blame h _)).bind fun _ _ _ _ => .ok rfl
    | element hi h =>
      refine (agree_within (hi.agree_eval s)).bind fun i i' _ hi => ?_
      subst hi
      exact (agree_within (Expr.agree_blame h _)).bind fun _ _ _ _ => .ok rfl

end

/-- Two texts whose pieces agree in kind and lexeme, one by one, are not told apart: nodes, value,
kind and place are the same or fail for the same cause, from the same piece through the same
piece. -/
theorem blanks_insignificant (source source' : String) (s : State)
    (h : (Piece.scan source).map Piece.face = (Piece.scan source').map Piece.face) :
    Agree (SyntaxError.Alike (Span.SameTokens source source'))
      (fun e e' => List.Forall₂ (Node.Alike (Span.SameTokens source source')) e.nodes e'.nodes)
      (Expr.parse source) (Expr.parse source') ∧
    Agree (Fault.Alike source source') Eq (evaluate source s) (evaluate source' s) ∧
    Agree (Fault.Alike source source') Eq (Place.classify source) (Place.classify source') ∧
    Agree (Fault.Alike source source') Eq (Place.resolve s source) (Place.resolve s source') := by
  refine ⟨(agree_parse h).mono fun e e' he => he.nodesFrom 0, ?_, agree_classify h,
    agree_resolve s h⟩
  exact (agree_parseText h).bind fun e e' _ he => agree_within (he.agree_eval s)

/-- An element out of its bounds, written with and without blanks: the same fault, which goes from
the name through the closing bracket in both texts, and the same kind of place. -/
theorem blanks_insignificant_element :
    let s : State := ⟨.empty, ⟨[("a", #[4])]⟩, #[]⟩
    (Piece.scan "a[1]").map Piece.face = (Piece.scan "\u3000a\t[ 1 ] ").map Piece.face ∧
    evaluate "a[1]" s = .error (.inText "a[1]" (.indexOutOfBounds "a" 1) ⟨0, 4⟩) ∧
    evaluate "\u3000a\t[ 1 ] " s =
      .error (.inText "\u3000a\t[ 1 ] " (.indexOutOfBounds "a" 1) ⟨3, 7⟩) ∧
    Span.SameTokens "a[1]" "\u3000a\t[ 1 ] " ⟨0, 4⟩ ⟨3, 7⟩ ∧
    Place.classify "\u3000a\t[ 1 ] " = .ok (some .element) := by
  intro s
  have hs : (Piece.scan "a[1]").map Piece.face = (Piece.scan "\u3000a\t[ 1 ] ").map Piece.face := by
    decide +kernel
  have he : evaluate "a[1]" s = .error (.inText "a[1]" (.indexOutOfBounds "a" 1) ⟨0, 4⟩) := by
    decide +kernel
  have he' : evaluate "\u3000a\t[ 1 ] " s =
      .error (.inText "\u3000a\t[ 1 ] " (.indexOutOfBounds "a" 1) ⟨3, 7⟩) := by
    decide +kernel
  have hc : Place.classify "a[1]" = .ok (some .element) := by decide +kernel
  obtain ⟨-, heval, hclass, -⟩ := blanks_insignificant "a[1]" "\u3000a\t[ 1 ] " s hs
  refine ⟨hs, he, he', ?_, ?_⟩
  · rw [he, he'] at heval
    cases heval with
    | error h =>
      obtain ⟨a, b, ha, hb, hab⟩ := h.origin
      cases ha
      cases hb
      exact hab
  · rw [hc] at hclass
    generalize Place.classify "\u3000a\t[ 1 ] " = kind at hclass ⊢
    cases hclass with
    | ok h => rw [h]

end BlockScript
