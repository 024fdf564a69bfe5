import BlockScript.Proofs.Lexemes
import BlockScript.Proofs.Parsing
import BlockScript.Proofs.Standing

/-!
# Where a text is refused

A text that is no expression is refused at the first piece that no expression goes on with.
`Expr.Refusal` lists the ways in which the pieces of a text can be refused. All parsers keep to it
(`Expr.explains_operand`, `Expr.Explains.next`): what they read is a phrase, and what they refuse,
they refuse for size, for depth, or at a piece behind tokens that are the beginning of some phrase
and that leave no place for this piece. On whole texts this says that the tokens before the place
of a syntax error can be completed, and the tokens up to it cannot (`parse_error_viable`).
-/

set_option autoImplicit false

namespace BlockScript

/-- The kind of token that was found in the place of another. -/
def SyntaxCause.found? : SyntaxCause → Option TokenKind
  | .unexpected actual _ => some actual
  | .notOperand actual => some actual
  | _ => none

/-- No operator of a level or a tighter one has this token. -/
def Level.Stops : Level → TokenKind → Prop
  | .operand, _ => True
  | .product, kind => Expr.multiplicative? kind = none
  | .sum, kind => Expr.multiplicative? kind = none ∧ Expr.additive? kind = none

theorem Level.stops_iff {l m : Level} (hl : l.Below m) {kind : TokenKind} :
    m.Stops kind ↔ l.Stops kind ∧ m.operator? kind = none := by
  cases hl <;> simp [Stops, operator?]

namespace Expr

/-- The places at which an expression can be too deep: a token, an element, or the end. -/
inductive Mark (finish : Span) (pieces : List Piece) : Span → Prop
  | token {t : Token} (h : .token t ∈ pieces) : Mark finish pieces t.span
  | element {t closing : Token} (h : [.token t, .token closing].Sublist pieces)
      (ht : t.kind = .name) (hc : closing.kind = .rightBracket) :
      Mark finish pieces (t.span.merge closing.span)
  | finish : Mark finish pieces finish

theorem Mark.append {finish span : Span} {pieces : List Piece} (h : Mark finish pieces span)
    (before : List Piece) : Mark finish (before ++ pieces) span := by
  cases h with
  | token h => exact .token (List.mem_append_right _ h)
  | element h ht hc => exact .element (h.trans (List.sublist_append_right _ _)) ht hc
  | finish => exact .finish

/-- The first of `pieces` has no place behind tokens that have come as far as `standing`. -/
inductive Offends (finish : Span) (standing : Standing) : List Piece → SyntaxError → Prop
  | token {t : Token} {rest : List Piece} {cause : SyntaxCause} (hc : cause.found? = some t.kind)
      (h : standing.next t.kind = none) : Offends finish standing (.token t :: rest) ⟨cause, t.span⟩
  | finish {cause : SyntaxCause} (hc : cause.found? = some .finish) (h : ¬standing.Complete) :
      Offends finish standing [] ⟨cause, finish⟩
  | unrecognized {f : Unrecognized} {rest : List Piece} :
      Offends finish standing (.unrecognized f :: rest) ⟨.unrecognized f.character, f.span⟩

/-- How `pieces` can be refused where a phrase of level `l` is due and `owed` is owed. -/
inductive Refusal (finish : Span) (owed : List TokenKind) (l : Level) (pieces : List Piece) :
    SyntaxError → Prop
  /-- The tokens `ts` are the beginning of a phrase, and the piece behind them does not fit. -/
  | stuck {ts : List Token} {rest : List Piece} {standing : Standing} {fault : SyntaxError}
      (hp : pieces = ts.map .token ++ rest) (hv : ∃ d : Phrase l, ts <+: d.tokens)
      (hr : Standing.run ⟨.due, owed⟩ (ts.map Token.kind) = some standing)
      (ho : Offends finish standing rest fault) : Refusal finish owed l pieces fault
  | large {t : Token} (h : .token t ∈ pieces) (hk : t.kind = .number) (hf : ¬t.Fits) :
      Refusal finish owed l pieces ⟨.literalTooLarge, t.span⟩
  | deep {span : Span} (h : Mark finish pieces span) :
      Refusal finish owed l pieces ⟨.tooDeep, span⟩

section
variable {finish : Span} {owed owed' : List TokenKind} {l m : Level} {pieces rest : List Piece}
  {fault : SyntaxError}

/-- A refusal behind tokens that open nothing but what is owed. -/
theorem Refusal.behind (before : List Token)
    (hr : Standing.run ⟨.due, owed⟩ (before.map Token.kind) = some ⟨.due, owed'⟩)
    (hv : ∀ d : Phrase l, ∃ d' : Phrase m, (before ++ d.tokens) <+: d'.tokens)
    (h : Refusal finish owed' l pieces fault) :
    Refusal finish owed m (before.map .token ++ pieces) fault := by
  cases h with
  | @stuck ts rest standing _ hp hd hr' ho =>
    subst hp
    obtain ⟨d, hd⟩ := hd
    obtain ⟨d', hd'⟩ := hv d
    have hts : (before ++ ts) <+: d'.tokens :=
      ((List.prefix_append_right_inj before).2 hd).trans hd'
    refine .stuck ?_ ⟨d', hts⟩ ?_ ho
    · rw [List.map_append, List.append_assoc]
    · rw [List.map_append, Standing.run_append hr, hr']
  | large h hk hf => exact .large (List.mem_append_right _ h) hk hf
  | deep h => exact .deep (h.append _)

theorem Refusal.loosen (hl : l.Below m) (h : Refusal finish owed l pieces fault) :
    Refusal finish owed m pieces fault :=
  h.behind [] rfl fun d => ⟨.single hl d, List.prefix_refl _⟩

/-- A refusal at the first piece, where an operand is due. -/
theorem Refusal.here (ho : Offends finish ⟨.due, owed⟩ pieces fault) (d : Phrase l) :
    Refusal finish owed l pieces fault :=
  .stuck rfl ⟨d, List.nil_prefix⟩ rfl ho

theorem Refusal.unrecognized {f : Unrecognized} (d : Phrase l) :
    Refusal finish owed l (d.tokens.map .token ++ .unrecognized f :: rest)
      ⟨.unrecognized f.character, f.span⟩ :=
  .stuck rfl ⟨d, List.prefix_refl _⟩ (d.run_kinds owed) .unrecognized

end

/-- The token behind tokens that end like this is no part of a phrase of level `l`. -/
def Ends (ending : Ending) (l : Level) (rest : List Piece) : Prop :=
  ∀ t after, rest = .token t :: after → (ending = .name → t.kind ≠ .leftBracket) ∧ l.Stops t.kind

/-- What is read is a phrase up to a token that is no part of it, and what is refused, is refused
for a reason. -/
inductive Explained (finish : Span) (l : Level) (pieces : List Piece) :
    Except SyntaxError (Expr × List Piece) → Prop
  | ok {e : Expr} {rest : List Piece} (d : Phrase l) (hp : pieces = d.tokens.map .token ++ rest)
      (hd : Ends d.ending l rest) : Explained finish l pieces (.ok (e, rest))
  | error {fault : SyntaxError} (h : ∀ owed, Refusal finish owed l pieces fault) :
      Explained finish l pieces (.error fault)

/-- All that a parser does is explained. -/
def Explains (finish : Span) (l : Level) (parser : Parser) : Prop :=
  ∀ pieces, Explained finish l pieces (reading parser pieces)

section
variable {finish : Span} {l m : Level} {parser : Parser} {pieces : List Piece}

/-- A node that is too high is refused at its place. -/
theorem explained_checkHeight {e : Expr}
    {next : Expr → Except SyntaxError (Expr × List Piece)} (hm : Mark finish pieces e.span)
    (hn : Explained finish l pieces (next e)) :
    Explained finish l pieces (checkHeight e >>= next) := by
  unfold checkHeight
  split
  · exact hn
  · exact .error fun _ => .deep hm

/-! ## Chains -/

/-- Behind a phrase of its level, a chain reads on as it should. The induction is on what is left
to read; only the place of a node matters here, so the tree of the phrase may be any. -/
theorem explained_readingFrom (hl : l.Below m) (hp : Explains finish l parser) (n : Nat)
    (d : Phrase m) (left : Expr) {pieces : List Piece} (hn : pieces.length < n)
    (hd : Ends d.ending l pieces) :
    Explained finish m (d.tokens.map .token ++ pieces)
      (readingFrom m.operator? parser left pieces) := by
  induction n generalizing d left pieces with
  | zero => exact absurd hn (Nat.not_lt_zero _)
  | succ n ih =>
    match pieces with
    | [] =>
      rw [readingFrom_nil]
      exact .ok d rfl nofun
    | .unrecognized f :: rest =>
      rw [readingFrom_unrecognized]
      exact .error fun _ => .unrecognized d
    | .token t :: pieces =>
      cases hk : m.operator? t.kind with
      | none =>
        rw [readingFrom_stop hk]
        refine .ok d rfl fun t' after h' => ?_
        cases h'
        -- The token is no tighter operator, or the item before it would have gone on.
        obtain ⟨hb, hs⟩ := hd t pieces rfl
        exact ⟨hb, (Level.stops_iff hl).2 ⟨hs, hk⟩⟩
      | some operator =>
        obtain ⟨hm, ht⟩ := Level.operator?_eq_some_iff.1 hk
        have hassoc : d.tokens.map .token ++ .token t :: pieces =
            (d.tokens ++ [t]).map .token ++ pieces := by simp
        rw [readingFrom_operator hk]
        have hright := hp pieces
        generalize reading parser pieces = right at hright
        cases hright with
        | error h =>
          refine .error fun owed => ?_
          have hrun : Standing.run ⟨.due, owed⟩ ((d.tokens ++ [t]).map Token.kind) =
              some ⟨.due, owed⟩ := by
            rw [List.map_append, ← Phrase.kinds, Standing.run_append (d.run_kinds owed),
              List.map_singleton, ← ht,
              Standing.run_cons (Standing.next_operator d.ending_ne_due operator owed)]
            rfl
          rw [hassoc]
          refine (h owed).behind _ hrun fun d' => ?_
          exact ⟨.join hl d t operator d' ht.symm hm, by simp [Phrase.tokens]⟩
        | @ok right rest' d' hp' hd' =>
          subst hp'
          refine explained_checkHeight (.token (by simp)) ?_
          have hn' : rest'.length < n := by
            simp only [List.length_cons, List.length_append] at hn
            omega
          have hrest := ih (.join hl d t operator d' ht.symm hm)
            (.binary operator left right t.span) hn' hd'
          rw [Phrase.tokens, List.map_append, List.map_cons, List.append_assoc,
            List.cons_append] at hrest
          exact hrest

theorem Explains.next {budget : Nat} (hl : l.Below m)
    (hp : Explains finish l (levelParser finish budget l)) :
    Explains finish m (levelParser finish budget m) := by
  intro pieces
  rw [reading_levelParser hl]
  have hfirst := hp pieces
  generalize reading (levelParser finish budget l) pieces = first at hfirst
  cases hfirst with
  | error h => exact .error fun owed => (h owed).loosen hl
  | @ok first rest d hd he =>
    subst hd
    rw [ok_bind, goOn_eq hl]
    exact explained_readingFrom hl hp _ (.single hl d) first (Nat.lt_succ_self _) he

theorem explains_sum {budget : Nat} (hp : Explains finish .operand (operand finish budget)) :
    Explains finish .sum (sum (operand finish budget)) :=
  Explains.next (m := .sum) .product (Explains.next (m := .product) .operand hp)

end

/-! ## Operands -/

section
variable {finish : Span} {budget : Nat} {t : Token} {pieces : List Piece}

/-- Up to a closing token, the sum or the token is missing. -/
theorem readingClosed_eq_error {closing : TokenKind} {parser : Parser} {fault : SyntaxError}
    (h : readingClosed finish closing parser pieces = .error fault) :
    reading (sum parser) pieces = .error fault ∨
      ∃ e rest, reading (sum parser) pieces = .ok (e, rest) ∧
        expect finish closing rest = .error fault := by
  unfold readingClosed closedSum at h
  unfold reading
  cases hs : sum parser pieces with
  | error fault' =>
    rw [hs] at h
    cases h
    exact .inl rfl
  | ok inner =>
    rw [hs, ok_bind] at h
    refine .inr ⟨inner.expr, inner.rest, rfl, ?_⟩
    cases he : expect finish closing inner.rest with
    | error fault' =>
      rw [he] at h
      cases h
      rfl
    | ok found =>
      rw [he] at h
      cases h

/-- Behind a sum, only the closing token that is owed fits. -/
theorem offends_expect {ending : Ending} {closing : TokenKind} {owed : List TokenKind}
    {fault : SyntaxError} (hd : ending ≠ .due) (he : Ends ending .sum pieces)
    (h : expect finish closing pieces = .error fault) :
    Offends finish ⟨ending, closing :: owed⟩ pieces fault := by
  match pieces with
  | [] =>
    cases h
    exact .finish rfl fun hc => nomatch hc.2
  | .unrecognized f :: _ =>
    cases h
    exact .unrecognized
  | .token t :: rest =>
    simp only [expect] at h
    split at h
    · cases h
    · next hk =>
      cases h
      obtain ⟨hb, hm, ha⟩ := he t rest rfl
      refine .token rfl (Standing.next_eq_none hd hb ha hm fun closing' owed' ho => ?_)
      cases ho
      exact hk

/-- What stands between an opening token and the closing token that is owed for it. -/
theorem explained_closed (before : List Token) {closing : TokenKind}
    {next : Expr × Span × List Piece → Except SyntaxError (Expr × List Piece)}
    (hs : Explains finish .sum (sum (operand finish budget)))
    (hr : ∀ owed, Standing.run ⟨.due, owed⟩ (before.map Token.kind) =
      some ⟨.due, closing :: owed⟩)
    (hv : ∀ d : Phrase .sum, ∃ d' : Phrase .operand, (before ++ d.tokens) <+: d'.tokens)
    (hn : ∀ (d : Phrase .sum) (e : Expr) (c : Token) (rest : List Piece), c.kind = closing →
      pieces = d.tokens.map .token ++ .token c :: rest →
      Explained finish .operand (before.map .token ++ pieces) (next (e, c.span, rest))) :
    Explained finish .operand (before.map .token ++ pieces)
      (readingClosed finish closing (operand finish budget) pieces >>= next) := by
  cases h : readingClosed finish closing (operand finish budget) pieces with
  | ok inner =>
    obtain ⟨e, span, rest⟩ := inner
    obtain ⟨c, hc, rfl, hi⟩ := readingClosed_eq_ok h
    have hinner := hs pieces
    rw [hi] at hinner
    cases hinner with
    | ok d hp he => exact hn d e c rest hc hp
  | error fault =>
    refine .error fun owed => Refusal.behind before (hr owed) hv ?_
    have hinner := hs pieces
    rcases readingClosed_eq_error h with h' | ⟨e, rest, hi, h'⟩
    · rw [h'] at hinner
      cases hinner with
      | error h => exact h _
    · rw [hi] at hinner
      cases hinner with
      | ok d hp he =>
        exact .stuck hp ⟨d, List.prefix_refl _⟩ (d.run_kinds _)
          (offends_expect d.ending_ne_due he h')

theorem explained_signed {sign : Sign} (ht : t.kind = sign.token)
    (hp : Explains finish .operand (operand finish budget)) :
    Explained finish .operand (.token t :: pieces)
      (reading (operand finish (budget + 1)) (.token t :: pieces)) := by
  rw [reading_operand_signed ht]
  have hinner := hp pieces
  generalize reading (operand finish budget) pieces = inner at hinner
  cases hinner with
  | error h =>
    refine .error fun owed => (h owed).behind [t] ?_ fun d => ?_
    · rw [List.map_singleton, ht, Standing.run_cons (Standing.next_sign sign owed)]
      rfl
    · exact ⟨.signed t sign d ht, List.prefix_refl _⟩
  | @ok inner rest d hd he =>
    subst hd
    rw [ok_bind]
    exact explained_checkHeight (.token List.mem_cons_self) (.ok (.signed t sign d ht) rfl he)

/-- Any piece may stand behind an operand that is not a name. -/
theorem ends_of_ne_name {ending : Ending} {rest : List Piece} (h : ending ≠ .name) :
    Ends ending .operand rest :=
  fun _ _ _ => ⟨fun he => absurd he h, trivial⟩

theorem explained_group (ht : t.kind = .leftParenthesis)
    (hs : Explains finish .sum (sum (operand finish budget))) :
    Explained finish .operand (.token t :: pieces)
      (reading (operand finish (budget + 1)) (.token t :: pieces)) := by
  rw [reading_operand_group ht]
  refine explained_closed [t] hs (fun owed => ?_) (fun d => ?_)
    fun d e c rest hc hp => ?_
  · rw [List.map_singleton, ht]
    rfl
  · exact ⟨.group t d ⟨.rightParenthesis, [')'], ⟨0, 1⟩⟩ ht rfl, by simp [Phrase.tokens]⟩
  · subst hp
    refine .ok (.group t d c ht hc) (by simp [Phrase.tokens]) (ends_of_ne_name fun he => ?_)
    cases he

theorem explained_element {opening : Token} (ht : t.kind = .name)
    (ho : opening.kind = .leftBracket) (hs : Explains finish .sum (sum (operand finish budget))) :
    Explained finish .operand (.token t :: .token opening :: pieces)
      (reading (operand finish (budget + 1)) (.token t :: .token opening :: pieces)) := by
  rw [reading_operand_element ht ho]
  refine explained_closed [t, opening] hs (fun owed => ?_) (fun d => ?_)
    fun d e c rest hc hp => ?_
  · rw [List.map_cons, List.map_singleton, ht, ho]
    rfl
  · exact ⟨.element t opening d ⟨.rightBracket, [']'], ⟨0, 1⟩⟩ ht ho rfl, by simp [Phrase.tokens]⟩
  · subst hp
    refine explained_checkHeight (.element ?_ ht hc) ?_
    · exact (List.singleton_sublist.2 (by simp)).cons_cons _
    · refine .ok (.element t opening d c ht ho hc) (by simp [Phrase.tokens])
        (ends_of_ne_name fun he => ?_)
      cases he

theorem explained_number (ht : t.kind = .number) :
    Explained finish .operand (.token t :: pieces)
      (reading (operand finish (budget + 1)) (.token t :: pieces)) := by
  rw [reading_operand_number ht]
  cases hv : Value.ofInt? (Text.ofDigits t.lexeme) with
  | some value =>
    refine .ok (.number t ht) rfl (ends_of_ne_name fun he => ?_)
    cases he
  | none =>
    refine .error fun owed => .large List.mem_cons_self ht fun hf => ?_
    rw [Token.ofInt?_of_fits hf ht] at hv
    cases hv

theorem explained_name (ht : t.kind = .name)
    (hs : Explains finish .sum (sum (operand finish budget))) :
    Explained finish .operand (.token t :: pieces)
      (reading (operand finish (budget + 1)) (.token t :: pieces)) := by
  match pieces with
  | [] =>
    rw [reading_operand_name ht rfl (by decide)]
    exact .ok (.name t ht) rfl nofun
  | .unrecognized f :: rest =>
    have hr : reading (operand finish (budget + 1)) (.token t :: .unrecognized f :: rest) =
        .error ⟨.unrecognized f.character, f.span⟩ := by
      rw [reading, operand, ht]
      rfl
    rw [hr]
    exact .error fun _ => .unrecognized (.name t ht)
  | .token next :: inside =>
    by_cases hn : next.kind = .leftBracket
    · exact explained_element ht hn hs
    · rw [reading_operand_name ht rfl hn]
      refine .ok (.name t ht) rfl fun t' after h => ?_
      cases h
      exact ⟨fun _ => hn, trivial⟩

/-- A number, to stand where an operand is due. -/
def anOperand : Phrase .operand :=
  .number ⟨.number, ['0'], ⟨0, 1⟩⟩ rfl

/-- All that is done with operands is explained. The induction is on the number of operands that
may still be open. -/
theorem explains_operand (finish : Span) (budget : Nat) :
    Explains finish .operand (operand finish budget) := by
  induction budget with
  | zero =>
    intro pieces
    rw [reading, operand]
    rcases pieces with _ | ⟨t | f, rest⟩
    · exact .error fun _ => .deep .finish
    · exact .error fun _ => .deep (.token List.mem_cons_self)
    · exact .error fun _ => .here .unrecognized anOperand
  | succ budget ih =>
    intro pieces
    rcases pieces with _ | ⟨t | f, pieces⟩
    · rw [reading, operand]
      exact .error fun _ => .here (.finish rfl fun hc => hc.1 rfl) anOperand
    · cases ht : t.kind with
      | plus => exact explained_signed (show t.kind = Sign.plus.token from ht) ih
      | minus => exact explained_signed (show t.kind = Sign.minus.token from ht) ih
      | number => exact explained_number ht
      | leftParenthesis => exact explained_group ht (explains_sum ih)
      | name => exact explained_name ht (explains_sum ih)
      | rightParenthesis | leftBracket | rightBracket | star | slash | percent | finish =>
        rw [reading, operand, ht]
        exact .error fun _ => .here (.token (congrArg some ht.symm) (by rw [ht]; rfl)) anOperand
    · rw [reading, operand]
      exact .error fun _ => .here .unrecognized anOperand

end

/-! ## Whole texts -/

/-- A text that is not read is refused for a reason. -/
theorem refusal_parse {source : String} {fault : SyntaxError} (h : parse source = .error fault) :
    Refusal (.endOf source) [] .sum (Piece.scan source) fault := by
  rw [parse, ofPieces_eq] at h
  have hw := explains_sum (explains_operand (.endOf source) maxNesting) (Piece.scan source)
  rcases bind_eq_error.1 h with h' | ⟨⟨e, rest⟩, hr, h'⟩
  · rw [h'] at hw
    cases hw with
    | error h => exact h []
  · rw [hr] at hw
    cases hw with
    | ok d hp he =>
      refine .stuck hp ⟨d, List.prefix_refl _⟩ (d.run_kinds []) ?_
      rcases rest with _ | ⟨t | f, rest⟩
      · cases h'
      · simp only [peek, ok_bind] at h'
        split at h'
        · cases h'
        · cases h'
          obtain ⟨hb, hm, ha⟩ := he t rest rfl
          refine .token rfl (Standing.next_eq_none d.ending_ne_due hb ha hm fun a owed ho => ?_)
          cases ho
      · cases h'
        exact .unrecognized

end Expr

/-- Where a text is refused, and not for the size of a number or its depth, the tokens before are
the beginning of an expression, and are none with what was found there: a token, the end of the
text, or a character that starts no token. -/
theorem parse_error_viable (source : String) (error : SyntaxError)
    (h : Expr.parse source = .error error) (hl : error.cause ≠ .literalTooLarge)
    (hd : error.cause ≠ .tooDeep) :
    ∃ (front back : List Char) (ts : List Token),
      Text.splitAtByte source.toList error.span.start = some (front, back) ∧
      Piece.scan (String.ofList front) = ts.map .token ∧
      (∃ d : Phrase .sum, ts <+: d.tokens) ∧
      (∀ actual, error.cause.found? = some actual → actual ≠ .finish →
        (∃ t rest, t.kind = actual ∧ t.span = error.span ∧
          Piece.scan source = ts.map .token ++ .token t :: rest) ∧
        ∀ d : Phrase .sum, ¬(ts.map Token.kind ++ [actual]) <+: d.kinds) ∧
      (error.cause.found? = some .finish →
        error.span = ⟨Text.byteLength source.toList, 0⟩ ∧
        ∀ d : Phrase .sum, d.kinds ≠ ts.map Token.kind) ∧
      ∀ c, error.cause = .unrecognized c → back.head? = some c ∧ Text.StartsNothing c := by
  cases Expr.refusal_parse h with
  | large => exact absurd rfl hl
  | deep => exact absurd rfl hd
  | @stuck ts rest standing _ hp hv hr ho =>
    cases ho with
    | @token t rest cause hc hn =>
      obtain ⟨front, back, hs, hf, -⟩ := Piece.splitAtByte_scan hp
      refine ⟨front, _, ts, hs, hf, hv, fun actual ha _ => ?_, fun ha => ?_, fun c hu => ?_⟩
      · cases hc.symm.trans ha
        exact ⟨⟨t, rest, rfl, rfl, hp⟩, Phrase.not_prefix_of_run hr hn⟩
      · have ht : .token t ∈ Piece.scan source := by rw [hp]; simp
        have hk : t.kind = .finish := Option.some.inj (hc.symm.trans ha)
        exact absurd hk (Piece.kind_ne_finish_of_mem_scanFrom ht)
      · cases hu
        cases hc
    | finish hc hn =>
      refine ⟨source.toList, [], ts, ?_, ?_, hv, fun actual ha hk => ?_, fun _ => ?_,
        fun c hu => ?_⟩
      · simpa [Span.endOf] using Text.splitAtByte_append source.toList []
      · simpa using hp
      · cases hc.symm.trans ha
        exact absurd rfl hk
      · exact ⟨rfl, Phrase.kinds_ne_of_run hr hn⟩
      · cases hu
        cases hc
    | @unrecognized f rest =>
      obtain ⟨front, back, hs, hf, hw⟩ := Piece.splitAtByte_scan hp
      refine ⟨front, _, ts, hs, hf, hv, nofun, nofun, fun c hu => ?_⟩
      cases hu
      exact ⟨rfl, hw⟩

/-- In `(1+*2` the tokens before the asterisk can be completed, but not with it. -/
theorem parse_error_viable_asterisk :
    Expr.parse "(1+*2" = .error ⟨.notOperand .star, ⟨3, 1⟩⟩ ∧
    ∃ ts : List Token, Piece.scan "(1+" = ts.map .token ∧
      (∃ d : Phrase .sum, ts <+: d.tokens) ∧
      ∀ d : Phrase .sum, ¬(ts.map Token.kind ++ [.star]) <+: d.kinds := by
  have h : Expr.parse "(1+*2" = .error ⟨.notOperand .star, ⟨3, 1⟩⟩ := by decide +kernel
  obtain ⟨front, back, ts, hs, hf, hv, hn, -⟩ :=
    parse_error_viable "(1+*2" ⟨.notOperand .star, ⟨3, 1⟩⟩ h (by decide) (by decide)
  have hsplit : Text.splitAtByte "(1+*2".toList 3 = some (['(', '1', '+'], ['*', '2']) := by
    decide +kernel
  cases hsplit.symm.trans hs
  exact ⟨h, ts, hf, hv, (hn .star rfl (by decide)).2⟩

end BlockScript
