import BlockScript.Proofs.Parts
import BlockScript.Proofs.Refusals
import BlockScript.Proofs.Succession
import Mathlib.Algebra.Group.Nat.Defs

/-!
# Where faults come from

A fault either lies in a statement itself or points into one of its expression texts. In an
expression, what a cause can point at is said by `Cause.PointsAt`: a node that fails is reported at
its own tokens (`Phrase.standsIn_of_mem_parts`), and a text that is refused, at one of its pieces,
at an element or at its end. In a statement, every fault is one that a part of it raises in the
state that the run has reached (`Statement.exists_raises_of_exec`). Together this tells, for the
failure of any program, whether there is an origin and what stands under it
(`execute_failure_origin`).
-/

set_option autoImplicit false

namespace BlockScript

/-! ## What a cause points at -/

/-- The texts that a cause can point at in a text that is refused. -/
def SyntaxCause.PointsAt : SyntaxCause → List Char → Prop
  | .unexpected actual _, lexeme => actual.Spells lexeme
  | .notOperand actual, lexeme => actual.Spells lexeme
  | .literalTooLarge, lexeme => TokenKind.number.Spells lexeme ∧ 2 ^ 63 ≤ Text.ofDigits lexeme
  | .tooDeep, lexeme =>
    (∃ kind : TokenKind, kind.Spells lexeme) ∨
      ∃ name middle, Text.isNameChars name ∧ lexeme = name ++ (middle ++ [']'])
  | .unrecognized character, lexeme => lexeme = [character]

/-- The texts that a cause can point at in an expression. -/
def Cause.PointsAt : Cause → String → Prop
  | .unknownIdentifier name, lexeme => lexeme = name
  | .unknownArray name, lexeme => ∃ middle, lexeme = name ++ middle ++ "]"
  | .indexOutOfBounds name _, lexeme => ∃ middle, lexeme = name ++ middle ++ "]"
  | .divisionByZero, lexeme => lexeme ∈ ["/", "%"]
  | .overflow, lexeme => lexeme ∈ ["+", "-", "*", "/"]
  | .syntaxError error, lexeme => error.cause.PointsAt lexeme.toList
  | _, _ => False

theorem Cause.PointsAt.not_ofStatement {cause : Cause} {lexeme : String}
    (h : cause.PointsAt lexeme) : ¬cause.OfStatement := by
  intro hs
  cases cause <;> first | exact h | exact hs

/-! ## Nodes and their tokens -/

/-- A node is reported at its own tokens, which are among `ts`. -/
def Expr.StandsIn (ts : List Token) : Expr → Prop
  | .number _ span => ∃ t ∈ ts, t.kind = .number ∧ t.span = span
  | .var name span => ∃ t ∈ ts, t.name = name ∧ t.span = span
  | .element name _ span => ∃ t closing, [t, closing].Sublist ts ∧ t.name = name ∧
      closing.kind = .rightBracket ∧ t.span.through closing.span = span
  | .signed sign _ span => ∃ t ∈ ts, t.kind = sign.token ∧ t.span = span
  | .binary operator _ _ span => ∃ t ∈ ts, t.kind = operator.token ∧ t.span = span

theorem Expr.StandsIn.mono {ts us : List Token} {e : Expr} (h : e.StandsIn ts)
    (hs : ts.Sublist us) : e.StandsIn us := by
  cases e with
  | number | var | signed | binary =>
    obtain ⟨t, ht, h⟩ := h
    exact ⟨t, hs.subset ht, h⟩
  | element =>
    obtain ⟨t, closing, ht, h⟩ := h
    exact ⟨t, closing, ht.trans hs, h⟩

/-- The nodes of a phrase are reported at its tokens. -/
theorem Phrase.standsIn_of_mem_parts {l : Level} (d : Phrase l) {p : Expr}
    (hp : p ∈ d.tree.parts) : p.StandsIn d.tokens := by
  induction d with
  | number t ht =>
    cases List.mem_singleton.1 hp
    exact ⟨t, List.mem_cons_self, ht, rfl⟩
  | name t ht =>
    cases List.mem_singleton.1 hp
    exact ⟨t, List.mem_cons_self, rfl, rfl⟩
  | element t opening index closing ht ho hc ih =>
    rcases List.mem_append.1 hp with hp | hp
    · exact (ih hp).mono (((List.sublist_append_left ..).cons _).cons _)
    · cases List.mem_singleton.1 hp
      refine ⟨t, closing, .cons_cons t (.cons opening ?_), rfl, hc, rfl⟩
      exact List.sublist_append_right ..
  | group opening inner closing ho hc ih =>
    exact (ih hp).mono ((List.sublist_append_left ..).cons _)
  | signed t sign operand ht ih =>
    rcases List.mem_append.1 hp with hp | hp
    · exact (ih hp).mono (List.sublist_cons_self ..)
    · cases List.mem_singleton.1 hp
      exact ⟨t, List.mem_cons_self, ht, rfl⟩
  | single hl item ih => exact ih hp
  | join hl left t operator right ht hm ihl ihr =>
    rcases List.mem_append.1 hp with hp | hp
    · rcases List.mem_append.1 hp with hp | hp
      · exact (ihl hp).mono (List.sublist_append_left ..)
      · exact (ihr hp).mono
          ((List.sublist_cons_self ..).trans (List.sublist_append_right ..))
    · cases List.mem_singleton.1 hp
      exact ⟨t, by simp [tokens], ht, rfl⟩

/-! ## Nodes that fail -/

theorem Sign.symbol_of_spells {sign : Sign} {lexeme : List Char} (h : sign.token.Spells lexeme) :
    String.ofList lexeme = sign.symbol := by
  cases sign <;> cases h <;> rfl

theorem Operator.symbol_of_spells {operator : Operator} {lexeme : List Char}
    (h : operator.token.Spells lexeme) : String.ofList lexeme = operator.symbol := by
  cases operator <;> cases h <;> rfl

/-- A remainder is no further from zero than the dividend, on the same side. -/
theorem Value.inRange_tmod (a b : Value) : InRange (a.toInt.tmod b.toInt) := by
  have ha := a.inRange_toInt
  have hle : (a.toInt.tmod b.toInt).natAbs ≤ a.toInt.natAbs := by
    rw [Int.natAbs_tmod]
    exact Nat.mod_le _ _
  have hneg : a.toInt ≤ 0 → a.toInt.tmod b.toInt ≤ 0 := by
    intro h
    have hn := Int.tmod_nonneg b.toInt (Int.neg_nonneg_of_nonpos h)
    rw [Int.neg_tmod] at hn
    omega
  unfold InRange at *
  omega

/-- Remainders do not overflow. -/
theorem Operator.symbol_of_overflow {operator : Operator} {a b : Value}
    (h : operator.apply a b = .error .overflow) : operator.symbol ∈ ["+", "-", "*", "/"] := by
  cases operator with
  | multiply | divide | add | subtract => decide
  | modulo =>
    rcases apply_eq_error h with ⟨-, n, hr, hn⟩ | ⟨h, -⟩
    · simp only [exactResult?] at hr
      split at hr
      · cases hr
      · cases hr
        exact absurd (Value.inRange_tmod a b) hn
    · cases h

section
variable {text : String} {ts : List Token}

theorem Token.lexeme?_span {t : Token} (h : .token t ∈ Piece.scan text) :
    t.span.lexeme? text = some t.name ∧ t.kind.Spells t.lexeme :=
  Piece.lexeme?_span h

/-- Tokens of a text come one behind the other. -/
theorem Token.before_of_sublist {t u : Token} (hs : Piece.scan text = ts.map .token)
    (h : [t, u].Sublist ts) : t.Before u := by
  have ho := Piece.scanFrom_inOrder 0 text.toList
  rw [← Piece.scan, hs] at ho
  exact (List.pairwise_cons.1 (ho.sublist (h.map Piece.token))).1 (.token u) List.mem_cons_self

/-- An element goes from its name to its closing bracket. -/
theorem lexeme?_element {t closing : Token}
    (ht : [.token t, .token closing].Sublist (Piece.scan text))
    (hc : closing.kind = .rightBracket) :
    ∃ middle, (t.span.merge closing.span).lexeme? text =
      some (String.ofList (t.lexeme ++ (middle ++ [']']))) := by
  have hl : closing.kind.Spells closing.lexeme :=
    (Token.lexeme?_span (ht.subset (List.mem_cons_of_mem _ List.mem_cons_self))).2
  rw [hc] at hl
  obtain ⟨middle, hm⟩ := Piece.lexeme?_merge ht
  refine ⟨middle, ?_⟩
  rw [← hl]
  exact hm

/-- A node that fails points at what its cause wants. -/
theorem Expr.Fails.pointsAt {s : State} {cause : Cause} {e : Expr} (h : e.Fails s cause)
    (hs : Piece.scan text = ts.map .token) (he : e.StandsIn ts) :
    ∃ lexeme, e.span.lexeme? text = some lexeme ∧ cause.PointsAt lexeme := by
  have hmem : ∀ t ∈ ts, .token t ∈ Piece.scan text := fun t ht => hs ▸ List.mem_map_of_mem ht
  cases h with
  | var h =>
    obtain ⟨t, ht, rfl, rfl⟩ := he
    cases readVariable_eq_error h
    exact ⟨t.name, (Token.lexeme?_span (hmem t ht)).1, rfl⟩
  | element _ h =>
    obtain ⟨t, closing, ht, rfl, hc, rfl⟩ := he
    have hm : [.token t, .token closing].Sublist (Piece.scan text) := by
      rw [hs]
      exact ht.map Piece.token
    have ho : t.span.stop ≤ closing.span.start := Token.before_of_sublist hs ht
    obtain ⟨middle, hl⟩ := lexeme?_element hm hc
    rw [Span.merge_of_stop_le ho] at hl
    have hname : String.ofList (t.lexeme ++ (middle ++ [']'])) =
        t.name ++ String.ofList middle ++ "]" := by
      simp [Token.name, String.append_assoc]
    refine ⟨_, hl, ?_⟩
    rcases State.element_eq_error h with rfl | rfl
    · exact ⟨_, hname⟩
    · exact ⟨_, hname⟩
  | @signed sign operand span a _ h =>
    obtain ⟨t, ht, hk, rfl⟩ := he
    obtain ⟨hl, hsp⟩ := Token.lexeme?_span (hmem t ht)
    rw [hk] at hsp
    refine ⟨t.name, hl, ?_⟩
    rw [Token.name, Sign.symbol_of_spells hsp]
    cases (Sign.apply_eq_error h).1
    cases sign <;> simp [Cause.PointsAt, Sign.symbol]
  | @binary operator left right span a b _ _ h =>
    obtain ⟨t, ht, hk, rfl⟩ := he
    obtain ⟨hl, hsp⟩ := Token.lexeme?_span (hmem t ht)
    rw [hk] at hsp
    refine ⟨t.name, hl, ?_⟩
    rw [Token.name, Operator.symbol_of_spells hsp]
    rcases Operator.apply_eq_error h with ⟨rfl, -⟩ | ⟨rfl, rfl | rfl, -⟩
    · exact Operator.symbol_of_overflow h
    · simp [Cause.PointsAt, Operator.symbol]
    · simp [Cause.PointsAt, Operator.symbol]

end

/-! ## Texts that are refused -/

section
variable {text : String}

theorem lexeme?_endOf (text : String) : (Span.endOf text).lexeme? text = some "" := by
  have h := Span.chars?_append text.toList [] []
  simp only [List.append_nil, Text.byteLength_nil] at h
  rw [Span.lexeme?, Span.endOf, h]
  rfl

/-- A text that is too deep is refused at a token, an element or the end. -/
theorem Expr.Mark.pointsAt {span : Span} (h : Mark (.endOf text) (Piece.scan text) span) :
    ∃ lexeme, span.lexeme? text = some lexeme ∧ SyntaxCause.tooDeep.PointsAt lexeme.toList := by
  cases h with
  | @token t ht =>
    obtain ⟨hl, hsp⟩ := Token.lexeme?_span ht
    exact ⟨_, hl, .inl ⟨t.kind, by simpa [Token.name] using hsp⟩⟩
  | @element t closing ht hk hc =>
    obtain ⟨middle, hl⟩ := lexeme?_element ht hc
    have hname : t.kind.Spells t.lexeme := (Token.lexeme?_span (ht.subset List.mem_cons_self)).2
    rw [hk] at hname
    exact ⟨_, hl, .inr ⟨t.lexeme, middle, hname, by simp⟩⟩
  | finish => exact ⟨_, lexeme?_endOf text, .inl ⟨.finish, rfl⟩⟩

theorem SyntaxCause.pointsAt_of_found? {cause : SyntaxCause} {kind : TokenKind}
    {lexeme : List Char} (hc : cause.found? = some kind) (h : kind.Spells lexeme) :
    cause.PointsAt lexeme := by
  cases cause with
  | unexpected | notOperand =>
    cases hc
    exact h
  | literalTooLarge | tooDeep | unrecognized => cases hc

/-- A text is refused at what the cause wants. -/
theorem Expr.pointsAt_of_parse_error {error : SyntaxError} (h : parse text = .error error) :
    ∃ lexeme, error.span.lexeme? text = some lexeme ∧ error.cause.PointsAt lexeme.toList := by
  cases refusal_parse h with
  | @large t ht hk hf =>
    obtain ⟨hl, hsp⟩ := Token.lexeme?_span ht
    rw [hk] at hsp
    have hv : 2 ^ 63 ≤ Text.ofDigits t.lexeme := by
      refine Nat.le_of_not_lt fun hlt => hf fun _ => ?_
      omega
    exact ⟨_, hl, by simpa [SyntaxCause.PointsAt, Token.name] using And.intro hsp hv⟩
  | deep hm => exact hm.pointsAt
  | @stuck ts rest standing _ hp _ _ ho =>
    cases ho with
    | @token t rest cause hc _ =>
      have ht : .token t ∈ Piece.scan text := by rw [hp]; simp
      obtain ⟨hl, hsp⟩ := Token.lexeme?_span ht
      exact ⟨_, hl, SyntaxCause.pointsAt_of_found? hc (by simpa [Token.name] using hsp)⟩
    | finish hc _ => exact ⟨_, lexeme?_endOf text, SyntaxCause.pointsAt_of_found? hc rfl⟩
    | @unrecognized f rest =>
      have hf : .unrecognized f ∈ Piece.scan text := by rw [hp]; simp
      exact ⟨_, (Piece.lexeme?_span hf).1, by simp [SyntaxCause.PointsAt, Piece.lexeme]⟩

end

/-- An expression text without a value is blamed at what the cause wants. -/
theorem evaluate_error_pointsAt {text : String} {s : State} {f : Fault}
    (h : evaluate text s = .error f) :
    ∃ span lexeme, f.origin = some ⟨text, span⟩ ∧ span.lexeme? text = some lexeme ∧
      f.cause.PointsAt lexeme := by
  cases hp : Expr.parse text with
  | error error =>
    rw [evaluate, parseText, hp] at h
    cases h
    obtain ⟨lexeme, hl, hc⟩ := Expr.pointsAt_of_parse_error hp
    exact ⟨error.span, lexeme, rfl, hl, hc⟩
  | ok e =>
    rw [evaluate_of_parse hp] at h
    obtain ⟨cause, span, he, rfl⟩ := Fault.within_eq_error_iff.1 h
    obtain ⟨part, hm, rfl, hf⟩ := Expr.exists_part_of_eval_error he
    obtain ⟨d, hd, rfl, -⟩ := Expr.derives_parse hp
    rw [List.append_nil] at hd
    obtain ⟨lexeme, hl, hc⟩ := hf.pointsAt hd (d.standsIn_of_mem_parts hm)
    exact ⟨part.span, lexeme, rfl, hl, hc⟩

/-! ## Faults of statements -/

namespace Statement

/-- To fail only with faults that one of `ts` raises in the state that is reached, is a law. -/
theorem law_raised (ts : List Statement) :
    Outcome.Law fun _ o => ∀ f s', o = .failed f s' → ∃ t ∈ ts, t.Raises s' f where
  done s f s' h := by cases h
  andThen {s o next} ho hn f s' h := by
    cases o with
    | done s'' => exact hn s'' rfl f s' h
    | failed f' s'' => exact ho f s' h
  forget _ _ f s' h := by cases h

/-- Every fault of a statement is raised by a part of it, in the state that the run has reached. -/
theorem exists_raises_of_exec {ceiling : Nat} {statement : Statement} {s s' : State} {f : Fault}
    (h : exec ceiling statement s = .failed f s') : ∃ t ∈ statement.parts, t.Raises s' f := by
  refine exec_of_parts (law_raised statement.parts) statement (fun t ht => ?_) s f s' h
  constructor
  · intro s s' _ f s'' h
    cases h
  · intro s f hr f' s' h
    cases h
    exact ⟨t, ht, hr⟩

/-- The write of an assignment to an element, somewhere in a statement, fails in a state with this
fault and for its index. -/
def WritesOutside (statement : Statement) (s : State) (f : Fault) : Prop :=
  ∃ name index expression i value, .assignElement name index expression ∈ statement.parts ∧
    evaluate index s = .ok i ∧ evaluate expression s = .ok value ∧
    s.setElement (Text.trim name) i value = .failed f s ∧
    f.cause = .indexOutOfBounds (Text.trim name) i

theorem WritesOutside.origin {statement : Statement} {s : State} {f : Fault}
    (h : statement.WritesOutside s f) : f.origin = none := by
  obtain ⟨name, index, expression, i, value, -, -, -, hw, -⟩ := h
  rcases s.setElement_cases (Text.trim name) i value with ⟨j, h⟩ | h | h
  · cases h.symm.trans hw
  · cases h.symm.trans hw
    rfl
  · cases h.symm.trans hw
    rfl

end Statement

/-! ## Failures of programs -/

/-- A program fails in one of its statements, with the fault and the state of that statement. -/
theorem Program.exists_of_runFrom_failure {ceiling index : Nat} {statements : List Statement}
    {s : State} {failure : Failure}
    (h : (runFrom ceiling index statements s).failure = some failure) :
    ∃ i root s', failure.statement = index + i ∧ statements[i]? = some root ∧
      root.exec ceiling s' =
        .failed failure.fault (runFrom ceiling index statements s).state := by
  have hr : runFrom ceiling index statements s =
      ⟨(runFrom ceiling index statements s).state, some failure⟩ := congrArg (Report.mk _) h
  obtain ⟨i, root, s', hi, hroot, -, hx⟩ := runFrom_eq_failed_iff.1 hr
  exact ⟨i, root, s', hi, hroot, hx⟩

/-- When a program fails, the fault has no origin exactly when its cause lies in a statement, or an
assignment wrote outside of an array. Else its origin is an expression text of a statement inside
of the root statement that failed, and under its span stands what the cause points at. -/
theorem execute_failure_origin (p : Program) (ceiling : Nat) (s : State) (failure : Failure)
    (h : (p.execute ceiling s).failure = some failure) :
    ∃ root, p.get? failure.statement = some root ∧
      (failure.fault.origin = none ↔
        failure.fault.cause.OfStatement ∨
          root.WritesOutside (p.execute ceiling s).state failure.fault) ∧
      ∀ origin, failure.fault.origin = some origin →
        (∃ t ∈ root.parts, origin.text ∈ t.texts) ∧
        ∃ lexeme, origin.span.lexeme? origin.text = some lexeme ∧
          failure.fault.cause.PointsAt lexeme := by
  obtain ⟨i, root, s', hi, hroot, hx⟩ := Program.exists_of_runFrom_failure h
  rw [Nat.zero_add] at hi
  refine ⟨root, by rw [hi]; exact hroot, ?_⟩
  obtain ⟨t, ht, hr⟩ := Statement.exists_raises_of_exec hx
  change t.Raises (p.execute ceiling s).state failure.fault at hr
  generalize failure.fault = f at hr ⊢
  generalize (p.execute ceiling s).state = final at hr ⊢
  cases hr with
  | @evaluation text _ hm he =>
    -- A fault of an expression has an origin and never a cause that lies in a statement, so that
    -- both sides of the equivalence fail.
    obtain ⟨span, lexeme, ho, hl, hc⟩ := evaluate_error_pointsAt he
    refine ⟨⟨fun hn => ?_, fun hn => ?_⟩, fun origin h' => ?_⟩
    · cases ho.symm.trans hn
    · rcases hn with hn | hn
      · exact absurd hn hc.not_ofStatement
      · exact hn.origin
    · cases ho.symm.trans h'
      exact ⟨⟨t, ht, hm⟩, lexeme, hl, hc⟩
  | own hc => exact ⟨⟨fun _ => .inl hc, fun _ => rfl⟩, nofun⟩
  | @write name index expression j value htext hindex hvalue hw =>
    subst htext
    refine ⟨⟨fun _ => .inr ?_, fun _ => rfl⟩, nofun⟩
    exact ⟨name, index, expression, j, value, ht, hindex, hvalue, hw, rfl⟩

/-- In the third turn of a loop, the fault of a statement in its body points at the element. -/
theorem execute_failure_origin_element :
    let p : Program := ⟨[.declareArray "a" "2",
      .forLoop "i" "0" "5" "1" [.output "1 + a[ i ] * 2"]]⟩
    let fault : Fault := .inText "1 + a[ i ] * 2" (.indexOutOfBounds "a" 2) ⟨4, 6⟩
    (p.execute 9 .empty).failure = some ⟨1, fault⟩ ∧
      ∃ middle, (⟨4, 6⟩ : Span).lexeme? "1 + a[ i ] * 2" = some ("a" ++ middle ++ "]") := by
  intro p fault
  have h : (p.execute 9 .empty).failure = some ⟨1, fault⟩ := by decide +kernel
  obtain ⟨_, -, -, ho⟩ := execute_failure_origin p 9 .empty ⟨1, fault⟩ h
  obtain ⟨-, lexeme, hl, middle, rfl⟩ := ho ⟨"1 + a[ i ] * 2", ⟨4, 6⟩⟩ rfl
  exact ⟨h, middle, hl⟩

end BlockScript
