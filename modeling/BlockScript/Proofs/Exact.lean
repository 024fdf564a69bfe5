import BlockScript.Proofs.Parsing
import Mathlib.Data.List.Perm.Subperm

/-!
# Exact values

Beside evaluation with values stands evaluation over all integers, where nothing overflows:
`Expr.exactValue?` has no result only for a name or an array that is missing, an index outside of
its array, or a divisor that is zero. An expression has a value exactly when all of its parts have
an exact one in range, and then it is the exact one (`Expr.eval_eq_ok_iff`). What fails, fails at a
part whose operands are exact (`Expr.exists_part_of_eval_error`), and the place that is reported
tells the parts of a text apart (`Expr.nodup_spans_of_parse`).
-/

set_option autoImplicit false

namespace BlockScript

/-! ## Evaluation over the integers -/

/-- A sign on integers. -/
def Sign.exactResult : Sign → Int → Int
  | .plus, a => a
  | .minus, a => -a

/-- An operator on integers. The quotient is truncated toward zero and the remainder has the sign
of the dividend. -/
def Operator.exactResult? : Operator → Int → Int → Option Int
  | .add, a, b => some (a + b)
  | .subtract, a, b => some (a - b)
  | .multiply, a, b => some (a * b)
  | .divide, a, b => if b = 0 then none else some (a.tdiv b)
  | .modulo, a, b => if b = 0 then none else some (a.tmod b)

/-- The element of an array at an integer. -/
def State.exactElement? (s : State) (name : String) (i : Int) : Option Int := do
  let elements ← s.elementsOf? name
  if 0 ≤ i then (elements[i.toNat]?).map Int64.toInt else none

namespace Expr

/-- The exact value of an expression in a state. -/
def exactValue? (s : State) : Expr → Option Int
  | .number value _ => some value.toInt
  | .var name _ => (s.valueOf? name).map Int64.toInt
  | .element name index _ => do s.exactElement? name (← index.exactValue? s)
  | .signed sign operand _ => (operand.exactValue? s).map sign.exactResult
  | .binary operator left right _ => do
    operator.exactResult? (← left.exactValue? s) (← right.exactValue? s)

/-- The parts of an expression, itself included, in the order of its nodes. -/
def parts : Expr → List Expr
  | .number value span => [.number value span]
  | .var name span => [.var name span]
  | .element name index span => index.parts ++ [.element name index span]
  | .signed sign operand span => operand.parts ++ [.signed sign operand span]
  | .binary operator left right span =>
    left.parts ++ right.parts ++ [.binary operator left right span]

/-- An expression has an exact value, and it is in range. -/
def Fits (s : State) (e : Expr) : Prop :=
  ∃ n, e.exactValue? s = some n ∧ Value.InRange n

theorem fits_iff {s : State} {e : Expr} :
    e.Fits s ↔ ∃ v : Value, e.exactValue? s = some v.toInt := by
  constructor
  · rintro ⟨n, he, hn⟩
    exact ⟨Int64.ofInt n, by rw [he, Int64.toInt_ofInt_of_le hn.1 (by have := hn.2; omega)]⟩
  · rintro ⟨v, he⟩
    exact ⟨v.toInt, he, v.inRange_toInt⟩

theorem self_mem_parts (e : Expr) : e ∈ e.parts := by
  cases e <;> simp [parts]

end Expr

/-! ## One operation -/

namespace Value

theorem orOverflow_eq_ok_iff {n : Int} {v : Value} :
    orOverflow (ofInt? n) = .ok v ↔ n = v.toInt := by
  cases h : ofInt? n with
  | some w =>
    rw [← toInt_of_ofInt? h, Int64.toInt_inj]
    exact ⟨Except.ok.inj, congrArg _⟩
  | none =>
    refine ⟨nofun, fun hn => ?_⟩
    rw [hn, ofInt?_toInt] at h
    cases h

theorem orOverflow_eq_error_iff {n : Int} {cause : Cause} :
    orOverflow (ofInt? n) = .error cause ↔ cause = .overflow ∧ ¬InRange n := by
  cases h : ofInt? n with
  | some w =>
    refine ⟨nofun, fun hn => absurd ?_ hn.2⟩
    rw [← toInt_of_ofInt? h]
    exact w.inRange_toInt
  | none =>
    rw [ofInt?_eq_none_iff] at h
    exact ⟨fun hc => ⟨(Except.error.inj hc).symm, h⟩, fun hc => congrArg _ hc.1.symm⟩

theorem eq_zero_iff {v : Value} : v = 0 ↔ v.toInt = 0 := by
  rw [← Int64.toInt_inj]
  rfl

end Value

theorem Sign.apply_eq_ok_iff {sign : Sign} {a v : Value} :
    sign.apply a = .ok v ↔ sign.exactResult a.toInt = v.toInt := by
  cases sign with
  | plus =>
    rw [exactResult, Int64.toInt_inj]
    exact ⟨Except.ok.inj, congrArg _⟩
  | minus => exact Value.orOverflow_eq_ok_iff

theorem Sign.apply_eq_error {sign : Sign} {a : Value} {cause : Cause}
    (h : sign.apply a = .error cause) :
    cause = .overflow ∧ ¬Value.InRange (sign.exactResult a.toInt) := by
  cases sign with
  | plus => cases h
  | minus => exact Value.orOverflow_eq_error_iff.1 h

theorem Operator.apply_eq_ok_iff {operator : Operator} {a b v : Value} :
    operator.apply a b = .ok v ↔ operator.exactResult? a.toInt b.toInt = some v.toInt := by
  cases operator with
  | add | subtract | multiply =>
    rw [exactResult?, Option.some_inj]
    exact Value.orOverflow_eq_ok_iff
  | divide | modulo =>
    rw [apply, exactResult?]
    by_cases hb : b = 0
    · rw [if_pos hb, if_pos (Value.eq_zero_iff.1 hb)]
      exact ⟨nofun, nofun⟩
    · rw [if_neg hb, if_neg (mt Value.eq_zero_iff.2 hb), Option.some_inj]
      exact Value.orOverflow_eq_ok_iff

/-- An operator fails because its exact result is out of range, or because it divides by zero. -/
theorem Operator.apply_eq_error {operator : Operator} {a b : Value} {cause : Cause}
    (h : operator.apply a b = .error cause) :
    (cause = .overflow ∧
      ∃ n, operator.exactResult? a.toInt b.toInt = some n ∧ ¬Value.InRange n) ∨
    (cause = .divisionByZero ∧ (operator = .divide ∨ operator = .modulo) ∧ b.toInt = 0) := by
  cases operator with
  | add | subtract | multiply =>
    obtain ⟨hc, hn⟩ := Value.orOverflow_eq_error_iff.1 h
    exact .inl ⟨hc, _, rfl, hn⟩
  | divide | modulo =>
    rw [apply] at h
    rw [exactResult?]
    by_cases hb : b = 0
    · rw [if_pos hb] at h
      exact .inr ⟨(Except.error.inj h).symm, by simp, Value.eq_zero_iff.1 hb⟩
    · rw [if_neg hb] at h
      obtain ⟨hc, hn⟩ := Value.orOverflow_eq_error_iff.1 h
      rw [if_neg (mt Value.eq_zero_iff.2 hb)]
      exact .inl ⟨hc, _, rfl, hn⟩

namespace State

theorem position?_bind_eq (index : Value) (elements : Array Value) :
    (position? index elements.size).bind (elements[·]?) =
      if 0 ≤ index.toInt then elements[index.toInt.toNat]? else none := by
  unfold position?
  by_cases h : 0 ≤ index.toInt
  · rw [if_pos h]
    split
    · rfl
    · next hn =>
      rw [Option.bind_none, eq_comm, Array.getElem?_eq_none_iff]
      omega
  · rw [if_neg h, if_neg (fun hc => h hc.1)]
    rfl

theorem element_eq_ok_iff {s : State} {name : String} {index v : Value} :
    s.element name index = .ok v ↔ s.exactElement? name index.toInt = some v.toInt := by
  rw [element, exactElement?, elementsOf?]
  cases s.arrays.get? name with
  | none => exact ⟨nofun, nofun⟩
  | some elements =>
    simp only [position?_bind_eq, Option.bind_eq_bind, Option.bind_some]
    by_cases h : 0 ≤ index.toInt
    · simp only [if_pos h]
      cases elements[index.toInt.toNat]? with
      | none => exact ⟨nofun, nofun⟩
      | some w =>
        rw [Option.map_some, Option.some_inj, Int64.toInt_inj]
        exact ⟨Except.ok.inj, congrArg _⟩
    · simp only [if_neg h]
      exact ⟨nofun, nofun⟩

/-- Reading an element does not compute. -/
theorem element_eq_error {s : State} {name : String} {index : Value} {cause : Cause}
    (h : s.element name index = .error cause) :
    cause = .unknownArray name ∨ cause = .indexOutOfBounds name index := by
  rw [element] at h
  split at h
  · cases h
    exact .inl rfl
  · split at h
    · cases h
      exact .inr rfl
    · cases h

end State

namespace Expr

/-! ## Whole expressions -/

theorem readVariable_eq_ok_iff {s : State} {name : String} {v : Value} :
    readVariable s name = .ok v ↔ (s.valueOf? name).map Int64.toInt = some v.toInt := by
  rw [readVariable]
  cases s.valueOf? name with
  | none => exact ⟨nofun, nofun⟩
  | some w =>
    rw [Option.map_some, Option.some_inj, Int64.toInt_inj]
    exact ⟨Except.ok.inj, congrArg _⟩

theorem readVariable_eq_error {s : State} {name : String} {cause : Cause}
    (h : readVariable s name = .error cause) : cause = .unknownIdentifier name := by
  rw [readVariable] at h
  split at h
  · cases h
  · cases h
    rfl

theorem blame_eq_ok_iff {α : Type} {span : Span} {x : Except Cause α} {a : α} :
    blame span x = .ok a ↔ x = .ok a :=
  ⟨blame_eq_ok, fun h => h ▸ rfl⟩

/-- An expression that has the exact value of a value fits, as the last of its parts. -/
theorem forall_mem_self_fits {s : State} {e : Expr} {v : Value}
    (h : e.exactValue? s = some v.toInt) : ∀ p ∈ [e], p.Fits s :=
  List.forall_mem_singleton.2 (fits_iff.2 ⟨v, h⟩)

/-- With one operand, exactness goes from the operand to the expression. -/
theorem eval_eq_ok_iff_of_operand {s : State} {e operand : Expr}
    {step : Value → Except Cause Value} {exactStep : Int → Option Int}
    (he : e.eval s = operand.eval s >>= fun a => blame e.span (step a))
    (hp : e.parts = operand.parts ++ [e])
    (hx : e.exactValue? s = (operand.exactValue? s).bind exactStep)
    (hs : ∀ a v, step a = .ok v ↔ exactStep a.toInt = some v.toInt)
    (ih : ∀ a, operand.eval s = .ok a ↔
      (∀ p ∈ operand.parts, p.Fits s) ∧ operand.exactValue? s = some a.toInt) (v : Value) :
    e.eval s = .ok v ↔ (∀ p ∈ e.parts, p.Fits s) ∧ e.exactValue? s = some v.toInt := by
  rw [he, bind_eq_ok, hp, List.forall_mem_append]
  simp only [blame_eq_ok_iff, hs]
  constructor
  · rintro ⟨a, ha, h⟩
    obtain ⟨hpa, hxa⟩ := (ih a).1 ha
    have h' : e.exactValue? s = some v.toInt := by
      rw [hx, hxa]
      exact h
    exact ⟨⟨hpa, forall_mem_self_fits h'⟩, h'⟩
  · rintro ⟨⟨hpa, -⟩, h⟩
    obtain ⟨a, hxa⟩ := fits_iff.1 (hpa operand operand.self_mem_parts)
    rw [hx, hxa] at h
    exact ⟨a, (ih a).2 ⟨hpa, hxa⟩, h⟩

/-- The expression has a value exactly when every part has an exact value in range, and it is the
exact one. -/
theorem eval_eq_ok_iff {s : State} {e : Expr} {v : Value} :
    e.eval s = .ok v ↔ (∀ p ∈ e.parts, p.Fits s) ∧ e.exactValue? s = some v.toInt := by
  induction e generalizing v with
  | number value span =>
    refine ⟨fun h => ?_, fun h => ?_⟩
    · cases h
      exact ⟨forall_mem_self_fits rfl, rfl⟩
    · exact congrArg _ (Int64.toInt_inj.1 (Option.some.inj h.2))
  | var name span =>
    rw [eval, blame_eq_ok_iff, readVariable_eq_ok_iff]
    exact ⟨fun h => ⟨forall_mem_self_fits h, h⟩, fun h => h.2⟩
  | element name index span ih =>
    exact eval_eq_ok_iff_of_operand rfl rfl rfl (fun _ _ => State.element_eq_ok_iff)
      (fun _ => ih) v
  | signed sign operand span ih =>
    have hx : (signed sign operand span).exactValue? s =
        (operand.exactValue? s).bind fun a => some (sign.exactResult a) := by
      rw [exactValue?, Option.map_eq_bind]
      rfl
    refine eval_eq_ok_iff_of_operand rfl rfl hx (fun a w => ?_) (fun _ => ih) v
    rw [Option.some_inj]
    exact Sign.apply_eq_ok_iff
  | binary operator left right span ihl ihr =>
    rw [eval, bind_eq_ok, parts, List.forall_mem_append, List.forall_mem_append]
    simp only [bind_eq_ok, blame_eq_ok_iff, Operator.apply_eq_ok_iff]
    constructor
    · rintro ⟨a, ha, b, hb, h⟩
      obtain ⟨hpl, hxl⟩ := ihl.1 ha
      obtain ⟨hpr, hxr⟩ := ihr.1 hb
      have h' : (binary operator left right span).exactValue? s = some v.toInt := by
        rw [exactValue?, hxl, hxr]
        exact h
      exact ⟨⟨⟨hpl, hpr⟩, forall_mem_self_fits h'⟩, h'⟩
    · rintro ⟨⟨⟨hpl, hpr⟩, -⟩, h⟩
      obtain ⟨a, hxl⟩ := fits_iff.1 (hpl left left.self_mem_parts)
      obtain ⟨b, hxr⟩ := fits_iff.1 (hpr right right.self_mem_parts)
      rw [exactValue?, hxl, hxr] at h
      exact ⟨a, ihl.2 ⟨hpl, hxl⟩, b, ihr.2 ⟨hpr, hxr⟩, h⟩

/-- A value is exact. -/
theorem exactValue?_of_eval {s : State} {e : Expr} {v : Value} (h : e.eval s = .ok v) :
    e.exactValue? s = some v.toInt :=
  (eval_eq_ok_iff.1 h).2

/-- The operands of an expression have values, and its own operation fails. -/
inductive Fails (s : State) (cause : Cause) : Expr → Prop
  | var {name : String} {span : Span} (h : readVariable s name = .error cause) :
      Fails s cause (.var name span)
  | element {name : String} {index : Expr} {span : Span} {i : Value} (hi : index.eval s = .ok i)
      (h : s.element name i = .error cause) : Fails s cause (.element name index span)
  | signed {sign : Sign} {operand : Expr} {span : Span} {a : Value} (ha : operand.eval s = .ok a)
      (h : sign.apply a = .error cause) : Fails s cause (.signed sign operand span)
  | binary {operator : Operator} {left right : Expr} {span : Span} {a b : Value}
      (ha : left.eval s = .ok a) (hb : right.eval s = .ok b)
      (h : operator.apply a b = .error cause) : Fails s cause (.binary operator left right span)

/-- An expression without a value has a part that fails, and is blamed there. -/
theorem exists_part_of_eval_error {s : State} {e : Expr} {fault : Cause × Span}
    (h : e.eval s = .error fault) : ∃ p ∈ e.parts, p.span = fault.2 ∧ p.Fails s fault.1 := by
  induction e with
  | number value span => cases h
  | var name span =>
    obtain ⟨hc, hs⟩ := blame_eq_error h
    exact ⟨_, self_mem_parts _, hs.symm, .var hc⟩
  | element name index span ih =>
    rcases bind_eq_error.1 h with hi | ⟨i, hi, h⟩
    · obtain ⟨p, hp, hf⟩ := ih hi
      exact ⟨p, List.mem_append_left _ hp, hf⟩
    · obtain ⟨hc, hs⟩ := blame_eq_error h
      exact ⟨_, self_mem_parts _, hs.symm, .element hi hc⟩
  | signed sign operand span ih =>
    rcases bind_eq_error.1 h with ha | ⟨a, ha, h⟩
    · obtain ⟨p, hp, hf⟩ := ih ha
      exact ⟨p, List.mem_append_left _ hp, hf⟩
    · obtain ⟨hc, hs⟩ := blame_eq_error h
      exact ⟨_, self_mem_parts _, hs.symm, .signed ha hc⟩
  | binary operator left right span ihl ihr =>
    rcases bind_eq_error.1 h with ha | ⟨a, ha, h⟩
    · obtain ⟨p, hp, hf⟩ := ihl ha
      exact ⟨p, List.mem_append_left _ (List.mem_append_left _ hp), hf⟩
    rcases bind_eq_error.1 h with hb | ⟨b, hb, h⟩
    · obtain ⟨p, hp, hf⟩ := ihr hb
      exact ⟨p, List.mem_append_left _ (List.mem_append_right _ hp), hf⟩
    · obtain ⟨hc, hs⟩ := blame_eq_error h
      exact ⟨_, self_mem_parts _, hs.symm, .binary ha hb hc⟩

/-- The exact operands of a sign or an operator have an exact result out of range. -/
def Overflows (s : State) : Expr → Prop
  | .signed sign operand _ =>
    ∃ a, operand.exactValue? s = some a ∧ ¬Value.InRange (sign.exactResult a)
  | .binary operator left right _ =>
    ∃ a b n, left.exactValue? s = some a ∧ right.exactValue? s = some b ∧
      operator.exactResult? a b = some n ∧ ¬Value.InRange n
  | _ => False

/-- The exact operands of a quotient or a remainder are an integer and zero. -/
def DividesByZero (s : State) : Expr → Prop
  | .binary operator left right _ =>
    (operator = .divide ∨ operator = .modulo) ∧
      (∃ a, left.exactValue? s = some a) ∧ right.exactValue? s = some 0
  | _ => False

theorem Fails.overflows {s : State} {p : Expr} (h : p.Fails s .overflow) : p.Overflows s := by
  cases h with
  | var h => cases readVariable_eq_error h
  | element _ h => rcases State.element_eq_error h with h | h <;> cases h
  | signed ha h => exact ⟨_, exactValue?_of_eval ha, (Sign.apply_eq_error h).2⟩
  | binary ha hb h =>
    rcases Operator.apply_eq_error h with ⟨-, n, hr, hn⟩ | ⟨h, -⟩
    · exact ⟨_, _, n, exactValue?_of_eval ha, exactValue?_of_eval hb, hr, hn⟩
    · cases h

theorem Fails.dividesByZero {s : State} {p : Expr} (h : p.Fails s .divisionByZero) :
    p.DividesByZero s := by
  cases h with
  | var h => cases readVariable_eq_error h
  | element _ h => rcases State.element_eq_error h with h | h <;> cases h
  | signed _ h => cases (Sign.apply_eq_error h).1
  | binary ha hb h =>
    rcases Operator.apply_eq_error h with ⟨h, -⟩ | ⟨-, ho, hz⟩
    · cases h
    · refine ⟨ho, ⟨_, exactValue?_of_eval ha⟩, ?_⟩
      rw [exactValue?_of_eval hb, hz]

end Expr

/-! ## Places -/

/-- Every part of the tree of a phrase starts at a token of its own. -/
theorem Phrase.starts_subperm {l : Level} (d : Phrase l) :
    (d.tree.parts.map (·.span.start)).Subperm (d.tokens.map (·.span.start)) := by
  induction d with
  | number | name => exact .refl _
  | element t opening index closing ht ho hc ih =>
    have h := ih.append (List.Subperm.refl [t.span.start])
    simp only [tree, tokens, Expr.parts, List.map_append, List.map_cons, List.map_nil]
    refine (h.trans (List.perm_append_singleton _ _).subperm).trans ?_
    exact (((List.sublist_append_left _ _).cons _).cons_cons _).subperm
  | group opening inner closing ho hc ih =>
    simp only [tree, tokens, List.map_append, List.map_cons, List.map_nil]
    exact ih.trans ((List.sublist_append_left _ _).cons _).subperm
  | signed t sign operand ht ih =>
    have h := ih.append (List.Subperm.refl [t.span.start])
    simp only [tree, tokens, Expr.parts, List.map_append, List.map_cons, List.map_nil]
    exact h.trans (List.perm_append_singleton _ _).subperm
  | single hl item ih => exact ih
  | join hl left t operator right ht hm ihl ihr =>
    have h := ihl.append (ihr.append (List.Subperm.refl [t.span.start]))
    simp only [tree, tokens, Expr.parts, List.map_append, List.map_cons, List.map_nil,
      List.append_assoc]
    exact h.trans ((List.perm_append_singleton _ _).append_left _).subperm

/-- The parts of a text that is read are all reported at different places. -/
theorem Expr.nodup_spans_of_parse {text : String} {e : Expr} (h : Expr.parse text = .ok e) :
    (e.parts.map Expr.span).Nodup := by
  obtain ⟨d, hd, rfl, -⟩ := Expr.derives_parse h
  have hn := Piece.nodup_starts_scanFrom 0 text.toList
  rw [← Piece.scan, hd, List.append_nil, List.map_map] at hn
  have hs : (d.tree.parts.map (·.span.start)).Nodup := by
    obtain ⟨starts, hp, hsub⟩ := d.starts_subperm
    exact hp.nodup_iff.1 (hn.sublist hsub)
  refine List.Nodup.of_map Span.start ?_
  rw [List.map_map]
  exact hs

/-- A text that is read has a value exactly when all of its parts have an exact one in range, and it
is the exact one then. A fault for an overflow or a division by zero is that of the exact operands,
and the place that is reported belongs to no other part. -/
theorem evaluate_eq_exact {text : String} {e : Expr} (h : Expr.parse text = .ok e) (s : State) :
    (∀ v, evaluate text s = .ok v ↔
      (∀ p ∈ e.parts, ∃ n, p.exactValue? s = some n ∧ Value.InRange n) ∧
        e.exactValue? s = some v.toInt) ∧
    (e.parts.map Expr.span).Nodup ∧
    (∀ fault, evaluate text s = .error fault → fault.cause = .overflow →
      ∃ p ∈ e.parts, fault = .inText text .overflow p.span ∧ p.Overflows s) ∧
    (∀ fault, evaluate text s = .error fault → fault.cause = .divisionByZero →
      ∃ p ∈ e.parts, fault = .inText text .divisionByZero p.span ∧ p.DividesByZero s) ∧
    Operator.modulo.apply Int64.minValue (-1) = .ok 0 ∧
    Operator.divide.apply Int64.minValue (-1) = .error .overflow := by
  rw [evaluate_of_parse h]
  refine ⟨fun v => ?_, Expr.nodup_spans_of_parse h, ?_, ?_, rfl, rfl⟩
  · rw [Fault.within_eq_ok_iff]
    exact Expr.eval_eq_ok_iff
  · intro fault hf hc
    obtain ⟨cause, span, he, rfl⟩ := Fault.within_eq_error_iff.1 hf
    obtain rfl : cause = .overflow := hc
    obtain ⟨p, hp, rfl, hfails⟩ := Expr.exists_part_of_eval_error he
    exact ⟨p, hp, rfl, hfails.overflows⟩
  · intro fault hf hc
    obtain ⟨cause, span, he, rfl⟩ := Fault.within_eq_error_iff.1 hf
    obtain rfl : cause = .divisionByZero := hc
    obtain ⟨p, hp, rfl, hfails⟩ := Expr.exists_part_of_eval_error he
    exact ⟨p, hp, rfl, hfails.dividesByZero⟩

/-- The remainder of the least value by `-1` is zero. -/
theorem evaluate_eq_exact_least :
    let text := "x % -1"
    let s : State := ⟨⟨[("x", Int64.minValue)]⟩, .empty, #[]⟩
    (∃ e, Expr.parse text = .ok e ∧ e.exactValue? s = some 0) ∧ evaluate text s = .ok 0 := by
  intro text s
  have h : Expr.parse text = .ok (.binary .modulo (.var "x" ⟨0, 1⟩)
      (.signed .minus (.number 1 ⟨5, 1⟩) ⟨4, 1⟩) ⟨2, 1⟩) := by
    decide +kernel
  refine ⟨⟨_, h, rfl⟩, ((evaluate_eq_exact h s).1 0).2 ⟨?_, rfl⟩⟩
  simp only [Expr.parts, List.cons_append, List.nil_append, List.forall_mem_cons,
    List.not_mem_nil, false_imp_iff, implies_true, and_true]
  exact ⟨⟨_, rfl, by decide⟩, ⟨_, rfl, by decide⟩, ⟨_, rfl, by decide⟩, ⟨_, rfl, by decide⟩⟩

end BlockScript
