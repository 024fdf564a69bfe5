import BlockScript.Report.Snippet
import BlockScript.Proofs.Names

/-!
# The marked part of a text

The span that a fault blames is a piece of its text, an element of it, or its end, and only the end
is empty (`evaluate_error_span`). A snippet marks the span, and in the place of an empty span the
last byte of the text. What is marked is therefore not empty unless the text is, lies in the text
and ends between two characters.
It also starts between two characters, unless the end of the text is blamed and the last character
takes more than one byte: then the mark starts inside of that character (`evaluate_error_marked`).
-/

set_option autoImplicit false

namespace BlockScript

namespace Text

/-- A byte of a text with whole characters before it: the start of a character, or the end. -/
def Boundary (cs : List Char) (n : Nat) : Prop :=
  ∃ front back, cs = front ++ back ∧ byteLength front = n

theorem eq_of_splitAtByte {cs front back : List Char} {n : Nat}
    (h : splitAtByte cs n = some (front, back)) : cs = front ++ back ∧ byteLength front = n := by
  induction cs generalizing n front with
  | nil =>
    cases n with
    | zero => cases h; exact ⟨rfl, rfl⟩
    | succ n => cases h
  | cons c cs ih =>
    cases n with
    | zero => cases h; exact ⟨rfl, rfl⟩
    | succ n =>
      rw [splitAtByte] at h
      split at h
      · next hle =>
        obtain ⟨⟨front', back'⟩, hs, he⟩ := Option.map_eq_some_iff.1 h
        cases he
        obtain ⟨rfl, hl⟩ := ih hs
        refine ⟨rfl, ?_⟩
        rw [byteLength_cons, hl]
        omega
      · cases h

/-- A text can be cut at its boundaries, and nowhere else. -/
theorem boundary_iff {cs : List Char} {n : Nat} : Boundary cs n ↔ (splitAtByte cs n).isSome := by
  constructor
  · rintro ⟨front, back, rfl, rfl⟩
    rw [splitAtByte_append]
    rfl
  · intro h
    obtain ⟨⟨front, back⟩, hs⟩ := Option.isSome_iff_exists.1 h
    exact ⟨front, back, eq_of_splitAtByte hs⟩

instance (cs : List Char) (n : Nat) : Decidable (Boundary cs n) :=
  decidable_of_iff _ boundary_iff.symm

theorem boundary_byteLength (cs : List Char) : Boundary cs (byteLength cs) :=
  ⟨cs, [], (List.append_nil cs).symm, rfl⟩

/-- The last byte of a text is a boundary when it is a whole character. -/
theorem boundary_pred_iff (front : List Char) (c : Char) :
    Boundary (front ++ [c]) (byteLength (front ++ [c]) - 1) ↔ c.utf8Size = 1 := by
  have hc := c.utf8Size_pos
  simp only [byteLength_append, byteLength_cons, byteLength_nil, Nat.add_zero]
  constructor
  · rintro ⟨front', back, he, hl⟩
    rcases List.eq_nil_or_concat back with rfl | ⟨back', d, rfl⟩
    · have hb := congrArg byteLength he
      simp only [byteLength_append, byteLength_cons, byteLength_nil, Nat.add_zero] at hb
      omega
    · -- What stands before the boundary stands before the last character.
      rw [List.concat_eq_append, ← List.append_assoc] at he
      obtain ⟨hf, -⟩ := List.append_inj' he rfl
      have hb := congrArg byteLength hf
      rw [byteLength_append] at hb
      omega
  · intro h
    exact ⟨front, [c], rfl, by omega⟩

end Text

/-- The text under a span lies between two boundaries. -/
theorem Span.boundary_of_lexeme? {a : Span} {text lexeme : String}
    (h : a.lexeme? text = some lexeme) :
    Text.Boundary text.toList a.start ∧ Text.Boundary text.toList a.stop ∧
      a.stop ≤ Text.byteLength text.toList := by
  obtain ⟨middle, hm, -⟩ := Option.map_eq_some_iff.1 h
  obtain ⟨⟨front, rest⟩, hf, hm⟩ := Option.bind_eq_some_iff.1 hm
  obtain ⟨⟨middle', back⟩, hb, -⟩ := Option.bind_eq_some_iff.1 hm
  obtain ⟨hcs, hstart⟩ := Text.eq_of_splitAtByte hf
  obtain ⟨rfl, hlength⟩ := Text.eq_of_splitAtByte hb
  refine ⟨⟨front, _, hcs, hstart⟩, ⟨front ++ middle', back, ?_, ?_⟩, ?_⟩
  · rw [hcs, List.append_assoc]
  · rw [Text.byteLength_append, hstart, hlength, stop]
  · rw [hcs, Text.byteLength_append, Text.byteLength_append, hstart, hlength, stop]
    omega

/-! ## What is blamed -/

section
variable {text : String}

theorem Span.length_merge_pos {a b : Span} (h : 0 < a.length) : 0 < (a.merge b).length := by
  simp only [merge, stop]
  omega

theorem Expr.Mark.span_cases {span : Span} (h : Mark (.endOf text) (Piece.scan text) span) :
    span = .endOf text ∨ 0 < span.length := by
  cases h with
  | @token t ht => exact .inr (Piece.length_pos_of_mem_scanFrom ht)
  | @element t closing ht _ _ =>
    have hpos : 0 < t.span.length :=
      Piece.length_pos_of_mem_scanFrom (ht.subset List.mem_cons_self)
    exact .inr (Span.length_merge_pos hpos)
  | finish => exact .inl rfl

theorem Expr.parse_error_span {error : SyntaxError} (h : parse text = .error error) :
    error.span = .endOf text ∨ 0 < error.span.length := by
  cases refusal_parse h with
  | @large t ht _ _ => exact .inr (Piece.length_pos_of_mem_scanFrom ht)
  | deep hm => exact hm.span_cases
  | @stuck ts rest standing _ hp _ _ ho =>
    cases ho with
    | @token t rest cause _ _ =>
      have ht : .token t ∈ Piece.scan text := by rw [hp]; simp
      exact .inr (Piece.length_pos_of_mem_scanFrom ht)
    | finish _ _ => exact .inl rfl
    | @unrecognized f rest =>
      have hf : .unrecognized f ∈ Piece.scan text := by rw [hp]; simp
      exact .inr (Piece.length_pos_of_mem_scanFrom hf)

/-- A node takes up at least one byte of its text. -/
theorem Expr.StandsIn.length_pos {ts : List Token} {e : Expr} (h : e.StandsIn ts)
    (hs : Piece.scan text = ts.map .token) : 0 < e.span.length := by
  have hpos : ∀ t ∈ ts, 0 < t.span.length := by
    intro t ht
    have hm : .token t ∈ Piece.scan text := hs ▸ List.mem_map_of_mem ht
    exact Piece.length_pos_of_mem_scanFrom hm
  cases e with
  | number | var | signed | binary =>
    obtain ⟨t, ht, -, rfl⟩ := h
    exact hpos t ht
  | element =>
    obtain ⟨t, closing, ht, -, -, rfl⟩ := h
    have hlt := hpos t (ht.subset List.mem_cons_self)
    have ho : t.span.stop ≤ closing.span.start := Token.before_of_sublist hs ht
    show 0 < (t.span.through closing.span).length
    rw [← Span.merge_of_stop_le ho]
    exact Span.length_merge_pos hlt

/-- A fault of an expression blames the end of the text, or at least one byte of it. -/
theorem evaluate_error_span {s : State} {f : Fault} {span : Span}
    (h : evaluate text s = .error f) (ho : f.origin = some ⟨text, span⟩) :
    span = .endOf text ∨ 0 < span.length := by
  cases hp : Expr.parse text with
  | error error =>
    rw [evaluate, parseText, hp] at h
    cases h
    cases ho
    exact Expr.parse_error_span hp
  | ok e =>
    rw [evaluate_of_parse hp] at h
    obtain ⟨cause, span', he, rfl⟩ := Fault.within_eq_error_iff.1 h
    cases ho
    obtain ⟨part, hm, rfl, -⟩ := Expr.exists_part_of_eval_error he
    obtain ⟨d, hd, rfl, -⟩ := Expr.derives_parse hp
    rw [List.append_nil] at hd
    exact .inr ((d.standsIn_of_mem_parts hm).length_pos hd)

end

/-! ## What is marked -/

theorem Snippet.marked_of_pos {a : Span} (h : 0 < a.length) : marked a = a :=
  if_neg (by omega)

/-- At the end of a text its last byte is marked. -/
theorem Snippet.marked_endOf (text : String) :
    marked (.endOf text) =
      ⟨Text.byteLength text.toList - 1, min 1 (Text.byteLength text.toList)⟩ := by
  unfold marked Span.endOf
  dsimp only
  split
  · congr 1
    omega
  · congr 1 <;> omega

/-- What a snippet marks of a text without a value lies in the text and ends between two characters.
It starts between two as well, unless the end of the text is blamed behind a character of more than
one byte. -/
theorem evaluate_error_marked (text : String) (s : State) (f : Fault)
    (h : evaluate text s = .error f) :
    ∃ span, f.origin = some ⟨text, span⟩ ∧
      (span.length = 0 → span = .endOf text) ∧
      (span.length ≠ 0 → Snippet.marked span = span) ∧
      (Snippet.marked span).stop ≤ Text.byteLength text.toList ∧
      ((Snippet.marked span).length = 0 → text = "") ∧
      Text.Boundary text.toList (Snippet.marked span).stop ∧
      (Text.Boundary text.toList (Snippet.marked span).start ↔
        (span.length = 0 → ∀ c, text.toList.getLast? = some c → c.utf8Size = 1)) := by
  obtain ⟨span, lexeme, ho, hl, -⟩ := evaluate_error_pointsAt h
  obtain ⟨hstart, hstop, hle⟩ := Span.boundary_of_lexeme? hl
  refine ⟨span, ho, ?_⟩
  rcases evaluate_error_span h ho with rfl | hpos
  · refine ⟨fun _ => rfl, fun hne => absurd rfl hne, ?_⟩
    rw [Snippet.marked_endOf]
    rcases List.eq_nil_or_concat text.toList with hnil | ⟨front, c, hcs⟩
    · have ht : text = "" := String.toList_eq_nil_iff.1 hnil
      rw [hnil]
      refine ⟨by decide, fun _ => ht, by decide, fun _ _ c hc => ?_, fun _ => by decide⟩
      cases hc
    · rw [List.concat_eq_append] at hcs
      have hc := c.utf8Size_pos
      have hlen : 1 ≤ Text.byteLength text.toList := by
        rw [hcs, Text.byteLength_append, Text.byteLength_cons]
        omega
      have hs : Span.stop ⟨Text.byteLength text.toList - 1,
          min 1 (Text.byteLength text.toList)⟩ = Text.byteLength text.toList := by
        show Text.byteLength text.toList - 1 + min 1 (Text.byteLength text.toList) = _
        omega
      refine ⟨Nat.le_of_eq hs, fun hz => ?_, ?_, ?_⟩
      · dsimp only at hz
        omega
      · rw [hs]
        exact Text.boundary_byteLength _
      · rw [hcs, Text.boundary_pred_iff]
        simp [Span.endOf]
  · rw [Snippet.marked_of_pos hpos]
    refine ⟨fun hz => ?_, fun _ => rfl, hle, fun hz => ?_, hstop, ?_⟩
    · omega
    · omega
    · exact ⟨fun _ hz => by omega, fun _ => hstart⟩

/-- The mark stands at a whole character behind a blank of three bytes. -/
theorem evaluate_error_marked_bracket :
    let text := "\u3000a[9"
    let fault : Fault :=
      .inText text (.syntaxError ⟨.unexpected .finish .rightBracket, ⟨6, 0⟩⟩) ⟨6, 0⟩
    evaluate text .empty = .error fault ∧ Snippet.marked ⟨6, 0⟩ = ⟨5, 1⟩ ∧
      Text.Boundary text.toList 5 ∧ Text.Boundary text.toList 6 := by
  intro text fault
  have h : evaluate text .empty = .error fault := by decide +kernel
  obtain ⟨span, ho, -, -, -, -, hstop, hstart⟩ := evaluate_error_marked text .empty fault h
  cases ho
  have hlast : text.toList.getLast? = some '9' := by decide +kernel
  refine ⟨h, rfl, hstart.2 fun _ c hc => ?_, hstop⟩
  cases hlast.symm.trans hc
  rfl

/-- The end of a text behind a no-break space is blamed, and the mark starts in the middle of that
space: there is no snippet. -/
theorem marked_cuts_no_break_space :
    let text := "(\u00a0"
    let fault : Fault := .inText text (.syntaxError ⟨.notOperand .finish, ⟨3, 0⟩⟩) ⟨3, 0⟩
    evaluate text .empty = .error fault ∧ Snippet.marked ⟨3, 0⟩ = ⟨2, 1⟩ ∧
      ¬Text.Boundary text.toList 2 ∧ Snippet.render .plain "expression" fault = none := by
  decide +kernel

end BlockScript
