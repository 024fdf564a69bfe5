import BlockScript.Proofs.Tokens
import Mathlib.Data.List.TakeWhile

/-!
# Pieces in their text

Every piece of a scanned text stands where its span says. The text falls apart at any of its pieces
(`Piece.scanFrom_eq_append_cons`): into what comes before, which scans to the pieces before and to
no more, the lexeme of the piece, and what comes behind. Reading the text under the span therefore
gives the lexeme back (`Piece.lexeme?_span`), and from the start of one piece to the end of a later
one the text begins and ends with their lexemes (`Piece.lexeme?_merge`).
-/

set_option autoImplicit false

namespace BlockScript

namespace Text

theorem splitAtByte_append (front back : List Char) :
    splitAtByte (front ++ back) (byteLength front) = some (front, back) := by
  induction front with
  | nil => rw [List.nil_append, byteLength_nil, splitAtByte]
  | cons c front ih =>
    have hc := c.utf8Size_pos
    obtain ⟨n, hn⟩ : ∃ n, byteLength (c :: front) = n + 1 :=
      ⟨c.utf8Size + byteLength front - 1, by rw [byteLength_cons]; omega⟩
    rw [byteLength_cons] at hn
    have hle : c.utf8Size ≤ n + 1 := by omega
    have hsub : n + 1 - c.utf8Size = byteLength front := by omega
    rw [byteLength_cons, hn, List.cons_append, splitAtByte, if_pos hle, hsub, ih]
    rfl

end Text

theorem Span.chars?_append (front middle back : List Char) :
    Span.chars? ⟨Text.byteLength front, Text.byteLength middle⟩ (front ++ (middle ++ back)) =
      some middle := by
  simp [chars?, Text.splitAtByte_append]

/-- The texts of the tokens of a kind. -/
def TokenKind.Spells : TokenKind → List Char → Prop
  | .leftParenthesis, lexeme => lexeme = ['(']
  | .rightParenthesis, lexeme => lexeme = [')']
  | .leftBracket, lexeme => lexeme = ['[']
  | .rightBracket, lexeme => lexeme = [']']
  | .plus, lexeme => lexeme = ['+']
  | .minus, lexeme => lexeme = ['-']
  | .star, lexeme => lexeme = ['*']
  | .slash, lexeme => lexeme = ['/']
  | .percent, lexeme => lexeme = ['%']
  | .number, lexeme => lexeme ≠ [] ∧ ∀ c ∈ lexeme, c.isDigit
  | .name, lexeme => Text.isNameChars lexeme
  | .finish, lexeme => lexeme = []

theorem TokenKind.spells_of_symbol {c : Char} {kind : TokenKind} (h : ofSymbol? c = some kind) :
    kind.Spells [c] := by
  unfold ofSymbol? at h
  split at h <;> cases h <;> rfl

theorem TokenKind.ofSymbol?_eq_none {c : Char} (h : ofSymbol? c = none) :
    c ∉ ['(', ')', '[', ']', '+', '-', '*', '/', '%'] := by
  intro hm
  simp only [List.mem_cons, List.not_mem_nil, or_false] at hm
  rcases hm with rfl | rfl | rfl | rfl | rfl | rfl | rfl | rfl | rfl <;> cases h

/-- Characters that are not blank and can start no token. -/
def Text.StartsNothing (c : Char) : Prop :=
  isBlank c = false ∧ c ∉ ['(', ')', '[', ']', '+', '-', '*', '/', '%'] ∧ c.isDigit = false ∧
    isNameStart c = false

namespace Piece

/-- A piece is spelled as its kind wants it. -/
def WellSpelled : Piece → Prop
  | .token t => t.kind.Spells t.lexeme
  | .unrecognized f => Text.StartsNothing f.character

section
variable (start : Nat) (c : Char) (rest : List Char)

theorem lexeme_append_remainder : (read start c rest).lexeme ++ remainder c rest = c :: rest := by
  unfold read remainder
  split
  · rfl
  · split
    · exact congrArg (c :: ·) List.takeWhile_append_dropWhile
    · split
      · exact congrArg (c :: ·) List.takeWhile_append_dropWhile
      · rfl

theorem span_read :
    (read start c rest).span = ⟨start, Text.byteLength (read start c rest).lexeme⟩ := by
  unfold read
  split
  · rfl
  · split
    · rfl
    · split
      · rfl
      · simp [span, lexeme]

theorem wellSpelled_read (hc : Text.isBlank c = false) : (read start c rest).WellSpelled := by
  unfold read
  split
  · next kind hk => exact TokenKind.spells_of_symbol hk
  · next hs =>
    split
    · next hd =>
      refine ⟨List.cons_ne_nil _ _, List.forall_mem_cons.2 ⟨hd, fun d hm => ?_⟩⟩
      exact List.mem_takeWhile_imp hm
    · next hd =>
      split
      · next hn =>
        have ha : (rest.takeWhile Text.isNameChar).all Text.isNameChar :=
          List.all_eq_true.2 fun d hm => List.mem_takeWhile_imp hm
        simp only [WellSpelled, TokenKind.Spells, Text.isNameChars, hn, ha, Bool.and_self]
      · next hn =>
        exact ⟨hc, TokenKind.ofSymbol?_eq_none hs, by simpa using hd, by simpa using hn⟩

end

theorem scanFrom_nil (start : Nat) : scanFrom start [] = [] := by
  rw [scanFrom.eq_def]

theorem scanFrom_blank {start : Nat} {c : Char} {rest : List Char} (hc : Text.isBlank c) :
    scanFrom start (c :: rest) = scanFrom (start + c.utf8Size) rest := by
  rw [scanFrom.eq_def]
  exact if_pos hc

theorem scanFrom_cons {start : Nat} {c : Char} {rest : List Char} (hc : Text.isBlank c = false) :
    scanFrom start (c :: rest) =
      read start c rest :: scanFrom (read start c rest).span.stop (remainder c rest) := by
  rw [scanFrom.eq_def]
  exact if_neg (by simp [hc])

/-- A run that is followed by less than before is still the same run. -/
theorem takeWhile_append_of_prefix {p : Char → Bool} {cs front : List Char}
    (h : front <+: cs.dropWhile p) :
    (cs.takeWhile p ++ front).takeWhile p = cs.takeWhile p ∧
      (cs.takeWhile p ++ front).dropWhile p = front := by
  have hp : ∀ c ∈ cs.takeWhile p, p c := fun c hc => List.mem_takeWhile_imp hc
  rw [List.takeWhile_append_of_pos hp, List.dropWhile_append_of_pos hp]
  cases front with
  | nil => simp
  | cons c front =>
    obtain ⟨back, hb⟩ := h
    have hc : p c = false := by
      have := List.head?_dropWhile_not p cs
      rw [← hb] at this
      simpa using this
    simp [hc]

/-- Scanning stops at the end of a piece for any text that goes on less far. -/
theorem scanFrom_lexeme_append {start : Nat} {c : Char} {rest front : List Char}
    (hc : Text.isBlank c = false) (h : front <+: remainder c rest) :
    scanFrom start ((read start c rest).lexeme ++ front) =
      read start c rest :: scanFrom (read start c rest).span.stop front := by
  -- What `read` takes behind `c` is a run that ends where it ended before.
  have key : ∃ run, (read start c rest).lexeme = c :: run ∧
      read start c (run ++ front) = read start c rest ∧ remainder c (run ++ front) = front := by
    unfold read remainder at *
    cases hs : TokenKind.ofSymbol? c with
    | some kind => exact ⟨[], rfl, rfl, rfl⟩
    | none =>
      rw [hs] at h
      dsimp only at h ⊢
      split at h
      · next hd =>
        have := takeWhile_append_of_prefix h
        simp only [hd, if_true]
        exact ⟨_, rfl, by rw [this.1], this.2⟩
      · next hd =>
        split at h
        · next hn =>
          have := takeWhile_append_of_prefix h
          simp only [hd, hn, if_true]
          exact ⟨_, rfl, by simp [this.1], by simpa using this.2⟩
        · next hn =>
          simp only [hd, hn]
          exact ⟨[], rfl, rfl, rfl⟩
  obtain ⟨run, hl, hr, hm⟩ := key
  rw [hl, List.cons_append, scanFrom_cons hc, hr, hm]

/-- The text at a piece: what stands before it scans to the pieces before it and what stands behind
it to the pieces behind it. -/
theorem scanFrom_eq_append_cons {start : Nat} {cs : List Char} {before after : List Piece}
    {p : Piece} (h : scanFrom start cs = before ++ p :: after) :
    ∃ front back, cs = front ++ (p.lexeme ++ back) ∧
      p.span = ⟨start + Text.byteLength front, Text.byteLength p.lexeme⟩ ∧
      scanFrom start front = before ∧ scanFrom p.span.stop back = after ∧ p.WellSpelled := by
  fun_induction scanFrom start cs generalizing before with
  | case1 => simp at h
  | case2 start c rest hc ih =>
    obtain ⟨front, back, rfl, hs, hf, hb⟩ := ih h
    refine ⟨c :: front, back, rfl, ?_, (scanFrom_blank hc).trans hf, hb⟩
    rw [hs, Text.byteLength_cons, Nat.add_assoc]
  | case3 start c rest hc piece =>
    rename_i ih
    have hc : Text.isBlank c = false := by simpa using hc
    cases before with
    | nil =>
      obtain ⟨rfl, rfl⟩ := List.cons.inj h
      refine ⟨[], remainder c rest, (lexeme_append_remainder start c rest).symm, ?_, ?_, rfl, ?_⟩
      · exact span_read start c rest
      · exact scanFrom_nil start
      · exact wellSpelled_read start c rest hc
    | cons q before =>
      obtain ⟨rfl, h'⟩ := List.cons.inj h
      obtain ⟨front, back, hr, hs, hf, hb⟩ := ih h'
      refine ⟨piece.lexeme ++ front, back, ?_, ?_, ?_, hb⟩
      · rw [List.append_assoc, ← hr, lexeme_append_remainder]
      · rw [hs, Span.stop, span_read, Text.byteLength_append, Nat.add_assoc]
      · rw [scanFrom_lexeme_append hc (hr ▸ List.prefix_append _ _), hf]

/-- Cut before one of its pieces, a text scans to the pieces before it. -/
theorem splitAtByte_scan {source : String} {before after : List Piece} {p : Piece}
    (h : scan source = before ++ p :: after) :
    ∃ front back, Text.splitAtByte source.toList p.span.start = some (front, p.lexeme ++ back) ∧
      scan (String.ofList front) = before ∧ p.WellSpelled := by
  obtain ⟨front, back, hs, hp, hf, -, hw⟩ := scanFrom_eq_append_cons h
  refine ⟨front, back, ?_, ?_, hw⟩
  · rw [hs, hp, Nat.zero_add, Text.splitAtByte_append]
  · rw [scan, String.toList_ofList, hf]

/-- The text under the span of a piece is its lexeme. -/
theorem lexeme?_span {source : String} {p : Piece} (h : p ∈ scan source) :
    p.span.lexeme? source = some (String.ofList p.lexeme) ∧ p.WellSpelled := by
  obtain ⟨before, after, h⟩ := List.append_of_mem h
  obtain ⟨front, back, hs, hp, -, -, hw⟩ := scanFrom_eq_append_cons h
  refine ⟨?_, hw⟩
  rw [hp, Nat.zero_add, Span.lexeme?, hs, Span.chars?_append]
  rfl

/-- From one piece to a later one, the text begins and ends with their lexemes. -/
theorem lexeme?_merge {source : String} {p q : Piece} (h : [p, q].Sublist (scan source)) :
    ∃ between, (p.span.merge q.span).lexeme? source =
      some (String.ofList (p.lexeme ++ (between ++ q.lexeme))) := by
  obtain ⟨before, later, hl, hp, hq⟩ := List.cons_sublist_iff.1 h
  obtain ⟨first, second, rfl⟩ := List.append_of_mem hp
  obtain ⟨third, fourth, hm⟩ := List.append_of_mem (List.singleton_sublist.1 hq)
  rw [hm, List.append_assoc, List.cons_append, ← List.append_assoc second] at hl
  obtain ⟨front, back, hcs, hs, -, hb, -⟩ := scanFrom_eq_append_cons hl
  obtain ⟨between, back', rfl, hs', -⟩ := scanFrom_eq_append_cons hb
  have hmerge : p.span.merge q.span =
      ⟨Text.byteLength front, Text.byteLength (p.lexeme ++ (between ++ q.lexeme))⟩ := by
    simp only [Span.merge, Span.stop, hs, hs', Text.byteLength_append, Span.mk.injEq]
    omega
  have hc := Span.chars?_append front (p.lexeme ++ (between ++ q.lexeme)) back'
  simp only [List.append_assoc] at hc
  exact ⟨between, by rw [hmerge, Span.lexeme?, hcs, hc]; rfl⟩

end Piece

end BlockScript
