import BlockScript.Proofs.Lexemes

/-!
# Scanning parts a text

A text can be scanned piece by piece with a cursor (`Cursor.next`), and however often the cursor is
asked, it gives the pieces of the text in order and from then on the end (`Cursor.call_eq`).

The pieces part the text (`Piece.Parts`): they stand one behind the other, no longer and no shorter
than their lexemes, and a character lies inside of one of them exactly when it is not blank
(`Piece.isBlank_eq_false_iff`). Numbers and names go on as far as they can
(`Piece.takes_eq_false_of_mem`).
-/

set_option autoImplicit false

namespace BlockScript

namespace Text

theorem isBlank_of_isDigit {c : Char} (h : c.isDigit) : isBlank c = false := by
  have hn : 48 ≤ c.toNat ∧ c.toNat ≤ 57 := by
    simpa [Char.isDigit, UInt32.le_iff_toNat_le] using h
  simp only [isBlank, Bool.or_eq_false_iff, Bool.and_eq_false_iff, decide_eq_false_iff_not,
    beq_eq_false_iff_ne]
  omega

theorem isBlank_of_isNameChar {c : Char} (h : isNameChar c) : isBlank c = false := by
  have hn : (65 ≤ c.toNat ∧ c.toNat ≤ 90) ∨ (97 ≤ c.toNat ∧ c.toNat ≤ 122) ∨
      (48 ≤ c.toNat ∧ c.toNat ≤ 57) ∨ c.toNat = 95 := by
    simp only [isNameChar, Char.isAlphanum, isAlpha_iff, Char.isDigit, Bool.or_eq_true,
      Bool.and_eq_true, decide_eq_true_eq, beq_iff_eq, Char.le_def, UInt32.le_iff_toNat_le] at h
    rcases h with ((h | h) | h) | rfl
    · exact .inl h
    · exact .inr (.inl h)
    · exact .inr (.inr (.inl h))
    · exact .inr (.inr (.inr rfl))
  simp only [isBlank, Bool.or_eq_false_iff, Bool.and_eq_false_iff, decide_eq_false_iff_not,
    beq_eq_false_iff_ne]
  omega

theorem isNameChar_of_isNameStart {c : Char} (h : isNameStart c) : isNameChar c := by
  simp only [isNameStart, isNameChar, Char.isAlphanum, Bool.or_eq_true] at *
  exact h.imp_left .inl

end Text

/-- No token has a blank character in it. -/
theorem TokenKind.Spells.isBlank_eq_false {kind : TokenKind} {lexeme : List Char}
    (h : kind.Spells lexeme) : ∀ c ∈ lexeme, Text.isBlank c = false := by
  cases kind with
  | number => exact fun c hc => Text.isBlank_of_isDigit (h.2 c hc)
  | name =>
    cases lexeme with
    | nil => cases h
    | cons c cs =>
      simp only [Spells, Text.isNameChars, Bool.and_eq_true, List.all_eq_true] at h
      refine List.forall_mem_cons.2 ⟨?_, fun d hd => Text.isBlank_of_isNameChar (h.2 d hd)⟩
      exact Text.isBlank_of_isNameChar (Text.isNameChar_of_isNameStart h.1)
  | finish =>
    cases show lexeme = [] from h
    exact List.forall_mem_nil _
  | leftParenthesis | rightParenthesis | leftBracket | rightBracket | plus | minus | star | slash
  | percent =>
    cases h
    exact List.forall_mem_singleton.2 rfl

namespace Piece

theorem WellSpelled.isBlank_eq_false {p : Piece} (h : p.WellSpelled) :
    ∀ c ∈ p.lexeme, Text.isBlank c = false := by
  cases p with
  | token t => exact TokenKind.Spells.isBlank_eq_false h
  | unrecognized f => exact List.forall_mem_singleton.2 h.1

/-- Whether a piece would have gone on with a character right behind it. -/
def takes : Piece → Char → Bool
  | .token t, c =>
    match t.kind with
    | .number => c.isDigit
    | .name => Text.isNameChar c
    | _ => false
  | .unrecognized _, _ => false

/-- A piece stops before the first character that it does not go on with. -/
theorem takes_read (start : Nat) (c : Char) (rest : List Char) {d : Char} {back : List Char}
    (h : remainder c rest = d :: back) : (read start c rest).takes d = false := by
  have stopped : ∀ {p : Char → Bool}, rest.dropWhile p = d :: back → p d = false := by
    intro p hd
    have := List.head?_dropWhile_not p rest
    rw [hd] at this
    simpa using this
  unfold read
  unfold remainder at h
  cases hs : TokenKind.ofSymbol? c with
  | some kind =>
    -- Symbols are neither numbers nor names.
    unfold TokenKind.ofSymbol? at hs
    split at hs <;> cases hs <;> rfl
  | none =>
    rw [hs] at h
    dsimp only at h ⊢
    split at h
    · next hd => rw [if_pos hd]; exact stopped h
    · next hd =>
      rw [if_neg hd]
      split at h
      · next hn => rw [if_pos hn]; exact stopped h
      · next hn => rw [if_neg hn]; rfl

/-- Inside of a piece or behind it: a cut of a text that starts with a piece. -/
theorem cut_cases (start : Nat) {c d : Char} {rest front back : List Char}
    (h : c :: rest = front ++ d :: back) :
    (d ∈ (read start c rest).lexeme ∧
        Text.byteLength front < Text.byteLength (read start c rest).lexeme) ∨
      ∃ front', front = (read start c rest).lexeme ++ front' ∧
        remainder c rest = front' ++ d :: back := by
  rw [← lexeme_append_remainder start c rest] at h
  rcases List.append_eq_append_iff.1 h with ⟨front', hf, hr⟩ | ⟨inside, hl, hr⟩
  · exact .inr ⟨front', hf, hr⟩
  cases inside with
  | nil => exact .inr ⟨[], by simpa using hl.symm, hr.symm⟩
  | cons e inside =>
    obtain ⟨rfl, -⟩ := List.cons.inj hr
    refine .inl ⟨by rw [hl]; simp, ?_⟩
    have hd := d.utf8Size_pos
    rw [hl, Text.byteLength_append, Text.byteLength_cons]
    omega

/-- The characters in the spans of pieces are those that are not blank. -/
theorem isBlank_eq_false_iff (start : Nat) {cs front back : List Char} {c : Char}
    (h : cs = front ++ c :: back) :
    Text.isBlank c = false ↔ ∃ p ∈ scanFrom start cs,
      p.span.start ≤ start + Text.byteLength front ∧
        start + Text.byteLength front < p.span.stop := by
  fun_induction scanFrom start cs generalizing front with
  | case1 => simp at h
  | case2 start d rest hd ih =>
    cases front with
    | nil =>
      -- The pieces of the rest all start behind this character.
      obtain ⟨rfl, -⟩ := List.cons.inj h
      have hpos := d.utf8Size_pos
      constructor
      · simp [hd]
      · rintro ⟨p, hp, hs, -⟩
        have := le_start_of_mem_scanFrom hp
        rw [Text.byteLength_nil] at hs
        omega
    | cons e front =>
      obtain ⟨rfl, hr⟩ := List.cons.inj h
      rw [ih hr, Text.byteLength_cons, Nat.add_assoc]
  | case3 start d rest hd piece =>
    rename_i ih
    have hd : Text.isBlank d = false := by simpa using hd
    have hspan : piece.span = ⟨start, Text.byteLength piece.lexeme⟩ := span_read start d rest
    rcases cut_cases start h with ⟨hc, hl⟩ | ⟨front', rfl, hr⟩
    · have hc : Text.isBlank c = false := (wellSpelled_read start d rest hd).isBlank_eq_false c hc
      refine iff_of_true hc ⟨piece, List.mem_cons_self, ?_⟩
      rw [Span.stop, hspan]
      exact ⟨Nat.le_add_right _ _, Nat.add_lt_add_left hl _⟩
    · have hstop : piece.span.stop = start + Text.byteLength piece.lexeme := by
        rw [Span.stop, hspan]
      rw [ih hr, Text.byteLength_append, ← Nat.add_assoc, hstop]
      simp only [List.mem_cons, exists_eq_or_imp]
      refine (or_iff_right ?_).symm
      rintro ⟨-, hlt⟩
      rw [hstop] at hlt
      change start + Text.byteLength piece.lexeme + Text.byteLength front' < _ at hlt
      omega

/-- A piece does not go on with the character behind it. -/
theorem takes_eq_false_of_mem {start : Nat} {cs front back : List Char} {c : Char} {p : Piece}
    (hp : p ∈ scanFrom start cs) (h : cs = front ++ c :: back)
    (hs : p.span.stop = start + Text.byteLength front) : p.takes c = false := by
  fun_induction scanFrom start cs generalizing front with
  | case1 => simp at h
  | case2 start d rest hd ih =>
    cases front with
    | nil =>
      have hstart := le_start_of_mem_scanFrom hp
      have hpos := d.utf8Size_pos
      rw [Span.stop, Text.byteLength_nil] at hs
      omega
    | cons e front =>
      obtain ⟨rfl, hr⟩ := List.cons.inj h
      refine ih hp hr ?_
      rw [hs, Text.byteLength_cons, Nat.add_assoc]
  | case3 start d rest hd piece =>
    rename_i ih
    have hstop : piece.span.stop = start + Text.byteLength piece.lexeme := by
      rw [Span.stop, span_read]
    rcases cut_cases start h with ⟨-, hl⟩ | ⟨front', rfl, hr⟩
    · -- No piece ends before the first one does.
      exfalso
      change Text.byteLength front < Text.byteLength piece.lexeme at hl
      rcases List.mem_cons.1 hp with rfl | hp
      · omega
      · have hstart := le_start_of_mem_scanFrom hp
        rw [Span.stop] at hs
        omega
    · change p.span.stop = start + Text.byteLength (piece.lexeme ++ front') at hs
      rw [Text.byteLength_append, ← Nat.add_assoc, ← hstop] at hs
      rcases List.mem_cons.1 hp with rfl | hp
      · have hf : front' = [] := by
          cases front' with
          | nil => rfl
          | cons e front' =>
            have := e.utf8Size_pos
            rw [Text.byteLength_cons] at hs
            omega
        rw [hf] at hr
        exact takes_read start d rest hr
      · exact ih hp hr hs

theorem scanFrom_dropWhile_isBlank (start : Nat) (cs : List Char) :
    scanFrom start cs =
      scanFrom (start + Text.byteLength (cs.takeWhile Text.isBlank))
        (cs.dropWhile Text.isBlank) := by
  induction cs generalizing start with
  | nil => rfl
  | cons c cs ih =>
    cases hc : Text.isBlank c with
    | true => simp [hc, scanFrom_blank hc, ih, Nat.add_assoc]
    | false => simp [hc]

end Piece

/-! ## Scanning piece by piece -/

/-- How far the scan of a text has come: how many bytes are done, and what is left to read. -/
structure Cursor where
  offset : Nat
  rest : List Char

namespace Cursor

/-- The cursor before a text. -/
def start (source : String) : Cursor :=
  ⟨0, source.toList⟩

/-- The end of the text as a piece. It has no characters. -/
def finish (c : Cursor) : Piece :=
  .token ⟨.finish, [], ⟨c.offset + Text.byteLength c.rest, 0⟩⟩

/-- Takes the next piece. Blank characters before it are skipped, and where nothing else is left,
the end of the text is taken. -/
def next (c : Cursor) : Piece × Cursor :=
  let start := c.offset + Text.byteLength (c.rest.takeWhile Text.isBlank)
  match c.rest.dropWhile Text.isBlank with
  | [] => (.token ⟨.finish, [], ⟨start, 0⟩⟩, ⟨start, []⟩)
  | head :: rest =>
    let piece := Piece.read start head rest
    (piece, ⟨piece.span.stop, Piece.remainder head rest⟩)

/-- The piece that is taken when `n` pieces have been taken before. -/
def call : Cursor → Nat → Piece
  | c, 0 => c.next.1
  | c, n + 1 => c.next.2.call n

/-- One call takes the first piece off those that are left, or stays at the end. The end is the same
for the cursor before and after. -/
theorem next_cases (c : Cursor) :
    c.next.2.finish = c.finish ∧
      ((Piece.scanFrom c.offset c.rest = [] ∧ c.next.1 = c.finish ∧
          Piece.scanFrom c.next.2.offset c.next.2.rest = []) ∨
        Piece.scanFrom c.offset c.rest =
          c.next.1 :: Piece.scanFrom c.next.2.offset c.next.2.rest) := by
  have hlen : Text.byteLength c.rest = Text.byteLength (c.rest.takeWhile Text.isBlank) +
      Text.byteLength (c.rest.dropWhile Text.isBlank) := by
    rw [← Text.byteLength_append, List.takeWhile_append_dropWhile]
  rw [Piece.scanFrom_dropWhile_isBlank]
  unfold next finish
  cases hd : c.rest.dropWhile Text.isBlank with
  | nil =>
    rw [hd, Text.byteLength_nil, Nat.add_zero] at hlen
    dsimp only
    rw [hlen]
    exact ⟨rfl, .inl ⟨Piece.scanFrom_nil _, rfl, Piece.scanFrom_nil _⟩⟩
  | cons head rest =>
    have hb : Text.isBlank head = false := by
      have := List.head?_dropWhile_not Text.isBlank c.rest
      rw [hd] at this
      simpa using this
    refine ⟨?_, .inr (Piece.scanFrom_cons hb)⟩
    dsimp only
    rw [hlen, hd, Span.stop, Piece.span_read]
    dsimp only
    rw [Nat.add_assoc, ← Text.byteLength_append, Piece.lexeme_append_remainder, Nat.add_assoc]

/-- Calls take the pieces of the text in order, and then its end for good. -/
theorem call_eq (c : Cursor) (n : Nat) :
    c.call n = ((Piece.scanFrom c.offset c.rest)[n]?).getD c.finish := by
  induction n generalizing c with
  | zero =>
    obtain ⟨-, ⟨hs, hn, -⟩ | hs⟩ := c.next_cases
    · rw [call, hs, hn]; rfl
    · rw [call, hs]; rfl
  | succ n ih =>
    obtain ⟨hf, ⟨hs, -, hr⟩ | hs⟩ := c.next_cases
    · rw [call, ih, hs, hr, hf]; rfl
    · rw [call, ih, hs, hf]; rfl

end Cursor

/-! ## The parts of a text -/

/-- Pieces part a text. -/
structure Piece.Parts (source : String) (pieces : List Piece) : Prop where
  /-- A piece takes up at least one byte and ends before the next one starts. -/
  inOrder : pieces.Pairwise fun p q => p.span.stop ≤ q.span.start
  nonempty : ∀ p ∈ pieces, 0 < p.span.length
  /-- The text under the span of a piece is its lexeme. -/
  lexeme : ∀ p ∈ pieces, p.span.lexeme? source = some (String.ofList p.lexeme)
  /-- A lexeme is one of its kind, and an unrecognized character can start no token. -/
  spelled : ∀ p ∈ pieces, p.WellSpelled
  /-- A character lies in the span of a piece exactly when it is not blank. -/
  covered : ∀ front c back, source.toList = front ++ c :: back →
    (Text.isBlank c = false ↔ ∃ p ∈ pieces,
      p.span.start ≤ Text.byteLength front ∧ Text.byteLength front < p.span.stop)
  /-- No digit follows a number, and no character of a name a name. -/
  maximal : ∀ p ∈ pieces, ∀ front c back, source.toList = front ++ c :: back →
    p.span.stop = Text.byteLength front → p.takes c = false

theorem Piece.parts_scan (source : String) : Parts source (scan source) where
  inOrder := scanFrom_inOrder 0 source.toList
  nonempty _ hp := length_pos_of_mem_scanFrom hp
  lexeme _ hp := (lexeme?_span hp).1
  spelled _ hp := (lexeme?_span hp).2
  covered front c back h := by
    rw [isBlank_eq_false_iff 0 h, Nat.zero_add]
    rfl
  maximal _ hp front c back h hs := takes_eq_false_of_mem hp h (by rw [hs, Nat.zero_add])

/-- Asked for one piece after the other, a cursor gives the finitely many pieces of a text, which
part it and none of which is the end, and from then on the end of the text each time, as an empty
token behind the last byte. -/
theorem calls_part_text (source : String) :
    Piece.Parts source (Piece.scan source) ∧
      (∀ t, .token t ∈ Piece.scan source → t.kind ≠ .finish) ∧
      (∀ n, (h : n < (Piece.scan source).length) →
        (Cursor.start source).call n = (Piece.scan source)[n]) ∧
      ∀ n, (Piece.scan source).length ≤ n →
        (Cursor.start source).call n =
          .token ⟨.finish, [], ⟨Text.byteLength source.toList, 0⟩⟩ := by
  have hcall : ∀ n, (Cursor.start source).call n =
      ((Piece.scan source)[n]?).getD (Cursor.start source).finish :=
    (Cursor.start source).call_eq
  refine ⟨Piece.parts_scan source, ?_, fun n h => ?_, fun n h => ?_⟩
  · exact fun t ht => Piece.kind_ne_finish_of_mem_scanFrom ht
  · rw [hcall, List.getElem?_eq_getElem h, Option.getD_some]
  · rw [hcall, List.getElem?_eq_none h, Option.getD_none]
    simp [Cursor.finish, Cursor.start]

end BlockScript
