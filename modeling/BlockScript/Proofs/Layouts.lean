import BlockScript.Proofs.Names
import BlockScript.Proofs.Partition
import Mathlib.Data.List.Chain

/-!
# Words laid out in a text

A text can be written from words, which are symbols, runs of digits and names, with blanks before
each word and behind the last. Scanning gives the words back, each as the token of its kind and at
the bytes it was laid on, exactly when no word stands where the word before it would go on
(`Layout.apart_iff_scanFrom`). A gap may therefore be empty but for two cases: a name or a number
behind a name, and a number behind a number. A name may stand right behind a number.
-/

set_option autoImplicit false

namespace BlockScript

/-! ## Words -/

/-- A word of an expression text: a symbol, a run of digits or a name. -/
structure Word where
  kind : TokenKind
  chars : List Char
  spelled : kind.Spells chars
  /-- The end of a text is not laid. -/
  ne_finish : kind ≠ .finish

namespace Word

/-- The token of a word that is laid from byte `start` on. -/
def token (w : Word) (start : Nat) : Token :=
  ⟨w.kind, w.chars, ⟨start, Text.byteLength w.chars⟩⟩

/-- Whether a word can tell its end from the start of the next word when nothing stands between
them. -/
def MayTouch (w next : Word) : Prop :=
  ¬(w.kind = .name ∧ (next.kind = .name ∨ next.kind = .number)) ∧
    ¬(w.kind = .number ∧ next.kind = .number)

instance (w next : Word) : Decidable (w.MayTouch next) :=
  inferInstanceAs (Decidable (_ ∧ _))

theorem chars_ne_nil (w : Word) : w.chars ≠ [] := by
  obtain ⟨kind, chars, hs, hf⟩ := w
  cases kind with
  | finish => exact absurd rfl hf
  | number => exact hs.1
  | name =>
    rintro rfl
    cases hs
  | leftParenthesis | rightParenthesis | leftBracket | rightBracket | plus | minus | star | slash
  | percent =>
    cases hs
    exact List.cons_ne_nil _ _

end Word

/-! ## Where a word ends -/

namespace Text

theorem isNameChar_of_isDigit {c : Char} (h : c.isDigit) : isNameChar c := by
  simp [isNameChar, Char.isAlphanum, h]

theorem isNameChar_of_isBlank {c : Char} (h : isBlank c) : isNameChar c = false := by
  by_contra hn
  cases h.symm.trans (isBlank_of_isNameChar (by simpa using hn))

theorem isDigit_of_isNameChar {c : Char} (h : isNameChar c = false) : c.isDigit = false := by
  by_contra hd
  cases h.symm.trans (isNameChar_of_isDigit (by simpa using hd))

end Text

theorem TokenKind.isNameChar_of_symbol {c : Char} {kind : TokenKind} (h : ofSymbol? c = some kind) :
    Text.isNameChar c = false := by
  unfold ofSymbol? at h
  split at h <;> cases h <;> rfl

namespace Piece

theorem takes_iff {t : Token} {c : Char} :
    (Piece.token t).takes c ↔
      (t.kind = .number ∧ c.isDigit) ∨ (t.kind = .name ∧ Text.isNameChar c) := by
  obtain ⟨kind, lexeme, span⟩ := t
  cases kind <;> simp [takes]

/-- No piece goes on with a blank. -/
theorem takes_eq_false_of_isBlank {t : Token} {c : Char} (h : Text.isBlank c) :
    (Piece.token t).takes c = false := by
  have hn := Text.isNameChar_of_isBlank h
  rw [Bool.eq_false_iff, ne_eq, takes_iff]
  simp [hn, Text.isDigit_of_isNameChar hn]

/-- A run ends where something stands that does not belong to it. -/
theorem run_append {p : Char → Bool} {back : List Char} (hb : ∀ c ∈ back.head?, p c = false)
    (cs : List Char) :
    (cs ++ back).takeWhile p = cs.takeWhile p ∧
      (cs ++ back).dropWhile p = cs.dropWhile p ++ back := by
  induction cs with
  | nil =>
    cases back with
    | nil => exact ⟨rfl, rfl⟩
    | cons c back => simp [hb c rfl]
  | cons c cs ih => by_cases hc : p c <;> simp [hc, ih]

/-- A number ends before the first character that is no digit. -/
theorem scanFrom_number {start : Nat} {word back : List Char} (hne : word ≠ [])
    (hw : ∀ c ∈ word, c.isDigit) (hb : ∀ c ∈ back.head?, c.isDigit = false) :
    scanFrom start (word ++ back) =
      .token ⟨.number, word, ⟨start, Text.byteLength word⟩⟩ ::
        scanFrom (start + Text.byteLength word) back := by
  cases word with
  | nil => exact absurd rfl hne
  | cons c cs =>
    obtain ⟨hc, hcs⟩ := List.forall_mem_cons.1 hw
    have hsymbol : TokenKind.ofSymbol? c = none := by
      rw [Option.eq_none_iff_forall_ne_some]
      intro kind hk
      cases (TokenKind.isNameChar_of_symbol hk).symm.trans (Text.isNameChar_of_isDigit hc)
    have hrun := run_append hb cs
    rw [List.takeWhile_eq_self_iff.2 hcs, List.dropWhile_eq_nil_iff.2 hcs] at hrun
    have hread : read start c (cs ++ back) =
        .token ⟨.number, c :: cs, ⟨start, Text.byteLength (c :: cs)⟩⟩ := by
      simp [read, hsymbol, hc, hrun.1]
    have hrest : remainder c (cs ++ back) = back := by
      simp [remainder, hsymbol, hc, hrun.2]
    rw [List.cons_append, scanFrom_cons (Text.isBlank_of_isDigit hc), hread, hrest]
    rfl

/-- A word ends before the first character that it does not go on with. -/
theorem scanFrom_word (w : Word) {start : Nat} {back : List Char}
    (hb : ∀ c ∈ back.head?, (Piece.token (w.token start)).takes c = false) :
    scanFrom start (w.chars ++ back) =
      .token (w.token start) :: scanFrom (start + Text.byteLength w.chars) back := by
  obtain ⟨kind, chars, hs, hf⟩ := w
  cases kind with
  | finish => exact absurd rfl hf
  | number => exact scanFrom_number hs.1 hs.2 hb
  | name => exact scanFrom_name hs hb
  | leftParenthesis | rightParenthesis | leftBracket | rightBracket | plus | minus | star | slash
  | percent =>
    cases hs
    rw [List.singleton_append, scanFrom_cons rfl]
    rfl

/-- A word that stands first in a text is the first piece exactly when it does not go on with what
stands behind it. -/
theorem scanFrom_word_iff (w : Word) {start : Nat} {back : List Char} {ps : List Piece} :
    scanFrom start (w.chars ++ back) = .token (w.token start) :: ps ↔
      (∀ c ∈ back.head?, (Piece.token (w.token start)).takes c = false) ∧
        scanFrom (start + Text.byteLength w.chars) back = ps := by
  constructor
  · intro h
    have hb : ∀ c ∈ back.head?, (Piece.token (w.token start)).takes c = false := by
      intro c hc
      cases back with
      | nil => cases hc
      | cons d back =>
        cases hc
        have hm : Piece.token (w.token start) ∈ scanFrom start (w.chars ++ c :: back) := by
          rw [h]
          exact List.mem_cons_self
        exact takes_eq_false_of_mem hm rfl rfl
    rw [scanFrom_word w hb] at h
    exact ⟨hb, (List.cons.inj h).2⟩
  · rintro ⟨hb, rfl⟩
    exact scanFrom_word w hb

theorem scanFrom_blanks (start : Nat) {gap : List Char} (hg : ∀ c ∈ gap, Text.isBlank c)
    (back : List Char) :
    scanFrom start (gap ++ back) = scanFrom (start + Text.byteLength gap) back := by
  induction gap generalizing start with
  | nil => rfl
  | cons c gap ih =>
    obtain ⟨hc, hg⟩ := List.forall_mem_cons.1 hg
    rw [List.cons_append, scanFrom_blank hc, ih _ hg, Text.byteLength_cons, Nat.add_assoc]

end Piece

namespace Word

/-- What a word starts with: a digit, the start of a name, or no character of a name at all. -/
theorem head_cases {w : Word} {c : Char} (h : c ∈ w.chars.head?) :
    (w.kind = .number ∧ c.isDigit) ∨ (w.kind = .name ∧ Text.isNameStart c) ∨
      (w.kind ≠ .number ∧ w.kind ≠ .name ∧ Text.isNameChar c = false) := by
  obtain ⟨kind, chars, hs, hf⟩ := w
  cases kind with
  | finish => exact absurd rfl hf
  | number => exact .inl ⟨rfl, hs.2 c (List.mem_of_mem_head? h)⟩
  | name =>
    refine .inr (.inl ⟨rfl, ?_⟩)
    cases chars with
    | nil => cases h
    | cons d cs =>
      cases h
      simp only [TokenKind.Spells, Text.isNameChars, Bool.and_eq_true] at hs
      exact hs.1
  | leftParenthesis | rightParenthesis | leftBracket | rightBracket | plus | minus | star | slash
  | percent =>
    cases hs
    cases h
    exact .inr (.inr ⟨by simp, by simp, rfl⟩)

/-- A word goes on with the start of those words that it may not touch. -/
theorem takes_head_iff (w : Word) {next : Word} {start : Nat} {c : Char}
    (h : c ∈ next.chars.head?) :
    (Piece.token (w.token start)).takes c = false ↔ w.MayTouch next := by
  rw [Bool.eq_false_iff, ne_eq, Piece.takes_iff, MayTouch, token]
  rcases head_cases h with ⟨hk, hc⟩ | ⟨hk, hc⟩ | ⟨hn, hm, hc⟩
  · simp [hk, hc, Text.isNameChar_of_isDigit hc, and_comm]
  · simp [hk, (Text.isNameStart_cases hc).2.2, Text.isNameChar_of_isNameStart hc]
  · simp [hn, hm, hc, Text.isDigit_of_isNameChar hc]

end Word

/-! ## Layouts -/

/-- A word with the blanks that are laid before it. -/
structure LaidWord where
  gap : List Char
  word : Word
  blank : ∀ c ∈ gap, Text.isBlank c

/-- Words in order, each with its blanks, and the blanks behind the last. -/
structure Layout where
  words : List LaidWord
  last : List Char
  blank : ∀ c ∈ last, Text.isBlank c

namespace Layout

/-- Words with their blanks and what stands behind them, written out. -/
def written (last : List Char) : List LaidWord → List Char
  | [] => last
  | laid :: rest => laid.gap ++ (laid.word.chars ++ written last rest)

/-- The tokens of words that are laid from byte `start` on. Each word starts behind its blanks. -/
def tokensFrom : (start : Nat) → List LaidWord → List Token
  | _, [] => []
  | start, laid :: rest =>
    let first := start + Text.byteLength laid.gap
    laid.word.token first :: tokensFrom (first + Text.byteLength laid.word.chars) rest

/-- The text of a layout. -/
def text (l : Layout) : String :=
  String.ofList (written l.last l.words)

/-- The tokens of a layout, at the bytes where its words are laid. -/
def tokens (l : Layout) : List Token :=
  tokensFrom 0 l.words

/-- Words with nothing between them may touch. -/
def Apart (words : List LaidWord) : Prop :=
  words.IsChain fun laid next => next.gap = [] → laid.word.MayTouch next.word

/-- A word does not go on with what is laid behind it exactly when it may touch the next word or is
kept apart from it. -/
theorem takes_written_iff (w : Word) {start : Nat} {last : List Char}
    (hl : ∀ c ∈ last, Text.isBlank c) (rest : List LaidWord) :
    (∀ c ∈ (written last rest).head?, (Piece.token (w.token start)).takes c = false) ↔
      ∀ next ∈ rest.head?, next.gap = [] → w.MayTouch next.word := by
  cases rest with
  | nil =>
    refine iff_of_true (fun c hc => ?_) nofun
    exact Piece.takes_eq_false_of_isBlank (hl c (List.mem_of_mem_head? hc))
  | cons next rest =>
    obtain ⟨gap, word, hg⟩ := next
    cases gap with
    | nil =>
      obtain ⟨c, cs, hw⟩ := List.exists_cons_of_ne_nil word.chars_ne_nil
      have hc : c ∈ word.chars.head? := by rw [hw]; rfl
      rw [written, List.nil_append, hw]
      simp [w.takes_head_iff hc]
    | cons c gap =>
      have ht := Piece.takes_eq_false_of_isBlank (t := w.token start) (hg c List.mem_cons_self)
      simp [written, ht]

/-- The induction is on the words. One word is scanned off the front of the text exactly when it is
apart from the next. -/
theorem apart_iff_scanFrom {last : List Char} (hl : ∀ c ∈ last, Text.isBlank c)
    (words : List LaidWord) (start : Nat) :
    Apart words ↔
      Piece.scanFrom start (written last words) = (tokensFrom start words).map .token := by
  induction words generalizing start with
  | nil =>
    have hs := Piece.scanFrom_blanks start hl []
    rw [List.append_nil, Piece.scanFrom_nil] at hs
    exact iff_of_true .nil hs
  | cons laid rest ih =>
    rw [written, Piece.scanFrom_blanks start laid.blank, tokensFrom, List.map_cons,
      Piece.scanFrom_word_iff, takes_written_iff laid.word hl, ← ih, Apart, List.isChain_cons]
    rfl

end Layout

/-- A cursor before a text gives the pieces of the text in order, and then the end. -/
theorem Cursor.call_start (text : String) (n : Nat) :
    (start text).call n =
      ((Piece.scan text)[n]?).getD (.token ⟨.finish, [], .endOf text⟩) := by
  have hfinish : (start text).finish = .token ⟨.finish, [], .endOf text⟩ := by
    simp [finish, start, Span.endOf]
  rw [call_eq, hfinish]
  rfl

/-- Words that are laid out with blanks around them are scanned back, as the tokens of their kinds
at the bytes where they were laid, and then the end. This holds exactly when blanks stand between a
name and a name or number behind it, and between two numbers. -/
theorem scan_layout_iff (l : Layout) :
    Layout.Apart l.words ↔
      Piece.scan l.text = l.tokens.map .token ∧
      ∀ n, (Cursor.start l.text).call n =
        ((l.tokens.map Piece.token)[n]?).getD (.token ⟨.finish, [], .endOf l.text⟩) := by
  have hscan : Layout.Apart l.words ↔ Piece.scan l.text = l.tokens.map .token := by
    rw [Layout.apart_iff_scanFrom l.blank l.words 0, Piece.scan, Layout.text, String.toList_ofList]
    rfl
  rw [hscan, iff_self_and]
  intro hs n
  rw [Cursor.call_start, hs]

-- Digits and a name may stand close together in this order alone, and a blank may take three bytes.
example :
    (Piece.scan "12ab\u3000[7").map Piece.span = [⟨0, 2⟩, ⟨2, 2⟩, ⟨7, 1⟩, ⟨8, 1⟩] ∧
      (Piece.scan "ab12").map Piece.span = [⟨0, 4⟩] := by
  decide +kernel

end BlockScript
