import BlockScript.Proofs.Blanks
import BlockScript.Proofs.Layouts

/-!
# Items of a list

Items that are written with commas between them are split off again, and come out trimmed, whatever
blanks were written around them (`ListItem.splitList_list`).

Blanks at the ends of a text change nothing but positions: a text and the trimmed text have the same
pieces (`Piece.map_face_scan_trim`), and so the same value, or faults that differ in their spans
alone (`agree_evaluate_trim`). No token has a comma in it, and a comma is not blank, so that no
expression has one (`comma_not_mem_of_parse`). A list that is split at its commas is therefore never
cut inside of an expression that can be read.
-/

set_option autoImplicit false

namespace BlockScript

/-! ## Splitting -/

namespace Text

theorem splitCommas_of_not_mem {cs : List Char} (h : ',' ∉ cs) : splitCommas cs = [cs] := by
  induction cs with
  | nil => rfl
  | cons c cs ih =>
    rw [List.mem_cons, not_or] at h
    obtain ⟨hc, hcs⟩ := h
    rw [splitCommas, ih hcs, if_neg (by simpa using Ne.symm hc)]

theorem splitCommas_append {cs : List Char} (h : ',' ∉ cs) (rest : List Char) :
    splitCommas (cs ++ ',' :: rest) = cs :: splitCommas rest := by
  induction cs with
  | nil => rw [List.nil_append, splitCommas, if_pos (by decide)]
  | cons c cs ih =>
    rw [List.mem_cons, not_or] at h
    obtain ⟨hc, hcs⟩ := h
    rw [List.cons_append, splitCommas, ih hcs, if_neg (by simpa using Ne.symm hc)]

/-- Splitting at commas undoes joining by commas. -/
theorem splitCommas_intercalate {pieces : List (List Char)} (hne : pieces ≠ [])
    (h : ∀ piece ∈ pieces, ',' ∉ piece) : splitCommas ([','].intercalate pieces) = pieces := by
  induction pieces with
  | nil => exact absurd rfl hne
  | cons first rest ih =>
    obtain ⟨hfirst, hrest⟩ := List.forall_mem_cons.1 h
    cases rest with
    | nil => rw [List.intercalate_singleton, splitCommas_of_not_mem hfirst]
    | cons second rest =>
      rw [List.intercalate_cons_cons, List.append_assoc, List.singleton_append,
        splitCommas_append hfirst, ih (List.cons_ne_nil _ _) hrest]

theorem splitList_of_not_mem {text : String} (h : ',' ∉ text.toList) :
    splitList text = [trim text] := by
  rw [splitList, splitCommas_of_not_mem h, List.map_singleton, trim]

/-! ## Trimming -/

/-- A text is the trimmed text with blanks around it. -/
theorem exists_blanks_trimChars (cs : List Char) :
    ∃ front back, cs = front ++ (trimChars cs ++ back) ∧ (∀ c ∈ front, isBlank c) ∧
      ∀ c ∈ back, isBlank c := by
  have hd : trimChars cs ++ (dropBlankStart cs).rtakeWhile isBlank = dropBlankStart cs :=
    List.rdropWhile_append_rtakeWhile
  refine ⟨cs.takeWhile isBlank, (dropBlankStart cs).rtakeWhile isBlank, ?_,
    fun c hc => List.mem_takeWhile_imp hc, fun c hc => List.mem_rtakeWhile_imp hc⟩
  rw [hd, dropBlankStart, List.takeWhile_append_dropWhile]

theorem dropBlankEnd_append_blanks (cs : List Char) {back : List Char}
    (hb : ∀ c ∈ back, isBlank c) : dropBlankEnd (cs ++ back) = dropBlankEnd cs := by
  have hr : ∀ c ∈ back.reverse, isBlank c := fun c hc => hb c (List.mem_reverse.1 hc)
  rw [dropBlankEnd, List.reverse_append, List.dropWhile_append_of_pos hr, dropBlankEnd]

/-- Blanks around a text are trimmed off it with its own. -/
theorem trimChars_append_blanks {front back : List Char} (hf : ∀ c ∈ front, isBlank c)
    (hb : ∀ c ∈ back, isBlank c) (cs : List Char) :
    trimChars (front ++ (cs ++ back)) = trimChars cs := by
  rw [trimChars, dropBlankStart, List.dropWhile_append_of_pos hf, List.dropWhile_append]
  split
  · next he =>
    -- The text is blank itself, and nothing is left.
    rw [List.dropWhile_eq_nil_iff.2 hb, trimChars, dropBlankStart, List.isEmpty_iff.1 he]
  · rw [dropBlankEnd_append_blanks _ hb, trimChars, dropBlankStart]

end Text

/-! ## Pieces of a trimmed text -/

namespace Piece

theorem face_read (a b : Nat) (c : Char) (rest : List Char) :
    (read a c rest).face = (read b c rest).face := by
  unfold read
  split
  · rfl
  · split
    · rfl
    · split <;> rfl

/-- Where a text starts makes no difference to what its pieces are. -/
theorem map_face_scanFrom (a b : Nat) (cs : List Char) :
    (scanFrom a cs).map face = (scanFrom b cs).map face := by
  fun_induction scanFrom a cs generalizing b with
  | case1 => rw [scanFrom_nil]
  | case2 a c rest hc ih => rw [scanFrom_blank hc, ih]
  | case3 a c rest hc piece ih =>
    rw [scanFrom_cons (by simpa using hc), List.map_cons, List.map_cons, face_read a b, ih]

/-- No piece goes on with blanks behind the text. -/
theorem read_append_blanks (start : Nat) (c : Char) (rest : List Char) {back : List Char}
    (hb : ∀ c ∈ back, Text.isBlank c) :
    read start c (rest ++ back) = read start c rest ∧
      remainder c (rest ++ back) = remainder c rest ++ back := by
  have hname : ∀ c ∈ back.head?, Text.isNameChar c = false := fun c hc =>
    Text.isNameChar_of_isBlank (hb c (List.mem_of_mem_head? hc))
  have hdigit : ∀ c ∈ back.head?, c.isDigit = false := fun c hc =>
    Text.isDigit_of_isNameChar (hname c hc)
  unfold read remainder
  cases TokenKind.ofSymbol? c with
  | some kind => exact ⟨rfl, rfl⟩
  | none =>
    dsimp only
    rw [(run_append hdigit rest).1, (run_append hdigit rest).2, (run_append hname rest).1,
      (run_append hname rest).2]
    refine ⟨rfl, ?_⟩
    split
    · rfl
    · split <;> rfl

/-- Blanks behind a text add no piece to it. -/
theorem scanFrom_append_blanks (start : Nat) (cs : List Char) {back : List Char}
    (hb : ∀ c ∈ back, Text.isBlank c) : scanFrom start (cs ++ back) = scanFrom start cs := by
  fun_induction scanFrom start cs with
  | case1 start =>
    have hs := scanFrom_blanks start hb []
    rwa [List.append_nil, scanFrom_nil] at hs
  | case2 start c rest hc ih => rw [List.cons_append, scanFrom_blank hc, ih]
  | case3 start c rest hc piece ih =>
    obtain ⟨hread, hrest⟩ := read_append_blanks start c rest hb
    rw [List.cons_append, scanFrom_cons (by simpa using hc), hread, hrest, ih]

/-- A text and the trimmed text have the same pieces, apart from their places. -/
theorem map_face_scan_trim (text : String) :
    (scan (Text.trim text)).map face = (scan text).map face := by
  obtain ⟨front, back, hs, hf, hb⟩ := Text.exists_blanks_trimChars text.toList
  have hscan : scan text =
      scanFrom (0 + Text.byteLength front) (Text.trimChars text.toList) := by
    rw [scan, hs, scanFrom_blanks 0 hf, scanFrom_append_blanks _ _ hb, ← hs]
  rw [hscan, scan, Text.trim, String.toList_ofList]
  exact map_face_scanFrom _ _ _

/-- A character that is not blank stands in a piece. -/
theorem exists_mem_lexeme (start : Nat) {cs : List Char} {c : Char} (hm : c ∈ cs)
    (hc : Text.isBlank c = false) : ∃ p ∈ scanFrom start cs, c ∈ p.lexeme ∧ p.WellSpelled := by
  fun_induction scanFrom start cs with
  | case1 => cases hm
  | case2 start d rest hd ih =>
    rcases List.mem_cons.1 hm with rfl | hm
    · cases hc.symm.trans hd
    · exact ih hm
  | case3 start d rest hd piece ih =>
    rw [← lexeme_append_remainder start d rest] at hm
    rcases List.mem_append.1 hm with hm | hm
    · exact ⟨piece, List.mem_cons_self, hm, wellSpelled_read start d rest (by simpa using hd)⟩
    · obtain ⟨p, hp, h⟩ := ih hm
      exact ⟨p, List.mem_cons_of_mem _ hp, h⟩

end Piece

/-! ## Values of a trimmed text -/

section
variable {text : String} {s : State}

/-- A text has the value of the trimmed text, or they fail for the same cause at the same pieces. -/
theorem agree_evaluate_trim (text : String) (s : State) :
    Agree (Fault.Alike (Text.trim text) text) Eq (evaluate (Text.trim text) s)
      (evaluate text s) :=
  (agree_parseText (Piece.map_face_scan_trim text)).bind fun _ _ _ he =>
    agree_within (he.agree_eval s)

theorem evaluate_trim_eq_ok_iff {v : Value} :
    evaluate (Text.trim text) s = .ok v ↔ evaluate text s = .ok v := by
  have h := agree_evaluate_trim text s
  generalize evaluate (Text.trim text) s = x at h
  generalize evaluate text s = y at h
  cases h with
  | ok h => rw [h]
  | error _ => exact ⟨nofun, nofun⟩

theorem exists_alike_of_evaluate_trim {f : Fault} (h : evaluate (Text.trim text) s = .error f) :
    ∃ g, evaluate text s = .error g ∧ f.Alike (Text.trim text) text g := by
  have ha := agree_evaluate_trim text s
  rw [h] at ha
  generalize evaluate text s = y at ha
  cases ha with
  | error ha => exact ⟨_, rfl, ha⟩

end

/-! ## Commas -/

theorem TokenKind.Spells.comma_not_mem {kind : TokenKind} {lexeme : List Char}
    (h : kind.Spells lexeme) : ',' ∉ lexeme := by
  intro hm
  cases kind with
  | number => exact absurd (h.2 ',' hm) (by decide)
  | name =>
    cases lexeme with
    | nil => cases h
    | cons c cs =>
      simp only [Spells, Text.isNameChars, Bool.and_eq_true, List.all_eq_true] at h
      rcases List.mem_cons.1 hm with rfl | hm
      · exact absurd h.1 (by decide)
      · exact absurd (h.2 ',' hm) (by decide)
  | finish | leftParenthesis | rightParenthesis | leftBracket | rightBracket | plus | minus | star
  | slash | percent =>
    cases h
    exact absurd hm (by decide)

/-- An expression has no comma in it: the comma would stand in a piece that is no token. -/
theorem comma_not_mem_of_parse {text : String} {e : Expr} (h : Expr.parse text = .ok e) :
    ',' ∉ text.toList := by
  intro hm
  obtain ⟨d, hd, -⟩ := Expr.derives_parse h
  obtain ⟨p, hp, hc, hw⟩ := Piece.exists_mem_lexeme 0 hm (by decide)
  rw [List.append_nil] at hd
  rw [← Piece.scan, hd] at hp
  obtain ⟨t, -, rfl⟩ := List.mem_map.1 hp
  exact TokenKind.Spells.comma_not_mem hw hc

/-! ## Lists -/

/-- An item of a list as it is written: a text without commas, with blanks around it. -/
structure ListItem where
  front : List Char
  text : String
  back : List Char
  comma_not_mem : ',' ∉ text.toList
  blank_front : ∀ c ∈ front, Text.isBlank c
  blank_back : ∀ c ∈ back, Text.isBlank c

namespace ListItem

/-- An item with its blanks. -/
def written (item : ListItem) : String :=
  String.ofList (item.front ++ (item.text.toList ++ item.back))

/-- Items with commas between them. -/
def list (items : List ListItem) : String :=
  ",".intercalate (items.map written)

theorem comma_not_mem_written (item : ListItem) : ',' ∉ item.written.toList := by
  have hfront : ',' ∉ item.front := fun hm => absurd (item.blank_front _ hm) (by decide)
  have hback : ',' ∉ item.back := fun hm => absurd (item.blank_back _ hm) (by decide)
  simp [written, hfront, hback, item.comma_not_mem]

/-- A list is split into its items, trimmed and in their order. -/
theorem splitList_list {items : List ListItem} (hne : items ≠ []) :
    Text.splitList (list items) = items.map fun item => Text.trim item.text := by
  have hpieces : ∀ piece ∈ (items.map written).map String.toList, ',' ∉ piece := by
    simp only [List.map_map, List.mem_map]
    rintro piece ⟨item, -, rfl⟩
    exact item.comma_not_mem_written
  rw [Text.splitList, list, String.toList_intercalate, show ",".toList = [','] from rfl,
    Text.splitCommas_intercalate (by simpa using hne) hpieces, List.map_map, List.map_map]
  refine List.map_congr_left fun item _ => ?_
  show String.ofList (Text.trimChars item.written.toList) = Text.trim item.text
  rw [written, String.toList_ofList,
    Text.trimChars_append_blanks item.blank_front item.blank_back, Text.trim]

end ListItem

end BlockScript
