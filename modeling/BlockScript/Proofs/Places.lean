import BlockScript.Proofs.Names
import BlockScript.Proofs.Blanks

/-!
# Texts that are places

Whether a text is a place is decided by the positions of its expression, and depends on its tokens
alone: the place of a phrase (`Phrase.placeKind?`) is read off its derivation, where parentheses,
signs and operators are no place, and the positions find the same (`Phrase.ofNode?_tree`). A text
is a variable exactly when it is a name with blanks around it, and an element exactly when its
tokens are a name, a bracket, a sum and, last, the closing bracket.

A state holds its values in slots, which are variables and positions of arrays (`State.at?`).
Finding the place of a text, telling its kind and evaluating the text agree in every state: a text
that is found is of its kind (`Place.classify_of_resolve`) and has the value in the slot of its
place (`Place.evaluate_eq_ok_iff`), and one that is not found has no value, with the same fault
(`Place.resolve_eq_error_iff`).
-/

set_option autoImplicit false

namespace BlockScript

/-! ## Blanks around a word -/

namespace Text

/-- A word with blanks around it is trimmed to the word. -/
theorem trimChars_append {front word back : List Char} (hf : ∀ c ∈ front, isBlank c)
    (hw : ∀ c ∈ word, isBlank c = false) (hne : word ≠ []) (hb : ∀ c ∈ back, isBlank c) :
    trimChars (front ++ (word ++ back)) = word := by
  rw [trimChars, dropBlankStart, dropWhile_isBlank_append hf hw hne]
  exact @dropBlankEnd_append [] word back hw hne hb

theorem trim_of_trimmed {text : String} (h : Trimmed text.toList) : trim text = text := by
  rw [trim, trimChars, h.start, h.stop, String.ofList_toList]

end Text

namespace Piece

/-- A text with one piece is that piece with blanks around it. -/
theorem trim_of_scan {text : String} {p : Piece} (h : scan text = [p]) :
    Text.trim text = String.ofList p.lexeme := by
  have hne : p.lexeme ≠ [] := lexeme_ne_nil_of_mem (by rw [h]; exact List.mem_cons_self)
  obtain ⟨front, back, hcs, -, hf, hb, hw⟩ :=
    scanFrom_eq_append_cons (show scan text = [] ++ p :: [] from h)
  rw [Text.trim, hcs, Text.trimChars_append (isBlank_of_scanFrom_eq_nil hf) hw.isBlank_eq_false hne
    (isBlank_of_scanFrom_eq_nil hb)]

theorem scanFrom_eq_nil {start : Nat} {cs : List Char} (h : ∀ c ∈ cs, Text.isBlank c) :
    scanFrom start cs = [] := by
  rw [scanFrom_dropWhile_isBlank, List.dropWhile_eq_nil_iff.2 h, scanFrom_nil]

/-- A text is one token that is a name exactly when it is a name with blanks around it. -/
theorem scan_eq_name_iff {text : String} :
    (∃ t : Token, t.kind = .name ∧ scan text = [.token t]) ↔ Text.isName (Text.trim text) := by
  constructor
  · rintro ⟨t, hk, hs⟩
    have hsp := (Token.lexeme?_span (show .token t ∈ scan text by rw [hs]; simp)).2
    rw [hk] at hsp
    rw [trim_of_scan hs, Text.isName, String.toList_ofList]
    exact hsp
  · intro h
    rw [Text.isName, Text.trim, String.toList_ofList] at h
    -- Behind the blanks before it, the text goes on with the name and blanks alone.
    have hd : Text.trimChars text.toList ++ (text.toList.dropWhile Text.isBlank).rtakeWhile _ =
        text.toList.dropWhile Text.isBlank := List.rdropWhile_append_rtakeWhile
    have hb : ∀ c ∈ (text.toList.dropWhile Text.isBlank).rtakeWhile Text.isBlank,
        Text.isBlank c := fun c hc => List.mem_rtakeWhile_imp hc
    have hs := scanFrom_dropWhile_isBlank 0 text.toList
    rw [← hd, scanFrom_name h, scanFrom_eq_nil hb] at hs
    · exact ⟨_, rfl, hs⟩
    · intro c hc
      by_contra hn
      have hblank := Text.isBlank_of_isNameChar (by simpa using hn)
      rw [hb c (List.mem_of_mem_head? hc)] at hblank
      cases hblank

end Piece

/-! ## Phrases that are places -/

/-- The kind of place that a phrase is: a name or an element, on whatever level it is read. -/
def Phrase.placeKind? {l : Level} : Phrase l → Option PlaceKind
  | .name _ _ => some .variable
  | .element .. => some .element
  | .single _ item => item.placeKind?
  | _ => none

/-- An operand that is a sum on its own. -/
def Phrase.ofOperand (d : Phrase .operand) : Phrase .sum :=
  .single .product (.single .operand d)

/-- A text with the tokens of an element: a name, an opening bracket, a sum and, last, the bracket
that closes it. -/
def Place.SpellsElement (text : String) : Prop :=
  ∃ (t opening : Token) (index : Phrase .sum) (closing : Token), t.kind = .name ∧
    opening.kind = .leftBracket ∧ closing.kind = .rightBracket ∧
    Piece.scan text = (t :: opening :: (index.tokens ++ [closing])).map .token

namespace Place

/-- The kind of place that a node is. -/
def ofNode? : Expr → Option PlaceKind
  | .var _ _ => some .variable
  | .element _ _ _ => some .element
  | _ => none

theorem classify_of_parse {text : String} {e : Expr} (h : Expr.parse text = .ok e) :
    classify text = .ok (if covers text e then ofNode? e else none) := by
  rw [classify, parseText, h]
  dsimp only [ok_bind]
  cases covers text e <;> cases e <;> rfl

/-- A node that starts with the first piece of its text and ends with the last covers it. -/
theorem covers_of_ends {text : String} {e : Expr} {p q : Piece} {before after : List Piece}
    (hp : Piece.scan text = p :: after) (hq : Piece.scan text = before ++ [q])
    (hstart : e.span.start = p.span.start) (hstop : e.span.stop = q.span.stop) :
    covers text e = true := by
  rw [covers, Piece.start_first hp, Piece.stop_last hq, hstart, hstop]
  simp

end Place

/-- A node starts with one of its tokens. -/
theorem Expr.StandsIn.exists_start {ts : List Token} {e : Expr} (h : e.StandsIn ts) :
    ∃ t ∈ ts, e.span.start = t.span.start := by
  cases e with
  | number | var | signed | binary =>
    obtain ⟨t, ht, -, rfl⟩ := h
    exact ⟨t, ht, rfl⟩
  | element =>
    obtain ⟨t, closing, ht, -, -, rfl⟩ := h
    exact ⟨t, ht.subset List.mem_cons_self, rfl⟩

namespace Phrase

variable {text : String}

/-- What stands in parentheses starts behind the first of them. -/
theorem covers_group {opening closing : Token} (inner : Phrase .sum)
    (hs : Piece.scan text = (opening :: (inner.tokens ++ [closing])).map .token) :
    Place.covers text inner.tree = false := by
  obtain ⟨t, ht, hstart⟩ :=
    (inner.standsIn_of_mem_parts inner.tree.self_mem_parts).exists_start
  have hle : opening.span.stop ≤ t.span.start := by
    apply Token.before_of_sublist hs
    exact .cons_cons opening (List.singleton_sublist.2 (List.mem_append_left _ ht))
  have hpos : 0 < opening.span.length :=
    Piece.length_pos_of_mem_scanFrom (p := .token opening)
      (show _ ∈ Piece.scan text by rw [hs]; exact List.mem_cons_self)
  rw [Place.covers, hstart, Piece.start_first hs]
  simp only [Piece.span, Span.stop, Bool.and_eq_false_iff, beq_eq_false_iff_ne] at *
  omega

/-- A name covers a text that consists of it. -/
theorem covers_name {t : Token} (hs : Piece.scan text = [.token t]) :
    Place.covers text (.var t.name t.span) = true :=
  Place.covers_of_ends hs (show _ = [] ++ [_] from hs) rfl rfl

/-- An element covers a text that consists of it. -/
theorem covers_element {t opening closing : Token} (index : Phrase .sum)
    (hs : Piece.scan text = (t :: opening :: (index.tokens ++ [closing])).map .token) :
    Place.covers text (.element t.name index.tree (t.span.through closing.span)) = true := by
  have hle : t.span.stop ≤ closing.span.start := by
    apply Token.before_of_sublist hs
    exact .cons_cons t (List.singleton_sublist.2 (by simp))
  have hlast : Piece.scan text = (t :: opening :: index.tokens).map .token ++ [.token closing] := by
    rw [hs]
    simp
  refine Place.covers_of_ends hs hlast rfl ?_
  simp only [Expr.span, Span.through, Span.stop, Piece.span] at *
  omega

/-- The positions of a phrase that makes up its text tell the kind of place that it is. -/
theorem ofNode?_tree {l : Level} (d : Phrase l) (hs : Piece.scan text = d.tokens.map .token) :
    (if Place.covers text d.tree then Place.ofNode? d.tree else none) = d.placeKind? := by
  induction d with
  | number | signed | join =>
    -- No matter what they cover, these nodes are no places.
    exact ite_self _
  | name t ht =>
    rw [tree, if_pos (covers_name hs)]
    rfl
  | element t opening index closing ht ho hc =>
    rw [tree, if_pos (covers_element index hs)]
    rfl
  | group opening inner closing ho hc =>
    rw [tree, covers_group inner hs]
    rfl
  | single hl item ih => exact ih hs

/-- A phrase that is a variable is a name. -/
theorem exists_name {l : Level} (d : Phrase l) (h : d.placeKind? = some .variable) :
    ∃ t : Token, t.kind = .name ∧ d.tokens = [t] := by
  induction d with
  | name t ht => exact ⟨t, ht, rfl⟩
  | single hl item ih => exact ih h
  | number | element | group | signed | join => cases h

/-- A phrase that is an element is a name and a sum in brackets. -/
theorem exists_element {l : Level} (d : Phrase l) (h : d.placeKind? = some .element) :
    ∃ (t opening : Token) (index : Phrase .sum) (closing : Token), t.kind = .name ∧
      opening.kind = .leftBracket ∧ closing.kind = .rightBracket ∧
      d.tokens = t :: opening :: (index.tokens ++ [closing]) := by
  induction d with
  | element t opening index closing ht ho hc => exact ⟨t, opening, index, closing, ht, ho, hc, rfl⟩
  | single hl item ih => exact ih h
  | number | name | group | signed | join => cases h

end Phrase

namespace Place

variable {text : String}

/-! ## Kinds of texts -/

/-- A text has no kind exactly when it is not read. -/
theorem classify_eq_error_iff {f : Fault} :
    classify text = .error f ↔ ∃ error, Expr.parse text = .error error ∧
      f = .inText text (.syntaxError error) error.span := by
  cases hp : Expr.parse text with
  | ok e =>
    rw [classify_of_parse hp]
    exact ⟨nofun, nofun⟩
  | error error =>
    rw [classify, parseText, hp]
    constructor
    · intro h
      exact ⟨error, rfl, (Except.error.inj h).symm⟩
    · rintro ⟨_, he, rfl⟩
      cases he
      rfl

/-- A text has the kind of its phrase. -/
theorem classify_of_phrase {e : Expr} (h : Expr.parse text = .ok e) (d : Phrase .sum)
    (hs : Piece.scan text = d.tokens.map .token) : classify text = .ok d.placeKind? := by
  obtain ⟨rfl, -⟩ := Expr.eq_tree_of_parse h d hs
  rw [classify_of_parse h, d.ofNode?_tree hs]

/-- A text with a kind is the text of a phrase of that kind. -/
theorem exists_phrase_of_classify {kind : Option PlaceKind} (h : classify text = .ok kind) :
    ∃ (d : Phrase .sum), Expr.parse text = .ok d.tree ∧
      Piece.scan text = d.tokens.map .token ∧ d.placeKind? = kind := by
  have hp := h
  rw [classify, bind_eq_ok] at hp
  obtain ⟨e, hp, -⟩ := hp
  obtain ⟨d, hs, rfl, -⟩ := Expr.derives_parse (parseText_eq_ok hp)
  rw [List.append_nil] at hs
  rw [classify_of_phrase (parseText_eq_ok hp) d hs] at h
  exact ⟨d, parseText_eq_ok hp, hs, Except.ok.inj h⟩

/-- A name is read as a variable. -/
theorem parse_name {t : Token} (ht : t.kind = .name) (hs : Piece.scan text = [.token t]) :
    Expr.parse text = .ok (.var t.name t.span) := by
  have hf : ∀ u ∈ [t], u.Fits := by
    intro u hu
    cases List.mem_singleton.1 hu
    exact Token.fits_of_ne (by rw [ht]; decide)
  have hw : (Phrase.ofOperand (.name t ht)).Within Expr.maxNesting :=
    ⟨show 1 ≤ 256 by decide, show 1 ≤ 1024 by decide⟩
  exact (Expr.settles_parse (.ofOperand (.name t ht)) hs hf).1 hw

theorem classify_eq_variable_iff :
    classify text = .ok (some .variable) ↔ Text.isName (Text.trim text) := by
  rw [← Piece.scan_eq_name_iff]
  constructor
  · intro h
    obtain ⟨d, -, hs, hk⟩ := exists_phrase_of_classify h
    obtain ⟨t, ht, hd⟩ := d.exists_name hk
    rw [hd] at hs
    exact ⟨t, ht, hs⟩
  · rintro ⟨t, ht, hs⟩
    exact classify_of_phrase (parse_name ht hs) (.ofOperand (.name t ht)) hs

theorem classify_eq_element_iff :
    classify text = .ok (some .element) ↔ (∃ e, Expr.parse text = .ok e) ∧ SpellsElement text := by
  constructor
  · intro h
    obtain ⟨d, hp, hs, hk⟩ := exists_phrase_of_classify h
    obtain ⟨t, opening, index, closing, ht, ho, hc, hd⟩ := d.exists_element hk
    rw [hd] at hs
    exact ⟨⟨d.tree, hp⟩, t, opening, index, closing, ht, ho, hc, hs⟩
  · rintro ⟨⟨e, hp⟩, t, opening, index, closing, ht, ho, hc, hs⟩
    exact classify_of_phrase hp (.ofOperand (.element t opening index closing ht ho hc)) hs

/-- A text that is read and is neither a variable nor an element is no place. -/
theorem classify_eq_none_iff :
    classify text = .ok none ↔
      (∃ e, Expr.parse text = .ok e) ∧ ¬Text.isName (Text.trim text) ∧ ¬SpellsElement text := by
  constructor
  · intro h
    obtain ⟨d, hp, -, -⟩ := exists_phrase_of_classify h
    refine ⟨⟨_, hp⟩, fun hn => ?_, fun he => ?_⟩
    · rw [classify_eq_variable_iff.2 hn] at h
      cases h
    · rw [classify_eq_element_iff.2 ⟨⟨_, hp⟩, he⟩] at h
      cases h
  · rintro ⟨⟨e, hp⟩, hn, he⟩
    rw [← classify_eq_variable_iff] at hn
    have he : classify text ≠ .ok (some .element) := fun h => he (classify_eq_element_iff.1 h).2
    rw [classify_of_parse hp] at *
    generalize (if covers text e then ofNode? e else none) = kind at *
    match kind with
    | none => rfl
    | some .variable => exact absurd rfl hn
    | some .element => exact absurd rfl he

end Place

/-! ## Slots -/

/-- Where a state holds a value. -/
inductive Slot where
  | var (name : String)
  | cell (name : String) (position : Nat)
deriving DecidableEq

/-- The value in a slot, if there is the slot. -/
def State.at? (s : State) : Slot → Option Value
  | .var name => s.valueOf? name
  | .cell name position => (s.elementsOf? name).bind (·[position]?)

theorem State.position?_eq_some_iff {i : Value} {length j : Nat} :
    position? i length = some j ↔ 0 ≤ i.toInt ∧ i.toInt < length ∧ i.toInt.toNat = j := by
  unfold position?
  split
  · next h => simp [h]
  · next h => exact ⟨nofun, fun h' => absurd ⟨h'.1, h'.2.1⟩ h⟩

namespace Place

variable {text : String} {s : State}

/-- The slot of a place. -/
def slot : Place → Slot
  | .variable name => .var name
  | .element name i => .cell name i.toInt.toNat

/-- What is read at a place is in its slot. -/
theorem at?_of_read {p : Place} {v : Value} (h : p.read s = .ok v) : s.at? p.slot = some v := by
  match p with
  | .variable name =>
    simp only [read, Expr.readVariable] at h
    split at h
    · next value hv =>
      cases h
      exact hv
    · cases h
  | .element name i =>
    simp only [read, State.element] at h
    split at h
    · cases h
    next elements ha =>
    split at h
    · cases h
    next value hv =>
    cases h
    obtain ⟨j, hj, hv⟩ := Option.bind_eq_some_iff.1 hv
    obtain ⟨-, -, rfl⟩ := State.position?_eq_some_iff.1 hj
    simp only [State.at?, slot, State.elementsOf?, ha, Option.bind_some, hv]

/-! ## Places and values of texts -/

/-- What a text resolves to is of the kind that the text has in every state. -/
theorem classify_of_resolve {p : Option Place} (h : resolve s text = .ok p) :
    classify text = .ok (p.map kind) := by
  unfold resolve at h
  obtain ⟨e, he, h⟩ := bind_eq_ok.1 h
  rw [classify, he, ok_bind]
  split at h
  · obtain ⟨_, -, h⟩ := bind_eq_ok.1 h
    cases h
    simp only [*, Option.map, kind]
  · obtain ⟨i, -, h⟩ := bind_eq_ok.1 h
    obtain ⟨_, -, h⟩ := bind_eq_ok.1 h
    cases h
    simp only [*, Option.map, kind]
  · cases h
    rfl

theorem resolve_of_classify_none (s : State) (h : classify text = .ok none) :
    resolve s text = .ok none := by
  unfold classify at h
  obtain ⟨e, he, h⟩ := bind_eq_ok.1 h
  rw [resolve, he, ok_bind]
  split at h
  · cases h
  · cases h
  · rfl

/-- A text that resolves to a place has the value at that place. -/
theorem evaluate_of_resolve {p : Place} (h : resolve s text = .ok (some p)) :
    ∃ v, evaluate text s = .ok v ∧ p.read s = .ok v := by
  unfold resolve at h
  obtain ⟨e, he, h⟩ := bind_eq_ok.1 h
  rw [evaluate, he, ok_bind]
  split at h
  · obtain ⟨v, hv, h⟩ := bind_eq_ok.1 h
    cases h
    exact ⟨v, hv, Expr.blame_eq_ok (Fault.within_eq_ok_iff.1 hv)⟩
  · obtain ⟨i, hi, h⟩ := bind_eq_ok.1 h
    obtain ⟨v, hv, h⟩ := bind_eq_ok.1 h
    cases h
    refine ⟨v, ?_, Expr.blame_eq_ok (Fault.within_eq_ok_iff.1 hv)⟩
    rw [Expr.eval, Fault.within_eq_ok_iff.1 hi]
    exact hv
  · cases h

/-- A text that is a place resolves to nothing only with a fault. -/
theorem resolve_cases {k : PlaceKind} (hk : classify text = .ok (some k)) (s : State) :
    (∃ p, resolve s text = .ok (some p)) ∨ ∃ f, resolve s text = .error f := by
  cases hr : resolve s text with
  | error f => exact .inr ⟨f, rfl⟩
  | ok p =>
    cases p with
    | some p => exact .inl ⟨p, rfl⟩
    | none =>
      rw [classify_of_resolve hr] at hk
      cases hk

/-- A text that is a place is not found exactly when it has no value, for the same reason. -/
theorem resolve_eq_error_iff {k : PlaceKind} (hk : classify text = .ok (some k)) {f : Fault} :
    resolve s text = .error f ↔ evaluate text s = .error f := by
  refine ⟨evaluate_of_resolve_error, fun hf => ?_⟩
  rcases resolve_cases hk s with ⟨p, hp⟩ | ⟨f', hr⟩
  · obtain ⟨v, hv, -⟩ := evaluate_of_resolve hp
    cases hf.symm.trans hv
  · cases hf.symm.trans (evaluate_of_resolve_error hr)
    exact hr

/-- A text that is a place has the value in the slot of its place, and no other. -/
theorem evaluate_eq_ok_iff {k : PlaceKind} (hk : classify text = .ok (some k)) {v : Value} :
    evaluate text s = .ok v ↔ ∃ p, resolve s text = .ok (some p) ∧ s.at? p.slot = some v := by
  constructor
  · intro hv
    rcases resolve_cases hk s with ⟨p, hp⟩ | ⟨f, hr⟩
    · obtain ⟨v', hv', hr⟩ := evaluate_of_resolve hp
      cases hv.symm.trans hv'
      exact ⟨p, hp, at?_of_read hr⟩
    · cases hv.symm.trans (evaluate_of_resolve_error hr)
  · rintro ⟨p, hp, ha⟩
    obtain ⟨v', hv', hr⟩ := evaluate_of_resolve hp
    cases ha.symm.trans (at?_of_read hr)
    exact hv'

end Place

/-! ## Everything a text can be -/

/-- A text has no kind exactly when it is not read, and else its tokens decide what place it is, if
any. In every state it resolves to a place of its kind and has the value in the slot of that place,
or fails to do both with the same fault. -/
theorem place_texts_agree (text : String) :
    (∀ f, Place.classify text = .error f ↔ ∃ error, Expr.parse text = .error error ∧
      f = .inText text (.syntaxError error) error.span) ∧
    (Place.classify text = .ok (some .variable) ↔ Text.isName (Text.trim text)) ∧
    (Place.classify text = .ok (some .element) ↔
      (∃ e, Expr.parse text = .ok e) ∧ Place.SpellsElement text) ∧
    (Place.classify text = .ok none ↔
      (∃ e, Expr.parse text = .ok e) ∧ ¬Text.isName (Text.trim text) ∧
        ¬Place.SpellsElement text) ∧
    (∀ e, Expr.parse text = .ok e → ∀ d : Phrase .sum, Piece.scan text = d.tokens.map .token →
      Place.classify text = .ok d.placeKind?) ∧
    ∀ s : State,
      (Place.resolve s text = .ok none ↔ Place.classify text = .ok none) ∧
      (∀ p, Place.resolve s text = .ok (some p) → Place.classify text = .ok (some p.kind)) ∧
      ∀ k, Place.classify text = .ok (some k) →
        (∀ f, Place.resolve s text = .error f ↔ evaluate text s = .error f) ∧
        ∀ v, evaluate text s = .ok v ↔
          ∃ p, Place.resolve s text = .ok (some p) ∧ s.at? p.slot = some v := by
  refine ⟨fun f => Place.classify_eq_error_iff, Place.classify_eq_variable_iff,
    Place.classify_eq_element_iff, Place.classify_eq_none_iff,
    fun e h d hs => Place.classify_of_phrase h d hs, fun s => ⟨⟨?_, ?_⟩, ?_, ?_⟩⟩
  · exact fun h => Place.classify_of_resolve h
  · exact Place.resolve_of_classify_none s
  · exact fun p h => Place.classify_of_resolve h
  · exact fun k hk => ⟨fun f => Place.resolve_eq_error_iff hk, fun v => Place.evaluate_eq_ok_iff hk⟩

-- Blanks of any kind may stand around a place and inside of it, and parentheses not around it.
example : Place.classify "\u3000a\u0085" = .ok (some .variable) ∧
    Place.classify " a [(i)]\u2003" = .ok (some .element) ∧
    Place.classify "(a)" = .ok none ∧ Place.classify "a[0]+b[1]" = .ok none := by
  decide +kernel

end BlockScript
