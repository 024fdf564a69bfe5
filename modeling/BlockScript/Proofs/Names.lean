import BlockScript.Proofs.Origins
import Mathlib.Data.List.DropRight

/-!
# Names in texts and statements

`Piece.names` are the names that occur in an expression text, as its scan shows them. They are the
names that the expression looks up (`Expr.names_of_parse`), and a text that is a name holds that one
(`Piece.names_of_isName`).

The names of a statement (`Statement.names`) are those of its expression texts and those it is
itself about. Among them are the names it can write: variables (`Statement.variableWrites`) and
arrays (`Statement.arrayWrites`). When a statement is done, a loop has given its counter back, so
that the counter counts for nothing in `Statement.lastingWrites`.
-/

set_option autoImplicit false

namespace BlockScript

/-! ## Names in a text -/

/-- The name that a piece spells, if it is a name. -/
def Piece.name? : Piece → Option String
  | .token t => if t.kind = .name then some t.name else none
  | .unrecognized _ => none

/-- The names that occur in a text, in order. -/
def Piece.names (source : String) : List String :=
  (scan source).filterMap name?

/-- The names that an expression looks up, from left to right. -/
def Expr.names : Expr → List String
  | .number _ _ => []
  | .var name _ => [name]
  | .element name index _ => name :: index.names
  | .signed _ operand _ => operand.names
  | .binary _ left right _ => left.names ++ right.names

theorem Sign.token_ne_name (sign : Sign) : sign.token ≠ .name := by
  cases sign <;> decide

theorem Operator.token_ne_name (operator : Operator) : operator.token ≠ .name := by
  cases operator <;> decide

/-- A phrase looks up its names, and no others. -/
theorem Phrase.names_tree {l : Level} (d : Phrase l) :
    d.tree.names = (d.tokens.map Piece.token).filterMap Piece.name? := by
  induction d with
  | number t ht => simp [tree, tokens, Expr.names, Piece.name?, ht]
  | name t ht => simp [tree, tokens, Expr.names, Piece.name?, ht]
  | element t opening index closing ht ho hc ih =>
    simp [tree, tokens, Expr.names, Piece.name?, ht, ho, hc, ih]
  | group opening inner closing ho hc ih => simp [tree, tokens, Piece.name?, ho, hc, ih]
  | signed t sign operand ht ih =>
    simp [tree, tokens, Expr.names, Piece.name?, ht, sign.token_ne_name, ih]
  | single hl item ih => exact ih
  | join hl left t operator right ht hm ihl ihr =>
    simp [tree, tokens, Expr.names, Piece.name?, ht, operator.token_ne_name, ihl, ihr]

/-- An expression looks up the names that occur in its text, and no others. -/
theorem Expr.names_of_parse {source : String} {e : Expr} (h : parse source = .ok e) :
    e.names = Piece.names source := by
  obtain ⟨d, hd, rfl, -⟩ := derives_parse h
  rw [List.append_nil] at hd
  rw [d.names_tree, Piece.names, hd]

/-- What occurs as a name is spelled as one. -/
theorem Piece.isName_of_mem_names {source name : String} (h : name ∈ names source) :
    Text.isName name := by
  obtain ⟨piece, hp, hn⟩ := List.mem_filterMap.1 h
  cases piece with
  | unrecognized f => cases hn
  | token t =>
    simp only [name?, Option.ite_none_right_eq_some, Option.some.injEq] at hn
    obtain ⟨hk, rfl⟩ := hn
    have hs := (Token.lexeme?_span hp).2
    rw [hk] at hs
    simpa [Text.isName, Token.name, TokenKind.Spells] using hs

namespace Text

theorem toNat_of_isNameStart {c : Char} (h : isNameStart c) :
    (65 ≤ c.toNat ∧ c.toNat ≤ 90) ∨ (97 ≤ c.toNat ∧ c.toNat ≤ 122) ∨ c.toNat = 95 := by
  simp only [isNameStart, isAlpha_iff, Bool.or_eq_true, beq_iff_eq, Char.le_def,
    UInt32.le_iff_toNat_le] at h
  rcases h with (h | h) | rfl
  · exact .inl h
  · exact .inr (.inl h)
  · exact .inr (.inr rfl)

/-- A name starts with no blank, no symbol and no digit. -/
theorem isNameStart_cases {c : Char} (h : isNameStart c) :
    isBlank c = false ∧ TokenKind.ofSymbol? c = none ∧ c.isDigit = false := by
  have hn := toNat_of_isNameStart h
  refine ⟨?_, ?_, ?_⟩
  · simp only [isBlank, Bool.or_eq_false_iff, Bool.and_eq_false_iff, decide_eq_false_iff_not,
      beq_eq_false_iff_ne]
    omega
  · cases hs : TokenKind.ofSymbol? c with
    | none => rfl
    | some kind =>
      exfalso
      unfold TokenKind.ofSymbol? at hs
      split at hs
      all_goals first | exact absurd h (by decide) | cases hs
  · simp only [Char.isDigit, Bool.and_eq_false_iff, decide_eq_false_iff_not,
      UInt32.le_iff_toNat_le]
    change ¬48 ≤ c.toNat ∨ ¬c.toNat ≤ 57
    omega

/-- Nothing is blank at the ends. -/
structure Trimmed (cs : List Char) : Prop where
  start : dropBlankStart cs = cs
  stop : dropBlankEnd cs = cs

theorem trimmed_trimChars (cs : List Char) : Trimmed (trimChars cs) := by
  constructor
  · -- What is dropped at the end leaves the first character, which is not blank.
    have hp : trimChars cs <+: dropBlankStart cs :=
      List.rdropWhile_prefix isBlank (dropBlankStart cs)
    generalize trimChars cs = ds at hp
    cases ds with
    | nil => rfl
    | cons c ds =>
      obtain ⟨back, hb⟩ := hp
      have hc : isBlank c = false := by
        have := List.head?_dropWhile_not isBlank cs
        rw [show cs.dropWhile isBlank = _ from hb.symm] at this
        simpa using this
      simp [dropBlankStart, hc]
  · simp only [trimChars, dropBlankEnd, List.reverse_reverse, List.dropWhile_idempotent _]

theorem trimmed_trim (s : String) : Trimmed (trim s).toList := by
  rw [trim, String.toList_ofList]
  exact trimmed_trimChars s.toList

theorem byteLength_eq_zero {cs : List Char} (h : byteLength cs = 0) : cs = [] := by
  cases cs with
  | nil => rfl
  | cons c cs =>
    have := c.utf8Size_pos
    rw [byteLength_cons] at h
    omega

end Text

/-- A name ends before the first character that is not one of a name. -/
theorem Piece.scanFrom_name {start : Nat} {word back : List Char} (hw : Text.isNameChars word)
    (hb : ∀ c ∈ back.head?, Text.isNameChar c = false) :
    scanFrom start (word ++ back) =
      .token ⟨.name, word, ⟨start, Text.byteLength word⟩⟩ ::
        scanFrom (start + Text.byteLength word) back := by
  cases word with
  | nil => cases hw
  | cons c cs =>
    rw [Text.isNameChars, Bool.and_eq_true] at hw
    obtain ⟨hblank, hsymbol, hdigit⟩ := Text.isNameStart_cases hw.1
    have hcs : ∀ d ∈ cs, Text.isNameChar d := List.all_eq_true.1 hw.2
    have hback : back.takeWhile Text.isNameChar = [] ∧ back.dropWhile Text.isNameChar = back := by
      cases back with
      | nil => exact ⟨rfl, rfl⟩
      | cons d back => simp [hb d rfl]
    have hread : read start c (cs ++ back) =
        .token ⟨.name, c :: cs, ⟨start, Text.byteLength (c :: cs)⟩⟩ := by
      simp [read, hsymbol, hdigit, hw.1, List.takeWhile_append_of_pos hcs, hback.1]
    have hrest : remainder c (cs ++ back) = back := by
      simp [remainder, hsymbol, hdigit, hw.1, List.dropWhile_append_of_pos hcs, hback.2]
    rw [List.cons_append, scanFrom_cons hblank, hread, hrest]
    rfl

/-- A text that is a name scans to that name. -/
theorem Piece.scan_of_isName {text : String} (h : Text.isName text) :
    scan text = [.token ⟨.name, text.toList, ⟨0, Text.byteLength text.toList⟩⟩] := by
  have hs := @scanFrom_name 0 text.toList [] h nofun
  rwa [List.append_nil, scanFrom_nil] at hs

theorem Piece.names_of_isName {text : String} (h : Text.isName text) : names text = [text] := by
  rw [names, scan_of_isName h]
  simp [name?, Token.name]

/-! ## Names of places -/

namespace Place

/-- The array of a text that names an element. -/
def arrayOf? (text : String) : Option String :=
  match subject? text with
  | some (.element, name) => some name
  | _ => none

theorem arrayOf?_eq_some_iff {text name : String} :
    arrayOf? text = some name ↔ subject? text = some (.element, name) := by
  unfold arrayOf?
  split
  · next hs => simp [hs]
  · next hs =>
    refine ⟨nofun, fun h => ?_⟩
    exact absurd h (hs name)

/-- What a text is about occurs in it as a name. -/
theorem mem_names_of_subject? {text name : String} {kind : PlaceKind}
    (h : subject? text = some (kind, name)) : name ∈ Piece.names text := by
  unfold subject? at h
  split at h
  · cases h
  · next e he =>
    rw [← Expr.names_of_parse he]
    split at h
    · cases h
      exact List.mem_singleton_self _
    · cases h
      exact List.mem_cons_self
    · cases h

/-- A trimmed text that names a variable is the name of that variable. -/
theorem eq_of_subject?_variable {text name : String} (ht : Text.Trimmed text.toList)
    (h : subject? text = some (.variable, name)) : name = text := by
  unfold subject? at h
  split at h
  · cases h
  next e he =>
  split at h
  · next span hc =>
    cases h
    obtain ⟨d, hd, hde, -⟩ := Expr.derives_parse he
    rw [List.append_nil] at hd
    -- The token of the variable covers the text from its first byte to its last.
    have hs : (Expr.var name span).StandsIn d.tokens := by
      rw [← hde]
      exact d.standsIn_of_mem_parts d.tree.self_mem_parts
    obtain ⟨t, htm, rfl, rfl⟩ := hs
    have hp : .token t ∈ Piece.scan text := hd ▸ List.mem_map_of_mem htm
    obtain ⟨before, after, hp⟩ := List.append_of_mem hp
    obtain ⟨front, back, hcs, hspan, -⟩ := Piece.scanFrom_eq_append_cons hp
    have hspan : t.span = ⟨Text.byteLength front, Text.byteLength t.lexeme⟩ := by
      simpa [Piece.span, Piece.lexeme] using hspan
    simp only [covers, ht.start, ht.stop, Expr.span, hspan, Span.stop, Nat.sub_self,
      Bool.and_eq_true, beq_iff_eq] at hc
    have hl := congrArg Text.byteLength hcs
    simp only [Piece.lexeme, Text.byteLength_append] at hl
    have hf : front = [] := Text.byteLength_eq_zero hc.1
    have hb : back = [] := Text.byteLength_eq_zero (by omega)
    rw [hf, hb] at hcs
    simp only [Piece.lexeme, List.nil_append, List.append_nil] at hcs
    rw [Token.name, ← hcs, String.ofList_toList]
  · cases h
  · cases h

end Place

/-! ## Names of statements -/

namespace Statement

/-- The names that a statement is itself about: what it declares, assigns to, counts with or
fills. -/
def targets : Statement → List String
  | .declareVariables names => Text.splitList names
  | .assign target _ => [Text.trim target]
  | .forLoop counter _ _ _ _ => [Text.trim counter]
  | .declareArray name _ => [Text.trim name]
  | .assignElement name _ _ => [Text.trim name]
  | .fill name _ => [Text.trim name]
  | _ => []

/-- The names that occur in a statement, apart from the statements inside of it. -/
def ownNames (t : Statement) : List String :=
  t.targets ++ t.texts.flatMap Piece.names

/-- The names that occur in a statement, at any depth. -/
def names (t : Statement) : List String :=
  t.parts.flatMap ownNames

/-- The variables that a statement can write, apart from the statements inside of it. -/
def ownVariableWrites : Statement → List String
  | .declareVariables names => Text.splitList names
  | .assign target _ => [Text.trim target]
  | .forLoop counter _ _ _ _ => [Text.trim counter]
  | .swap first second => [Text.trim first, Text.trim second].filter Text.isName
  | _ => []

/-- The arrays that a statement can write, apart from the statements inside of it. -/
def ownArrayWrites : Statement → List String
  | .declareArray name _ => [Text.trim name]
  | .assignElement name _ _ => [Text.trim name]
  | .fill name _ => [Text.trim name]
  | .swap first second => [Text.trim first, Text.trim second].filterMap Place.arrayOf?
  | _ => []

/-- The variables that a statement can write, at any depth. -/
def variableWrites (t : Statement) : List String :=
  t.parts.flatMap ownVariableWrites

/-- The arrays that a statement can write, at any depth. -/
def arrayWrites (t : Statement) : List String :=
  t.parts.flatMap ownArrayWrites

mutual

/-- The variables that a statement can have changed when it is done: a loop gives its counter
back. -/
def lastingWrites : Statement → List String
  | .ifElse _ body elseIfs otherwise =>
    lastingOfBlock body ++ (lastingOfBranches elseIfs ++ lastingOfOtherwise otherwise)
  | .whileLoop _ body => lastingOfBlock body
  | .forLoop counter _ _ _ body => (lastingOfBlock body).filter (· ≠ Text.trim counter)
  | statement => statement.ownVariableWrites

def lastingOfBlock : List Statement → List String
  | [] => []
  | statement :: rest => lastingWrites statement ++ lastingOfBlock rest

def lastingOfBranches : List (Condition × List Statement) → List String
  | [] => []
  | (_, body) :: rest => lastingOfBlock body ++ lastingOfBranches rest

def lastingOfOtherwise : Option (List Statement) → List String
  | none => []
  | some body => lastingOfBlock body

end

theorem lastingOfBlock_eq (block : List Statement) :
    lastingOfBlock block = block.flatMap lastingWrites := by
  induction block with
  | nil => rfl
  | cons t block ih => rw [lastingOfBlock, ih, List.flatMap_cons]

theorem lastingOfBranches_eq (branches : List (Condition × List Statement)) :
    lastingOfBranches branches = (branches.flatMap (·.2)).flatMap lastingWrites := by
  induction branches with
  | nil => rfl
  | cons branch branches ih =>
    rw [lastingOfBranches, ih, lastingOfBlock_eq, List.flatMap_cons, List.flatMap_append]

theorem lastingOfOtherwise_eq (otherwise : Option (List Statement)) :
    lastingOfOtherwise otherwise = (otherwise.getD []).flatMap lastingWrites := by
  cases otherwise with
  | none => rfl
  | some body => exact lastingOfBlock_eq body

/-- A loop over a variable. -/
def CountsWith (name : String) : Statement → Prop
  | .forLoop counter _ _ _ _ => Text.trim counter = name
  | _ => False

/-- What does not last is not written by the statement itself nor lasts from its children, unless
the statement is a loop over it. -/
theorem countsWith_or_of_not_mem_lastingWrites {t : Statement} {name : String}
    (h : name ∉ t.lastingWrites) :
    t.CountsWith name ∨
      (name ∉ t.ownVariableWrites ∧ ∀ u ∈ t.children, name ∉ u.lastingWrites) := by
  cases t with
  | ifElse condition body elseIfs otherwise =>
    rw [lastingWrites, lastingOfBlock_eq, lastingOfBranches_eq, lastingOfOtherwise_eq,
      ← List.flatMap_append, ← List.flatMap_append] at h
    exact .inr ⟨List.not_mem_nil, fun u hu hm => h (List.mem_flatMap_of_mem hu hm)⟩
  | whileLoop condition body =>
    rw [lastingWrites, lastingOfBlock_eq] at h
    exact .inr ⟨List.not_mem_nil, fun u hu hm => h (List.mem_flatMap_of_mem hu hm)⟩
  | forLoop counter first last step body =>
    by_cases hc : Text.trim counter = name
    · exact .inl hc
    · rw [lastingWrites, lastingOfBlock_eq, List.mem_filter] at h
      refine .inr ⟨fun hm => hc (List.mem_singleton.1 hm).symm, fun u hu hm => h ⟨?_, ?_⟩⟩
      · exact List.mem_flatMap_of_mem hu hm
      · simpa using Ne.symm hc
  | declareVariables | assign | output | declareArray | assignElement | swap | fill =>
    exact .inr ⟨h, fun u hu => nomatch hu⟩

theorem ownVariableWrites_subset (t : Statement) : t.ownVariableWrites ⊆ t.ownNames := by
  intro name h
  cases t with
  | declareVariables | assign | forLoop => exact List.mem_append_left _ h
  | swap first second =>
    obtain ⟨hm, hn⟩ := List.mem_filter.1 h
    refine List.mem_append_right _ (List.mem_flatMap_of_mem hm ?_)
    rw [Piece.names_of_isName hn]
    exact List.mem_singleton_self name
  | output | ifElse | whileLoop | declareArray | assignElement | fill => cases h

/-- A swap writes the variables that its operands name. -/
theorem mem_ownVariableWrites_of_subject? {first second text name : String}
    (hm : text ∈ (swap first second).texts)
    (h : Place.subject? text = some (.variable, name)) :
    name ∈ (swap first second).ownVariableWrites := by
  have ht : Text.Trimmed text.toList := by
    simp only [texts, List.mem_cons, List.not_mem_nil, or_false] at hm
    rcases hm with rfl | rfl
    · exact Text.trimmed_trim first
    · exact Text.trimmed_trim second
  have hn : Text.isName name := Piece.isName_of_mem_names (Place.mem_names_of_subject? h)
  cases Place.eq_of_subject?_variable ht h
  exact List.mem_filter.2 ⟨hm, hn⟩

/-- A swap writes the arrays that its operands name elements of. -/
theorem mem_ownArrayWrites_of_subject? {first second text name : String}
    (hm : text ∈ (swap first second).texts)
    (h : Place.subject? text = some (.element, name)) :
    name ∈ (swap first second).ownArrayWrites :=
  List.mem_filterMap.2 ⟨text, hm, Place.arrayOf?_eq_some_iff.2 h⟩

theorem ownArrayWrites_subset (t : Statement) : t.ownArrayWrites ⊆ t.ownNames := by
  intro name h
  cases t with
  | declareArray | assignElement | fill => exact List.mem_append_left _ h
  | swap first second =>
    obtain ⟨text, hm, ha⟩ := List.mem_filterMap.1 h
    refine List.mem_append_right _ (List.mem_flatMap_of_mem hm ?_)
    exact Place.mem_names_of_subject? (Place.arrayOf?_eq_some_iff.1 ha)
  | declareVariables | assign | forLoop | output | ifElse | whileLoop => cases h

end Statement

end BlockScript
