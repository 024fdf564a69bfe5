import BlockScript.Json.Reader
import BlockScript.Json.Sound

/-!
# Written documents are read back

A document that is made of texts and integers (`Json.MadeOf`) is read back from the text it is
written as, without any space (`Json.read?_compact`) or one member a line (`Json.read?_pretty`).

The characters are cut into the lexemes of the document (`Json.lexemes`), whatever stands behind
them as long as no number goes on with it (`Json.Spells`). The machine that takes these lexemes ends
with the document, whatever is open around it (`Json.Reads`). Both are said of the parts of a
document first and then of the whole.
-/

set_option autoImplicit false

namespace BlockScript.Json

/-! ## Documents by what they are made of -/

/-- All strings in a document are texts, and all numbers are such as `P` tells. -/
inductive MadeOf (P : Number → Prop) : Json → Prop
  | null : MadeOf P .null
  | bool (b : Bool) : MadeOf P (.bool b)
  | number {n : Number} (h : P n) : MadeOf P (.number n)
  | string (s : String) : MadeOf P (.string (some s))
  | array {items : List Json} (h : ∀ item ∈ items, MadeOf P item) : MadeOf P (.array items)
  | object {members : List (Option String × Json)} (hk : ∀ member ∈ members, member.1.isSome)
      (h : ∀ member ∈ members, MadeOf P member.2) : MadeOf P (.object members)

/-- A number that is written without point and exponent. -/
def Number.IsInt (n : Number) : Prop :=
  ∃ i : Int, n = .ofInt i

theorem isSoundItems_iff {items : List Json} :
    isSoundItems items ↔ ∀ item ∈ items, item.isSound := by
  induction items with
  | nil => simp [isSoundItems]
  | cons item items ih => simp [isSoundItems, ih]

theorem isSoundMembers_iff {members : List (Option String × Json)} :
    isSoundMembers members ↔ ∀ member ∈ members, member.1.isSome ∧ member.2.isSound := by
  induction members with
  | nil => simp [isSoundMembers]
  | cons member members ih => simp [isSoundMembers, ih]

theorem MadeOf.isSound {j : Json} (h : MadeOf (fun n => n.isFinite) j) : j.isSound := by
  induction h with
  | null => rw [Json.isSound]
  | bool b => rw [Json.isSound]
  | number h => rwa [Json.isSound]
  | string s => rw [Json.isSound]; rfl
  | array h ih =>
    rw [Json.isSound]
    exact isSoundItems_iff.2 ih
  | object hk h ih =>
    rw [Json.isSound]
    exact isSoundMembers_iff.2 fun member hm => ⟨hk member hm, ih member hm⟩

/-! ## Strings -/

theorem hexDigit?_digitChar : ∀ d < 16, hexDigit? (Nat.digitChar d) = some d := by
  decide

section
variable {cs rest : List Char} {codes : List Nat}

theorem scanString_short {e c : Char} (he : e ≠ 'u') (hc : shortEscape? e = some c)
    (h : scanString cs = some (codes, rest)) :
    scanString ('\\' :: e :: cs) = some (c.toNat :: codes, rest) := by
  rw [scanString]
  · simp [hc, h]
  · rintro _ _ _ _ _ rfl
    exact absurd rfl he

theorem scanString_control {n : Nat} (hn : n < 32) (h : scanString cs = some (codes, rest)) :
    scanString ('\\' :: 'u' :: '0' :: '0' :: Nat.digitChar (n / 16) :: Nat.digitChar (n % 16) ::
      cs) = some (n :: codes, rest) := by
  have hzero : hexDigit? '0' = some 0 := rfl
  have hhigh := hexDigit?_digitChar (n / 16) (by omega)
  have hlow := hexDigit?_digitChar (n % 16) (by omega)
  rw [scanString]
  simp [hzero, hhigh, hlow, h, Nat.div_add_mod']

theorem scanString_plain {c : Char} (hq : c ≠ '"') (hb : c ≠ '\\') (hc : 32 ≤ c.toNat)
    (h : scanString cs = some (codes, rest)) :
    scanString (c :: cs) = some (c.toNat :: codes, rest) := by
  rw [scanString]
  · have : ¬c.toNat < 32 := by omega
    simp [hb, this, h]
  · exact hq
  · intro a b c d rest h
    exact absurd h hb
  · intro e rest h
    exact absurd h hb

end

/-- A character is written as an escape of one letter, as an escape by its code, or as itself. -/
theorem escape_cases (c : Char) :
    (∃ e, e ≠ 'u' ∧ shortEscape? e = some c ∧ escape c = ['\\', e]) ∨
    (c.toNat < 32 ∧ escape c =
      ['\\', 'u', '0', '0', Nat.digitChar (c.toNat / 16), Nat.digitChar (c.toNat % 16)]) ∨
    (c ≠ '"' ∧ c ≠ '\\' ∧ 32 ≤ c.toNat ∧ escape c = [c]) := by
  by_cases hq : c = '"'
  · subst hq
    exact .inl ⟨'"', by decide, rfl, rfl⟩
  by_cases hb : c = '\\'
  · subst hb
    exact .inl ⟨'\\', by decide, rfl, rfl⟩
  by_cases h1 : c = '\x08'
  · subst h1
    exact .inl ⟨'b', by decide, rfl, rfl⟩
  by_cases h2 : c = '\x0c'
  · subst h2
    exact .inl ⟨'f', by decide, rfl, rfl⟩
  by_cases h3 : c = '\n'
  · subst h3
    exact .inl ⟨'n', by decide, rfl, rfl⟩
  by_cases h4 : c = '\r'
  · subst h4
    exact .inl ⟨'r', by decide, rfl, rfl⟩
  by_cases h5 : c = '\t'
  · subst h5
    exact .inl ⟨'t', by decide, rfl, rfl⟩
  rw [escape, if_neg hq, if_neg hb, if_neg h1, if_neg h2, if_neg h3, if_neg h4, if_neg h5]
  by_cases hc : c.toNat < 32
  · exact .inr (.inl ⟨hc, if_pos hc⟩)
  · exact .inr (.inr ⟨hq, hb, Nat.le_of_not_lt hc, if_neg hc⟩)

theorem scanString_escape {c : Char} {cs rest : List Char} {codes : List Nat}
    (h : scanString cs = some (codes, rest)) :
    scanString (escape c ++ cs) = some (c.toNat :: codes, rest) := by
  rcases escape_cases c with ⟨e, he, hc, hw⟩ | ⟨hc, hw⟩ | ⟨hq, hb, hc, hw⟩
  · rw [hw]
    exact scanString_short he hc h
  · rw [hw]
    exact scanString_control hc h
  · rw [hw]
    exact scanString_plain hq hb hc h

/-- The characters of a text are read back up to the closing quote. -/
theorem scanString_escaped (cs rest : List Char) :
    scanString (cs.flatMap escape ++ '"' :: rest) = some (cs.map Char.toNat, rest) := by
  induction cs with
  | nil => rw [List.flatMap_nil, List.nil_append, scanString, List.map_nil]
  | cons c cs ih =>
    rw [List.flatMap_cons, List.append_assoc]
    exact scanString_escape ih

theorem not_half_toNat (c : Char) : isHighHalf c.toNat = false ∧ isLowHalf c.toNat = false := by
  have h : c.toNat < 0xd800 ∨ (0xdfff < c.toNat ∧ c.toNat < 0x110000) := c.valid
  simp only [isHighHalf, isLowHalf, Bool.and_eq_false_iff, decide_eq_false_iff_not]
  omega

theorem joinHalves_cons (c : Char) (codes : List Nat) :
    joinHalves (c.toNat :: codes) = (joinHalves codes).map (c :: ·) := by
  obtain ⟨hh, hl⟩ := not_half_toNat c
  cases codes with
  | nil => simp [joinHalves, hh, hl]
  | cons code codes => simp [joinHalves, hh, hl]

theorem textOfCodes_toNat (s : String) : textOfCodes (s.toList.map Char.toNat) = some s := by
  have h : ∀ cs : List Char, joinHalves (cs.map Char.toNat) = some cs := by
    intro cs
    induction cs with
    | nil => rfl
    | cons c cs ih => rw [List.map_cons, joinHalves_cons, ih, Option.map_some]
  rw [textOfCodes, h, Option.map_some, String.ofList_toList]

/-! ## Numbers -/

theorem ofDigits_concat (digits : List Char) (d : Char) :
    Text.ofDigits (digits ++ [d]) = 10 * Text.ofDigits digits + (d.toNat - 48) := by
  rw [Text.ofDigits, List.foldl_append]
  rfl

theorem ofDigits_toDigits (n : Nat) : Text.ofDigits (Nat.toDigits 10 n) = n := by
  induction n using Nat.strongRecOn with
  | ind n ih =>
    rw [Nat.toDigits_eq_if (by decide)]
    split
    · next h =>
      have hd := ofDigits_concat [] (Nat.digitChar n)
      rw [Nat.toNat_digitChar_of_lt_ten h] at hd
      rw [← List.nil_append [n.digitChar], hd, Text.ofDigits, List.foldl_nil]
      omega
    · next h =>
      rw [ofDigits_concat, ih (n / 10) (by omega), Nat.toNat_digitChar_of_lt_ten (by omega)]
      omega

theorem isDigit_of_mem_toDigits {n : Nat} : ∀ c ∈ Nat.toDigits 10 n, c.isDigit := fun _ h =>
  Nat.isDigit_of_mem_toDigits (by decide) (by decide) h

/-- The digits of a number that is not zero start with no zero. -/
theorem exists_toDigits_eq_cons {n : Nat} (h : 0 < n) :
    ∃ d ds, Nat.toDigits 10 n = d :: ds ∧ d ≠ '0' := by
  induction n using Nat.strongRecOn with
  | ind n ih =>
    rw [Nat.toDigits_eq_if (by decide)]
    split
    · next hlt =>
      have hz : ∀ d < 10, 0 < d → Nat.digitChar d ≠ '0' := by decide
      exact ⟨n.digitChar, [], rfl, hz n hlt h⟩
    · obtain ⟨d, ds, hd, hne⟩ := ih (n / 10) (by omega) (by omega)
      exact ⟨d, ds ++ [(n % 10).digitChar], by rw [hd, List.cons_append], hne⟩

/-- No number goes on with what follows. -/
def EndsNumber (rest : List Char) : Prop :=
  ∀ c ∈ rest.head?, c.isDigit = false ∧ c ≠ '.' ∧ c ≠ 'e' ∧ c ≠ 'E'

theorem scanDigits_append {digits rest : List Char} (hne : digits ≠ [])
    (hd : ∀ c ∈ digits, c.isDigit) (hr : EndsNumber rest) :
    scanDigits (digits ++ rest) = some (digits, rest) := by
  have ht : rest.takeWhile Char.isDigit = [] ∧ rest.dropWhile Char.isDigit = rest := by
    cases rest with
    | nil => exact ⟨rfl, rfl⟩
    | cons c rest =>
      have hc := (hr c rfl).1
      simp [hc]
  rw [scanDigits, List.takeWhile_append_of_pos hd, List.dropWhile_append_of_pos hd, ht.1, ht.2,
    List.append_nil]
  cases digits with
  | nil => exact absurd rfl hne
  | cons d digits => rfl

theorem scanWhole_toDigits (n : Nat) {rest : List Char} (hr : EndsNumber rest) :
    scanWhole (Nat.toDigits 10 n ++ rest) = some (n, rest) := by
  rcases Nat.eq_zero_or_pos n with rfl | hn
  · rfl
  · rw [scanWhole]
    · simp [scanDigits_append Nat.toDigits_ne_nil isDigit_of_mem_toDigits hr, ofDigits_toDigits]
    · intro more hm
      obtain ⟨d, ds, hd, hne⟩ := exists_toDigits_eq_cons hn
      rw [hd, List.cons_append] at hm
      exact hne (List.cons.inj hm).1

theorem scanUnsigned_toDigits (negative : Bool) (n : Nat) {rest : List Char}
    (hr : EndsNumber rest) :
    scanUnsigned negative (Nat.toDigits 10 n ++ rest) = some (⟨negative, n, [], none⟩, rest) := by
  have hf : scanFraction rest = some ([], rest) := by
    rw [scanFraction]
    rintro more rfl
    exact (hr '.' rfl).2.1 rfl
  have he : scanExponent rest = some (none, rest) := by
    rw [scanExponent]
    · rintro more rfl
      exact (hr 'e' rfl).2.2.1 rfl
    · rintro more rfl
      exact (hr 'E' rfl).2.2.2 rfl
  rw [scanUnsigned, scanWhole_toDigits n hr]
  simp [hf, he]

theorem endsNumber_cons {c : Char} {cs : List Char}
    (h : c.isDigit = false ∧ c ≠ '.' ∧ c ≠ 'e' ∧ c ≠ 'E') : EndsNumber (c :: cs) := by
  rintro d ⟨rfl⟩
  exact h

theorem EndsNumber.append {cs rest : List Char} (h : EndsNumber cs) (hr : EndsNumber rest) :
    EndsNumber (cs ++ rest) := by
  cases cs with
  | nil => exact hr
  | cons c cs => exact h

/-! ## Lexemes -/

mutual

/-- The lexemes of a document. -/
def lexemes : Json → List Lexeme
  | .null => [.null]
  | .bool b => [.bool b]
  | .number n => [.number n]
  | .string text => [.string text]
  | .array items => .leftBracket :: lexemesOfItems items ++ [.rightBracket]
  | .object members => .leftBrace :: lexemesOfMembers members ++ [.rightBrace]

/-- The lexemes of items, separated by commas. -/
def lexemesOfItems : List Json → List Lexeme
  | [] => []
  | [item] => lexemes item
  | item :: next :: rest => lexemes item ++ .comma :: lexemesOfItems (next :: rest)

/-- The lexemes of members, separated by commas. -/
def lexemesOfMembers : List (Option String × Json) → List Lexeme
  | [] => []
  | [(key, value)] => .string key :: .colon :: lexemes value
  | (key, value) :: next :: rest =>
    .string key :: .colon :: lexemes value ++ .comma :: lexemesOfMembers (next :: rest)

end

/-- A text is cut into lexemes under every bound that is not less than its length. -/
def Scans (cs : List Char) (lexemes : List Lexeme) : Prop :=
  ∀ n, cs.length ≤ n → scanWithin n cs = some lexemes

theorem scans_nil : Scans [] [] := by
  intro n _
  cases n <;> rfl

theorem Scans.cons {c : Char} {word rest : List Char} {lexeme : Lexeme} {lexemes : List Lexeme}
    (hs : isSpace c = false) (hl : scanLexeme c (word ++ rest) = some (lexeme, rest))
    (h : Scans rest lexemes) : Scans (c :: (word ++ rest)) (lexeme :: lexemes) := by
  intro n hn
  rw [List.length_cons, List.length_append] at hn
  cases n with
  | zero => omega
  | succ n =>
    have hrest : scanWithin n rest = some lexemes := h n (by omega)
    simp [scanWithin, hs, hl, hrest]

/-- A text is cut into these lexemes and what follows it into others, unless a number at its end
goes on there. -/
def Spells (cs : List Char) (lexemes : List Lexeme) : Prop :=
  ∀ rest more, EndsNumber rest → Scans rest more → Scans (cs ++ rest) (lexemes ++ more)

section
variable {cs cs' word : List Char} {ls ls' : List Lexeme} {c : Char} {lexeme : Lexeme}

theorem spells_nil : Spells [] [] :=
  fun _ _ _ h => h

theorem Spells.append (h : Spells cs ls) (h' : Spells cs' ls') (hc : EndsNumber cs') :
    Spells (cs ++ cs') (ls ++ ls') := by
  intro rest more hr hm
  rw [List.append_assoc, List.append_assoc]
  exact h _ _ (hc.append hr) (h' rest more hr hm)

theorem spells_lexeme (hs : isSpace c = false)
    (hl : ∀ rest, EndsNumber rest → scanLexeme c (word ++ rest) = some (lexeme, rest)) :
    Spells (c :: word) [lexeme] :=
  fun rest _ hr hm => Scans.cons hs (hl rest hr) hm

theorem Spells.symbol (h : Spells cs ls) (hs : isSpace c = false)
    (hl : ∀ rest, scanLexeme c rest = some (lexeme, rest)) : Spells (c :: cs) (lexeme :: ls) := by
  intro rest more hr hm
  have hc : Scans (c :: ([] ++ (cs ++ rest))) (lexeme :: (ls ++ more)) :=
    Scans.cons hs (hl _) (h rest more hr hm)
  exact hc

end

theorem spells_quoteChars {key : Option String} (h : key.isSome) :
    Spells (quoteChars key) [.string key] := by
  obtain ⟨s, rfl⟩ := Option.isSome_iff_exists.1 h
  refine spells_lexeme rfl fun rest _ => ?_
  change (scanString (s.toList.flatMap escape ++ ['"'] ++ rest)).map _ = _
  rw [List.append_assoc, List.singleton_append, scanString_escaped, Option.map_some]
  dsimp only
  rw [textOfCodes_toNat]

theorem scanLexeme_digit {d : Char} (hd : d.isDigit) (rest : List Char) :
    scanLexeme d rest =
      (scanUnsigned false (d :: rest)).map fun (n, rest) => (.number n, rest) := by
  unfold scanLexeme
  split
  all_goals first | rfl | exact absurd hd (by decide)

theorem isSpace_of_isDigit {d : Char} (hd : d.isDigit) : isSpace d = false := by
  simp only [isSpace, Bool.or_eq_false_iff, beq_eq_false_iff_ne]
  refine ⟨⟨⟨?_, ?_⟩, ?_⟩, ?_⟩
  all_goals
    rintro rfl
    exact absurd hd (by decide)

theorem spells_ofInt (i : Int) : Spells (Number.ofInt i).chars [.number (.ofInt i)] := by
  have hc : (Number.ofInt i).chars =
      (if i < 0 then ['-'] else []) ++ Nat.toDigits 10 i.natAbs := by
    simp [Number.chars, Number.ofInt]
  rw [hc]
  split
  · next hi =>
    have hn : Number.ofInt i = ⟨true, i.natAbs, [], none⟩ := by simp [Number.ofInt, hi]
    refine spells_lexeme rfl fun rest hr => ?_
    change (scanUnsigned true (Nat.toDigits 10 i.natAbs ++ rest)).map _ = _
    rw [scanUnsigned_toDigits true i.natAbs hr, hn, Option.map_some]
  · next hi =>
    have hn : Number.ofInt i = ⟨false, i.natAbs, [], none⟩ := by simp [Number.ofInt, hi]
    obtain ⟨d, ds, hd⟩ : ∃ d ds, Nat.toDigits 10 i.natAbs = d :: ds :=
      List.exists_cons_of_ne_nil Nat.toDigits_ne_nil
    have hdigit : d.isDigit := isDigit_of_mem_toDigits d (hd ▸ List.mem_cons_self)
    rw [List.nil_append, hd]
    refine spells_lexeme (isSpace_of_isDigit hdigit) fun rest hr => ?_
    have hu := scanUnsigned_toDigits false i.natAbs hr
    rw [hd, List.cons_append] at hu
    simp [scanLexeme_digit hdigit, hu, hn]

theorem spells_compactItems {items : List Json}
    (h : ∀ item ∈ items, Spells (compactChars item) item.lexemes) :
    Spells (compactItems items) (lexemesOfItems items) := by
  induction items with
  | nil =>
    rw [compactItems, lexemesOfItems]
    exact spells_nil
  | cons item items ih =>
    obtain ⟨hitem, hitems⟩ := List.forall_mem_cons.1 h
    cases items with
    | nil =>
      rw [compactItems, lexemesOfItems]
      exact hitem
    | cons next items =>
      rw [compactItems, lexemesOfItems]
      exact hitem.append ((ih hitems).symbol rfl fun _ => rfl) (endsNumber_cons (by decide))

theorem spells_compactMembers {members : List (Option String × Json)}
    (hk : ∀ member ∈ members, member.1.isSome)
    (h : ∀ member ∈ members, Spells (compactChars member.2) member.2.lexemes) :
    Spells (compactMembers members) (lexemesOfMembers members) := by
  induction members with
  | nil =>
    rw [compactMembers, lexemesOfMembers]
    exact spells_nil
  | cons member members ih =>
    obtain ⟨key, value⟩ := member
    obtain ⟨hkey, hkeys⟩ := List.forall_mem_cons.1 hk
    obtain ⟨hvalue, hvalues⟩ := List.forall_mem_cons.1 h
    have hmember : Spells (quoteChars key ++ ':' :: compactChars value)
        (.string key :: .colon :: lexemes value) :=
      (spells_quoteChars hkey).append (hvalue.symbol rfl fun _ => rfl) (endsNumber_cons (by decide))
    cases members with
    | nil =>
      rw [compactMembers, lexemesOfMembers]
      exact hmember
    | cons next members =>
      rw [compactMembers, lexemesOfMembers]
      exact hmember.append ((ih hkeys hvalues).symbol rfl fun _ => rfl)
        (endsNumber_cons (by decide))

/-- A document is cut into its lexemes. -/
theorem spells_compactChars {j : Json} (h : MadeOf Number.IsInt j) :
    Spells (compactChars j) j.lexemes := by
  induction h with
  | null => exact spells_lexeme rfl fun _ _ => rfl
  | bool b => cases b <;> exact spells_lexeme rfl fun _ _ => rfl
  | number h =>
    obtain ⟨i, rfl⟩ := h
    exact spells_ofInt i
  | string s => exact @spells_quoteChars (some s) rfl
  | array h ih =>
    rw [compactChars, lexemes]
    exact ((spells_compactItems ih).symbol rfl fun _ => rfl).append
      (spells_nil.symbol rfl fun _ => rfl) (endsNumber_cons (by decide))
  | object hk h ih =>
    rw [compactChars, lexemes]
    exact ((spells_compactMembers hk ih).symbol rfl fun _ => rfl).append
      (spells_nil.symbol rfl fun _ => rfl) (endsNumber_cons (by decide))

/-! ## Lines and indents -/

theorem Scans.space {c : Char} {cs : List Char} {ls : List Lexeme} (hc : isSpace c)
    (h : Scans cs ls) : Scans (c :: cs) ls := by
  intro n hn
  cases n with
  | zero => cases hn
  | succ n =>
    rw [scanWithin, if_pos hc]
    exact h n (Nat.le_of_succ_le_succ hn)

/-- Space before lexemes is skipped. -/
theorem Spells.spaces {front cs : List Char} {ls : List Lexeme} (hf : ∀ c ∈ front, isSpace c)
    (h : Spells cs ls) : Spells (front ++ cs) ls := by
  intro rest more hr hm
  induction front with
  | nil => exact h rest more hr hm
  | cons c front ih =>
    obtain ⟨hc, hfront⟩ := List.forall_mem_cons.1 hf
    exact (ih hfront).space hc

theorem isSpace_of_mem_newLine {level : Nat} : ∀ c ∈ newLine level, isSpace c := by
  intro c hc
  rcases List.mem_cons.1 hc with rfl | hc
  · rfl
  · rw [List.eq_of_mem_replicate hc]
    rfl

theorem spells_closing {c : Char} {lexeme : Lexeme} {level : Nat} (hs : isSpace c = false)
    (hl : ∀ rest, scanLexeme c rest = some (lexeme, rest)) :
    Spells (newLine level ++ [c]) [lexeme] :=
  (spells_nil.symbol hs hl).spaces isSpace_of_mem_newLine

theorem spells_prettyItems {level : Nat} {items : List Json}
    (h : ∀ item ∈ items, Spells (prettyChars level item) item.lexemes) :
    Spells (prettyItems level items) (lexemesOfItems items) := by
  induction items with
  | nil =>
    rw [prettyItems, lexemesOfItems]
    exact spells_nil
  | cons item items ih =>
    obtain ⟨hitem, hitems⟩ := List.forall_mem_cons.1 h
    have hline : Spells (newLine level ++ prettyChars level item) item.lexemes :=
      hitem.spaces isSpace_of_mem_newLine
    cases items with
    | nil =>
      rw [prettyItems, lexemesOfItems]
      exact hline
    | cons next items =>
      rw [prettyItems, lexemesOfItems]
      exact hline.append ((ih hitems).symbol rfl fun _ => rfl) (endsNumber_cons (by decide))

theorem spells_prettyMembers {level : Nat} {members : List (Option String × Json)}
    (hk : ∀ member ∈ members, member.1.isSome)
    (h : ∀ member ∈ members, Spells (prettyChars level member.2) member.2.lexemes) :
    Spells (prettyMembers level members) (lexemesOfMembers members) := by
  induction members with
  | nil =>
    rw [prettyMembers, lexemesOfMembers]
    exact spells_nil
  | cons member members ih =>
    obtain ⟨key, value⟩ := member
    obtain ⟨hkey, hkeys⟩ := List.forall_mem_cons.1 hk
    obtain ⟨hvalue, hvalues⟩ := List.forall_mem_cons.1 h
    have hspace : Spells (' ' :: prettyChars level value) value.lexemes :=
      Spells.spaces (List.forall_mem_singleton.2 rfl) hvalue
    have hline : Spells (newLine level ++ quoteChars key ++ ':' :: ' ' :: prettyChars level value)
        (.string key :: .colon :: lexemes value) :=
      ((spells_quoteChars hkey).spaces isSpace_of_mem_newLine).append
        (hspace.symbol rfl fun _ => rfl) (endsNumber_cons (by decide))
    cases members with
    | nil =>
      rw [prettyMembers, lexemesOfMembers]
      exact hline
    | cons next members =>
      rw [prettyMembers, lexemesOfMembers]
      exact hline.append ((ih hkeys hvalues).symbol rfl fun _ => rfl)
        (endsNumber_cons (by decide))

/-- A document that is written one member a line is cut into the same lexemes. -/
theorem spells_prettyChars {j : Json} (h : MadeOf Number.IsInt j) (level : Nat) :
    Spells (prettyChars level j) j.lexemes := by
  induction h generalizing level with
  | null => exact spells_lexeme rfl fun _ _ => rfl
  | bool b => cases b <;> exact spells_lexeme rfl fun _ _ => rfl
  | number h =>
    obtain ⟨i, rfl⟩ := h
    exact spells_ofInt i
  | string s => exact @spells_quoteChars (some s) rfl
  | @array items h ih =>
    rw [lexemes]
    cases items with
    | nil =>
      rw [prettyChars, lexemesOfItems]
      exact (spells_nil.symbol rfl fun _ => rfl).symbol rfl fun _ => rfl
    | cons item items =>
      have hitems := spells_prettyItems fun item hi => ih item hi (level + 1)
      rw [prettyChars, List.append_assoc]
      exact (hitems.append (spells_closing rfl fun _ => rfl)
        (endsNumber_cons (by decide))).symbol rfl fun _ => rfl
  | @object members hk h ih =>
    rw [lexemes]
    cases members with
    | nil =>
      rw [prettyChars, lexemesOfMembers]
      exact (spells_nil.symbol rfl fun _ => rfl).symbol rfl fun _ => rfl
    | cons member members =>
      have hmembers := spells_prettyMembers hk fun member hm => ih member hm (level + 1)
      rw [prettyChars, List.append_assoc]
      exact (hmembers.append (spells_closing rfl fun _ => rfl)
        (endsNumber_cons (by decide))).symbol rfl fun _ => rfl

/-! ## The machine -/

/-- The machine takes the lexemes of a document and has then ended it, whatever is open. -/
def Reads (j : Json) : Prop :=
  ∀ frames rest, Machine.run ⟨.value, frames⟩ (j.lexemes ++ rest) =
    Machine.run ⟨.ended j, frames⟩ rest

/-- No item starts with a closing bracket. -/
theorem run_valueOrClose (item : Json) (items : List Json) (frames : List Frame)
    (rest : List Lexeme) :
    Machine.run ⟨.valueOrClose, frames⟩ (lexemesOfItems (item :: items) ++ rest) =
      Machine.run ⟨.value, frames⟩ (lexemesOfItems (item :: items) ++ rest) := by
  have hitem : ∀ more, Machine.run ⟨.valueOrClose, frames⟩ (item.lexemes ++ more) =
      Machine.run ⟨.value, frames⟩ (item.lexemes ++ more) := by
    intro more
    cases item <;> rw [lexemes] <;> rfl
  cases items with
  | nil =>
    rw [lexemesOfItems]
    exact hitem rest
  | cons next items =>
    rw [lexemesOfItems, List.append_assoc]
    exact hitem _

/-- No member starts with a closing brace. -/
theorem run_keyOrClose (member : Option String × Json) (members : List (Option String × Json))
    (frames : List Frame) (rest : List Lexeme) :
    Machine.run ⟨.keyOrClose, frames⟩ (lexemesOfMembers (member :: members) ++ rest) =
      Machine.run ⟨.key [], frames⟩ (lexemesOfMembers (member :: members) ++ rest) := by
  cases members <;> rw [lexemesOfMembers] <;> rfl

theorem run_items {item : Json} {items : List Json} (h : ∀ j ∈ item :: items, Reads j)
    (before : List Json) (frames : List Frame) (rest : List Lexeme) :
    Machine.run ⟨.value, .array before :: frames⟩
        (lexemesOfItems (item :: items) ++ .rightBracket :: rest) =
      Machine.run ⟨.ended (.array (before.reverse ++ item :: items)), frames⟩ rest := by
  induction items generalizing item before with
  | nil =>
    rw [lexemesOfItems, h item List.mem_cons_self, ← List.reverse_cons]
    rfl
  | cons next items ih =>
    obtain ⟨hitem, hitems⟩ := List.forall_mem_cons.1 h
    have hrest := ih hitems (item :: before)
    rw [List.reverse_cons, List.append_assoc] at hrest
    rw [lexemesOfItems, List.append_assoc, hitem]
    exact hrest

theorem run_members {member : Option String × Json} {members : List (Option String × Json)}
    (h : ∀ m ∈ member :: members, Reads m.2) (before : List (Option String × Json))
    (frames : List Frame) (rest : List Lexeme) :
    Machine.run ⟨.key before, frames⟩
        (lexemesOfMembers (member :: members) ++ .rightBrace :: rest) =
      Machine.run ⟨.ended (.object (before.reverse ++ member :: members)), frames⟩ rest := by
  induction members generalizing member before with
  | nil =>
    obtain ⟨key, value⟩ := member
    have hvalue : Reads value := h (key, value) List.mem_cons_self
    have hv := hvalue (.object before key :: frames) (.rightBrace :: rest)
    rw [lexemesOfMembers, ← List.reverse_cons]
    exact hv
  | cons next members ih =>
    obtain ⟨key, value⟩ := member
    obtain ⟨hvalue, hvalues⟩ := List.forall_mem_cons.1 h
    have hrest := ih hvalues ((key, value) :: before)
    rw [List.reverse_cons, List.append_assoc] at hrest
    have hv := hvalue (.object before key :: frames)
      (.comma :: lexemesOfMembers (next :: members) ++ .rightBrace :: rest)
    rw [lexemesOfMembers, List.append_assoc]
    exact hv.trans hrest

theorem reads_array {items : List Json} (h : ∀ item ∈ items, Reads item) :
    Reads (.array items) := by
  intro frames rest
  rw [lexemes]
  cases items with
  | nil =>
    rw [lexemesOfItems]
    rfl
  | cons item items =>
    have hi := run_items h [] frames rest
    rw [← run_valueOrClose] at hi
    rw [List.append_assoc]
    exact hi

theorem reads_object {members : List (Option String × Json)}
    (h : ∀ member ∈ members, Reads member.2) : Reads (.object members) := by
  intro frames rest
  rw [lexemes]
  cases members with
  | nil =>
    rw [lexemesOfMembers]
    rfl
  | cons member members =>
    have hm := run_members h [] frames rest
    rw [← run_keyOrClose] at hm
    rw [List.append_assoc]
    exact hm

/-- A document is what the machine reads from its lexemes. -/
theorem MadeOf.reads {P : Number → Prop} {j : Json} (h : MadeOf P j) : Reads j := by
  induction h with
  | null | bool | number | string =>
    intro frames rest
    rw [lexemes]
    rfl
  | array h ih => exact reads_array ih
  | object hk h ih => exact reads_object ih

/-- A document is read back from every text that spells its lexemes. -/
theorem read?_of_spells {j : Json} {cs : List Char} (hs : Spells cs j.lexemes) (hr : Reads j) :
    read? (String.ofList cs) = some j := by
  have hc : scan (String.ofList cs).toList = some j.lexemes := by
    have hn : EndsNumber [] := nofun
    have hj := hs [] [] hn scans_nil
    rw [List.append_nil, List.append_nil] at hj
    rw [String.toList_ofList]
    exact hj _ (Nat.le_refl _)
  have hm : Machine.run Machine.start j.lexemes = some ⟨.ended j, []⟩ := by
    have hj := hr [] []
    rwa [List.append_nil] at hj
  rw [read?, hc, Option.bind_some, ofLexemes?, hm]
  rfl

/-- A document of texts and integers is read back from the text it is written as. -/
theorem read?_compact {j : Json} (h : MadeOf Number.IsInt j) : read? j.compact = some j :=
  read?_of_spells (spells_compactChars h) h.reads

/-- So it is when it is written one member a line. -/
theorem read?_pretty {j : Json} (h : MadeOf Number.IsInt j) : read? j.pretty = some j :=
  read?_of_spells (spells_prettyChars h 0) h.reads

/-- Different documents are written differently. -/
theorem compact_injOn {i j : Json} (hi : MadeOf Number.IsInt i) (hj : MadeOf Number.IsInt j)
    (h : i.compact = j.compact) : i = j := by
  have hr := read?_compact hi
  rw [h, read?_compact hj] at hr
  exact (Option.some.inj hr).symm

end BlockScript.Json
