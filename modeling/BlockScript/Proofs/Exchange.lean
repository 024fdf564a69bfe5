import BlockScript.Proofs.Places
import BlockScript.Proofs.AllOrNothing
import BlockScript.Proofs.Growth
import Mathlib.Logic.Equiv.Basic

/-!
# Swapping two places

A place that is there writes its own slot and no other, and leaves the names, the lengths and the
outputs as they are (`Place.exists_written`). A swap writes two slots with values from before both
writes, so that the slots are exchanged even where they are one (`State.Written.exchanged`).

The places of a swap are those that its texts stand for in the state before it
(`Place.standsFor_iff`). Where a swap does not come to writing, the fault is the first that can be
raised against its texts (`swapFaults`): the first text is not read or is no place, the second is
not read or is no place, one is a variable and the other an element, the first place is not there,
the second place is not there.
-/

set_option autoImplicit false

namespace BlockScript

open Outcome

/-! ## Writing and exchanging slots -/

/-- Two states have the same names in the same order, arrays of the same lengths and the same
outputs. -/
structure State.SameShape (s s' : State) : Prop where
  varNames : s'.vars.names = s.vars.names
  arrayNames : s'.arrays.names = s.arrays.names
  sizes : ∀ name, (s'.elementsOf? name).map Array.size = (s.elementsOf? name).map Array.size
  outputs : s'.outputs = s.outputs

/-- The values in two slots are exchanged, which may be one slot, and nothing else changes. -/
structure State.Exchanged (a b : Slot) (s s' : State) : Prop extends State.SameShape s s' where
  at? : ∀ slot, s'.at? slot = s.at? (Equiv.swap a b slot)

/-- A value is written into a slot, and nothing else changes. -/
structure State.Written (a : Slot) (value : Value) (s s' : State) : Prop
    extends State.SameShape s s' where
  at? : ∀ slot, s'.at? slot = if slot = a then some value else s.at? slot

theorem State.SameShape.trans {s s' s'' : State} (h : s.SameShape s') (h' : s'.SameShape s'') :
    s.SameShape s'' where
  varNames := h'.varNames.trans h.varNames
  arrayNames := h'.arrayNames.trans h.arrayNames
  sizes name := (h'.sizes name).trans (h.sizes name)
  outputs := h'.outputs.trans h.outputs

/-- Two writes, each of the value that the other slot had, exchange the slots. -/
theorem State.Written.exchanged {a b : Slot} {v w : Value} {s s' s'' : State}
    (ha : s.at? a = some v) (hb : s.at? b = some w) (h : Written a w s s')
    (h' : Written b v s' s'') : Exchanged a b s s'' where
  toSameShape := h.toSameShape.trans h'.toSameShape
  at? slot := by
    rw [h'.at?, h.at?, Equiv.swap_apply_def]
    by_cases hsa : slot = a
    · subst hsa
      by_cases hsb : slot = b
      · -- The two slots are one, and so are their values.
        subst hsb
        rw [if_pos rfl, if_pos rfl, ha]
      · rw [if_neg hsb, if_pos rfl, if_pos rfl, hb]
    · by_cases hsb : slot = b
      · rw [if_pos hsb, if_neg hsa, if_pos hsb, ha]
      · rw [if_neg hsb, if_neg hsa, if_neg hsa, if_neg hsb]

/-! ## Writing places -/

namespace Place

variable {s s' : State} {p : Place} {v : Value}

theorem Found.of_sameShape (h : p.Found s) (hs : s.SameShape s') : p.Found s' := by
  match p with
  | .variable name =>
    simp only [Found, Bindings.contains_iff_mem_names] at h ⊢
    rw [hs.varNames]
    exact h
  | .element name i =>
    obtain ⟨elements, ha, hj⟩ := h
    have hn := hs.sizes name
    simp only [State.elementsOf?, ha, Option.map_some, Option.map_eq_some_iff] at hn
    obtain ⟨elements', ha', hn⟩ := hn
    exact ⟨elements', ha', hn ▸ hj⟩

/-- A variable that is bound is written on its own. -/
theorem written_bindVariable {name : String} (h : s.vars.contains name) :
    State.Written (.var name) v s (s.bindVariable name v) where
  varNames := Bindings.names_insert_of_contains h v
  arrayNames := rfl
  sizes _ := rfl
  outputs := rfl
  at? slot := by
    cases slot with
    | var other =>
      by_cases ho : other = name
      · subst ho
        simp [State.at?, State.valueOf?, State.bindVariable]
      · simp [State.at?, State.valueOf?, State.bindVariable, Bindings.get?_insert_of_ne _ ho, ho]
    | cell other j => rfl

/-- A position of an array is written on its own. -/
theorem written_modify {name : String} {elements : Array Value} {j : Nat}
    (ha : s.arrays.get? name = some elements) (hj : j < elements.size) :
    State.Written (.cell name j) v s
      { s with arrays := s.arrays.modify name (·.setIfInBounds j v) } where
  varNames := rfl
  arrayNames := Bindings.names_modify _ _ _
  sizes other := by
    by_cases ho : other = name
    · subst ho
      simp [State.elementsOf?, Bindings.get?_modify_self, ha]
    · simp [State.elementsOf?, Bindings.get?_modify_of_ne _ ho]
  outputs := rfl
  at? slot := by
    cases slot with
    | var other => rfl
    | cell other k =>
      by_cases ho : other = name
      · subst ho
        by_cases hk : k = j
        · subst hk
          simp [State.at?, State.elementsOf?, Bindings.get?_modify_self, ha, hj]
        · simp [State.at?, State.elementsOf?, Bindings.get?_modify_self, ha, hk, Ne.symm hk]
      · simp [State.at?, State.elementsOf?, Bindings.get?_modify_of_ne _ ho, ho]

/-- A place that is there can be written, which writes its slot and nothing else. -/
theorem exists_written (h : p.Found s) (v : Value) :
    ∃ s', p.write s v = .done s' ∧ State.Written p.slot v s s' := by
  match p with
  | .variable name => exact ⟨_, if_pos h, written_bindVariable h⟩
  | .element name i =>
    obtain ⟨elements, ha, hj⟩ := h
    obtain ⟨j, hj⟩ := Option.isSome_iff_exists.1 hj
    have hlt := State.position?_lt hj
    obtain ⟨-, -, rfl⟩ := State.position?_eq_some_iff.1 hj
    refine ⟨_, ?_, written_modify ha hlt⟩
    simp only [write, State.setElement, ha, Option.map_some, hj]

/-! ## The places that texts stand for -/

/-- A text stands for a place of a state: as a name, for a variable that is bound, and as an
element, for the position in an array that the index has as its value. -/
inductive StandsFor (s : State) (text : String) : Place → Prop
  | name {value : Value} (hn : Text.isName text) (hv : s.valueOf? text = some value) :
      StandsFor s text (.variable text)
  | element {e : Expr} {t opening closing : Token} {index : Phrase .sum} {i : Value}
      {elements : Array Value} (hp : Expr.parse text = .ok e) (ht : t.kind = .name)
      (ho : opening.kind = .leftBracket) (hc : closing.kind = .rightBracket)
      (hs : Piece.scan text = (t :: opening :: (index.tokens ++ [closing])).map .token)
      (hi : index.tree.eval s = .ok i) (ha : s.elementsOf? t.name = some elements)
      (hj : 0 ≤ i.toInt ∧ i.toInt < elements.size) : StandsFor s text (.element t.name i)

variable {text : String}

theorem found_element_iff {name : String} {i : Value} :
    (element name i).Found s ↔ ∃ elements, s.elementsOf? name = some elements ∧
      0 ≤ i.toInt ∧ i.toInt < elements.size := by
  simp only [Found, State.elementsOf?, State.position?, Option.isSome_ite]

/-- A name resolves to its variable. -/
theorem resolve_name (htrim : Text.trim text = text) (hn : Text.isName text) :
    resolve s text = .ok (some p) ↔ p = .variable text ∧ (Place.variable text).Found s := by
  obtain ⟨t, ht, hs⟩ := Piece.scan_eq_name_iff.2 (htrim.symm ▸ hn)
  have hname : t.name = text := (Piece.trim_of_scan hs).symm.trans htrim
  have hc := Phrase.covers_name hs
  have hp := parse_name ht hs
  rw [hname] at hc hp
  rw [resolve, parseText, hp, found_iff_read]
  simp only [ok_bind, hc, bind_eq_ok, Fault.within_eq_ok_iff, Expr.blame_eq_ok_iff, read]
  constructor
  · rintro ⟨v, hv, h⟩
    cases h
    exact ⟨rfl, v, hv⟩
  · rintro ⟨rfl, v, hv⟩
    exact ⟨v, hv, rfl⟩

/-- An element resolves to the element of its array at the value of its index. -/
theorem resolve_element {e : Expr} {t opening closing : Token} {index : Phrase .sum}
    (hp : Expr.parse text = .ok e) (ht : t.kind = .name) (ho : opening.kind = .leftBracket)
    (hc : closing.kind = .rightBracket)
    (hs : Piece.scan text = (t :: opening :: (index.tokens ++ [closing])).map .token) :
    resolve s text = .ok (some p) ↔
      ∃ i, index.tree.eval s = .ok i ∧ p = .element t.name i ∧
        (Place.element t.name i).Found s := by
  have hcov := Phrase.covers_element index hs
  have he : e = .element t.name index.tree (t.span.through closing.span) :=
    (Expr.eq_tree_of_parse hp (.ofOperand (.element t opening index closing ht ho hc)) hs).1
  rw [resolve, parseText, hp, he]
  simp only [ok_bind, hcov, bind_eq_ok, Fault.within_eq_ok_iff, Expr.blame_eq_ok_iff,
    found_iff_read, read]
  constructor
  · rintro ⟨i, hi, v, hv, h⟩
    cases h
    exact ⟨i, hi, rfl, v, hv⟩
  · rintro ⟨i, hi, rfl, v, hv⟩
    exact ⟨i, hi, v, hv, rfl⟩

/-- A trimmed text resolves to the place that it stands for. -/
theorem standsFor_iff (ht : Text.Trimmed text.toList) :
    StandsFor s text p ↔ resolve s text = .ok (some p) := by
  have htrim := Text.trim_of_trimmed ht
  constructor
  · intro h
    cases h with
    | name hn hv =>
      refine (resolve_name htrim hn).2 ⟨rfl, ?_⟩
      simp [Found, Bindings.contains, show s.vars.get? text = _ from hv]
    | element hp ht ho hc hs hi ha hj =>
      exact (resolve_element hp ht ho hc hs).2 ⟨_, hi, rfl, found_element_iff.2 ⟨_, ha, hj⟩⟩
  · intro h
    have hk := classify_of_resolve h
    rw [Option.map_some] at hk
    rcases hkind : p.kind with _ | _
    · rw [hkind, classify_eq_variable_iff, htrim] at hk
      obtain ⟨rfl, hf⟩ := (resolve_name htrim hk).1 h
      obtain ⟨v, hv⟩ := Option.isSome_iff_exists.1 hf
      exact .name hk hv
    · rw [hkind, classify_eq_element_iff] at hk
      obtain ⟨⟨e, hp⟩, t, opening, index, closing, ht, ho, hc, hs⟩ := hk
      obtain ⟨i, hi, rfl, hf⟩ := (resolve_element hp ht ho hc hs).1 h
      obtain ⟨elements, ha, hj⟩ := found_element_iff.1 hf
      exact .element hp ht ho hc hs hi ha hj

/-! ## Faults of operands -/

/-- The fault of a text that is not read. -/
def Unread (text : String) (f : Fault) : Prop :=
  ∃ error, Expr.parse text = .error error ∧ f = .inText text (.syntaxError error) error.span

/-- The fault of a trimmed text that is read and is no place. -/
def Misplaced (text : String) (f : Fault) : Prop :=
  (∃ e, Expr.parse text = .ok e) ∧ ¬Text.isName text ∧ ¬SpellsElement text ∧
    f = .bare (.invalidSwapOperand text)

/-- The fault of two trimmed texts of which one is a variable and one is an element. -/
def Mismatched (first second : String) (f : Fault) : Prop :=
  (Text.isName first ∧ SpellsElement second ∨ SpellsElement first ∧ Text.isName second) ∧
    f = .bare .incompatibleSwap

theorem misplaced_iff (ht : Text.Trimmed text.toList) {f : Fault} :
    Misplaced text f ↔ classify text = .ok none ∧ f = .bare (.invalidSwapOperand text) := by
  rw [classify_eq_none_iff, Text.trim_of_trimmed ht, Misplaced, and_assoc, and_assoc]

theorem isName_iff_of_classify (ht : Text.Trimmed text.toList) {k : PlaceKind}
    (hk : classify text = .ok (some k)) : Text.isName text ↔ k = .variable := by
  have h : classify text = .ok (some .variable) ↔ _ := classify_eq_variable_iff
  rw [hk, Text.trim_of_trimmed ht] at h
  simpa using h.symm

theorem spellsElement_iff_of_classify {k : PlaceKind} (hk : classify text = .ok (some k)) :
    SpellsElement text ↔ k = .element := by
  have h : classify text = .ok (some .element) ↔ _ := classify_eq_element_iff
  obtain ⟨d, hp, -⟩ := exists_phrase_of_classify hk
  rw [hk, and_iff_right ⟨_, hp⟩] at h
  simpa using h.symm

theorem mismatched_iff {first second : String} (h1 : Text.Trimmed first.toList)
    (h2 : Text.Trimmed second.toList) {k k' : PlaceKind} (hk : classify first = .ok (some k))
    (hk' : classify second = .ok (some k')) {f : Fault} :
    Mismatched first second f ↔ k ≠ k' ∧ f = .bare .incompatibleSwap := by
  rw [Mismatched, isName_iff_of_classify h1 hk, isName_iff_of_classify h2 hk',
    spellsElement_iff_of_classify hk, spellsElement_iff_of_classify hk']
  refine and_congr_left fun _ => ?_
  cases k <;> cases k' <;> simp

end Place

/-! ## Swaps -/

/-- A fault of the first kind of which there is one. -/
def Fault.FirstOf : List (Fault → Prop) → Fault → Prop
  | [], _ => False
  | raised :: later, f => raised f ∨ (∀ f', ¬raised f') ∧ FirstOf later f

/-- A kind of which there is no fault counts for nothing. -/
theorem Fault.firstOf_cons {raised : Fault → Prop} {later : List (Fault → Prop)} {f : Fault}
    (h : ∀ f', ¬raised f') : FirstOf (raised :: later) f ↔ FirstOf later f := by
  simp only [FirstOf, h, false_or, not_false_iff, implies_true, true_and]

/-- What can be raised against a swap of two trimmed texts in a state, in this order. -/
def swapFaults (first second : String) (s : State) : List (Fault → Prop) :=
  [Place.Unread first, Place.Misplaced first, Place.Unread second, Place.Misplaced second,
    Place.Mismatched first second, fun f => Place.resolve s first = .error f,
    fun f => Place.resolve s second = .error f]

section
variable {s : State} {text : String} {later : List (Fault → Prop)} {f : Fault}

/-- Telling the kind of an operand raises the faults of its text. -/
theorem fault?_given_classify {next : PlaceKind → Outcome} (ht : Text.Trimmed text.toList)
    (hn : ∀ k, Place.classify text = .ok (some k) →
      ((next k).fault? = some f ↔ Fault.FirstOf later f)) :
    (given s (Place.classify text >>= orNoOperand text) next).fault? = some f ↔
      Fault.FirstOf (Place.Unread text :: Place.Misplaced text :: later) f := by
  have hu : ∀ f, Place.Unread text f ↔ Place.classify text = .error f :=
    fun f => Place.classify_eq_error_iff.symm
  simp only [Fault.FirstOf, hu, Place.misplaced_iff ht]
  cases hk : Place.classify text with
  | error f' => simp [given, fault?, eq_comm]
  | ok k? =>
    cases k? with
    | none => simp [given, fault?, orNoOperand, eq_comm]
    | some k => simpa [given, orNoOperand] using hn k hk

/-- Resolving an operand that is a place raises the fault of its place. -/
theorem fault?_given_resolve {next : Place → Outcome} {k : PlaceKind}
    (hk : Place.classify text = .ok (some k))
    (hn : ∀ p, Place.resolve s text = .ok (some p) →
      ((next p).fault? = some f ↔ Fault.FirstOf later f)) :
    (given s (Place.resolve s text >>= orNoOperand text) next).fault? = some f ↔
      Fault.FirstOf ((fun f => Place.resolve s text = .error f) :: later) f := by
  rcases Place.resolve_cases hk s with ⟨p, hp⟩ | ⟨f', hr⟩
  · simpa [Fault.FirstOf, given, orNoOperand, hp] using hn p hp
  · simp [Fault.FirstOf, given, fault?, hr, eq_comm]

end

/-- What two places of a state hold can be exchanged. -/
theorem exists_exchanged {s : State} {p q : Place} (hp : p.Found s) (hq : q.Found s) :
    ∃ s', (given s (Fault.ofCause (p.read s)) fun a => given s (Fault.ofCause (q.read s)) fun b =>
        (p.write s b).andThen fun s' => q.write s' a) = .done s' ∧
      s.Exchanged p.slot q.slot s' := by
  obtain ⟨a, ha⟩ := Place.found_iff_read.1 hp
  obtain ⟨b, hb⟩ := Place.found_iff_read.1 hq
  obtain ⟨s', hw, hs⟩ := Place.exists_written hp b
  obtain ⟨s'', hw', hs'⟩ := Place.exists_written (hq.of_sameShape hs.toSameShape) a
  refine ⟨s'', ?_, hs.exchanged (Place.at?_of_read ha) (Place.at?_of_read hb) hs'⟩
  rw [ha, hb]
  show ((p.write s b).andThen fun s' => q.write s' a) = .done s''
  rw [hw, done_andThen, hw']

section
variable {first second : String} {s : State}

/-- A swap whose texts resolve to places of one kind exchanges these places. -/
theorem runSwap_of_resolve {p q : Place} (hp : Place.resolve s (Text.trim first) = .ok (some p))
    (hq : Place.resolve s (Text.trim second) = .ok (some q)) (hk : p.kind = q.kind) :
    ∃ s', runSwap first second s = .done s' ∧ s.Exchanged p.slot q.slot s' := by
  have hkp : Place.classify (Text.trim first) = .ok (some p.kind) := Place.classify_of_resolve hp
  have hkq : Place.classify (Text.trim second) = .ok (some q.kind) := Place.classify_of_resolve hq
  obtain ⟨s', hw, hs⟩ := exists_exchanged (Place.found_of_resolve hp) (Place.found_of_resolve hq)
  refine ⟨s', ?_, hs⟩
  simp only [runSwap, hkp, hkq, hp, hq, ok_bind, orNoOperand, given_ok, if_pos hk]
  exact hw

/-- The texts of a swap that is done resolve to places of one kind. -/
theorem resolve_of_runSwap {s' : State} (h : runSwap first second s = .done s') :
    ∃ p q, Place.resolve s (Text.trim first) = .ok (some p) ∧
      Place.resolve s (Text.trim second) = .ok (some q) ∧ p.kind = q.kind := by
  obtain ⟨k, hk, h⟩ := given_eq_done.1 h
  obtain ⟨k', hk', h⟩ := given_eq_done.1 h
  split at h
  · next hkk =>
    obtain ⟨p, hp, h⟩ := given_eq_done.1 h
    obtain ⟨q, hq, -⟩ := given_eq_done.1 h
    have hp := operand_eq_ok hp
    have hq := operand_eq_ok hq
    have hkp := (Place.classify_of_resolve hp).symm.trans (operand_eq_ok hk)
    have hkq := (Place.classify_of_resolve hq).symm.trans (operand_eq_ok hk')
    refine ⟨p, q, hp, hq, ?_⟩
    simp only [Option.map_some, Except.ok.injEq, Option.some.injEq] at hkp hkq
    rw [hkp, hkq, hkk]
  · cases h

/-- A swap fails with the first fault that can be raised against it. -/
theorem fault?_runSwap {f : Fault} :
    (runSwap first second s).fault? = some f ↔
      Fault.FirstOf (swapFaults (Text.trim first) (Text.trim second) s) f := by
  have h1 := Text.trimmed_trim first
  have h2 := Text.trimmed_trim second
  refine fault?_given_classify h1 fun k hk => fault?_given_classify h2 fun k' hk' => ?_
  split
  · next hkk =>
    rw [Fault.firstOf_cons fun f' hf => ((Place.mismatched_iff h1 h2 hk hk').1 hf).1 hkk]
    refine fault?_given_resolve hk fun p hp => fault?_given_resolve hk' fun q hq => ?_
    -- Both places are there, and nothing is left that could be raised.
    obtain ⟨s', hw, -⟩ := exists_exchanged (Place.found_of_resolve hp) (Place.found_of_resolve hq)
    rw [hw]
    exact ⟨nofun, nofun⟩
  · next hkk =>
    simp [Fault.FirstOf, Place.mismatched_iff h1 h2 hk hk', fault?, hkk, eq_comm]

end

/-- A swap is done exactly when its trimmed texts stand for places of one kind, and then exchanges
what these hold and changes nothing else. If it fails, the state stays as it was, and the fault is
the first of `swapFaults`. -/
theorem swap_exchanges (ceiling : Nat) (first second : String) (s : State) :
    ((∃ s', (Statement.swap first second).exec ceiling s = .done s') ↔
      ∃ p q, Place.StandsFor s (Text.trim first) p ∧ Place.StandsFor s (Text.trim second) q ∧
        p.kind = q.kind) ∧
    (∀ s' p q, (Statement.swap first second).exec ceiling s = .done s' →
      Place.StandsFor s (Text.trim first) p → Place.StandsFor s (Text.trim second) q →
      s.Exchanged p.slot q.slot s') ∧
    ∀ f s', (Statement.swap first second).exec ceiling s = .failed f s' ↔
      s' = s ∧ Fault.FirstOf (swapFaults (Text.trim first) (Text.trim second) s) f := by
  have h1 := Text.trimmed_trim first
  have h2 := Text.trimmed_trim second
  rw [Statement.exec]
  simp only [Place.standsFor_iff h1, Place.standsFor_iff h2]
  refine ⟨⟨?_, ?_⟩, ?_, ?_⟩
  · rintro ⟨s', h⟩
    exact resolve_of_runSwap h
  · rintro ⟨p, q, hp, hq, hk⟩
    obtain ⟨s', h, -⟩ := runSwap_of_resolve hp hq hk
    exact ⟨s', h⟩
  · intro s' p q h hp hq
    obtain ⟨p', q', hp', hq', hk⟩ := resolve_of_runSwap h
    cases hp.symm.trans hp'
    cases hq.symm.trans hq'
    obtain ⟨s'', h', hs⟩ := runSwap_of_resolve hp hq hk
    cases h.symm.trans h'
    exact hs
  · intro f s'
    rw [← fault?_runSwap]
    have hs := allOrNothing_swap s first second
    cases h : runSwap first second s with
    | done s'' => exact ⟨nofun, nofun⟩
    | failed f' s'' =>
      cases hs f' s'' h
      simp [fault?, and_comm, eq_comm]

-- The second index is read before anything is written, though it reads what the swap writes.
example :
    (Statement.swap " a[0]" "a[a[0]]\u3000").exec 0 ⟨.empty, ⟨[("a", #[1, 5])]⟩, #[]⟩ =
      .done ⟨.empty, ⟨[("a", #[5, 1])]⟩, #[]⟩ := by
  decide +kernel

end BlockScript
