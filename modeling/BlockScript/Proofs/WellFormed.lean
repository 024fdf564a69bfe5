import BlockScript.Proofs.Growth
import BlockScript.Proofs.Tokens
import Mathlib.Algebra.Group.Nat.Defs

/-!
# Well-formed states

A state does not check what is put into it. It stays in order because every statement does:
`State.WellFormed` says that names are distinct and spelled as names, and that arrays have at least
one element and not too many. Each change that a statement makes keeps this
(`Statement.obeys_wellFormed`), so that it holds after any number of programs on one state, each
done or failed (`executeAll_wellFormed`). Only filling an array is not held to the limit of
declared arrays; the length is then the number of items that were typed.
-/

set_option autoImplicit false

namespace BlockScript

namespace Text

/-- The texts of the form `[a-zA-Z_][a-zA-Z0-9_]*`. -/
def IsIdentifier (s : String) : Prop :=
  ∃ c cs, s.toList = c :: cs ∧
    (('a' ≤ c ∧ c ≤ 'z') ∨ ('A' ≤ c ∧ c ≤ 'Z') ∨ c = '_') ∧
    ∀ d ∈ cs, ('a' ≤ d ∧ d ≤ 'z') ∨ ('A' ≤ d ∧ d ≤ 'Z') ∨ ('0' ≤ d ∧ d ≤ '9') ∨ d = '_'

theorem isNameStart_iff {c : Char} :
    isNameStart c ↔ ('a' ≤ c ∧ c ≤ 'z') ∨ ('A' ≤ c ∧ c ≤ 'Z') ∨ c = '_' := by
  simp only [isNameStart, isAlpha_iff, Bool.or_eq_true, beq_iff_eq]
  tauto

theorem isNameChar_iff {c : Char} :
    isNameChar c ↔
      ('a' ≤ c ∧ c ≤ 'z') ∨ ('A' ≤ c ∧ c ≤ 'Z') ∨ ('0' ≤ c ∧ c ≤ '9') ∨ c = '_' := by
  simp only [isNameChar, Char.isAlphanum, isAlpha_iff, Char.isDigit, Bool.or_eq_true,
    Bool.and_eq_true, decide_eq_true_eq, beq_iff_eq, Char.le_def]
  tauto

theorem isIdentifier_of_isName {s : String} (h : isName s) : IsIdentifier s := by
  unfold isName at h
  cases hs : s.toList with
  | nil => rw [hs] at h; cases h
  | cons c cs =>
    rw [hs, isNameChars, Bool.and_eq_true, List.all_eq_true] at h
    exact ⟨c, cs, hs, isNameStart_iff.1 h.1, fun d hd => isNameChar_iff.1 (h.2 d hd)⟩

theorem length_splitCommas (cs : List Char) : (splitCommas cs).length = cs.count ',' + 1 := by
  induction cs with
  | nil => rfl
  | cons c cs ih =>
    rw [splitCommas]
    by_cases hc : c = ','
    · simp [hc, ih]
    · have hn : (splitCommas cs).length ≠ 0 := by omega
      cases hs : splitCommas cs with
      | nil => rw [hs] at hn; exact absurd rfl hn
      | cons piece pieces =>
        rw [hs] at ih
        simpa [hc] using ih

/-- A list has one item more than it has commas. -/
theorem length_splitList (s : String) : (splitList s).length = s.toList.count ',' + 1 := by
  rw [splitList, List.length_map, length_splitCommas]

end Text

/-! ## Bindings -/

namespace Bindings

variable {α : Type}

/-- The names are names, and all are different. -/
structure Proper (b : Bindings α) : Prop where
  distinct : b.names.Nodup
  named : ∀ name ∈ b.names, Text.isName name

namespace Proper

variable {b : Bindings α} {name : String}

theorem empty : (Bindings.empty : Bindings α).Proper :=
  ⟨List.nodup_nil, fun _ h => nomatch h⟩

theorem insert (h : b.Proper) (hn : Text.isName name) (content : α) :
    (b.insert name content).Proper := by
  have hi := b.names_insert_eq name content
  split at hi
  · exact ⟨hi ▸ h.distinct, hi ▸ h.named⟩
  · next hm =>
    refine ⟨?_, ?_⟩
    · rw [hi]
      exact h.distinct.append (List.nodup_singleton name) (by simpa using hm)
    · rw [hi]
      exact List.forall_mem_append.2 ⟨h.named, List.forall_mem_singleton.2 hn⟩

/-- A name that is bound already has been checked. -/
theorem insert_of_contains (h : b.Proper) (hc : b.contains name) (content : α) :
    (b.insert name content).Proper :=
  h.insert (h.named name (contains_iff_mem_names.1 hc)) content

theorem modify (h : b.Proper) (name : String) (f : α → α) : (b.modify name f).Proper := by
  have hn := b.names_modify name f
  exact ⟨hn ▸ h.distinct, hn ▸ h.named⟩

theorem erase (h : b.Proper) (name : String) : (b.erase name).Proper := by
  have hn := b.names_erase name
  refine ⟨?_, fun other ho => h.named other ?_⟩
  · rw [hn]
    exact h.distinct.erase name
  · rw [hn] at ho
    exact List.mem_of_mem_erase ho

end Proper

theorem mem_entries_modify {b : Bindings α} {name : String} {f : α → α} {entry : String × α}
    (h : entry ∈ (b.modify name f).entries) :
    entry ∈ b.entries ∨ ∃ old ∈ b.entries, entry.2 = f old.2 := by
  obtain ⟨entries⟩ := b
  simp only [modify] at h ⊢
  induction entries with
  | nil => cases h
  | cons first rest ih =>
    obtain ⟨key, content⟩ := first
    by_cases hk : key = name
    · rw [modifyFirst, if_pos hk] at h
      rcases List.mem_cons.1 h with rfl | h
      · exact .inr ⟨(key, content), List.mem_cons_self, rfl⟩
      · exact .inl (List.mem_cons_of_mem _ h)
    · rw [modifyFirst, if_neg hk] at h
      rcases List.mem_cons.1 h with rfl | h
      · exact .inl List.mem_cons_self
      · rcases ih h with h | ⟨old, ho, he⟩
        · exact .inl (List.mem_cons_of_mem _ h)
        · exact .inr ⟨old, List.mem_cons_of_mem _ ho, he⟩

theorem mem_entries_insert {b : Bindings α} {name : String} {content : α} {entry : String × α}
    (h : entry ∈ (b.insert name content).entries) : entry ∈ b.entries ∨ entry.2 = content := by
  unfold insert at h
  split at h
  · rcases mem_entries_modify h with h | ⟨old, -, he⟩
    · exact .inl h
    · exact .inr he
  · rcases List.mem_append.1 h with h | h
    · exact .inl h
    · rw [List.mem_singleton.1 h]
      exact .inr rfl

end Bindings

/-! ## States -/

/-- Names are in order, and every array has from one to `bound` elements. -/
structure State.WellFormed (bound : Nat) (s : State) : Prop where
  vars : s.vars.Proper
  arrays : s.arrays.Proper
  sizes : ∀ entry ∈ s.arrays.entries, 0 < entry.2.size ∧ entry.2.size ≤ bound

namespace State.WellFormed

variable {bound : Nat} {s : State}

theorem empty (bound : Nat) : State.empty.WellFormed bound :=
  ⟨.empty, .empty, fun _ h => nomatch h⟩

theorem insertArray (h : s.WellFormed bound) {name : String} {elements : Array Value}
    (hn : Text.isName name) (he : 0 < elements.size ∧ elements.size ≤ bound) :
    State.WellFormed bound { s with arrays := s.arrays.insert name elements } := by
  refine ⟨h.vars, h.arrays.insert hn elements, fun entry hm => ?_⟩
  rcases Bindings.mem_entries_insert hm with hm | hc
  · exact h.sizes entry hm
  · rw [hc]
    exact he

theorem modifyArray (h : s.WellFormed bound) (name : String) {f : Array Value → Array Value}
    (hf : ∀ elements : Array Value, 0 < elements.size ∧ elements.size ≤ bound →
      0 < (f elements).size ∧ (f elements).size ≤ bound) :
    State.WellFormed bound { s with arrays := s.arrays.modify name f } := by
  refine ⟨h.vars, h.arrays.modify name f, fun entry hm => ?_⟩
  rcases Bindings.mem_entries_modify hm with hm | ⟨old, ho, he⟩
  · exact h.sizes entry hm
  · rw [he]
    exact hf old.2 (h.sizes old ho)

end State.WellFormed

theorem law_wellFormed (bound : Nat) :
    Outcome.Law fun s o => s.WellFormed bound → o.state.WellFormed bound where
  done _ := id
  andThen {s o next} h hn hs := by
    cases o with
    | done s' => exact hn s' rfl (h hs)
    | failed f s' => exact h hs
  forget _ h hs := { h hs with vars := (h hs).vars.erase _ }

/-- A part keeps a state well-formed when its declared arrays and its lists are within the bound. -/
theorem Statement.obeys_wellFormed {bound : Nat} (hb : State.maxArrayLength ≤ bound) {t : Statement}
    (hf : ∀ name values, t = .fill name values → values.toList.count ',' + 1 ≤ bound) :
    t.Obeys fun s o => s.WellFormed bound → o.state.WellFormed bound where
  raises _ := id
  acts h hs := by
    cases h with
    | declare _ hn | count hn => exact { hs with vars := hs.vars.insert hn _ }
    | assign hc | swapVariable hc => exact { hs with vars := hs.vars.insert_of_contains hc _ }
    | output => exact { hs with }
    | declareArray hn h =>
      refine hs.insertArray hn ?_
      rw [Array.size_replicate]
      omega
    | assignElement | swapElement =>
      refine hs.modifyArray _ fun elements he => ?_
      rwa [Array.size_setIfInBounds]
    | fill h =>
      have hl := hf _ _ rfl
      rw [Text.length_splitList] at h
      exact hs.modifyArray _ fun _ _ => by omega

/-! ## Programs -/

namespace Program

/-- A program ends in the same state as the block of its statements. -/
theorem state_runFrom (ceiling index : Nat) (statements : List Statement) (s : State) :
    (runFrom ceiling index statements s).state =
      (Statement.execBlock ceiling statements s).state := by
  rw [← outcome_runFrom ceiling index, Report.state_outcome]

/-- How many items the lists have that arrays are filled from, anywhere in a program. -/
def fillSizes (p : Program) : List Nat :=
  (Statement.partsOfBlock p.statements).filterMap fun
    | .fill _ values => some (values.toList.count ',' + 1)
    | _ => none

/-- The number of items in the longest list that an array is filled from, zero without a list. -/
def longestFill (programs : List Program) : Nat :=
  (programs.flatMap fillSizes).max?.getD 0

/-- Runs programs one after the other on one state, each under its own ceiling. A program that
fails leaves the state it has reached to the next. -/
def executeAll (runs : List (Nat × Program)) (s : State) : State :=
  runs.foldl (fun s run => (run.2.execute run.1 s).state) s

theorem le_longestFill {programs : List Program} {p : Program} (hp : p ∈ programs)
    {name values : String} (h : .fill name values ∈ Statement.partsOfBlock p.statements) :
    values.toList.count ',' + 1 ≤ longestFill programs := by
  refine List.le_max?_getD_of_mem (List.mem_flatMap.2 ⟨p, hp, ?_⟩)
  exact List.mem_filterMap.2 ⟨_, h, rfl⟩

theorem wellFormed_execute {bound : Nat} (hb : State.maxArrayLength ≤ bound) {p : Program}
    (hf : ∀ name values, .fill name values ∈ Statement.partsOfBlock p.statements →
      values.toList.count ',' + 1 ≤ bound) (ceiling : Nat) {s : State}
    (hs : s.WellFormed bound) : (p.execute ceiling s).state.WellFormed bound := by
  rw [execute, state_runFrom]
  refine Statement.execBlock_of_parts (law_wellFormed bound) p.statements (fun t ht => ?_) s hs
  refine t.obeys_wellFormed hb fun name values h => hf name values ?_
  rw [← h]
  exact ht

theorem wellFormed_executeAll {bound : Nat} (hb : State.maxArrayLength ≤ bound)
    {runs : List (Nat × Program)}
    (hf : ∀ run ∈ runs, ∀ name values,
      .fill name values ∈ Statement.partsOfBlock run.2.statements →
        values.toList.count ',' + 1 ≤ bound) {s : State} (hs : s.WellFormed bound) :
    (executeAll runs s).WellFormed bound := by
  induction runs generalizing s with
  | nil => exact hs
  | cons run runs ih =>
    obtain ⟨hrun, hruns⟩ := List.forall_mem_cons.1 hf
    exact ih hruns (wellFormed_execute hb hrun run.1 hs)

end Program

/-- After any programs on one state that starts empty, done or failed, names are distinct and
spelled as names, and every array has an element and at most as many as can be declared or as the
longest list has that an array is filled from. -/
theorem executeAll_wellFormed (runs : List (Nat × Program)) :
    (Program.executeAll runs .empty).vars.names.Nodup ∧
    (Program.executeAll runs .empty).arrays.names.Nodup ∧
    (∀ name ∈ (Program.executeAll runs .empty).vars.names, Text.IsIdentifier name) ∧
    (∀ name ∈ (Program.executeAll runs .empty).arrays.names, Text.IsIdentifier name) ∧
    ∀ entry ∈ (Program.executeAll runs .empty).arrays.entries,
      1 ≤ entry.2.size ∧
        entry.2.size ≤ max (2 ^ 20) (Program.longestFill (runs.map (·.2))) := by
  have hb : State.maxArrayLength ≤ max (2 ^ 20) (Program.longestFill (runs.map (·.2))) :=
    Nat.le_max_left _ _
  have hs : (Program.executeAll runs .empty).WellFormed
      (max (2 ^ 20) (Program.longestFill (runs.map (·.2)))) := by
    refine Program.wellFormed_executeAll hb (fun run hr name values h => ?_) (.empty _)
    exact Nat.le_trans (Program.le_longestFill (List.mem_map_of_mem hr) h) (Nat.le_max_right _ _)
  refine ⟨hs.vars.distinct, hs.arrays.distinct, fun name hn => ?_, fun name hn => ?_, hs.sizes⟩
  · exact Text.isIdentifier_of_isName (hs.vars.named name hn)
  · exact Text.isIdentifier_of_isName (hs.arrays.named name hn)

/-- A program that fails inside of a loop leaves the counter, and the next one lengthens the array
that the first has declared. -/
theorem executeAll_wellFormed_two :
    let failing : Program := ⟨[.declareArray "a" "2",
      .forLoop " i " "0" "5" "1" [.assignElement "a" "i" "1"]]⟩
    let filling : Program := ⟨[.fill "a" "1, 2, i"]⟩
    let s := Program.executeAll [(9, failing), (3, filling)] .empty
    s.arrays = ⟨[("a", #[1, 2, 2])]⟩ ∧ s.vars.names = ["i"] ∧ Text.IsIdentifier "i" ∧
      (#[1, 2, 2] : Array Value).size ≤ max (2 ^ 20) (Program.longestFill [failing, filling]) := by
  intro failing filling s
  have ha : s.arrays = ⟨[("a", #[1, 2, 2])]⟩ := by decide +kernel
  have hv : s.vars.names = ["i"] := by decide +kernel
  obtain ⟨-, -, hi, -, he⟩ := executeAll_wellFormed [(9, failing), (3, filling)]
  refine ⟨ha, hv, hi "i" ?_, (he ("a", #[1, 2, 2]) ?_).2⟩
  · change "i" ∈ s.vars.names
    rw [hv]
    exact List.mem_cons_self
  · change _ ∈ s.arrays.entries
    rw [ha]
    exact List.mem_cons_self

end BlockScript
