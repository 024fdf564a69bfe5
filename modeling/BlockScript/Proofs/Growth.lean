import BlockScript.Proofs.Parts

/-!
# What a run leaves in place

A statement only adds to a state. `State.Extends s s'` says so: the names of `s` come first among
the names of `s'`, in their order, and the outputs of `s` come first among its outputs, followed by
answers alone. The one change that takes something away is a loop that unbinds its counter, and it
only does so when the counter was not bound before the loop (`State.Extends.removeVariable`). So
every statement extends the state it starts from, done or failed (`exec_keeps_names`).
-/

set_option autoImplicit false

namespace BlockScript

namespace Bindings

variable {α : Type}

theorem find?_isSome_iff {name : String} {entries : List (String × α)} :
    (find? name entries).isSome ↔ name ∈ entries.map (·.1) := by
  induction entries with
  | nil => simp [find?]
  | cons entry rest ih =>
    obtain ⟨key, content⟩ := entry
    by_cases h : key = name
    · simp [find?, h]
    · simp only [find?, h, if_false, ih, List.map_cons, List.mem_cons, Ne.symm h, false_or]

theorem contains_iff_mem_names {b : Bindings α} {name : String} :
    b.contains name ↔ name ∈ b.names :=
  find?_isSome_iff

theorem names_modify (b : Bindings α) (name : String) (f : α → α) :
    (b.modify name f).names = b.names :=
  map_fst_modifyFirst name f b.entries

theorem names_insert_eq (b : Bindings α) (name : String) (content : α) :
    (b.insert name content).names = if name ∈ b.names then b.names else b.names ++ [name] := by
  by_cases h : b.contains name
  · rw [names_insert_of_contains h, if_pos (contains_iff_mem_names.1 h)]
  · rw [names_insert_of_not_contains h, if_neg (mt contains_iff_mem_names.2 h)]

theorem names_prefix_insert (b : Bindings α) (name : String) (content : α) :
    b.names <+: (b.insert name content).names := by
  rw [names_insert_eq]
  split
  · exact List.prefix_refl _
  · exact List.prefix_append _ _

theorem names_erase (b : Bindings α) (name : String) :
    (b.erase name).names = b.names.erase name := by
  obtain ⟨entries⟩ := b
  simp only [names, erase]
  induction entries with
  | nil => rfl
  | cons entry rest ih =>
    obtain ⟨key, content⟩ := entry
    by_cases h : key = name
    · simp [eraseFirst, h]
    · simp [eraseFirst, h, ih]

/-- Erasing a name that was added keeps the names it was added to. -/
theorem names_prefix_erase {b b' : Bindings α} {name : String} (hn : name ∉ b.names)
    (h : b.names <+: b'.names) : b.names <+: (b'.erase name).names := by
  obtain ⟨added, h⟩ := h
  rw [names_erase, ← h, List.erase_append_right _ hn]
  exact List.prefix_append _ _

end Bindings

/-- The first state with more names, and with more answers in its outputs. -/
structure State.Extends (s s' : State) : Prop where
  vars : s.vars.names <+: s'.vars.names
  arrays : s.arrays.names <+: s'.arrays.names
  outputs : ∃ values : List Value,
    s'.outputs.toList = s.outputs.toList ++ values.map fun v => "answer = " ++ v.text

namespace State.Extends

variable {s s' s'' : State}

theorem refl (s : State) : s.Extends s :=
  ⟨List.prefix_refl _, List.prefix_refl _, [], by simp⟩

theorem trans (h : s.Extends s') (h' : s'.Extends s'') : s.Extends s'' := by
  obtain ⟨values, hv⟩ := h.outputs
  obtain ⟨values', hv'⟩ := h'.outputs
  refine ⟨h.vars.trans h'.vars, h.arrays.trans h'.arrays, values ++ values', ?_⟩
  rw [hv', hv, List.map_append, List.append_assoc]

theorem bindVariable (s : State) (name : String) (value : Value) :
    s.Extends (s.bindVariable name value) :=
  { refl s with vars := s.vars.names_prefix_insert name value }

theorem appendAnswer (s : State) (value : Value) :
    s.Extends (s.appendOutput ("answer = " ++ value.text)) :=
  { refl s with outputs := ⟨[value], Array.toList_push⟩ }

theorem insertArray (s : State) (name : String) (elements : Array Value) :
    s.Extends { s with arrays := s.arrays.insert name elements } :=
  { refl s with arrays := s.arrays.names_prefix_insert name elements }

theorem modifyArray (s : State) (name : String) (f : Array Value → Array Value) :
    s.Extends { s with arrays := s.arrays.modify name f } :=
  { refl s with arrays := (s.arrays.names_modify name f).symm ▸ List.prefix_refl _ }

theorem removeVariable {name : String} (h : s.Extends s') (hn : s.valueOf? name = none) :
    s.Extends (s'.removeVariable name) := by
  have hm : name ∉ s.vars.names := by
    intro hm
    have hc := Bindings.contains_iff_mem_names.2 hm
    rw [Bindings.contains, show s.vars.get? name = none from hn] at hc
    cases hc
  exact { h with vars := Bindings.names_prefix_erase hm h.vars }

end State.Extends

theorem law_extends : Outcome.Law fun s o => s.Extends o.state where
  done := .refl
  andThen {s o next} h hn := by
    cases o with
    | done s' => exact h.trans (hn s' rfl)
    | failed f s' => exact h
  forget hn h := h.removeVariable hn

theorem Statement.obeys_extends (t : Statement) : t.Obeys fun s o => s.Extends o.state where
  raises _ := .refl _
  acts h := by
    cases h with
    | declare | assign | count | swapVariable => exact .bindVariable _ _ _
    | output => exact .appendAnswer _ _
    | declareArray => exact .insertArray _ _ _
    | assignElement | swapElement | fill => exact .modifyArray _ _ _

/-- Whether it is done or fails, a statement of any depth keeps all names in their places, variables
and arrays alike, and adds new ones behind them; to the outputs it adds answers, each the decimal
form of a value. No variable that was bound before is unbound or moved. -/
theorem exec_keeps_names (ceiling : Nat) (statement : Statement) (s : State) :
    s.vars.names <+: (statement.exec ceiling s).state.vars.names ∧
    s.arrays.names <+: (statement.exec ceiling s).state.arrays.names ∧
    (∃ values : List Value, (statement.exec ceiling s).state.outputs.toList =
      s.outputs.toList ++ values.map fun v => "answer = " ++ toString v.toInt) ∧
    ∀ (i : Nat) (name : String), s.vars.names[i]? = some name →
      (statement.exec ceiling s).state.vars.names[i]? = some name := by
  have h : s.Extends (statement.exec ceiling s).state :=
    Statement.exec_of_parts law_extends statement (fun t _ => t.obeys_extends) s
  refine ⟨h.vars, h.arrays, h.outputs, fun i name hi => ?_⟩
  obtain ⟨added, hv⟩ := h.vars
  rw [← hv, List.getElem?_append_left (List.getElem?_eq_some_iff.1 hi).1]
  exact hi

/-- A loop over `i` whose body declares `y` and then fails in its second turn leaves `x` where it
was, with the counter and `y` behind it and one answer more. -/
theorem exec_keeps_names_failing :
    let s : State := ⟨⟨[("x", 2)]⟩, .empty, #[]⟩
    let loop : Statement :=
      .forLoop "i" "1" "3" "1" [.declareVariables "y", .output "6 / (2 - i)"]
    s.vars.names[0]? = some "x" ∧ (loop.exec 10 s).state.vars.names[0]? = some "x" ∧
      (loop.exec 10 s).state.vars.names = ["x", "i", "y"] ∧
      (loop.exec 10 s).state.outputs = #["answer = 6"] := by
  intro s loop
  refine ⟨rfl, (exec_keeps_names 10 loop s).2.2.2 0 "x" rfl, ?_, ?_⟩ <;> decide +kernel

end BlockScript
