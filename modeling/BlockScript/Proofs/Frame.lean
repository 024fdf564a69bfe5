import BlockScript.Proofs.Names
import BlockScript.Proofs.Shadows

/-!
# What a run leaves unchanged

A single change of a statement touches one variable or one array, and it is one of those that the
statement can write (`Statement.Acts.valueOf?_eq`, `Statement.Acts.elementsOf?_eq`). So a run
changes no other, done or failed.

When a run is done more is left unchanged, since loops give their counters back. What holds then of
a variable, from before the run to after it, may be any relation that goes through sequences
(`Outcome.Keeps`). It holds of a statement as soon as it holds of the changes that are not made
inside of a loop over the variable (`Statement.keeps_exec`).
-/

set_option autoImplicit false

namespace BlockScript

open Outcome

/-! ## Done or failed -/

namespace Statement

section
variable {t : Statement} {s s' : State} {name : String}

theorem Acts.valueOf?_eq (h : t.Acts s s') (hn : name ∉ t.ownVariableWrites) :
    s'.valueOf? name = s.valueOf? name := by
  have key : ∀ other value, other ∈ t.ownVariableWrites →
      (s.bindVariable other value).valueOf? name = s.valueOf? name := by
    intro other value ho
    refine s.vars.get?_insert_of_ne ?_ value
    rintro rfl
    exact hn ho
  cases h with
  | declare hm => exact key _ _ hm
  | assign | count => exact key _ _ (List.mem_singleton_self _)
  | swapVariable _ hm ho => exact key _ _ (mem_ownVariableWrites_of_subject? hm ho)
  | output | declareArray | assignElement | swapElement | fill => rfl

theorem Acts.elementsOf?_eq (h : t.Acts s s') (hn : name ∉ t.ownArrayWrites) :
    s'.elementsOf? name = s.elementsOf? name := by
  have key : ∀ other f, other ∈ t.ownArrayWrites →
      (s.arrays.modify other f).get? name = s.arrays.get? name := by
    intro other f ho
    refine s.arrays.get?_modify_of_ne ?_ f
    rintro rfl
    exact hn ho
  cases h with
  | declareArray =>
    refine s.arrays.get?_insert_of_ne ?_ _
    rintro rfl
    exact hn (List.mem_singleton_self _)
  | assignElement | fill => exact key _ _ (List.mem_singleton_self _)
  | swapElement hm ho => exact key _ _ (mem_ownArrayWrites_of_subject? hm ho)
  | declare | assign | count | swapVariable | output => rfl

end

theorem law_valueOf? (name : String) :
    Outcome.Law fun s o => o.state.valueOf? name = s.valueOf? name where
  done _ := rfl
  andThen {s o next} h hn := by
    cases o with
    | done s' => exact (hn s' rfl).trans h
    | failed f s' => exact h
  forget {s s' counter} hc h := by
    by_cases hne : name = counter
    · subst hne
      -- A counter that is unbound has nothing behind it that could come to light.
      have hs : s'.vars.shadowed name = [] := Bindings.shadowed_of_get?_none (h.trans hc)
      rw [hc]
      change (s'.vars.erase name).get? name = none
      rw [Bindings.get?_erase_self, hs]
      rfl
    · exact (s'.vars.get?_erase_of_ne hne).trans h

theorem law_elementsOf? (name : String) :
    Outcome.Law fun s o => o.state.elementsOf? name = s.elementsOf? name where
  done _ := rfl
  andThen {s o next} h hn := by
    cases o with
    | done s' => exact (hn s' rfl).trans h
    | failed f s' => exact h
  forget _ h := h

/-- Whether it is done or fails, a statement keeps the variables that it cannot write. -/
theorem valueOf?_exec {ceiling : Nat} {statement : Statement} {name : String}
    (h : name ∉ statement.variableWrites) (s : State) :
    (statement.exec ceiling s).state.valueOf? name = s.valueOf? name := by
  refine exec_of_parts (law_valueOf? name) statement (fun t ht => ?_) s
  have hn : name ∉ t.ownVariableWrites := fun hm => h (List.mem_flatMap_of_mem ht hm)
  exact ⟨fun ha => ha.valueOf?_eq hn, fun _ => rfl⟩

/-- Whether it is done or fails, a statement keeps the arrays that it cannot write. -/
theorem elementsOf?_exec {ceiling : Nat} {statement : Statement} {name : String}
    (h : name ∉ statement.arrayWrites) (s : State) :
    (statement.exec ceiling s).state.elementsOf? name = s.elementsOf? name := by
  refine exec_of_parts (law_elementsOf? name) statement (fun t ht => ?_) s
  have hn : name ∉ t.ownArrayWrites := fun hm => h (List.mem_flatMap_of_mem ht hm)
  exact ⟨fun ha => ha.elementsOf?_eq hn, fun _ => rfl⟩

/-- When a loop is done, its counter has the value it had before, or none if it had none. -/
theorem valueOf?_of_countsWith {ceiling : Nat} {t : Statement} {s s' : State} {name : String}
    (hc : t.CountsWith name) (h : t.exec ceiling s = .done s') :
    s'.valueOf? name = s.valueOf? name := by
  cases t with
  | forLoop counter first last step body =>
    obtain rfl : Text.trim counter = name := hc
    rw [exec_forLoop] at h
    obtain ⟨first, -, h⟩ := given_eq_done.1 h
    obtain ⟨last, -, h⟩ := given_eq_done.1 h
    obtain ⟨step, -, h⟩ := given_eq_done.1 h
    unfold countedLoop at h
    split at h
    · cases h
    split at h
    · cases h
    obtain ⟨u, hu, h⟩ := andThen_eq_done.1 h
    cases h
    have hs : s.SameShadows (repeatFor ceiling (Text.trim counter) step last
        (execBlock ceiling body) ceiling first s).state :=
      sameShadows_repeatFor (sameShadows_execBlock ceiling body) ceiling first s
    rw [hu] at hs
    exact valueOf?_restoreVariable hs _
  | declareVariables | assign | output | ifElse | whileLoop | declareArray | assignElement | swap
  | fill => exact hc.elim

end Statement

/-! ## Done -/

/-- What is shadowed is kept, and if the step is done, the variable has the value it had in the
sense of `K`. -/
structure Outcome.Keeps (K : Option Value → Option Value → Prop) (name : String) (s : State)
    (o : Outcome) : Prop where
  shadows : s.SameShadows o.state
  value : ∀ s', o = .done s' → K (s.valueOf? name) (s'.valueOf? name)

section
variable {K : Option Value → Option Value → Prop} {name : String}

theorem law_keeps (hr : ∀ a, K a a) (ht : ∀ a b c, K a b → K b c → K a c) :
    Outcome.Law (Keeps K name) where
  done s := by
    refine ⟨.refl s, fun s' h => ?_⟩
    cases h
    exact hr _
  andThen {s o next} h hn := by
    cases o with
    | failed f s' => exact ⟨h.shadows, nofun⟩
    | done s' =>
      have hn := hn s' rfl
      exact ⟨h.shadows.trans hn.shadows, fun s'' hs => ht _ _ _ (h.value s' rfl) (hn.value s'' hs)⟩
  forget {s s' counter} hc h := by
    refine ⟨h.shadows.removeVariable hc, fun s'' hs => ?_⟩
    cases hs
    by_cases hne : name = counter
    · subst hne
      have hv : (s'.removeVariable name).valueOf? name = none :=
        h.shadows.valueOf?_removeVariable hc
      rw [hc, hv]
      exact hr none
    · have hv : (s'.removeVariable counter).valueOf? name = s'.valueOf? name :=
        s'.vars.get?_erase_of_ne hne
      rw [hv]
      exact h.value s' rfl

/-- When a statement is done, `K` holds between the values of a variable before and after it, if
`K` goes through sequences and holds for the changes outside of the loops over that variable. These
are the changes of the statements that `C` tells, starting with the whole one. -/
theorem Statement.keeps_exec {ceiling : Nat} (hr : ∀ a, K a a)
    (ht : ∀ a b c, K a b → K b c → K a c) {C : Statement → Prop}
    (hC : ∀ t, C t → t.CountsWith name ∨
      ((∀ s s', t.Acts s s' → K (s.valueOf? name) (s'.valueOf? name)) ∧ ∀ u ∈ t.children, C u))
    {statement : Statement} (h : C statement) (s : State) :
    Keeps K name s (statement.exec ceiling s) := by
  induction statement using induction_on_children generalizing s with
  | step t ih =>
    rcases hC t h with hc | ⟨ha, hu⟩
    · refine ⟨t.sameShadows_exec ceiling s, fun s' hd => ?_⟩
      rw [valueOf?_of_countsWith hc hd]
      exact hr _
    · refine exec_of_children (law_keeps hr ht) ?_ (fun u hm s => ih u hm (hu u hm) s) s
      constructor
      · intro s s' hact
        refine ⟨(t.obeys_sameShadows).acts hact, fun s'' hs => ?_⟩
        cases hs
        exact ha s s' hact
      · exact fun _ => ⟨.refl _, nofun⟩

end

/-- Done or failed, a statement keeps every variable and every array outside of those that it can
write, bound or not. When it is done, a loop counts only for what its body leaves changed other than
the counter. -/
theorem exec_frame (ceiling : Nat) (statement : Statement) (s : State) :
    (∀ name ∉ statement.variableWrites,
      (statement.exec ceiling s).state.valueOf? name = s.valueOf? name) ∧
    (∀ name ∉ statement.arrayWrites,
      (statement.exec ceiling s).state.elementsOf? name = s.elementsOf? name) ∧
    ∀ s', statement.exec ceiling s = .done s' →
      ∀ name ∉ statement.lastingWrites, s'.valueOf? name = s.valueOf? name := by
  refine ⟨fun name hn => Statement.valueOf?_exec hn s, fun name hn => ?_, fun s' hd name hn => ?_⟩
  · exact Statement.elementsOf?_exec hn s
  · have hk : Keeps Eq name s (statement.exec ceiling s) := by
      refine Statement.keeps_exec (fun _ => rfl) (fun _ _ _ => Eq.trans)
        (C := fun t => name ∉ t.lastingWrites) (fun t ht => ?_) hn s
      rcases Statement.countsWith_or_of_not_mem_lastingWrites ht with hc | ⟨hw, hu⟩
      · exact .inl hc
      · exact .inr ⟨fun s s' ha => (ha.valueOf?_eq hw).symm, hu⟩
    exact (hk.value s' hd).symm

/-- A loop over `i` whose body counts with `i` again, redeclares it and swaps it with `x` changes
`x` and gives `i` back. Failing in its second turn, it leaves `i` as it is then, and `y` and the
array `b` as they were. -/
theorem exec_frame_counter :
    let s : State := ⟨⟨[("x", 5), ("i", 7), ("y", 3)]⟩, ⟨[("a", #[0, 0]), ("b", #[1, 2])]⟩, #[]⟩
    let loop (index : String) : Statement := .forLoop " i " "0" "1" "1"
      [.assignElement "a" index "b[i]", .forLoop "i" "1" "3" "1" [], .declareVariables "i",
        .swap "i" " x "]
    (loop "i").lastingWrites = ["x"] ∧
      (∃ s', (loop "i").exec 9 s = .done s' ∧ s'.valueOf? "i" = s.valueOf? "i" ∧
        s'.valueOf? "x" = some 0) ∧
      (loop "2 * i").variableWrites = ["i", "i", "i", "i", "x"] ∧
      (loop "2 * i").arrayWrites = ["a"] ∧
      ((loop "2 * i").exec 9 s).fault? = some (.bare (.indexOutOfBounds "a" 2)) ∧
      ((loop "2 * i").exec 9 s).state.valueOf? "i" = some 1 ∧
      ((loop "2 * i").exec 9 s).state.valueOf? "y" = s.valueOf? "y" ∧
      ((loop "2 * i").exec 9 s).state.elementsOf? "b" = s.elementsOf? "b" := by
  intro s loop
  have hl : (loop "i").lastingWrites = ["x"] := by decide +kernel
  have hd : (loop "i").exec 9 s =
      .done ⟨⟨[("x", 0), ("i", 7), ("y", 3)]⟩, ⟨[("a", #[1, 2]), ("b", #[1, 2])]⟩, #[]⟩ := by
    decide +kernel
  have hv : (loop "2 * i").variableWrites = ["i", "i", "i", "i", "x"] := by decide +kernel
  have ha : (loop "2 * i").arrayWrites = ["a"] := by decide +kernel
  have hi := (exec_frame 9 (loop "i") s).2.2 _ hd "i" (by rw [hl]; decide)
  obtain ⟨hy, hb, -⟩ := exec_frame 9 (loop "2 * i") s
  refine ⟨hl, ⟨_, hd, hi, rfl⟩, hv, ha, ?_, ?_, hy "y" (by rw [hv]; decide),
    hb "b" (by rw [ha]; decide)⟩
  · decide +kernel
  · decide +kernel

end BlockScript
