import BlockScript.Proofs.Growth

/-!
# What stands behind a name

Bindings are looked up at the first entry for a name. `Bindings.contents` is what all entries for a
name hold, and `Bindings.shadowed` what is left of it behind the first. Bindings are determined by
the order of their names, what is looked up and what is shadowed (`Bindings.eq_of_get?_eq`).

No statement touches what is shadowed (`Statement.sameShadows_exec`). A counter that was not bound
before its loop therefore has one entry at most when the loop gives it back, and whatever the body
does to it, the counter has its old value after the loop, or none if it had none
(`valueOf?_restoreVariable`).
-/

set_option autoImplicit false

namespace BlockScript

open Outcome

/-! ## Bindings -/

namespace Bindings

variable {α : Type}

/-- What the entries for a name hold, in order. -/
def contents (b : Bindings α) (name : String) : List α :=
  b.entries.filterMap fun entry => if entry.1 = name then some entry.2 else none

/-- What the entries for a name hold behind the first. -/
def shadowed (b : Bindings α) (name : String) : List α :=
  (b.contents name).tail

theorem get?_eq_head? (b : Bindings α) (name : String) : b.get? name = (b.contents name).head? := by
  obtain ⟨entries⟩ := b
  simp only [get?, contents]
  induction entries with
  | nil => rfl
  | cons entry rest ih =>
    obtain ⟨key, content⟩ := entry
    by_cases h : key = name
    · simp [find?, h]
    · simp [find?, h, ih]

theorem contents_eq (b : Bindings α) (name : String) :
    b.contents name = (b.get? name).toList ++ b.shadowed name := by
  rw [get?_eq_head?, shadowed]
  cases b.contents name <;> rfl

theorem contents_eq_nil_iff {b : Bindings α} {name : String} :
    b.contents name = [] ↔ b.get? name = none := by
  rw [get?_eq_head?, List.head?_eq_none_iff]

theorem length_contents (b : Bindings α) (name : String) :
    (b.contents name).length = b.names.count name := by
  obtain ⟨entries⟩ := b
  simp only [contents, names]
  induction entries with
  | nil => rfl
  | cons entry rest ih =>
    obtain ⟨key, content⟩ := entry
    by_cases h : key = name
    · simp [h, ih]
    · simp [h, ih]

theorem contents_modify_self (b : Bindings α) (name : String) (f : α → α) :
    (b.modify name f).contents name = (b.contents name).modifyHead f := by
  obtain ⟨entries⟩ := b
  simp only [modify, contents]
  induction entries with
  | nil => rfl
  | cons entry rest ih =>
    obtain ⟨key, content⟩ := entry
    by_cases h : key = name
    · simp [modifyFirst, h]
    · simp [modifyFirst, h, ih]

theorem contents_modify_of_ne (b : Bindings α) {name other : String} (ne : other ≠ name)
    (f : α → α) : (b.modify name f).contents other = b.contents other := by
  obtain ⟨entries⟩ := b
  simp only [modify, contents]
  induction entries with
  | nil => rfl
  | cons entry rest ih =>
    obtain ⟨key, content⟩ := entry
    by_cases h : key = name
    · simp [modifyFirst, h, Ne.symm ne]
    · simp [modifyFirst, h, List.filterMap_cons, ih]

theorem contents_erase_self (b : Bindings α) (name : String) :
    (b.erase name).contents name = b.shadowed name := by
  obtain ⟨entries⟩ := b
  simp only [erase, shadowed, contents]
  induction entries with
  | nil => rfl
  | cons entry rest ih =>
    obtain ⟨key, content⟩ := entry
    by_cases h : key = name
    · simp [eraseFirst, h]
    · simp [eraseFirst, h, ih]

theorem contents_erase_of_ne (b : Bindings α) {name other : String} (ne : other ≠ name) :
    (b.erase name).contents other = b.contents other := by
  obtain ⟨entries⟩ := b
  simp only [erase, contents]
  induction entries with
  | nil => rfl
  | cons entry rest ih =>
    obtain ⟨key, content⟩ := entry
    by_cases h : key = name
    · simp [eraseFirst, h, Ne.symm ne]
    · simp [eraseFirst, h, List.filterMap_cons, ih]

theorem get?_erase_self (b : Bindings α) (name : String) :
    (b.erase name).get? name = (b.shadowed name).head? := by
  rw [get?_eq_head?, contents_erase_self]

theorem get?_erase_of_ne (b : Bindings α) {name other : String} (ne : other ≠ name) :
    (b.erase name).get? other = b.get? other := by
  rw [get?_eq_head?, get?_eq_head?, contents_erase_of_ne b ne]

/-- A name that is not bound has nothing behind it. -/
theorem shadowed_of_get?_none {b : Bindings α} {name : String} (h : b.get? name = none) :
    b.shadowed name = [] := by
  rw [shadowed, contents_eq_nil_iff.2 h, List.tail_nil]

theorem shadowed_modify (b : Bindings α) (name other : String) (f : α → α) :
    (b.modify name f).shadowed other = b.shadowed other := by
  unfold shadowed
  by_cases h : other = name
  · rw [h, contents_modify_self]
    cases b.contents name <;> rfl
  · rw [contents_modify_of_ne b h]

theorem shadowed_insert (b : Bindings α) (name other : String) (content : α) :
    (b.insert name content).shadowed other = b.shadowed other := by
  unfold insert
  split
  · exact b.shadowed_modify name other _
  · next hc =>
    have hn : b.get? name = none := Option.not_isSome_iff_eq_none.1 hc
    by_cases h : other = name
    · have hl : b.contents name = [] := contents_eq_nil_iff.2 hn
      have ha : (⟨b.entries ++ [(name, content)]⟩ : Bindings α).contents name =
          b.contents name ++ [content] := by
        simp [contents, List.filterMap_append]
      rw [h, shadowed, ha, shadowed_of_get?_none hn, hl]
      rfl
    · simp [shadowed, contents, List.filterMap_append, Ne.symm h]

theorem eq_of_contents_eq {b b' : Bindings α} (hn : b.names = b'.names)
    (hc : ∀ name, b.contents name = b'.contents name) : b = b' := by
  obtain ⟨entries⟩ := b
  obtain ⟨entries'⟩ := b'
  congr 1
  simp only [names, contents] at hn hc
  induction entries generalizing entries' with
  | nil =>
    cases entries' with
    | nil => rfl
    | cons entry rest => cases hn
  | cons entry rest ih =>
    cases entries' with
    | nil => cases hn
    | cons entry' rest' =>
      obtain ⟨key, content⟩ := entry
      obtain ⟨key', content'⟩ := entry'
      obtain ⟨rfl, hrest⟩ := List.cons.inj hn
      have hhead := hc key
      simp only [List.filterMap_cons, if_true, List.cons.injEq] at hhead
      rw [hhead.1]
      refine congrArg _ (ih rest' hrest fun name => ?_)
      by_cases h : key = name
      · rw [← h]
        exact hhead.2
      · simpa [h] using hc name

/-- Bindings are determined by the order of the names, what they hold and what is shadowed. -/
theorem eq_of_get?_eq {b b' : Bindings α} (hn : b.names = b'.names)
    (hg : ∀ name, b.get? name = b'.get? name)
    (hs : ∀ name, b.shadowed name = b'.shadowed name) : b = b' := by
  refine eq_of_contents_eq hn fun name => ?_
  rw [contents_eq, contents_eq, hg, hs]

/-- Names were added, none of them new, and nothing is shadowed that was not before: then no name
was added. -/
theorem names_eq_of_prefix {b b' : Bindings α} (hp : b.names <+: b'.names)
    (hb : ∀ name, b.get? name = none → b'.get? name = none)
    (hs : ∀ name, b'.shadowed name = b.shadowed name) : b'.names = b.names := by
  obtain ⟨added, ha⟩ := hp
  have hnone : added = [] := by
    refine List.eq_nil_iff_forall_not_mem.2 fun name hm => ?_
    have hbound' : b'.contains name :=
      contains_iff_mem_names.2 (ha ▸ List.mem_append_right _ hm)
    have hbound : b.contains name := by
      rw [contains, Option.isSome_iff_ne_none]
      intro hn
      rw [contains, hb name hn] at hbound'
      cases hbound'
    -- Both sides have one entry that is looked up and as many that are not.
    obtain ⟨content, hc⟩ := Option.isSome_iff_exists.1 hbound
    obtain ⟨content', hc'⟩ := Option.isSome_iff_exists.1 hbound'
    have hlength : b'.names.count name = b.names.count name := by
      rw [← length_contents, ← length_contents, contents_eq, contents_eq, hc, hc', hs]
      simp
    have hpos : 0 < added.count name := List.count_pos_iff.2 hm
    rw [← ha, List.count_append] at hlength
    omega
  rw [← ha, hnone, List.append_nil]

end Bindings

/-! ## Statements -/

/-- What is shadowed in the first state is shadowed in the second, and nothing else. -/
structure State.SameShadows (s s' : State) : Prop where
  vars : ∀ name, s'.vars.shadowed name = s.vars.shadowed name
  arrays : ∀ name, s'.arrays.shadowed name = s.arrays.shadowed name

namespace State.SameShadows

variable {s s' s'' : State}

theorem refl (s : State) : s.SameShadows s :=
  ⟨fun _ => rfl, fun _ => rfl⟩

theorem trans (h : s.SameShadows s') (h' : s'.SameShadows s'') : s.SameShadows s'' :=
  ⟨fun name => (h'.vars name).trans (h.vars name),
    fun name => (h'.arrays name).trans (h.arrays name)⟩

theorem valueOf?_removeVariable {name : String} (h : s.SameShadows s')
    (hn : s.valueOf? name = none) : (s'.removeVariable name).valueOf? name = none := by
  have hs : s'.vars.shadowed name = [] :=
    (h.vars name).trans (Bindings.shadowed_of_get?_none hn)
  unfold State.valueOf? State.removeVariable
  rw [Bindings.get?_erase_self, hs]
  rfl

theorem removeVariable {name : String} (h : s.SameShadows s') (hn : s.valueOf? name = none) :
    s.SameShadows (s'.removeVariable name) := by
  refine { h with vars := fun other => ?_ }
  by_cases ho : other = name
  · rw [ho, Bindings.shadowed_of_get?_none (h.valueOf?_removeVariable hn)]
    exact (Bindings.shadowed_of_get?_none hn).symm
  · rw [← h.vars other]
    exact congrArg List.tail (Bindings.contents_erase_of_ne s'.vars ho)

end State.SameShadows

theorem law_sameShadows : Outcome.Law fun s o => s.SameShadows o.state where
  done := .refl
  andThen {s o next} h hn := by
    cases o with
    | done s' => exact h.trans (hn s' rfl)
    | failed f s' => exact h
  forget hn h := h.removeVariable hn

namespace Statement

theorem obeys_sameShadows (t : Statement) : t.Obeys fun s o => s.SameShadows o.state where
  raises _ := .refl _
  acts {s s'} h := by
    cases h with
    | declare | assign | count | swapVariable =>
      exact { State.SameShadows.refl s with vars := fun _ => s.vars.shadowed_insert _ _ _ }
    | output => exact { State.SameShadows.refl s with }
    | declareArray =>
      exact { State.SameShadows.refl s with arrays := fun _ => s.arrays.shadowed_insert _ _ _ }
    | assignElement | swapElement | fill =>
      exact { State.SameShadows.refl s with arrays := fun _ => s.arrays.shadowed_modify _ _ _ }

/-- No statement touches what is shadowed. -/
theorem sameShadows_exec (ceiling : Nat) (statement : Statement) (s : State) :
    s.SameShadows (statement.exec ceiling s).state :=
  exec_of_parts law_sameShadows statement (fun t _ => t.obeys_sameShadows) s

theorem sameShadows_execBlock (ceiling : Nat) (block : List Statement) (s : State) :
    s.SameShadows (execBlock ceiling block s).state :=
  law_execBlock law_sameShadows (fun u _ => u.sameShadows_exec ceiling) s

end Statement

theorem sameShadows_repeatFor {ceiling : Nat} {counter : String} {step last : Value}
    {body : State → Outcome} (hb : ∀ s : State, s.SameShadows (body s).state) (n : Nat)
    (current : Value) (s : State) :
    s.SameShadows (repeatFor ceiling counter step last body n current s).state := by
  refine law_repeatFor law_sameShadows (fun s v => ?_) (fun s => .refl s) hb n current s
  exact { State.SameShadows.refl s with vars := fun _ => s.vars.shadowed_insert _ _ _ }

/-- Given back, a counter has the value it had before, or none if it had none. -/
theorem valueOf?_restoreVariable {s s' : State} (h : s.SameShadows s') (name : String) :
    (restoreVariable name (s.valueOf? name) s').valueOf? name = s.valueOf? name := by
  cases hv : s.valueOf? name with
  | some v => exact s'.vars.get?_insert_self name v
  | none => exact h.valueOf?_removeVariable hv

theorem valueOf?_restoreVariable_of_ne {name other : String} (ne : other ≠ name)
    (before : Option Value) (s : State) :
    (restoreVariable name before s).valueOf? other = s.valueOf? other := by
  cases before with
  | some v => exact s.vars.get?_insert_of_ne ne v
  | none => exact s.vars.get?_erase_of_ne ne

end BlockScript
