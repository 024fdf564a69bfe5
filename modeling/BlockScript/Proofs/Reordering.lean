import BlockScript.Statement.Kind
import BlockScript.Proofs.Frame
import BlockScript.Proofs.Locality

/-!
# Statements in either order

Two statements are independent (`Statement.Independent`) when they neither declare nor answer
anything and neither writes a name that occurs in the other. A run of one then leaves the other
everything it looks at (`Statement.Independent.agreeOn`), so that both are done in either order if
they are done in one, and every name holds the same in the end.

That the states are equal takes more: the names have to stand in the same order. A statement that
declares and answers nothing keeps the layout of a state when it is done
(`Statement.sameLayout_exec`), whatever its loops bind on the way, and names, contents and what is
shadowed determine a state (`State.eq_of_sameLayout`).
-/

set_option autoImplicit false

namespace BlockScript

open Outcome

/-! ## Layout -/

/-- The same names in the same order, and the same outputs. -/
structure State.SameLayout (s s' : State) : Prop where
  vars : s'.vars.names = s.vars.names
  arrays : s'.arrays.names = s.arrays.names
  outputs : s'.outputs = s.outputs

theorem State.SameLayout.trans {s s' s'' : State} (h : s.SameLayout s') (h' : s'.SameLayout s'') :
    s.SameLayout s'' :=
  ⟨h'.vars.trans h.vars, h'.arrays.trans h.arrays, h'.outputs.trans h.outputs⟩

/-- What a name stands for, as a variable and as an array. -/
def State.holding (s : State) (name : String) : Option Value × Option (Array Value) :=
  (s.valueOf? name, s.elementsOf? name)

theorem State.AgreeOn.holding_eq {names : List String} {s t : State} (h : s.AgreeOn names t)
    {name : String} (hn : name ∈ names) : s.holding name = t.holding name :=
  Prod.ext (h.vars name hn) (h.arrays name hn)

/-- A state is determined by its layout, what the names hold and what is shadowed. -/
theorem State.eq_of_sameLayout {s t t' : State} (h : s.SameLayout t) (h' : s.SameLayout t')
    (hs : s.SameShadows t) (hs' : s.SameShadows t')
    (hh : ∀ name, t.holding name = t'.holding name) : t = t' := by
  have hv : t.vars = t'.vars := by
    refine Bindings.eq_of_get?_eq (h.vars.trans h'.vars.symm) (fun name => ?_) fun name => ?_
    · exact (Prod.mk.inj (hh name)).1
    · exact (hs.vars name).trans (hs'.vars name).symm
  have ha : t.arrays = t'.arrays := by
    refine Bindings.eq_of_get?_eq (h.arrays.trans h'.arrays.symm) (fun name => ?_) fun name => ?_
    · exact (Prod.mk.inj (hh name)).2
    · exact (hs.arrays name).trans (hs'.arrays name).symm
  have ho : t.outputs = t'.outputs := h.outputs.trans h'.outputs.symm
  obtain ⟨vars, arrays, outputs⟩ := t
  obtain ⟨vars', arrays', outputs'⟩ := t'
  obtain rfl : vars = vars' := hv
  obtain rfl : arrays = arrays' := ha
  obtain rfl : outputs = outputs' := ho
  rfl

namespace Statement

/-- Neither a statement nor one inside of it declares something or answers. -/
def Quiet (t : Statement) : Prop :=
  ∀ p ∈ t.parts, p.kind ∉ [.variableDeclaration, .arrayDeclaration, .expression]

instance (t : Statement) : Decidable t.Quiet :=
  inferInstanceAs (Decidable (∀ p ∈ t.parts, p.kind ∉ _))

theorem Quiet.of_mem_children {t u : Statement} (h : t.Quiet) (hu : u ∈ t.children) : u.Quiet :=
  fun p hp => h p (mem_parts_of_mem_children hu hp)

theorem law_sameArrayNames :
    Outcome.Law fun s o => o.state.arrays.names = s.arrays.names ∧ o.state.outputs = s.outputs where
  done _ := ⟨rfl, rfl⟩
  andThen {s o next} h hn := by
    cases o with
    | failed f s' => exact h
    | done s' => exact ⟨(hn s' rfl).1.trans h.1, (hn s' rfl).2.trans h.2⟩
  forget _ h := h

/-- Done or failed, a statement that declares and answers nothing keeps the order of the arrays and
the outputs. -/
theorem arrayNames_exec {ceiling : Nat} {statement : Statement} (h : statement.Quiet) (s : State) :
    (statement.exec ceiling s).state.arrays.names = s.arrays.names ∧
      (statement.exec ceiling s).state.outputs = s.outputs := by
  refine exec_of_parts law_sameArrayNames statement (fun t ht => ⟨fun {s _} ha => ?_, ?_⟩) s
  · have hk := h t ht
    cases ha with
    | declare | output | declareArray => exact absurd (by simp [kind]) hk
    | assign | count | swapVariable => exact ⟨rfl, rfl⟩
    | assignElement | swapElement | fill => exact ⟨s.arrays.names_modify _ _, rfl⟩
  · exact fun _ => ⟨rfl, rfl⟩

/-- A change that is no declaration binds no new variable, but for the counter of a loop. -/
theorem Acts.valueOf?_eq_none {t : Statement} {s s' : State} {name : String} (h : t.Acts s s')
    (hk : t.kind ∉ [.variableDeclaration, .arrayDeclaration, .expression])
    (hc : ¬t.CountsWith name) (hn : s.valueOf? name = none) : s'.valueOf? name = none := by
  have bound : ∀ other value, s.vars.contains other →
      (s.bindVariable other value).valueOf? name = none := by
    intro other value ho
    have hne : name ≠ other := by
      rintro rfl
      rw [Bindings.contains, show s.vars.get? name = none from hn] at ho
      cases ho
    exact (s.vars.get?_insert_of_ne hne value).trans hn
  cases h with
  | declare | output | declareArray => exact absurd (by simp [kind]) hk
  | assign hb => exact bound _ _ hb
  | swapVariable hb => exact bound _ _ hb
  | count => exact (s.vars.get?_insert_of_ne (Ne.symm hc) _).trans hn
  | assignElement | swapElement | fill => exact hn

/-- When it is done, a statement that declares nothing has bound no new variable. -/
theorem valueOf?_eq_none_of_quiet {ceiling : Nat} {statement : Statement} {s s' : State}
    (h : statement.Quiet) (hd : statement.exec ceiling s = .done s') {name : String}
    (hn : s.valueOf? name = none) : s'.valueOf? name = none := by
  have hk : Keeps (fun a b => a = none → b = none) name s (statement.exec ceiling s) := by
    refine keeps_exec (fun _ => id) (fun _ _ _ hab hbc ha => hbc (hab ha))
      (C := Quiet) (fun t ht => ?_) h s
    by_cases hc : t.CountsWith name
    · exact .inl hc
    · refine .inr ⟨fun s s' ha => ?_, fun u hu => ht.of_mem_children hu⟩
      exact ha.valueOf?_eq_none (ht t t.self_mem_parts) hc
  exact hk.value s' hd hn

theorem sameShadows_of_done {ceiling : Nat} {statement : Statement} {s s' : State}
    (hd : statement.exec ceiling s = .done s') : s.SameShadows s' := by
  have hs := sameShadows_exec ceiling statement s
  rw [hd] at hs
  exact hs

/-- When it is done, a statement that declares and answers nothing has kept the layout. -/
theorem sameLayout_exec {ceiling : Nat} {statement : Statement} {s s' : State}
    (h : statement.Quiet) (hd : statement.exec ceiling s = .done s') : s.SameLayout s' := by
  have he : s.Extends (statement.exec ceiling s).state :=
    exec_of_parts law_extends statement (fun t _ => t.obeys_extends) s
  have ha : (statement.exec ceiling s).state.arrays.names = s.arrays.names ∧
      (statement.exec ceiling s).state.outputs = s.outputs := arrayNames_exec h s
  rw [hd] at he ha
  have hs : s.SameShadows s' := sameShadows_of_done hd
  refine ⟨Bindings.names_eq_of_prefix he.vars (fun name hn => ?_) hs.vars, ha.1, ha.2⟩
  exact valueOf?_eq_none_of_quiet h hd hn

/-! ## Independent statements -/

/-- The names that a statement can write, as variables or as arrays, at any depth. -/
def writes (t : Statement) : List String :=
  t.variableWrites ++ t.arrayWrites

theorem writes_subset_names (t : Statement) : t.writes ⊆ t.names := by
  intro name h
  rcases List.mem_append.1 h with h | h
  · obtain ⟨p, hp, h⟩ := List.mem_flatMap.1 h
    exact List.mem_flatMap_of_mem hp (p.ownVariableWrites_subset h)
  · obtain ⟨p, hp, h⟩ := List.mem_flatMap.1 h
    exact List.mem_flatMap_of_mem hp (p.ownArrayWrites_subset h)

/-- A statement keeps what a name stands for if it cannot write the name. -/
theorem holding_exec {ceiling : Nat} {statement : Statement} {s s' : State} {name : String}
    (hd : statement.exec ceiling s = .done s') (h : name ∉ statement.writes) :
    s'.holding name = s.holding name := by
  rw [writes, List.mem_append, not_or] at h
  have hv : (statement.exec ceiling s).state.valueOf? name = s.valueOf? name :=
    valueOf?_exec h.1 s
  have ha : (statement.exec ceiling s).state.elementsOf? name = s.elementsOf? name :=
    elementsOf?_exec h.2 s
  rw [hd] at hv ha
  exact Prod.ext hv ha

/-- Two statements that declare and answer nothing, where neither can write a name that occurs in
the other. -/
structure Independent (first second : Statement) : Prop where
  quietFirst : first.Quiet
  quietSecond : second.Quiet
  ahead : ∀ name ∈ first.writes, name ∉ second.names
  behind : ∀ name ∈ second.writes, name ∉ first.names

instance (first second : Statement) : Decidable (first.Independent second) :=
  decidable_of_iff (first.Quiet ∧ second.Quiet ∧ (∀ name ∈ first.writes, name ∉ second.names) ∧
    ∀ name ∈ second.writes, name ∉ first.names)
    ⟨fun h => ⟨h.1, h.2.1, h.2.2.1, h.2.2.2⟩,
      fun h => ⟨h.quietFirst, h.quietSecond, h.ahead, h.behind⟩⟩

theorem Independent.symm {first second : Statement} (h : first.Independent second) :
    second.Independent first :=
  ⟨h.quietSecond, h.quietFirst, h.behind, h.ahead⟩

section
variable {ceiling : Nat} {first second : Statement} {s s₁ s₂ t : State}

/-- A statement leaves everything in place that an independent one looks at. -/
theorem Independent.agreeOn (h : first.Independent second)
    (hd : first.exec ceiling s = .done s₁) : s.AgreeOn second.names s₁ := by
  have hh : ∀ name ∈ second.names, s₁.holding name = s.holding name := fun name hn =>
    holding_exec hd fun hw => h.ahead name hw hn
  exact ⟨fun name hn => (Prod.mk.inj (hh name hn)).1.symm,
    fun name hn => (Prod.mk.inj (hh name hn)).2.symm⟩

/-- A statement that is done in a state is done in every state that agrees on its names. -/
theorem done_of_agreeOn {t : State} (h : s.AgreeOn first.names t)
    (hd : first.exec ceiling s = .done s₁) :
    ∃ t₁, first.exec ceiling t = .done t₁ ∧ s₁.AgreeOn first.names t₁ := by
  have ha : Alike (State.Twins first.names s t) (first.exec ceiling s) (first.exec ceiling t) :=
    alike_exec_of_agreeOn h
  rw [hd] at ha
  cases ho : first.exec ceiling t with
  | done t₁ =>
    rw [ho] at ha
    exact ⟨t₁, rfl, ha.state.toAgreeOn⟩
  | failed f t₁ =>
    rw [ho] at ha
    cases ha.fault?_eq

/-- After independent statements in either order, every name holds the same. -/
theorem Independent.holding_eq (h : first.Independent second) {t₁ t₂ : State}
    (h₁ : first.exec ceiling s = .done s₁) (h₂ : second.exec ceiling s₁ = .done s₂)
    (k₁ : second.exec ceiling s = .done t₁) (k₂ : first.exec ceiling t₁ = .done t₂)
    (hsecond : s₂.AgreeOn second.names t₁) (hfirst : s₁.AgreeOn first.names t₂) (name : String) :
    s₂.holding name = t₂.holding name := by
  -- A name that one of them writes does not occur in the other, which agrees on its own names.
  by_cases hn : name ∈ first.names
  · calc s₂.holding name = s₁.holding name := holding_exec h₂ fun hw => h.behind name hw hn
      _ = t₂.holding name := hfirst.holding_eq hn
  · have hw : name ∉ first.writes := fun hw => hn (first.writes_subset_names hw)
    rw [holding_exec k₂ hw]
    by_cases hm : name ∈ second.names
    · exact hsecond.holding_eq hm
    · have hv : name ∉ second.writes := fun hv => hm (second.writes_subset_names hv)
      rw [holding_exec h₂ hv, holding_exec h₁ hw, holding_exec k₁ hv]

/-- Independent statements that are done one after the other are done in the other order too, and
end in the same state. -/
theorem Independent.exec_comm (h : first.Independent second)
    (hd : (first.exec ceiling s).andThen (second.exec ceiling) = .done s₂) :
    (second.exec ceiling s).andThen (first.exec ceiling) = .done s₂ := by
  obtain ⟨s₁, h₁, h₂⟩ := andThen_eq_done.1 hd
  obtain ⟨t₁, k₁, hsecond⟩ := done_of_agreeOn (h.agreeOn h₁).symm h₂
  obtain ⟨t₂, k₂, hfirst⟩ := done_of_agreeOn (h.symm.agreeOn k₁) h₁
  have hs : s.SameShadows s₂ := (sameShadows_of_done h₁).trans (sameShadows_of_done h₂)
  have ht : s.SameShadows t₂ := (sameShadows_of_done k₁).trans (sameShadows_of_done k₂)
  have ls : s.SameLayout s₂ :=
    (sameLayout_exec h.quietFirst h₁).trans (sameLayout_exec h.quietSecond h₂)
  have lt : s.SameLayout t₂ :=
    (sameLayout_exec h.quietSecond k₁).trans (sameLayout_exec h.quietFirst k₂)
  have heq : s₂ = t₂ :=
    State.eq_of_sameLayout ls lt hs ht (h.holding_eq h₁ h₂ k₁ k₂ hsecond hfirst)
  rw [k₁, done_andThen, k₂, heq]

end

/-- Independent statements next to each other in a block can change places. -/
theorem Independent.execBlock_comm {ceiling : Nat} {first second : Statement}
    (h : first.Independent second) {before after : List Statement} {s s' : State}
    (hd : execBlock ceiling (before ++ first :: second :: after) s = .done s') :
    execBlock ceiling (before ++ second :: first :: after) s = .done s' := by
  rw [execBlock_append] at hd ⊢
  obtain ⟨u, hb, hd⟩ := andThen_eq_done.1 hd
  rw [hb, done_andThen]
  rw [execBlock_cons] at hd ⊢
  obtain ⟨u₁, h₁, hd⟩ := andThen_eq_done.1 hd
  rw [execBlock_cons] at hd
  obtain ⟨u₂, h₂, hd⟩ := andThen_eq_done.1 hd
  have hc : (second.exec ceiling u).andThen (first.exec ceiling) = .done u₂ :=
    h.exec_comm (by rw [h₁, done_andThen, h₂])
  obtain ⟨v, k₁, k₂⟩ := andThen_eq_done.1 hc
  rw [k₁, done_andThen, execBlock_cons, k₂, done_andThen, hd]

end Statement

/-! ## Programs -/

namespace Program

/-- A program reports no failure when the block of its statements is done, and reports the state in
which it is done. -/
theorem runFrom_eq_iff {ceiling index : Nat} {statements : List Statement} {s s' : State} :
    runFrom ceiling index statements s = ⟨s', none⟩ ↔
      Statement.execBlock ceiling statements s = .done s' := by
  rw [← outcome_runFrom ceiling index, Report.outcome_eq_done_iff]

/-- Moving a statement one position down exchanges it with the next. -/
theorem move?_succ {before after : List Statement} {first second : Statement} :
    (⟨before ++ first :: second :: after⟩ : Program).move? before.length (before.length + 1) =
      some ⟨before ++ second :: first :: after⟩ := by
  have hi : (before ++ second :: after).insertIdx (before.length + 1) first =
      before ++ second :: first :: after := by
    induction before with
    | nil => rfl
    | cons statement before ih => simpa using ih
  have hl : before.length + 1 < (⟨before ++ first :: second :: after⟩ : Program).length := by
    simp [length]
  have hg : (⟨before ++ first :: second :: after⟩ : Program).get? before.length = some first := by
    simp [get?]
  rw [move?, if_pos hl, hg, Option.map_some, insert, remove]
  simp [length, List.eraseIdx_append_of_length_le, hi]

theorem exists_of_get?_succ {p : Program} {k : Nat} {first second : Statement}
    (hk : p.get? k = some first) (hk' : p.get? (k + 1) = some second) :
    ∃ before after, p = ⟨before ++ first :: second :: after⟩ ∧ k = before.length := by
  obtain ⟨statements⟩ := p
  obtain ⟨hlt, rfl⟩ := List.getElem?_eq_some_iff.1 hk
  obtain ⟨hlt', rfl⟩ := List.getElem?_eq_some_iff.1 hk'
  refine ⟨statements.take k, statements.drop (k + 2), ?_, (List.length_take_of_le hlt.le).symm⟩
  rw [← List.drop_eq_getElem_cons, ← List.drop_eq_getElem_cons, List.take_append_drop]

end Program

/-- Independent statements can be run in either order: where one after the other is done, so it is
the other way round, in exactly the same state. So a program that runs without a failure gives the
same report when a statement of it is moved behind the next one and the two are independent. -/
theorem independent_reorder (ceiling : Nat) (first second : Statement)
    (h : first.Independent second) :
    (∀ s s', (first.exec ceiling s).andThen (second.exec ceiling) = .done s' →
      (second.exec ceiling s).andThen (first.exec ceiling) = .done s') ∧
    ∀ (p : Program) (k : Nat) (s : State), p.get? k = some first → p.get? (k + 1) = some second →
      (p.execute ceiling s).failure = none →
      ∃ p', p.move? k (k + 1) = some p' ∧ p'.execute ceiling s = p.execute ceiling s := by
  refine ⟨fun s s' hd => h.exec_comm hd, fun p k s hk hk' hf => ?_⟩
  obtain ⟨before, after, rfl, rfl⟩ := Program.exists_of_get?_succ hk hk'
  refine ⟨_, Program.move?_succ, ?_⟩
  have hr : Program.runFrom ceiling 0 (before ++ first :: second :: after) s =
      ⟨(Program.runFrom ceiling 0 (before ++ first :: second :: after) s).state, none⟩ :=
    congrArg (Report.mk _) hf
  have hd := h.execBlock_comm (Program.runFrom_eq_iff.1 hr)
  exact (Program.runFrom_eq_iff.2 hd).trans hr.symm

/-- Two loops that bind and unbind their counters and write a variable and an array: in either order
they leave the names as they were, and the answer is the same. -/
theorem independent_reorder_loops :
    let first : Statement := .forLoop "i" "1" "3" "1" [.assign "x" "x + i"]
    let second : Statement := .forLoop "j" "0" "1" "1" [.assignElement "a" "j" "y - j"]
    let program (third fourth : Statement) : Program :=
      ⟨[.declareVariables "x, y", .declareArray "a" "2", third, fourth, .output "x * a[1]"]⟩
    first.Independent second ∧
      (program first second).move? 2 3 = some (program second first) ∧
      (program second first).run 9 = (program first second).run 9 ∧
      (program first second).run 9 =
        ⟨⟨⟨[("x", 6), ("y", 0)]⟩, ⟨[("a", #[0, -1])]⟩, #["answer = -6"]⟩, none⟩ := by
  intro first second program
  have h : first.Independent second := by decide +kernel
  have hr : (program first second).run 9 =
      ⟨⟨⟨[("x", 6), ("y", 0)]⟩, ⟨[("a", #[0, -1])]⟩, #["answer = -6"]⟩, none⟩ := by
    decide +kernel
  obtain ⟨p', hm, hp⟩ := (independent_reorder 9 first second h).2 (program first second) 2 .empty
    rfl rfl (congrArg Report.failure hr)
  cases hm
  exact ⟨h, rfl, hp, hr⟩

end BlockScript
