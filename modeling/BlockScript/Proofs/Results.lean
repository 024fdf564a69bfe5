/-!
# Results and faults

How a computation that may fail ends, read off its parts.
-/

set_option autoImplicit false

namespace BlockScript

section
variable {ε α β : Type} {x : Except ε α} {f : α → Except ε β}

@[simp] theorem ok_bind (a : α) : ((.ok a : Except ε α) >>= f) = f a := rfl

@[simp] theorem error_bind (fault : ε) : ((.error fault : Except ε α) >>= f) = .error fault := rfl

/-- Two computations in a row have a result when both have. -/
theorem bind_eq_ok {b : β} : (x >>= f) = .ok b ↔ ∃ a, x = .ok a ∧ f a = .ok b := by
  cases x <;> simp

/-- Two computations in a row fail when the first fails, or it is done and the second fails. -/
theorem bind_eq_error {fault : ε} :
    (x >>= f) = .error fault ↔ x = .error fault ∨ ∃ a, x = .ok a ∧ f a = .error fault := by
  cases x <;> simp

/-- Computations for all members of a list have results when each of them has its own. -/
theorem mapM_eq_ok_iff {as : List α} {bs : List β} :
    as.mapM f = .ok bs ↔ as.map f = bs.map .ok := by
  induction as generalizing bs with
  | nil => cases bs <;> simp [pure, Except.pure]
  | cons a as ih =>
    rw [List.mapM_cons, bind_eq_ok, List.map_cons]
    constructor
    · rintro ⟨b, hb, h⟩
      obtain ⟨bs', hbs, h⟩ := bind_eq_ok.1 h
      cases h
      rw [List.map_cons, hb, ih.1 hbs]
    · intro h
      obtain ⟨b, bs, rfl, hb, hbs⟩ := List.map_eq_cons_iff.1 h.symm
      exact ⟨b, hb.symm, bind_eq_ok.2 ⟨bs, ih.2 hbs.symm, rfl⟩⟩

theorem exists_mapM_eq_ok_iff {as : List α} :
    (∃ bs, as.mapM f = .ok bs) ↔ ∀ a ∈ as, ∃ b, f a = .ok b := by
  simp only [mapM_eq_ok_iff]
  induction as with
  | nil => exact iff_of_true ⟨[], rfl⟩ nofun
  | cons a as ih =>
    rw [List.forall_mem_cons, ← ih]
    constructor
    · rintro ⟨bs, h⟩
      obtain ⟨b, bs, rfl, hb, hbs⟩ := List.map_eq_cons_iff.1 h.symm
      exact ⟨⟨b, hb.symm⟩, bs, hbs.symm⟩
    · rintro ⟨⟨b, hb⟩, bs, hbs⟩
      exact ⟨b :: bs, by rw [List.map_cons, List.map_cons, hb, hbs]⟩

/-- Computations for all members of a list fail as the first of them does that fails. -/
theorem mapM_eq_error_iff {as : List α} {fault : ε} :
    as.mapM f = .error fault ↔ ∃ before a after, as = before ++ a :: after ∧
      (∀ a' ∈ before, ∃ b, f a' = .ok b) ∧ f a = .error fault := by
  induction as with
  | nil => exact ⟨nofun, by simp⟩
  | cons a as ih =>
    rw [List.mapM_cons, bind_eq_error]
    constructor
    · rintro (h | ⟨b, hb, h⟩)
      · exact ⟨[], a, as, rfl, nofun, h⟩
      rcases bind_eq_error.1 h with h | ⟨bs, -, h⟩
      · obtain ⟨before, a', after, rfl, hbefore, h⟩ := ih.1 h
        exact ⟨a :: before, a', after, rfl, List.forall_mem_cons.2 ⟨⟨b, hb⟩, hbefore⟩, h⟩
      · cases h
    · rintro ⟨before, a', after, hs, hbefore, h⟩
      cases before with
      | nil =>
        obtain ⟨rfl, -⟩ := List.cons.inj hs
        exact .inl h
      | cons first before =>
        obtain ⟨rfl, hrest⟩ := List.cons.inj hs
        obtain ⟨⟨b, hb⟩, hbefore⟩ := List.forall_mem_cons.1 hbefore
        exact .inr ⟨b, hb, bind_eq_error.2 (.inl (ih.2 ⟨before, a', after, hrest, hbefore, h⟩))⟩

theorem exists_of_mapM_eq_error {as : List α} {fault : ε} (h : as.mapM f = .error fault) :
    ∃ a ∈ as, f a = .error fault := by
  obtain ⟨before, a, after, rfl, -, ha⟩ := mapM_eq_error_iff.1 h
  exact ⟨a, by simp, ha⟩

theorem mapM_congr {as : List α} {g : α → Except ε β} (h : ∀ a ∈ as, f a = g a) :
    as.mapM f = as.mapM g := by
  induction as with
  | nil => rfl
  | cons a as ih =>
    obtain ⟨ha, has⟩ := List.forall_mem_cons.1 h
    rw [List.mapM_cons, List.mapM_cons, ha, ih has]

theorem length_of_mapM_eq_ok {as : List α} {bs : List β} (h : as.mapM f = .ok bs) :
    bs.length = as.length := by
  simpa using (congrArg List.length (mapM_eq_ok_iff.1 h)).symm

end

end BlockScript
