import BlockScript.Statement

/-!
# Statements inside of statements

`Statement.children` are the statements directly inside of a statement, whichever of its bodies they
stand in. What goes from the children of a statement to the statement holds of every statement
(`Statement.induction_on_children`).
-/

set_option autoImplicit false

namespace BlockScript.Statement

/-- The statements directly inside of a statement, in the order in which they stand there. -/
def children : Statement → List Statement
  | .ifElse _ body elseIfs otherwise => body ++ (elseIfs.flatMap (·.2) ++ otherwise.getD [])
  | .whileLoop _ body => body
  | .forLoop _ _ _ _ body => body
  | _ => []

theorem sizeOf_lt_of_mem_branches {elseIfs : List (Condition × List Statement)} {u : Statement}
    (h : u ∈ elseIfs.flatMap (·.2)) : sizeOf u < sizeOf elseIfs := by
  obtain ⟨⟨condition, body⟩, hb, hu⟩ := List.mem_flatMap.1 h
  have hbranch := List.sizeOf_lt_of_mem hb
  have hbody := List.sizeOf_lt_of_mem hu
  simp only [Prod.mk.sizeOf_spec] at hbranch
  dsimp only at hbody
  omega

theorem sizeOf_lt_of_mem_otherwise {otherwise : Option (List Statement)} {u : Statement}
    (h : u ∈ otherwise.getD []) : sizeOf u < sizeOf otherwise := by
  cases otherwise with
  | none => cases h
  | some body =>
    have hbody := List.sizeOf_lt_of_mem h
    simp only [Option.getD_some] at hbody
    simp only [Option.some.sizeOf_spec]
    omega

theorem sizeOf_lt_of_mem_children {t u : Statement} (h : u ∈ t.children) :
    sizeOf u < sizeOf t := by
  cases t with
  | ifElse condition body elseIfs otherwise =>
    rw [children, List.mem_append, List.mem_append] at h
    rw [ifElse.sizeOf_spec]
    rcases h with h | h | h
    · have := List.sizeOf_lt_of_mem h
      omega
    · have := sizeOf_lt_of_mem_branches h
      omega
    · have := sizeOf_lt_of_mem_otherwise h
      omega
  | whileLoop condition body =>
    have := List.sizeOf_lt_of_mem h
    rw [children] at this
    rw [whileLoop.sizeOf_spec]
    omega
  | forLoop counter first last step body =>
    have := List.sizeOf_lt_of_mem h
    rw [children] at this
    rw [forLoop.sizeOf_spec]
    omega
  | declareVariables | assign | output | declareArray | assignElement | swap | fill => cases h

/-- A property that goes from the children of a statement to the statement holds of all. -/
theorem induction_on_children {motive : Statement → Prop} (t : Statement)
    (step : ∀ t : Statement, (∀ u ∈ t.children, motive u) → motive t) : motive t :=
  step t fun u _ => induction_on_children u step
termination_by sizeOf t
decreasing_by
  next h => exact sizeOf_lt_of_mem_children h

end BlockScript.Statement
