import BlockScript.Statement.Kind
import BlockScript.Proofs.Growth

/-!
# How much a run can write

The ceiling holds for every loop by itself, and every time the loop is entered. So the lines that a
statement can write are bounded by its shape (`Statement.answerBound`): an output writes one line, a
choice as many as the longest of its branches, and a loop as many as its body in every one of its
turns. `Outcome.WritesAtMost` says this of one step. It adds up in
sequences, so that a loop with `n` turns left writes at most `n` times what its body does
(`writes_repeatWhile`, `writes_repeatFor`), and an induction over the children of a statement takes
it to all statements, done or failed (`Statement.writes_exec`).
-/

set_option autoImplicit false

namespace BlockScript

open Outcome

/-! ## The bound -/

namespace Statement

mutual

/-- How many lines a statement can write when no loop runs its body more than `ceiling` times. -/
def answerBound (ceiling : Nat) : Statement → Nat
  | .output _ => 1
  | .ifElse _ body elseIfs otherwise =>
    max (answerBoundOfBlock ceiling body)
      (max (answerBoundOfBranches ceiling elseIfs) (answerBoundOfOtherwise ceiling otherwise))
  | .whileLoop _ body => ceiling * answerBoundOfBlock ceiling body
  | .forLoop _ _ _ _ body => ceiling * answerBoundOfBlock ceiling body
  | _ => 0

/-- All statements of a block are run. -/
def answerBoundOfBlock (ceiling : Nat) : List Statement → Nat
  | [] => 0
  | t :: rest => answerBound ceiling t + answerBoundOfBlock ceiling rest

/-- One of several branches is run. -/
def answerBoundOfBranches (ceiling : Nat) : List (Condition × List Statement) → Nat
  | [] => 0
  | (_, body) :: rest => max (answerBoundOfBlock ceiling body) (answerBoundOfBranches ceiling rest)

def answerBoundOfOtherwise (ceiling : Nat) : Option (List Statement) → Nat
  | none => 0
  | some body => answerBoundOfBlock ceiling body

end

end Statement

/-! ## Steps -/

/-- A step from a state writes at most `n` lines. -/
def Outcome.WritesAtMost (n : Nat) (s : State) (o : Outcome) : Prop :=
  o.state.outputs.size ≤ s.outputs.size + n

namespace Outcome.WritesAtMost

variable {n m : Nat} {s : State} {o : Outcome}

theorem of_outputs_eq (h : o.state.outputs = s.outputs) : WritesAtMost n s o := by
  rw [WritesAtMost, h]
  omega

theorem mono (h : WritesAtMost n s o) (hm : n ≤ m) : WritesAtMost m s o := by
  unfold WritesAtMost at *
  omega

theorem given {α : Type} {x : Except Fault α} {next : α → Outcome}
    (hn : ∀ a, WritesAtMost n s (next a)) : WritesAtMost n s (given s x next) := by
  cases x with
  | ok a => exact hn a
  | error f => exact .of_outputs_eq rfl

theorem andThen {next : State → Outcome} (h : WritesAtMost n s o)
    (hn : ∀ s', WritesAtMost m s' (next s')) : WritesAtMost (n + m) s (o.andThen next) := by
  cases o with
  | failed f s' => exact h.mono (by omega)
  | done s' =>
    have hs : s'.outputs.size ≤ s.outputs.size + n := h
    have hs' : (next s').state.outputs.size ≤ s'.outputs.size + m := hn s'
    show (next s').state.outputs.size ≤ s.outputs.size + (n + m)
    omega

end Outcome.WritesAtMost

/-! ## Loops -/

section
variable {ceiling b : Nat} {body : State → Outcome} {counter : String} {step last : Value}

/-- The induction is on the turns that are left. The turn that is wanted when none is left writes
nothing. -/
theorem writes_repeatWhile {test : State → Except Fault Bool}
    (hb : ∀ s, WritesAtMost b s (body s)) (n : Nat) (s : State) :
    WritesAtMost (n * b) s (repeatWhile ceiling test body n s) := by
  induction n generalizing s with
  | zero =>
    rw [repeatWhile_eq]
    refine .given fun again => ?_
    cases again <;> exact .of_outputs_eq rfl
  | succ n ih =>
    rw [repeatWhile_eq]
    refine .given fun again => ?_
    cases again with
    | false => exact .of_outputs_eq rfl
    | true =>
      have ht : WritesAtMost (b + n * b) s ((body s).andThen (repeatWhile ceiling test body n)) :=
        (hb s).andThen ih
      exact ht.mono (by rw [Nat.succ_mul]; omega)

theorem writes_repeatFor (hb : ∀ s, WritesAtMost b s (body s)) (n : Nat) (current : Value)
    (s : State) :
    WritesAtMost (n * b) s (repeatFor ceiling counter step last body n current s) := by
  induction n generalizing current s with
  | zero =>
    rw [repeatFor_eq]
    split <;> exact .of_outputs_eq rfl
  | succ n ih =>
    rw [repeatFor_eq]
    split
    · have hs : WritesAtMost b s (body (s.bindVariable counter current)) :=
        hb (s.bindVariable counter current)
      have ht : WritesAtMost (b + n * b) s (countedTurn counter step current body
          (repeatFor ceiling counter step last body n) s) := by
        refine hs.andThen fun s' => ?_
        cases Value.add? current step with
        | none => exact .of_outputs_eq rfl
        | some next => exact ih next s'
      exact ht.mono (by rw [Nat.succ_mul]; omega)
    · exact .of_outputs_eq rfl

theorem writes_countedLoop (hb : ∀ s, WritesAtMost b s (body s)) (first : Value) (s : State) :
    WritesAtMost (ceiling * b) s (countedLoop ceiling counter first last step body s) := by
  unfold countedLoop
  split
  · exact .of_outputs_eq rfl
  split
  · exact .of_outputs_eq rfl
  refine (writes_repeatFor hb ceiling first s).andThen (m := 0) fun s' => ?_
  cases s.valueOf? counter <;> exact .of_outputs_eq rfl

end

/-! ## Statements -/

theorem law_outputs : Outcome.Law fun s o => o.state.outputs = s.outputs where
  done _ := rfl
  andThen {s o next} h hn := by
    cases o with
    | failed f s' => exact h
    | done s' => exact (hn s' rfl).trans h
  forget _ h := h

namespace Statement

/-- Only an output writes by itself. -/
theorem obeys_outputs {t : Statement} (ht : t.kind ≠ .expression) :
    t.Obeys fun s o => o.state.outputs = s.outputs where
  raises _ := rfl
  acts h := by
    cases h with
    | output => exact absurd rfl ht
    | declare | assign | count | declareArray | assignElement | swapVariable | swapElement
    | fill => rfl

section
variable {ceiling : Nat}

theorem writes_execBlock {block : List Statement}
    (h : ∀ u ∈ block, ∀ s, WritesAtMost (u.answerBound ceiling) s (u.exec ceiling s)) (s : State) :
    WritesAtMost (answerBoundOfBlock ceiling block) s (execBlock ceiling block s) := by
  induction block generalizing s with
  | nil =>
    rw [execBlock]
    exact .of_outputs_eq rfl
  | cons t rest ih =>
    obtain ⟨ht, hrest⟩ := List.forall_mem_cons.1 h
    rw [execBlock_cons, answerBoundOfBlock]
    exact (ht s).andThen (ih hrest)

theorem writes_execBranches {branches : List (Condition × List Statement)}
    (h : ∀ u ∈ branches.flatMap (·.2), ∀ s,
      WritesAtMost (u.answerBound ceiling) s (u.exec ceiling s))
    {fallback : State → Outcome} {n : Nat} (hf : ∀ s, WritesAtMost n s (fallback s)) (s : State) :
    WritesAtMost (max (answerBoundOfBranches ceiling branches) n) s
      (execBranches ceiling branches fallback s) := by
  induction branches with
  | nil =>
    rw [execBranches]
    exact (hf s).mono (Nat.le_max_right _ _)
  | cons branch rest ih =>
    obtain ⟨condition, body⟩ := branch
    rw [List.flatMap_cons, List.forall_mem_append] at h
    rw [execBranches, answerBoundOfBranches]
    have hbody : WritesAtMost (answerBoundOfBlock ceiling body) s (execBlock ceiling body s) :=
      writes_execBlock h.1 s
    refine .given fun holds => ?_
    split
    · exact hbody.mono (by omega)
    · exact (ih h.2).mono (by omega)

theorem writes_execOtherwise {otherwise : Option (List Statement)}
    (h : ∀ u ∈ otherwise.getD [], ∀ s,
      WritesAtMost (u.answerBound ceiling) s (u.exec ceiling s)) (s : State) :
    WritesAtMost (answerBoundOfOtherwise ceiling otherwise) s
      (execOtherwise ceiling otherwise s) := by
  cases otherwise with
  | none =>
    rw [execOtherwise]
    exact .of_outputs_eq rfl
  | some body =>
    rw [execOtherwise, answerBoundOfOtherwise]
    exact writes_execBlock h s

/-- Done or failed, a statement writes no more lines than its bound. -/
theorem writes_exec (t : Statement) (s : State) :
    WritesAtMost (t.answerBound ceiling) s (t.exec ceiling s) := by
  induction t using induction_on_children generalizing s with
  | step t ih =>
    cases t with
    | output expression =>
      rw [exec, answerBound]
      refine .given fun value => ?_
      show (s.outputs.push _).size ≤ s.outputs.size + 1
      exact Nat.le_of_eq (Array.size_push _)
    | ifElse condition body elseIfs otherwise =>
      rw [children, List.forall_mem_append, List.forall_mem_append] at ih
      obtain ⟨hb, he, ho⟩ := ih
      rw [exec, answerBound]
      refine .given fun holds => ?_
      split
      · exact (writes_execBlock hb s).mono (Nat.le_max_left _ _)
      · exact (writes_execBranches he (writes_execOtherwise ho) s).mono (Nat.le_max_right _ _)
    | whileLoop condition body =>
      rw [exec, answerBound]
      exact writes_repeatWhile (writes_execBlock ih) ceiling s
    | forLoop counter first last step body =>
      rw [exec_forLoop, answerBound]
      refine .given fun first => .given fun last => .given fun step => ?_
      exact writes_countedLoop (writes_execBlock ih) first s
    | declareVariables | assign | declareArray | assignElement | swap | fill =>
      refine .of_outputs_eq (exec_of_children law_outputs (obeys_outputs (by simp [kind])) ?_ s)
      intro u hu
      cases hu

end

end Statement

/-- Done or failed, a statement adds at most as many lines to the outputs as its shape allows under
the ceiling, and a block as many as its statements together. -/
theorem exec_answers_le (ceiling : Nat) (s : State) :
    (∀ t : Statement, ∃ lines : List String,
      (t.exec ceiling s).state.outputs.toList = s.outputs.toList ++ lines ∧
        lines.length ≤ t.answerBound ceiling) ∧
    ∀ block : List Statement, ∃ lines : List String,
      (Statement.execBlock ceiling block s).state.outputs.toList = s.outputs.toList ++ lines ∧
        lines.length ≤ Statement.answerBoundOfBlock ceiling block := by
  have added : ∀ (n : Nat) (o : Outcome), s.Extends o.state → WritesAtMost n s o →
      ∃ lines : List String, o.state.outputs.toList = s.outputs.toList ++ lines ∧
        lines.length ≤ n := by
    intro n o he hw
    obtain ⟨values, hv⟩ := he.outputs
    refine ⟨_, hv, ?_⟩
    have hl := congrArg List.length hv
    unfold WritesAtMost at hw
    simp only [Array.length_toList, List.length_append] at hl
    omega
  constructor
  · intro t
    exact added _ _ (t.exec_of_parts law_extends (fun p _ => p.obeys_extends) s) (t.writes_exec s)
  · intro block
    refine added _ _ ?_ (Statement.writes_execBlock (fun u _ => u.writes_exec) s)
    exact Statement.execBlock_of_parts law_extends block (fun p _ => p.obeys_extends) s

-- Two loops, each of which wants more turns than it has, reach the bound before they fail.
example :
    let inner : Statement := .forLoop "j" "1" "2" "1" [.output "i", .output "j"]
    let outer : Statement := .forLoop "i" "1" "9" "1" [inner, .declareVariables "x"]
    outer.answerBound 2 = 8 ∧ (outer.exec 2 .empty).state.outputs.size = 8 ∧
      (outer.exec 2 .empty).fault? = some (.bare (.possibleInfiniteLoop 2)) := by
  decide +kernel

end BlockScript
