import BlockScript.Program

/-!
# How statements run

Loops and blocks by equations, in which every step that can fail is joined to what follows it by
`Outcome.andThen`. Both loops take turns out of a number of turns that is left to them
(`unlessSpent`), and fail when they want another and have none. A program runs as the block of its
statements does, and its report says where that block has failed (`Program.outcome_runFrom`).
-/

set_option autoImplicit false

namespace BlockScript

open Outcome

/-! ## Steps -/

theorem andThen_assoc (o : Outcome) (next last : State → Outcome) :
    (o.andThen next).andThen last = o.andThen fun s => (next s).andThen last := by
  cases o <;> rfl

section
variable {s s' : State}

theorem given_ok {α : Type} (a : α) (next : α → Outcome) : given s (.ok a) next = next a := rfl

theorem given_eq_done {α : Type} {x : Except Fault α} {next : α → Outcome} :
    given s x next = .done s' ↔ ∃ a, x = .ok a ∧ next a = .done s' := by
  cases x <;> simp [given]

theorem given_eq_failed {α : Type} {x : Except Fault α} {next : α → Outcome} {f : Fault} :
    given s x next = .failed f s' ↔
      (s' = s ∧ x = .error f) ∨ ∃ a, x = .ok a ∧ next a = .failed f s' := by
  cases x <;> simp [given, and_comm, eq_comm]

theorem andThen_eq_done {o : Outcome} {next : State → Outcome} :
    o.andThen next = .done s' ↔ ∃ u, o = .done u ∧ next u = .done s' := by
  cases o <;> simp

end

/-! ## Loops -/

/-- Takes a turn of a loop if there is one left, of `n`. -/
def unlessSpent (ceiling : Nat) (s : State) (turn : Nat → Outcome) : (n : Nat) → Outcome
  | 0 => .failed (.bare (.possibleInfiniteLoop ceiling)) s
  | n + 1 => turn n

section
variable {ceiling : Nat} {test : State → Except Fault Bool} {body : State → Outcome}
  {counter : String} {step last : Value}

theorem repeatWhile_eq (n : Nat) (s : State) :
    repeatWhile ceiling test body n s = given s (test s) fun again =>
      if again then
        unlessSpent ceiling s (fun k => (body s).andThen (repeatWhile ceiling test body k)) n
      else .done s := by
  cases n <;> rfl

/-- The turn of a counted loop for one value of its counter, and what follows it. -/
def countedTurn (counter : String) (step current : Value) (body : State → Outcome)
    (rest : Value → State → Outcome) (s : State) : Outcome :=
  (body (s.bindVariable counter current)).andThen fun s' =>
    match Value.add? current step with
    | none => .done s'
    | some next => rest next s'

theorem repeatFor_eq (n : Nat) (current : Value) (s : State) :
    repeatFor ceiling counter step last body n current s =
      if notPassed step last current then
        unlessSpent ceiling s (fun k => countedTurn counter step current body
          (repeatFor ceiling counter step last body k) s) n
      else .done s := by
  cases n with
  | zero => rfl
  | succ n =>
    rw [repeatFor, unlessSpent, countedTurn]
    cases body (s.bindVariable counter current) <;> rfl

end

/-- A counted loop from its first to its last value. -/
def countedLoop (ceiling : Nat) (counter : String) (first last step : Value)
    (body : State → Outcome) (s : State) : Outcome :=
  if !Text.isName counter then .failed (.bare (.invalidIdentifier counter)) s
  else if step = 0 then .failed (.bare .zeroStep) s
  else
    (repeatFor ceiling counter step last body ceiling first s).andThen fun s' =>
      .done (restoreVariable counter (s.valueOf? counter) s')

/-! ## Statements -/

namespace Statement

/-- A choice treats its first condition as it treats the others. -/
theorem exec_ifElse (ceiling : Nat) (condition : Condition) (body : List Statement)
    (elseIfs : List (Condition × List Statement)) (otherwise : Option (List Statement))
    (s : State) :
    exec ceiling (.ifElse condition body elseIfs otherwise) s =
      execBranches ceiling ((condition, body) :: elseIfs) (execOtherwise ceiling otherwise) s := by
  rw [exec, execBranches]

theorem exec_forLoop (ceiling : Nat) (counter first last step : String) (body : List Statement)
    (s : State) :
    exec ceiling (.forLoop counter first last step body) s =
      given s (evaluate first s) fun first =>
      given s (evaluate last s) fun last =>
      given s (evaluate step s) fun step =>
      countedLoop ceiling (Text.trim counter) first last step (execBlock ceiling body) s := by
  rw [exec]
  rfl

theorem execBlock_cons (ceiling : Nat) (statement : Statement) (rest : List Statement)
    (s : State) :
    execBlock ceiling (statement :: rest) s =
      (exec ceiling statement s).andThen (execBlock ceiling rest) := by
  rw [execBlock]
  cases exec ceiling statement s <;> rfl

theorem execBlock_append (ceiling : Nat) (block rest : List Statement) (s : State) :
    execBlock ceiling (block ++ rest) s =
      (execBlock ceiling block s).andThen (execBlock ceiling rest) := by
  induction block generalizing s with
  | nil => rw [List.nil_append, execBlock, done_andThen]
  | cons statement block ih =>
    rw [List.cons_append, execBlock_cons, execBlock_cons]
    cases exec ceiling statement s with
    | done s' => exact ih s'
    | failed f s' => rfl

end Statement

/-! ## Programs -/

namespace Report

/-- A report without the position of the statement that failed. -/
def outcome (r : Report) : Outcome :=
  match r.failure with
  | none => .done r.state
  | some failure => .failed failure.fault r.state

theorem state_outcome (r : Report) : r.outcome.state = r.state := by
  rw [outcome]
  cases r.failure <;> rfl

theorem outcome_eq_done_iff {r : Report} {s : State} : r.outcome = .done s ↔ r = ⟨s, none⟩ := by
  obtain ⟨state, failure⟩ := r
  cases failure <;> simp [outcome]

end Report

/-- A program ends as the block of its statements does. -/
theorem Program.outcome_runFrom (ceiling index : Nat) (statements : List Statement) (s : State) :
    (runFrom ceiling index statements s).outcome = Statement.execBlock ceiling statements s := by
  induction statements generalizing index s with
  | nil =>
    rw [runFrom, Statement.execBlock]
    rfl
  | cons statement rest ih =>
    rw [runFrom, Statement.execBlock]
    cases statement.exec ceiling s with
    | done s' => exact ih (index + 1) s'
    | failed f s' => rfl

end BlockScript
