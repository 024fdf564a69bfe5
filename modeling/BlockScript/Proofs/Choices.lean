import BlockScript.Proofs.Running

/-!
# How a choice is decided

A choice looks at its conditions in order, all in the state it starts from. As long as they are
false it goes on (`Statement.execBranches_append`), and the first that is not false decides: its
body is run and no other, or its fault is the end and no body is run
(`Statement.execBranches_eq_iff`). Whatever stands behind it makes no difference
(`Statement.execBranches_append_of_decided`). If all are false, the last branch is run, if there is
one.

Further conditions are therefore worth no more than a choice with two branches
(`Statement.nested`): each of them can stand as the only statement in the last branch of the one
before it (`Statement.exec_nested`).
-/

set_option autoImplicit false

namespace BlockScript

open Outcome

namespace Statement

/-- A choice without further conditions, in which each of them is the only statement that runs when
the one before it does not hold. The last branch is that of the innermost choice, if there is
one. -/
def nested (condition : Condition) (body : List Statement)
    (elseIfs : List (Condition × List Statement)) (otherwise : Option (List Statement)) :
    Statement :=
  match elseIfs with
  | [] => .ifElse condition body [] otherwise
  | (next, nextBody) :: rest =>
    .ifElse condition body [] (some [nested next nextBody rest otherwise])

/-- The conditions of all branches are false in a state. -/
def Refused (s : State) (branches : List (Condition × List Statement)) : Prop :=
  ∀ branch ∈ branches, branch.1.holds s = .ok false

/-- Branches are decided by the first condition that is not false, if there is one. -/
theorem refused_or_decided (s : State) (branches : List (Condition × List Statement)) :
    Refused s branches ∨ ∃ before condition body after,
      branches = before ++ (condition, body) :: after ∧ Refused s before ∧
        condition.holds s ≠ .ok false := by
  induction branches with
  | nil => exact .inl nofun
  | cons branch rest ih =>
    obtain ⟨condition, body⟩ := branch
    by_cases hc : condition.holds s = .ok false
    · rcases ih with hr | ⟨before, later, laterBody, after, rfl, hb, hd⟩
      · exact .inl (List.forall_mem_cons.2 ⟨hc, hr⟩)
      · exact .inr ⟨(condition, body) :: before, later, laterBody, after, rfl,
          List.forall_mem_cons.2 ⟨hc, hb⟩, hd⟩
    · exact .inr ⟨[], condition, body, rest, rfl, nofun, hc⟩

section
variable {ceiling : Nat} {s : State} {fallback : State → Outcome}

theorem execBranches_append {before : List (Condition × List Statement)} (h : Refused s before)
    (rest : List (Condition × List Statement)) :
    execBranches ceiling (before ++ rest) fallback s = execBranches ceiling rest fallback s := by
  induction before with
  | nil => rfl
  | cons branch before ih =>
    obtain ⟨condition, body⟩ := branch
    obtain ⟨hc, hb⟩ := List.forall_mem_cons.1 h
    rw [List.cons_append, execBranches, show condition.holds s = _ from hc, given_ok,
      if_neg Bool.false_ne_true]
    exact ih hb

theorem execBranches_refused {branches : List (Condition × List Statement)}
    (h : Refused s branches) : execBranches ceiling branches fallback s = fallback s := by
  rw [← List.append_nil branches, execBranches_append h, execBranches]

/-- A condition that is not false decides for its body or with its fault, whatever comes behind
it. -/
theorem execBranches_decided {before : List (Condition × List Statement)} {condition : Condition}
    (hb : Refused s before) (hc : condition.holds s ≠ .ok false) (body : List Statement)
    (after : List (Condition × List Statement)) :
    execBranches ceiling (before ++ (condition, body) :: after) fallback s =
      given s (condition.holds s) fun _ => execBlock ceiling body s := by
  rw [execBranches_append hb, execBranches]
  cases h : condition.holds s with
  | error f => rfl
  | ok holds =>
    cases holds with
    | true => rfl
    | false => exact absurd h hc

/-- Branches end as the branch that decides, or as the fallback where none does. -/
theorem execBranches_eq_iff {branches : List (Condition × List Statement)} {o : Outcome} :
    execBranches ceiling branches fallback s = o ↔
      (∃ before c b after, branches = before ++ (c, b) :: after ∧ Refused s before ∧
        (c.holds s = .ok true ∧ o = execBlock ceiling b s ∨
          ∃ f, c.holds s = .error f ∧ o = .failed f s)) ∨
      Refused s branches ∧ o = fallback s := by
  constructor
  · rintro rfl
    rcases refused_or_decided s branches with hr | ⟨before, c, b, after, rfl, hb, hc⟩
    · exact .inr ⟨hr, execBranches_refused hr⟩
    · refine .inl ⟨before, c, b, after, rfl, hb, ?_⟩
      rw [execBranches_decided hb hc]
      cases h : c.holds s with
      | error f => exact .inr ⟨f, rfl, rfl⟩
      | ok holds =>
        cases holds with
        | true => exact .inl ⟨rfl, rfl⟩
        | false => exact absurd h hc
  · rintro (⟨before, c, b, after, rfl, hb, hc⟩ | ⟨hr, rfl⟩)
    · rcases hc with ⟨hc, rfl⟩ | ⟨f, hc, rfl⟩
      · rw [execBranches_decided hb (by simp [hc]), hc, given_ok]
      · rw [execBranches_decided hb (by simp [hc]), hc]
        rfl
    · exact execBranches_refused hr

/-- Where one of the shared branches decides, neither the branches behind them nor the fallback
make a difference. -/
theorem execBranches_append_of_decided {shared : List (Condition × List Statement)}
    (h : ¬Refused s shared) (after after' : List (Condition × List Statement))
    (fallback' : State → Outcome) :
    execBranches ceiling (shared ++ after') fallback' s =
      execBranches ceiling (shared ++ after) fallback s := by
  rcases refused_or_decided s shared with hr | ⟨before, c, b, rest, rfl, hb, hc⟩
  · exact absurd hr h
  · rw [List.append_assoc, List.append_assoc, List.cons_append, List.cons_append,
      execBranches_decided hb hc, execBranches_decided hb hc]

end

theorem execBlock_singleton (ceiling : Nat) (t : Statement) (s : State) :
    execBlock ceiling [t] s = exec ceiling t s := by
  rw [execBlock_cons]
  cases exec ceiling t s with
  | done s' => rw [done_andThen, execBlock]
  | failed f s' => rfl

/-- The induction is on the further conditions. -/
theorem exec_nested (ceiling : Nat) (condition : Condition) (body : List Statement)
    (elseIfs : List (Condition × List Statement)) (otherwise : Option (List Statement))
    (s : State) :
    exec ceiling (nested condition body elseIfs otherwise) s =
      exec ceiling (.ifElse condition body elseIfs otherwise) s := by
  induction elseIfs generalizing condition body with
  | nil => rfl
  | cons branch rest ih =>
    obtain ⟨next, nextBody⟩ := branch
    have hinner : execOtherwise ceiling (some [nested next nextBody rest otherwise]) s =
        execBranches ceiling ((next, nextBody) :: rest) (execOtherwise ceiling otherwise) s := by
      rw [execOtherwise, execBlock_singleton, ih, exec_ifElse]
    rw [nested, exec, exec, execBranches, hinner]

end Statement

/-- A choice ends as the choice does in which each further condition is nested in the last branch
before it. The first condition that is not false decides, by its body or its fault, and what stands
behind it makes no difference. -/
theorem choice_eq_nested (ceiling : Nat) (condition : Condition) (body : List Statement)
    (elseIfs : List (Condition × List Statement)) (otherwise : Option (List Statement))
    (s : State) :
    let run := Statement.exec ceiling (.ifElse condition body elseIfs otherwise) s
    run = Statement.exec ceiling (Statement.nested condition body elseIfs otherwise) s ∧
    (∀ o, run = o ↔
      (∃ before c b after, (condition, body) :: elseIfs = before ++ (c, b) :: after ∧
        (∀ branch ∈ before, branch.1.holds s = .ok false) ∧
        (c.holds s = .ok true ∧ o = Statement.execBlock ceiling b s ∨
          ∃ f, c.holds s = .error f ∧ o = .failed f s)) ∨
      (∀ branch ∈ (condition, body) :: elseIfs, branch.1.holds s = .ok false) ∧
        o = match otherwise with
          | none => .done s
          | some b => Statement.execBlock ceiling b s) ∧
    ∀ shared after after' otherwise', elseIfs = shared ++ after →
      (∃ branch ∈ (condition, body) :: shared, branch.1.holds s ≠ .ok false) →
      Statement.exec ceiling (.ifElse condition body (shared ++ after') otherwise') s = run := by
  intro run
  have hother : Statement.execOtherwise ceiling otherwise s = match otherwise with
      | none => .done s
      | some b => Statement.execBlock ceiling b s := by
    cases otherwise <;> rw [Statement.execOtherwise]
  have hrun : run = Statement.execBranches ceiling ((condition, body) :: elseIfs)
      (Statement.execOtherwise ceiling otherwise) s := Statement.exec_ifElse ..
  refine ⟨(Statement.exec_nested ..).symm, fun o => ?_, ?_⟩
  · rw [hrun, Statement.execBranches_eq_iff, hother]
    rfl
  · rintro shared after after' otherwise' rfl ⟨branch, hm, hd⟩
    rw [hrun, Statement.exec_ifElse]
    exact Statement.execBranches_append_of_decided (fun hr => hd (hr branch hm)) after after' _

-- The second condition holds, and the third, which divides by zero, is never asked.
example :
    let s : State := ⟨⟨[("x", 2)]⟩, .empty, #[]⟩
    let late : Condition × List Statement := (⟨"1 / 0", "==", "0"⟩, [.output "3"])
    (Statement.ifElse ⟨"x", "<", "0"⟩ [.output "1"] [(⟨"x", "==", "2"⟩, [.output "2"]), late]
        (some [.output "4"])).exec 9 s = .done (s.appendOutput "answer = 2") ∧
      (Statement.ifElse ⟨"x", "<", "0"⟩ [.output "1"] [late, (⟨"x", "==", "2"⟩, [.output "2"])]
        none).exec 9 s = .failed (.inText "1 / 0" .divisionByZero ⟨2, 1⟩) s := by
  decide +kernel

end BlockScript
