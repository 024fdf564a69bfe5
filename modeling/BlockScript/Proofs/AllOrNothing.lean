import BlockScript.Statement.Kind
import BlockScript.Proofs.Parts

/-!
# Statements that fail in one piece

A step is all or nothing when it leaves the state as it was if it fails (`Outcome.AllOrNothing`).
This goes through everything that is computed before a state is changed, and it does not go through
sequences: the one statement without a body that makes two changes in a row is a swap, and it has
found both places before the first change, so that neither can fail (`allOrNothing_swap`).

A statement with a body fails in one piece as long as nothing in the body has started: for a
condition, for the ends, the step or the counter of a counted loop, or for a ceiling of zero.
`Statement.Starts` says when something does start, from the state alone. A counted loop is taken to
start with its first turn even if there is nothing in its body, since the turn binds the counter,
and a loop that then runs out of turns leaves it bound.
-/

set_option autoImplicit false

namespace BlockScript

open Outcome

/-- A step from a state that leaves the state as it was if it fails. -/
def Outcome.AllOrNothing (s : State) (o : Outcome) : Prop :=
  ∀ f s', o = .failed f s' → s' = s

namespace Outcome.AllOrNothing

variable {s s' : State}

theorem done : AllOrNothing s (.done s') :=
  fun _ _ h => nomatch h

theorem failed (f : Fault) : AllOrNothing s (.failed f s) := by
  intro f' s' h
  cases h
  rfl

theorem given {α : Type} {x : Except Fault α} {next : α → Outcome}
    (hn : ∀ a, x = .ok a → AllOrNothing s (next a)) : AllOrNothing s (given s x next) := by
  cases x with
  | ok a => exact hn a rfl
  | error f => exact .failed f

end Outcome.AllOrNothing

/-! ## Statements without a body -/

section
variable (s : State)

theorem allOrNothing_setVariable (name : String) (value : Value) :
    AllOrNothing s (s.setVariable name value) := by
  rw [State.setVariable]
  split
  · exact .done
  · exact .failed _

theorem allOrNothing_setElement (name : String) (i value : Value) :
    AllOrNothing s (s.setElement name i value) := by
  rcases s.setElement_cases name i value with ⟨j, h⟩ | h | h <;> rw [h]
  · exact .done
  · exact .failed _
  · exact .failed _

theorem allOrNothing_declareVariables (names : String) :
    AllOrNothing s (runDeclareVariables names s) := by
  rw [runDeclareVariables]
  split
  · exact .failed _
  · exact .done

theorem allOrNothing_declareArray (name size : String) :
    AllOrNothing s (runDeclareArray name size s) := by
  rw [runDeclareArray]
  split
  · refine .given fun n _ => ?_
    rw [State.declareArray]
    split
    · exact .done
    · exact .failed _
  · exact .failed _

theorem allOrNothing_assignElement (name index expression : String) :
    AllOrNothing s (runAssignElement name index expression s) := by
  refine .given fun i _ => .given fun value _ => ?_
  exact allOrNothing_setElement s _ i value

/-- All items have values before the array is touched. -/
theorem allOrNothing_fill (name values : String) : AllOrNothing s (runFill name values s) := by
  rw [runFill]
  split
  · next hc =>
    refine .given fun elements _ => ?_
    rw [State.replaceArray, if_pos hc]
    exact .done
  · exact .failed _

theorem allOrNothing_swap (first second : String) : AllOrNothing s (runSwap first second s) := by
  refine .given fun firstKind _ => .given fun secondKind _ => ?_
  split
  · refine .given fun p hp => .given fun q hq => .given fun a _ => .given fun b _ => ?_
    -- Writing the first place leaves the second where it was found, even if they are the same.
    have hp := operand_eq_ok hp
    have hq := operand_eq_ok hq
    have h1 : Text.trim first ∈ (Statement.swap first second).texts := by simp [Statement.texts]
    have h2 : Text.trim second ∈ (Statement.swap first second).texts := by simp [Statement.texts]
    obtain ⟨s', hw, -, hf⟩ :=
      Place.write_of_found (Place.found_of_resolve hp) b h1 (Place.subject?_of_resolve hp)
    obtain ⟨s'', hw', -, -⟩ := Place.write_of_found (hf q (Place.found_of_resolve hq)) a h2
      (Place.subject?_of_resolve hq)
    rw [hw, done_andThen, hw']
    exact .done
  · exact .failed _

end

/-! ## Statements with a body -/

/-- Of several branches, the body of the first whose condition holds. All conditions before it are
evaluated, and none behind it. -/
inductive Statement.Takes (s : State) :
    List (Condition × List Statement) → List Statement → Prop
  | here {condition : Condition} {body : List Statement}
      {rest : List (Condition × List Statement)} (h : condition.holds s = .ok true) :
      Takes s ((condition, body) :: rest) body
  | later {condition : Condition} {body taken : List Statement}
      {rest : List (Condition × List Statement)} (h : condition.holds s = .ok false)
      (hr : Takes s rest taken) : Takes s ((condition, body) :: rest) taken

/-- Something in the body of a statement starts: the first statement of the body that is run, or
the counter of a loop, which is bound before any statement and even if there is none. -/
inductive Statement.Starts (ceiling : Nat) (s : State) : Statement → Prop
  | branch {condition : Condition} {body rest : List Statement} {first : Statement}
      {elseIfs : List (Condition × List Statement)} {otherwise : Option (List Statement)}
      (h : Takes s ((condition, body) :: elseIfs) (first :: rest)) :
      Starts ceiling s (.ifElse condition body elseIfs otherwise)
  | otherwise {condition : Condition} {body rest : List Statement} {first : Statement}
      {elseIfs : List (Condition × List Statement)}
      (h : ∀ branch ∈ (condition, body) :: elseIfs, branch.1.holds s = .ok false) :
      Starts ceiling s (.ifElse condition body elseIfs (some (first :: rest)))
  | turn {condition : Condition} {rest : List Statement} {first : Statement}
      (h : condition.holds s = .ok true) (hc : 0 < ceiling) :
      Starts ceiling s (.whileLoop condition (first :: rest))
  | count {counter first last step : String} {body : List Statement} {a b d : Value}
      (hfirst : evaluate first s = .ok a) (hlast : evaluate last s = .ok b)
      (hstep : evaluate step s = .ok d) (hname : Text.isName (Text.trim counter))
      (h : notPassed d b a) (hc : 0 < ceiling) :
      Starts ceiling s (.forLoop counter first last step body)

section
variable {ceiling : Nat} {s : State}

theorem allOrNothing_execBranches {branches : List (Condition × List Statement)}
    {fallback : State → Outcome} (hb : ∀ first rest, ¬Statement.Takes s branches (first :: rest))
    (hf : (∀ branch ∈ branches, branch.1.holds s = .ok false) → AllOrNothing s (fallback s)) :
    AllOrNothing s (Statement.execBranches ceiling branches fallback s) := by
  induction branches with
  | nil =>
    rw [Statement.execBranches]
    exact hf nofun
  | cons branch branches ih =>
    obtain ⟨condition, body⟩ := branch
    rw [Statement.execBranches]
    refine .given fun holds hh => ?_
    cases holds with
    | true =>
      cases body with
      | nil =>
        rw [if_pos rfl, Statement.execBlock]
        exact .done
      | cons first rest => exact absurd (.here hh) (hb first rest)
    | false =>
      rw [if_neg Bool.false_ne_true]
      refine ih (fun first rest ht => hb first rest (.later hh ht)) fun hall => ?_
      exact hf (List.forall_mem_cons.2 ⟨hh, hall⟩)

theorem allOrNothing_execOtherwise {otherwise : Option (List Statement)}
    (h : ∀ first rest, otherwise ≠ some (first :: rest)) :
    AllOrNothing s (Statement.execOtherwise ceiling otherwise s) := by
  match otherwise with
  | none =>
    rw [Statement.execOtherwise]
    exact .done
  | some [] =>
    rw [Statement.execOtherwise, Statement.execBlock]
    exact .done
  | some (first :: rest) => exact absurd rfl (h first rest)

/-- A loop whose body does nothing can fail in any of its turns, and has changed nothing then. -/
theorem allOrNothing_repeatWhile {test : State → Except Fault Bool} {body : State → Outcome}
    (hb : ∀ s, body s = .done s) (n : Nat) :
    AllOrNothing s (repeatWhile ceiling test body n s) := by
  induction n with
  | zero =>
    rw [repeatWhile_eq]
    refine .given fun again _ => ?_
    split
    · exact .failed _
    · exact .done
  | succ n ih =>
    rw [repeatWhile_eq]
    refine .given fun again _ => ?_
    split
    · rw [unlessSpent, hb, done_andThen]
      exact ih
    · exact .done

theorem allOrNothing_whileLoop {condition : Condition} {body : List Statement}
    (h : ¬Statement.Starts ceiling s (.whileLoop condition body)) :
    AllOrNothing s (Statement.exec ceiling (.whileLoop condition body) s) := by
  rw [Statement.exec]
  cases body with
  | nil =>
    refine allOrNothing_repeatWhile (fun s => ?_) ceiling
    rw [Statement.execBlock]
  | cons first rest =>
    rw [repeatWhile_eq]
    refine .given fun again ha => ?_
    cases again with
    | false => exact .done
    | true =>
      cases ceiling with
      | zero => exact .failed _
      | succ n => exact absurd (.turn ha (Nat.succ_pos n)) h

theorem allOrNothing_forLoop {counter first last step : String} {body : List Statement}
    (h : ¬Statement.Starts ceiling s (.forLoop counter first last step body)) :
    AllOrNothing s (Statement.exec ceiling (.forLoop counter first last step body) s) := by
  rw [Statement.exec_forLoop]
  refine .given fun a ha => .given fun b hb => .given fun d hd => ?_
  unfold countedLoop
  split
  · exact .failed _
  split
  · exact .failed _
  next hname _ =>
  rw [repeatFor_eq]
  split
  · next hp =>
    cases ceiling with
    | zero => exact .failed _
    | succ n => exact absurd (.count ha hb hd (by simpa using hname) hp (Nat.succ_pos n)) h
  · exact .done

/-- A statement fails in one piece unless something in its body has started. -/
theorem Statement.allOrNothing_exec {t : Statement} (h : ¬t.Starts ceiling s) :
    AllOrNothing s (t.exec ceiling s) := by
  cases t with
  | declareVariables names =>
    rw [exec]
    exact allOrNothing_declareVariables s names
  | assign target expression =>
    rw [exec]
    exact .given fun value _ => allOrNothing_setVariable s _ value
  | output expression =>
    rw [exec]
    exact .given fun _ _ => .done
  | ifElse condition body elseIfs otherwise =>
    rw [exec_ifElse]
    refine allOrNothing_execBranches (fun first rest ht => h (.branch ht)) fun hall => ?_
    apply allOrNothing_execOtherwise
    rintro first rest rfl
    exact h (.otherwise hall)
  | whileLoop condition body => exact allOrNothing_whileLoop h
  | forLoop counter first last step body => exact allOrNothing_forLoop h
  | declareArray name size =>
    rw [exec]
    exact allOrNothing_declareArray s name size
  | assignElement name index expression =>
    rw [exec]
    exact allOrNothing_assignElement s name index expression
  | swap first second =>
    rw [exec]
    exact allOrNothing_swap s first second
  | fill name values =>
    rw [exec]
    exact allOrNothing_fill s name values

end

/-- A statement without a body that fails leaves the state exactly as it was, and so does a choice
or a loop that fails before it starts. A counted loop starts when its counter is bound, also with an
empty body. -/
theorem exec_failed_unchanged (ceiling : Nat) (t : Statement) (s s' : State) (f : Fault)
    (h : t.exec ceiling s = .failed f s') :
    (t.kind ∈ [.variableDeclaration, .assignment, .expression, .arrayDeclaration,
      .arrayAssignment, .swap, .arrayFill] → s' = s) ∧
    (t.kind ∈ [.if_, .while_, .for_] → ¬t.Starts ceiling s → s' = s) := by
  refine ⟨fun hk => ?_, fun _ hs => Statement.allOrNothing_exec hs f s' h⟩
  refine Statement.allOrNothing_exec (fun hs => ?_) f s' h
  cases hs <;> simp [Statement.kind] at hk

/-- The last item of a list lies outside of the array, and the array keeps its elements; a second
condition has no operator, and a loop may take no turn, and neither body has started. -/
theorem exec_failed_unchanged_late :
    let s : State := ⟨⟨[("x", 2)]⟩, ⟨[("a", #[1, 5])]⟩, #["answer = 2"]⟩
    let fill : Statement := .fill "a" "a[1], x, a[x]"
    let choice : Statement := .ifElse ⟨"x", "<", "0"⟩ [.assign "x" "1"]
      [(⟨"x", "=", "2"⟩, [.assign "x" "3"])] none
    let loop : Statement := .whileLoop ⟨"x", "<", "3"⟩ [.assign "x" "x + 1"]
    (∃ s', fill.exec 9 s = .failed (.inText "a[x]" (.indexOutOfBounds "a" 2) ⟨0, 4⟩) s' ∧ s' = s) ∧
      (¬choice.Starts 9 s ∧
        ∃ s', choice.exec 9 s = .failed (.bare (.invalidOperator "=")) s' ∧ s' = s) ∧
      ¬loop.Starts 0 s ∧
        ∃ s', loop.exec 0 s = .failed (.bare (.possibleInfiniteLoop 0)) s' ∧ s' = s := by
  intro s fill choice loop
  have hfirst : (⟨"x", "<", "0"⟩ : Condition).holds s = .ok false := by decide +kernel
  have hsecond : (⟨"x", "=", "2"⟩ : Condition).holds s = .error (.bare (.invalidOperator "=")) := by
    decide +kernel
  have hchoice : ¬choice.Starts 9 s := by
    show ¬Statement.Starts 9 s (.ifElse _ _ _ none)
    rintro ⟨ht⟩
    cases ht with
    | here h => cases hfirst.symm.trans h
    | later _ ht =>
      cases ht with
      | here h => cases hsecond.symm.trans h
      | later h _ => cases hsecond.symm.trans h
  have hloop : ¬loop.Starts 0 s := by
    show ¬Statement.Starts 0 s (.whileLoop _ _)
    intro h
    cases h with
    | turn _ hc => exact Nat.lt_irrefl 0 hc
  obtain ⟨u, hu⟩ : ∃ s', fill.exec 9 s =
      .failed (.inText "a[x]" (.indexOutOfBounds "a" 2) ⟨0, 4⟩) s' := ⟨s, by decide +kernel⟩
  obtain ⟨v, hv⟩ : ∃ s', choice.exec 9 s = .failed (.bare (.invalidOperator "=")) s' :=
    ⟨s, by decide +kernel⟩
  obtain ⟨w, hw⟩ : ∃ s', loop.exec 0 s = .failed (.bare (.possibleInfiniteLoop 0)) s' :=
    ⟨s, by decide +kernel⟩
  refine ⟨⟨u, hu, (exec_failed_unchanged 9 fill s u _ hu).1 (by decide)⟩, ⟨hchoice, v, hv, ?_⟩,
    hloop, w, hw, (exec_failed_unchanged 0 loop s w _ hw).2 (by decide) hloop⟩
  exact (exec_failed_unchanged 9 choice s v _ hv).2 (by decide) hchoice

end BlockScript
