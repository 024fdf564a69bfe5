import BlockScript.Proofs.Origins

/-!
# What a conditional loop does, turn by turn

`afterRuns` is the sequence of states that a body leads through, and says nothing about a loop. A
loop has taken `k` turns when its test has held in the first `k` of these states (`Turned`).
`LoopEnd` lists the ways in which it can end then: the test fails to hold or has no answer, the body
fails, or the turns are spent while the test holds still. Every loop ends in one of these ways and
in no other (`repeatWhile_eq_iff`). The test is asked once more than there are turns, and what it
says comes before the ceiling.

For a loop as a statement this has three parts (`whileLoop_eq_turns`). With `N` turns allowed, the
loop is done in some state of the sequence, or it fails for its ceiling in the state after `N`
completed runs, which is there only if all of them are done (`afterRuns body s N = some s'`), or it
fails with a fault of the condition or the body. A loop inside of the body may be stopped by the
same ceiling, which raises the same fault: this is a fault of the body and falls under the third
part. In a condition the left side counts before the right side, and both before the operator.
-/

set_option autoImplicit false

namespace BlockScript

open Outcome

/-- The state in which a step is done. -/
def Outcome.done? : Outcome → Option State
  | .done s => some s
  | .failed _ _ => none

theorem Outcome.done?_eq_some_iff {o : Outcome} {s : State} : o.done? = some s ↔ o = .done s := by
  cases o <;> simp [done?]

/-- The state after `k` runs of a body, if all of them are done. -/
def afterRuns (body : State → Outcome) (s : State) : (k : Nat) → Option State
  | 0 => some s
  | k + 1 => (afterRuns body s k).bind fun u => (body u).done?

section
variable {body : State → Outcome} {s : State}

theorem afterRuns_succ_iff {k : Nat} {s' : State} :
    afterRuns body s (k + 1) = some s' ↔ ∃ u, afterRuns body s k = some u ∧ body u = .done s' := by
  simp only [afterRuns, Option.bind_eq_some_iff, Outcome.done?_eq_some_iff]

/-- What is reached by more runs has been done by fewer. -/
theorem exists_afterRuns_of_le {k n : Nat} {s' : State} (hk : k ≤ n)
    (h : afterRuns body s n = some s') : ∃ u, afterRuns body s k = some u := by
  induction hk generalizing s' with
  | refl => exact ⟨s', h⟩
  | step _ ih =>
    obtain ⟨u, hu, -⟩ := afterRuns_succ_iff.1 h
    exact ih hu

end

section
variable (test : State → Except Fault Bool) (body : State → Outcome) (s : State)

/-- The first `k` states that a body leads through are all there, and a test holds in them. -/
def HoldsBefore (k : Nat) : Prop :=
  ∀ j < k, ∃ u, afterRuns body s j = some u ∧ test u = .ok true

/-- A loop has taken `k` turns, and is in the state `u` after them. -/
def Turned (k : Nat) (u : State) : Prop :=
  HoldsBefore test body s k ∧ afterRuns body s k = some u

/-- The ways in which a loop with `n` turns can end. -/
inductive LoopEnd (ceiling n : Nat) : Outcome → Prop
  | stopped {k : Nat} {u : State} (hk : k ≤ n) (h : Turned test body s k u)
      (ht : test u = .ok false) : LoopEnd ceiling n (.done u)
  | unanswered {k : Nat} {u : State} {f : Fault} (hk : k ≤ n) (h : Turned test body s k u)
      (ht : test u = .error f) : LoopEnd ceiling n (.failed f u)
  | broken {k : Nat} {u s' : State} {f : Fault} (hk : k < n) (h : Turned test body s k u)
      (ht : test u = .ok true) (hb : body u = .failed f s') : LoopEnd ceiling n (.failed f s')
  | spent {u : State} (h : Turned test body s n u) (ht : test u = .ok true) :
      LoopEnd ceiling n (.failed (.bare (.possibleInfiniteLoop ceiling)) u)

end

section
variable {test : State → Except Fault Bool} {body : State → Outcome} {s : State} {ceiling n : Nat}

theorem holdsBefore_succ_iff {k : Nat} {u : State} (h : afterRuns body s k = some u) :
    HoldsBefore test body s (k + 1) ↔ HoldsBefore test body s k ∧ test u = .ok true := by
  constructor
  · intro hb
    obtain ⟨v, hv, ht⟩ := hb k (Nat.lt_succ_self k)
    cases h.symm.trans hv
    exact ⟨fun j hj => hb j (Nat.lt_succ_of_lt hj), ht⟩
  · rintro ⟨hb, ht⟩ j hj
    rcases Nat.lt_succ_iff_lt_or_eq.1 hj with hj | rfl
    · exact hb j hj
    · exact ⟨u, h, ht⟩

theorem Turned.succ {k : Nat} {u s' : State} (h : Turned test body s k u)
    (ht : test u = .ok true) (hb : body u = .done s') : Turned test body s (k + 1) s' :=
  ⟨(holdsBefore_succ_iff h.2).2 ⟨h.1, ht⟩, afterRuns_succ_iff.2 ⟨u, h.2, hb⟩⟩

/-- After `k` turns a loop goes on as one that starts there with the turns that are left. -/
theorem repeatWhile_of_turned {k : Nat} {u : State} (h : Turned test body s k u) :
    repeatWhile ceiling test body (k + n) s = repeatWhile ceiling test body n u := by
  induction k generalizing n u with
  | zero =>
    obtain ⟨-, hu⟩ := h
    cases hu
    rw [Nat.zero_add]
  | succ k ih =>
    obtain ⟨hb, hu⟩ := h
    obtain ⟨v, hv, hdone⟩ := afterRuns_succ_iff.1 hu
    obtain ⟨hb, ht⟩ := (holdsBefore_succ_iff hv).1 hb
    rw [Nat.add_assoc, Nat.add_comm 1 n, ih ⟨hb, hv⟩, repeatWhile_eq, ht, given_ok, if_pos rfl,
      unlessSpent, hdone, done_andThen]

theorem LoopEnd.repeatWhile_eq {o : Outcome} (h : LoopEnd test body s ceiling n o) :
    repeatWhile ceiling test body n s = o := by
  cases h with
  | @stopped k u hk h ht =>
    obtain ⟨m, rfl⟩ := Nat.exists_eq_add_of_le hk
    rw [repeatWhile_of_turned h, BlockScript.repeatWhile_eq, ht]
    rfl
  | @unanswered k u f hk h ht =>
    obtain ⟨m, rfl⟩ := Nat.exists_eq_add_of_le hk
    rw [repeatWhile_of_turned h, BlockScript.repeatWhile_eq, ht]
    rfl
  | @broken k u s' f hk h ht hb =>
    obtain ⟨m, rfl⟩ := Nat.exists_eq_add_of_lt hk
    rw [Nat.add_assoc, repeatWhile_of_turned h, BlockScript.repeatWhile_eq, ht, given_ok,
      if_pos rfl, unlessSpent, hb, failed_andThen]
  | spent h ht =>
    rw [← Nat.add_zero n, repeatWhile_of_turned h, BlockScript.repeatWhile_eq, ht]
    rfl

/-- A loop that has not ended before takes its next turn. The induction is on the turns that are
taken, from the first state on. -/
theorem loopEnd_or_turned {k : Nat} (hk : k ≤ n) :
    (∃ o, LoopEnd test body s ceiling n o) ∨ ∃ u, Turned test body s k u := by
  induction k with
  | zero => exact .inr ⟨s, fun j hj => absurd hj (Nat.not_lt_zero j), rfl⟩
  | succ k ih =>
    rcases ih (Nat.le_of_succ_le hk) with hend | ⟨u, hu⟩
    · exact .inl hend
    cases ht : test u with
    | error f => exact .inl ⟨_, .unanswered (Nat.le_of_succ_le hk) hu ht⟩
    | ok again =>
      cases again with
      | false => exact .inl ⟨_, .stopped (Nat.le_of_succ_le hk) hu ht⟩
      | true =>
        cases hb : body u with
        | done s' => exact .inr ⟨s', hu.succ ht hb⟩
        | failed f s' => exact .inl ⟨_, .broken hk hu ht hb⟩

theorem exists_loopEnd : ∃ o, LoopEnd test body s ceiling n o := by
  rcases loopEnd_or_turned (Nat.le_refl n) with hend | ⟨u, hu⟩
  · exact hend
  cases ht : test u with
  | error f => exact ⟨_, .unanswered (Nat.le_refl n) hu ht⟩
  | ok again =>
    cases again with
    | false => exact ⟨_, .stopped (Nat.le_refl n) hu ht⟩
    | true => exact ⟨_, .spent hu ht⟩

/-- The ways in which a loop can end are the ways in which it does. -/
theorem repeatWhile_eq_iff {o : Outcome} :
    repeatWhile ceiling test body n s = o ↔ LoopEnd test body s ceiling n o := by
  refine ⟨fun h => ?_, LoopEnd.repeatWhile_eq⟩
  obtain ⟨o', hend⟩ : ∃ o', LoopEnd test body s ceiling n o' := exists_loopEnd
  rw [← h, hend.repeatWhile_eq]
  exact hend

end

/-! ## Conditions -/

/-- No condition reaches a ceiling. -/
theorem Condition.holds_ne_ceiling (c : Condition) (s : State) (ceiling : Nat) :
    c.holds s ≠ .error (.bare (.possibleInfiniteLoop ceiling)) := by
  have hbare : ∀ text, evaluate text s ≠ .error (.bare (.possibleInfiniteLoop ceiling)) := by
    intro text h
    obtain ⟨span, lexeme, ho, -⟩ := evaluate_error_pointsAt h
    cases ho
  intro h
  rcases holds_eq_error_iff.1 h with hl | ⟨a, -, hr⟩ | ⟨a, b, -, -, -, hf⟩
  · exact hbare c.left hl
  · exact hbare c.right hr
  · cases hf

/-! ## Loops as statements -/

/-- A conditional loop is done in the state where its condition is false first, fails for the
ceiling when its turns are spent, and otherwise fails with the first fault in the order of the
states, the condition before the body in each. -/
theorem whileLoop_eq_turns (ceiling : Nat) (c : Condition) (block : List Statement) (s : State) :
    let body := Statement.execBlock ceiling block
    let run := Statement.exec ceiling (.whileLoop c block) s
    (∀ s', run = .done s' ↔
      ∃ k ≤ ceiling, HoldsBefore c.holds body s k ∧ afterRuns body s k = some s' ∧
        c.holds s' = .ok false) ∧
    (∀ s', run = .failed (.bare (.possibleInfiniteLoop ceiling)) s' ∧
        afterRuns body s ceiling = some s' ↔
      HoldsBefore c.holds body s (ceiling + 1) ∧ afterRuns body s ceiling = some s') ∧
    (∀ f s', run = .failed f s' ↔
      (HoldsBefore c.holds body s (ceiling + 1) ∧ afterRuns body s ceiling = some s' ∧
        f = .bare (.possibleInfiniteLoop ceiling)) ∨
      ∃ k ≤ ceiling, HoldsBefore c.holds body s k ∧ ∃ u, afterRuns body s k = some u ∧
        (c.holds u = .error f ∧ s' = u ∨
          k < ceiling ∧ c.holds u = .ok true ∧ body u = .failed f s')) ∧
    ∀ u f, c.holds u = .error f ↔
      evaluate c.left u = .error f ∨
      (∃ a, evaluate c.left u = .ok a ∧ evaluate c.right u = .error f) ∨
      ∃ a b, evaluate c.left u = .ok a ∧ evaluate c.right u = .ok b ∧
        Text.trim c.operator ∉ [">", "<", "==", "!=", ">=", "<="] ∧
        f = .bare (.invalidOperator (Text.trim c.operator)) := by
  intro body run
  have hrun : ∀ o, run = o ↔ LoopEnd c.holds body s ceiling ceiling o := by
    intro o
    show Statement.exec ceiling (.whileLoop c block) s = o ↔ _
    rw [Statement.exec]
    exact repeatWhile_eq_iff
  refine ⟨fun s' => ?_, fun s' => ?_, fun f s' => ?_, fun u f => Condition.holds_eq_error_iff⟩
  · rw [hrun]
    constructor
    · rintro ⟨hk, ⟨hb, hu⟩, ht⟩
      exact ⟨_, hk, hb, hu, ht⟩
    · rintro ⟨k, hk, hb, hu, ht⟩
      exact .stopped hk ⟨hb, hu⟩ ht
  · refine and_congr_left fun hn => ?_
    rw [hrun, holdsBefore_succ_iff hn]
    constructor
    · intro hend
      cases hend with
      | unanswered hk h ht => exact absurd ht (c.holds_ne_ceiling _ _)
      | @broken k u _ _ hk h ht hb =>
        -- The body has been done in every state before the last.
        obtain ⟨v, hv⟩ := exists_afterRuns_of_le hk hn
        obtain ⟨u', hu, hdone⟩ := afterRuns_succ_iff.1 hv
        cases h.2.symm.trans hu
        cases hb.symm.trans hdone
      | spent h ht => exact ⟨h.1, ht⟩
    · rintro ⟨hb, ht⟩
      exact .spent ⟨hb, hn⟩ ht
  · rw [hrun]
    constructor
    · intro hend
      cases hend with
      | unanswered hk h ht => exact .inr ⟨_, hk, h.1, _, h.2, .inl ⟨ht, rfl⟩⟩
      | broken hk h ht hb => exact .inr ⟨_, Nat.le_of_lt hk, h.1, _, h.2, .inr ⟨hk, ht, hb⟩⟩
      | spent h ht => exact .inl ⟨(holdsBefore_succ_iff h.2).2 ⟨h.1, ht⟩, h.2, rfl⟩
    · rintro (⟨hb, hu, rfl⟩ | ⟨k, hk, hb, u, hu, ⟨ht, rfl⟩ | ⟨hlt, ht, hf⟩⟩)
      · obtain ⟨hb, ht⟩ := (holdsBefore_succ_iff hu).1 hb
        exact .spent ⟨hb, hu⟩ ht
      · exact .unanswered hk ⟨hb, hu⟩ ht
      · exact .broken hlt ⟨hb, hu⟩ ht hf

-- With two turns allowed, the third time the condition is asked it is its fault that counts.
example :
    let s : State := ⟨⟨[("x", 2)]⟩, .empty, #[]⟩
    let loop (left : String) : Statement := .whileLoop ⟨left, "!=", "9"⟩ [.assign "x" "x - 1"]
    (loop "6 / x").exec 2 s =
        .failed (.inText "6 / x" .divisionByZero ⟨2, 1⟩) ⟨⟨[("x", 0)]⟩, .empty, #[]⟩ ∧
      (loop "6").exec 2 s = .failed (.bare (.possibleInfiniteLoop 2)) ⟨⟨[("x", 0)]⟩, .empty, #[]⟩ ∧
      (loop "9 + x").exec 2 s = .done ⟨⟨[("x", 0)]⟩, .empty, #[]⟩ := by
  decide +kernel

end BlockScript
