import BlockScript.Proofs.Frame

/-!
# What a counted loop counts

A counted loop goes through an arithmetic progression. `OnNearSide` tells which integers lie before
the last value or on it, and `termCount` is how many terms of the exact progression do
(`lt_termCount_iff`). The loop computes with values, in a range that it can reach the end of. Past
that end lies nothing that is on the near side, so that the loop stops where the progression does
(`repeatFor_runsThrough`): it takes one turn for each term, as far as its turns go, and whatever
its body does to the counter, the next turn binds the next term. When there are more terms than the
ceiling allows, the loop fails and leaves the state of its last turn.
-/

set_option autoImplicit false

namespace BlockScript

open Outcome

/-! ## Exact progressions -/

/-- An integer that is not past `last` for someone who goes by `step`. -/
def OnNearSide (step last n : Int) : Prop :=
  (0 < step ∧ n ≤ last) ∨ (step < 0 ∧ last ≤ n)

/-- How many of the integers `first`, `first + step`, … come before `last` is passed. -/
def termCount (first last step : Int) : Nat :=
  ((last - first).fdiv step + 1).toNat

/-- The first `n` integers of a progression. -/
def terms (first step : Int) (n : Nat) : List Int :=
  (List.range n).map fun k : Nat => first + k * step

section
variable {first last step : Int}

/-- The terms that are counted are those on the near side of the last value. -/
theorem lt_termCount_iff (hs : step ≠ 0) {k : Nat} :
    k < termCount first last step ↔ OnNearSide step last (first + k * step) := by
  have hq : k < termCount first last step ↔ (k : Int) ≤ (last - first).fdiv step := by
    rw [termCount, Int.lt_toNat]
    omega
  rw [hq, OnNearSide]
  rcases Int.lt_or_gt_of_ne hs with hneg | hpos
  · -- Going down is going up with all signs changed.
    rw [← Int.neg_fdiv_neg, Int.fdiv_eq_ediv_of_nonneg _ (by omega),
      Int.le_ediv_iff_mul_le (by omega), Int.mul_neg]
    omega
  · rw [Int.fdiv_eq_ediv_of_nonneg _ (by omega), Int.le_ediv_iff_mul_le hpos]
    omega

theorem termCount_eq_zero (hs : step ≠ 0) (h : ¬OnNearSide step last first) :
    termCount first last step = 0 := by
  have hz : ¬0 < termCount first last step := by
    rw [lt_termCount_iff hs]
    simpa using h
  omega

theorem termCount_eq_succ (hs : step ≠ 0) (h : OnNearSide step last first) :
    termCount first last step = termCount (first + step) last step + 1 := by
  have hpos : 0 < termCount first last step := by
    rw [lt_termCount_iff hs]
    simpa using h
  have hnext : (last - (first + step)).fdiv step = (last - first).fdiv step - 1 := by
    rw [show last - (first + step) = last - first + -1 * step by omega,
      Int.add_mul_fdiv_right _ _ hs]
    omega
  rw [termCount] at hpos ⊢
  rw [termCount, hnext]
  omega

theorem terms_succ (n : Nat) : terms first step (n + 1) = first :: terms (first + step) step n := by
  rw [terms, List.range_succ_eq_map, List.map_cons, List.map_map]
  congr 1
  · simp
  · apply List.map_congr_left
    intro k _
    show first + ((k + 1 : Nat) : Int) * step = first + step + k * step
    rw [Int.natCast_add, Int.add_mul]
    omega

end

/-! ## Values -/

theorem notPassed_iff {step last current : Value} :
    notPassed step last current = true ↔ OnNearSide step.toInt last.toInt current.toInt := by
  simp only [notPassed, OnNearSide, Bool.or_eq_true, Bool.and_eq_true, decide_eq_true_eq,
    Int64.lt_iff_toInt_lt, Int64.le_iff_toInt_le, Int64.toInt_zero]

/-- Outside of the range of values nothing is on the near side of a value. -/
theorem not_onNearSide_of_add? {step last current : Value} (h : Value.add? current step = none) :
    ¬OnNearSide step.toInt last.toInt (current.toInt + step.toInt) := by
  have hout : ¬Value.InRange (current.toInt + step.toInt) := Value.ofInt?_eq_none_iff.1 h
  obtain ⟨hlow, hhigh⟩ := Value.inRange_toInt current
  obtain ⟨llow, lhigh⟩ := Value.inRange_toInt last
  unfold Value.InRange at hout
  unfold OnNearSide at *
  omega

/-! ## Turns -/

/-- Binds a counter to one value after the other and runs a body for each, up to the first turn that
fails. -/
def runThrough (counter : String) (body : State → Outcome) : List Value → State → Outcome
  | [], s => .done s
  | value :: rest, s =>
    (body (s.bindVariable counter value)).andThen (runThrough counter body rest)

/-- The end of a loop that wants `wanted` turns and has `n`. -/
def unlessOver (ceiling n wanted : Nat) (s : State) : Outcome :=
  if n < wanted then .failed (.bare (.possibleInfiniteLoop ceiling)) s else .done s

theorem unlessOver_succ (ceiling n wanted : Nat) :
    unlessOver ceiling (n + 1) (wanted + 1) = unlessOver ceiling n wanted := by
  funext s
  simp only [unlessOver, Nat.add_lt_add_iff_right]

/-- A step runs a body through the terms from `first` on, as far as `n` turns go. -/
def RunsThrough (ceiling : Nat) (counter : String) (step last : Value) (body : State → Outcome)
    (n : Nat) (first : Int) (run : State → Outcome) : Prop :=
  ∃ values : List Value,
    values.map (·.toInt) =
      terms first step.toInt (min (termCount first last.toInt step.toInt) n) ∧
    ∀ s, run s = (runThrough counter body values s).andThen
      (unlessOver ceiling n (termCount first last.toInt step.toInt))

namespace RunsThrough

variable {ceiling n : Nat} {counter : String} {step last : Value} {body : State → Outcome}
  {first : Int}

theorem past (hs : step.toInt ≠ 0) (h : ¬OnNearSide step.toInt last.toInt first) :
    RunsThrough ceiling counter step last body n first .done := by
  refine ⟨[], ?_, fun s => ?_⟩
  · rw [termCount_eq_zero hs h, Nat.zero_min]
    rfl
  · rw [termCount_eq_zero hs h]
    rfl

theorem spent (hs : step.toInt ≠ 0) (h : OnNearSide step.toInt last.toInt first) :
    RunsThrough ceiling counter step last body 0 first
      (.failed (.bare (.possibleInfiniteLoop ceiling))) := by
  refine ⟨[], ?_, fun s => ?_⟩
  · rw [Nat.min_zero]
    rfl
  · rw [termCount_eq_succ hs h]
    rfl

/-- One turn for the first term, and then the others. -/
theorem turn (hs : step.toInt ≠ 0) {current : Value}
    (h : OnNearSide step.toInt last.toInt current.toInt) {rest : State → Outcome}
    (hr : RunsThrough ceiling counter step last body n (current.toInt + step.toInt) rest) :
    RunsThrough ceiling counter step last body (n + 1) current.toInt fun s =>
      (body (s.bindVariable counter current)).andThen rest := by
  obtain ⟨values, hv, hr⟩ := hr
  refine ⟨current :: values, ?_, fun s => ?_⟩
  · rw [termCount_eq_succ hs h, Nat.add_min_add_right, terms_succ, List.map_cons, hv]
  · rw [termCount_eq_succ hs h, unlessOver_succ, runThrough, andThen_assoc]
    exact congrArg (andThen _) (funext hr)

end RunsThrough

/-- The induction is on the turns that are left. The counter that is computed for the next turn is
the next term, and if there is no such value the terms are over. -/
theorem repeatFor_runsThrough {ceiling : Nat} {counter : String} {step last : Value}
    {body : State → Outcome} (hs : step ≠ 0) (n : Nat) (current : Value) :
    RunsThrough ceiling counter step last body n current.toInt
      (repeatFor ceiling counter step last body n current) := by
  have hs' : step.toInt ≠ 0 := mt Value.eq_zero_iff.2 hs
  by_cases h : notPassed step last current
  · have hnear := notPassed_iff.1 h
    cases n with
    | zero =>
      have hr : repeatFor ceiling counter step last body 0 current =
          .failed (.bare (.possibleInfiniteLoop ceiling)) := by
        funext s
        rw [repeatFor_eq, if_pos h]
        rfl
      rw [hr]
      exact .spent hs' hnear
    | succ n =>
      have hr : repeatFor ceiling counter step last body (n + 1) current =
          countedTurn counter step current body (repeatFor ceiling counter step last body n) := by
        funext s
        rw [repeatFor_eq, if_pos h]
        rfl
      rw [hr]
      apply RunsThrough.turn hs' hnear
      cases hn : Value.add? current step with
      | none => exact .past hs' (not_onNearSide_of_add? hn)
      | some next =>
        rw [← Value.toInt_of_ofInt? hn]
        exact repeatFor_runsThrough hs n next
  · have hr : repeatFor ceiling counter step last body n current = .done := by
      funext s
      rw [repeatFor_eq, if_neg h]
    rw [hr]
    exact .past hs' (mt notPassed_iff.2 h)

/-- A counted loop runs its body for the terms of the exact progression, bound to the counter in
turn, until one turn fails or the ceiling is reached. If all terms are run, the counter is given the
value that it had before, or is unbound if it had none. -/
theorem forLoop_eq_progression (ceiling : Nat) (counter first last step : String)
    (body : List Statement) (s : State) (a b d : Value) (hfirst : evaluate first s = .ok a)
    (hlast : evaluate last s = .ok b) (hstep : evaluate step s = .ok d)
    (hname : Text.isName (Text.trim counter)) (hd : d ≠ 0) :
    let n := termCount a.toInt b.toInt d.toInt
    let loop : Statement := .forLoop counter first last step body
    (∀ k : Nat, k < n ↔ OnNearSide d.toInt b.toInt (a.toInt + k * d.toInt)) ∧
    (∃ values : List Value,
      values.map (·.toInt) =
        (List.range (min n ceiling)).map (fun k : Nat => a.toInt + k * d.toInt) ∧
      loop.exec ceiling s =
        (runThrough (Text.trim counter) (Statement.execBlock ceiling body) values s).andThen
          fun s' =>
            if ceiling < n then .failed (.bare (.possibleInfiniteLoop ceiling)) s'
            else .done (match s.valueOf? (Text.trim counter) with
              | some value => s'.bindVariable (Text.trim counter) value
              | none => s'.removeVariable (Text.trim counter))) ∧
    ∀ s', loop.exec ceiling s = .done s' →
      s'.valueOf? (Text.trim counter) = s.valueOf? (Text.trim counter) := by
  intro n loop
  refine ⟨fun k => lt_termCount_iff (mt Value.eq_zero_iff.2 hd), ?_,
    fun s' => Statement.valueOf?_of_countsWith rfl⟩
  obtain ⟨values, hv, hr⟩ : RunsThrough ceiling (Text.trim counter) d b
      (Statement.execBlock ceiling body) ceiling a.toInt _ := repeatFor_runsThrough hd ceiling a
  refine ⟨values, hv, ?_⟩
  rw [Statement.exec_forLoop, hfirst, hlast, hstep, given_ok, given_ok, given_ok, countedLoop,
    hname, if_neg (by decide), if_neg hd, hr, andThen_assoc]
  refine congrArg (andThen _) (funext fun s' => ?_)
  rw [unlessOver]
  split <;> rfl

/-- A loop up to the greatest value by steps of two takes two turns, and its next term is no value.
The body writes the counter, and in the end the counter is back at four. -/
theorem forLoop_eq_progression_greatest :
    let s : State := ⟨⟨[("i", 4)]⟩, .empty, #[]⟩
    let a : Value := 9223372036854775805
    let b : Value := 9223372036854775807
    let loop : Statement := .forLoop " i " "9223372036854775805" "9223372036854775807" "2"
      [.output "i", .assign "i" "0"]
    evaluate "9223372036854775805" s = .ok a ∧ evaluate "9223372036854775807" s = .ok b ∧
      evaluate "2" s = .ok 2 ∧ Text.isName (Text.trim " i ") ∧ (2 : Value) ≠ 0 ∧
      loop.exec 2 s = .done ⟨⟨[("i", 4)]⟩, .empty,
        #["answer = 9223372036854775805", "answer = 9223372036854775807"]⟩ ∧
      termCount a.toInt b.toInt (Int64.toInt 2) = 2 ∧
      (∀ k : Nat, k < 2 ↔ OnNearSide (Int64.toInt 2) b.toInt (a.toInt + k * Int64.toInt 2)) ∧
      ∀ s', loop.exec 2 s = .done s' → s'.valueOf? "i" = some 4 := by
  intro s a b loop
  have hfirst : evaluate "9223372036854775805" s = .ok a := by decide +kernel
  have hlast : evaluate "9223372036854775807" s = .ok b := by decide +kernel
  have hstep : evaluate "2" s = .ok 2 := by decide +kernel
  have hname : Text.isName (Text.trim " i ") := by decide +kernel
  have hd : (2 : Value) ≠ 0 := by decide
  obtain ⟨hn, -, hv⟩ := forLoop_eq_progression 2 " i " _ _ _ [.output "i", .assign "i" "0"] s a b 2
    hfirst hlast hstep hname hd
  have hc : termCount a.toInt b.toInt (Int64.toInt 2) = 2 := by decide +kernel
  have hi : Text.trim " i " = "i" := by decide +kernel
  rw [hc] at hn
  rw [hi] at hv
  exact ⟨hfirst, hlast, hstep, hname, hd, by decide +kernel, hc, hn, hv⟩

end BlockScript
