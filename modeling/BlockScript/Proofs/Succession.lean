import BlockScript.Proofs.Running

/-!
# One program after another

A program that follows another runs as the second does on the state that the first leaves, and what
fails in it is counted from the end of the first (`Program.runFrom_append`, `Program.runFrom_add`).
A report is how the block of all statements ends, with a position. It names the statement that
failed, and that is the first one to fail when all before it are done in turn, in the state that
they leave (`Program.runFrom_eq_failed_iff`). What stands behind that statement is never looked
at: two programs that agree up to it have the same report (`Program.execute_eq_of_agree`), so that
no edit further down shows (`Program.Edit.get?_apply`).
-/

set_option autoImplicit false

namespace BlockScript

/-! ## Reports in a row -/

namespace Report

/-- The report of a program that stands `n` statements further down. -/
def shift (n : Nat) (r : Report) : Report :=
  { r with failure := r.failure.map fun failure =>
      { failure with statement := failure.statement + n } }

/-- Goes on with `next` unless a statement has failed. -/
def andThen (r : Report) (next : State → Report) : Report :=
  match r.failure with
  | none => next r.state
  | some _ => r

end Report

/-- Statements that are done one after the other, from the first state to the last. -/
inductive Statement.DoneInTurn (ceiling : Nat) : List Statement → State → State → Prop
  | nil {s : State} : DoneInTurn ceiling [] s s
  | cons {t : Statement} {rest : List Statement} {s u s' : State} (h : t.exec ceiling s = .done u)
      (hr : DoneInTurn ceiling rest u s') : DoneInTurn ceiling (t :: rest) s s'

namespace Program

instance : Append Program :=
  ⟨fun p q => ⟨p.statements ++ q.statements⟩⟩

section
variable {ceiling : Nat}

theorem runFrom_add (index n : Nat) (statements : List Statement) (s : State) :
    runFrom ceiling (index + n) statements s = (runFrom ceiling index statements s).shift n := by
  induction statements generalizing index s with
  | nil => rfl
  | cons t rest ih =>
    rw [runFrom, runFrom]
    cases t.exec ceiling s with
    | failed f s' => rfl
    | done s' =>
      show runFrom ceiling (index + n + 1) rest s' = _
      rw [Nat.add_right_comm]
      exact ih (index + 1) s'

theorem runFrom_append (index : Nat) (first second : List Statement) (s : State) :
    runFrom ceiling index (first ++ second) s =
      (runFrom ceiling index first s).andThen (runFrom ceiling (index + first.length) second) := by
  induction first generalizing index s with
  | nil => rfl
  | cons t rest ih =>
    rw [List.cons_append, runFrom, runFrom]
    cases t.exec ceiling s with
    | failed f s' => rfl
    | done s' =>
      show runFrom ceiling (index + 1) (rest ++ second) s' = _
      rw [ih, List.length_cons, Nat.add_right_comm index 1, Nat.add_assoc]

/-- A program fails in its first statement that fails, when those before it are done in turn. -/
theorem runFrom_eq_failed_iff {index j : Nat} {statements : List Statement} {s s' : State}
    {f : Fault} :
    runFrom ceiling index statements s = ⟨s', some ⟨j, f⟩⟩ ↔
      ∃ k t u, j = index + k ∧ statements[k]? = some t ∧
        Statement.DoneInTurn ceiling (statements.take k) s u ∧
        t.exec ceiling u = .failed f s' := by
  induction statements generalizing index s with
  | nil => simp [runFrom]
  | cons t rest ih =>
    -- The first statement decides. If it fails nothing behind it is reached, so that `k` is zero.
    -- If it is done it is the first of those that are done in turn.
    rw [runFrom]
    cases he : t.exec ceiling s with
    | failed f' u =>
      constructor
      · intro h
        cases h
        exact ⟨0, t, s, rfl, rfl, .nil, he⟩
      · rintro ⟨k, t', v, rfl, ht, hd, hx⟩
        cases k with
        | zero =>
          cases hd
          cases ht
          cases he.symm.trans hx
          rfl
        | succ k =>
          cases hd with
          | cons h _ => cases he.symm.trans h
    | done u =>
      show runFrom ceiling (index + 1) rest u = _ ↔ _
      rw [ih]
      constructor
      · rintro ⟨k, t', v, rfl, ht, hd, hx⟩
        exact ⟨k + 1, t', v, by omega, ht, .cons he hd, hx⟩
      · rintro ⟨k, t', v, rfl, ht, hd, hx⟩
        cases k with
        | zero =>
          cases hd
          cases ht
          cases he.symm.trans hx
        | succ k =>
          cases hd with
          | cons h hd =>
            cases he.symm.trans h
            exact ⟨k, t', v, by omega, ht, hd, hx⟩

/-- A program reports a statement exactly when that one fails in the state that those before it
leave when they are done in turn. -/
theorem execute_eq_failed_iff {p : Program} {s s' : State} {k : Nat} {f : Fault} :
    p.execute ceiling s = ⟨s', some ⟨k, f⟩⟩ ↔
      ∃ t u, p.get? k = some t ∧ Statement.DoneInTurn ceiling (p.statements.take k) s u ∧
        t.exec ceiling u = .failed f s' := by
  refine runFrom_eq_failed_iff.trans ⟨?_, ?_⟩
  · rintro ⟨k', t, u, hk, ht, hd, hx⟩
    obtain rfl : k = k' := by omega
    exact ⟨t, u, ht, hd, hx⟩
  · rintro ⟨t, u, ht, hd, hx⟩
    exact ⟨k, t, u, (Nat.zero_add k).symm, ht, hd, hx⟩

/-- A program runs up to the statement that fails, and no further. -/
theorem execute_eq_of_agree {p p' : Program} {s : State} {r : Report} {k : Nat} {f : Fault}
    (hr : p.execute ceiling s = r) (hf : r.failure = some ⟨k, f⟩)
    (hp : ∀ i ≤ k, p'.get? i = p.get? i) : p'.execute ceiling s = r := by
  obtain ⟨s', failure⟩ := r
  obtain rfl : failure = some ⟨k, f⟩ := hf
  obtain ⟨t, u, ht, hd, hx⟩ := execute_eq_failed_iff.1 hr
  have htake : p'.statements.take k = p.statements.take k := by
    apply List.ext_getElem?
    intro i
    rw [List.getElem?_take, List.getElem?_take]
    split
    · next hi => exact hp i (Nat.le_of_lt hi)
    · rfl
  exact execute_eq_failed_iff.2 ⟨t, u, (hp k k.le_refl).trans ht, htake.symm ▸ hd, hx⟩

theorem lt_length_of_failure {p : Program} {s : State} {k : Nat} {f : Fault}
    (hf : (p.execute ceiling s).failure = some ⟨k, f⟩) : k < p.length := by
  have hr : p.execute ceiling s = ⟨(p.execute ceiling s).state, some ⟨k, f⟩⟩ :=
    congrArg (Report.mk _) hf
  obtain ⟨t, u, ht, -, -⟩ := execute_eq_failed_iff.1 hr
  exact (List.getElem?_eq_some_iff.1 ht).1

end

/-! ## Edits -/

/-- One change to the statements of a program. -/
inductive Edit where
  | push (t : Statement)
  | insert (i : Nat) (t : Statement)
  | remove (i : Nat)
  | move (source target : Nat)
  | set (i : Nat) (t : Statement)

namespace Edit

/-- The program after a change. A move that there is not leaves the program as it is. -/
def apply (p : Program) : Edit → Program
  | .push t => p.push t
  | .insert i t => p.insert i t
  | .remove i => p.remove i
  | .move source target => (p.move? source target).getD p
  | .set i t => p.set i t

/-- All positions that a change is about are greater than `k`. What is added at the end is behind
every statement that there is. -/
def Beyond (k : Nat) : Edit → Prop
  | .push _ => True
  | .insert i _ => k < i
  | .remove i => k < i
  | .move source target => k < source ∧ k < target
  | .set i _ => k < i

instance (k : Nat) (edit : Edit) : Decidable (edit.Beyond k) :=
  match edit with
  | .push _ => inferInstanceAs (Decidable True)
  | .insert _ _ | .remove _ | .set _ _ => inferInstanceAs (Decidable (_ < _))
  | .move _ _ => inferInstanceAs (Decidable (_ ∧ _))

end Edit

section
variable {p : Program} {i j k : Nat} {t : Statement}

theorem get?_push_of_lt (hj : j < p.length) : (p.push t).get? j = p.get? j :=
  List.getElem?_append_left hj

/-- Whatever is past the end is added at the end, and this too is behind `j`. -/
theorem get?_insert_of_lt (hj : j < i) (hp : j < p.length) : (p.insert i t).get? j = p.get? j := by
  show (p.statements.insertIdx (min i p.length) t)[j]? = p.statements[j]?
  rw [List.getElem?_insertIdx, if_pos (by omega)]

theorem get?_remove_of_lt (hj : j < i) : (p.remove i).get? j = p.get? j := by
  show (p.statements.eraseIdx i)[j]? = p.statements[j]?
  rw [List.getElem?_eraseIdx, if_pos hj]

theorem get?_set_of_lt (hj : j < i) : (p.set i t).get? j = p.get? j := by
  show (p.statements.set i t)[j]? = p.statements[j]?
  rw [List.getElem?_set, if_neg (by omega)]

theorem lt_length_of_get?_eq {p' : Program} (h : p'.get? k = p.get? k) (hk : k < p.length) :
    k < p'.length := by
  have hs : p'.get? k = some p.statements[k] := h.trans (List.getElem?_eq_getElem hk)
  exact (List.getElem?_eq_some_iff.1 hs).1

/-- A change beyond `k` keeps the statements up to `k`. -/
theorem Edit.get?_apply {edit : Edit} (h : edit.Beyond k) (hk : k < p.length) (hj : j ≤ k) :
    (edit.apply p).get? j = p.get? j := by
  have hp : j < p.length := by omega
  cases edit with
  | push t => exact get?_push_of_lt hp
  | insert i t => exact get?_insert_of_lt (Nat.lt_of_le_of_lt hj h) hp
  | remove i => exact get?_remove_of_lt (Nat.lt_of_le_of_lt hj h)
  | set i t => exact get?_set_of_lt (Nat.lt_of_le_of_lt hj h)
  | move source target =>
    obtain ⟨hs, ht⟩ := h
    rw [apply, move?]
    split
    · next hlt =>
      cases hg : p.get? source with
      | none => rfl
      | some t =>
        have hr : (p.remove source).get? j = p.get? j := get?_remove_of_lt (by omega)
        have hl : j < (p.remove source).length := lt_length_of_get?_eq hr hp
        exact (get?_insert_of_lt (by omega) hl).trans hr
    · rfl

/-- The program after changes, one after the other. -/
def edited (p : Program) (edits : List Edit) : Program :=
  edits.foldl Edit.apply p

theorem get?_edited {edits : List Edit} (h : ∀ edit ∈ edits, edit.Beyond k) (hk : k < p.length)
    (hj : j ≤ k) : (p.edited edits).get? j = p.get? j := by
  induction edits generalizing p with
  | nil => rfl
  | cons edit edits ih =>
    obtain ⟨hedit, hedits⟩ := List.forall_mem_cons.1 h
    have hl : k < (edit.apply p).length :=
      lt_length_of_get?_eq (Edit.get?_apply hedit hk k.le_refl) hk
    exact (ih hedits hl).trans (Edit.get?_apply hedit hk hj)

end

end Program

/-- A program that follows another runs on the state that this leaves, and what fails in it is
counted from the start of the first. The report names the first statement that fails, and no change
behind that statement shows in it. -/
theorem execute_succession (ceiling : Nat) (p : Program) (s : State) :
    (∀ q : Program, (p ++ q).execute ceiling s =
      (p.execute ceiling s).andThen fun s' => (q.execute ceiling s').shift p.length) ∧
    Statement.execBlock ceiling p.statements s = (p.execute ceiling s).outcome ∧
    (∀ (k : Nat) (f : Fault) (s' : State), p.execute ceiling s = ⟨s', some ⟨k, f⟩⟩ ↔
      ∃ t u, p.get? k = some t ∧ Statement.DoneInTurn ceiling (p.statements.take k) s u ∧
        t.exec ceiling u = .failed f s') ∧
    ∀ (k : Nat) (f : Fault) (edits : List Program.Edit),
      (p.execute ceiling s).failure = some ⟨k, f⟩ → (∀ edit ∈ edits, edit.Beyond k) →
        (p.edited edits).execute ceiling s = p.execute ceiling s := by
  refine ⟨fun q => ?_, ?_, fun k f s' => Program.execute_eq_failed_iff, fun k f edits hf he => ?_⟩
  · have ha : (p ++ q).execute ceiling s = (p.execute ceiling s).andThen
        (Program.runFrom ceiling (0 + p.length) q.statements) :=
      Program.runFrom_append 0 p.statements q.statements s
    rw [ha]
    congr 1
    funext s'
    exact Program.runFrom_add 0 p.length q.statements s'
  · exact (Program.outcome_runFrom ceiling 0 p.statements s).symm
  · have hl : k < p.length := Program.lt_length_of_failure hf
    exact Program.execute_eq_of_agree rfl hf fun i hi => Program.get?_edited he hl hi

/-- The third statement divides by zero inside of a loop. Counted from the second program it is the
first, and nothing that is inserted, moved, overwritten or removed behind it shows. -/
theorem execute_succession_division :
    let first : Program := ⟨[.declareVariables "x", .assign "x" "1"]⟩
    let second : Program := ⟨[.whileLoop ⟨"x", "<", "9"⟩ [.output "6 / x", .assign "x" "x - 1"],
      .assign "x" "2", .output "x"]⟩
    let fault : Fault := .inText "6 / x" .divisionByZero ⟨2, 1⟩
    let edits : List Program.Edit :=
      [.insert 9 (.output "7"), .move 5 3, .set 4 (.output "8"), .remove 5, .move 3 17]
    let s : State := ⟨⟨[("x", 0)]⟩, .empty, #["answer = 6"]⟩
    (second.execute 5 ⟨⟨[("x", 1)]⟩, .empty, #[]⟩) = ⟨s, some ⟨0, fault⟩⟩ ∧
      (first ++ second).run 5 = ⟨s, some ⟨2, fault⟩⟩ ∧
      (∀ edit ∈ edits, edit.Beyond 2) ∧
      ((first ++ second).edited edits).statements.drop 3 = [.output "7", .output "8"] ∧
      ((first ++ second).edited edits).run 5 = (first ++ second).run 5 := by
  intro first second fault edits s
  have hfirst : first.execute 5 .empty = ⟨⟨⟨[("x", 1)]⟩, .empty, #[]⟩, none⟩ := by decide +kernel
  have hsecond : second.execute 5 ⟨⟨[("x", 1)]⟩, .empty, #[]⟩ = ⟨s, some ⟨0, fault⟩⟩ := by
    decide +kernel
  have hboth : (first ++ second).run 5 = ⟨s, some ⟨2, fault⟩⟩ := by
    refine ((execute_succession 5 first .empty).1 second).trans ?_
    rw [hfirst]
    exact congrArg (Report.shift 2) hsecond
  have hbeyond : ∀ edit ∈ edits, edit.Beyond 2 := by decide
  refine ⟨hsecond, hboth, hbeyond, rfl, ?_⟩
  exact (execute_succession 5 (first ++ second) .empty).2.2.2 2 fault edits
    (congrArg Report.failure hboth) hbeyond

end BlockScript
