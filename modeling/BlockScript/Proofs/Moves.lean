import BlockScript.Program
import Mathlib.Data.List.InsertIdx

/-!
# Editing by position

What is inserted, behind the last statement if its position is past that, can be taken out again,
and what is taken out can be put back (`Program.remove_insert`, `Program.insert_remove`). A move
does both: it takes a statement out and inserts it at its target (`Program.move_of_get?`). The
program without the statement is then the same before and after (`Program.remove_placed`), and this
alone decides where the next move of the statement leads (`Program.move_placed`). So moves of one
statement compose, and the move back undoes a move.
-/

set_option autoImplicit false

namespace BlockScript.Program

section
variable {p : Program} {s : Statement} {a b c i : Nat}

theorem get?_eq_none_iff : p.get? i = none ↔ p.length ≤ i :=
  List.getElem?_eq_none_iff

theorem exists_get?_of_lt (h : i < p.length) : ∃ s, p.get? i = some s :=
  ⟨p.statements[i], List.getElem?_eq_getElem h⟩

theorem lt_length_of_get? (h : p.get? i = some s) : i < p.length :=
  (List.getElem?_eq_some_iff.1 h).1

/-! ## Inserting and taking out -/

theorem length_insert (p : Program) (i : Nat) (s : Statement) :
    (p.insert i s).length = p.length + 1 :=
  List.length_insertIdx_of_le_length (Nat.min_le_right i p.length) s

theorem length_remove (h : i < p.length) : (p.remove i).length + 1 = p.length := by
  have hl : (p.remove i).length = p.length - 1 := List.length_eraseIdx_of_lt h
  omega

/-- Without one of its statements a program still has a place for it at each of its positions. -/
theorem min_length_remove (ha : a < p.length) (hb : b < p.length) :
    min b (p.remove a).length = b := by
  have hl := length_remove ha
  omega

/-- What is past the end is inserted at the end. -/
theorem get?_insert (p : Program) (i : Nat) (s : Statement) :
    (p.insert i s).get? (min i p.length) = some s := by
  have hl : min i p.length ≤ p.statements.length := Nat.min_le_right i p.length
  show (p.statements.insertIdx (min i p.length) s)[min i p.length]? = some s
  rw [List.getElem?_insertIdx_self, if_pos hl]

theorem remove_insert (p : Program) (i : Nat) (s : Statement) :
    (p.insert i s).remove (min i p.length) = p := by
  show Program.mk ((p.statements.insertIdx (min i p.length) s).eraseIdx (min i p.length)) = p
  rw [List.eraseIdx_insertIdx_self]

theorem insert_remove (h : p.get? i = some s) : (p.remove i).insert i s = p := by
  obtain ⟨hi, rfl⟩ := List.getElem?_eq_some_iff.1 h
  have hm : min i (p.remove i).length = i := min_length_remove hi hi
  show Program.mk ((p.statements.eraseIdx i).insertIdx (min i (p.remove i).length)
    p.statements[i]) = p
  rw [hm, List.insertIdx_eraseIdx_getElem hi]

/-- Past the end there is nothing to remove. -/
theorem remove_of_le (h : p.length ≤ i) : p.remove i = p := by
  show Program.mk (p.statements.eraseIdx i) = p
  rw [List.eraseIdx_of_length_le h]

theorem takeOut_eq (p : Program) (i : Nat) : p.takeOut i = (p.get? i, p.remove i) := by
  unfold takeOut
  split
  · next h =>
    have hg : p.get? i = some (p.statements.get ⟨i, h⟩) := List.getElem?_eq_getElem h
    rw [hg]
  · next h =>
    have hl : p.length ≤ i := Nat.le_of_not_lt h
    rw [get?_eq_none_iff.2 hl, remove_of_le hl]

/-! ## Moves -/

theorem move_of_get? (hs : p.get? a = some s) (hb : b < p.length) :
    p.move a b = (true, (p.remove a).insert b s) := by
  rw [move, move?, if_pos hb, hs, Option.map_some]

theorem move_of_le (h : p.length ≤ a ∨ p.length ≤ b) : p.move a b = (false, p) := by
  have hm : p.move? a b = none := by
    rcases h with h | h
    · rw [move?, get?_eq_none_iff.2 h, Option.map_none, ite_self]
    · rw [move?, if_neg (Nat.not_lt.2 h)]
  rw [move, hm]

theorem length_placed (ha : a < p.length) (b : Nat) (s : Statement) :
    ((p.remove a).insert b s).length = p.length := by
  rw [length_insert, length_remove ha]

theorem get?_placed (ha : a < p.length) (hb : b < p.length) (s : Statement) :
    ((p.remove a).insert b s).get? b = some s := by
  have hg := (p.remove a).get?_insert b s
  rwa [min_length_remove ha hb] at hg

theorem remove_placed (ha : a < p.length) (hb : b < p.length) (s : Statement) :
    ((p.remove a).insert b s).remove b = p.remove a := by
  have hr := (p.remove a).remove_insert b s
  rwa [min_length_remove ha hb] at hr

/-- Where a statement has been moved to does not matter to the next move of it. -/
theorem move_placed (hs : p.get? a = some s) (hb : b < p.length) (hc : c < p.length) :
    ((p.remove a).insert b s).move b c = p.move a c := by
  have ha : a < p.length := lt_length_of_get? hs
  have hl : c < ((p.remove a).insert b s).length := by rwa [length_placed ha]
  rw [move_of_get? (get?_placed ha hb s) hl, remove_placed ha hb, move_of_get? hs hc]

/-- A statement that is moved to where it stands stays there. -/
theorem move_self (ha : a < p.length) : p.move a a = (true, p) := by
  obtain ⟨s, hs⟩ := exists_get?_of_lt ha
  rw [move_of_get? hs ha, insert_remove hs]

end

end Program

/-- A move puts its statement in place and leaves the others in their order; moves of one statement
compose, and the move back undoes a move. Inserting and taking out undo each other, and past the end
nothing is moved or taken. -/
theorem moves_compose (p : Program) :
    (∀ a b, a < p.length → b < p.length →
      ∃ q, p.move a b = (true, q) ∧ q.get? b = p.get? a ∧ q.remove b = p.remove a ∧
        q.move b a = (true, p) ∧ ∀ c, c < p.length → q.move b c = p.move a c) ∧
    (∀ a b, p.length ≤ a ∨ p.length ≤ b → p.move a b = (false, p)) ∧
    (∀ i s, (p.insert i s).takeOut (min i p.length) = (some s, p)) ∧
    (∀ i s q, p.takeOut i = (some s, q) → q.insert i s = p) ∧
    ∀ i, p.length ≤ i → p.takeOut i = (none, p) := by
  refine ⟨fun a b ha hb => ?_, fun a b => Program.move_of_le, fun i s => ?_, fun i s q h => ?_,
    fun i h => ?_⟩
  · obtain ⟨s, hs⟩ := Program.exists_get?_of_lt ha
    refine ⟨(p.remove a).insert b s, Program.move_of_get? hs hb, ?_, Program.remove_placed ha hb s,
      ?_, fun c hc => Program.move_placed hs hb hc⟩
    · rw [Program.get?_placed ha hb, hs]
    · rw [Program.move_placed hs hb ha, Program.move_self ha]
  · rw [Program.takeOut_eq, Program.get?_insert, Program.remove_insert]
  · rw [Program.takeOut_eq] at h
    obtain ⟨hs, rfl⟩ := Prod.mk.inj h
    exact Program.insert_remove hs
  · rw [Program.takeOut_eq, Program.get?_eq_none_iff.2 h, Program.remove_of_le h]

/-- The first of three statements is moved to the end and from there to the middle, which one move
could have done. A fourth is inserted far behind the last and taken out again. -/
theorem moves_compose_three :
    let first : Statement := .output "1"
    let second : Statement := .output "2"
    let third : Statement := .output "3"
    let p : Program := ⟨[first, second, third]⟩
    let q : Program := ⟨[second, third, first]⟩
    0 < p.length ∧ 1 < p.length ∧ 2 < p.length ∧ p.move 0 2 = (true, q) ∧ q.move 2 0 = (true, p) ∧
      q.move 2 1 = p.move 0 1 ∧ p.move 0 1 = (true, ⟨[second, first, third]⟩) ∧
      p.length ≤ 3 ∧ p.move 3 0 = (false, p) ∧ p.takeOut 3 = (none, p) ∧
      (p.insert 10 first).takeOut 3 = (some first, p) ∧
      p.takeOut 1 = (some second, ⟨[first, third]⟩) ∧
      (Program.mk [first, third]).insert 1 second = p := by
  intro first second third p q
  obtain ⟨hmove, hno, hinsert, htake, hnone⟩ := moves_compose p
  obtain ⟨q', hq, -, -, hback, hnext⟩ := hmove 0 2 (by decide) (by decide)
  obtain rfl : q = q' := congrArg Prod.snd hq
  exact ⟨by decide, by decide, by decide, hq, hback, hnext 1 (by decide), rfl, by decide,
    hno 3 0 (.inl (by decide)), hnone 3 (by decide), hinsert 10 first, rfl, htake 1 second _ rfl⟩

end BlockScript
