import BlockScript.Expr.Token

/-!
# The order of scanned pieces

Scanning goes from left to right: the pieces of a text stand one behind the other, and each of them
takes up at least one byte.
-/

set_option autoImplicit false

namespace BlockScript

/-- The letters are the characters of two ranges. -/
theorem Text.isAlpha_iff {c : Char} :
    c.isAlpha ↔ ('A' ≤ c ∧ c ≤ 'Z') ∨ ('a' ≤ c ∧ c ≤ 'z') := by
  change (decide ('A' ≤ c ∧ c ≤ 'Z') || (decide ('a' ≤ c) && decide (c ≤ 'z'))) = true ↔ _
  simp only [Bool.or_eq_true, Bool.and_eq_true, decide_eq_true_eq]

namespace Piece

theorem start_read (start : Nat) (c : Char) (rest : List Char) :
    (read start c rest).span.start = start := by
  unfold read
  split
  · rfl
  · split
    · rfl
    · split <;> rfl

/-- A piece is never empty. -/
theorem length_read_pos (start : Nat) (c : Char) (rest : List Char) :
    0 < (read start c rest).span.length := by
  have hc := c.utf8Size_pos
  unfold read
  split
  · simpa [span, Text.byteLength] using hc
  · split
    · simp only [span, Text.byteLength_cons]; omega
    · split
      · simp only [span, Text.byteLength_cons]; omega
      · exact hc

theorem kind_read_ne_finish {start : Nat} {c : Char} {rest : List Char} {t : Token}
    (h : read start c rest = .token t) : t.kind ≠ .finish := by
  unfold read at h
  split at h
  · next kind hk =>
    cases h
    rintro rfl
    revert hk
    unfold TokenKind.ofSymbol?
    split <;> simp
  · split at h
    · cases h; simp
    · split at h
      · cases h; simp
      · cases h

/-- Every piece starts where scanning started or later. -/
theorem le_start_of_mem_scanFrom {start : Nat} {cs : List Char} {p : Piece}
    (h : p ∈ scanFrom start cs) : start ≤ p.span.start := by
  fun_induction scanFrom start cs with
  | case1 => simp at h
  | case2 start c rest _ ih => exact Nat.le_trans (Nat.le_add_right _ _) (ih h)
  | case3 start c rest _ piece ih =>
    rcases List.mem_cons.1 h with rfl | h
    · exact Nat.le_of_eq (start_read start c rest).symm
    · have hs : start ≤ piece.span.stop := by
        rw [Span.stop, start_read]; exact Nat.le_add_right _ _
      exact Nat.le_trans hs (ih h)

theorem length_pos_of_mem_scanFrom {start : Nat} {cs : List Char} {p : Piece}
    (h : p ∈ scanFrom start cs) : 0 < p.span.length := by
  fun_induction scanFrom start cs with
  | case1 => simp at h
  | case2 start c rest _ ih => exact ih h
  | case3 start c rest _ piece ih =>
    rcases List.mem_cons.1 h with rfl | h
    · exact length_read_pos start c rest
    · exact ih h

/-- The end of a text is none of its tokens. -/
theorem kind_ne_finish_of_mem_scanFrom {start : Nat} {cs : List Char} {t : Token}
    (h : .token t ∈ scanFrom start cs) : t.kind ≠ .finish := by
  fun_induction scanFrom start cs with
  | case1 => simp at h
  | case2 start c rest _ ih => exact ih h
  | case3 start c rest _ piece ih =>
    rcases List.mem_cons.1 h with h | h
    · exact kind_read_ne_finish h.symm
    · exact ih h

/-- Pieces do not overlap and come in the order of their places. -/
theorem scanFrom_inOrder (start : Nat) (cs : List Char) :
    (scanFrom start cs).Pairwise fun p q => p.span.stop ≤ q.span.start := by
  fun_induction scanFrom start cs with
  | case1 => exact .nil
  | case2 start c rest _ ih => exact ih
  | case3 start c rest _ piece ih =>
    exact .cons (fun _ hq => le_start_of_mem_scanFrom hq) ih

/-- No two pieces start at the same place. -/
theorem nodup_starts_scanFrom (start : Nat) (cs : List Char) :
    ((scanFrom start cs).map (·.span.start)).Nodup := by
  refine List.pairwise_map.2 ((scanFrom_inOrder start cs).imp_of_mem ?_)
  intro p q hp _ hpq
  have hl := length_pos_of_mem_scanFrom hp
  rw [Span.stop] at hpq
  omega

end Piece

end BlockScript
