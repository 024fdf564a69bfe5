import BlockScript.Expr.Eval
import BlockScript.Proofs.Results
import Mathlib.Data.List.Nodup

/-!
# Nodes in a list

`Expr.nodes` lists the nodes of a tree with every child before its parent. This module says what
such a list is: the tree hangs at its last node (`Expr.treeAt_nodes`), a child stands before its
parent (`Expr.lt_of_mem_children`), and every node but the last has one parent
(`Expr.existsUnique_parent`). One pass over the list then finds the value of the tree, or the fault
of the first node that has no value (`Expr.eval_eq_ok_iff_pass`, `Expr.eval_eq_error_iff_pass`). The
value of a text is that of its tree (`evaluate_of_parse`).
-/

set_option autoImplicit false

namespace BlockScript

namespace Node

/-- Where a node is reported. -/
def span : Node → Span
  | .number _ span => span
  | .var _ span => span
  | .element _ _ span => span
  | .signed _ _ span => span
  | .binary _ _ _ span => span

/-- The places of the children of a node. -/
def children : Node → List Nat
  | .number _ _ => []
  | .var _ _ => []
  | .element _ index _ => [index]
  | .signed _ operand _ => [operand]
  | .binary _ left right _ => [left, right]

/-- The tree at a place of a list of nodes, children followed by their places. -/
inductive TreeAt (nodes : List Node) : Nat → Expr → Prop
  | number {i : Nat} {value : Value} {span : Span} (h : nodes[i]? = some (.number value span)) :
      TreeAt nodes i (.number value span)
  | var {i : Nat} {name : String} {span : Span} (h : nodes[i]? = some (.var name span)) :
      TreeAt nodes i (.var name span)
  | element {i j : Nat} {name : String} {span : Span} {index : Expr}
      (h : nodes[i]? = some (.element name j span)) (hj : TreeAt nodes j index) :
      TreeAt nodes i (.element name index span)
  | signed {i j : Nat} {sign : Sign} {span : Span} {operand : Expr}
      (h : nodes[i]? = some (.signed sign j span)) (hj : TreeAt nodes j operand) :
      TreeAt nodes i (.signed sign operand span)
  | binary {i j k : Nat} {operator : Operator} {span : Span} {left right : Expr}
      (h : nodes[i]? = some (.binary operator j k span)) (hj : TreeAt nodes j left)
      (hk : TreeAt nodes k right) : TreeAt nodes i (.binary operator left right span)

/-- A place holds one tree. -/
theorem TreeAt.unique {nodes : List Node} {i : Nat} {e e' : Expr} (h : TreeAt nodes i e)
    (h' : TreeAt nodes i e') : e = e' := by
  induction h generalizing e' with
  | number h =>
    cases h' with
    | number h2 => rw [h] at h2; cases h2; rfl
    | var h2 | element h2 _ | signed h2 _ | binary h2 _ _ => rw [h] at h2; cases h2
  | var h =>
    cases h' with
    | var h2 => rw [h] at h2; cases h2; rfl
    | number h2 | element h2 _ | signed h2 _ | binary h2 _ _ => rw [h] at h2; cases h2
  | element h _ ih =>
    cases h' with
    | element h2 hj => rw [h] at h2; cases h2; rw [ih hj]
    | number h2 | var h2 | signed h2 _ | binary h2 _ _ => rw [h] at h2; cases h2
  | signed h _ ih =>
    cases h' with
    | signed h2 hj => rw [h] at h2; cases h2; rw [ih hj]
    | number h2 | var h2 | element h2 _ | binary h2 _ _ => rw [h] at h2; cases h2
  | binary h _ _ ihl ihr =>
    cases h' with
    | binary h2 hj hk => rw [h] at h2; cases h2; rw [ihl hj, ihr hk]
    | number h2 | var h2 | element h2 _ | signed h2 _ => rw [h] at h2; cases h2

/-! ## One pass -/

/-- What a node comes to, given the values of the nodes before it. There is nothing to say when a
child is not among them. -/
def compute (s : State) (values : List Value) : Node → Option (Except Cause Value)
  | .number value _ => some (.ok value)
  | .var name _ => some (Expr.readVariable s name)
  | .element name index _ => (values[index]?).map (s.element name)
  | .signed sign operand _ => (values[operand]?).map sign.apply
  | .binary operator left right _ =>
    match values[left]?, values[right]? with
    | some a, some b => some (operator.apply a b)
    | _, _ => none

/-- Goes over nodes from left to right, with the values of the nodes before them, and adds the value
of each. The pass ends at the first node that has no value, with its fault. -/
def pass (s : State) : (values : List Value) → List Node →
    Option (Except (Cause × Span) (List Value))
  | values, [] => some (.ok values)
  | values, node :: rest =>
    match node.compute s values with
    | none => none
    | some (.error cause) => some (.error (cause, node.span))
    | some (.ok value) => pass s (values ++ [value]) rest

section
variable {s : State} {values : List Value} {node : Node}

theorem pass_cons_ok {value : Value} (h : node.compute s values = some (.ok value))
    (rest : List Node) : pass s values (node :: rest) = pass s (values ++ [value]) rest := by
  rw [pass, h]

theorem pass_cons_error {cause : Cause} (h : node.compute s values = some (.error cause))
    (rest : List Node) : pass s values (node :: rest) = some (.error (cause, node.span)) := by
  rw [pass, h]

end

/-- A pass that ends early ends at the first node without a value. -/
theorem pass_eq_error_iff {s : State} {nodes : List Node} {values : List Value} {cause : Cause}
    {span : Span} :
    pass s values nodes = some (.error (cause, span)) ↔
      ∃ before node after all, nodes = before ++ node :: after ∧
        pass s values before = some (.ok all) ∧ node.compute s all = some (.error cause) ∧
        span = node.span := by
  induction nodes generalizing values with
  | nil => simp [pass]
  | cons node rest ih =>
    constructor
    · intro h
      rw [pass] at h
      split at h
      · cases h
      · next hc =>
        cases h
        exact ⟨[], node, rest, values, rfl, rfl, hc, rfl⟩
      · next value hc =>
        obtain ⟨before, failing, after, all, rfl, hb, hf, hs⟩ := ih.1 h
        exact ⟨node :: before, failing, after, all, rfl, (pass_cons_ok hc before).trans hb, hf, hs⟩
    · rintro ⟨before, failing, after, all, hn, hb, hf, rfl⟩
      cases before with
      | nil =>
        cases hn
        cases hb
        exact pass_cons_error hf _
      | cons first before =>
        cases hn
        rw [pass] at hb ⊢
        split at hb
        · cases hb
        · cases hb
        · exact ih.2 ⟨before, failing, after, all, rfl, hb, hf, rfl⟩

end Node

namespace Expr

theorem size_pos (e : Expr) : 0 < e.size := by
  cases e <;> exact Nat.succ_pos _

/-! ## The shape of the list -/

/-- The tree hangs at the last of its nodes, wherever they stand. -/
theorem treeAt_nodesFrom (e : Expr) (before after : List Node) :
    Node.TreeAt (before ++ e.nodesFrom before.length ++ after) (before.length + e.size - 1) e := by
  induction e generalizing before after with
  | number value span => exact .number (by simp [nodesFrom, size])
  | var name span => exact .var (by simp [nodesFrom, size])
  | element name index span ih =>
    refine .element ?_ (by simpa [nodesFrom] using ih before _)
    simp [nodesFrom, size, length_nodesFrom]
  | signed sign operand span ih =>
    refine .signed ?_ (by simpa [nodesFrom] using ih before _)
    simp [nodesFrom, size, length_nodesFrom]
  | binary operator left right span ihl ihr =>
    have hl := ihl before (right.nodesFrom (before.length + left.size) ++
      .binary operator (before.length + left.size - 1)
        (before.length + left.size + right.size - 1) span :: after)
    have hr := ihr (before ++ left.nodesFrom before.length)
      (.binary operator (before.length + left.size - 1)
        (before.length + left.size + right.size - 1) span :: after)
    rw [List.length_append, length_nodesFrom] at hr
    rw [← List.append_assoc] at hl
    have hi : before.length + (left.size + right.size + 1) - 1 =
        (before ++ left.nodesFrom before.length ++
          right.nodesFrom (before.length + left.size)).length := by
      simp only [List.length_append, length_nodesFrom]
      omega
    rw [nodesFrom, ← List.append_assoc, ← List.append_assoc, List.append_assoc, size]
    exact .binary (by rw [hi]; simp) hl hr

theorem treeAt_nodes (e : Expr) : Node.TreeAt e.nodes (e.nodes.length - 1) e := by
  rw [nodes, length_nodesFrom]
  simpa using treeAt_nodesFrom e [] []

theorem mem_zipIdx_concat {nodes : List Node} {last node : Node} {base i : Nat} :
    (node, i) ∈ (nodes ++ [last]).zipIdx base ↔
      (node, i) ∈ nodes.zipIdx base ∨ node = last ∧ i = base + nodes.length := by
  simp [List.zipIdx_append]

/-- A child stands before its parent. -/
theorem lt_of_mem_zipIdx_nodesFrom {e : Expr} {base i j : Nat} {node : Node}
    (h : (node, i) ∈ (e.nodesFrom base).zipIdx base) (hj : j ∈ node.children) : j < i := by
  induction e generalizing base with
  | number | var =>
    simp only [nodesFrom, List.zipIdx_singleton, List.mem_singleton, Prod.mk.injEq] at h
    rw [h.1] at hj
    simp [Node.children] at hj
  | element name index span ih =>
    rcases mem_zipIdx_concat.1 h with h | ⟨rfl, rfl⟩
    · exact ih h
    · have := index.size_pos
      simp only [Node.children, List.mem_singleton] at hj
      rw [length_nodesFrom]
      omega
  | signed sign operand span ih =>
    rcases mem_zipIdx_concat.1 h with h | ⟨rfl, rfl⟩
    · exact ih h
    · have := operand.size_pos
      simp only [Node.children, List.mem_singleton] at hj
      rw [length_nodesFrom]
      omega
  | binary operator left right span ihl ihr =>
    rcases mem_zipIdx_concat.1 h with h | ⟨rfl, rfl⟩
    · rw [List.zipIdx_append, List.mem_append, length_nodesFrom] at h
      exact h.elim ihl ihr
    · have hl := left.size_pos
      have hr := right.size_pos
      simp only [Node.children, List.mem_cons, List.not_mem_nil, or_false] at hj
      rw [List.length_append, length_nodesFrom, length_nodesFrom]
      omega

theorem lt_of_mem_children {e : Expr} {i j : Nat} {node : Node} (h : e.nodes[i]? = some node)
    (hj : j ∈ node.children) : j < i :=
  lt_of_mem_zipIdx_nodesFrom (List.mem_zipIdx_iff_getElem?.2 h) hj

/-- With the root of a subtree, its nodes are all accounted for. -/
theorem perm_concat_root {places : List Nat} {base : Nat} (e : Expr)
    (h : places.Perm (List.range' base (e.size - 1))) :
    (places ++ [base + e.size - 1]).Perm (List.range' base e.size) := by
  have hs : e.size = e.size - 1 + 1 := (Nat.sub_add_cancel e.size_pos).symm
  rw [hs, List.range'_1_concat]
  exact h.append (.refl _)

/-- The children of all nodes are all nodes but the last, each of them once. -/
theorem children_nodesFrom_perm (e : Expr) (base : Nat) :
    ((e.nodesFrom base).flatMap Node.children).Perm (List.range' base (e.size - 1)) := by
  induction e generalizing base with
  | number | var => exact .refl _
  | element name index span ih =>
    rw [nodesFrom, List.flatMap_append]
    exact perm_concat_root index (ih base)
  | signed sign operand span ih =>
    rw [nodesFrom, List.flatMap_append]
    exact perm_concat_root operand (ih base)
  | binary operator left right span ihl ihr =>
    have hl := perm_concat_root left (ihl base)
    have hr := perm_concat_root right (ihr (base + left.size))
    rw [nodesFrom, size, Nat.add_sub_cancel, ← List.range'_append_1]
    refine .trans ?_ (hl.append hr)
    rw [List.flatMap_append, List.flatMap_append, List.append_assoc, List.append_assoc]
    refine .append_left _ ?_
    exact List.perm_append_comm_assoc _ [base + left.size - 1] [base + left.size + right.size - 1]

/-- Every node but the last is the child of one later node. -/
theorem existsUnique_parent {e : Expr} {j : Nat} (hj : j + 1 < e.nodes.length) :
    ∃! i, j < i ∧ ∃ node, e.nodes[i]? = some node ∧ j ∈ node.children := by
  have hp : (e.nodes.flatMap Node.children).Perm (List.range' 0 (e.size - 1)) :=
    children_nodesFrom_perm e 0
  rw [nodes, length_nodesFrom] at hj
  have hm : j ∈ e.nodes.flatMap Node.children :=
    hp.mem_iff.2 (List.mem_range'_1.2 ⟨Nat.zero_le _, by omega⟩)
  obtain ⟨node, hn, hc⟩ := List.mem_flatMap.1 hm
  obtain ⟨i, hi⟩ := List.mem_iff_getElem?.1 hn
  refine ⟨i, ⟨lt_of_mem_children hi hc, node, hi, hc⟩, ?_⟩
  rintro i' ⟨-, node', hi', hc'⟩
  -- two parents would list `j` twice among all children
  have hd : e.nodes.Pairwise fun a b => List.Disjoint a.children b.children :=
    (List.nodup_flatMap.1 (hp.nodup_iff.2 List.nodup_range')).2
  have hne : ∀ {a b : Nat} {m n : Node}, e.nodes[a]? = some m → e.nodes[b]? = some n →
      j ∈ m.children → j ∈ n.children → ¬a < b := by
    intro a b m n ha hb hm hn hab
    obtain ⟨ha', rfl⟩ := List.getElem?_eq_some_iff.1 ha
    obtain ⟨hb', rfl⟩ := List.getElem?_eq_some_iff.1 hb
    exact List.pairwise_iff_getElem.1 hd a b ha' hb' hab hm hn
  have h1 := hne hi hi' hc hc'
  have h2 := hne hi' hi hc' hc
  omega

/-! ## The value of the list -/

theorem blame_eq_ok {α : Type} {span : Span} {x : Except Cause α} {a : α}
    (h : blame span x = .ok a) : x = .ok a := by
  cases x with
  | ok b => cases h; rfl
  | error cause => cases h

theorem blame_eq_error {α : Type} {span : Span} {x : Except Cause α} {fault : Cause × Span}
    (h : blame span x = .error fault) : x = .error fault.1 ∧ fault.2 = span := by
  cases x with
  | ok b => cases h
  | error cause => cases h; exact ⟨rfl, rfl⟩

section
variable {vs ws : List Value} {a b : Value} {m n : Nat} (s : State) (values : List Value)

/-- The value of a subtree stands where its parent looks for it. -/
theorem getElem?_root (hn : vs.length + 1 = n) (after : List Value) :
    (values ++ vs ++ a :: after)[values.length + n - 1]? = some a := by
  have hi : values.length + n - 1 = (values ++ vs).length := by
    rw [List.length_append]
    omega
  rw [hi]
  simp

theorem compute_element (hn : vs.length + 1 = n) (name : String) (span : Span) :
    Node.compute s (values ++ vs ++ [a]) (.element name (values.length + n - 1) span) =
      some (s.element name a) := by
  rw [Node.compute, getElem?_root values hn, Option.map_some]

theorem compute_signed (hn : vs.length + 1 = n) (sign : Sign) (span : Span) :
    Node.compute s (values ++ vs ++ [a]) (.signed sign (values.length + n - 1) span) =
      some (sign.apply a) := by
  rw [Node.compute, getElem?_root values hn, Option.map_some]

theorem compute_binary (hm : vs.length + 1 = m) (hn : ws.length + 1 = n) (operator : Operator)
    (span : Span) :
    Node.compute s (values ++ vs ++ [a] ++ ws ++ [b])
        (.binary operator (values.length + m - 1) (values.length + m + n - 1) span) =
      some (operator.apply a b) := by
  have hl : (values ++ vs ++ [a] ++ ws ++ [b])[values.length + m - 1]? = some a := by
    rw [List.append_assoc, List.append_assoc, List.singleton_append]
    exact getElem?_root values hm _
  have hr : (values ++ vs ++ [a] ++ ws ++ [b])[values.length + m + n - 1]? = some b := by
    have hv : (values ++ vs ++ [a]).length = values.length + m := by
      rw [List.length_append, List.length_append, ← hm]
      rfl
    rw [← hv]
    exact getElem?_root (values ++ vs ++ [a]) hn []
  rw [Node.compute, hl, hr]

end

/-- The pass over the nodes of a tree that has a value adds as many values as there are nodes, the
value of the tree last. -/
theorem pass_of_eval_ok {s : State} {e : Expr} {v : Value} (h : e.eval s = .ok v)
    (values : List Value) (rest : List Node) :
    ∃ vs, vs.length + 1 = e.size ∧
      Node.pass s values (e.nodesFrom values.length ++ rest) =
        Node.pass s (values ++ vs ++ [v]) rest := by
  induction e generalizing v values rest with
  | number value span =>
    cases h
    exact ⟨[], rfl, by rw [List.append_nil]; rfl⟩
  | var name span =>
    have hc : Node.compute s values (.var name span) = some (.ok v) :=
      congrArg some (blame_eq_ok h)
    exact ⟨[], rfl, by rw [List.append_nil]; exact Node.pass_cons_ok hc rest⟩
  | element name index span ih =>
    obtain ⟨i, hi, h⟩ := bind_eq_ok.1 h
    obtain ⟨vs, hn, hp⟩ :=
      ih hi values (.element name (values.length + index.size - 1) span :: rest)
    have hc := (compute_element s values hn name span).trans (congrArg some (blame_eq_ok h))
    refine ⟨vs ++ [i], by rw [List.length_append, size, ← hn]; rfl, ?_⟩
    rw [nodesFrom, List.append_assoc, List.singleton_append, hp, Node.pass_cons_ok hc,
      List.append_assoc values]
  | signed sign operand span ih =>
    obtain ⟨a, ha, h⟩ := bind_eq_ok.1 h
    obtain ⟨vs, hn, hp⟩ :=
      ih ha values (.signed sign (values.length + operand.size - 1) span :: rest)
    have hc := (compute_signed s values hn sign span).trans (congrArg some (blame_eq_ok h))
    refine ⟨vs ++ [a], by rw [List.length_append, size, ← hn]; rfl, ?_⟩
    rw [nodesFrom, List.append_assoc, List.singleton_append, hp, Node.pass_cons_ok hc,
      List.append_assoc values]
  | binary operator left right span ihl ihr =>
    obtain ⟨a, ha, h⟩ := bind_eq_ok.1 h
    obtain ⟨b, hb, h⟩ := bind_eq_ok.1 h
    obtain ⟨vs, hm, hl⟩ := ihl ha values (right.nodesFrom (values.length + left.size) ++
      .binary operator (values.length + left.size - 1)
        (values.length + left.size + right.size - 1) span :: rest)
    obtain ⟨ws, hn, hr⟩ := ihr hb (values ++ vs ++ [a])
      (.binary operator (values.length + left.size - 1)
        (values.length + left.size + right.size - 1) span :: rest)
    have hb : (values ++ vs ++ [a]).length = values.length + left.size := by
      rw [List.length_append, List.length_append, ← hm]; rfl
    rw [hb] at hr
    have hc := (compute_binary s values hm hn operator span).trans (congrArg some (blame_eq_ok h))
    refine ⟨vs ++ [a] ++ ws ++ [b], ?_, ?_⟩
    · simp only [List.length_append, List.length_singleton, size]
      omega
    · rw [nodesFrom, List.append_assoc, List.append_assoc, List.singleton_append, hl, hr,
        Node.pass_cons_ok hc]
      simp only [List.append_assoc]

/-- The pass over the nodes of a tree that has no value ends with the fault of the tree. -/
theorem pass_of_eval_error {s : State} {e : Expr} {fault : Cause × Span}
    (h : e.eval s = .error fault) (values : List Value) (rest : List Node) :
    Node.pass s values (e.nodesFrom values.length ++ rest) = some (.error fault) := by
  induction e generalizing values rest with
  | number value span => cases h
  | var name span =>
    obtain ⟨hc, rfl⟩ := blame_eq_error h
    have hc' : Node.compute s values (.var name fault.2) = some (.error fault.1) :=
      congrArg some hc
    exact Node.pass_cons_error hc' rest
  | element name index span ih =>
    rw [nodesFrom, List.append_assoc]
    rcases bind_eq_error.1 h with hi | ⟨i, hi, h⟩
    · exact ih hi values _
    · obtain ⟨hc, rfl⟩ := blame_eq_error h
      obtain ⟨vs, hn, hp⟩ := pass_of_eval_ok hi values
        (.element name (values.length + index.size - 1) fault.2 :: rest)
      have hc' := (compute_element s values hn name fault.2).trans (congrArg some hc)
      exact hp.trans (Node.pass_cons_error hc' rest)
  | signed sign operand span ih =>
    rw [nodesFrom, List.append_assoc]
    rcases bind_eq_error.1 h with ha | ⟨a, ha, h⟩
    · exact ih ha values _
    · obtain ⟨hc, rfl⟩ := blame_eq_error h
      obtain ⟨vs, hn, hp⟩ := pass_of_eval_ok ha values
        (.signed sign (values.length + operand.size - 1) fault.2 :: rest)
      have hc' := (compute_signed s values hn sign fault.2).trans (congrArg some hc)
      exact hp.trans (Node.pass_cons_error hc' rest)
  | binary operator left right span ihl ihr =>
    rw [nodesFrom, List.append_assoc, List.append_assoc]
    rcases bind_eq_error.1 h with ha | ⟨a, ha, h⟩
    · exact ihl ha values _
    obtain ⟨vs, hm, hl⟩ := pass_of_eval_ok ha values (right.nodesFrom (values.length + left.size) ++
      .binary operator (values.length + left.size - 1)
        (values.length + left.size + right.size - 1) span :: rest)
    have hb : (values ++ vs ++ [a]).length = values.length + left.size := by
      rw [List.length_append, List.length_append, ← hm]; rfl
    refine hl.trans ?_
    rw [← hb]
    rcases bind_eq_error.1 h with hr | ⟨b, hr, h⟩
    · exact ihr hr (values ++ vs ++ [a]) _
    · obtain ⟨hc, rfl⟩ := blame_eq_error h
      obtain ⟨ws, hn, hp⟩ := pass_of_eval_ok hr (values ++ vs ++ [a])
        (.binary operator (values.length + left.size - 1)
          (values.length + left.size + right.size - 1) fault.2 :: rest)
      have hc' := (compute_binary s values hm hn operator fault.2).trans (congrArg some hc)
      rw [← hb] at hp hc'
      exact hp.trans (Node.pass_cons_error hc' rest)

/-- The pass over all nodes of a tree comes through with a value exactly when the tree has it. -/
theorem eval_eq_ok_iff_pass {s : State} {e : Expr} {v : Value} :
    e.eval s = .ok v ↔
      ∃ vs, vs.length + 1 = e.size ∧ Node.pass s [] e.nodes = some (.ok (vs ++ [v])) := by
  constructor
  · intro h
    obtain ⟨vs, hn, hp⟩ := pass_of_eval_ok h [] []
    rw [List.append_nil, List.nil_append] at hp
    exact ⟨vs, hn, hp⟩
  · rintro ⟨vs, -, hp⟩
    cases h : e.eval s with
    | ok w =>
      obtain ⟨ws, -, hq⟩ := pass_of_eval_ok h [] []
      rw [List.append_nil, List.nil_append] at hq
      have hw : vs ++ [v] = ws ++ [w] := Except.ok.inj (Option.some.inj (hp.symm.trans hq))
      rw [List.singleton_inj.1 (List.append_inj_right' hw rfl)]
    | error fault =>
      have hq := pass_of_eval_error h [] []
      rw [List.append_nil] at hq
      cases hp.symm.trans hq

/-- The pass over all nodes of a tree ends early exactly when the tree has no value. -/
theorem eval_eq_error_iff_pass {s : State} {e : Expr} {fault : Cause × Span} :
    e.eval s = .error fault ↔ Node.pass s [] e.nodes = some (.error fault) := by
  constructor
  · intro h
    have hp := pass_of_eval_error h [] []
    rwa [List.append_nil] at hp
  · intro hp
    cases h : e.eval s with
    | ok v =>
      obtain ⟨vs, -, hq⟩ := eval_eq_ok_iff_pass.1 h
      cases hp.symm.trans hq
    | error fault' =>
      have hq := pass_of_eval_error h [] []
      rw [List.append_nil] at hq
      cases hq.symm.trans hp
      rfl

end Expr

/-! ## The value of a text -/

/-- A text that is read has the value, or the fault, of its tree. -/
theorem evaluate_of_parse {text : String} {e : Expr} (h : Expr.parse text = .ok e) (s : State) :
    evaluate text s = Fault.within text (e.eval s) := by
  rw [evaluate, parseText, h]
  rfl

theorem Fault.within_eq_ok_iff {α : Type} {text : String} {x : Except (Cause × Span) α} {a : α} :
    Fault.within text x = .ok a ↔ x = .ok a := by
  cases x with
  | ok b => exact ⟨fun h => congrArg _ (Except.ok.inj h), fun h => congrArg _ (Except.ok.inj h)⟩
  | error fault => exact ⟨nofun, nofun⟩

theorem Fault.within_eq_error_iff {α : Type} {text : String} {x : Except (Cause × Span) α}
    {fault : Fault} :
    Fault.within text x = .error fault ↔
      ∃ cause span, x = .error (cause, span) ∧ fault = .inText text cause span := by
  constructor
  · intro h
    cases x with
    | ok b => cases h
    | error f => cases h; exact ⟨f.1, f.2, rfl, rfl⟩
  · rintro ⟨cause, span, rfl, rfl⟩
    rfl

end BlockScript
