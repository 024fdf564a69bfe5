import BlockScript.Proofs.Descent

/-!
# How deep parsing and evaluation go

Parsing and evaluation call themselves, so what they are given has to keep the stack small. The
bounds are read off the run of the parser, whatever it makes of the text:

* the operands that are counted as open are those that wait (`Descent.Orderly.counted`), so that
  calls that return leave the count as they found it, and there are at most `Expr.maxNesting` of
  them,
* what is kept as the height of a node is the height of the tree at that node
  (`NodeTable.Exact`), and evaluation goes as many levels deep as a tree is high
  (`Node.evalWithin_of_treeAt`).

`Descent.Orderly` says this of one configuration. A step keeps it (`Descent.Orderly.step`), so it
holds all along a run (`Descent.orderly_of_reaches`).
-/

set_option autoImplicit false

namespace BlockScript

/-! ## Heights -/

namespace Node

variable {nodes : List Node} {i : Nat} {e : Expr}

theorem TreeAt.append (h : TreeAt nodes i e) (after : List Node) : TreeAt (nodes ++ after) i e := by
  have hat {i : Nat} {node : Node} (h : nodes[i]? = some node) : (nodes ++ after)[i]? = some node :=
    (List.getElem?_append_left (List.getElem?_eq_some_iff.1 h).1).trans h
  induction h with
  | number h => exact .number (hat h)
  | var h => exact .var (hat h)
  | element h _ ih => exact .element (hat h) ih
  | signed h _ ih => exact .signed (hat h) ih
  | binary h _ _ ihl ihr => exact .binary (hat h) ihl ihr

end Node

namespace NodeTable

/-- What is kept as the height of a node is the height of the tree at that node. -/
def Exact (t : NodeTable) : Prop :=
  ∀ i h, t.heights[i]? = some h → ∃ e, Node.TreeAt t.nodes i e ∧ e.height = h

variable {t : NodeTable}

theorem Exact.exists_treeAt (ht : t.Exact) {i : Nat} (hi : i < t.nodes.length) :
    ∃ e, Node.TreeAt t.nodes i e ∧ e.height = t.heightAt i := by
  have hi' : i < t.heights.length := t.length_heights.symm ▸ hi
  refine ht i _ ?_
  rw [heightAt, List.getD_eq_getElem?_getD, List.getElem?_eq_getElem hi']
  rfl

/-- The tree of a new node over trees that are there. -/
theorem Exact.exists_tree_add (ht : t.Exact) {node : Node}
    (hn : ∀ j ∈ node.children, j < t.nodes.length) :
    ∃ e, Node.TreeAt (t.add node).nodes t.nodes.length e ∧ e.height = t.heightOf node := by
  have hlast : (t.nodes ++ [node])[t.nodes.length]? = some node := List.getElem?_concat_length
  cases node with
  | number value span => exact ⟨_, .number hlast, rfl⟩
  | var name span => exact ⟨_, .var hlast, rfl⟩
  | element name index span =>
    obtain ⟨e, he, hh⟩ := ht.exists_treeAt (hn index (by simp [Node.children]))
    exact ⟨_, .element hlast (he.append _), congrArg (· + 1) hh⟩
  | signed sign operand span =>
    obtain ⟨e, he, hh⟩ := ht.exists_treeAt (hn operand (by simp [Node.children]))
    exact ⟨_, .signed hlast (he.append _), congrArg (· + 1) hh⟩
  | binary operator left right span =>
    obtain ⟨e, he, hh⟩ := ht.exists_treeAt (hn left (by simp [Node.children]))
    obtain ⟨e', he', hh'⟩ := ht.exists_treeAt (hn right (by simp [Node.children]))
    refine ⟨_, .binary hlast (he.append _) (he'.append _), ?_⟩
    rw [Expr.height, heightOf, hh, hh']

theorem Exact.add (ht : t.Exact) {node : Node} (hn : ∀ j ∈ node.children, j < t.nodes.length) :
    (t.add node).Exact := by
  intro i h hi
  rcases Nat.lt_or_ge i t.heights.length with hlt | hge
  · rw [NodeTable.add, List.getElem?_append_left hlt] at hi
    obtain ⟨e, he, hh⟩ := ht i h hi
    exact ⟨e, he.append _, hh⟩
  · rw [NodeTable.add, List.getElem?_append_right hge, List.getElem?_singleton] at hi
    split at hi
    · next hz =>
      cases hi
      have hi : i = t.nodes.length := by rw [← t.length_heights]; omega
      rw [hi]
      exact ht.exists_tree_add hn
    · cases hi

@[simp] theorem length_nodes_add (node : Node) :
    (t.add node).nodes.length = t.nodes.length + 1 := by
  simp [NodeTable.add]

end NodeTable

/-! ## What holds all along a run -/

namespace Descent

/-- A call that is an operand. -/
def Frame.isOperand : Frame → Bool
  | .signed _ _ => true
  | .unsigned => true
  | _ => false

/-- The nodes that a call keeps while it waits. -/
def Frame.places : Frame → List Nat
  | .right _ left _ _ => [left]
  | _ => []

/-- How many operands are being read at once: those that wait, and the one that is called for. -/
def activations (c : Descent) : Nat :=
  c.frames.countP Frame.isOperand +
    match c.control with
    | .call .operand => 1
    | _ => 0

/-- The node at hand is in the table, and nothing waits at the end. -/
def ControlFits (c : Descent) : Prop :=
  match c.control with
  | .goOn _ left => left < c.table.nodes.length
  | .back node => node < c.table.nodes.length
  | .accepted root => root < c.table.nodes.length ∧ c.frames = []
  | _ => True

/-- What is true of the parser at every moment. -/
structure Orderly (c : Descent) : Prop where
  exact : c.table.Exact
  control : c.ControlFits
  places : ∀ f ∈ c.frames, ∀ i ∈ f.places, i < c.table.nodes.length
  counted : c.depth = c.frames.countP Frame.isOperand
  bounded : c.depth ≤ Expr.maxNesting

namespace Orderly

variable {finish : Span} {c : Descent}

theorem start (source : String) : (start source).Orderly where
  exact i h hi := by cases hi
  control := trivial
  places f hf := by cases hf
  counted := rfl
  bounded := Nat.zero_le _

theorem refuse (hc : c.Orderly) (fault : SyntaxError) : (c.refuse fault).Orderly :=
  { hc with control := trivial }

theorem read (hc : c.Orderly) (pieces : List Piece) : { c with pieces := pieces }.Orderly :=
  { hc with }

theorem look (hc : c.Orderly) {k : TokenKind → Span → Descent}
    (h : ∀ kind span, (k kind span).Orderly) : (c.look finish k).Orderly := by
  unfold Descent.look
  split
  · exact hc.refuse _
  · exact h _ _

theorem take (hc : c.Orderly) {kind : TokenKind} {k : Descent → Span → Descent}
    (h : ∀ span rest, (k { c with pieces := rest } span).Orderly) :
    (c.take finish kind k).Orderly := by
  unfold Descent.take
  split
  · exact hc.refuse _
  · exact h _ _

theorem add (hc : c.Orderly) {node : Node} (hn : ∀ j ∈ node.children, j < c.table.nodes.length) :
    { c with table := c.table.add node }.Orderly where
  exact := hc.exact.add hn
  control := by
    have h := hc.control
    unfold ControlFits at h ⊢
    dsimp only
    rw [NodeTable.length_nodes_add]
    split at h
    · exact Nat.lt_succ_of_lt h
    · exact Nat.lt_succ_of_lt h
    · exact ⟨Nat.lt_succ_of_lt h.1, h.2⟩
    · trivial
  places f hf i hi := by
    rw [NodeTable.length_nodes_add]
    exact Nat.lt_succ_of_lt (hc.places f hf i hi)
  counted := hc.counted
  bounded := hc.bounded

theorem push (hc : c.Orderly) {node : Node} {k : Descent → Nat → Descent}
    (hn : ∀ j ∈ node.children, j < c.table.nodes.length)
    (h : (k { c with table := c.table.add node } c.table.nodes.length).Orderly) :
    (c.push node k).Orderly := by
  unfold Descent.push
  dsimp only
  split
  · exact h
  · exact (hc.add hn).refuse _

/-- A further call waits. -/
theorem wait (hc : c.Orderly) (frame : Frame) (hf : ∀ i ∈ frame.places, i < c.table.nodes.length)
    (hb : c.depth + frame.isOperand.toNat ≤ Expr.maxNesting) {control : Control}
    {pieces : List Piece}
    (hfit : ControlFits ⟨control, frame :: c.frames, pieces, c.depth + frame.isOperand.toNat,
      c.table⟩) :
    Orderly ⟨control, frame :: c.frames, pieces, c.depth + frame.isOperand.toNat, c.table⟩ where
  exact := hc.exact
  control := hfit
  places := List.forall_mem_cons.2 ⟨hf, hc.places⟩
  counted := by
    rw [hc.counted, List.countP_cons]
    cases frame.isOperand <;> rfl
  bounded := hb

/-- The innermost call waits no more. -/
theorem leave (hc : c.Orderly) {frame : Frame} {frames : List Frame}
    (hf : c.frames = frame :: frames) {control : Control} {pieces : List Piece}
    (hfit : ControlFits ⟨control, frames, pieces, c.depth - frame.isOperand.toNat, c.table⟩) :
    Orderly ⟨control, frames, pieces, c.depth - frame.isOperand.toNat, c.table⟩ where
  exact := hc.exact
  control := hfit
  places f hm := hc.places f (hf ▸ List.mem_cons_of_mem _ hm)
  counted := by
    rw [hc.counted, hf, List.countP_cons]
    cases frame.isOperand <;> simp
  bounded := Nat.le_trans (Nat.sub_le _ _) hc.bounded

theorem enterOperand (hc : c.Orderly) : (c.enterOperand finish).Orderly := by
  refine hc.look fun kind span => ?_
  split
  · exact hc.refuse _
  · next hd =>
    have hb : c.depth + 1 ≤ Expr.maxNesting := Nat.lt_of_not_le hd
    split
    · next sign _ => exact hc.wait (.signed sign span) (List.forall_mem_nil _) hb trivial
    · exact hc.wait .unsigned (List.forall_mem_nil _) hb trivial

theorem leaf (hc : c.Orderly) {node : Node} (hn : node.children = []) (rest : List Piece) :
    (c.leaf node rest).Orderly := by
  have h : { c with table := c.table.add node }.Orderly := hc.add (by simp [hn])
  exact { h with control := by simp [ControlFits, Descent.leaf] }

theorem enterPrimary (hc : c.Orderly) : (c.enterPrimary finish).Orderly := by
  unfold Descent.enterPrimary
  split
  · exact hc.refuse _
  · exact hc.refuse _
  · split
    · split
      · exact hc.leaf rfl _
      · exact hc.refuse _
    · refine (hc.read _).look fun kind span => ?_
      split
      · exact hc.wait (.index _ _) (List.forall_mem_nil _) hc.bounded trivial
      · exact hc.leaf rfl _
    · exact hc.wait .group (List.forall_mem_nil _) hc.bounded trivial
    · exact hc.refuse _

theorem continueFrom (hc : c.Orderly) {l : Level} {left : Nat}
    (hl : left < c.table.nodes.length) : (c.continueFrom finish l left).Orderly := by
  refine hc.look fun kind span => ?_
  split
  · exact { hc with control := hl }
  · next operator _ =>
    exact hc.wait (.right l left operator span) (List.forall_mem_singleton.2 hl)
      hc.bounded trivial

theorem resume (hc : c.Orderly) {node : Nat} {frame : Frame} {frames : List Frame}
    (hf : c.frames = frame :: frames) (hn : node < c.table.nodes.length) :
    (c.resume finish node frame frames).Orderly := by
  cases frame with
  | first l => exact hc.leave hf hn
  | right l left operator span =>
    have hl : left < c.table.nodes.length :=
      hc.places _ (hf ▸ List.mem_cons_self) left (by simp [Frame.places])
    have hj : ∀ j ∈ (Node.binary operator left node span).children, j < c.table.nodes.length := by
      simp [Node.children, hl, hn]
    dsimp only [Descent.resume]
    refine hc.push hj ((hc.add hj).leave hf ?_)
    simp [ControlFits]
  | signed sign span =>
    have hj : ∀ j ∈ (Node.signed sign node span).children, j < c.table.nodes.length := by
      simp [Node.children, hn]
    dsimp only [Descent.resume]
    refine hc.push hj ((hc.add hj).leave hf ?_)
    simp [ControlFits]
  | unsigned => exact hc.leave hf hn
  | index name span =>
    dsimp only [Descent.resume]
    refine hc.take fun closing rest => ?_
    have hj : ∀ j ∈ (Node.element name node (span.merge closing)).children,
        j < c.table.nodes.length := by
      simp [Node.children, hn]
    refine (hc.read rest).push hj (((hc.read rest).add hj).leave hf ?_)
    simp [ControlFits]
  | group =>
    dsimp only [Descent.resume]
    exact hc.take fun _ _ => hc.leave hf (by exact hn)

theorem conclude (hc : c.Orderly) {root : Nat} (hr : root < c.table.nodes.length)
    (hf : c.frames = []) : (c.conclude finish root).Orderly := by
  refine hc.look fun kind span => ?_
  split
  · exact { hc with control := ⟨hr, hf⟩ }
  · exact hc.refuse _

/-- A step keeps the parser in order. -/
theorem step (hc : c.Orderly) {c' : Descent} (hs : c.step finish = some c') : c'.Orderly := by
  have hfit := hc.control
  unfold Descent.step at hs
  unfold ControlFits at hfit
  split at hs <;> rename_i hcontrol
  · cases hs
    exact hc.enterOperand
  · cases hs
    exact hc.wait (.first _) (List.forall_mem_nil _) hc.bounded trivial
  · cases hs
    exact hc.enterPrimary
  · cases hs
    rw [hcontrol] at hfit
    exact hc.continueFrom hfit
  · rw [hcontrol] at hfit
    split at hs <;> rename_i hf
    · cases hs
      exact hc.conclude hfit hf
    · cases hs
      exact hc.resume hf hfit
  · cases hs
  · cases hs

end Orderly

theorem orderly_of_reaches {finish : Span} {c c' : Descent} (hc : c.Orderly)
    (h : Reaches finish c c') : c'.Orderly := by
  induction h with
  | refl => exact hc
  | tail _ hs ih => exact ih.step hs

theorem Orderly.activations_le {c : Descent} (hc : c.Orderly) :
    c.activations ≤ Expr.maxNesting + 1 := by
  have hb := hc.bounded
  rw [hc.counted] at hb
  unfold activations
  split <;> omega

/-- A call is made in `c` and returns in `c'`, where the same calls wait as before. -/
structure Returns (finish : Span) (c c' : Descent) : Prop where
  call : c.control = .primary ∨ ∃ l, c.control = .call l
  back : ∃ node, c'.control = .back node
  reaches : Reaches finish c c'
  frames : c'.frames = c.frames

end Descent

/-! ## Evaluation -/

namespace Node

/-- The value of the node at a place when no more than `levels` evaluations may go on one inside
another. There is none when this is not enough, or when a place is not in the list. -/
def evalWithin (nodes : List Node) (s : State) :
    (levels : Nat) → Nat → Option (Except (Cause × Span) Value)
  | 0, _ => none
  | levels + 1, i =>
    match nodes[i]? with
    | none => none
    | some (.number value _) => some (.ok value)
    | some (.var name span) => some (Expr.blame span (Expr.readVariable s name))
    | some (.element name index span) =>
      (evalWithin nodes s levels index).map fun r => do
        let i ← r
        Expr.blame span (s.element name i)
    | some (.signed sign operand span) =>
      (evalWithin nodes s levels operand).map fun r => do
        let a ← r
        Expr.blame span (sign.apply a)
    | some (.binary operator left right span) =>
      match evalWithin nodes s levels left with
      | none => none
      | some (.error fault) => some (.error fault)
      | some (.ok a) =>
        (evalWithin nodes s levels right).map fun r => do
          let b ← r
          Expr.blame span (operator.apply a b)

/-- A tree is evaluated in as many levels as it is high. -/
theorem evalWithin_of_treeAt {nodes : List Node} {i : Nat} {e : Expr} (h : TreeAt nodes i e)
    (s : State) {levels : Nat} (hl : e.height ≤ levels) :
    evalWithin nodes s levels i = some (e.eval s) := by
  induction h generalizing levels with
  | number h | var h =>
    obtain ⟨levels, rfl⟩ := Nat.exists_eq_add_of_le' (show 1 ≤ levels from hl)
    rw [evalWithin, h]
    rfl
  | element h _ ih | signed h _ ih =>
    obtain ⟨levels, rfl⟩ := Nat.exists_eq_add_of_le' (Nat.le_trans (Nat.le_add_left 1 _) hl)
    rw [evalWithin, h]
    dsimp only
    rw [ih (Nat.le_of_succ_le_succ hl)]
    rfl
  | @binary _ _ _ _ _ left right h _ _ ihl ihr =>
    obtain ⟨levels, rfl⟩ := Nat.exists_eq_add_of_le' (Nat.le_trans (Nat.le_add_left 1 _) hl)
    obtain ⟨hleft, hright⟩ := Nat.max_le.1 (Nat.le_of_succ_le_succ hl)
    rw [evalWithin, h]
    dsimp only
    rw [ihl hleft, ihr hright, Expr.eval]
    cases left.eval s <;> rfl

end Node

theorem Expr.height_le_of_parse {source : String} {e : Expr} (h : parse source = .ok e) :
    e.height ≤ maxHeight := by
  obtain ⟨d, -, rfl, hw, -⟩ := derives_parse h
  rw [Phrase.height_tree]
  exact hw.2

open Descent in
/-- The run of the parser ends as parsing does. All along it, at most 256 operands are counted as
open and at most 257 are being read, and the heights that are kept are true. The value of a text is
found in at most 1024 levels. -/
theorem depth_bounds (source : String) :
    (∃ c, Reaches (.endOf source) (start source) c ∧ c.step (.endOf source) = none ∧
      c.result? = some ((Expr.parse source).map fun e => (e.nodes, e.nodes.length - 1))) ∧
    (∀ c, Reaches (.endOf source) (start source) c →
      c.depth ≤ 256 ∧ c.activations ≤ 257 ∧
      (∀ c', Returns (.endOf source) c c' → c'.depth = c.depth) ∧
      (∀ root, c.control = .accepted root → c.depth = (start source).depth) ∧
      c.table.heights.length = c.table.nodes.length ∧
      ∀ i h, c.table.heights[i]? = some h →
        ∃ e, Node.TreeAt c.table.nodes i e ∧ e.height = h) ∧
    ∀ e, Expr.parse source = .ok e → ∀ s,
      ∃ r, Node.evalWithin e.nodes s 1024 (e.nodes.length - 1) = some r ∧
        evaluate source s = Fault.within source r := by
  refine ⟨reaches_parse source, fun c h => ?_, fun e h s => ⟨e.eval s, ?_, evaluate_of_parse h s⟩⟩
  · have hc := orderly_of_reaches (.start source) h
    refine ⟨hc.bounded, hc.activations_le, fun c' hr => ?_, fun root ha => ?_,
      c.table.length_heights, hc.exact⟩
    · have hc' := orderly_of_reaches hc hr.reaches
      rw [hc'.counted, hc.counted, hr.frames]
    · have hfit := hc.control
      rw [ControlFits, ha] at hfit
      rw [hc.counted, hfit.2]
      rfl
  · exact Node.evalWithin_of_treeAt e.treeAt_nodes s (Expr.height_le_of_parse h)

end BlockScript
