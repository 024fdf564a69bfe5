import BlockScript.Proofs.Parsing
import Mathlib.Logic.Relation

/-!
# Parsing step by step

`Descent` is the parser in the middle of its work, with everything it keeps: the calls that wait for
a result, the pieces that are left, the number of operands it counts as open, and the nodes made so
far with a height for each of them. `Descent.step` is the next thing it does. A call returns the
place of a node; a refusal leaves everything as it is and ends the run.

The run on a text ends, and it ends as parsing does (`Descent.reaches_parse`). The proof follows the
parsers level by level: wherever a level is called for, and whatever waits for it, the run does what
the parser of that level does (`Descent.Simulates`).

So the nodes that a run has made when it ends are the list that a tree is laid out as, its root last
(`Descent.reaches_nodes`), and what holds of such lists holds of them: children stand before their
parents, every node but the last has one parent, and one pass from left to right finds the value of
the text, or the fault of the first node without a value (`evaluate_eq_pass`).
-/

set_option autoImplicit false

namespace BlockScript

/-- The level of the items that are joined at a level. -/
def Level.items : Level → Level
  | .sum => .product
  | .product => .operand
  | .operand => .operand

theorem Level.Below.items_eq {l m : Level} (h : l.Below m) : m.items = l := by
  cases h <;> rfl

/-! ## Nodes and their heights -/

/-- Nodes in the making, and what is kept as the height of each. -/
@[ext]
structure NodeTable where
  nodes : List Node
  heights : List Nat
  length_heights : heights.length = nodes.length

namespace NodeTable

/-- A table without nodes. -/
def empty : NodeTable :=
  ⟨[], [], rfl⟩

/-- The height kept for a place. What is not in the table counts for nothing. -/
def heightAt (t : NodeTable) (i : Nat) : Nat :=
  t.heights.getD i 0

/-- The height of a new node. -/
def heightOf (t : NodeTable) : Node → Nat
  | .number _ _ => 1
  | .var _ _ => 1
  | .element _ index _ => t.heightAt index + 1
  | .signed _ operand _ => t.heightAt operand + 1
  | .binary _ left right _ => max (t.heightAt left) (t.heightAt right) + 1

/-- The table with a new node at its end. -/
def add (t : NodeTable) (node : Node) : NodeTable :=
  ⟨t.nodes ++ [node], t.heights ++ [t.heightOf node], by simp [t.length_heights]⟩

end NodeTable

/-! ## One step -/

namespace Descent

/-- A call that waits for a result. -/
inductive Frame where
  /-- A sum or a product waits for its first item. -/
  | first (l : Level)
  /-- A sum or a product waits for the right side of an operator. -/
  | right (l : Level) (left : Nat) (operator : Operator) (span : Span)
  /-- An operand waits for the operand behind its sign. -/
  | signed (sign : Sign) (span : Span)
  /-- An operand without a sign waits for what it is. -/
  | unsigned
  /-- An element waits for its index. -/
  | index (name : String) (span : Span)
  /-- Parentheses wait for what is between them. -/
  | group

/-- What is to be done next. -/
inductive Control where
  /-- A sum, a product or an operand is called for. -/
  | call (l : Level)
  /-- What an operand without a sign is, is called for. -/
  | primary
  /-- A sum or a product goes on behind the node `left`. -/
  | goOn (l : Level) (left : Nat)
  /-- A call returns a node. -/
  | back (node : Nat)
  | refused (fault : SyntaxError)
  | accepted (root : Nat)

end Descent

/-- The parser in the middle of its work. -/
structure Descent where
  control : Descent.Control
  /-- The calls that wait, innermost first. -/
  frames : List Descent.Frame
  /-- What is left to read. -/
  pieces : List Piece
  /-- How many operands are counted as open. -/
  depth : Nat
  table : NodeTable

namespace Descent

/-- Stops with a fault. -/
def refuse (c : Descent) (fault : SyntaxError) : Descent :=
  { c with control := .refused fault }

/-- Adds a node and goes on with its place, if it is not too high. -/
def push (c : Descent) (node : Node) (next : Descent → Nat → Descent) : Descent :=
  let added := { c with table := c.table.add node }
  if added.table.heightAt c.table.nodes.length ≤ Expr.maxHeight then
    next added c.table.nodes.length
  else added.refuse ⟨.tooDeep, node.span⟩

/-- Looks at the first piece. -/
def look (finish : Span) (c : Descent) (next : TokenKind → Span → Descent) : Descent :=
  match Expr.peek finish c.pieces with
  | .error fault => c.refuse fault
  | .ok (kind, span) => next kind span

/-- Takes the token that has to come first. -/
def take (finish : Span) (kind : TokenKind) (c : Descent) (next : Descent → Span → Descent) :
    Descent :=
  match Expr.taking finish kind c.pieces with
  | .error fault => c.refuse fault
  | .ok (span, rest) => next { c with pieces := rest } span

/-- Starts an operand, unless too many are open. -/
def enterOperand (finish : Span) (c : Descent) : Descent :=
  c.look finish fun kind span =>
    if Expr.maxNesting ≤ c.depth then c.refuse ⟨.tooDeep, span⟩
    else
      match Expr.sign? kind with
      | some sign =>
        { c with
          control := .call .operand
          frames := .signed sign span :: c.frames
          depth := c.depth + 1
          pieces := c.pieces.tail }
      | none =>
        { c with control := .primary, frames := .unsigned :: c.frames, depth := c.depth + 1 }

/-- Returns a new node that has no children, and goes on with `rest`. -/
def leaf (c : Descent) (node : Node) (rest : List Piece) : Descent :=
  { c with
    control := .back c.table.nodes.length
    pieces := rest
    table := c.table.add node }

/-- Starts what an operand without a sign is. -/
def enterPrimary (finish : Span) (c : Descent) : Descent :=
  match c.pieces with
  | [] => c.refuse ⟨.notOperand .finish, finish⟩
  | .unrecognized f :: _ => c.refuse ⟨.unrecognized f.character, f.span⟩
  | .token t :: rest =>
    match t.kind with
    | .number =>
      match Value.ofInt? (Text.ofDigits t.lexeme) with
      | some value => c.leaf (.number value t.span) rest
      | none => c.refuse ⟨.literalTooLarge, t.span⟩
    | .name =>
      { c with pieces := rest }.look finish fun kind _ =>
        if kind = TokenKind.leftBracket then
          { c with
            control := .call .sum
            frames := .index t.name t.span :: c.frames
            pieces := rest.tail }
        else c.leaf (.var t.name t.span) rest
    | .leftParenthesis =>
      { c with control := .call .sum, frames := .group :: c.frames, pieces := rest }
    | kind => c.refuse ⟨.notOperand kind, t.span⟩

/-- Goes on behind `left`, with a further operator of the level or with the return. -/
def continueFrom (finish : Span) (l : Level) (left : Nat) (c : Descent) : Descent :=
  c.look finish fun kind span =>
    match l.operator? kind with
    | none => { c with control := .back left }
    | some operator =>
      { c with
        control := .call l.items
        frames := .right l left operator span :: c.frames
        pieces := c.pieces.tail }

/-- Gives the node that was waited for to a call; `frames` wait behind that call. -/
def resume (finish : Span) (node : Nat) (frame : Frame) (frames : List Frame) (c : Descent) :
    Descent :=
  match frame with
  | .first l => { c with control := .goOn l node, frames := frames }
  | .right l left operator span =>
    c.push (.binary operator left node span) fun c joined =>
      { c with control := .goOn l joined, frames := frames }
  | .signed sign span =>
    c.push (.signed sign node span) fun c signed =>
      { c with control := .back signed, frames := frames, depth := c.depth - 1 }
  | .unsigned => { c with control := .back node, frames := frames, depth := c.depth - 1 }
  | .index name span =>
    c.take finish .rightBracket fun c closing =>
      c.push (.element name node (span.merge closing)) fun c element =>
        { c with control := .back element, frames := frames }
  | .group =>
    c.take finish .rightParenthesis fun c _ => { c with control := .back node, frames := frames }

/-- Ends the run with a node if nothing is left to read. -/
def conclude (finish : Span) (root : Nat) (c : Descent) : Descent :=
  c.look finish fun kind span =>
    if kind = .finish then { c with control := .accepted root }
    else c.refuse ⟨.unexpected kind .finish, span⟩

/-- The next thing to do, until the run has ended. -/
def step (finish : Span) (c : Descent) : Option Descent :=
  match c.control with
  | .call .operand => some (c.enterOperand finish)
  | .call l => some { c with control := .call l.items, frames := .first l :: c.frames }
  | .primary => some (c.enterPrimary finish)
  | .goOn l left => some (c.continueFrom finish l left)
  | .back node =>
    match c.frames with
    | [] => some (c.conclude finish node)
    | frame :: frames => some (c.resume finish node frame frames)
  | .refused _ => none
  | .accepted _ => none

/-- What a run has come to: the nodes and the place of the root, or a fault. -/
def result? (c : Descent) : Option (Except SyntaxError (List Node × Nat)) :=
  match c.control with
  | .accepted root => some (.ok (c.table.nodes, root))
  | .refused fault => some (.error fault)
  | _ => none

/-- The parser before a text. -/
def start (source : String) : Descent :=
  ⟨.call .sum, [], Piece.scan source, 0, .empty⟩

/-- What comes up in the run from a configuration. -/
def Reaches (finish : Span) : Descent → Descent → Prop :=
  Relation.ReflTransGen fun c c' => c.step finish = some c'

end Descent

/-! ## Trees in a table -/

/-- The heights of the subtrees of a tree, in the order of its nodes. -/
def Expr.heights : Expr → List Nat
  | .number _ _ => [1]
  | .var _ _ => [1]
  | .element _ index _ => index.heights ++ [index.height + 1]
  | .signed _ operand _ => operand.heights ++ [operand.height + 1]
  | .binary _ left right _ =>
    left.heights ++ right.heights ++ [max left.height right.height + 1]

@[simp] theorem Expr.length_heights (e : Expr) : e.heights.length = e.size := by
  induction e with
  | number | var => rfl
  | element _ _ _ ih | signed _ _ _ ih => simp [heights, size, ih]
  | binary _ _ _ _ ihl ihr => simp [heights, size, ihl, ihr, Nat.add_assoc]

/-- The height of a tree is the last of its heights. -/
theorem Expr.exists_heights_eq (e : Expr) : ∃ hs, e.heights = hs ++ [e.height] := by
  cases e with
  | number | var => exact ⟨[], rfl⟩
  | element | signed | binary => exact ⟨_, rfl⟩

namespace NodeTable

/-- The table with the nodes of a tree at its end. -/
def plant (t : NodeTable) (e : Expr) : NodeTable :=
  ⟨t.nodes ++ e.nodesFrom t.nodes.length, t.heights ++ e.heights,
    by simp [t.length_heights, Expr.length_nodesFrom]⟩

/-- The place that the root of a tree has when the tree is planted. -/
def root (t : NodeTable) (e : Expr) : Nat :=
  t.nodes.length + e.size - 1

section
variable (t : NodeTable) (e left right : Expr) (span : Span)

@[simp] theorem length_nodes_plant : (t.plant e).nodes.length = t.nodes.length + e.size := by
  simp [plant, Expr.length_nodesFrom]

/-- The height kept for a planted tree is its height, also when others are planted behind it. -/
theorem getD_root (after : List Nat) :
    (t.heights ++ e.heights ++ after).getD (t.root e) 0 = e.height := by
  obtain ⟨hs, he⟩ := e.exists_heights_eq
  have hi : t.root e = (t.heights ++ hs).length := by
    rw [root, ← t.length_heights, ← e.length_heights, he]
    simp
  rw [hi, he]
  simp [List.getD_eq_getElem?_getD]

theorem heightAt_root : (t.plant e).heightAt (t.root e) = e.height := by
  have h := t.getD_root e []
  rwa [List.append_nil] at h

theorem heightAt_left_root : ((t.plant left).plant right).heightAt (t.root left) = left.height :=
  t.getD_root left right.heights

theorem plant_add_signed (sign : Sign) :
    (t.plant e).add (.signed sign (t.root e) span) = t.plant (.signed sign e span) := by
  ext1
  · simp [add, plant, root, Expr.nodesFrom]
  · simp only [add, heightOf, heightAt_root]
    simp [plant, Expr.heights]

theorem plant_add_element (name : String) :
    (t.plant e).add (.element name (t.root e) span) = t.plant (.element name e span) := by
  ext1
  · simp [add, plant, root, Expr.nodesFrom]
  · simp only [add, heightOf, heightAt_root]
    simp [plant, Expr.heights]

theorem plant_add_binary (operator : Operator) :
    ((t.plant left).plant right).add
        (.binary operator (t.root left) ((t.plant left).root right) span) =
      t.plant (.binary operator left right span) := by
  ext1
  · simp [add, plant, root, Expr.nodesFrom, Expr.length_nodesFrom]
  · simp only [add, heightOf, heightAt_root, heightAt_left_root]
    simp [plant, Expr.heights]

end

end NodeTable

/-! ## What a run comes to -/

namespace Descent

/-- The run from `c` does what a computation does: it comes to the configuration that `next` gives
for the result, or to the refusal. -/
inductive Follows {α : Type} (finish : Span) (c : Descent) (next : α → Descent) :
    Except SyntaxError α → Prop
  | ok {a : α} (h : Reaches finish c (next a)) : Follows finish c next (.ok a)
  | error {c' : Descent} {fault : SyntaxError} (h : Reaches finish c c')
      (hr : c'.control = .refused fault) : Follows finish c next (.error fault)

section
variable {α β : Type} {finish : Span} {c c' : Descent} {next : α → Descent} {next' : β → Descent}

theorem Follows.refuse (fault : SyntaxError) :
    Follows finish (c.refuse fault) next (.error fault) :=
  .error .refl rfl

theorem Follows.step {x : Except SyntaxError α} (hs : c.step finish = some c')
    (h : Follows finish c' next x) : Follows finish c next x := by
  cases h with
  | ok h => exact .ok (.head hs h)
  | error h hr => exact .error (.head hs h) hr

theorem Follows.bind {x : Except SyntaxError α} {f : α → Except SyntaxError β}
    (h : Follows finish c next x)
    (hf : ∀ a, x = .ok a → Follows finish (next a) next' (f a)) :
    Follows finish c next' (x >>= f) := by
  cases h with
  | error h hr => exact .error h hr
  | @ok a h =>
    have h' := hf a rfl
    rw [ok_bind]
    generalize f a = y at h'
    cases h' with
    | ok h' => exact .ok (h.trans h')
    | error h' hr => exact .error (h.trans h') hr

theorem follows_look {k : TokenKind → Span → Descent}
    {f : TokenKind × Span → Except SyntaxError α}
    (h : ∀ kind span, Follows finish (k kind span) next (f (kind, span))) :
    Follows finish (c.look finish k) next (Expr.peek finish c.pieces >>= f) := by
  unfold look
  cases Expr.peek finish c.pieces with
  | error fault => exact .refuse fault
  | ok found => exact h _ _

theorem follows_take {kind : TokenKind} {k : Descent → Span → Descent}
    {f : Span × List Piece → Except SyntaxError α}
    (h : ∀ span rest, Follows finish (k { c with pieces := rest } span) next (f (span, rest))) :
    Follows finish (c.take finish kind k) next (Expr.taking finish kind c.pieces >>= f) := by
  unfold take
  cases Expr.taking finish kind c.pieces with
  | error fault => exact .refuse fault
  | ok found => exact h _ _

/-- A node that completes a tree is refused for its height when the tree is. -/
theorem follows_push {t : NodeTable} {node : Node} {e : Expr} {k : Descent → Nat → Descent}
    {f : Expr → Except SyntaxError α} (ht : c.table.add node = t.plant e)
    (hs : node.span = e.span)
    (h : Follows finish (k { c with table := t.plant e } (t.root e)) next (f e)) :
    Follows finish (c.push node k) next (Expr.checkHeight e >>= f) := by
  have hi : c.table.nodes.length = t.root e := by
    have hl := congrArg (fun t => t.nodes.length) ht
    simp only [NodeTable.add, NodeTable.length_nodes_plant, List.length_append,
      List.length_singleton] at hl
    rw [NodeTable.root]
    omega
  unfold push Expr.checkHeight
  dsimp only
  rw [ht, hs, hi, NodeTable.heightAt_root]
  split
  · exact h
  · exact .refuse _

end

/-! ## The run does what the parsers do -/

/-- The return of what a parser has read. -/
def returning (c : Descent) (r : Expr × List Piece) : Descent :=
  { c with
    control := .back (c.table.root r.1)
    pieces := r.2
    table := c.table.plant r.1 }

/-- Wherever a level is called for, the run does what the parser of that level does and comes back
with what it reads. -/
def Simulates (finish : Span) (budget : Nat) (l : Level) : Prop :=
  ∀ c : Descent, c.control = .call l → c.depth + budget = Expr.maxNesting →
    Follows finish c c.returning (Expr.reading (Expr.levelParser finish budget l) c.pieces)

section
variable {finish : Span} {budget : Nat} {l m : Level} {c : Descent}

theorem step_operand (hc : c.control = .call .operand) :
    c.step finish = some (c.enterOperand finish) := by
  rw [step, hc]

theorem step_primary (hc : c.control = .primary) :
    c.step finish = some (c.enterPrimary finish) := by
  rw [step, hc]

/-- A level goes on as its parser does. The induction is on what is left to read. -/
theorem follows_goOn (hl : l.Below m) (hs : Simulates finish budget l)
    (hd : c.depth + budget = Expr.maxNesting) (n : Nat) (left : Expr) {pieces : List Piece}
    (hn : pieces.length < n) :
    Follows finish
      { c with
        control := .goOn m (c.table.root left), pieces := pieces, table := c.table.plant left }
      c.returning
      (Expr.readingFrom m.operator? (Expr.levelParser finish budget l) left pieces) := by
  induction n generalizing left pieces with
  | zero => exact absurd hn (Nat.not_lt_zero _)
  | succ n ih =>
    match pieces with
    | [] =>
      rw [Expr.readingFrom_nil]
      refine .step rfl ?_
      cases hl <;> exact .ok .refl
    | .unrecognized f :: _ =>
      rw [Expr.readingFrom_unrecognized]
      exact .step rfl (.refuse _)
    | .token t :: pieces =>
      cases hk : m.operator? t.kind with
      | none =>
        rw [Expr.readingFrom_stop hk]
        refine .step rfl ?_
        simp only [continueFrom, look, Expr.peek, hk]
        exact .ok .refl
      | some operator =>
        rw [Expr.readingFrom_operator hk]
        refine .step rfl ?_
        simp only [continueFrom, look, Expr.peek, hk, hl.items_eq]
        refine Follows.bind (hs _ rfl (by exact hd)) ?_
        rintro ⟨right, rest⟩ hr
        refine .step rfl ?_
        dsimp only [resume]
        refine follows_push (c.table.plant_add_binary left right t.span operator) rfl ?_
        have hrest : rest.length < n := by
          have := Expr.length_lt_of_reading hr
          simp only [List.length_cons] at this hn
          omega
        exact ih (.binary operator left right t.span) hrest

/-- A level is simulated when the level below it is. -/
theorem Simulates.next (hl : l.Below m) (hs : Simulates finish budget l) :
    Simulates finish budget m := by
  intro c hc hd
  rw [Expr.reading_levelParser hl]
  have hnext : c.step finish =
      some { c with control := .call l, frames := .first m :: c.frames } := by
    unfold step
    rw [hc]
    cases hl <;> rfl
  refine .step hnext (Follows.bind (hs _ rfl (by exact hd)) ?_)
  rintro ⟨first, rest⟩ -
  rw [Expr.goOn_eq hl]
  exact .step rfl (follows_goOn hl hs hd _ first (Nat.lt_succ_self _))

theorem Simulates.sum (hs : Simulates finish budget .operand) : Simulates finish budget .sum :=
  Simulates.next (m := .sum) .product (Simulates.next (m := .product) .operand hs)

/-- Behind a sign, the run does what the parser does. -/
theorem follows_signed {t : Token} {rest : List Piece} {sign : Sign} (ht : t.kind = sign.token)
    (hs : Simulates finish budget .operand) (hc : c.control = .call .operand)
    (hp : c.pieces = .token t :: rest) (hd : c.depth + (budget + 1) = Expr.maxNesting) :
    Follows finish c c.returning
      (Expr.reading (Expr.operand finish (budget + 1)) (.token t :: rest)) := by
  have hnext : c.enterOperand finish =
      { c with
        control := .call .operand
        frames := .signed sign t.span :: c.frames
        depth := c.depth + 1
        pieces := rest } := by
    have hk : Expr.sign? t.kind = some sign := by rw [ht]; cases sign <;> rfl
    simp only [enterOperand, look, hp, Expr.peek, hk, List.tail_cons]
    exact if_neg (by omega)
  rw [Expr.reading_operand_signed ht]
  refine .step (step_operand hc) ?_
  rw [hnext]
  refine Follows.bind (hs _ rfl (by dsimp only; omega)) ?_
  rintro ⟨inner, rest'⟩ -
  refine .step rfl ?_
  dsimp only [resume]
  exact follows_push (c.table.plant_add_signed inner t.span sign) rfl (.ok .refl)

/-- The parser when an operand has been started that has no sign. -/
def unsigned (c : Descent) : Descent :=
  { c with control := .primary, frames := .unsigned :: c.frames, depth := c.depth + 1 }

theorem follows_unsigned {kind : TokenKind} {span : Span}
    {x : Except SyntaxError (Expr × List Piece)} (hc : c.control = .call .operand)
    (hd : c.depth < Expr.maxNesting) (hp : Expr.peek finish c.pieces = .ok (kind, span))
    (hk : Expr.sign? kind = none) (h : Follows finish c.unsigned c.unsigned.returning x) :
    Follows finish c c.returning x := by
  have hnext : c.enterOperand finish = c.unsigned := by
    simp only [enterOperand, look, hp, hk]
    exact if_neg (Nat.not_le.2 hd)
  refine .step (step_operand hc) ?_
  rw [hnext]
  cases h with
  | ok h => exact .ok (.tail h rfl)
  | error h hr => exact .error h hr

theorem follows_number {t : Token} {rest : List Piece} (ht : t.kind = .number)
    (hc : c.control = .primary) (hp : c.pieces = .token t :: rest) :
    Follows finish c c.returning
      (Expr.reading (Expr.operand finish (budget + 1)) (.token t :: rest)) := by
  rw [Expr.reading_operand_number ht]
  refine .step (step_primary hc) ?_
  simp only [enterPrimary, hp, ht]
  cases Value.ofInt? (Text.ofDigits t.lexeme) with
  | none => exact .refuse _
  | some value => exact .ok .refl

theorem follows_group {t : Token} {rest : List Piece} (ht : t.kind = .leftParenthesis)
    (hs : Simulates finish budget .sum) (hc : c.control = .primary)
    (hp : c.pieces = .token t :: rest) (hd : c.depth + budget = Expr.maxNesting) :
    Follows finish c c.returning
      (Expr.reading (Expr.operand finish (budget + 1)) (.token t :: rest)) := by
  rw [Expr.reading_operand_group ht, Expr.readingClosed_eq]
  simp only [bind_assoc, ok_bind]
  refine .step (step_primary hc) ?_
  simp only [enterPrimary, hp, ht]
  refine Follows.bind (hs _ rfl (by exact hd)) ?_
  rintro ⟨inner, rest'⟩ -
  refine .step rfl ?_
  dsimp only [resume]
  exact follows_take fun _ _ => .ok .refl

theorem follows_name {t : Token} {rest : List Piece} (ht : t.kind = .name)
    (hs : Simulates finish budget .sum) (hc : c.control = .primary)
    (hp : c.pieces = .token t :: rest) (hd : c.depth + budget = Expr.maxNesting) :
    Follows finish c c.returning
      (Expr.reading (Expr.operand finish (budget + 1)) (.token t :: rest)) := by
  refine .step (step_primary hc) ?_
  simp only [enterPrimary, hp, ht]
  match rest with
  | [] =>
    rw [Expr.reading_operand_name ht rfl (by decide)]
    exact .ok .refl
  | .unrecognized f :: _ =>
    rw [Expr.reading, Expr.operand, ht]
    exact .refuse _
  | .token opening :: inside =>
    by_cases ho : opening.kind = .leftBracket
    · rw [Expr.reading_operand_element ht ho, Expr.readingClosed_eq]
      simp only [bind_assoc, ok_bind]
      simp only [look, Expr.peek, if_pos ho, List.tail_cons]
      refine Follows.bind (hs _ rfl (by exact hd)) ?_
      rintro ⟨index, rest'⟩ -
      refine .step rfl ?_
      dsimp only [resume]
      refine follows_take fun closing rest' => ?_
      exact follows_push (c.table.plant_add_element index _ t.name) rfl (.ok .refl)
    · rw [Expr.reading_operand_name ht rfl ho]
      simp only [look, Expr.peek, if_neg ho]
      exact .ok .refl

end

/-- Operands are simulated. The induction is on the number of operands that may still be open. -/
theorem simulates_operand (finish : Span) (budget : Nat) : Simulates finish budget .operand := by
  induction budget with
  | zero =>
    intro c hc hd
    have hr : Expr.reading (Expr.levelParser finish 0 .operand) c.pieces =
        Expr.peek finish c.pieces >>= fun next => .error ⟨.tooDeep, next.2⟩ := by
      rw [Expr.levelParser, Expr.reading, Expr.operand]
      cases Expr.peek finish c.pieces <;> rfl
    rw [hr]
    refine .step (step_operand hc) (follows_look fun kind span => ?_)
    have hm : Expr.maxNesting ≤ c.depth := Nat.le_of_eq hd.symm
    rw [if_pos hm]
    exact .refuse _
  | succ budget ih =>
    intro c hc hd
    have hlt : c.depth < Expr.maxNesting := by omega
    have hd' : c.unsigned.depth + budget = Expr.maxNesting := by
      dsimp only [unsigned]
      omega
    rcases hp : c.pieces with _ | ⟨t | f, rest⟩
    · refine follows_unsigned hc hlt (by rw [hp]; rfl) rfl (.step rfl ?_)
      simp only [enterPrimary, unsigned, hp]
      rw [Expr.levelParser, Expr.reading, Expr.operand]
      exact .refuse _
    · have hpeek : Expr.peek finish c.pieces = .ok (t.kind, t.span) := by rw [hp]; rfl
      cases ht : t.kind with
      | plus => exact follows_signed (show t.kind = Sign.plus.token from ht) ih hc hp hd
      | minus => exact follows_signed (show t.kind = Sign.minus.token from ht) ih hc hp hd
      | number =>
        exact follows_unsigned hc hlt hpeek (by rw [ht]; rfl) (follows_number ht rfl hp)
      | name =>
        exact follows_unsigned hc hlt hpeek (by rw [ht]; rfl) (follows_name ht ih.sum rfl hp hd')
      | leftParenthesis =>
        exact follows_unsigned hc hlt hpeek (by rw [ht]; rfl) (follows_group ht ih.sum rfl hp hd')
      | rightParenthesis | leftBracket | rightBracket | star | slash | percent | finish =>
        refine follows_unsigned hc hlt hpeek (by rw [ht]; rfl) (.step rfl ?_)
        simp only [enterPrimary, unsigned, hp, ht]
        rw [Expr.levelParser, Expr.reading, Expr.operand, ht]
        exact .refuse _
    · refine .step (step_operand hc) ?_
      simp only [enterOperand, look, hp]
      rw [Expr.levelParser, Expr.reading, Expr.operand]
      exact .refuse _

/-- What a text is read as, with what is left behind it. -/
def readingWhole (finish : Span) (pieces : List Piece) :
    Except SyntaxError (Expr × List Piece) := do
  let whole ← Expr.reading (Expr.sum (Expr.operand finish Expr.maxNesting)) pieces
  let next ← Expr.peek finish whole.2
  if next.1 = .finish then .ok whole else .error ⟨.unexpected next.1 .finish, next.2⟩

theorem ofPieces_eq_map (finish : Span) (pieces : List Piece) :
    Expr.ofPieces finish pieces = (readingWhole finish pieces).map Prod.fst := by
  rw [Expr.ofPieces_eq, readingWhole]
  cases Expr.reading (Expr.sum (Expr.operand finish Expr.maxNesting)) pieces with
  | error fault => rfl
  | ok whole =>
    simp only [ok_bind]
    cases Expr.peek finish whole.2 with
    | error fault => rfl
    | ok next =>
      simp only [ok_bind]
      split <;> rfl

/-- The run on a text ends, and what it comes to is what parsing gives. -/
theorem reaches_parse (source : String) :
    ∃ c, Reaches (.endOf source) (start source) c ∧ c.step (.endOf source) = none ∧
      c.result? = some ((Expr.parse source).map fun e => (e.nodes, e.nodes.length - 1)) := by
  have hrun : Follows (.endOf source) (start source)
      (fun r => { (start source).returning r with control := .accepted (NodeTable.empty.root r.1) })
      (readingWhole (.endOf source) (Piece.scan source)) := by
    refine Follows.bind ((simulates_operand _ _).sum _ rfl (by rfl)) fun r _ => ?_
    refine .step rfl (follows_look fun kind span => ?_)
    dsimp only
    split
    · exact .ok .refl
    · exact .refuse _
  rw [Expr.parse, ofPieces_eq_map]
  generalize readingWhole (.endOf source) (Piece.scan source) = x at hrun
  cases hrun with
  | @ok r h =>
    refine ⟨_, h, rfl, ?_⟩
    simp [result?, returning, start, NodeTable.plant, NodeTable.empty, NodeTable.root, Except.map,
      Expr.nodes, Expr.length_nodesFrom]
  | error h hr =>
    refine ⟨_, h, ?_, ?_⟩
    · rw [step, hr]
    · rw [result?, hr]; rfl

theorem result?_eq_ok_iff {c : Descent} {nodes : List Node} {root : Nat} :
    c.result? = some (.ok (nodes, root)) ↔ c.control = .accepted root ∧ c.table.nodes = nodes := by
  unfold result?
  split
  · next hc => simp [hc, and_comm]
  · next hc => simp [hc]
  · next hc _ => exact ⟨nofun, fun h => (hc root h.1).elim⟩

/-- The run on a text that is read makes the nodes of its tree and returns the last of them. -/
theorem reaches_nodes {source : String} {e : Expr} (h : Expr.parse source = .ok e) :
    ∃ c, Reaches (.endOf source) (start source) c ∧
      c.control = .accepted (e.nodes.length - 1) ∧ c.table.nodes = e.nodes := by
  obtain ⟨c, hr, -, hc⟩ := reaches_parse source
  rw [h] at hc
  exact ⟨c, hr, result?_eq_ok_iff.1 hc⟩

end Descent

/-! ## The value of what a run has made -/

/-- The nodes that the parser makes of a text are a tree in a list. The value of the text, or its
fault, is what one pass over these nodes from left to right comes to. -/
theorem evaluate_eq_pass {text : String} {e : Expr} (h : Expr.parse text = .ok e) (s : State) :
    (∃ c, Descent.Reaches (.endOf text) (.start text) c ∧
      c.control = .accepted (e.nodes.length - 1) ∧ c.table.nodes = e.nodes) ∧
    Node.TreeAt e.nodes (e.nodes.length - 1) e ∧
    (∀ (i : Nat) (node : Node), e.nodes[i]? = some node → ∀ j ∈ node.children, j < i) ∧
    (∀ j, j + 1 < e.nodes.length →
      ∃! i, j < i ∧ ∃ node, e.nodes[i]? = some node ∧ j ∈ node.children) ∧
    (∀ v, evaluate text s = .ok v ↔
      ∃ vs, vs.length + 1 = e.nodes.length ∧ Node.pass s [] e.nodes = some (.ok (vs ++ [v]))) ∧
    ∀ fault, evaluate text s = .error fault ↔
      ∃ before node after vs cause, e.nodes = before ++ node :: after ∧
        Node.pass s [] before = some (.ok vs) ∧ node.compute s vs = some (.error cause) ∧
        fault = .inText text cause node.span := by
  rw [evaluate_of_parse h]
  refine ⟨Descent.reaches_nodes h, e.treeAt_nodes,
    fun i node hi j hj => Expr.lt_of_mem_children hi hj, fun j hj => Expr.existsUnique_parent hj,
    fun v => ?_, fun fault => ?_⟩
  · rw [Fault.within_eq_ok_iff, Expr.eval_eq_ok_iff_pass, Expr.nodes, Expr.length_nodesFrom]
  · simp only [Fault.within_eq_error_iff, Expr.eval_eq_error_iff_pass, Node.pass_eq_error_iff]
    constructor
    · rintro ⟨cause, span, ⟨before, node, after, vs, hn, hb, hc, rfl⟩, rfl⟩
      exact ⟨before, node, after, vs, cause, hn, hb, hc, rfl⟩
    · rintro ⟨before, node, after, vs, cause, hn, hb, hc, rfl⟩
      exact ⟨cause, node.span, ⟨before, node, after, vs, hn, hb, hc, rfl⟩, rfl⟩

/-- In `6 / (x - 1) + y` with `x = 1` and no `y`, the quotient fails before `y` is looked at. -/
theorem evaluate_eq_pass_quotient :
    let text := "6 / (x - 1) + y"
    let s : State := ⟨⟨[("x", 1)]⟩, .empty, #[]⟩
    (∃ e, Expr.parse text = .ok e ∧ e.nodes.length = 7) ∧
      evaluate text s = .error (.inText text .divisionByZero ⟨2, 1⟩) := by
  intro text s
  have h : Expr.parse text = .ok (.binary .add (.binary .divide (.number 6 ⟨0, 1⟩)
      (.binary .subtract (.var "x" ⟨5, 1⟩) (.number 1 ⟨9, 1⟩) ⟨7, 1⟩) ⟨2, 1⟩)
      (.var "y" ⟨14, 1⟩) ⟨12, 1⟩) := by
    decide +kernel
  refine ⟨⟨_, h, rfl⟩, ((evaluate_eq_pass h s).2.2.2.2.2 _).2 ?_⟩
  exact ⟨[.number 6 ⟨0, 1⟩, .var "x" ⟨5, 1⟩, .number 1 ⟨9, 1⟩, .binary .subtract 1 2 ⟨7, 1⟩],
    .binary .divide 0 3 ⟨2, 1⟩, [.var "y" ⟨14, 1⟩, .binary .add 4 5 ⟨12, 1⟩], [6, 1, 1, 0],
    .divisionByZero, rfl, rfl, rfl, rfl⟩

end BlockScript
