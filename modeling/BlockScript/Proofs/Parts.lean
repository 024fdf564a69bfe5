import BlockScript.Program
import BlockScript.Proofs.Children
import BlockScript.Proofs.Exact
import BlockScript.Proofs.Running

/-!
# The parts of a statement

`Statement.parts` lists a statement and all statements inside of it. What a part does by itself is
said once: `Statement.Acts` are the changes it makes to a state, one after the other, and
`Statement.Raises` are the faults it stops with, in the state it has then reached.

A law of outcomes (`Outcome.Law`) goes through sequences and lets a loop forget a counter that was
not bound before it. When every part obeys such a law (`Statement.Obeys`), so does the run of the
whole statement, done or failed (`Statement.exec_of_parts`).
-/

set_option autoImplicit false

namespace BlockScript

open Outcome

/-! ## Parts -/

namespace Statement

mutual

/-- A statement and all statements inside of it. -/
def parts : Statement → List Statement
  | .ifElse condition body elseIfs otherwise =>
    .ifElse condition body elseIfs otherwise ::
      (partsOfBlock body ++ (partsOfBranches elseIfs ++ partsOfOtherwise otherwise))
  | .whileLoop condition body => .whileLoop condition body :: partsOfBlock body
  | .forLoop counter first last step body =>
    .forLoop counter first last step body :: partsOfBlock body
  | statement => [statement]

def partsOfBlock : List Statement → List Statement
  | [] => []
  | statement :: rest => parts statement ++ partsOfBlock rest

def partsOfBranches : List (Condition × List Statement) → List Statement
  | [] => []
  | (_, body) :: rest => partsOfBlock body ++ partsOfBranches rest

def partsOfOtherwise : Option (List Statement) → List Statement
  | none => []
  | some body => partsOfBlock body

end

theorem self_mem_parts (t : Statement) : t ∈ t.parts := by
  cases t <;> simp [parts]

theorem partsOfBlock_eq (block : List Statement) : partsOfBlock block = block.flatMap parts := by
  induction block with
  | nil => rfl
  | cons t block ih => rw [partsOfBlock, ih, List.flatMap_cons]

theorem partsOfBranches_eq (branches : List (Condition × List Statement)) :
    partsOfBranches branches = (branches.flatMap (·.2)).flatMap parts := by
  induction branches with
  | nil => rfl
  | cons branch branches ih =>
    rw [partsOfBranches, ih, partsOfBlock_eq, List.flatMap_cons, List.flatMap_append]

theorem partsOfOtherwise_eq (otherwise : Option (List Statement)) :
    partsOfOtherwise otherwise = (otherwise.getD []).flatMap parts := by
  cases otherwise with
  | none => rfl
  | some body => exact partsOfBlock_eq body

/-- A statement comes first among its parts, and then the parts of its children. -/
theorem parts_eq (t : Statement) : t.parts = t :: t.children.flatMap parts := by
  cases t with
  | ifElse condition body elseIfs otherwise =>
    rw [parts, partsOfBlock_eq, partsOfBranches_eq, partsOfOtherwise_eq, children,
      List.flatMap_append, List.flatMap_append]
  | whileLoop condition body => rw [parts, partsOfBlock_eq, children]
  | forLoop counter first last step body => rw [parts, partsOfBlock_eq, children]
  | declareVariables | assign | output | declareArray | assignElement | swap | fill => rfl

theorem mem_parts_of_mem_children {t u p : Statement} (hu : u ∈ t.children) (hp : p ∈ u.parts) :
    p ∈ t.parts := by
  rw [parts_eq]
  exact List.mem_cons_of_mem t (List.mem_flatMap_of_mem hu hp)

/-- The expression texts of a statement, without those of the statements inside of it: as typed,
but for the operands of a swap and the items of a list, which are trimmed. -/
def texts : Statement → List String
  | .declareVariables _ => []
  | .assign _ expression => [expression]
  | .output expression => [expression]
  | .ifElse condition _ elseIfs _ =>
    condition.left :: condition.right :: elseIfs.flatMap fun branch =>
      [branch.1.left, branch.1.right]
  | .whileLoop condition _ => [condition.left, condition.right]
  | .forLoop _ first last step _ => [first, last, step]
  | .declareArray _ size => [size]
  | .assignElement _ index expression => [index, expression]
  | .swap first second => [Text.trim first, Text.trim second]
  | .fill _ values => Text.splitList values

section
variable {condition : Condition} {body : List Statement}
  {elseIfs : List (Condition × List Statement)} {otherwise : Option (List Statement)}
  {branch : Condition × List Statement}

theorem left_mem_texts (h : branch ∈ elseIfs) :
    branch.1.left ∈ (ifElse condition body elseIfs otherwise).texts := by
  simp only [texts, List.mem_cons, List.mem_flatMap]
  exact .inr (.inr ⟨branch, h, .inl rfl⟩)

theorem right_mem_texts (h : branch ∈ elseIfs) :
    branch.1.right ∈ (ifElse condition body elseIfs otherwise).texts := by
  simp only [texts, List.mem_cons, List.mem_flatMap]
  exact .inr (.inr ⟨branch, h, .inr (.inl rfl)⟩)

end

end Statement

/-- The causes that lie in a statement and not in one of its expressions. -/
def Cause.OfStatement : Cause → Prop
  | .invalidIdentifier _ => True
  | .undeclaredVariable _ => True
  | .undeclaredArray _ => True
  | .invalidOperator _ => True
  | .invalidArraySize _ => True
  | .zeroStep => True
  | .possibleInfiniteLoop _ => True
  | .incompatibleSwap => True
  | .invalidSwapOperand _ => True
  | _ => False

/-- What a text that names a place is about: the kind of the place, and the variable or the array.
Where in the array is not said. -/
def Place.subject? (text : String) : Option (PlaceKind × String) :=
  match Expr.parse text with
  | .error _ => none
  | .ok e =>
    match covers text e, e with
    | true, .var name _ => some (.variable, name)
    | true, .element name _ _ => some (.element, name)
    | _, _ => none

namespace Statement

/-- The single changes that a statement makes to a state, apart from the statements inside of it. -/
inductive Acts : Statement → State → State → Prop
  | declare {names name : String} {s : State} (h : name ∈ Text.splitList names)
      (hn : Text.isName name) : Acts (.declareVariables names) s (s.bindVariable name 0)
  | assign {target expression : String} {s : State} {value : Value}
      (h : s.vars.contains (Text.trim target)) :
      Acts (.assign target expression) s (s.bindVariable (Text.trim target) value)
  | output {expression : String} {s : State} {value : Value} :
      Acts (.output expression) s (s.appendOutput ("answer = " ++ value.text))
  | count {counter first last step : String} {body : List Statement} {s : State} {value : Value}
      (hn : Text.isName (Text.trim counter)) :
      Acts (.forLoop counter first last step body) s (s.bindVariable (Text.trim counter) value)
  | declareArray {name size : String} {s : State} {n : Value} (hn : Text.isName (Text.trim name))
      (h : 0 < n.toInt ∧ n.toInt ≤ State.maxArrayLength) :
      Acts (.declareArray name size) s
        { s with arrays := s.arrays.insert (Text.trim name) (Array.replicate n.toInt.toNat 0) }
  | assignElement {name index expression : String} {s : State} {i : Nat} {value : Value} :
      Acts (.assignElement name index expression) s
        { s with arrays := s.arrays.modify (Text.trim name) (·.setIfInBounds i value) }
  | swapVariable {first second name text : String} {s : State} {value : Value}
      (h : s.vars.contains name) (hm : text ∈ (Statement.swap first second).texts)
      (ho : Place.subject? text = some (.variable, name)) :
      Acts (.swap first second) s (s.bindVariable name value)
  | swapElement {first second name text : String} {s : State} {i : Nat} {value : Value}
      (hm : text ∈ (Statement.swap first second).texts)
      (ho : Place.subject? text = some (.element, name)) :
      Acts (.swap first second) s
        { s with arrays := s.arrays.modify name (·.setIfInBounds i value) }
  | fill {name values : String} {s : State} {elements : Array Value}
      (h : elements.size = (Text.splitList values).length) :
      Acts (.fill name values) s
        { s with arrays := s.arrays.modify (Text.trim name) fun _ => elements }

/-- The faults that a statement raises in a state, apart from the statements inside of it. -/
inductive Raises (t : Statement) (s : State) : Fault → Prop
  /-- One of its expressions has no value. -/
  | evaluation {text : String} {f : Fault} (ht : text ∈ t.texts) (h : evaluate text s = .error f) :
      Raises t s f
  | own {cause : Cause} (h : cause.OfStatement) : Raises t s (.bare cause)
  /-- An element is written outside of its array. -/
  | write {name index expression : String} {i value : Value}
      (ht : t = .assignElement name index expression) (hi : evaluate index s = .ok i)
      (hv : evaluate expression s = .ok value)
      (h : s.setElement (Text.trim name) i value =
        .failed (.bare (.indexOutOfBounds (Text.trim name) i)) s) :
      Raises t s (.bare (.indexOutOfBounds (Text.trim name) i))

end Statement

/-! ## Laws -/

/-- A law on how a step from a state ends. -/
structure Outcome.Law (P : State → Outcome → Prop) : Prop where
  done (s : State) : P s (.done s)
  andThen {s : State} {o : Outcome} {next : State → Outcome} (h : P s o)
    (hn : ∀ s', o = .done s' → P s' (next s')) : P s (o.andThen next)
  /-- A counter that was not bound before is unbound again. -/
  forget {s s' : State} {name : String} (h : s.valueOf? name = none) (hs : P s (.done s')) :
    P s (.done (s'.removeVariable name))

/-- What a statement does by itself keeps to a law. -/
structure Statement.Obeys (P : State → Outcome → Prop) (t : Statement) : Prop where
  acts {s s' : State} (h : t.Acts s s') : P s (.done s')
  raises {s : State} {f : Fault} (h : t.Raises s f) : P s (.failed f s)

section
variable {P : State → Outcome → Prop} {s : State}

theorem law_given {α : Type} {x : Except Fault α} {next : α → Outcome}
    (hx : ∀ f, x = .error f → P s (.failed f s)) (hn : ∀ a, x = .ok a → P s (next a)) :
    P s (given s x next) := by
  cases x with
  | ok a => exact hn a rfl
  | error f => exact hx f rfl

theorem Outcome.Law.trans (hP : Law P) {s' : State} {o : Outcome} (h : P s (.done s'))
    (ho : P s' o) : P s o := by
  change P s ((Outcome.done s').andThen fun _ => o)
  refine hP.andThen h fun s'' hs => ?_
  cases hs
  exact ho

end

/-! ## Faults of conditions and places -/

theorem Comparator.parse_eq_error_iff {text : String} {cause : Cause} :
    parse text = .error cause ↔
      Text.trim text ∉ all.map symbol ∧ cause = .invalidOperator (Text.trim text) := by
  have hall : all.find? (·.symbol == Text.trim text) = none ↔ Text.trim text ∉ all.map symbol := by
    rw [List.find?_eq_none, List.mem_map]
    simp only [beq_iff_eq, not_exists, not_and]
  rw [parse, ← hall]
  split
  · next c hc => simp [hc]
  · next hc => simp [hc, eq_comm]

/-- A condition has no answer when its left side has no value, or else its right side, or else its
operator is none of the six. -/
theorem Condition.holds_eq_error_iff {c : Condition} {s : State} {f : Fault} :
    c.holds s = .error f ↔
      evaluate c.left s = .error f ∨
      (∃ a, evaluate c.left s = .ok a ∧ evaluate c.right s = .error f) ∨
      ∃ a b, evaluate c.left s = .ok a ∧ evaluate c.right s = .ok b ∧
        Text.trim c.operator ∉ Comparator.all.map Comparator.symbol ∧
        f = .bare (.invalidOperator (Text.trim c.operator)) := by
  unfold holds
  cases hl : evaluate c.left s with
  | error g => simp
  | ok a =>
    cases hr : evaluate c.right s with
    | error g => simp
    | ok b =>
      simp only [ok_bind]
      cases hc : Comparator.parse c.operator with
      | error cause =>
        obtain ⟨hn, rfl⟩ := Comparator.parse_eq_error_iff.1 hc
        simp [Fault.ofCause, hn, eq_comm]
      | ok comparator =>
        refine ⟨nofun, ?_⟩
        rintro (h | ⟨_, -, h⟩ | ⟨_, _, -, -, hn, -⟩)
        · cases h
        · cases h
        · cases hc.symm.trans (Comparator.parse_eq_error_iff.2 ⟨hn, rfl⟩)

theorem evaluate_of_parseText_error {text : String} {f : Fault} (h : parseText text = .error f)
    (s : State) : evaluate text s = .error f := by
  rw [evaluate, h]
  rfl

theorem parseText_eq_ok {text : String} {e : Expr} (h : parseText text = .ok e) :
    Expr.parse text = .ok e := by
  unfold parseText at h
  split at h
  · next e' he =>
    cases h
    exact he
  · cases h

namespace Bindings

variable {α : Type}

theorem get?_modify_self (b : Bindings α) (name : String) (f : α → α) :
    (b.modify name f).get? name = (b.get? name).map f :=
  find?_modifyFirst_self name f b.entries

theorem get?_modify_of_ne (b : Bindings α) {name other : String} (ne : other ≠ name) (f : α → α) :
    (b.modify name f).get? other = b.get? other :=
  find?_modifyFirst_of_ne ne f b.entries

end Bindings

namespace State

theorem position?_lt {i : Value} {length j : Nat} (h : position? i length = some j) :
    j < length := by
  unfold position? at h
  split at h
  · cases h
    omega
  · cases h

/-- An element is written, or there is no such array, or no such element. -/
theorem setElement_cases (s : State) (name : String) (i value : Value) :
    (∃ j, s.setElement name i value =
      .done { s with arrays := s.arrays.modify name (·.setIfInBounds j value) }) ∨
    s.setElement name i value = .failed (.bare (.undeclaredArray name)) s ∨
    s.setElement name i value = .failed (.bare (.indexOutOfBounds name i)) s := by
  unfold setElement
  split
  · exact .inr (.inl rfl)
  · split
    · exact .inr (.inr rfl)
    · next j _ => exact .inl ⟨j, rfl⟩

end State

namespace Place

/-- A text whose kind is not known has no value either. -/
theorem evaluate_of_classify_error {text : String} {f : Fault} (h : classify text = .error f)
    (s : State) : evaluate text s = .error f := by
  unfold classify at h
  rcases bind_eq_error.1 h with hp | ⟨e, -, h⟩
  · exact evaluate_of_parseText_error hp s
  · split at h <;> cases h

/-- A place that is not found has no value, for the same reason. -/
theorem evaluate_of_resolve_error {s : State} {text : String} {f : Fault}
    (h : resolve s text = .error f) : evaluate text s = .error f := by
  unfold resolve at h
  rcases bind_eq_error.1 h with hp | ⟨e, hp, h⟩
  · exact evaluate_of_parseText_error hp s
  rw [evaluate_of_parse (parseText_eq_ok hp)]
  split at h
  · next name span _ =>
    rcases bind_eq_error.1 h with hv | ⟨_, -, h⟩
    · exact hv
    · cases h
  · next name index span _ =>
    rw [Expr.eval]
    rcases bind_eq_error.1 h with hi | ⟨i, hi, h⟩
    · obtain ⟨cause, at', hx, rfl⟩ := Fault.within_eq_error_iff.1 hi
      rw [hx]
      rfl
    · rw [Fault.within_eq_ok_iff.1 hi, ok_bind]
      rcases bind_eq_error.1 h with hv | ⟨_, -, h⟩
      · exact hv
      · cases h
  · cases h

/-- A place is there to be read and written. -/
def Found (s : State) : Place → Prop
  | .variable name => s.vars.contains name
  | .element name i => ∃ elements, s.arrays.get? name = some elements ∧
      (State.position? i elements.size).isSome

theorem found_iff_read {s : State} {p : Place} : p.Found s ↔ ∃ value, p.read s = .ok value := by
  match p with
  | .variable name =>
    simp only [Found, Bindings.contains, read, Expr.readVariable, State.valueOf?]
    cases s.vars.get? name <;> simp
  | .element name i =>
    simp only [Found, read, State.element]
    cases s.arrays.get? name with
    | none => simp
    | some elements =>
      simp only [Option.some.injEq, exists_eq_left']
      cases hj : State.position? i elements.size with
      | none => simp
      | some j =>
        have hlt : j < elements.size := State.position?_lt hj
        simp [hlt]

/-- A place that is resolved is there. -/
theorem found_of_resolve {s : State} {text : String} {p : Place}
    (h : resolve s text = .ok (some p)) : p.Found s := by
  unfold resolve at h
  obtain ⟨e, -, h⟩ := bind_eq_ok.1 h
  split at h
  · obtain ⟨value, hv, h⟩ := bind_eq_ok.1 h
    cases h
    exact found_iff_read.2 ⟨value, Expr.blame_eq_ok (Fault.within_eq_ok_iff.1 hv)⟩
  · obtain ⟨i, -, h⟩ := bind_eq_ok.1 h
    obtain ⟨value, hv, h⟩ := bind_eq_ok.1 h
    cases h
    exact found_iff_read.2 ⟨value, Expr.blame_eq_ok (Fault.within_eq_ok_iff.1 hv)⟩
  · cases h

/-- The variable or the array of a place. -/
def name : Place → String
  | .variable name => name
  | .element name _ => name

/-- The place that a text resolves to is of the kind and the name that the text spells. -/
theorem subject?_of_resolve {s : State} {text : String} {p : Place}
    (h : resolve s text = .ok (some p)) : subject? text = some (p.kind, p.name) := by
  unfold resolve at h
  obtain ⟨e, he, h⟩ := bind_eq_ok.1 h
  rw [subject?, parseText_eq_ok he]
  dsimp only
  split at h
  · obtain ⟨_, -, h⟩ := bind_eq_ok.1 h
    cases h
    simp only [*, kind, name]
  · obtain ⟨i, -, h⟩ := bind_eq_ok.1 h
    obtain ⟨_, -, h⟩ := bind_eq_ok.1 h
    cases h
    simp only [*, kind, name]
  · cases h

/-- A place that is there can be written, and all places stay where they are. -/
theorem write_of_found {s : State} {p : Place} (h : p.Found s) (value : Value)
    {first second text : String} (hm : text ∈ (Statement.swap first second).texts)
    (ho : subject? text = some (p.kind, p.name)) :
    ∃ s', p.write s value = .done s' ∧ (Statement.swap first second).Acts s s' ∧
      ∀ q : Place, q.Found s → q.Found s' := by
  match p with
  | .variable name =>
    refine ⟨s.bindVariable name value, if_pos h, .swapVariable h hm ho, fun q hq => ?_⟩
    match q with
    | .variable other =>
      by_cases ho : other = name
      · subst ho
        simp [Found, State.bindVariable, Bindings.contains]
      · simpa [Found, State.bindVariable, Bindings.contains, Bindings.get?_insert_of_ne _ ho]
          using hq
    | .element other i => exact hq
  | .element name i =>
    obtain ⟨elements, ha, hj⟩ := h
    obtain ⟨j, hj⟩ := Option.isSome_iff_exists.1 hj
    refine ⟨_, by simp only [write, State.setElement, ha, Option.map_some, hj]; rfl,
      .swapElement hm ho, fun q hq => ?_⟩
    match q with
    | .variable other => exact hq
    | .element other i' =>
      obtain ⟨elements', ha', hj'⟩ := hq
      by_cases ho : other = name
      · subst ho
        cases ha.symm.trans ha'
        have hg := Bindings.get?_modify_self s.arrays other (·.setIfInBounds j value)
        rw [ha, Option.map_some] at hg
        exact ⟨_, hg, by simpa using hj'⟩
      · exact ⟨elements', (Bindings.get?_modify_of_ne s.arrays ho _).trans ha', hj'⟩

end Place

/-! ## Statements without a body -/

section
variable {P : State → Outcome → Prop} {s : State}

theorem law_evaluate {t : Statement} {text : String} {next : Value → Outcome} (ht : t.Obeys P)
    (hm : text ∈ t.texts) (hn : ∀ v, evaluate text s = .ok v → P s (next v)) :
    P s (given s (evaluate text s) next) :=
  law_given (fun _ hf => ht.raises (.evaluation hm hf)) hn

theorem law_declareVariables (hP : Law P) {names : String}
    (ht : (Statement.declareVariables names).Obeys P) : P s (runDeclareVariables names s) := by
  rw [runDeclareVariables]
  split
  · exact ht.raises (.own trivial)
  · next hf =>
    have hn : ∀ name ∈ Text.splitList names, Text.isName name := by
      simpa using hf
    have hd : ∀ (ns : List String) (s : State), (∀ name ∈ ns, name ∈ Text.splitList names) →
        P s (.done (ns.foldl State.declareVariable s)) := by
      intro ns
      induction ns with
      | nil => exact fun s _ => hP.done s
      | cons name ns ih =>
        intro s hm
        obtain ⟨hname, hns⟩ := List.forall_mem_cons.1 hm
        have ha : P s (.done (s.declareVariable name)) := ht.acts (.declare hname (hn name hname))
        exact hP.trans ha (ih _ hns)
    exact hd _ s fun _ h => h

theorem law_assign {target expression : String}
    (ht : (Statement.assign target expression).Obeys P) :
    P s (given s (evaluate expression s) (s.setVariable (Text.trim target))) := by
  refine law_evaluate ht (by simp [Statement.texts]) fun value _ => ?_
  rw [State.setVariable]
  split
  · next hc => exact ht.acts (.assign hc)
  · exact ht.raises (.own trivial)

theorem law_declareArray {name size : String} (ht : (Statement.declareArray name size).Obeys P) :
    P s (runDeclareArray name size s) := by
  rw [runDeclareArray]
  split
  · next hn =>
    refine law_evaluate ht (by simp [Statement.texts]) fun n _ => ?_
    rw [State.declareArray]
    split
    · next h => exact ht.acts (.declareArray hn h)
    · exact ht.raises (.own trivial)
  · exact ht.raises (.own trivial)

theorem law_assignElement {name index expression : String}
    (ht : (Statement.assignElement name index expression).Obeys P) :
    P s (runAssignElement name index expression s) := by
  refine law_evaluate ht (by simp [Statement.texts]) fun i hi => ?_
  refine law_evaluate ht (by simp [Statement.texts]) fun value hv => ?_
  rcases s.setElement_cases (Text.trim name) i value with ⟨j, hw⟩ | hw | hw
  · rw [hw]
    exact ht.acts .assignElement
  · rw [hw]
    exact ht.raises (.own trivial)
  · rw [hw]
    exact ht.raises (.write rfl hi hv hw)

theorem law_fill {name values : String} (ht : (Statement.fill name values).Obeys P) :
    P s (runFill name values s) := by
  rw [runFill]
  split
  · next hc =>
    refine law_given (fun f hf => ?_) fun elements he => ?_
    · obtain ⟨item, hm, hi⟩ := exists_of_mapM_eq_error hf
      exact ht.raises (.evaluation hm hi)
    · rw [State.replaceArray, if_pos hc]
      exact ht.acts (.fill (length_of_mapM_eq_ok he))
  · exact ht.raises (.own trivial)

theorem operand_eq_ok {α : Type} {x : Except Fault (Option α)} {text : String} {a : α}
    (h : (x >>= orNoOperand text) = .ok a) : x = .ok (some a) := by
  obtain ⟨_ | b, hb, h⟩ := bind_eq_ok.1 h
  · cases h
  · cases h
    exact hb

/-- The kind of an operand is known, or the operand has no value or is no place. -/
theorem law_operand {first second text : String} {α : Type} {x : Except Fault (Option α)}
    {next : α → Outcome} (ht : (Statement.swap first second).Obeys P)
    (hm : text ∈ (Statement.swap first second).texts)
    (hx : ∀ f, x = .error f → evaluate text s = .error f)
    (hn : ∀ a, x = .ok (some a) → P s (next a)) :
    P s (given s (x >>= orNoOperand text) next) := by
  refine law_given (fun f hf => ?_) fun a ha => hn a (operand_eq_ok ha)
  rcases bind_eq_error.1 hf with hf | ⟨_ | a, -, hf⟩
  · exact ht.raises (.evaluation hm (hx f hf))
  · cases hf
    exact ht.raises (.own trivial)
  · cases hf

theorem law_swap (hP : Law P) {first second : String}
    (ht : (Statement.swap first second).Obeys P) : P s (runSwap first second s) := by
  have h1 : Text.trim first ∈ (Statement.swap first second).texts := by simp [Statement.texts]
  have h2 : Text.trim second ∈ (Statement.swap first second).texts := by simp [Statement.texts]
  refine law_operand ht h1 (fun f hf => Place.evaluate_of_classify_error hf s) fun firstKind _ => ?_
  refine law_operand ht h2 (fun f hf => Place.evaluate_of_classify_error hf s) fun _ _ => ?_
  split
  · refine law_operand ht h1 (fun f hf => Place.evaluate_of_resolve_error hf) fun p hp => ?_
    refine law_operand ht h2 (fun f hf => Place.evaluate_of_resolve_error hf) fun q hq => ?_
    -- Both places have been found, so that neither the reads nor the writes can fail: they have no
    -- expression to blame.
    have hps := Place.subject?_of_resolve hp
    have hqs := Place.subject?_of_resolve hq
    have hp := Place.found_of_resolve hp
    have hq := Place.found_of_resolve hq
    obtain ⟨a, ha⟩ := Place.found_iff_read.1 hp
    obtain ⟨b, hb⟩ := Place.found_iff_read.1 hq
    rw [ha, hb]
    obtain ⟨s', hw, hs, hf⟩ := Place.write_of_found hp b h1 hps
    obtain ⟨s'', hw', hs', -⟩ := Place.write_of_found (hf q hq) a h2 hqs
    change P s ((p.write s b).andThen fun s' => q.write s' a)
    rw [hw, done_andThen, hw']
    exact hP.trans (ht.acts hs) (ht.acts hs')
  · exact ht.raises (.own trivial)

end

/-! ## Loops -/

section
variable {P : State → Outcome → Prop} {ceiling : Nat} {body : State → Outcome}

theorem law_unlessSpent {s : State} {turn : Nat → Outcome} {n : Nat}
    (hs : P s (.failed (.bare (.possibleInfiniteLoop ceiling)) s))
    (ht : ∀ k < n, P s (turn k)) : P s (unlessSpent ceiling s turn n) := by
  cases n with
  | zero => exact hs
  | succ n => exact ht n (Nat.lt_succ_self n)

theorem law_repeatWhile (hP : Law P) {test : State → Except Fault Bool}
    (ht : ∀ s f, test s = .error f → P s (.failed f s))
    (hs : ∀ s, P s (.failed (.bare (.possibleInfiniteLoop ceiling)) s))
    (hb : ∀ s, P s (body s)) (n : Nat) (s : State) :
    P s (repeatWhile ceiling test body n s) := by
  induction n using Nat.strongRecOn generalizing s with
  | ind n ih =>
    rw [repeatWhile_eq]
    refine law_given (ht s) fun again _ => ?_
    split
    · exact law_unlessSpent (hs s) fun k hk => hP.andThen (hb s) fun s' _ => ih k hk s'
    · exact hP.done s

/-- Binding the counter is the only thing that a counted loop does between its turns. -/
theorem law_repeatFor (hP : Law P) {counter : String} {step last : Value}
    (hc : ∀ s v, P s (.done (s.bindVariable counter v)))
    (hs : ∀ s, P s (.failed (.bare (.possibleInfiniteLoop ceiling)) s))
    (hb : ∀ s, P s (body s)) (n : Nat) (current : Value) (s : State) :
    P s (repeatFor ceiling counter step last body n current s) := by
  induction n using Nat.strongRecOn generalizing current s with
  | ind n ih =>
    rw [repeatFor_eq]
    split
    · refine law_unlessSpent (hs s) fun k hk => ?_
      refine hP.andThen (hP.trans (hc s current) (hb _)) fun s' _ => ?_
      cases Value.add? current step with
      | none => exact hP.done s'
      | some next => exact ih k hk next s'
    · exact hP.done s

theorem law_countedLoop (hP : Law P) {counter first last step : String} {block : List Statement}
    (ht : (Statement.forLoop counter first last step block).Obeys P) (hb : ∀ s, P s (body s))
    (start stop stride : Value) (s : State) :
    P s (countedLoop ceiling (Text.trim counter) start stop stride body s) := by
  unfold countedLoop
  split
  · exact ht.raises (.own trivial)
  split
  · exact ht.raises (.own trivial)
  next hn _ =>
  have hn : Text.isName (Text.trim counter) := by simpa using hn
  have hc : ∀ s v, P s (.done (s.bindVariable (Text.trim counter) v)) :=
    fun s v => ht.acts (.count hn)
  have hr : P s (repeatFor ceiling (Text.trim counter) stride stop body ceiling start s) :=
    law_repeatFor hP hc (fun s => ht.raises (.own trivial)) hb ceiling start s
  generalize repeatFor ceiling (Text.trim counter) stride stop body ceiling start s = o at hr
  cases hv : s.valueOf? (Text.trim counter) with
  | some v => exact hP.andThen hr fun s' _ => hc s' v
  | none =>
    cases o with
    | failed f s' => exact hr
    | done s' => exact hP.forget hv hr

end

/-! ## All statements -/

namespace Statement

theorem Obeys.condition {P : State → Outcome → Prop} {t : Statement} (ht : t.Obeys P)
    {c : Condition} (hl : c.left ∈ t.texts) (hr : c.right ∈ t.texts) (s : State) (f : Fault)
    (h : c.holds s = .error f) : P s (.failed f s) := by
  rcases Condition.holds_eq_error_iff.1 h with h | ⟨a, -, h⟩ | ⟨a, b, -, -, -, rfl⟩
  · exact ht.raises (.evaluation hl h)
  · exact ht.raises (.evaluation hr h)
  · exact ht.raises (.own trivial)

section
variable {P : State → Outcome → Prop} {ceiling : Nat}

theorem law_execBlock (hP : Law P) {block : List Statement}
    (h : ∀ u ∈ block, ∀ s, P s (exec ceiling u s)) (s : State) :
    P s (execBlock ceiling block s) := by
  induction block generalizing s with
  | nil =>
    rw [execBlock]
    exact hP.done s
  | cons statement rest ih =>
    obtain ⟨hstatement, hrest⟩ := List.forall_mem_cons.1 h
    rw [execBlock_cons]
    exact hP.andThen (hstatement s) fun s' _ => ih hrest s'

theorem law_execBranches (hP : Law P) {branches : List (Condition × List Statement)}
    (h : ∀ u ∈ branches.flatMap (·.2), ∀ s, P s (exec ceiling u s))
    (hc : ∀ branch ∈ branches, ∀ s f, branch.1.holds s = .error f → P s (.failed f s))
    {fallback : State → Outcome} (hf : ∀ s, P s (fallback s)) (s : State) :
    P s (execBranches ceiling branches fallback s) := by
  induction branches with
  | nil =>
    rw [execBranches]
    exact hf s
  | cons branch rest ih =>
    obtain ⟨condition, body⟩ := branch
    rw [List.flatMap_cons, List.forall_mem_append] at h
    obtain ⟨hcondition, hrest⟩ := List.forall_mem_cons.1 hc
    rw [execBranches]
    refine law_given (hcondition s) fun holds _ => ?_
    split
    · exact law_execBlock hP h.1 s
    · exact ih h.2 hrest

theorem law_execOtherwise (hP : Law P) {otherwise : Option (List Statement)}
    (h : ∀ u ∈ otherwise.getD [], ∀ s, P s (exec ceiling u s)) (s : State) :
    P s (execOtherwise ceiling otherwise s) := by
  cases otherwise with
  | none =>
    rw [execOtherwise]
    exact hP.done s
  | some body =>
    rw [execOtherwise]
    exact law_execBlock hP h s

/-- A law that a statement obeys by itself, and that holds of every run of its children, holds of
every run of it. -/
theorem exec_of_children (hP : Law P) {t : Statement} (ht : t.Obeys P)
    (h : ∀ u ∈ t.children, ∀ s, P s (exec ceiling u s)) (s : State) : P s (exec ceiling t s) := by
  cases t with
  | declareVariables names =>
    rw [exec]
    exact law_declareVariables hP ht
  | assign target expression =>
    rw [exec]
    exact law_assign ht
  | output expression =>
    rw [exec]
    exact law_evaluate ht (by simp [texts]) fun _ _ => ht.acts .output
  | ifElse condition body elseIfs otherwise =>
    rw [children, List.forall_mem_append, List.forall_mem_append] at h
    obtain ⟨hb, he, ho⟩ := h
    rw [exec]
    refine law_given (ht.condition (by simp [texts]) (by simp [texts]) s) fun holds _ => ?_
    split
    · exact law_execBlock hP hb s
    · refine law_execBranches hP he (fun branch hm => ?_) (law_execOtherwise hP ho) s
      exact ht.condition (left_mem_texts hm) (right_mem_texts hm)
  | whileLoop condition body =>
    rw [exec]
    exact law_repeatWhile hP (ht.condition (by simp [texts]) (by simp [texts]))
      (fun s => ht.raises (.own trivial)) (law_execBlock hP h) ceiling s
  | forLoop counter first last step body =>
    rw [exec_forLoop]
    refine law_evaluate ht (by simp [texts]) fun first _ => ?_
    refine law_evaluate ht (by simp [texts]) fun last _ => ?_
    refine law_evaluate ht (by simp [texts]) fun step _ => ?_
    exact law_countedLoop hP ht (law_execBlock hP h) first last step s
  | declareArray name size =>
    rw [exec]
    exact law_declareArray ht
  | assignElement name index expression =>
    rw [exec]
    exact law_assignElement ht
  | swap first second =>
    rw [exec]
    exact law_swap hP ht
  | fill name values =>
    rw [exec]
    exact law_fill ht

/-- A law that all parts of a statement obey holds of every run of it. -/
theorem exec_of_parts (hP : Law P) (statement : Statement)
    (h : ∀ t ∈ statement.parts, t.Obeys P) (s : State) : P s (exec ceiling statement s) := by
  induction statement using induction_on_children generalizing s with
  | step t ih =>
    refine exec_of_children hP (h t t.self_mem_parts) (fun u hu s => ?_) s
    exact ih u hu (fun p hp => h p (mem_parts_of_mem_children hu hp)) s

theorem execBlock_of_parts (hP : Law P) (block : List Statement)
    (h : ∀ t ∈ partsOfBlock block, t.Obeys P) (s : State) : P s (execBlock ceiling block s) := by
  rw [partsOfBlock_eq] at h
  refine law_execBlock hP (fun u hu s => ?_) s
  exact exec_of_parts hP u (fun p hp => h p (List.mem_flatMap_of_mem hu hp)) s

end

end Statement

end BlockScript
