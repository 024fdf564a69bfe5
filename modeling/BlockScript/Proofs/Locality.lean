import BlockScript.Proofs.Names
import BlockScript.Proofs.Shadows

/-!
# What a run depends on

States that agree on some names (`State.AgreeOn`) are the same to every expression in which no other
names occur (`evaluate_congr`). The same holds of statements: from two states that agree on the
names of a statement, its runs end alike (`Outcome.Alike`), in states that are twins of each other
(`State.Twins`): they agree on the names, and the same lines have been written in both since the
runs began.

Twins stay twins over every operation, over sequences and over loops. Only at the end of a counted
loop is it not enough that they agree: the loop may unbind its counter, and what comes to light then
has to be nothing in both (`State.Twins.restoreVariable`).
-/

set_option autoImplicit false

namespace BlockScript

open Outcome

/-- Two states hold the same under every one of these names, as a variable and as an array, where it
may be that neither holds anything. -/
structure State.AgreeOn (names : List String) (s t : State) : Prop where
  vars : ∀ name ∈ names, s.valueOf? name = t.valueOf? name
  arrays : ∀ name ∈ names, s.elementsOf? name = t.elementsOf? name

instance (names : List String) (s t : State) : Decidable (s.AgreeOn names t) :=
  decidable_of_iff ((∀ name ∈ names, s.valueOf? name = t.valueOf? name) ∧
    ∀ name ∈ names, s.elementsOf? name = t.elementsOf? name)
    ⟨fun h => ⟨h.1, h.2⟩, fun h => ⟨h.vars, h.arrays⟩⟩

theorem State.AgreeOn.mono {names fewer : List String} {s t : State} (h : s.AgreeOn names t)
    (hf : ∀ name ∈ fewer, name ∈ names) : s.AgreeOn fewer t :=
  ⟨fun name hn => h.vars name (hf name hn), fun name hn => h.arrays name (hf name hn)⟩

theorem State.AgreeOn.symm {names : List String} {s t : State} (h : s.AgreeOn names t) :
    t.AgreeOn names s :=
  ⟨fun name hn => (h.vars name hn).symm, fun name hn => (h.arrays name hn).symm⟩

/-! ## Expressions -/

section
variable {s t : State}

theorem State.element_congr {name : String} (h : s.elementsOf? name = t.elementsOf? name)
    (i : Value) : s.element name i = t.element name i := by
  unfold State.element
  rw [show s.arrays.get? name = t.arrays.get? name from h]

theorem Expr.readVariable_congr {name : String} (h : s.valueOf? name = t.valueOf? name) :
    readVariable s name = readVariable t name := by
  rw [readVariable, readVariable, h]

theorem Expr.eval_congr {e : Expr} (h : s.AgreeOn e.names t) : e.eval s = e.eval t := by
  induction e with
  | number value span => rfl
  | var name span =>
    rw [eval, eval, readVariable_congr (h.vars name (List.mem_singleton_self name))]
  | element name index span ih =>
    rw [eval, eval, ih (h.mono fun _ hn => List.mem_cons_of_mem name hn)]
    simp only [State.element_congr (h.arrays name List.mem_cons_self)]
  | signed sign operand span ih => rw [eval, eval, ih h]
  | binary operator left right span ihl ihr =>
    rw [eval, eval, ihl (h.mono fun _ hn => List.mem_append_left _ hn),
      ihr (h.mono fun _ hn => List.mem_append_right _ hn)]

/-- An expression text has the same value, or the same fault, in states that agree on its names. -/
theorem evaluate_congr {text : String} (h : s.AgreeOn (Piece.names text) t) :
    evaluate text s = evaluate text t := by
  cases hp : Expr.parse text with
  | error error => simp only [evaluate, parseText, hp, error_bind]
  | ok e =>
    rw [← Expr.names_of_parse hp] at h
    rw [evaluate_of_parse hp, evaluate_of_parse hp, Expr.eval_congr h]

theorem Condition.holds_congr {c : Condition} (hl : s.AgreeOn (Piece.names c.left) t)
    (hr : s.AgreeOn (Piece.names c.right) t) : c.holds s = c.holds t := by
  rw [holds, holds, evaluate_congr hl, evaluate_congr hr]

theorem Place.resolve_congr {text : String} (h : s.AgreeOn (Piece.names text) t) :
    resolve s text = resolve t text := by
  unfold resolve
  cases hp : parseText text with
  | error f => rfl
  | ok e =>
    rw [← Expr.names_of_parse (parseText_eq_ok hp)] at h
    simp only [ok_bind]
    split
    · rw [Expr.readVariable_congr (h.vars _ (List.mem_singleton_self _))]
    · rw [Expr.eval_congr (h.mono fun _ hn => List.mem_cons_of_mem _ hn)]
      simp only [State.element_congr (h.arrays _ List.mem_cons_self)]
    · rfl

theorem Place.read_congr {p : Place} (h : s.AgreeOn [p.name] t) : p.read s = p.read t := by
  match p with
  | .variable name => exact Expr.readVariable_congr (h.vars name (List.mem_singleton_self _))
  | .element name i => exact State.element_congr (h.arrays name (List.mem_singleton_self _)) i

end

/-! ## Two runs -/

/-- Two steps end alike: both are done, or both fail with one fault, in states that `R` relates. -/
inductive Outcome.Alike (R : State → State → Prop) : Outcome → Outcome → Prop
  | done {s t : State} (h : R s t) : Alike R (.done s) (.done t)
  | failed {f : Fault} {s t : State} (h : R s t) : Alike R (.failed f s) (.failed f t)

section
variable {R : State → State → Prop} {s t : State}

theorem Outcome.Alike.andThen {o o' : Outcome} {next next' : State → Outcome} (h : Alike R o o')
    (hn : ∀ s t, R s t → Alike R (next s) (next' t)) :
    Alike R (o.andThen next) (o'.andThen next') := by
  cases h with
  | done h => exact hn _ _ h
  | failed h => exact .failed h

theorem Outcome.Alike.fault?_eq {o o' : Outcome} (h : Alike R o o') : o.fault? = o'.fault? := by
  cases h <;> rfl

theorem Outcome.Alike.state {o o' : Outcome} (h : Alike R o o') : R o.state o'.state := by
  cases h with
  | done h => exact h
  | failed h => exact h

theorem alike_given {α : Type} {x y : Except Fault α} {next next' : α → Outcome} (h : R s t)
    (hxy : x = y) (hn : ∀ a, x = .ok a → Alike R (next a) (next' a)) :
    Alike R (given s x next) (given t y next') := by
  subst hxy
  cases x with
  | ok a => exact hn a rfl
  | error f => exact .failed h

theorem alike_unlessSpent {ceiling n : Nat} {turn turn' : Nat → Outcome} (h : R s t)
    (hn : ∀ k < n, Alike R (turn k) (turn' k)) :
    Alike R (unlessSpent ceiling s turn n) (unlessSpent ceiling t turn' n) := by
  cases n with
  | zero => exact .failed h
  | succ n => exact hn n (Nat.lt_succ_self n)

variable {ceiling : Nat} {body : State → Outcome}

theorem alike_repeatWhile {test : State → Except Fault Bool}
    (ht : ∀ s t, R s t → test s = test t) (hb : ∀ s t, R s t → Alike R (body s) (body t)) (n : Nat)
    (h : R s t) :
    Alike R (repeatWhile ceiling test body n s) (repeatWhile ceiling test body n t) := by
  induction n using Nat.strongRecOn generalizing s t with
  | ind n ih =>
    rw [repeatWhile_eq, repeatWhile_eq]
    refine alike_given h (ht s t h) fun again _ => ?_
    split
    · exact alike_unlessSpent h fun k hk => (hb s t h).andThen fun s' t' h' => ih k hk h'
    · exact .done h

theorem alike_repeatFor {counter : String} {step last : Value}
    (hc : ∀ s t v, R s t → R (s.bindVariable counter v) (t.bindVariable counter v))
    (hb : ∀ s t, R s t → Alike R (body s) (body t)) (n : Nat) (current : Value) (h : R s t) :
    Alike R (repeatFor ceiling counter step last body n current s)
      (repeatFor ceiling counter step last body n current t) := by
  induction n using Nat.strongRecOn generalizing current s t with
  | ind n ih =>
    rw [repeatFor_eq, repeatFor_eq]
    split
    · refine alike_unlessSpent h fun k hk => ?_
      refine (hb _ _ (hc s t current h)).andThen fun s' t' h' => ?_
      cases Value.add? current step with
      | none => exact .done h'
      | some next => exact ih k hk next h'
    · exact .done h

theorem alike_execBlock {block : List Statement}
    (hb : ∀ u ∈ block, ∀ s t, R s t → Alike R (u.exec ceiling s) (u.exec ceiling t))
    (h : R s t) :
    Alike R (Statement.execBlock ceiling block s) (Statement.execBlock ceiling block t) := by
  induction block generalizing s t with
  | nil =>
    rw [Statement.execBlock, Statement.execBlock]
    exact .done h
  | cons statement rest ih =>
    obtain ⟨hstatement, hrest⟩ := List.forall_mem_cons.1 hb
    rw [Statement.execBlock_cons, Statement.execBlock_cons]
    exact (hstatement s t h).andThen fun s' t' h' => ih hrest h'

theorem alike_execBranches {branches : List (Condition × List Statement)}
    (hb : ∀ u ∈ branches.flatMap (·.2), ∀ s t, R s t →
      Alike R (u.exec ceiling s) (u.exec ceiling t))
    (hc : ∀ branch ∈ branches, branch.1.holds s = branch.1.holds t)
    {fallback : State → Outcome} (hf : Alike R (fallback s) (fallback t)) (h : R s t) :
    Alike R (Statement.execBranches ceiling branches fallback s)
      (Statement.execBranches ceiling branches fallback t) := by
  induction branches with
  | nil =>
    rw [Statement.execBranches, Statement.execBranches]
    exact hf
  | cons branch rest ih =>
    obtain ⟨condition, body⟩ := branch
    rw [List.flatMap_cons, List.forall_mem_append] at hb
    obtain ⟨hcondition, hrest⟩ := List.forall_mem_cons.1 hc
    rw [Statement.execBranches, Statement.execBranches]
    refine alike_given h hcondition fun holds _ => ?_
    split
    · exact alike_execBlock hb.1 h
    · exact ih hb.2 hrest

theorem alike_execOtherwise {otherwise : Option (List Statement)}
    (hb : ∀ u ∈ otherwise.getD [], ∀ s t, R s t → Alike R (u.exec ceiling s) (u.exec ceiling t))
    (h : R s t) :
    Alike R (Statement.execOtherwise ceiling otherwise s)
      (Statement.execOtherwise ceiling otherwise t) := by
  cases otherwise with
  | none =>
    rw [Statement.execOtherwise, Statement.execOtherwise]
    exact .done h
  | some block =>
    rw [Statement.execOtherwise, Statement.execOtherwise]
    exact alike_execBlock hb h

end

/-! ## Twins -/

/-- Two states agree on names, and the same lines have been written in them since `s₀` and `t₀`. -/
structure State.Twins (names : List String) (s₀ t₀ s t : State) : Prop
    extends s.AgreeOn names t where
  outputs : ∃ added : List String, s.outputs.toList = s₀.outputs.toList ++ added ∧
    t.outputs.toList = t₀.outputs.toList ++ added

namespace State.Twins

variable {names : List String} {s₀ t₀ s t s' t' : State}

theorem bindVariable (h : Twins names s₀ t₀ s t) (name : String) (value : Value) :
    Twins names s₀ t₀ (s.bindVariable name value) (t.bindVariable name value) := by
  refine { h with vars := fun other ho => ?_ }
  unfold State.valueOf? State.bindVariable
  by_cases hne : other = name
  · rw [hne, Bindings.get?_insert_self, Bindings.get?_insert_self]
  · rw [Bindings.get?_insert_of_ne _ hne, Bindings.get?_insert_of_ne _ hne]
    exact h.vars other ho

theorem declareVariables (h : Twins names s₀ t₀ s t) (declared : List String) :
    Twins names s₀ t₀ (declared.foldl State.declareVariable s)
      (declared.foldl State.declareVariable t) := by
  induction declared generalizing s t with
  | nil => exact h
  | cons name declared ih => exact ih (h.bindVariable name 0)

theorem insertArray (h : Twins names s₀ t₀ s t) (name : String) (elements : Array Value) :
    Twins names s₀ t₀ { s with arrays := s.arrays.insert name elements }
      { t with arrays := t.arrays.insert name elements } := by
  refine { h with arrays := fun other ho => ?_ }
  unfold State.elementsOf?
  by_cases hne : other = name
  · rw [hne, Bindings.get?_insert_self, Bindings.get?_insert_self]
  · rw [Bindings.get?_insert_of_ne _ hne, Bindings.get?_insert_of_ne _ hne]
    exact h.arrays other ho

theorem modifyArray (h : Twins names s₀ t₀ s t) (name : String) (f : Array Value → Array Value) :
    Twins names s₀ t₀ { s with arrays := s.arrays.modify name f }
      { t with arrays := t.arrays.modify name f } := by
  refine { h with arrays := fun other ho => ?_ }
  unfold State.elementsOf?
  by_cases hne : other = name
  · rw [hne, Bindings.get?_modify_self, Bindings.get?_modify_self]
    exact congrArg (Option.map f) (h.arrays name (hne ▸ ho))
  · rw [Bindings.get?_modify_of_ne _ hne, Bindings.get?_modify_of_ne _ hne]
    exact h.arrays other ho

theorem appendOutput (h : Twins names s₀ t₀ s t) (line : String) :
    Twins names s₀ t₀ (s.appendOutput line) (t.appendOutput line) := by
  obtain ⟨added, hs, ht⟩ := h.outputs
  refine { h with outputs := ⟨added ++ [line], ?_, ?_⟩ }
  · rw [State.appendOutput, Array.toList_push, hs, List.append_assoc]
  · rw [State.appendOutput, Array.toList_push, ht, List.append_assoc]

/-- At its end a loop gives its counter back in both states. What the counter had before is the same
in both, and nothing is behind it where it had nothing. -/
theorem restoreVariable (h : Twins names s₀ t₀ s t) (h' : Twins names s₀ t₀ s' t')
    (hs : s.SameShadows s') (ht : t.SameShadows t') {counter : String} (hn : counter ∈ names) :
    Twins names s₀ t₀ (restoreVariable counter (s.valueOf? counter) s')
      (restoreVariable counter (t.valueOf? counter) t') := by
  have hc := h.vars counter hn
  refine ⟨⟨fun other ho => ?_, ?_⟩, ?_⟩
  · by_cases hne : other = counter
    · rw [hne, valueOf?_restoreVariable hs, valueOf?_restoreVariable ht, hc]
    · rw [valueOf?_restoreVariable_of_ne hne, valueOf?_restoreVariable_of_ne hne]
      exact h'.vars other ho
  · rw [hc]
    cases t.valueOf? counter <;> exact h'.arrays
  · rw [hc]
    cases t.valueOf? counter <;> exact h'.outputs

/-! ### Operations that can fail -/

theorem setVariable (h : Twins names s₀ t₀ s t) {name : String} (hn : name ∈ names)
    (value : Value) :
    Alike (Twins names s₀ t₀) (s.setVariable name value) (t.setVariable name value) := by
  have hc : s.vars.contains name = t.vars.contains name :=
    congrArg Option.isSome (h.vars name hn)
  rw [State.setVariable, State.setVariable, hc]
  split
  · exact .done (h.bindVariable name value)
  · exact .failed h

theorem declareArray (h : Twins names s₀ t₀ s t) (name : String) (size : Value) :
    Alike (Twins names s₀ t₀) (s.declareArray name size) (t.declareArray name size) := by
  rw [State.declareArray, State.declareArray]
  split
  · exact .done (h.insertArray name _)
  · exact .failed h

theorem setElement (h : Twins names s₀ t₀ s t) {name : String} (hn : name ∈ names)
    (i value : Value) :
    Alike (Twins names s₀ t₀) (s.setElement name i value) (t.setElement name i value) := by
  have ha : s.arrays.get? name = t.arrays.get? name := h.arrays name hn
  rw [State.setElement, State.setElement, ha]
  split
  · exact .failed h
  · split
    · exact .failed h
    · exact .done (h.modifyArray name _)

theorem replaceArray (h : Twins names s₀ t₀ s t) {name : String} (hn : name ∈ names)
    (elements : Array Value) :
    Alike (Twins names s₀ t₀) (s.replaceArray name elements) (t.replaceArray name elements) := by
  have hc : s.arrays.contains name = t.arrays.contains name :=
    congrArg Option.isSome (h.arrays name hn)
  rw [State.replaceArray, State.replaceArray, hc]
  split
  · exact .done (h.modifyArray name _)
  · exact .failed h

theorem write (h : Twins names s₀ t₀ s t) {p : Place} (hn : p.name ∈ names) (value : Value) :
    Alike (Twins names s₀ t₀) (p.write s value) (p.write t value) := by
  match p with
  | .variable name => exact h.setVariable hn value
  | .element name i => exact h.setElement hn i value

end State.Twins

/-! ## Statements -/

namespace Statement

section
variable {names : List String} {s₀ t₀ s t : State} {ceiling : Nat} {statement : Statement}

theorem agreeOn_text (hn : ∀ name ∈ statement.ownNames, name ∈ names)
    (h : State.Twins names s₀ t₀ s t) {text : String} (hm : text ∈ statement.texts) :
    s.AgreeOn (Piece.names text) t := by
  refine h.toAgreeOn.mono fun name ho => hn name ?_
  exact List.mem_append_right _ (List.mem_flatMap_of_mem hm ho)

theorem alike_evaluate (hn : ∀ name ∈ statement.ownNames, name ∈ names)
    (h : State.Twins names s₀ t₀ s t) {text : String} (hm : text ∈ statement.texts)
    {next next' : Value → Outcome}
    (hv : ∀ v, Alike (State.Twins names s₀ t₀) (next v) (next' v)) :
    Alike (State.Twins names s₀ t₀) (given s (evaluate text s) next)
      (given t (evaluate text t) next') :=
  alike_given h (evaluate_congr (agreeOn_text hn h hm)) fun v _ => hv v

theorem holds_of_twins (hn : ∀ name ∈ statement.ownNames, name ∈ names)
    (h : State.Twins names s₀ t₀ s t) {c : Condition} (hl : c.left ∈ statement.texts)
    (hr : c.right ∈ statement.texts) : c.holds s = c.holds t :=
  Condition.holds_congr (agreeOn_text hn h hl) (agreeOn_text hn h hr)

theorem alike_declareVariables (h : State.Twins names s₀ t₀ s t) (declared : String) :
    Alike (State.Twins names s₀ t₀) (runDeclareVariables declared s)
      (runDeclareVariables declared t) := by
  rw [runDeclareVariables, runDeclareVariables]
  split
  · exact .failed h
  · exact .done (h.declareVariables _)

theorem alike_declareArray {name size : String}
    (hn : ∀ other ∈ (Statement.declareArray name size).ownNames, other ∈ names)
    (h : State.Twins names s₀ t₀ s t) :
    Alike (State.Twins names s₀ t₀) (runDeclareArray name size s)
      (runDeclareArray name size t) := by
  rw [runDeclareArray, runDeclareArray]
  split
  · exact alike_evaluate hn h (by simp [texts]) (h.declareArray _)
  · exact .failed h

theorem alike_assignElement {name index expression : String}
    (hn : ∀ other ∈ (Statement.assignElement name index expression).ownNames, other ∈ names)
    (h : State.Twins names s₀ t₀ s t) :
    Alike (State.Twins names s₀ t₀) (runAssignElement name index expression s)
      (runAssignElement name index expression t) := by
  have hm : Text.trim name ∈ names := hn _ List.mem_cons_self
  refine alike_evaluate hn h (by simp [texts]) fun i => ?_
  refine alike_evaluate hn h (by simp [texts]) fun value => ?_
  exact h.setElement hm i value

theorem alike_fill {name values : String}
    (hn : ∀ other ∈ (Statement.fill name values).ownNames, other ∈ names)
    (h : State.Twins names s₀ t₀ s t) :
    Alike (State.Twins names s₀ t₀) (runFill name values s) (runFill name values t) := by
  have hm : Text.trim name ∈ names := hn _ List.mem_cons_self
  have hc : s.arrays.contains (Text.trim name) = t.arrays.contains (Text.trim name) :=
    congrArg Option.isSome (h.arrays _ hm)
  have hv : (Text.splitList values).mapM (evaluate · s) =
      (Text.splitList values).mapM (evaluate · t) :=
    mapM_congr fun item hi => evaluate_congr (agreeOn_text hn h hi)
  rw [runFill, runFill, hc]
  split
  · exact alike_given h hv fun elements _ => h.replaceArray hm _
  · exact .failed h

/-- The place that an operand of a swap names is among the names of the swap. -/
theorem name_mem_of_resolve {first second text : String} {p : Place}
    (hn : ∀ name ∈ (Statement.swap first second).ownNames, name ∈ names)
    (hm : text ∈ (Statement.swap first second).texts)
    (hp : (Place.resolve s text >>= orNoOperand text) = .ok p) : p.name ∈ names := by
  have ho := Place.mem_names_of_subject? (Place.subject?_of_resolve (operand_eq_ok hp))
  exact hn _ (List.mem_append_right _ (List.mem_flatMap_of_mem hm ho))

theorem alike_swap {first second : String}
    (hn : ∀ name ∈ (Statement.swap first second).ownNames, name ∈ names)
    (h : State.Twins names s₀ t₀ s t) :
    Alike (State.Twins names s₀ t₀) (runSwap first second s) (runSwap first second t) := by
  have h1 : Text.trim first ∈ (Statement.swap first second).texts := by simp [texts]
  have h2 : Text.trim second ∈ (Statement.swap first second).texts := by simp [texts]
  have hr1 := Place.resolve_congr (agreeOn_text hn h h1)
  have hr2 := Place.resolve_congr (agreeOn_text hn h h2)
  have hread : ∀ p : Place, p.name ∈ names →
      Fault.ofCause (p.read s) = Fault.ofCause (p.read t) := by
    intro p hp
    rw [Place.read_congr (h.toAgreeOn.mono (List.forall_mem_singleton.2 hp))]
  refine alike_given h rfl fun firstKind _ => ?_
  refine alike_given h rfl fun secondKind _ => ?_
  split
  · refine alike_given h (by rw [hr1]) fun p hp => ?_
    refine alike_given h (by rw [hr2]) fun q hq => ?_
    have hp : p.name ∈ names := name_mem_of_resolve hn h1 hp
    have hq : q.name ∈ names := name_mem_of_resolve hn h2 hq
    refine alike_given h (hread p hp) fun a _ => ?_
    refine alike_given h (hread q hq) fun b _ => ?_
    exact (h.write hp b).andThen fun s' t' h' => h'.write hq a
  · exact .failed h

theorem alike_countedLoop {counter : String} (hc : counter ∈ names) {body : List Statement}
    (hb : ∀ s t, State.Twins names s₀ t₀ s t →
      Alike (State.Twins names s₀ t₀) (execBlock ceiling body s) (execBlock ceiling body t))
    (first last step : Value) (h : State.Twins names s₀ t₀ s t) :
    Alike (State.Twins names s₀ t₀)
      (countedLoop ceiling counter first last step (execBlock ceiling body) s)
      (countedLoop ceiling counter first last step (execBlock ceiling body) t) := by
  unfold countedLoop
  split
  · exact .failed h
  split
  · exact .failed h
  have hr : Alike (State.Twins names s₀ t₀)
      (repeatFor ceiling counter step last (execBlock ceiling body) ceiling first s)
      (repeatFor ceiling counter step last (execBlock ceiling body) ceiling first t) :=
    alike_repeatFor (fun s t v h => h.bindVariable counter v) hb ceiling first h
  -- Neither run has touched what stands behind the counter.
  have hs : s.SameShadows
      (repeatFor ceiling counter step last (execBlock ceiling body) ceiling first s).state :=
    sameShadows_repeatFor (sameShadows_execBlock ceiling body) ceiling first s
  have ht : t.SameShadows
      (repeatFor ceiling counter step last (execBlock ceiling body) ceiling first t).state :=
    sameShadows_repeatFor (sameShadows_execBlock ceiling body) ceiling first t
  generalize repeatFor ceiling counter step last _ ceiling first s = o at hr hs
  generalize repeatFor ceiling counter step last _ ceiling first t = o' at hr ht
  cases hr with
  | done h' => exact .done (h.restoreVariable h' hs ht hc)
  | failed h' => exact .failed h'

/-- Twins stay twins over a statement when they do so over its children, if they agree on the names
of the statement itself. -/
theorem alike_exec_of_children (hn : ∀ name ∈ statement.ownNames, name ∈ names)
    (hu : ∀ u ∈ statement.children, ∀ s t, State.Twins names s₀ t₀ s t →
      Alike (State.Twins names s₀ t₀) (u.exec ceiling s) (u.exec ceiling t))
    (h : State.Twins names s₀ t₀ s t) :
    Alike (State.Twins names s₀ t₀) (statement.exec ceiling s) (statement.exec ceiling t) := by
  cases statement with
  | declareVariables declared =>
    rw [exec, exec]
    exact alike_declareVariables h declared
  | assign target expression =>
    have hm : Text.trim target ∈ names := hn _ List.mem_cons_self
    rw [exec, exec]
    exact alike_evaluate hn h (by simp [texts]) (h.setVariable hm)
  | output expression =>
    rw [exec, exec]
    exact alike_evaluate hn h (by simp [texts]) fun value => .done (h.appendOutput _)
  | ifElse condition body elseIfs otherwise =>
    rw [children, List.forall_mem_append, List.forall_mem_append] at hu
    obtain ⟨hb, he, ho⟩ := hu
    rw [exec, exec]
    refine alike_given h (holds_of_twins hn h (by simp [texts]) (by simp [texts])) fun _ _ => ?_
    split
    · exact alike_execBlock hb h
    · refine alike_execBranches he (fun branch hm => ?_) (alike_execOtherwise ho h) h
      exact holds_of_twins hn h (left_mem_texts hm) (right_mem_texts hm)
  | whileLoop condition body =>
    rw [exec, exec]
    refine alike_repeatWhile (fun s t h => ?_) (fun s t h => alike_execBlock hu h) ceiling h
    exact holds_of_twins hn h (by simp [texts]) (by simp [texts])
  | forLoop counter first last step body =>
    have hm : Text.trim counter ∈ names := hn _ List.mem_cons_self
    rw [exec_forLoop, exec_forLoop]
    refine alike_evaluate hn h (by simp [texts]) fun first => ?_
    refine alike_evaluate hn h (by simp [texts]) fun last => ?_
    refine alike_evaluate hn h (by simp [texts]) fun step => ?_
    exact alike_countedLoop hm (fun s t h => alike_execBlock hu h) first last step h
  | declareArray name size =>
    rw [exec, exec]
    exact alike_declareArray hn h
  | assignElement name index expression =>
    rw [exec, exec]
    exact alike_assignElement hn h
  | swap first second =>
    rw [exec, exec]
    exact alike_swap hn h
  | fill name values =>
    rw [exec, exec]
    exact alike_fill hn h

/-- Twins that agree on all names of a statement stay twins over it, done or failed. -/
theorem alike_exec (hn : ∀ name ∈ statement.names, name ∈ names)
    (h : State.Twins names s₀ t₀ s t) :
    Alike (State.Twins names s₀ t₀) (statement.exec ceiling s) (statement.exec ceiling t) := by
  induction statement using induction_on_children generalizing s t with
  | step statement ih =>
    refine alike_exec_of_children (fun name ho => hn name ?_) (fun u hu s t h => ?_) h
    · exact List.mem_flatMap_of_mem statement.self_mem_parts ho
    · refine ih u hu (fun name ho => hn name ?_) h
      obtain ⟨p, hp, ho⟩ := List.mem_flatMap.1 ho
      exact List.mem_flatMap_of_mem (mem_parts_of_mem_children hu hp) ho

/-- States that agree on the names of a statement are twins to begin with. -/
theorem alike_exec_of_agreeOn (h : s.AgreeOn statement.names t) :
    Alike (State.Twins statement.names s t) (statement.exec ceiling s)
      (statement.exec ceiling t) :=
  alike_exec (fun _ hn => hn) ⟨h, [], (List.append_nil _).symm, (List.append_nil _).symm⟩

end

end Statement

/-- A statement depends on nothing but what its names stand for. From two states that agree on the
names occurring in it, it is done in both or fails with the same fault in both, it writes the same
lines after those that were there, and it leaves states that agree on its names again. -/
theorem exec_local (ceiling : Nat) (statement : Statement) (s t : State)
    (h : s.AgreeOn statement.names t) :
    (statement.exec ceiling s).fault? = (statement.exec ceiling t).fault? ∧
    (∃ added : List String,
      (statement.exec ceiling s).state.outputs.toList = s.outputs.toList ++ added ∧
      (statement.exec ceiling t).state.outputs.toList = t.outputs.toList ++ added) ∧
    (statement.exec ceiling s).state.AgreeOn statement.names (statement.exec ceiling t).state := by
  have ha : Alike (State.Twins statement.names s t) (statement.exec ceiling s)
      (statement.exec ceiling t) := Statement.alike_exec_of_agreeOn h
  exact ⟨ha.fault?_eq, ha.state.outputs, ha.state.toAgreeOn⟩

/-- Two states that bind other names too, in another order, and in which other lines were written:
the loop writes two lines in both and fails in both at the element that is not there, with its
counter bound in both. -/
theorem exec_local_failing :
    let s : State := ⟨⟨[("x", 5), ("n", 2)]⟩, ⟨[("a", #[1, 2])]⟩, #["before"]⟩
    let t : State := ⟨⟨[("n", 2), ("y", 8), ("x", 5)]⟩, ⟨[("b", #[7]), ("a", #[1, 2])]⟩, #[]⟩
    let loop : Statement := .forLoop "k" "0" "n" "1"
      [.output "a[k] + x", .assignElement "a" "k" "x * k"]
    let added := ["answer = 6", "answer = 7"]
    loop.names = ["k", "n", "a", "k", "x", "a", "k", "x", "k"] ∧
      ((loop.exec 9 s).fault? = some (.inText "a[k] + x" (.indexOutOfBounds "a" 2) ⟨0, 4⟩) ∧
        (loop.exec 9 t).fault? = (loop.exec 9 s).fault?) ∧
      ((loop.exec 9 s).state.outputs.toList = "before" :: added ∧
        (loop.exec 9 t).state.outputs.toList = added) ∧
      (loop.exec 9 s).state.AgreeOn loop.names (loop.exec 9 t).state := by
  intro s t loop added
  have hs : loop.exec 9 s = .failed (.inText "a[k] + x" (.indexOutOfBounds "a" 2) ⟨0, 4⟩)
      ⟨⟨[("x", 5), ("n", 2), ("k", 2)]⟩, ⟨[("a", #[0, 5])]⟩,
        #["before", "answer = 6", "answer = 7"]⟩ := by
    decide +kernel
  have h : s.AgreeOn loop.names t := by decide +kernel
  obtain ⟨hf, ⟨lines, hl, hl'⟩, ha⟩ := exec_local 9 loop s t h
  obtain rfl : lines = added := by
    rw [hs] at hl
    exact (List.cons.inj hl).2.symm
  refine ⟨by decide +kernel, ⟨by rw [hs]; rfl, hf.symm⟩, ⟨by rw [hs]; rfl, hl'⟩, ha⟩

end BlockScript
