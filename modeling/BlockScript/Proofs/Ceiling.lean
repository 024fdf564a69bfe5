import BlockScript.Program
import BlockScript.Proofs.Exact
import BlockScript.Proofs.Running

/-!
# Two ceilings

A run under a low ceiling and a run under a higher one do the same until the first reaches its
ceiling. `Outcome.Truncates` says this of the ends of two runs: they are equal, or the first was
stopped by its ceiling and has written the beginning of what the second has written. The relation
goes through sequences (`Outcome.Truncates.andThen`) and both loops (`truncates_repeatWhile`,
`truncates_repeatFor`), each with a counter of its own, and so holds of every statement
(`Statement.truncates_exec`) and every program (`Program.truncates_runFrom`).
-/

set_option autoImplicit false

namespace BlockScript

open Outcome

/-- A loop reached its ceiling. -/
def Fault.IsCeiling (f : Fault) : Prop :=
  ∃ n, f.cause = .possibleInfiniteLoop n

/-- The outputs of the first state are the first outputs of the other. -/
def State.Precedes (s s' : State) : Prop :=
  s.outputs.toList <+: s'.outputs.toList

theorem State.Precedes.refl (s : State) : s.Precedes s :=
  List.prefix_refl _

theorem State.Precedes.trans {s s' s'' : State} (h : s.Precedes s') (h' : s'.Precedes s'') :
    s.Precedes s'' :=
  List.IsPrefix.trans h h'

/-! ## Faults without a ceiling -/

/-- What fails here does not fail at a ceiling. -/
def Steady {α : Type} (x : Except Fault α) : Prop :=
  ∀ f, x = .error f → ¬f.IsCeiling

section
variable {α β : Type}

theorem Steady.ok (a : α) : Steady (.ok a : Except Fault α) :=
  fun _ h => nomatch h

theorem Steady.bind {x : Except Fault α} {next : α → Except Fault β} (hx : Steady x)
    (hn : ∀ a, Steady (next a)) : Steady (x >>= next) := by
  intro f h
  rcases bind_eq_error.1 h with h | ⟨a, -, h⟩
  · exact hx f h
  · exact hn a f h

theorem Steady.mapM {next : α → Except Fault β} (hn : ∀ a, Steady (next a)) (as : List α) :
    Steady (as.mapM next) := by
  induction as with
  | nil => exact .ok _
  | cons a as ih =>
    rw [List.mapM_cons]
    exact (hn a).bind fun b => ih.bind fun bs => .ok _

/-- A cause other than a ceiling makes no fault of one. -/
theorem Fault.not_isCeiling {f : Fault} (h : ∀ n, f.cause ≠ .possibleInfiniteLoop n) :
    ¬f.IsCeiling :=
  fun ⟨n, hn⟩ => h n hn

theorem Steady.within {text : String} {x : Except (Cause × Span) α}
    (h : ∀ cause span n, x = .error (cause, span) → cause ≠ .possibleInfiniteLoop n) :
    Steady (Fault.within text x) := by
  intro f hf
  obtain ⟨cause, span, hx, rfl⟩ := Fault.within_eq_error_iff.1 hf
  exact Fault.not_isCeiling fun n => h cause span n hx

theorem Steady.ofCause {x : Except Cause α}
    (h : ∀ cause n, x = .error cause → cause ≠ .possibleInfiniteLoop n) :
    Steady (Fault.ofCause x) := by
  intro f hf
  cases x with
  | ok a => cases hf
  | error cause =>
    cases hf
    exact Fault.not_isCeiling fun n => h cause n rfl

end

section
variable {s : State} {cause : Cause} {n : Nat}

theorem readVariable_ne_ceiling {name : String} (h : Expr.readVariable s name = .error cause) :
    cause ≠ .possibleInfiniteLoop n := by
  rw [Expr.readVariable_eq_error h]
  nofun

theorem element_ne_ceiling {name : String} {i : Value} (h : s.element name i = .error cause) :
    cause ≠ .possibleInfiniteLoop n := by
  rcases State.element_eq_error h with rfl | rfl <;> nofun

theorem Expr.Fails.ne_ceiling {p : Expr} (h : p.Fails s cause) :
    cause ≠ .possibleInfiniteLoop n := by
  cases h with
  | var h => exact readVariable_ne_ceiling h
  | element _ h => exact element_ne_ceiling h
  | signed _ h => rw [(Sign.apply_eq_error h).1]; nofun
  | binary _ _ h => rcases Operator.apply_eq_error h with ⟨rfl, -⟩ | ⟨rfl, -⟩ <;> nofun

end

theorem steady_parseText (text : String) : Steady (parseText text) := by
  intro f hf
  rw [parseText] at hf
  split at hf
  · cases hf
  · cases hf
    rintro ⟨n, hn⟩
    cases hn

theorem steady_eval (text : String) (e : Expr) (s : State) :
    Steady (Fault.within text (e.eval s)) := by
  refine .within fun cause span n h => ?_
  obtain ⟨p, -, -, hp⟩ := Expr.exists_part_of_eval_error h
  exact hp.ne_ceiling

theorem steady_evaluate (text : String) (s : State) : Steady (evaluate text s) :=
  (steady_parseText text).bind fun e => steady_eval text e s

theorem steady_holds (c : Condition) (s : State) : Steady (c.holds s) := by
  refine (steady_evaluate _ s).bind fun a => (steady_evaluate _ s).bind fun b => ?_
  refine Steady.bind ?_ fun comparator => .ok _
  refine .ofCause fun cause n h => ?_
  rw [Comparator.parse] at h
  split at h
  · cases h
  · cases h
    nofun

theorem steady_orNoOperand {α : Type} (text : String) (x : Option α) :
    Steady (orNoOperand text x) := by
  cases x with
  | none =>
    intro f hf
    cases hf
    exact Fault.not_isCeiling nofun
  | some a => exact .ok a

theorem steady_classify (text : String) : Steady (Place.classify text) := by
  refine (steady_parseText text).bind fun e => ?_
  split <;> exact .ok _

theorem steady_resolve (s : State) (text : String) : Steady (Place.resolve s text) := by
  refine (steady_parseText text).bind fun e => ?_
  split
  · refine Steady.bind (.within fun cause span n h => ?_) fun _ => .ok _
    exact readVariable_ne_ceiling (Expr.blame_eq_error h).1
  · refine (steady_eval text _ s).bind fun i => ?_
    refine Steady.bind (.within fun cause span n h => ?_) fun _ => .ok _
    exact element_ne_ceiling (Expr.blame_eq_error h).1
  · exact .ok _

theorem steady_read (s : State) (p : Place) : Steady (Fault.ofCause (p.read s)) := by
  refine .ofCause fun cause n h => ?_
  match p with
  | .variable name => exact readVariable_ne_ceiling h
  | .element name i => exact element_ne_ceiling h

/-! ## Steps without a ceiling -/

/-- A step from a state keeps what was written, and does not fail at a ceiling. -/
structure Outcome.Plain (s : State) (o : Outcome) : Prop where
  grows : s.Precedes o.state
  steady : ∀ f, o.fault? = some f → ¬f.IsCeiling

namespace Outcome.Plain

variable {s s' : State}

theorem done (h : s.Precedes s') : Plain s (.done s') :=
  ⟨h, fun _ hf => nomatch hf⟩

theorem failed {f : Fault} (h : s.Precedes s') (hf : ¬f.IsCeiling) : Plain s (.failed f s') := by
  refine ⟨h, fun f' hf' => ?_⟩
  cases hf'
  exact hf

theorem bare {cause : Cause} (h : ∀ n, cause ≠ .possibleInfiniteLoop n) :
    Plain s (.failed (.bare cause) s) :=
  .failed (.refl s) (Fault.not_isCeiling h)

theorem given {α : Type} {x : Except Fault α} {next : α → Outcome} (hx : Steady x)
    (hn : ∀ a, Plain s (next a)) : Plain s (given s x next) := by
  cases x with
  | ok a => exact hn a
  | error f => exact .failed (.refl s) (hx f rfl)

theorem andThen {o : Outcome} {next : State → Outcome} (h : Plain s o)
    (hn : ∀ s', Plain s' (next s')) : Plain s (o.andThen next) := by
  cases o with
  | done s' => exact ⟨h.grows.trans (hn s').grows, (hn s').steady⟩
  | failed f s' => exact h

end Outcome.Plain

namespace State

theorem precedes_declareVariables (names : List String) (s : State) :
    s.Precedes (names.foldl declareVariable s) := by
  induction names generalizing s with
  | nil => exact .refl s
  | cons name names ih => exact ih (s.declareVariable name)

theorem precedes_appendOutput (s : State) (line : String) : s.Precedes (s.appendOutput line) := by
  rw [Precedes, appendOutput, Array.toList_push]
  exact List.prefix_append _ _

theorem precedes_restoreVariable (name : String) (before : Option Value) (s : State) :
    s.Precedes (restoreVariable name before s) := by
  cases before <;> exact .refl s

theorem plain_setVariable (s : State) (name : String) (value : Value) :
    Plain s (s.setVariable name value) := by
  rw [setVariable]
  split
  · exact .done (.refl s)
  · exact .bare nofun

theorem plain_declareArray (s : State) (name : String) (size : Value) :
    Plain s (s.declareArray name size) := by
  rw [declareArray]
  split
  · exact .done (.refl s)
  · exact .bare nofun

theorem plain_setElement (s : State) (name : String) (i value : Value) :
    Plain s (s.setElement name i value) := by
  rw [setElement]
  split
  · exact .bare nofun
  · split
    · exact .bare nofun
    · exact .done (.refl s)

theorem plain_replaceArray (s : State) (name : String) (elements : Array Value) :
    Plain s (s.replaceArray name elements) := by
  rw [replaceArray]
  split
  · exact .done (.refl s)
  · exact .bare nofun

end State

section
variable (s : State)

theorem plain_write (value : Value) (p : Place) : Plain s (p.write s value) := by
  match p with
  | .variable name => exact s.plain_setVariable name value
  | .element name i => exact s.plain_setElement name i value

theorem plain_declareVariables (names : String) : Plain s (runDeclareVariables names s) := by
  rw [runDeclareVariables]
  split
  · exact .bare nofun
  · exact .done (State.precedes_declareVariables _ s)

theorem plain_declareArray (name size : String) : Plain s (runDeclareArray name size s) := by
  rw [runDeclareArray]
  split
  · exact .given (steady_evaluate size s) fun n => s.plain_declareArray _ n
  · exact .bare nofun

theorem plain_assignElement (name index expression : String) :
    Plain s (runAssignElement name index expression s) := by
  refine .given (steady_evaluate index s) fun i => ?_
  exact .given (steady_evaluate expression s) fun value => s.plain_setElement _ i value

theorem plain_fill (name values : String) : Plain s (runFill name values s) := by
  rw [runFill]
  split
  · refine .given (.mapM (fun item => steady_evaluate item s) _) fun elements => ?_
    exact s.plain_replaceArray _ _
  · exact .bare nofun

theorem plain_swap (first second : String) : Plain s (runSwap first second s) := by
  refine .given ((steady_classify _).bind (steady_orNoOperand _)) fun firstKind => ?_
  refine .given ((steady_classify _).bind (steady_orNoOperand _)) fun secondKind => ?_
  split
  · refine .given ((steady_resolve s _).bind (steady_orNoOperand _)) fun p => ?_
    refine .given ((steady_resolve s _).bind (steady_orNoOperand _)) fun q => ?_
    refine .given (steady_read s p) fun a => .given (steady_read s q) fun b => ?_
    exact (plain_write s b p).andThen fun s' => plain_write s' a q
  · exact .bare nofun

end

/-! ## Two runs -/

theorem precedes_given {α : Type} {s : State} {x : Except Fault α} {next : α → Outcome}
    (hn : ∀ a, s.Precedes (next a).state) : s.Precedes (given s x next).state := by
  cases x with
  | ok a => exact hn a
  | error f => exact .refl s

theorem precedes_andThen {s : State} {o : Outcome} {next : State → Outcome}
    (h : s.Precedes o.state) (hn : ∀ s' : State, s'.Precedes (next s').state) :
    s.Precedes (o.andThen next).state := by
  cases o with
  | done s' => exact h.trans (hn s')
  | failed f s' => exact h

/-- The ends of two runs from one state, the first under the lower ceiling. -/
inductive Outcome.Truncates (ceiling : Nat) (s : State) : Outcome → Outcome → Prop
  /-- The ceiling was not reached, and the runs end alike. -/
  | same {o : Outcome} (h : Plain s o) : Truncates ceiling s o o
  /-- The first run was stopped by its ceiling, and the other has written more. -/
  | cut {s' : State} {o : Outcome} (h : s.Precedes o.state) (h' : s'.Precedes o.state) :
      Truncates ceiling s (.failed (.bare (.possibleInfiniteLoop ceiling)) s') o

namespace Outcome.Truncates

variable {ceiling : Nat} {s : State} {o o' : Outcome}

theorem grows (h : Truncates ceiling s o o') : s.Precedes o'.state := by
  cases h with
  | same h => exact h.grows
  | cut h _ => exact h

/-- A run may start from less than what it found written. -/
theorem of_precedes {s' : State} (hs : s.Precedes s') (h : Truncates ceiling s' o o') :
    Truncates ceiling s o o' := by
  cases h with
  | same h => exact .same ⟨hs.trans h.grows, h.steady⟩
  | cut h h' => exact .cut (hs.trans h) h'

theorem given {α : Type} {x : Except Fault α} {next next' : α → Outcome} (hx : Steady x)
    (hn : ∀ a, Truncates ceiling s (next a) (next' a)) :
    Truncates ceiling s (given s x next) (given s x next') := by
  cases x with
  | ok a => exact hn a
  | error f => exact .same (.failed (.refl s) (hx f rfl))

/-- A run that was cut stays cut, and the other one only writes more. -/
theorem andThen {next next' : State → Outcome} (h : Truncates ceiling s o o')
    (hn : ∀ s', Truncates ceiling s' (next s') (next' s')) :
    Truncates ceiling s (o.andThen next) (o'.andThen next') := by
  have hg : ∀ s' : State, s'.Precedes (next' s').state := fun s' => (hn s').grows
  cases h with
  | cut h h' => exact .cut (precedes_andThen h hg) (precedes_andThen h' hg)
  | same h =>
    cases o with
    | done s' => exact (hn s').of_precedes h.grows
    | failed f s' => exact .same h

end Outcome.Truncates

/-! ## Loops -/

section
variable {ceiling ceiling' n m : Nat} {s : State} {turn turn' : Nat → Outcome}

theorem precedes_unlessSpent (h : ∀ k < n, s.Precedes (turn k).state) :
    s.Precedes (unlessSpent ceiling s turn n).state := by
  cases n with
  | zero => exact .refl s
  | succ n => exact h n (Nat.lt_succ_self n)

/-- A loop without turns left is cut, and then the other loop may still go on. -/
theorem truncates_unlessSpent (hnm : n ≤ m) (hg : ∀ l < m, s.Precedes (turn' l).state)
    (h : ∀ k l, k < n → k ≤ l → Truncates ceiling s (turn k) (turn' l)) :
    Truncates ceiling s (unlessSpent ceiling s turn n) (unlessSpent ceiling' s turn' m) := by
  cases n with
  | zero =>
    have hm : s.Precedes (unlessSpent ceiling' s turn' m).state := precedes_unlessSpent hg
    exact .cut hm hm
  | succ n =>
    cases m with
    | zero => exact absurd hnm (Nat.not_succ_le_zero n)
    | succ m => exact h n m (Nat.lt_succ_self n) (Nat.le_of_succ_le_succ hnm)

end

section
variable {ceiling ceiling' n m : Nat} {test : State → Except Fault Bool}
  {body body' : State → Outcome} {counter : String} {step last : Value}

theorem precedes_repeatWhile (hb : ∀ s : State, s.Precedes (body s).state) (n : Nat) (s : State) :
    s.Precedes (repeatWhile ceiling test body n s).state := by
  induction n using Nat.strongRecOn generalizing s with
  | ind n ih =>
    rw [repeatWhile_eq]
    refine precedes_given fun again => ?_
    cases again with
    | false => exact .refl s
    | true => exact precedes_unlessSpent fun k hk => precedes_andThen (hb s) (ih k hk)

/-- The induction is on the turns left to the first loop. The other has as many, or more. -/
theorem truncates_repeatWhile (ht : ∀ s, Steady (test s))
    (hb : ∀ s, Truncates ceiling s (body s) (body' s)) (hnm : n ≤ m) (s : State) :
    Truncates ceiling s (repeatWhile ceiling test body n s)
      (repeatWhile ceiling' test body' m s) := by
  have hg : ∀ s : State, s.Precedes (body' s).state := fun s => (hb s).grows
  induction n using Nat.strongRecOn generalizing m s with
  | ind n ih =>
    rw [repeatWhile_eq, repeatWhile_eq]
    refine .given (ht s) fun again => ?_
    cases again with
    | false => exact .same (.done (.refl s))
    | true =>
      refine truncates_unlessSpent hnm ?_ ?_
      · exact fun l _ => precedes_andThen (hg s) (precedes_repeatWhile hg l)
      · exact fun k l hk hkl => (hb s).andThen fun s' => ih k hk hkl s'

theorem precedes_countedTurn {rest : Value → State → Outcome} {current : Value} {s : State}
    (hb : ∀ s : State, s.Precedes (body s).state)
    (hr : ∀ next (s : State), s.Precedes (rest next s).state) :
    s.Precedes (countedTurn counter step current body rest s).state := by
  refine precedes_andThen (hb (s.bindVariable counter current)) fun s' => ?_
  cases Value.add? current step with
  | none => exact .refl s'
  | some next => exact hr next s'

theorem truncates_countedTurn {rest rest' : Value → State → Outcome} {current : Value} {s : State}
    (hb : ∀ s, Truncates ceiling s (body s) (body' s))
    (hr : ∀ next s, Truncates ceiling s (rest next s) (rest' next s)) :
    Truncates ceiling s (countedTurn counter step current body rest s)
      (countedTurn counter step current body' rest' s) := by
  have hs : s.Precedes (s.bindVariable counter current) := .refl s
  refine ((hb (s.bindVariable counter current)).of_precedes hs).andThen fun s' => ?_
  cases Value.add? current step with
  | none => exact .same (.done (.refl s'))
  | some next => exact hr next s'

theorem precedes_repeatFor (hb : ∀ s : State, s.Precedes (body s).state) (n : Nat)
    (current : Value) (s : State) :
    s.Precedes (repeatFor ceiling counter step last body n current s).state := by
  induction n using Nat.strongRecOn generalizing current s with
  | ind n ih =>
    rw [repeatFor_eq]
    split
    · exact precedes_unlessSpent fun k hk => precedes_countedTurn hb (ih k hk)
    · exact .refl s

theorem truncates_repeatFor (hb : ∀ s, Truncates ceiling s (body s) (body' s)) (hnm : n ≤ m)
    (current : Value) (s : State) :
    Truncates ceiling s (repeatFor ceiling counter step last body n current s)
      (repeatFor ceiling' counter step last body' m current s) := by
  have hg : ∀ s : State, s.Precedes (body' s).state := fun s => (hb s).grows
  induction n using Nat.strongRecOn generalizing m current s with
  | ind n ih =>
    rw [repeatFor_eq, repeatFor_eq]
    split
    · refine truncates_unlessSpent hnm ?_ ?_
      · exact fun l _ => precedes_countedTurn hg (precedes_repeatFor hg l)
      · exact fun k l hk hkl => truncates_countedTurn hb fun next s' => ih k hk hkl next s'
    · exact .same (.done (.refl s))

end

theorem truncates_countedLoop {low high : Nat} (h : low ≤ high) {counter : String}
    {first last step : Value} {body body' : State → Outcome}
    (hb : ∀ s, Truncates low s (body s) (body' s)) (s : State) :
    Truncates low s (countedLoop low counter first last step body s)
      (countedLoop high counter first last step body' s) := by
  unfold countedLoop
  split
  · exact .same (.bare nofun)
  split
  · exact .same (.bare nofun)
  refine (truncates_repeatFor hb h first s).andThen fun s' => ?_
  exact .same (.done (State.precedes_restoreVariable counter _ s'))

/-! ## Statements and programs -/

namespace Statement

section
variable {low high : Nat}

mutual

theorem truncates_exec (h : low ≤ high) (statement : Statement) (s : State) :
    Truncates low s (exec low statement s) (exec high statement s) := by
  match statement with
  | .declareVariables names =>
    rw [exec, exec]
    exact .same (plain_declareVariables s names)
  | .assign target expression =>
    rw [exec, exec]
    exact .same (.given (steady_evaluate expression s) (s.plain_setVariable _))
  | .output expression =>
    rw [exec, exec]
    refine .same (.given (steady_evaluate expression s) fun value => ?_)
    exact .done (s.precedes_appendOutput _)
  | .ifElse condition body elseIfs otherwise =>
    rw [exec, exec]
    refine .given (steady_holds condition s) fun holds => ?_
    split
    · exact truncates_execBlock h body s
    · exact truncates_execBranches h elseIfs (truncates_execOtherwise h otherwise) s
  | .whileLoop condition body =>
    rw [exec, exec]
    exact truncates_repeatWhile (steady_holds condition) (truncates_execBlock h body) h s
  | .forLoop counter first last step body =>
    rw [exec_forLoop, exec_forLoop]
    refine .given (steady_evaluate first s) fun first => ?_
    refine .given (steady_evaluate last s) fun last => ?_
    refine .given (steady_evaluate step s) fun step => ?_
    exact truncates_countedLoop h (truncates_execBlock h body) s
  | .declareArray name size =>
    rw [exec, exec]
    exact .same (plain_declareArray s name size)
  | .assignElement name index expression =>
    rw [exec, exec]
    exact .same (plain_assignElement s name index expression)
  | .swap first second =>
    rw [exec, exec]
    exact .same (plain_swap s first second)
  | .fill name values =>
    rw [exec, exec]
    exact .same (plain_fill s name values)

theorem truncates_execBlock (h : low ≤ high) (block : List Statement) (s : State) :
    Truncates low s (execBlock low block s) (execBlock high block s) := by
  match block with
  | [] =>
    rw [execBlock, execBlock]
    exact .same (.done (.refl s))
  | statement :: rest =>
    rw [execBlock_cons, execBlock_cons]
    exact (truncates_exec h statement s).andThen (truncates_execBlock h rest)

theorem truncates_execBranches (h : low ≤ high) (branches : List (Condition × List Statement))
    {fallback fallback' : State → Outcome}
    (hf : ∀ s, Truncates low s (fallback s) (fallback' s)) (s : State) :
    Truncates low s (execBranches low branches fallback s)
      (execBranches high branches fallback' s) := by
  match branches with
  | [] =>
    rw [execBranches, execBranches]
    exact hf s
  | (condition, body) :: rest =>
    rw [execBranches, execBranches]
    refine .given (steady_holds condition s) fun holds => ?_
    split
    · exact truncates_execBlock h body s
    · exact truncates_execBranches h rest hf s

theorem truncates_execOtherwise (h : low ≤ high) (otherwise : Option (List Statement))
    (s : State) :
    Truncates low s (execOtherwise low otherwise s) (execOtherwise high otherwise s) := by
  match otherwise with
  | none =>
    rw [execOtherwise, execOtherwise]
    exact .same (.done (.refl s))
  | some body =>
    rw [execOtherwise, execOtherwise]
    exact truncates_execBlock h body s

end

end

end Statement

/-- The reports of two runs of a program from one state, the first under the lower ceiling. -/
inductive Report.Truncates (ceiling : Nat) (s : State) : Report → Report → Prop
  | same {r : Report} (h : s.Precedes r.state)
      (hf : ∀ failure, r.failure = some failure → ¬failure.fault.IsCeiling) :
      Truncates ceiling s r r
  | cut {s' : State} {index : Nat} {r : Report} (h : s.Precedes r.state)
      (h' : s'.Precedes r.state) :
      Truncates ceiling s ⟨s', some ⟨index, .bare (.possibleInfiniteLoop ceiling)⟩⟩ r

namespace Report.Truncates

variable {ceiling : Nat} {s : State} {r r' : Report}

theorem grows (h : Truncates ceiling s r r') : s.Precedes r'.state := by
  cases h with
  | same h _ => exact h
  | cut h _ => exact h

theorem of_precedes {s' : State} (hs : s.Precedes s') (h : Truncates ceiling s' r r') :
    Truncates ceiling s r r' := by
  cases h with
  | same h hf => exact .same (hs.trans h) hf
  | cut h h' => exact .cut (hs.trans h) h'

end Report.Truncates

theorem Program.truncates_runFrom {low high : Nat} (h : low ≤ high) (index : Nat)
    (statements : List Statement) (s : State) :
    Report.Truncates low s (runFrom low index statements s) (runFrom high index statements s) := by
  induction statements generalizing index s with
  | nil => exact .same (.refl s) fun _ hf => nomatch hf
  | cons statement rest ih =>
    have hx := Statement.truncates_exec h statement s
    rw [runFrom, runFrom]
    generalize statement.exec low s = o at hx
    generalize statement.exec high s = o' at hx
    cases hx with
    | same hp =>
      cases o with
      | done s' => exact (ih (index + 1) s').of_precedes hp.grows
      | failed f s' =>
        refine .same hp.grows fun failure hf => ?_
        cases hf
        exact hp.steady f rfl
    | cut hg hc =>
      cases o' with
      | done s' =>
        have hr := (ih (index + 1) s').grows
        exact .cut (hg.trans hr) (hc.trans hr)
      | failed f s' => exact .cut hg hc

/-- A run that does not reach its ceiling is the same under every higher ceiling, to the last part
of its report. One that does says so with its own ceiling, and has written the beginning of what is
written under a higher one. Both hold of programs and of single statements in any state. -/
theorem run_of_ceiling_le {low high : Nat} (h : low ≤ high) :
    (∀ p : Program,
      ((∀ failure n, (p.run low).failure = some failure →
          failure.fault.cause ≠ .possibleInfiniteLoop n) → p.run high = p.run low) ∧
      ∀ failure n, (p.run low).failure = some failure →
        failure.fault.cause = .possibleInfiniteLoop n →
          n = low ∧ (p.run low).state.outputs.toList <+: (p.run high).state.outputs.toList) ∧
    ∀ (statement : Statement) (s : State),
      ((∀ f n, (statement.exec low s).fault? = some f → f.cause ≠ .possibleInfiniteLoop n) →
        statement.exec high s = statement.exec low s) ∧
      ∀ f n, (statement.exec low s).fault? = some f → f.cause = .possibleInfiniteLoop n →
        n = low ∧ (statement.exec low s).state.outputs.toList <+:
          (statement.exec high s).state.outputs.toList := by
  refine ⟨fun p => ?_, fun statement s => ?_⟩
  · have hr : Report.Truncates low .empty (p.run low) (p.run high) :=
      Program.truncates_runFrom h 0 p.statements .empty
    generalize p.run low = r at hr
    generalize p.run high = r' at hr
    cases hr with
    | same _ hf => exact ⟨fun _ => rfl, fun failure n hs hc => absurd ⟨n, hc⟩ (hf failure hs)⟩
    | cut _ hc =>
      refine ⟨fun hf => absurd rfl (hf _ low rfl), fun failure n hs hn => ?_⟩
      cases hs
      exact ⟨(Cause.possibleInfiniteLoop.inj hn).symm, hc⟩
  · have ho := Statement.truncates_exec h statement s
    generalize statement.exec low s = o at ho
    generalize statement.exec high s = o' at ho
    cases ho with
    | same hp => exact ⟨fun _ => rfl, fun f n hs hc => absurd ⟨n, hc⟩ (hp.steady f hs)⟩
    | cut _ hc =>
      refine ⟨fun hf => absurd rfl (hf _ low rfl), fun f n hs hn => ?_⟩
      cases hs
      exact ⟨(Cause.possibleInfiniteLoop.inj hn).symm, hc⟩

/-- A loop of three turns is stopped at two and comes through with five. -/
theorem run_of_ceiling_le_three :
    let p : Program := ⟨[.declareVariables "x",
      .whileLoop ⟨"x", "<", "3"⟩ [.output "x", .assign "x" "x + 1"]]⟩
    2 ≤ 5 ∧ (p.run 2).failure = some ⟨1, .bare (.possibleInfiniteLoop 2)⟩ ∧
      (p.run 2).state.outputs.toList <+: (p.run 5).state.outputs.toList ∧
      (p.run 5).failure = none := by
  intro p
  have hf : (p.run 2).failure = some ⟨1, .bare (.possibleInfiniteLoop 2)⟩ := by decide +kernel
  have h : 2 ≤ 5 := by decide
  refine ⟨h, hf, (((run_of_ceiling_le h).1 p).2 _ 2 hf rfl).2, ?_⟩
  decide +kernel

end BlockScript
