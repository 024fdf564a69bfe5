import BlockScript.Proofs.Items
import BlockScript.Proofs.Places
import BlockScript.Proofs.Running

/-!
# Names that are declared and names that are read

What a statement may declare or count with is decided by `Text.isName`, and what an expression may
look up by the scan of its text. The two are the same: a text is a name exactly when it scans to one
name from its first byte to its last (`Text.isName_iff_calls`), and the names are the texts that
some expression looks up (`readable_iff_isName`).

A declared variable can therefore be read. Its value is zero, with or without blanks around the
name, and no matter whether it was bound before or is listed twice (`evaluate_of_declareVariables`).
The names of declared arrays and of counters can be looked up as well. No statement that checks a
name refuses one that can be read, in any state. A loop over such a name can still fail for a name
that is none, but it has then met it in its body, with the counter bound
(`countedLoop_refusesName`).
-/

set_option autoImplicit false

namespace BlockScript

open Outcome

/-! ## Names and the scan -/

/-- A name that covers its text is the text. -/
theorem Piece.isName_of_mem_scan {text : String} {t : Token} (hm : .token t ∈ scan text)
    (hk : t.kind = .name) (hspan : t.span = ⟨0, Text.byteLength text.toList⟩) :
    Text.isName text := by
  obtain ⟨before, after, hs⟩ := List.append_of_mem hm
  obtain ⟨front, back, hcs, hp, -, -, hw⟩ := scanFrom_eq_append_cons hs
  -- The token takes all bytes, and none are left before and behind it.
  have hlen : Text.byteLength t.lexeme = Text.byteLength text.toList :=
    congrArg Span.length (hp.symm.trans hspan)
  rw [hcs, Text.byteLength_append, Text.byteLength_append] at hlen
  simp only [lexeme] at hlen hcs
  have hfront : front = [] := Text.byteLength_eq_zero (by omega)
  have hback : back = [] := Text.byteLength_eq_zero (by omega)
  have hspells : t.kind.Spells t.lexeme := hw
  rw [hk] at hspells
  rw [Text.isName, hcs, hfront, hback, List.nil_append, List.append_nil]
  exact hspells

/-- A text is a name exactly when a cursor gives one name that covers it, and then the end. -/
theorem Text.isName_iff_calls {text : String} :
    isName text ↔ ∃ t : Token, t.kind = .name ∧ t.span = ⟨0, byteLength text.toList⟩ ∧
      (Cursor.start text).call 0 = .token t ∧
      ∀ n, (Cursor.start text).call (n + 1) = .token ⟨.finish, [], .endOf text⟩ := by
  simp only [Cursor.call_start]
  constructor
  · intro h
    rw [Piece.scan_of_isName h]
    exact ⟨_, rfl, rfl, rfl, fun _ => rfl⟩
  · rintro ⟨t, hk, hspan, hcall, -⟩
    cases hs : Piece.scan text with
    | nil =>
      rw [hs] at hcall
      cases hcall
      cases hk
    | cons p rest =>
      rw [hs] at hcall
      cases hcall
      exact Piece.isName_of_mem_scan (by rw [hs]; exact List.mem_cons_self) hk hspan

theorem Text.trim_of_isName {text : String} (h : isName text) : trim text = text := by
  rw [Piece.trim_of_scan (Piece.scan_of_isName h)]
  exact String.ofList_toList

theorem Place.parse_of_isName {text : String} (h : Text.isName (Text.trim text)) :
    ∃ span, Expr.parse text = .ok (.var (Text.trim text) span) := by
  obtain ⟨t, ht, hs⟩ := Piece.scan_eq_name_iff.2 h
  exact ⟨t.span, by rw [Place.parse_name ht hs, Piece.trim_of_scan hs]; rfl⟩

/-- A name with blanks around it has the value of the variable. -/
theorem evaluate_of_isName {text : String} {s : State} {v : Value}
    (h : Text.isName (Text.trim text)) (hv : s.valueOf? (Text.trim text) = some v) :
    evaluate text s = .ok v := by
  obtain ⟨span, hp⟩ := Place.parse_of_isName h
  rw [evaluate_of_parse hp, Expr.eval, Expr.readVariable, hv]
  rfl

/-- A name that some expression looks up. -/
def Readable (name : String) : Prop :=
  ∃ source e, Expr.parse source = .ok e ∧ name ∈ e.names

theorem readable_iff_isName {name : String} : Readable name ↔ Text.isName name := by
  constructor
  · rintro ⟨source, e, hp, hn⟩
    rw [Expr.names_of_parse hp] at hn
    exact Piece.isName_of_mem_names hn
  · intro h
    obtain ⟨span, hp⟩ := Place.parse_of_isName (by rwa [Text.trim_of_isName h])
    rw [Text.trim_of_isName h] at hp
    exact ⟨name, _, hp, List.mem_singleton_self name⟩

/-- A name is the one item of the list that it is. -/
theorem Text.splitList_of_isName {name : String} (h : isName name) : splitList name = [name] := by
  obtain ⟨span, hp⟩ := Place.parse_of_isName (by rwa [trim_of_isName h])
  rw [splitList_of_not_mem (comma_not_mem_of_parse hp), trim_of_isName h]

/-! ## Declared variables -/

/-- Variables that are declared have the value zero, declared before or not, and no other variable
changes. -/
theorem State.valueOf?_declareVariables (names : List String) (s : State) (name : String) :
    (names.foldl declareVariable s).valueOf? name =
      if name ∈ names then some 0 else s.valueOf? name := by
  induction names generalizing s with
  | nil => rfl
  | cons first names ih =>
    rw [List.foldl_cons, ih]
    by_cases hf : name = first
    · simp [hf, valueOf?, declareVariable, bindVariable]
    · simp [hf, valueOf?, declareVariable, bindVariable, Bindings.get?_insert_of_ne _ hf]

theorem runDeclareVariables_eq_done_iff {names : String} {s s' : State} :
    runDeclareVariables names s = .done s' ↔
      (∀ name ∈ Text.splitList names, Text.isName name) ∧
        s' = (Text.splitList names).foldl State.declareVariable s := by
  rw [runDeclareVariables]
  split
  · next name hf =>
    have hn : ¬Text.isName name := by simpa using List.find?_some hf
    constructor
    · intro h
      cases h
    · intro h
      exact absurd (h.1 name (List.mem_of_find?_eq_some hf)) hn
  · next hf =>
    have hn : ∀ name ∈ Text.splitList names, Text.isName name := by simpa using hf
    rw [Outcome.done.injEq, eq_comm, iff_and_self]
    exact fun _ => hn

/-- A variable that is listed when variables are declared can be read, and is zero. -/
theorem evaluate_of_declareVariables {names name text : String} {s s' : State}
    (h : runDeclareVariables names s = .done s') (hm : name ∈ Text.splitList names)
    (ht : Text.trim text = Text.trim name) : evaluate text s' = .ok 0 := by
  obtain ⟨hn, rfl⟩ := runDeclareVariables_eq_done_iff.1 h
  rw [Text.trim_of_isName (hn name hm)] at ht
  have htext : Text.isName (Text.trim text) := by
    rw [ht]
    exact hn name hm
  apply evaluate_of_isName htext
  rw [State.valueOf?_declareVariables, ht, if_pos hm]

/-! ## Names that are refused -/

/-- A step that fails because a text is no name. -/
inductive Outcome.RefusesName : Outcome → Prop
  | intro {f : Fault} {text : String} (hc : f.cause = .invalidIdentifier text) (s : State) :
      RefusesName (.failed f s)

/-- An expression is never refused as a name. -/
theorem given_refusesName {text : String} {s : State} {next : Value → Outcome}
    (h : (given s (evaluate text s) next).RefusesName) :
    ∃ v, evaluate text s = .ok v ∧ (next v).RefusesName := by
  cases he : evaluate text s with
  | ok v =>
    rw [he] at h
    exact ⟨v, rfl, h⟩
  | error f =>
    rw [he] at h
    obtain ⟨hc⟩ : (failed f s).RefusesName := h
    obtain ⟨-, lexeme, -, -, hp⟩ := evaluate_error_pointsAt he
    rw [hc] at hp
    cases hp

/-- The name of an array is refused when it is no name, and nothing else about it is. -/
theorem runDeclareArray_refusesName_iff {name size : String} {s : State} :
    (runDeclareArray name size s).RefusesName ↔ ¬Text.isName (Text.trim name) := by
  rw [runDeclareArray]
  split
  · next hn =>
    refine iff_of_false (fun h => ?_) (not_not_intro hn)
    obtain ⟨v, -, h⟩ := given_refusesName h
    rw [State.declareArray] at h
    split at h
    · cases h
    · obtain ⟨hc⟩ := h
      cases hc
  · next hn => exact iff_of_true (.intro rfl s) hn

section
variable {ceiling : Nat} {counter : String} {step last : Value} {body : State → Outcome}

/-- What is refused in a counted loop is refused in a turn, where the counter is bound already. -/
theorem repeatFor_refusesName {n : Nat} {current : Value} {s : State}
    (h : (repeatFor ceiling counter step last body n current s).RefusesName) :
    ∃ (u : State) (v : Value), body (u.bindVariable counter v) =
      repeatFor ceiling counter step last body n current s := by
  induction n generalizing current s with
  | zero =>
    rw [repeatFor] at h
    split at h
    · obtain ⟨hc⟩ := h
      cases hc
    · cases h
  | succ n ih =>
    revert h
    rw [repeatFor]
    split
    · cases hb : body (s.bindVariable counter current) with
      | failed f s' => exact fun _ => ⟨s, current, hb⟩
      | done s' =>
        dsimp only
        cases Value.add? current step with
        | none =>
          intro h
          cases h
        | some next => exact ih
    · intro h
      cases h

theorem countedLoop_refusesName {first : Value} {s : State} (hn : Text.isName counter)
    (h : (countedLoop ceiling counter first last step body s).RefusesName) :
    ∃ (u : State) (v : Value), body (u.bindVariable counter v) =
      countedLoop ceiling counter first last step body s := by
  revert h
  rw [countedLoop, hn, Bool.not_true, if_neg Bool.false_ne_true]
  split
  · rintro ⟨hc⟩
    cases hc
  · cases hr : repeatFor ceiling counter step last body ceiling first s with
    | done s' =>
      intro h
      cases h
    | failed f s' =>
      intro h
      rw [failed_andThen, ← hr]
      exact repeatFor_refusesName (by rw [hr]; exact h)

theorem isName_of_countedLoop {first : Value} {s s' : State}
    (h : countedLoop ceiling counter first last step body s = .done s') : Text.isName counter := by
  rw [countedLoop] at h
  split at h
  · cases h
  · next hn => simpa using hn

end

section
variable {ceiling : Nat} {counter first last step : String} {body : List Statement} {s s' : State}

theorem isName_of_forLoop
    (h : Statement.exec ceiling (.forLoop counter first last step body) s = .done s') :
    Text.isName (Text.trim counter) := by
  rw [Statement.exec_forLoop, given_eq_done] at h
  obtain ⟨first, -, h⟩ := h
  obtain ⟨last, -, h⟩ := given_eq_done.1 h
  obtain ⟨step, -, h⟩ := given_eq_done.1 h
  exact isName_of_countedLoop h

/-- A loop over a name refuses what its body refuses, and nothing else. -/
theorem forLoop_refusesName (hn : Text.isName (Text.trim counter))
    (h : (Statement.exec ceiling (.forLoop counter first last step body) s).RefusesName) :
    ∃ (u : State) (v : Value),
      Statement.execBlock ceiling body (u.bindVariable (Text.trim counter) v) =
        Statement.exec ceiling (.forLoop counter first last step body) s := by
  rw [Statement.exec_forLoop] at h ⊢
  obtain ⟨first, hfirst, h⟩ := given_refusesName h
  obtain ⟨last, hlast, h⟩ := given_refusesName h
  obtain ⟨step, hstep, h⟩ := given_refusesName h
  rw [hfirst, given_ok, hlast, given_ok, hstep, given_ok]
  exact countedLoop_refusesName hn h

end

/-! ## Declarations and expressions -/

/-- A text is a name exactly when it scans to one name that covers it. A declaration of variables is
done exactly when all its names can be looked up, and they are zero then; and a name that can be
looked up is refused by no check of names. -/
theorem declared_iff_readable :
    (∀ text, Text.isName text ↔ ∃ t : Token, t.kind = .name ∧
      t.span = ⟨0, Text.byteLength text.toList⟩ ∧ (Cursor.start text).call 0 = .token t ∧
      ∀ n, (Cursor.start text).call (n + 1) = .token ⟨.finish, [], .endOf text⟩) ∧
    ∀ (ceiling : Nat) (s : State),
      (∀ names, ((∃ s', (Statement.declareVariables names).exec ceiling s = .done s') ↔
          ∀ name ∈ Text.splitList names, Readable name) ∧
        ∀ s', (Statement.declareVariables names).exec ceiling s = .done s' →
          ∀ name ∈ Text.splitList names, ∀ text, Text.trim text = Text.trim name →
            evaluate text s' = .ok 0) ∧
      (∀ name size s', (Statement.declareArray name size).exec ceiling s = .done s' →
        Readable (Text.trim name)) ∧
      (∀ counter first last step body s',
        (Statement.forLoop counter first last step body).exec ceiling s = .done s' →
          Readable (Text.trim counter)) ∧
      ∀ name, Readable name →
        (Statement.declareVariables name).exec ceiling s = .done (s.declareVariable name) ∧
        (∀ size, ¬((Statement.declareArray name size).exec ceiling s).RefusesName) ∧
        ∀ first last step body,
          let run := (Statement.forLoop name first last step body).exec ceiling s
          run.RefusesName → ∃ (u : State) (v : Value),
            Statement.execBlock ceiling body (u.bindVariable name v) = run := by
  refine ⟨fun text => Text.isName_iff_calls, fun ceiling s =>
    ⟨fun names => ⟨?_, ?_⟩, ?_, ?_, fun name hr => ?_⟩⟩
  · simp only [Statement.exec, runDeclareVariables_eq_done_iff, exists_and_left, exists_eq,
      and_true, readable_iff_isName]
  · intro s' h name hm text ht
    rw [Statement.exec] at h
    exact evaluate_of_declareVariables h hm ht
  · intro name size s' h
    rw [readable_iff_isName]
    by_contra hn
    have hr : (runDeclareArray name size s).RefusesName := runDeclareArray_refusesName_iff.2 hn
    rw [Statement.exec] at h
    rw [h] at hr
    cases hr
  · intro counter first last step body s' h
    exact readable_iff_isName.2 (isName_of_forLoop h)
  · have hn := readable_iff_isName.1 hr
    have ht := Text.trim_of_isName hn
    refine ⟨?_, fun size h => ?_, fun first last step body => ?_⟩
    · rw [Statement.exec, runDeclareVariables_eq_done_iff, Text.splitList_of_isName hn]
      exact ⟨by simpa using hn, rfl⟩
    · rw [Statement.exec, runDeclareArray_refusesName_iff, ht] at h
      exact h hn
    · intro run h
      obtain ⟨u, v, hb⟩ := forLoop_refusesName (by rwa [ht]) h
      rw [ht] at hb
      exact ⟨u, v, hb⟩

-- A list may name a variable twice, and one that is bound; a text with a digit first is no name.
example :
    let s : State := ⟨⟨[("x", 7)]⟩, .empty, #[]⟩
    (Statement.declareVariables "x,\u3000_y ,x").exec 0 s =
        .done ⟨⟨[("x", 0), ("_y", 0)]⟩, .empty, #[]⟩ ∧
      ((Statement.declareVariables "x, 2y").exec 0 s).fault? =
        some (.bare (.invalidIdentifier "2y")) := by
  decide +kernel

end BlockScript
