import BlockScript.Proofs.Growth
import BlockScript.Proofs.Items

/-!
# Filling an array from a list

A list is filled into an array that is there in two steps: all items are evaluated, and only then is
the array replaced (`runFill_list`). Every item is therefore evaluated in the state before the
statement, also where it reads the array itself. The evaluation of the items ends with the first
that has no value, and then nothing has been changed (`fill_eq_items`). An item is trimmed before
it is evaluated, which moves the pieces that are blamed and nothing else. That the list is split
before it is read does no harm, since a text that has a value in some state has no comma in it.
-/

set_option autoImplicit false

namespace BlockScript

open Outcome

/-- The elements of one array are replaced, and nothing else changes. -/
structure State.Refilled (name : String) (elements : Array Value) (s s' : State) : Prop where
  elements : s'.elementsOf? name = some elements
  others : ∀ other, other ≠ name → s'.elementsOf? other = s.elementsOf? other
  arrayNames : s'.arrays.names = s.arrays.names
  vars : s'.vars = s.vars
  outputs : s'.outputs = s.outputs

theorem State.refilled_modify {s : State} {name : String} {old : Array Value}
    (h : s.elementsOf? name = some old) (elements : Array Value) :
    s.Refilled name elements { s with arrays := s.arrays.modify name fun _ => elements } where
  elements := by
    rw [elementsOf?, Bindings.get?_modify_self, show s.arrays.get? name = some old from h]
    rfl
  others _ hne := Bindings.get?_modify_of_ne s.arrays hne _
  arrayNames := s.arrays.names_modify name _
  vars := rfl
  outputs := rfl

section
variable {name : String} {items : List ListItem} {s : State} {old : Array Value}

/-- All items are evaluated before the array is replaced. -/
theorem runFill_list (hne : items ≠ []) (h : s.elementsOf? (Text.trim name) = some old) :
    runFill name (ListItem.list items) s =
      given s (items.mapM fun item => evaluate (Text.trim item.text) s) fun values =>
        .done { s with arrays := s.arrays.modify (Text.trim name) fun _ => values.toArray } := by
  have hc : s.arrays.contains (Text.trim name) := by
    rw [Bindings.contains, show s.arrays.get? _ = some old from h]
    rfl
  simp only [runFill, if_pos hc, State.replaceArray, ListItem.splitList_list hne, List.mapM_map]
  rfl

/-- The trimmed items have the values of the items. -/
theorem mapM_trim_eq_ok_iff {values : List Value} :
    (items.mapM fun item => evaluate (Text.trim item.text) s) = .ok values ↔
      (items.map fun item => evaluate item.text s) = values.map .ok := by
  rw [mapM_eq_ok_iff]
  induction items generalizing values with
  | nil => simp only [List.map_nil]
  | cons item items ih =>
    cases values with
    | nil => simp only [List.map_cons, List.map_nil, reduceCtorEq]
    | cons v values => simp only [List.map_cons, List.cons.injEq, evaluate_trim_eq_ok_iff, ih]

theorem exists_mapM_trim_eq_ok_iff :
    (∃ values, (items.mapM fun item => evaluate (Text.trim item.text) s) = .ok values) ↔
      ∀ item ∈ items, ∃ v, evaluate item.text s = .ok v := by
  rw [exists_mapM_eq_ok_iff]
  simp only [evaluate_trim_eq_ok_iff]

/-- The trimmed items fail as the first item does that has no value, apart from its blanks. -/
theorem mapM_trim_eq_error_iff {f : Fault} :
    (items.mapM fun item => evaluate (Text.trim item.text) s) = .error f ↔
      ∃ before item after, items = before ++ item :: after ∧
        (∀ earlier ∈ before, ∃ v, evaluate earlier.text s = .ok v) ∧
        evaluate (Text.trim item.text) s = .error f := by
  rw [mapM_eq_error_iff]
  simp only [evaluate_trim_eq_ok_iff]

end

/-- Filling an array that is there from a list is done exactly when every item has a value in the
state before it, and changes the elements of the array alone. Otherwise nothing changes, and the
fault is that of the first item without a value, trimmed. -/
theorem fill_eq_items (ceiling : Nat) (name : String) (items : List ListItem) (s : State)
    (old : Array Value) (hne : items ≠ []) (h : s.elementsOf? (Text.trim name) = some old) :
    let run := (Statement.fill name (ListItem.list items)).exec ceiling s
    ((∃ s', run = .done s') ↔ ∀ item ∈ items, ∃ v, evaluate item.text s = .ok v) ∧
    (∀ s', run = .done s' → ∃ values : List Value,
      (items.map fun item => evaluate item.text s) = values.map .ok ∧
        s.Refilled (Text.trim name) values.toArray s') ∧
    (∀ f s', run = .failed f s' ↔ s' = s ∧
      ∃ before item after, items = before ++ item :: after ∧
        (∀ earlier ∈ before, ∃ v, evaluate earlier.text s = .ok v) ∧
        evaluate (Text.trim item.text) s = .error f ∧
        ∃ g, evaluate item.text s = .error g ∧ f.Alike (Text.trim item.text) item.text g) ∧
    ∀ text u v, evaluate text u = .ok v →
      ',' ∉ text.toList ∧ Text.splitList text = [Text.trim text] := by
  intro run
  have hrun : run = _ := (Statement.exec.eq_def ..).trans (runFill_list hne h)
  refine ⟨?_, fun s' hs => ?_, fun f s' => ?_, fun text u v hv => ?_⟩
  · rw [← exists_mapM_trim_eq_ok_iff]
    simp only [hrun, given_eq_done]
    exact ⟨fun ⟨_, values, hv, _⟩ => ⟨values, hv⟩, fun ⟨values, hv⟩ => ⟨_, values, hv, rfl⟩⟩
  · rw [hrun] at hs
    obtain ⟨values, hv, hs⟩ := given_eq_done.1 hs
    cases hs
    exact ⟨values, mapM_trim_eq_ok_iff.1 hv, State.refilled_modify h values.toArray⟩
  · have hfailed : run = .failed f s' ↔
        s' = s ∧ (items.mapM fun item => evaluate (Text.trim item.text) s) = .error f := by
      simp only [hrun, given_eq_failed, reduceCtorEq, and_false, exists_false, or_false]
    rw [hfailed, mapM_trim_eq_error_iff]
    refine and_congr_right fun _ => ⟨?_, ?_⟩
    · rintro ⟨before, item, after, hs, hb, he⟩
      exact ⟨before, item, after, hs, hb, he, exists_alike_of_evaluate_trim he⟩
    · rintro ⟨before, item, after, hs, hb, he, -⟩
      exact ⟨before, item, after, hs, hb, he⟩
  · obtain ⟨e, he, -⟩ := bind_eq_ok.1 hv
    have hc := comma_not_mem_of_parse (parseText_eq_ok he)
    exact ⟨hc, Text.splitList_of_not_mem hc⟩

/-- Both items read the array and find its old elements, also after the first has a new one; an item
out of the bounds fails as it does when it is trimmed, and leaves the array alone. -/
theorem fill_eq_items_own_elements :
    let s : State := ⟨⟨[("x", 2)]⟩, ⟨[("a", #[1, 5])]⟩, #[]⟩
    let first : ListItem :=
      ⟨['\u3000'], "a[1]", [], by decide, List.forall_mem_singleton.2 rfl, List.forall_mem_nil _⟩
    let second : ListItem :=
      ⟨[], " a[0] + x", [' '], by decide, List.forall_mem_nil _, List.forall_mem_singleton.2 rfl⟩
    let outside : ListItem :=
      ⟨[], "\ta[x]", [], by decide, List.forall_mem_nil _, List.forall_mem_nil _⟩
    s.elementsOf? (Text.trim " a") = some #[1, 5] ∧
    ListItem.list [first, second] = "\u3000a[1], a[0] + x " ∧
    (∃ s', (Statement.fill " a" (ListItem.list [first, second])).exec 9 s = .done s' ∧
      s.Refilled "a" #[5, 3] s') ∧
    (Statement.fill " a" (ListItem.list [first, outside])).exec 9 s =
      .failed (.inText "a[x]" (.indexOutOfBounds "a" 2) ⟨0, 4⟩) s := by
  intro s first second outside
  have ha : s.elementsOf? (Text.trim " a") = some #[1, 5] := by decide +kernel
  have hfirst : evaluate first.text s = .ok 5 := by decide +kernel
  have hsecond : evaluate second.text s = .ok 3 := by decide +kernel
  have houtside : evaluate (Text.trim outside.text) s =
      .error (.inText "a[x]" (.indexOutOfBounds "a" 2) ⟨0, 4⟩) := by decide +kernel
  obtain ⟨hdone, hvalues, -⟩ := fill_eq_items 9 " a" [first, second] s _ (by simp) ha
  obtain ⟨-, -, hfailed, -⟩ := fill_eq_items 9 " a" [first, outside] s _ (by simp) ha
  refine ⟨ha, by decide +kernel, ?_, ?_⟩
  · obtain ⟨s', hs⟩ := hdone.2 (by simp [hfirst, hsecond])
    obtain ⟨values, hv, hr⟩ := hvalues s' hs
    have hvs : values = [5, 3] := by
      rw [← List.map_inj_right fun _ _ => @Except.ok.inj Fault _ _ _, ← hv, List.map_cons,
        List.map_cons, hfirst, hsecond]
      rfl
    exact ⟨s', hs, hvs ▸ hr⟩
  · refine (hfailed _ s).2 ⟨rfl, [first], outside, [], rfl, ?_, houtside, ?_⟩
    · simpa using ⟨5, hfirst⟩
    · exact exists_alike_of_evaluate_trim houtside

end BlockScript
