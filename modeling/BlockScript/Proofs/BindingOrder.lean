import BlockScript.Proofs.Shadows
import Mathlib.Data.Finmap

/-!
# Bindings as a finite map with an order

Bindings that start empty and are changed by binding, unbinding and writing hold what a finite map
holds that is changed in the same way (`Bindings.get?_after`). What one change does to the contents
of a name is said once (`Bindings.Change.result`) and shown of both sides. A lookup finds the first
entry of a name only, so that this needs the names to be distinct (`Bindings.nodup_after`).

The map has no order. The order of the bindings is read off its history: `Bindings.LastBoundAt` is
the last moment at which a name was bound that had not been bound before. A change keeps the order
of the names that stay, and a name that it adds comes last (`Bindings.Change.names_apply`); so the
names stand in the order of these moments (`Bindings.pairwise_after`).
-/

set_option autoImplicit false

namespace BlockScript

namespace Bindings

variable {α : Type}

/-! ## Changes -/

/-- One change to bindings. -/
inductive Change (α : Type) where
  | insert (name : String) (content : α)
  | remove (name : String)
  /-- Writes the contents of a name that is bound. -/
  | write (name : String) (f : α → α)

/-- A finite map from names to contents. -/
abbrev Table (α : Type) := Finmap fun _ : String => α

namespace Change

/-- What a change gives back, and the bindings after it. -/
def apply (b : Bindings α) : Change α → Option α × Bindings α
  | .insert name content => b.exchange name content
  | .remove name => b.takeOut name
  | .write name f => (b.get? name, b.modify name f)

/-- What a change gives back, and the finite map after it. -/
def applyTo (m : Table α) : Change α → Option α × Table α
  | .insert name content => (m.lookup name, m.insert name content)
  | .remove name => m.extract name
  | .write name f => (m.lookup name,
      match m.lookup name with
      | some content => m.insert name (f content)
      | none => m)

/-- The name that a change is about. -/
def name : Change α → String
  | .insert name _ => name
  | .remove name => name
  | .write name _ => name

/-- What the name of a change holds after it, by what it held before. -/
def result : Change α → Option α → Option α
  | .insert _ content, _ => some content
  | .remove _, _ => none
  | .write _ f, held => held.map f

end Change

/-- The bindings after changes, one after the other from no names. -/
def after (changes : List (Change α)) : Bindings α :=
  changes.foldl (fun b change => (change.apply b).2) .empty

/-- The finite map after the same changes. -/
def tableAfter (changes : List (Change α)) : Table α :=
  changes.foldl (fun m change => (change.applyTo m).2) ∅

@[simp] theorem after_concat (changes : List (Change α)) (change : Change α) :
    after (changes ++ [change]) = (change.apply (after changes)).2 :=
  List.foldl_concat ..

@[simp] theorem tableAfter_concat (changes : List (Change α)) (change : Change α) :
    tableAfter (changes ++ [change]) = (change.applyTo (tableAfter changes)).2 :=
  List.foldl_concat ..

/-! ## Contents -/

/-- An entry that is the only one of its name leaves nothing behind. -/
theorem get?_erase_of_nodup {b : Bindings α} (h : b.names.Nodup) (name : String) :
    (b.erase name).get? name = none := by
  have hc : (b.contents name).length ≤ 1 := by
    rw [length_contents]
    exact List.nodup_iff_count_le_one.1 h name
  rw [get?_erase_self, shadowed, List.head?_eq_none_iff, ← List.length_eq_zero_iff,
    List.length_tail]
  omega

namespace Change

theorem get?_apply (change : Change α) {b : Bindings α} (h : b.names.Nodup) (name : String) :
    (change.apply b).2.get? name =
      if name = change.name then change.result (b.get? name) else b.get? name := by
  cases change with
  | insert key content =>
    rw [apply, exchange_eq]
    split
    · next hn => exact hn ▸ b.get?_insert_self key content
    · next hn => exact b.get?_insert_of_ne hn content
  | remove key =>
    rw [apply, takeOut_eq]
    split
    · next hn => exact hn ▸ get?_erase_of_nodup h key
    · next hn => exact b.get?_erase_of_ne hn
  | write key f =>
    rw [apply]
    split
    · next hn => exact hn ▸ b.get?_modify_self key f
    · next hn => exact b.get?_modify_of_ne hn f

theorem lookup_applyTo (change : Change α) (m : Table α) (name : String) :
    (change.applyTo m).2.lookup name =
      if name = change.name then change.result (m.lookup name) else m.lookup name := by
  cases change with
  | insert key content =>
    rw [applyTo]
    split
    · next hn => exact hn ▸ m.lookup_insert
    · next hn => exact m.lookup_insert_of_ne hn
  | remove key =>
    rw [applyTo, Finmap.extract_eq_lookup_erase]
    split
    · next hn => exact hn ▸ m.lookup_erase key
    · next hn => exact m.lookup_erase_ne hn
  | write key f =>
    by_cases hn : name = key
    · subst hn
      cases hm : m.lookup name <;> simp [applyTo, Change.name, result, hm]
    · cases hm : m.lookup key with
      | none => simp [applyTo, Change.name, hm, hn]
      | some content => simp [applyTo, Change.name, hm, hn, Finmap.lookup_insert_of_ne]

/-! ## Names -/

theorem names_apply_eq (change : Change α) (b : Bindings α) :
    (change.apply b).2.names =
      match change with
      | .insert name _ => if name ∈ b.names then b.names else b.names ++ [name]
      | .remove name => b.names.erase name
      | .write _ _ => b.names := by
  cases change with
  | insert key content => rw [apply, exchange_eq, names_insert_eq]
  | remove key => rw [apply, takeOut_eq, names_erase]
  | write key f => rw [apply, names_modify]

/-- A change keeps names in their order, and adds at most one behind them. -/
theorem names_apply (change : Change α) (b : Bindings α) :
    ∃ kept added, (change.apply b).2.names = kept ++ added ∧ kept.Sublist b.names ∧
      (added = [] ∨ ∃ name, added = [name] ∧ name ∉ b.names) := by
  rw [names_apply_eq]
  cases change with
  | insert key content =>
    by_cases hk : key ∈ b.names
    · exact ⟨b.names, [], by simp [hk], .refl _, .inl rfl⟩
    · exact ⟨b.names, [key], by simp [hk], .refl _, .inr ⟨key, rfl, hk⟩⟩
  | remove key => exact ⟨b.names.erase key, [], by simp, List.erase_sublist, .inl rfl⟩
  | write key f => exact ⟨b.names, [], by simp, .refl _, .inl rfl⟩

theorem nodup_apply (change : Change α) {b : Bindings α} (h : b.names.Nodup) :
    (change.apply b).2.names.Nodup := by
  obtain ⟨kept, added, he, hk, ha⟩ := change.names_apply b
  rw [he]
  rcases ha with rfl | ⟨name, rfl, hn⟩
  · rw [List.append_nil]
    exact h.sublist hk
  · refine (h.sublist hk).append (List.nodup_singleton name) ?_
    rw [List.disjoint_singleton]
    exact fun hm => hn (hk.subset hm)

end Change

section
variable (changes : List (Change α))

theorem nodup_after : (after changes).names.Nodup := by
  induction changes using List.reverseRecOn with
  | nil => exact List.nodup_nil
  | append_singleton changes change ih =>
    rw [after_concat]
    exact change.nodup_apply ih

/-- Bindings hold what the finite map holds. -/
theorem get?_after (name : String) :
    (after changes).get? name = (tableAfter changes).lookup name := by
  induction changes using List.reverseRecOn with
  | nil => rfl
  | append_singleton changes change ih =>
    rw [after_concat, tableAfter_concat, change.get?_apply (nodup_after changes),
      change.lookup_applyTo, ih]

theorem mem_names_after_iff {name : String} :
    name ∈ (after changes).names ↔ name ∈ tableAfter changes := by
  rw [← contains_iff_mem_names, contains, get?_after, Finmap.lookup_isSome]

end

/-! ## Moments -/

/-- The change with number `i` binds a name that is not bound before it. -/
def BindsAt (changes : List (Change α)) (name : String) (i : Nat) : Prop :=
  name ∉ tableAfter (changes.take i) ∧ name ∈ tableAfter (changes.take (i + 1))

/-- The change with number `i` is the last one that binds a name which is not bound before it. -/
def LastBoundAt (changes : List (Change α)) (name : String) (i : Nat) : Prop :=
  BindsAt changes name i ∧ ∀ j, BindsAt changes name j → j ≤ i

section
variable {changes : List (Change α)} {change : Change α} {name : String} {i : Nat}

theorem BindsAt.lt (h : BindsAt changes name i) : i < changes.length := by
  by_contra hi
  obtain ⟨hn, hm⟩ := h
  rw [List.take_of_length_le (by omega)] at hn hm
  exact hn hm

instance : Decidable (BindsAt changes name i) :=
  decidable_of_iff
    (name ∉ (after (changes.take i)).names ∧ name ∈ (after (changes.take (i + 1))).names)
    (and_congr (not_congr (mem_names_after_iff _)) (mem_names_after_iff _))

instance : Decidable (LastBoundAt changes name i) :=
  decidable_of_iff
    (BindsAt changes name i ∧ ∀ j < changes.length, BindsAt changes name j → j ≤ i)
    (and_congr_right fun _ => forall_congr' fun _ => ⟨fun h hb => h hb.lt hb, fun h _ => h⟩)

theorem bindsAt_concat_iff :
    BindsAt (changes ++ [change]) name i ↔ BindsAt changes name i ∨
      (i = changes.length ∧ name ∉ tableAfter changes ∧
        name ∈ tableAfter (changes ++ [change])) := by
  have hlast : (changes ++ [change]).take (changes.length + 1) = changes ++ [change] :=
    List.take_of_length_le (by simp)
  rcases Nat.lt_trichotomy i changes.length with hi | rfl | hi
  · have hne : i ≠ changes.length := by omega
    unfold BindsAt
    rw [List.take_append_of_le_length (by omega), List.take_append_of_le_length (by omega)]
    simp [hne]
  · have hno : ¬BindsAt changes name changes.length := fun h => absurd h.lt (by omega)
    rw [or_iff_right hno, BindsAt, hlast, List.take_left]
    simp
  · have hno : ¬BindsAt changes name i := fun h => absurd h.lt (by omega)
    have hno' : ¬BindsAt (changes ++ [change]) name i := by
      intro h
      have := h.lt
      simp at this
      omega
    simp [hno, hno', Nat.ne_of_gt hi]

/-- While a name stays bound, the moment it was bound last stays what it is. -/
theorem lastBoundAt_concat_iff (h : name ∈ tableAfter changes) :
    LastBoundAt (changes ++ [change]) name i ↔ LastBoundAt changes name i := by
  have hb : ∀ j, BindsAt (changes ++ [change]) name j ↔ BindsAt changes name j := by
    intro j
    rw [bindsAt_concat_iff]
    simp [h]
  simp only [LastBoundAt, hb]

/-- A name that a change adds was bound last by that change. -/
theorem lastBoundAt_length (h : name ∉ tableAfter changes)
    (h' : name ∈ tableAfter (changes ++ [change])) :
    LastBoundAt (changes ++ [change]) name changes.length := by
  refine ⟨bindsAt_concat_iff.2 (.inr ⟨rfl, h, h'⟩), fun j hj => ?_⟩
  have := hj.lt
  simp at this
  omega

theorem LastBoundAt.unique {j : Nat} (h : LastBoundAt changes name i)
    (h' : LastBoundAt changes name j) : i = j :=
  Nat.le_antisymm (h'.2 i h.1) (h.2 j h'.1)

end

/-- The moment at which the first name was last bound is before that of the second. -/
def Older (changes : List (Change α)) (first second : String) : Prop :=
  ∀ i j, LastBoundAt changes first i → LastBoundAt changes second j → i < j

section
variable (changes : List (Change α))

theorem exists_lastBoundAt {name : String} (h : name ∈ (after changes).names) :
    ∃ i, LastBoundAt changes name i := by
  induction changes using List.reverseRecOn with
  | nil => cases h
  | append_singleton changes change ih =>
    by_cases hb : name ∈ tableAfter changes
    · obtain ⟨i, hi⟩ := ih ((mem_names_after_iff changes).2 hb)
      exact ⟨i, (lastBoundAt_concat_iff hb).2 hi⟩
    · exact ⟨changes.length, lastBoundAt_length hb ((mem_names_after_iff _).1 h)⟩

/-- The names stand in the order in which they were bound last. -/
theorem pairwise_after : (after changes).names.Pairwise (Older changes) := by
  induction changes using List.reverseRecOn with
  | nil => exact .nil
  | append_singleton changes change ih =>
    obtain ⟨kept, added, he, hk, ha⟩ := change.names_apply (after changes)
    rw [← after_concat] at he
    have bound : ∀ name ∈ kept, name ∈ tableAfter changes := fun name hm =>
      (mem_names_after_iff changes).1 (hk.subset hm)
    -- Names that are kept have kept their moments.
    have hkept : kept.Pairwise (Older (changes ++ [change])) := by
      refine (ih.sublist hk).imp_of_mem fun {first second} hf hs ho i j hi hj => ?_
      exact ho i j ((lastBoundAt_concat_iff (bound first hf)).1 hi)
        ((lastBoundAt_concat_iff (bound second hs)).1 hj)
    rw [he]
    rcases ha with rfl | ⟨name, rfl, hn⟩
    · rwa [List.append_nil]
    · -- The name that is added has the moment of this change, and no other has a later one.
      have hadded : LastBoundAt (changes ++ [change]) name changes.length := by
        refine lastBoundAt_length (mt (mem_names_after_iff changes).2 hn) ?_
        rw [← mem_names_after_iff, he]
        exact List.mem_append_right _ (List.mem_singleton_self name)
      refine List.pairwise_append.2 ⟨hkept, List.pairwise_singleton _ _, ?_⟩
      intro first hf second hs i j hi hj
      obtain rfl := List.mem_singleton.1 hs
      rw [hj.unique hadded]
      exact ((lastBoundAt_concat_iff (bound first hf)).1 hi).1.lt

end

end Bindings

/-- Changed from no names on, bindings hold and give back what a finite map does, under distinct
names that stand in the order in which they last became bound. Overwriting keeps this order, and so
does unbinding for all other names. -/
theorem bindings_refine_map {α : Type} (changes : List (Bindings.Change α)) :
    (Bindings.after changes).names.Nodup ∧
    (∀ name, (Bindings.after changes).get? name = (Bindings.tableAfter changes).lookup name) ∧
    (∀ name content, ((Bindings.after changes).exchange name content).1 =
      (Bindings.tableAfter changes).lookup name) ∧
    (∀ name, ((Bindings.after changes).takeOut name).1 =
      (Bindings.tableAfter changes).lookup name) ∧
    (∀ name ∈ (Bindings.after changes).names, ∃ i, Bindings.LastBoundAt changes name i) ∧
    (Bindings.after changes).names.Pairwise (Bindings.Older changes) ∧
    ∀ change : Bindings.Change α, (Bindings.after (changes ++ [change])).names =
      match change with
      | .insert name _ =>
        if name ∈ (Bindings.after changes).names then (Bindings.after changes).names
        else (Bindings.after changes).names ++ [name]
      | .remove name => (Bindings.after changes).names.filter (· != name)
      | .write _ _ => (Bindings.after changes).names := by
  have hn := Bindings.nodup_after changes
  have hg := Bindings.get?_after changes
  refine ⟨hn, hg, fun name content => ?_, fun name => ?_,
    fun name => Bindings.exists_lastBoundAt changes, Bindings.pairwise_after changes,
    fun change => ?_⟩
  · rw [Bindings.exchange_eq, hg]
  · rw [Bindings.takeOut_eq, hg]
  · rw [Bindings.after_concat, change.names_apply_eq]
    cases change with
    | insert name content => rfl
    | remove name => exact hn.erase_eq_filter name
    | write name f => rfl

/-- A name that is overwritten keeps its place. One that is unbound and bound again comes last, and
the change that bound it again is the moment that counts. -/
theorem bindings_refine_map_again :
    let changes : List (Bindings.Change Nat) :=
      [.insert "b" 1, .insert "a" 2, .insert "b" 3, .write "a" (· + 4), .remove "b", .insert "b" 5]
    (Bindings.after (changes.take 3)).names = ["b", "a"] ∧
      (Bindings.after changes).names = ["a", "b"] ∧ "b" ∈ (Bindings.after changes).names ∧
      (∃ i, Bindings.LastBoundAt changes "b" i) ∧
      Bindings.LastBoundAt changes "a" 1 ∧ Bindings.LastBoundAt changes "b" 5 ∧
      (Bindings.tableAfter changes).lookup "a" = some 6 ∧
      ((Bindings.after changes).takeOut "b").1 = (Bindings.tableAfter changes).lookup "b" ∧
      (Bindings.after (changes ++ [.remove "a"])).names = ["b"] := by
  intro changes
  obtain ⟨-, hget, -, htake, hlast, -, hnames⟩ := bindings_refine_map changes
  refine ⟨by decide, by decide, by decide, hlast "b" (by decide), by decide, by decide, ?_,
    htake "b", hnames (.remove "a")⟩
  rw [← hget]
  decide

end BlockScript
