/-!
# Bindings

Bindings map names to contents and remember the order in which the names were bound. Binding a
name that is bound already changes its contents and leaves it where it is; a name that is erased
and bound again comes last.
-/

set_option autoImplicit false

namespace BlockScript

/-- Names with their contents, in the order the names were bound. -/
structure Bindings (α : Type) where
  entries : List (String × α)
deriving DecidableEq

namespace Bindings

variable {α : Type}

/-- No names. -/
def empty : Bindings α :=
  ⟨[]⟩

/-- The bound names, in order. -/
def names (b : Bindings α) : List String :=
  b.entries.map (·.1)

/-- The contents of the first entry for `name` in a list of entries. -/
def find? (name : String) : List (String × α) → Option α
  | [] => none
  | (key, content) :: rest => if key = name then some content else find? name rest

/-- The contents of a name. -/
def get? (b : Bindings α) (name : String) : Option α :=
  find? name b.entries

/-- Whether a name is bound. -/
def contains (b : Bindings α) (name : String) : Bool :=
  (b.get? name).isSome

/-- Changes the first entry for `name` in a list of entries, if there is one. -/
def modifyFirst (name : String) (f : α → α) : List (String × α) → List (String × α)
  | [] => []
  | (key, content) :: rest =>
    if key = name then (key, f content) :: rest else (key, content) :: modifyFirst name f rest

/-- Changes the contents of a name. A name that is not bound stays so. -/
def modify (b : Bindings α) (name : String) (f : α → α) : Bindings α :=
  ⟨modifyFirst name f b.entries⟩

/-- Binds a name, in its old place if it is bound already and at the end if not. -/
def insert (b : Bindings α) (name : String) (content : α) : Bindings α :=
  if b.contains name then b.modify name fun _ => content
  else ⟨b.entries ++ [(name, content)]⟩

/-- Removes the first entry for `name` from a list of entries. -/
def eraseFirst (name : String) : List (String × α) → List (String × α)
  | [] => []
  | (key, content) :: rest =>
    if key = name then rest else (key, content) :: eraseFirst name rest

/-- Unbinds a name. -/
def erase (b : Bindings α) (name : String) : Bindings α :=
  ⟨eraseFirst name b.entries⟩

/-! ## Giving back what was held -/

/-- What the first entry for `name` holds, and the entries with `content` put in its place. -/
def exchangeFirst? (name : String) (content : α) :
    List (String × α) → Option (α × List (String × α))
  | [] => none
  | (key, old) :: rest =>
    if key = name then some (old, (key, content) :: rest)
    else (exchangeFirst? name content rest).map fun (found, rest) => (found, (key, old) :: rest)

/-- Binds a name as `insert` does, and gives what it held before. -/
def exchange (b : Bindings α) (name : String) (content : α) : Option α × Bindings α :=
  match exchangeFirst? name content b.entries with
  | some (old, entries) => (some old, ⟨entries⟩)
  | none => (none, ⟨b.entries ++ [(name, content)]⟩)

/-- What the first entry for `name` holds, and the entries without it. -/
def takeFirst? (name : String) : List (String × α) → Option (α × List (String × α))
  | [] => none
  | (key, content) :: rest =>
    if key = name then some (content, rest)
    else (takeFirst? name rest).map fun (found, rest) => (found, (key, content) :: rest)

/-- Unbinds a name as `erase` does, and gives what it held. -/
def takeOut (b : Bindings α) (name : String) : Option α × Bindings α :=
  match takeFirst? name b.entries with
  | some (content, entries) => (some content, ⟨entries⟩)
  | none => (none, b)

/-- How many names are bound. -/
def size (b : Bindings α) : Nat :=
  b.entries.length

/-! ## Looking up after a change -/

theorem find?_modifyFirst_self (name : String) (f : α → α) (entries : List (String × α)) :
    find? name (modifyFirst name f entries) = (find? name entries).map f := by
  induction entries with
  | nil => rfl
  | cons entry rest ih =>
    obtain ⟨key, content⟩ := entry
    by_cases h : key = name <;> simp [modifyFirst, find?, h, ih]

theorem find?_modifyFirst_of_ne {name other : String} (ne : other ≠ name) (f : α → α)
    (entries : List (String × α)) :
    find? other (modifyFirst name f entries) = find? other entries := by
  induction entries with
  | nil => rfl
  | cons entry rest ih =>
    obtain ⟨key, content⟩ := entry
    by_cases h : key = name
    · simp [modifyFirst, find?, h, Ne.symm ne]
    · simp [modifyFirst, find?, h, ih]

theorem map_fst_modifyFirst (name : String) (f : α → α) (entries : List (String × α)) :
    (modifyFirst name f entries).map (·.1) = entries.map (·.1) := by
  induction entries with
  | nil => rfl
  | cons entry rest ih =>
    obtain ⟨key, content⟩ := entry
    by_cases h : key = name <;> simp [modifyFirst, h, ih]

theorem find?_append_singleton (name key : String) (content : α) (entries : List (String × α)) :
    find? name (entries ++ [(key, content)]) =
      (find? name entries).or (if key = name then some content else none) := by
  induction entries with
  | nil => simp [find?]
  | cons entry rest ih =>
    obtain ⟨k, c⟩ := entry
    by_cases h : k = name <;> simp [find?, h, ih]

/-- A name has the contents it was bound to last. -/
@[simp] theorem get?_insert_self (b : Bindings α) (name : String) (content : α) :
    (b.insert name content).get? name = some content := by
  unfold insert contains get?
  split
  · next h =>
    obtain ⟨old, found⟩ := Option.isSome_iff_exists.1 h
    simp [modify, find?_modifyFirst_self, found]
  · next h =>
    have unbound := Option.not_isSome_iff_eq_none.1 h
    simp [find?_append_singleton, unbound]

/-- Binding a name leaves every other name as it is. -/
theorem get?_insert_of_ne (b : Bindings α) {name other : String} (ne : other ≠ name)
    (content : α) : (b.insert name content).get? other = b.get? other := by
  unfold insert get?
  split
  · exact find?_modifyFirst_of_ne ne _ _
  · simp [find?_append_singleton, Ne.symm ne]

/-- Binding a bound name keeps all names in their places. -/
theorem names_insert_of_contains {b : Bindings α} {name : String} (h : b.contains name)
    (content : α) : (b.insert name content).names = b.names := by
  simp [insert, h, modify, names, map_fst_modifyFirst]

/-- Binding a new name puts it after all others. -/
theorem names_insert_of_not_contains {b : Bindings α} {name : String} (h : ¬b.contains name)
    (content : α) : (b.insert name content).names = b.names ++ [name] := by
  simp [insert, h, names]

theorem exchangeFirst?_eq (name : String) (content : α) (entries : List (String × α)) :
    exchangeFirst? name content entries =
      (find? name entries).map fun old => (old, modifyFirst name (fun _ => content) entries) := by
  induction entries with
  | nil => rfl
  | cons entry rest ih =>
    obtain ⟨key, held⟩ := entry
    by_cases h : key = name
    · simp [exchangeFirst?, find?, modifyFirst, h]
    · simp [exchangeFirst?, find?, modifyFirst, h, ih, Function.comp_def]

/-- Binding a name gives what was looked up under it. -/
theorem exchange_eq (b : Bindings α) (name : String) (content : α) :
    b.exchange name content = (b.get? name, b.insert name content) := by
  rw [exchange, exchangeFirst?_eq, insert, contains, get?]
  cases find? name b.entries with
  | none => rfl
  | some old => rfl

theorem takeFirst?_eq (name : String) (entries : List (String × α)) :
    takeFirst? name entries =
      (find? name entries).map fun content => (content, eraseFirst name entries) := by
  induction entries with
  | nil => rfl
  | cons entry rest ih =>
    obtain ⟨key, held⟩ := entry
    by_cases h : key = name
    · simp [takeFirst?, find?, eraseFirst, h]
    · simp [takeFirst?, find?, eraseFirst, h, ih, Function.comp_def]

theorem eraseFirst_of_find?_none {name : String} {entries : List (String × α)}
    (h : find? name entries = none) : eraseFirst name entries = entries := by
  induction entries with
  | nil => rfl
  | cons entry rest ih =>
    obtain ⟨key, held⟩ := entry
    by_cases hk : key = name
    · simp [find?, hk] at h
    · simp only [find?, hk, if_false] at h
      simp [eraseFirst, hk, ih h]

/-- Unbinding a name gives what was looked up under it. -/
theorem takeOut_eq (b : Bindings α) (name : String) :
    b.takeOut name = (b.get? name, b.erase name) := by
  rw [takeOut, takeFirst?_eq, erase, get?]
  cases hf : find? name b.entries with
  | none => rw [eraseFirst_of_find?_none hf]; rfl
  | some content => rfl

end Bindings

end BlockScript
